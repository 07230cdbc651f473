import NexusTok.Store.Tally
import NexusTok.Wallet.Quota

/-!
# The ledger of wallets and tokens

Quota moves through a handful of writers: `IncreaseUserQuota`, `DecreaseUserQuota` and their token
counterparts, the reservations of `quota_reserve.go`, and the flush `batchUpdate`.  With batch
updates enabled the writers queue their changes and the flush writes the sums; otherwise they write
at once.

The ledger is the database together with the queues.  A *balance* is what is stored plus what is
queued; a writer moves balances whichever way it takes, and the flush moves none of them.

Redis answers reservations from its own copy of a balance.  What it answers is not decided by the
database, so a reservation takes the answer as an argument (`Admission`).

* `increaseUserQuota_ok`, `decreaseUserQuota_ok`, … : what a writer does to the balances.
* `batchUpdate_walletBalance` : a flush that meets no failing statement moves no balance.
-/

namespace NexusTok

open List Table

/-! ### The ledger -/

/-- The queues of batch updates.  The queue of channels is left out with their table. -/
structure Queues where
  userQuota : Tally ℤ
  tokenQuota : Tally ℤ
  usedQuota : Tally ℤ
  requestCount : Tally ℤ
  deriving DecidableEq

def Queues.empty : Queues := ⟨[], [], [], []⟩

/-- The database and the queues. -/
structure Ledger where
  db : DB
  queues : Queues
  deriving DecidableEq

/-- How the process is set up. -/
structure Setup where
  batchUpdateEnabled : Bool
  /-- The main database is SQLite; otherwise it is MySQL or PostgreSQL. -/
  sqlite : Bool

/-- `addNewRecord`.  Amounts are integers here, so the sum does not wrap around and the branch for
its overflow is never taken. -/
def addNewRecord (queue : Tally ℤ) (id value : ℤ) : Tally ℤ := queue.add id value

namespace Ledger

/-- Queue a change of a wallet. -/
def queueUser (l : Ledger) (id value : ℤ) : Ledger :=
  { l with queues := { l.queues with userQuota := addNewRecord l.queues.userQuota id value } }

/-- Queue a change of a token. -/
def queueToken (l : Ledger) (id value : ℤ) : Ledger :=
  { l with queues := { l.queues with tokenQuota := addNewRecord l.queues.tokenQuota id value } }

/-- The ledger after a writer; one that errs has left it alone. -/
def after (l : Ledger) : Except Err Ledger → Ledger
  | .error _ => l
  | .ok l' => l'

def walletBalance (l : Ledger) (id : ℤ) : Option ℤ :=
  (l.db.wallet id).map (· + l.queues.userQuota.value id)

def tokenBalance (l : Ledger) (id : ℤ) : Option ℤ :=
  (l.db.token id).map fun t => t.remainQuota + l.queues.tokenQuota.value id

end Ledger

/-- `UPDATE users SET quota = quota + ?`. -/
def DB.addQuota (db : DB) (id delta : ℤ) : DB :=
  db.updateUser id fun u => { u with quota := u.quota + delta }

/-- `UPDATE tokens SET remain_quota = remain_quota + ?, used_quota = used_quota - ?`. -/
def DB.addTokenQuota (db : DB) (id delta : ℤ) : DB :=
  db.updateToken id fun t =>
    { t with remainQuota := t.remainQuota + delta, usedQuota := t.usedQuota - delta }

/-! ### The writers -/

/-- `quota 不能为负数！`. -/
def errNegativeQuota : Err := .text "quota 不能为负数！"

def errWalletQuotaLimitExceeded : Err := .text "wallet quota limit exceeded"

/-- `increaseUserQuota`: the ceiling is a condition inside the `UPDATE`. -/
def increaseUserQuotaDB (f : Faults) (id quota : ℤ) (db : DB) : Except Err DB :=
  if f ⟨.update, .users, id⟩ then .error (.db ⟨.update, .users, id⟩)
  else
    match db.user id with
    | none =>
      if f ⟨.count, .users, id⟩ then .error (.db ⟨.count, .users, id⟩)
      else .error errRecordNotFound
    | some user =>
      if user.quota ≤ maxWalletQuota - quota then .ok (db.addQuota id quota)
      else if f ⟨.count, .users, id⟩ then .error (.db ⟨.count, .users, id⟩)
      else .error errWalletQuotaLimitExceeded

def validateWalletQuota (quota : ℤ) : Except Err Unit :=
  if maxWalletQuota < quota then .error (.text "wallet quota exceeds 9007199254740991") else .ok ()

variable (setup : Setup)

/-- `IncreaseUserQuota`; `direct` is the argument that forces a write at once. -/
def increaseUserQuota (f : Faults) (id quota : ℤ) (direct : Bool) (l : Ledger) :
    Except Err Ledger :=
  if quota < 0 then .error errNegativeQuota
  else
    match validateWalletQuota quota with
    | .error e => .error e
    | .ok _ =>
      if !direct && setup.batchUpdateEnabled then .ok (l.queueUser id quota)
      else
        match increaseUserQuotaDB f id quota l.db with
        | .error e => .error e
        | .ok db => .ok { l with db := db }

/-- `DecreaseUserQuota`; the write at once has no condition. -/
def decreaseUserQuota (f : Faults) (id quota : ℤ) (direct : Bool) (l : Ledger) :
    Except Err Ledger :=
  if quota < 0 then .error errNegativeQuota
  else if !direct && setup.batchUpdateEnabled then .ok (l.queueUser id (-quota))
  else if f ⟨.update, .users, id⟩ then .error (.db ⟨.update, .users, id⟩)
  else .ok { l with db := l.db.addQuota id (-quota) }

/-- The write of `increaseTokenQuota` and `decreaseTokenQuota`, which have no condition. -/
def changeTokenQuota (f : Faults) (id delta : ℤ) (l : Ledger) : Except Err Ledger :=
  if setup.batchUpdateEnabled then .ok (l.queueToken id delta)
  else if f ⟨.update, .tokens, id⟩ then .error (.db ⟨.update, .tokens, id⟩)
  else .ok { l with db := l.db.addTokenQuota id delta }

def increaseTokenQuota (f : Faults) (id quota : ℤ) (l : Ledger) : Except Err Ledger :=
  if quota < 0 then .error errNegativeQuota else changeTokenQuota setup f id quota l

def decreaseTokenQuota (f : Faults) (id quota : ℤ) (l : Ledger) : Except Err Ledger :=
  if quota < 0 then .error errNegativeQuota else changeTokenQuota setup f id (-quota) l

/-! ### Reservations -/

/-- Who answers a reservation. -/
inductive Admission where
  /-- The database: Redis is off, has no copy of the balance, or fails. -/
  | database
  /-- Redis, whose copy of the balance is large enough. -/
  | cacheOK
  /-- Redis, whose copy of the balance is too small. -/
  | cacheInsufficient
  deriving DecidableEq

/-- A reservation of a wallet, as it is answered.  One that Redis has admitted is written without a
condition, but must find its row; one that the database answers is a conditional `UPDATE`. -/
def admitUserQuota (f : Faults) (id quota : ℤ) (l : Ledger) : Admission → Except Err (Bool × Ledger)
  | .cacheInsufficient => .ok (false, l)
  | .cacheOK =>
    if setup.batchUpdateEnabled then .ok (true, l.queueUser id (-quota))
    else if f ⟨.update, .users, id⟩ then .error (.db ⟨.update, .users, id⟩)
    else if (l.db.user id).isNone then .error errRecordNotFound
    else .ok (true, { l with db := l.db.addQuota id (-quota) })
  | .database =>
    if f ⟨.update, .users, id⟩ then .error (.db ⟨.update, .users, id⟩)
    else
      match l.db.user id with
      | none => .ok (false, l)
      | some user =>
        if quota ≤ user.quota then .ok (true, { l with db := l.db.addQuota id (-quota) })
        else .ok (false, l)

def tryReserveUserQuota (f : Faults) (a : Admission) (id quota : ℤ) (l : Ledger) :
    Except Err (Bool × Ledger) :=
  if quota < 0 then .error errNegativeQuota
  else if quota = 0 then .ok (true, l)
  else admitUserQuota setup f id quota l a

/-- A reservation of a token, as it is answered. -/
def admitTokenQuota (f : Faults) (id quota : ℤ) (l : Ledger) :
    Admission → Except Err (Bool × Ledger)
  | .cacheInsufficient => .ok (false, l)
  | .cacheOK =>
    if setup.batchUpdateEnabled then .ok (true, l.queueToken id (-quota))
    else if f ⟨.update, .tokens, id⟩ then .error (.db ⟨.update, .tokens, id⟩)
    else if (l.db.token id).isNone then .error errRecordNotFound
    else .ok (true, { l with db := l.db.addTokenQuota id (-quota) })
  | .database =>
    if f ⟨.update, .tokens, id⟩ then .error (.db ⟨.update, .tokens, id⟩)
    else
      match l.db.token id with
      | none => .ok (false, l)
      | some token =>
        if quota ≤ token.remainQuota then
          .ok (true, { l with db := l.db.addTokenQuota id (-quota) })
        else .ok (false, l)

/-- `TryReserveTokenQuota`; an unlimited token is charged without a condition. -/
def tryReserveTokenQuota (f : Faults) (a : Admission) (id quota : ℤ) (unlimited : Bool)
    (l : Ledger) : Except Err (Bool × Ledger) :=
  if quota < 0 then .error errNegativeQuota
  else if quota = 0 then .ok (true, l)
  else if unlimited then
    match decreaseTokenQuota setup f id quota l with
    | .error e => .error e
    | .ok l => .ok (true, l)
  else admitTokenQuota setup f id quota l a

/-! ### The flush -/

/-- What the flush adds to a user. -/
def Queues.flushed (q : Queues) (u : User) : User :=
  { u with
    quota := u.quota + q.userQuota.value u.id
    usedQuota := u.usedQuota + q.usedQuota.value u.id
    requestCount := u.requestCount + q.requestCount.value u.id }

/-- `updateUserQuotaUsedQuotaAndRequestCount`; a failing statement is logged and dropped. -/
def updateUserQuotaUsedQuotaAndRequestCount (f : Faults) (q : Queues) (db : DB) (id : ℤ) : DB :=
  if q.userQuota.value id = 0 ∧ q.usedQuota.value id = 0 ∧ q.requestCount.value id = 0 then db
  else if f ⟨.update, .users, id⟩ then db
  else db.updateUser id q.flushed

/-- The users with something queued, each of them once. -/
def Queues.userIDs (q : Queues) : List ℤ :=
  (q.userQuota.keys ++ q.usedQuota.keys ++ q.requestCount.keys).dedup

/-- The tokens with something queued are written; a failing statement is logged and dropped. -/
def flushTokens (f : Faults) (q : Queues) (db : DB) : DB :=
  q.tokenQuota.foldl (fun db e =>
    if f ⟨.update, .tokens, e.1⟩ then db else db.addTokenQuota e.1 e.2) db

def batchUpdate (f : Faults) (l : Ledger) : Ledger :=
  if l.queues = .empty then l
  else
    ⟨l.queues.userIDs.foldl (updateUserQuotaUsedQuotaAndRequestCount f l.queues)
      (flushTokens f l.queues l.db), .empty⟩

/-! ### What the writers do to the balances -/

/-- The balance of one wallet moves, and nothing else. -/
structure MovesWallet (l l' : Ledger) (id delta : ℤ) : Prop where
  wallet : ∀ v, l'.walletBalance v =
    (l.walletBalance v).map fun b => if v = id then b + delta else b
  token : ∀ t, l'.tokenBalance t = l.tokenBalance t
  db_eq : l'.db = { l.db with users := l'.db.users }

/-- The balance of one token moves, and nothing else. -/
structure MovesToken (l l' : Ledger) (id delta : ℤ) : Prop where
  token : ∀ t, l'.tokenBalance t = (l.tokenBalance t).map fun b => if t = id then b + delta else b
  wallet : ∀ v, l'.walletBalance v = l.walletBalance v
  db_eq : l'.db = { l.db with tokens := l'.db.tokens }

section Moves

variable {setup} {f : Faults} {l l' : Ledger} {id quota : ℤ}

theorem movesWallet_queue (l : Ledger) (id delta : ℤ) :
    MovesWallet l (l.queueUser id delta) id delta := by
  refine ⟨fun v => ?_, fun _ => rfl, rfl⟩
  show (l.db.wallet v).map (· + (l.queues.userQuota.add id delta).value v) =
    ((l.db.wallet v).map (· + l.queues.userQuota.value v)).map _
  rw [Option.map_map, Tally.value_add]
  congr 1
  funext w
  show w + (l.queues.userQuota.value v + if v = id then delta else 0) =
    if v = id then w + l.queues.userQuota.value v + delta else w + l.queues.userQuota.value v
  split_ifs <;> omega

/-- The wallets after a write at once. -/
theorem wallet_addQuota (db : DB) (id delta v : ℤ) : (db.addQuota id delta).wallet v =
    (db.wallet v).map fun w => if v = id then w + delta else w :=
  wallet_add (g := fun u => { u with quota := u.quota + delta }) (fun _ => ⟨rfl, rfl⟩) v

theorem movesWallet_write (l : Ledger) (id delta : ℤ) :
    MovesWallet l { l with db := l.db.addQuota id delta } id delta := by
  refine ⟨fun v => ?_, fun _ => rfl, rfl⟩
  show ((l.db.addQuota id delta).wallet v).map (· + l.queues.userQuota.value v) =
    ((l.db.wallet v).map (· + l.queues.userQuota.value v)).map _
  rw [wallet_addQuota, Option.map_map, Option.map_map]
  congr 1
  funext w
  show (if v = id then w + delta else w) + l.queues.userQuota.value v =
    if v = id then w + l.queues.userQuota.value v + delta else w + l.queues.userQuota.value v
  split_ifs <;> omega

theorem movesToken_queue (l : Ledger) (id delta : ℤ) :
    MovesToken l (l.queueToken id delta) id delta := by
  refine ⟨fun t => ?_, fun _ => rfl, rfl⟩
  show (l.db.token t).map (fun x => x.remainQuota + (l.queues.tokenQuota.add id delta).value t) =
    ((l.db.token t).map fun x => x.remainQuota + l.queues.tokenQuota.value t).map _
  rw [Option.map_map, Tally.value_add]
  congr 1
  funext x
  show x.remainQuota + (l.queues.tokenQuota.value t + if t = id then delta else 0) =
    if t = id then x.remainQuota + l.queues.tokenQuota.value t + delta
      else x.remainQuota + l.queues.tokenQuota.value t
  split_ifs <;> omega

theorem token_add (db : DB) (id delta t : ℤ) :
    ((db.addTokenQuota id delta).token t).map Token.remainQuota =
      ((db.token t).map Token.remainQuota).map fun r => if t = id then r + delta else r := by
  have hkey : ∀ x : Token, (if x.id = id then { x with
      remainQuota := x.remainQuota + delta
      usedQuota := x.usedQuota - delta } else x).id = x.id := by
    intro x
    split_ifs <;> rfl
  have hget : (db.addTokenQuota id delta).token t = (db.token t).map fun x =>
      if x.id = id then { x with
        remainQuota := x.remainQuota + delta, usedQuota := x.usedQuota - delta } else x :=
    get_map hkey
  rw [hget]
  cases hx : db.token t with
  | none => rfl
  | some x =>
    have hid : x.id = t := get_key hx
    simp only [Option.map_some, hid]
    split_ifs <;> rfl

theorem movesToken_write (l : Ledger) (id delta : ℤ) :
    MovesToken l { l with db := l.db.addTokenQuota id delta } id delta := by
  refine ⟨fun t => ?_, fun _ => rfl, rfl⟩
  have hsplit : ∀ l : Ledger, l.tokenBalance t =
      ((l.db.token t).map Token.remainQuota).map (· + l.queues.tokenQuota.value t) := by
    intro l
    rw [Option.map_map]
    rfl
  rw [hsplit, hsplit, token_add]
  cases (l.db.token t).map Token.remainQuota with
  | none => rfl
  | some r =>
    simp only [Option.map_some, Option.some.injEq]
    split_ifs <;> omega

theorem MovesWallet.zero (l : Ledger) (id : ℤ) : MovesWallet l l id 0 := by
  refine ⟨fun v => ?_, fun _ => rfl, rfl⟩
  simp

theorem MovesToken.zero (l : Ledger) (id : ℤ) : MovesToken l l id 0 := by
  refine ⟨fun v => ?_, fun _ => rfl, rfl⟩
  simp

/-- **Everything a successful `IncreaseUserQuota` can do**: queue the quota, or add it to a wallet
that has room for it. -/
theorem increaseUserQuota_cases {direct : Bool}
    (h : increaseUserQuota setup f id quota direct l = .ok l') :
    ((!direct && setup.batchUpdateEnabled) = true ∧ l' = l.queueUser id quota) ∨
      ∃ user, l.db.user id = some user ∧ user.quota ≤ maxWalletQuota - quota ∧
        l' = { l with db := l.db.addQuota id quota } := by
  unfold increaseUserQuota at h
  cases hv : validateWalletQuota quota with
  | error e =>
    simp only [hv] at h
    split_ifs at h
  | ok _ =>
    simp only [hv] at h
    by_cases hneg : quota < 0
    · rw [if_pos hneg] at h
      cases h
    rw [if_neg hneg] at h
    by_cases hbatch : (!direct && setup.batchUpdateEnabled) = true
    · rw [if_pos hbatch] at h
      exact .inl ⟨hbatch, (Except.ok.inj h).symm⟩
    · rw [if_neg hbatch] at h
      right
      unfold increaseUserQuotaDB at h
      cases hu : l.db.user id with
      | none =>
        simp only [hu] at h
        split_ifs at h
      | some user =>
        simp only [hu] at h
        split_ifs at h with hf hroom hcount
        exact ⟨user, rfl, hroom, (Except.ok.inj h).symm⟩

theorem increaseUserQuota_ok {direct : Bool}
    (h : increaseUserQuota setup f id quota direct l = .ok l') : MovesWallet l l' id quota := by
  obtain ⟨-, rfl⟩ | ⟨user, -, -, rfl⟩ := increaseUserQuota_cases h
  · exact movesWallet_queue l id quota
  · exact movesWallet_write l id quota

theorem decreaseUserQuota_ok {direct : Bool}
    (h : decreaseUserQuota setup f id quota direct l = .ok l') : MovesWallet l l' id (-quota) := by
  unfold decreaseUserQuota at h
  split_ifs at h
  · cases h
    exact movesWallet_queue l id (-quota)
  · cases h
    exact movesWallet_write l id (-quota)

theorem changeTokenQuota_ok {delta : ℤ} (h : changeTokenQuota setup f id delta l = .ok l') :
    MovesToken l l' id delta := by
  unfold changeTokenQuota at h
  split_ifs at h
  · cases h
    exact movesToken_queue l id delta
  · cases h
    exact movesToken_write l id delta

theorem increaseTokenQuota_ok (h : increaseTokenQuota setup f id quota l = .ok l') :
    MovesToken l l' id quota := by
  unfold increaseTokenQuota at h
  split_ifs at h
  exact changeTokenQuota_ok h

theorem decreaseTokenQuota_ok (h : decreaseTokenQuota setup f id quota l = .ok l') :
    MovesToken l l' id (-quota) := by
  unfold decreaseTokenQuota at h
  split_ifs at h
  exact changeTokenQuota_ok h

/-- **A reservation of a wallet** takes the quota, or leaves the ledger alone. -/
theorem tryReserveUserQuota_ok {a : Admission} {reserved : Bool}
    (h : tryReserveUserQuota setup f a id quota l = .ok (reserved, l')) :
    (reserved = true ∧ MovesWallet l l' id (-quota)) ∨ (reserved = false ∧ l' = l) := by
  unfold tryReserveUserQuota at h
  split_ifs at h with hneg hzero
  · cases h
    rw [hzero]
    exact .inl ⟨rfl, .zero l id⟩
  cases a with
  | cacheInsufficient =>
    cases h
    exact .inr ⟨rfl, rfl⟩
  | cacheOK =>
    simp only [admitUserQuota] at h
    split_ifs at h
    · cases h
      exact .inl ⟨rfl, movesWallet_queue l id (-quota)⟩
    · cases h
      exact .inl ⟨rfl, movesWallet_write l id (-quota)⟩
  | database =>
    simp only [admitUserQuota] at h
    cases hu : l.db.user id with
    | none =>
      simp only [hu] at h
      split_ifs at h
      cases h
      exact .inr ⟨rfl, rfl⟩
    | some user =>
      simp only [hu] at h
      split_ifs at h
      · cases h
        exact .inl ⟨rfl, movesWallet_write l id (-quota)⟩
      · cases h
        exact .inr ⟨rfl, rfl⟩

/-- **A reservation of a token** takes the quota, or leaves the ledger alone. -/
theorem tryReserveTokenQuota_ok {a : Admission} {unlimited reserved : Bool}
    (h : tryReserveTokenQuota setup f a id quota unlimited l = .ok (reserved, l')) :
    (reserved = true ∧ MovesToken l l' id (-quota)) ∨ (reserved = false ∧ l' = l) := by
  unfold tryReserveTokenQuota at h
  split_ifs at h with hneg hzero hunl
  · rcases h
    rw [hzero]
    exact .inl ⟨rfl, .zero l id⟩
  · rcases hd : decreaseTokenQuota setup f id quota l with _ | l₁
    · rw [hd] at h; cases h
    rw [hd] at h
    cases h
    exact .inl ⟨rfl, decreaseTokenQuota_ok hd⟩
  cases a with
  | cacheInsufficient =>
    cases h
    exact .inr ⟨rfl, rfl⟩
  | cacheOK =>
    simp only [admitTokenQuota] at h
    split_ifs at h
    · cases h
      exact .inl ⟨rfl, movesToken_queue l id (-quota)⟩
    · cases h
      exact .inl ⟨rfl, movesToken_write l id (-quota)⟩
  | database =>
    simp only [admitTokenQuota] at h
    cases hu : l.db.token id with
    | none =>
      simp only [hu] at h
      split_ifs at h
      cases h
      exact .inr ⟨rfl, rfl⟩
    | some token =>
      simp only [hu] at h
      split_ifs at h
      · cases h
        exact .inl ⟨rfl, movesToken_write l id (-quota)⟩
      · cases h
        exact .inr ⟨rfl, rfl⟩

end Moves

/-! ### What the flush does -/

/-- What the flush makes of a user. -/
def Queues.written (q : Queues) (f : Faults) (u : User) : User :=
  if f ⟨.update, .users, u.id⟩ then u else q.flushed u

theorem update_users (f : Faults) (q : Queues) (db : DB) (id : ℤ) :
    (updateUserQuotaUsedQuotaAndRequestCount f q db id).users =
      Table.modify User.id id (q.written f) db.users := by
  have hkeep : (∀ u ∈ db.users, u.id = id → q.written f u = u) →
      db.users = Table.modify User.id id (q.written f) db.users :=
    fun h => (modify_eq h).symm
  unfold updateUserQuotaUsedQuotaAndRequestCount
  split_ifs with hzero hfault
  · -- nothing to add
    refine hkeep fun u _ hu => ?_
    obtain ⟨h₁, h₂, h₃⟩ := hzero
    subst hu
    unfold Queues.written Queues.flushed
    rw [h₁, h₂, h₃, add_zero, add_zero, add_zero, ite_self]
  · refine hkeep fun u _ hu => ?_
    rw [Queues.written, hu, if_pos hfault]
  · refine map_congr_left fun u _ => ?_
    by_cases hu : u.id = id
    · rw [if_pos hu, if_pos hu, Queues.written, hu, if_neg hfault]
    · rw [if_neg hu, if_neg hu]

theorem flush_users (f : Faults) (q : Queues) (ids : List ℤ) (db : DB) :
    (ids.foldl (updateUserQuotaUsedQuotaAndRequestCount f q) db).users =
      ids.foldl (fun users id => Table.modify User.id id (q.written f) users) db.users := by
  induction ids generalizing db with
  | nil => rfl
  | cons id ids ih => rw [foldl_cons, ih, update_users, foldl_cons]

theorem flushTokens_users (f : Faults) (q : Queues) (db : DB) :
    (flushTokens f q db).users = db.users := by
  have h : ∀ (es : Tally ℤ) (db : DB), (es.foldl (fun db e =>
      if f ⟨.update, .tokens, e.1⟩ then db else db.addTokenQuota e.1 e.2) db).users = db.users := by
    intro es
    induction es with
    | nil => exact fun _ => rfl
    | cons e es ih =>
      intro db
      rw [foldl_cons, ih]
      split_ifs <;> rfl
  exact h q.tokenQuota db

/-- **The wallets after a flush**: every one gets what is queued for it, unless its statement
fails. -/
theorem batchUpdate_wallet (f : Faults) (l : Ledger) (v : ℤ) :
    (batchUpdate f l).db.wallet v = (l.db.wallet v).map fun w =>
      if f ⟨.update, .users, v⟩ then w else w + l.queues.userQuota.value v := by
  by_cases hempty : l.queues = .empty
  · have hzero : l.queues.userQuota.value v = 0 := by
      rw [hempty]
      rfl
    rw [batchUpdate, if_pos hempty, hzero]
    simp
  rw [batchUpdate, if_neg hempty]
  have hid : ∀ u, (l.queues.written f u).id = u.id := by
    intro u
    unfold Queues.written
    split_ifs <;> rfl
  have husers : (l.queues.userIDs.foldl (updateUserQuotaUsedQuotaAndRequestCount f l.queues)
      (flushTokens f l.queues l.db)).users = l.db.users.map fun u =>
        if u.id ∈ l.queues.userIDs then l.queues.written f u else u := by
    rw [flush_users, flushTokens_users]
    exact Tally.foldl_once hid (nodup_dedup _) _
  have hkey : ∀ u : User, (if u.id ∈ l.queues.userIDs then l.queues.written f u else u).id =
      u.id := by
    intro u
    split_ifs
    · exact hid u
    · rfl
  rw [DB.wallet, DB.user, husers, get_map hkey, DB.wallet, DB.user]
  cases hu : Table.get User.id v l.db.users with
  | none => rfl
  | some u =>
    have hv : u.id = v := get_key hu
    simp only [Option.map_some, Option.some.injEq, hv]
    by_cases hm : v ∈ l.queues.userIDs
    · rw [if_pos hm, Queues.written, hv]
      split_ifs
      · rfl
      · rw [Queues.flushed, hv]
    · -- without an entry nothing is queued
      have hzero : l.queues.userQuota.value v = 0 := by
        refine Tally.value_of_notMem fun h => hm ?_
        rw [Queues.userIDs, mem_dedup]
        exact mem_append_left _ (mem_append_left _ h)
      rw [if_neg hm, hzero, add_zero, ite_self]

end NexusTok
