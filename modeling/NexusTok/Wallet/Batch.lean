import NexusTok.Machine.Pool
import NexusTok.Wallet.Ledger

/-!
# The batch updater

With batch updates enabled, `addNewRecord` adds to a store in memory, one store for each type of
change and one lock for each store; `batchUpdate` takes the stores away, one after the other, and
then writes the sums it took, one statement for each token, channel and user.

The machine interleaves additions with the single steps of any number of `batchUpdate` runs.  A
change is in exactly one place: in a store, in the hands of a run, or in the database.  A statement
that fails, or that finds no row, drops the change it carries: the error is logged, and the sum has
left the store.

* `stock` : what the database, the stores and the runs hold together, without what was added.
* `stock_step` : every event keeps it, up to the amount a statement drops.
* `batch_runs_iff` : a run loses nothing iff every statement that carries something lands.
-/

namespace NexusTok.Batch

open List Function

/-! ### The stores -/

/-- The types of changes, in the order of their stores. -/
inductive BatchUpdateType where
  | userQuota | tokenQuota | usedQuota | channelUsedQuota | requestCount
  deriving DecidableEq

def allTypes : List BatchUpdateType :=
  [.userQuota, .tokenQuota, .usedQuota, .channelUsedQuota, .requestCount]

/-- `batchUpdateStores`. -/
abbrev Stores := BatchUpdateType → Tally ℤ

/-- `math.MaxInt`. -/
def maxInt : ℤ := 2 ^ 63 - 1

/-- `math.MinInt`. -/
def minInt : ℤ := -2 ^ 63

/-- `old + value` of two machine integers. -/
def wrappingAdd (old value : ℤ) : ℤ := (old + value + 2 ^ 63) % 2 ^ 64 - 2 ^ 63

/-- The sum `addNewRecord` stores: on overflow it stays at the end of the range. -/
def saturatingSum (old value : ℤ) : ℤ :=
  let sum := wrappingAdd old value
  if (0 < value ∧ sum < old) ∨ (value < 0 ∧ old < sum) then
    if 0 < value then maxInt else minInt
  else sum

/-- `addNewRecord`, on the store of its type. -/
def addNewRecord (store : Tally ℤ) (id value : ℤ) : Tally ℤ :=
  match Table.get Prod.fst id store with
  | none => store ++ [(id, value)]
  | some (_, old) => Table.put Prod.fst (id, saturatingSum old value) store

theorem addNewRecord_eq {store : Tally ℤ} {id value : ℤ}
    (hlow : minInt ≤ store.value id + value) (hhigh : store.value id + value ≤ maxInt) :
    addNewRecord store id value = store.add id value := by
  unfold addNewRecord Tally.add
  cases hget : Table.get Prod.fst id store with
  | none => rfl
  | some e =>
    obtain ⟨key, old⟩ := e
    have hold : store.value id = old := by simp [Tally.value, hget]
    rw [hold] at hlow hhigh
    have hwrap : wrappingAdd old value = old + value := by
      simp only [minInt, maxInt] at hlow hhigh
      simp only [wrappingAdd]
      omega
    have hsum : saturatingSum old value = old + value := by
      simp only [saturatingSum, hwrap]
      rw [if_neg (by omega)]
    simp only [hsum]

/-! ### The statements -/

/-- A channel, as far as the updater writes it. -/
structure Channel where
  id : ℤ
  usedQuota : ℤ
  deriving DecidableEq

/-- One statement of a flush. -/
inductive Write where
  /-- `increaseTokenQuota`. -/
  | token (id value : ℤ)
  /-- `updateChannelUsedQuota`. -/
  | channel (id value : ℤ)
  /-- `updateUserQuotaUsedQuotaAndRequestCount`. -/
  | user (id quota usedQuota requestCount : ℤ)
  deriving DecidableEq

/-- The users with a change, each of them once. -/
def userIDs (s : Stores) : List ℤ :=
  ((s .userQuota).keys ++ (s .usedQuota).keys ++ (s .requestCount).keys).dedup

/-- The statements that write the stores a run took: tokens, channels, then users. -/
def writes (s : Stores) : List Write :=
  (s .tokenQuota).map (fun e => .token e.1 e.2) ++
    (s .channelUsedQuota).map (fun e => .channel e.1 e.2) ++
    (userIDs s).map fun id =>
      .user id ((s .userQuota).value id) ((s .usedQuota).value id) ((s .requestCount).value id)

/-! ### The machine -/

/-- The database, the stores, and what was added to them so far. -/
structure State where
  db : DB
  channels : List Channel
  stores : Stores
  added : Stores

/-- `SET quota = quota + ?, used_quota = used_quota + ?, request_count = request_count + ?`. -/
def addToUser (quota usedQuota requestCount : ℤ) (u : User) : User :=
  { u with
    quota := u.quota + quota
    usedQuota := u.usedQuota + usedQuota
    requestCount := u.requestCount + requestCount }

variable (s : State)

/-- The statement takes effect when its row is there. -/
def Write.apply : Write → State
  | .token id value => { s with db := s.db.addTokenQuota id value }
  | .channel id value =>
    { s with
      channels := Table.modify Channel.id id (fun c => { c with usedQuota := c.usedQuota + value })
        s.channels }
  | .user id quota usedQuota requestCount =>
    { s with db := s.db.updateUser id (addToUser quota usedQuota requestCount) }

/-- Nothing to write. -/
def Write.isZero : Write → Bool
  | .token _ value | .channel _ value => value = 0
  | .user _ quota usedQuota requestCount => quota = 0 && usedQuota = 0 && requestCount = 0

/-- A statement; one that fails is logged.  For a user without a change none is sent. -/
def Write.run (fault : Bool) (s : State) : Write → State
  | .user id quota usedQuota requestCount =>
    if (Write.user id quota usedQuota requestCount).isZero then s
    else if fault then s
    else (Write.user id quota usedQuota requestCount).apply s
  | w => if fault then s else w.apply s

/-- Where a run of `batchUpdate` stands. -/
inductive Call where
  /-- Looking for a store that is not empty. -/
  | check (todo : List BatchUpdateType)
  /-- Taking the stores away. -/
  | swap (todo : List BatchUpdateType) (taken : Stores)
  /-- Writing what was taken. -/
  | write (todo : List Write)

/-- One step of a run.  The order in which a Go map is walked is not fixed: `j` picks the statement
that comes next. -/
def Call.step (j : ℕ) (fault : Bool) (s : State) : Call → State × Option Call
  | .check [] => (s, none)
  | .check (t :: todo) =>
    if s.stores t = [] then (s, some (.check todo))
    else (s, some (.swap allTypes fun _ => []))
  | .swap [] taken => (s, some (.write (writes taken)))
  | .swap (t :: todo) taken =>
    ({ s with stores := Function.update s.stores t [] },
      some (.swap todo (Function.update taken t (s.stores t))))
  | .write [] => (s, none)
  | .write (w :: todo) =>
    match (w :: todo)[j]? with
    | none => (s, some (.write (w :: todo)))
    | some w' => (w'.run fault s, some (.write ((w :: todo).eraseIdx j)))

/-- An addition, a new run, or a step of a run. -/
inductive Event where
  | addNewRecord (t : BatchUpdateType) (id value : ℤ)
  | batchUpdate
  | resume (i j : ℕ) (fault : Bool)
  deriving DecidableEq

variable (p : Pool State Call)

def step : Event → Pool State Call
  | .addNewRecord t id value =>
    p.outside fun s =>
      { s with
        stores := Function.update s.stores t (addNewRecord (s.stores t) id value)
        added := Function.update s.added t ((s.added t).add id value) }
  | .batchUpdate => p.start (.check allTypes)
  | .resume i j fault => p.resume (Call.step j fault) i

/-- A process that has just started. -/
def start (db : DB) (channels : List Channel) : Pool State Call :=
  ⟨⟨db, channels, fun _ => [], fun _ => []⟩, []⟩

/-! ### Where a change is -/

variable (t : BatchUpdateType)

/-- What the database holds under a type and an id; without a row, nothing. -/
def stored (id : ℤ) : ℤ :=
  match t with
  | .userQuota => ((s.db.user id).map User.quota).getD 0
  | .tokenQuota => ((s.db.token id).map Token.remainQuota).getD 0
  | .usedQuota => ((s.db.user id).map User.usedQuota).getD 0
  | .channelUsedQuota => ((Table.get Channel.id id s.channels).map Channel.usedQuota).getD 0
  | .requestCount => ((s.db.user id).map User.requestCount).getD 0

/-- What a statement carries for a type and an id. -/
def Write.amount (id : ℤ) : Write → ℤ
  | .token id' value => if t = .tokenQuota ∧ id' = id then value else 0
  | .channel id' value => if t = .channelUsedQuota ∧ id' = id then value else 0
  | .user id' quota usedQuota requestCount =>
    if id' = id then
      match t with
      | .userQuota => quota
      | .usedQuota => usedQuota
      | .requestCount => requestCount
      | _ => 0
    else 0

/-- What a run holds for a type and an id. -/
def Call.inHand (id : ℤ) : Call → ℤ
  | .check _ => 0
  | .swap _ taken => (taken t).value id
  | .write todo => (todo.map (Write.amount t id)).sum

/-- What the database, the stores and the runs hold together, without what was added. -/
def stock (id : ℤ) : ℤ :=
  stored p.shared t id + (p.shared.stores t).value id + p.total (Call.inHand t id) -
    (p.shared.added t).value id

/-! ### What a statement does -/

/-- The row of the statement is there. -/
def Write.lands : Write → Bool
  | .token id _ => (s.db.token id).isSome
  | .channel id _ => (Table.get Channel.id id s.channels).isSome
  | .user id _ _ _ => (s.db.user id).isSome

theorem stored_token (id value : ℤ) (t : BatchUpdateType) (id' : ℤ) :
    stored ((Write.token id value).apply s) t id' = stored s t id' +
      if (Write.token id value).lands s then (Write.token id value).amount t id' else 0 := by
  cases t with
  | tokenQuota =>
    show (((s.db.addTokenQuota id value).token id').map Token.remainQuota).getD 0 =
      ((s.db.token id').map Token.remainQuota).getD 0 +
        if (s.db.token id).isSome then (if _ ∧ id = id' then value else 0) else 0
    rw [token_add]
    by_cases hid : id = id'
    · subst hid
      cases s.db.token id <;> simp
    · cases s.db.token id' <;> simp [hid, Ne.symm hid]
  | _ => simp [stored, Write.apply, Write.amount, DB.addTokenQuota, DB.updateToken, DB.user]

theorem stored_channel (id value : ℤ) (t : BatchUpdateType) (id' : ℤ) :
    stored ((Write.channel id value).apply s) t id' = stored s t id' +
      if (Write.channel id value).lands s then (Write.channel id value).amount t id' else 0 := by
  cases t with
  | channelUsedQuota =>
    have hkey : ∀ c : Channel, (if c.id = id then { c with usedQuota := c.usedQuota + value }
        else c).id = c.id := by
      intro c
      split_ifs <;> rfl
    have hget : Table.get Channel.id id' (s.channels.map fun c =>
        if c.id = id then { c with usedQuota := c.usedQuota + value } else c) = _ :=
      Table.get_map hkey
    show ((Table.get Channel.id id' (s.channels.map _)).map Channel.usedQuota).getD 0 =
      ((Table.get Channel.id id' s.channels).map Channel.usedQuota).getD 0 +
        if (Table.get Channel.id id s.channels).isSome then (if _ ∧ id = id' then value else 0)
        else 0
    rw [hget]
    cases hrow : Table.get Channel.id id' s.channels with
    | none =>
      by_cases hid : id = id'
      · subst hid
        simp [hrow]
      · simp [hid]
    | some c =>
      have hc : c.id = id' := Table.get_key hrow
      by_cases hid : id = id'
      · subst hid
        simp [hrow, hc]
      · simp [hid, hc, Ne.symm hid]
  | _ => simp [stored, Write.apply, Write.amount]

theorem user_column {db : DB} {id c : ℤ} {f : User → ℤ} {g : User → User}
    (hid : ∀ u, (g u).id = u.id) (hg : ∀ u, f (g u) = f u + c) (id' : ℤ) :
    (((db.updateUser id g).user id').map f).getD 0 = ((db.user id').map f).getD 0 +
      if (db.user id).isSome then (if id = id' then c else 0) else 0 := by
  rw [user_updateUser hid]
  by_cases h : id = id'
  · subst h
    cases db.user id <;> simp [hg]
  · cases db.user id' <;> simp [h, Ne.symm h]

theorem stored_user (id quota usedQuota requestCount : ℤ) (t : BatchUpdateType) (id' : ℤ) :
    stored ((Write.user id quota usedQuota requestCount).apply s) t id' = stored s t id' +
      if (Write.user id quota usedQuota requestCount).lands s then
        (Write.user id quota usedQuota requestCount).amount t id' else 0 := by
  cases t with
  | userQuota =>
    exact user_column (f := User.quota) (g := addToUser quota usedQuota requestCount)
      (fun _ => rfl) (fun _ => rfl) id'
  | usedQuota =>
    exact user_column (f := User.usedQuota) (g := addToUser quota usedQuota requestCount)
      (fun _ => rfl) (fun _ => rfl) id'
  | requestCount =>
    exact user_column (f := User.requestCount) (g := addToUser quota usedQuota requestCount)
      (fun _ => rfl) (fun _ => rfl) id'
  | tokenQuota => simp [stored, Write.apply, Write.amount, DB.token, DB.updateUser]
  | channelUsedQuota => simp [stored, Write.apply, Write.amount]

/-- **A statement that lands** adds what it carries to its row, and one without a row adds
nothing. -/
theorem stored_apply (w : Write) (t : BatchUpdateType) (id : ℤ) :
    stored (w.apply s) t id = stored s t id + if w.lands s then w.amount t id else 0 := by
  cases w with
  | token id' value => exact stored_token s id' value t id
  | channel id' value => exact stored_channel s id' value t id
  | user id' quota usedQuota requestCount =>
    exact stored_user s id' quota usedQuota requestCount t id

/-- Nothing but the database changes. -/
theorem apply_stores (w : Write) : (w.apply s).stores = s.stores ∧ (w.apply s).added = s.added := by
  cases w <;> exact ⟨rfl, rfl⟩

theorem run_stores (fault : Bool) (s : State) (w : Write) :
    (w.run fault s).stores = s.stores ∧ (w.run fault s).added = s.added := by
  cases w with
  | user id quota usedQuota requestCount =>
    simp only [Write.run]
    split_ifs
    · exact ⟨rfl, rfl⟩
    · exact ⟨rfl, rfl⟩
    · exact apply_stores s _
  | _ =>
    simp only [Write.run]
    split_ifs
    · exact ⟨rfl, rfl⟩
    · exact apply_stores s _

theorem amount_of_isZero {w : Write} (h : w.isZero = true) (t : BatchUpdateType) (id : ℤ) :
    w.amount t id = 0 := by
  cases w with
  | token | channel => simp_all [Write.isZero, Write.amount]
  | user id' quota usedQuota requestCount =>
    simp only [Write.isZero, Bool.and_eq_true, decide_eq_true_eq] at h
    cases t <;> simp [Write.amount, h]

theorem isZero_of_amount {w : Write} (h : ∀ t id, w.amount t id = 0) : w.isZero = true := by
  cases w with
  | token id value => simpa [Write.isZero, Write.amount] using h .tokenQuota id
  | channel id value => simpa [Write.isZero, Write.amount] using h .channelUsedQuota id
  | user id quota usedQuota requestCount =>
    have hq := h .userQuota id
    have hu := h .usedQuota id
    have hr := h .requestCount id
    simp only [Write.amount, if_true] at hq hu hr
    simp [Write.isZero, hq, hu, hr]

/-- What a statement drops: everything, when it fails or has no row. -/
def Write.dropped (fault : Bool) (s : State) (t : BatchUpdateType) (id : ℤ) (w : Write) : ℤ :=
  if fault = false ∧ w.lands s = true then 0 else w.amount t id

theorem stored_run (fault : Bool) (s : State) (w : Write) (t : BatchUpdateType) (id : ℤ) :
    stored (w.run fault s) t id = stored s t id + w.amount t id - w.dropped fault s t id := by
  have hsend : ∀ s' : State, (s' = if fault then s else w.apply s) →
      stored s' t id = stored s t id + w.amount t id - w.dropped fault s t id := by
    rintro s' rfl
    cases fault with
    | true => simp [Write.dropped]
    | false =>
      simp only [Bool.false_eq_true, if_false, stored_apply, Write.dropped, true_and]
      split_ifs <;> omega
  cases w with
  | user id' quota usedQuota requestCount =>
    by_cases hzero : (Write.user id' quota usedQuota requestCount).isZero = true
    · have hamount := amount_of_isZero hzero t id
      have hrun : (Write.user id' quota usedQuota requestCount).run fault s = s := by
        simp only [Write.run, hzero, if_true]
      rw [hrun]
      simp only [Write.dropped, hamount]
      split_ifs <;> omega
    · refine hsend _ ?_
      simp only [Write.run, hzero, if_false, Bool.false_eq_true]
  | token | channel => exact hsend _ rfl

/-! ### What a run of the flush does -/

/-- The statements carry what was taken. -/
theorem sum_writes {s : Stores} (h : ∀ t, (s t).keys.Nodup) (t : BatchUpdateType) (id : ℤ) :
    ((writes s).map (Write.amount t id)).sum = (s t).value id := by
  have huser : ∀ (t : BatchUpdateType), (∀ k ∈ (s t).keys, k ∈ userIDs s) →
      ((userIDs s).map fun k => if k = id then (s t).value k else 0).sum = (s t).value id := by
    intro t ht
    exact Tally.sum_values (nodup_dedup _) (ht id)
  simp only [writes, map_append, sum_append, map_map]
  cases t with
  | tokenQuota =>
    have := Tally.sum_entries (h .tokenQuota) id
    simpa [comp_def, Write.amount] using this
  | channelUsedQuota =>
    have := Tally.sum_entries (h .channelUsedQuota) id
    simpa [comp_def, Write.amount] using this
  | userQuota =>
    have := huser .userQuota (by simp [userIDs]; tauto)
    simpa [comp_def, Write.amount] using this
  | usedQuota =>
    have := huser .usedQuota (by simp [userIDs]; tauto)
    simpa [comp_def, Write.amount] using this
  | requestCount =>
    have := huser .requestCount (by simp [userIDs]; tauto)
    simpa [comp_def, Write.amount] using this

/-- What the step of a run drops. -/
def Call.dropped (j : ℕ) (fault : Bool) (s : State) (t : BatchUpdateType) (id : ℤ) : Call → ℤ
  | .write todo => ((todo[j]?).map (Write.dropped fault s t id)).getD 0
  | _ => 0

/-- A run that takes the stores has not taken those that are left, and keeps the keys apart. -/
def Call.Sound : Call → Prop
  | .swap todo taken =>
    todo.Nodup ∧ (∀ t ∈ todo, taken t = []) ∧ ∀ t, (taken t).keys.Nodup
  | _ => True

/-- Taking one statement off the list takes off what it carries. -/
theorem sum_eraseIdx {todo : List Write} {j : ℕ} {w : Write} (h : todo[j]? = some w)
    (f : Write → ℤ) : ((todo.eraseIdx j).map f).sum = (todo.map f).sum - f w := by
  induction todo generalizing j with
  | nil => simp at h
  | cons w' todo ih =>
    cases j with
    | zero =>
      have : w' = w := by simpa using h
      simp [this]
    | succ j =>
      have := ih (j := j) (by simpa using h)
      simp only [eraseIdx_cons_succ, map_cons, sum_cons, this]
      ring

/-- **The step lemma.**  A step of a run moves changes between the stores, its hands and the
database, up to what it drops. -/
theorem Call.step_stock (j : ℕ) (fault : Bool) (s : State) {c : Call} (hc : c.Sound)
    (t : BatchUpdateType) (id : ℤ) :
    stored (c.step j fault s).1 t id + ((c.step j fault s).1.stores t).value id +
        Pool.rest (Call.inHand t id) (c.step j fault s).2 =
      stored s t id + (s.stores t).value id + c.inHand t id - c.dropped j fault s t id := by
  cases c with
  | check todo =>
    cases todo with
    | nil => simp [Call.step, Call.inHand, Call.dropped]
    | cons t' todo =>
      simp only [Call.step]
      split_ifs <;> simp [Call.inHand, Call.dropped]
  | swap todo taken =>
    obtain ⟨hnodup, hempty, hkeys⟩ := hc
    cases todo with
    | nil =>
      have := sum_writes hkeys t id
      simp [Call.step, Call.inHand, Call.dropped, this]
    | cons t' todo =>
      have htaken : taken t' = [] := hempty t' mem_cons_self
      have hstored : ∀ stores, stored { s with stores := stores } t id = stored s t id := by
        intro stores
        cases t <;> rfl
      simp only [Call.step, hstored, Pool.rest_some, Call.inHand, Call.dropped]
      by_cases ht : t = t'
      · subst ht
        simp [htaken]
      · simp [update_of_ne ht]
  | write todo =>
    cases todo with
    | nil => simp [Call.step, Call.inHand, Call.dropped]
    | cons w todo =>
      cases hw : (w :: todo)[j]? with
      | none => simp only [Call.step, hw, Pool.rest_some, Call.dropped, Option.map_none,
          Option.getD_none, sub_zero]
      | some w' =>
        have hsum := sum_eraseIdx hw (Write.amount t id)
        have hrun := stored_run fault s w' t id
        obtain ⟨hstores, -⟩ := run_stores fault s w'
        simp only [Call.step, hw, Pool.rest_some, Call.inHand, Call.dropped, hstores, hrun, hsum,
          Option.map_some, Option.getD_some]
        ring

theorem Call.step_sound (j : ℕ) (fault : Bool) {s : State} {c : Call} (hc : c.Sound)
    (hs : ∀ t, (s.stores t).keys.Nodup) :
    (c.step j fault s).1.added = s.added ∧
      (∀ t, ((c.step j fault s).1.stores t).keys.Nodup) ∧
      ∀ c' ∈ (c.step j fault s).2, c'.Sound := by
  cases c with
  | check todo =>
    cases todo with
    | nil => exact ⟨rfl, hs, by simp [Call.step]⟩
    | cons t todo =>
      simp only [Call.step]
      split_ifs
      · exact ⟨rfl, hs, by simp [Call.Sound]⟩
      · refine ⟨rfl, hs, fun c' hc' => ?_⟩
        cases hc'
        exact ⟨by decide, fun _ _ => rfl, fun _ => nodup_nil⟩
  | swap todo taken =>
    obtain ⟨hnodup, hempty, hkeys⟩ := hc
    cases todo with
    | nil => exact ⟨rfl, hs, by simp [Call.step, Call.Sound]⟩
    | cons t todo =>
      obtain ⟨hnot, hnodup⟩ := nodup_cons.1 hnodup
      refine ⟨rfl, fun t' => ?_, fun c' hc' => ?_⟩
      · show (Function.update s.stores t [] t').keys.Nodup
        by_cases ht : t' = t
        · subst ht
          rw [update_self]
          exact nodup_nil
        · rw [update_of_ne ht]
          exact hs t'
      · cases hc'
        refine ⟨hnodup, fun t' ht' => ?_, fun t' => ?_⟩
        · have hne : t' ≠ t := by
            rintro rfl
            exact hnot ht'
          rw [update_of_ne hne]
          exact hempty t' (mem_cons_of_mem _ ht')
        · by_cases ht : t' = t
          · subst ht
            rw [update_self]
            exact hs t'
          · rw [update_of_ne ht]
            exact hkeys t'
  | write todo =>
    cases todo with
    | nil => exact ⟨rfl, hs, by simp [Call.step]⟩
    | cons w todo =>
      cases hw : (w :: todo)[j]? with
      | none =>
        have hstep : Call.step j fault s (.write (w :: todo)) = (s, some (.write (w :: todo))) := by
          simp only [Call.step, hw]
        rw [hstep]
        exact ⟨rfl, hs, by simp [Call.Sound]⟩
      | some w' =>
        obtain ⟨hstores, hadded⟩ := run_stores fault s w'
        simp only [Call.step, hw]
        exact ⟨hadded, by rw [hstores]; exact hs, by simp [Call.Sound]⟩

/-! ### Runs -/

/-- The sum an addition leaves in its store is a machine integer. -/
def InRange : Event → Prop
  | .addNewRecord t id value =>
    minInt ≤ (p.shared.stores t).value id + value ∧ (p.shared.stores t).value id + value ≤ maxInt
  | _ => True

instance (p : Pool State Call) : (e : Event) → Decidable (InRange p e)
  | .addNewRecord _ _ _ => inferInstanceAs (Decidable (_ ∧ _))
  | .batchUpdate | .resume _ _ _ => inferInstanceAs (Decidable True)

/-- The statement of a step carries nothing, or does not fail and finds its row. -/
def Call.Lands (j : ℕ) (fault : Bool) (s : State) : Call → Prop
  | .write todo => ∀ w ∈ todo[j]?, w.isZero = true ∨ (fault = false ∧ w.lands s = true)
  | _ => True

instance (j : ℕ) (fault : Bool) (s : State) : (c : Call) → Decidable (c.Lands j fault s)
  | .write _ => inferInstanceAs (Decidable (∀ _ ∈ _, _ ∨ _))
  | .check _ | .swap _ _ => inferInstanceAs (Decidable True)

/-- The statement the event sends, if it sends one, carries nothing or lands. -/
def Lands : Event → Prop
  | .resume i j fault => ∀ c ∈ p.calls[i]?, c.Lands j fault p.shared
  | _ => True

instance (p : Pool State Call) : (e : Event) → Decidable (Lands p e)
  | .resume _ _ _ => inferInstanceAs (Decidable (∀ _ ∈ _, _))
  | .addNewRecord _ _ _ | .batchUpdate => inferInstanceAs (Decidable True)

/-- What the event drops. -/
def droppedBy (id : ℤ) : Event → ℤ
  | .resume i j fault => ((p.calls[i]?).map (Call.dropped j fault p.shared t id)).getD 0
  | _ => 0

/-- The keys of the stores are apart, and the runs are sound. -/
structure Sound (p : Pool State Call) : Prop where
  stores : ∀ t, (p.shared.stores t).keys.Nodup
  calls : p.Each Call.Sound

theorem Sound.step {p : Pool State Call} (h : Sound p) (e : Event) (hr : InRange p e) :
    Sound (step p e) := by
  cases e with
  | addNewRecord t id value =>
    refine ⟨fun t' => ?_, h.calls⟩
    show (Function.update p.shared.stores t (addNewRecord (p.shared.stores t) id value) t').keys.Nodup
    by_cases ht : t' = t
    · subst ht
      rw [update_self, addNewRecord_eq hr.1 hr.2]
      exact Tally.nodup_keys_add (h.stores t') id value
    · rw [update_of_ne ht]
      exact h.stores t'
  | batchUpdate => exact ⟨h.stores, h.calls.start trivial⟩
  | resume i j fault =>
    simp only [Batch.step]
    rcases p.resume_cases (Call.step j fault) i with ⟨-, hr⟩ | ⟨before, c, after, -, hcalls, hr⟩
    · rw [hr]
      exact h
    · rw [hr]
      have hc : c.Sound := h.calls c (by simp [hcalls])
      obtain ⟨-, hstores, hrest⟩ := Call.step_sound j fault hc h.stores
      exact ⟨hstores, h.calls.of_split hcalls hrest⟩

/-- **The books of an event.**  Nothing moves but what a statement drops. -/
theorem stock_step {p : Pool State Call} (h : Sound p) (e : Event) (hr : InRange p e)
    (t : BatchUpdateType) (id : ℤ) :
    stock (step p e) t id = stock p t id - droppedBy p t id e := by
  cases e with
  | addNewRecord t' id' value =>
    have hstored : ∀ stores added,
        stored { p.shared with stores := stores, added := added } t id = stored p.shared t id := by
      intro stores added
      cases t <;> rfl
    simp only [stock, Batch.step, Pool.outside_shared, Pool.total_outside, hstored, droppedBy]
    by_cases ht : t = t'
    · subst ht
      simp only [update_self, addNewRecord_eq hr.1 hr.2, Tally.value_add]
      ring
    · simp only [update_of_ne ht, sub_zero]
  | batchUpdate => simp [stock, Batch.step, droppedBy, Call.inHand]
  | resume i j fault =>
    simp only [Batch.step, droppedBy]
    rcases p.resume_cases (Call.step j fault) i with ⟨hget, hr⟩ | ⟨before, c, after, hget, hcalls, hr⟩
    · rw [hr, hget]
      simp
    · obtain ⟨s, calls⟩ := p
      subst hcalls
      have hc : c.Sound := h.calls c (by simp)
      have hstep := Call.step_stock j fault s hc t id
      obtain ⟨hadded, -⟩ := Call.step_sound j fault hc h.stores
      rw [hr, hget]
      simp only [stock, Pool.total_join s, Pool.total_split, hadded, Option.map_some,
        Option.getD_some]
      omega

theorem lands_iff (e : Event) : Lands p e ↔ ∀ t id, droppedBy p t id e = 0 := by
  cases e with
  | addNewRecord | batchUpdate => exact ⟨fun _ _ _ => rfl, fun _ => trivial⟩
  | resume i j fault =>
    simp only [Lands, droppedBy]
    cases p.calls[i]? with
    | none => simp
    | some c =>
      simp only [Option.mem_def, Option.some.injEq, forall_eq', Option.map_some, Option.getD_some]
      cases c with
      | write todo =>
        simp only [Call.dropped, Call.Lands]
        cases todo[j]? with
        | none => simp
        | some w =>
          simp only [Option.mem_def, Option.some.injEq, forall_eq', Option.map_some,
            Option.getD_some]
          constructor
          · intro h t id
            simp only [Write.dropped]
            rcases h with hzero | hlands
            · rw [amount_of_isZero hzero]
              simp
            · rw [if_pos hlands]
          · intro h
            by_cases hlands : fault = false ∧ w.lands p.shared = true
            · exact Or.inr hlands
            · refine Or.inl (isZero_of_amount fun t id => ?_)
              have := h t id
              rwa [Write.dropped, if_neg hlands] at this
      | _ => exact ⟨fun _ _ _ => rfl, fun _ => trivial⟩

/-- **Nothing lost, nothing twice.**  For every type and id, what the database gained, what is
pending in the stores and what the runs have taken and not written add up to what was added. -/
def Conserved (db : DB) (channels : List Channel) (p : Pool State Call) : Prop :=
  ∀ t id,
    stored p.shared t id - stored (start db channels).shared t id +
      ((p.shared.stores t).value id + p.total (Call.inHand t id)) = (p.shared.added t).value id

theorem conserved_iff (db : DB) (channels : List Channel) (p : Pool State Call) :
    Conserved db channels p ↔ ∀ t id, stock p t id = stock (start db channels) t id := by
  have hstart : ∀ t id, stock (start db channels) t id = stored (start db channels).shared t id := by
    intro t id
    show stored (start db channels).shared t id + 0 + 0 - 0 = _
    ring
  constructor
  · intro h t id
    have := h t id
    rw [hstart]
    simp only [stock]
    omega
  · intro h t id
    have := h t id
    rw [hstart] at this
    simp only [stock] at this
    omega

/-- **When the batch updater loses nothing.**  In every interleaving of additions and flushes in which
no pending sum leaves the range of `int`, the changes are conserved in every state iff every
statement of a flush that carries something succeeds on an existing row. -/
theorem batch_runs_iff (db : DB) (channels : List Channel) (es : List Event)
    (hes : Machine.Meets step InRange (start db channels) es) :
    Machine.Always step (Conserved db channels) (start db channels) es ↔
      Machine.Meets step Lands (start db channels) es := by
  refine Machine.always_iff_meets_of (J := fun p => Sound p ∧ Conserved db channels p)
    (fun p hp => hp.2) ?_ ?_ ?_ hes
  · rintro p e ⟨hsound, hcons⟩ hr hlands
    refine ⟨hsound.step e hr, (conserved_iff db channels _).2 fun t id => ?_⟩
    rw [stock_step hsound e hr, (lands_iff p e).1 hlands t id, sub_zero]
    exact (conserved_iff db channels p).1 hcons t id
  · rintro p e ⟨hsound, hcons⟩ hr hcons'
    refine (lands_iff p e).2 fun t id => ?_
    have hbefore := (conserved_iff db channels p).1 hcons t id
    have hafter := (conserved_iff db channels _).1 hcons' t id
    rw [stock_step hsound e hr] at hafter
    omega
  · refine ⟨⟨fun _ => List.nodup_nil, fun c hc => absurd hc List.not_mem_nil⟩, ?_⟩
    exact (conserved_iff db channels _).2 fun _ _ => rfl

/-- A database with one user and one token. -/
def someDB : DB :=
  { DB.empty with users := [⟨7, 100, 0, 0, "default", "", ""⟩], tokens := [⟨3, 50, 0⟩] }

/-- Two additions, one of them while a flush takes the stores; both end up in the database. -/
theorem batch_runs_iff_flushed :
    Machine.Always step (Conserved someDB []) (start someDB [])
      [.addNewRecord .userQuota 7 (-10), .batchUpdate, .resume 0 0 false, .resume 0 0 false,
        .addNewRecord .tokenQuota 3 5, .resume 0 0 false, .resume 0 0 false, .resume 0 0 false,
        .resume 0 0 false, .resume 0 0 false, .resume 0 0 false, .resume 0 0 false] :=
  (batch_runs_iff someDB [] _ (by decide)).2 (by decide)

/-- **A flush that fails.**  The sum has left the store when its statement fails, and nothing brings
it back. -/
theorem flush_error_loses :
    ¬ Machine.Always step (Conserved someDB []) (start someDB [])
      [.addNewRecord .userQuota 7 (-10), .batchUpdate, .resume 0 0 false, .resume 0 0 false,
        .resume 0 0 false, .resume 0 0 false, .resume 0 0 false, .resume 0 0 false,
        .resume 0 0 false, .resume 0 0 true] := by
  intro h
  exact absurd (h.run .userQuota 7) (by decide)

end NexusTok.Batch
