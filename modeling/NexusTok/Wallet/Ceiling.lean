import NexusTok.TopUp.Settlement
import NexusTok.Wallet.Ledger

/-!
# The ceiling of wallets

A stored wallet is meant to stay at or below `maxWalletQuota`.  Payments (`creditTopUpQuota`),
`IncreaseUserQuota` when it writes at once, and check-ins on SQLite keep it there by a condition
inside their `UPDATE`.  Two writers add without a condition: the check-in on MySQL and PostgreSQL,
and the flush of the batch queue, in which credits that are each in range have been summed up.

The machine of this file is the ledger under any sequence of these operations.

* `step_ceiling` : a step that starts under the ceiling ends under it iff the step fits.
* `ceiling_runs_iff` : a run from under the ceiling stays under it iff every step fits.
-/

namespace NexusTok

open Machine Option

/-! ### Check-ins -/

structure CheckinSetting where
  enabled : Bool
  minQuota : ℤ
  maxQuota : ℤ
  deriving DecidableEq

/-- The reward; `roll` is what the random number generator gives. -/
def CheckinSetting.quotaAwarded (setting : CheckinSetting) (roll : ℕ) : ℤ :=
  if setting.minQuota < setting.maxQuota then
    setting.minQuota + roll % (setting.maxQuota - setting.minQuota + 1)
  else setting.minQuota

/-- The user has a check-in on the day. -/
def DB.checkedIn (db : DB) (userId : ℤ) (date : String) : Bool :=
  db.checkins.any fun c => decide (c.userId = userId ∧ c.checkinDate = date)

/-- Insert a check-in. -/
def DB.addCheckin (db : DB) (c : Checkin) : DB := { db with checkins := db.checkins ++ [c] }

/-- Delete the check-in again. -/
def DB.deleteCheckin (db : DB) (c : Checkin) : DB :=
  { db with checkins := db.checkins.filter fun c' =>
      !decide (c'.userId = c.userId ∧ c'.checkinDate = c.checkinDate) }

/-- The insert, which the unique index over user and day refuses for a second one. -/
def createCheckin (f : Faults) (c : Checkin) (db : DB) : Except Err DB :=
  if f ⟨.create, .checkins, 0⟩ || db.checkedIn c.userId c.checkinDate then
    .error (.text "签到失败，请稍后重试")
  else .ok (db.addCheckin c)

/-- The transaction of `userCheckinWithTransaction`. -/
def checkinBody (f : Faults) (c : Checkin) : Body DB Err Checkin := fun db =>
  match createCheckin f c db with
  | .error e => .error e
  | .ok db =>
    if f ⟨.update, .users, c.userId⟩ then .error (.text "签到失败：更新额度出错")
    else .ok (c, db.addQuota c.userId c.quotaAwarded)

def userCheckinWithTransaction (f : Faults) (c : Checkin) (l : Ledger) :
    Except Err Checkin × Ledger :=
  match (checkinBody f c).atomically (commitErr f .checkins) l.db with
  | (r, db) => (r, { l with db := db })

variable (setup : Setup)

/-- `userCheckinWithoutTransaction`: a reward that fails is followed by the deletion of the
check-in. -/
def userCheckinWithoutTransaction (f : Faults) (c : Checkin) (l : Ledger) :
    Except Err Checkin × Ledger :=
  match createCheckin f c l.db with
  | .error e => (.error e, l)
  | .ok db =>
    match increaseUserQuota setup f c.userId c.quotaAwarded true { l with db := db } with
    | .ok l' => (.ok c, l')
    | .error _ =>
      (.error (.text "签到失败：更新额度出错"),
        { l with db := if f ⟨.delete, .checkins, 0⟩ then db else db.deleteCheckin c })

def userCheckin (f : Faults) (setting : CheckinSetting) (userId : ℤ) (today : String) (roll : ℕ)
    (l : Ledger) : Except Err Checkin × Ledger :=
  if !setting.enabled then (.error (.text "签到功能未启用"), l)
  else if f ⟨.count, .checkins, 0⟩ then (.error (.db ⟨.count, .checkins, 0⟩), l)
  else if l.db.checkedIn userId today then (.error (.text "今日已签到"), l)
  else if setup.sqlite then
    userCheckinWithoutTransaction setup f ⟨userId, today, setting.quotaAwarded roll⟩ l
  else userCheckinWithTransaction f ⟨userId, today, setting.quotaAwarded roll⟩ l

def updateUserUsedQuotaAndRequestCount (f : Faults) (id quota : ℤ) (l : Ledger) : Ledger :=
  if setup.batchUpdateEnabled then
    { l with queues := { l.queues with
        usedQuota := addNewRecord l.queues.usedQuota id quota
        requestCount := addNewRecord l.queues.requestCount id 1 } }
  else if f ⟨.update, .users, id⟩ then l
  else { l with db := l.db.updateUser id fun u =>
    { u with usedQuota := u.usedQuota + quota, requestCount := u.requestCount + 1 } }

namespace Ceiling

/-! ### The machine -/

/-- What can happen. -/
inductive Event where
  /-- A completion of an order, by a gateway or by hand, or the redemption of a code. -/
  | pay (e : { e : Settlement.Event // e.source.isSome = true })
  | increase (f : Faults) (id quota : ℤ) (direct : Bool)
  | decrease (f : Faults) (id quota : ℤ) (direct : Bool)
  | used (f : Faults) (id quota : ℤ)
  | flush (f : Faults)
  | checkin (f : Faults) (setting : CheckinSetting) (userId : ℤ) (today : String) (roll : ℕ)

variable (quotaPerUnit : Decimal)

def step (l : Ledger) : Event → Ledger
  | .pay e => { l with db := (Settlement.call quotaPerUnit l.db e.1).2 }
  | .increase f id quota direct => l.after (increaseUserQuota setup f id quota direct l)
  | .decrease f id quota direct => l.after (decreaseUserQuota setup f id quota direct l)
  | .used f id quota => updateUserUsedQuotaAndRequestCount setup f id quota l
  | .flush f => batchUpdate f l
  | .checkin f setting userId today roll => (userCheckin setup f setting userId today roll l).2

/-- No stored wallet is above the ceiling. -/
def UnderCeiling (l : Ledger) : Prop := ∀ id w, l.db.wallet id = some w → w ≤ maxWalletQuota

/-- A check-in that is not on SQLite meets no failing statement and is the first of the day. -/
def GoesThrough (l : Ledger) (f : Faults) (setting : CheckinSetting) (userId : ℤ)
    (today : String) : Prop :=
  setup.sqlite = false ∧ setting.enabled = true ∧ l.db.checkedIn userId today = false ∧
    f ⟨.count, .checkins, 0⟩ = false ∧ f ⟨.create, .checkins, 0⟩ = false ∧
    f ⟨.update, .users, userId⟩ = false ∧ f ⟨.commit, .checkins, 0⟩ = false

/-- The step fits under the ceiling: what an unconditional writer adds to a stored wallet leaves it
there. -/
def Fits (l : Ledger) : Event → Prop
  | .flush f => ∀ id w, l.db.wallet id = some w → f ⟨.update, .users, id⟩ = false →
      w ≤ maxWalletQuota - l.queues.userQuota.value id
  | .checkin f setting userId today roll => GoesThrough setup l f setting userId today →
      ∀ w, l.db.wallet userId = some w → w ≤ maxWalletQuota - setting.quotaAwarded roll
  | _ => True

/-! ### Steps -/

section Steps

variable {setup quotaPerUnit} {l l' : Ledger}

theorem UnderCeiling.of_same (h : UnderCeiling l) (hw : ∀ v, l'.db.wallet v = l.db.wallet v) :
    UnderCeiling l' := by
  intro id w hid
  rw [hw] at hid
  exact h id w hid

/-- An addition to one wallet ends under the ceiling iff that wallet had room. -/
theorem under_add {id c : ℤ} (h : UnderCeiling l)
    (hw : ∀ v, l'.db.wallet v = (l.db.wallet v).map fun w => if v = id then w + c else w) :
    UnderCeiling l' ↔ ∀ w, l.db.wallet id = some w → w ≤ maxWalletQuota - c := by
  constructor
  · intro h' w hid
    have := h' id (w + c) (by rw [hw, hid, map_some, if_pos rfl])
    omega
  · intro hroom v w hv
    rw [hw] at hv
    rcases hget : l.db.wallet v with _ | w₀
    · rw [hget] at hv; cases hv
    rw [hget, map_some, Option.some.injEq] at hv
    by_cases hid : v = id
    · subst hid
      have := hroom w₀ hget
      rw [if_pos rfl] at hv
      omega
    · rw [if_neg hid] at hv
      rw [← hv]
      exact h v w₀ hget

theorem room_of_creditable {db : DB} {id c : ℤ} (h : Creditable db id c) :
    ∀ w, db.wallet id = some w → w ≤ maxWalletQuota - c := by
  obtain ⟨-, -, user, hu, hq⟩ := h
  intro w hw
  rw [DB.wallet, hu, map_some, Option.some.injEq] at hw
  rw [← hw]
  exact hq

section

variable (h : UnderCeiling l)
include h

/-- A completion adds to a wallet that has room, or leaves the wallets alone. -/
theorem under_completes {α : Type} {tradeNo : String} {fits : PaymentProvider → Prop}
    {amount : TopUp → Decimal} {r : Except Err α × DB}
    (hr : Completes l.db tradeNo fits amount r) : UnderCeiling { l with db := r.2 } := by
  cases hr with
  | failed | done => exact h
  | credited a db' o ho hfits hc =>
    exact (under_add h hc.wallet).2 (room_of_creditable hc.creditable)

theorem under_pay (e : { e : Settlement.Event // e.source.isSome = true }) :
    UnderCeiling { l with db := (Settlement.call quotaPerUnit l.db e.1).2 } := by
  obtain ⟨e, he⟩ := e
  cases e with
  | callback g f tradeNo c => exact under_completes h (gateway_cases g f tradeNo c l.db)
  | manual f tradeNo now => exact under_completes h (manual_cases f tradeNo now l.db)
  | redeem f key userId now =>
    simp only [Settlement.call]
    obtain ⟨err, hr⟩ | ⟨r, -, -, hc, hr⟩ := redeem_cases f key userId now l.db
    · rw [hr]
      exact h
    · rw [hr]
      refine (under_add h fun v => ?_).2 (room_of_creditable hc)
      exact wallet_add (g := fun u => { u with quota := u.quota + r.quota }) (fun _ => ⟨rfl, rfl⟩) v
  | close | place | issue | setQuota => cases he

theorem under_increase {f : Faults} {id quota : ℤ} {direct : Bool}
    (hok : increaseUserQuota setup f id quota direct l = .ok l') : UnderCeiling l' := by
  obtain ⟨-, rfl⟩ | ⟨user, hu, hroom, rfl⟩ := increaseUserQuota_cases hok
  · exact h
  · refine (under_add h (wallet_addQuota l.db id quota)).2 ?_
    intro w hw
    rw [DB.wallet, hu, map_some, Option.some.injEq] at hw
    rw [← hw]
    exact hroom

theorem under_decrease {f : Faults} {id quota : ℤ} {direct : Bool}
    (hok : decreaseUserQuota setup f id quota direct l = .ok l') : UnderCeiling l' := by
  unfold decreaseUserQuota at hok
  split_ifs at hok with hneg hbatch hf
  · cases hok
    exact h
  · cases hok
    refine (under_add h (wallet_addQuota l.db id (-quota))).2 ?_
    intro w hw
    have := h id w hw
    omega

theorem under_after {r : Except Err Ledger}
    (hok : ∀ l', r = .ok l' → UnderCeiling l') : UnderCeiling (l.after r) := by
  cases r with
  | error err => exact h
  | ok l' => exact hok l' rfl

theorem under_used (f : Faults) (id quota : ℤ) :
    UnderCeiling (updateUserUsedQuotaAndRequestCount setup f id quota l) := by
  unfold updateUserUsedQuotaAndRequestCount
  split_ifs
  · exact h
  · exact h
  · refine h.of_same fun v => ?_
    refine (wallet_add (g := fun u => { u with
      usedQuota := u.usedQuota + quota, requestCount := u.requestCount + 1 }) (c := 0)
      (fun u => ⟨rfl, (add_zero _).symm⟩) v).trans ?_
    simp

/-- A flush ends under the ceiling iff every wallet it writes has room for what is queued. -/
theorem under_flush (f : Faults) : UnderCeiling (batchUpdate f l) ↔ Fits setup l (.flush f) := by
  constructor
  · intro h' id w hid hf
    have := h' id (w + l.queues.userQuota.value id)
      (by rw [batchUpdate_wallet, hid, map_some, hf]; rfl)
    omega
  · intro hfits id w hid
    rw [batchUpdate_wallet] at hid
    rcases hget : l.db.wallet id with _ | w₀
    · rw [hget] at hid; cases hid
    rw [hget, map_some, Option.some.injEq] at hid
    cases hf : f ⟨.update, .users, id⟩ with
    | true =>
      rw [hf, if_pos rfl] at hid
      rw [← hid]
      exact h id w₀ hget
    | false =>
      rw [hf, if_neg Bool.false_ne_true] at hid
      have := hfits id w₀ hget hf
      omega

/-- A check-in on SQLite adds its reward by `IncreaseUserQuota`. -/
theorem under_withoutTransaction (f : Faults) (c : Checkin) :
    UnderCeiling (userCheckinWithoutTransaction setup f c l).2 := by
  unfold userCheckinWithoutTransaction
  cases hc : createCheckin f c l.db with
  | error e => exact h
  | ok db =>
    have hdb : ∀ v, db.wallet v = l.db.wallet v := by
      unfold createCheckin at hc
      split_ifs at hc
      cases hc
      exact fun _ => rfl
    have h₁ : UnderCeiling { l with db := db } := h.of_same hdb
    cases hi : increaseUserQuota setup f c.userId c.quotaAwarded true { l with db := db } with
    | ok l' =>
      simp only [hi]
      exact under_increase h₁ hi
    | error e =>
      simp only [hi]
      split_ifs
      · exact h₁
      · exact h₁

/-- A check-in with a transaction ends under the ceiling iff it does not go through, or the wallet
has room for the reward. -/
theorem under_withTransaction (f : Faults) (c : Checkin)
    (hnew : l.db.checkedIn c.userId c.checkinDate = false) :
    UnderCeiling (userCheckinWithTransaction f c l).2 ↔
      (f ⟨.create, .checkins, 0⟩ = false ∧ f ⟨.update, .users, c.userId⟩ = false ∧
        f ⟨.commit, .checkins, 0⟩ = false →
        ∀ w, l.db.wallet c.userId = some w → w ≤ maxWalletQuota - c.quotaAwarded) := by
  by_cases hgo : f ⟨.create, .checkins, 0⟩ = false ∧ f ⟨.update, .users, c.userId⟩ = false ∧
      f ⟨.commit, .checkins, 0⟩ = false
  · obtain ⟨h₁, h₂, h₃⟩ := hgo
    have hb : checkinBody f c l.db =
        .ok (c, (l.db.addCheckin c).addQuota c.userId c.quotaAwarded) := by
      simp [checkinBody, createCheckin, h₁, h₂, hnew]
    have hrun : userCheckinWithTransaction f c l = (.ok c,
        { l with db := (l.db.addCheckin c).addQuota c.userId c.quotaAwarded }) := by
      unfold userCheckinWithTransaction
      rw [commitErr_eq_none.2 h₃, Body.atomically_of_ok hb]
    rw [hrun, under_add h (wallet_addQuota (l.db.addCheckin c) c.userId c.quotaAwarded)]
    exact ⟨fun hroom _ => hroom, fun hroom => hroom ⟨h₁, h₂, h₃⟩⟩
  · refine ⟨fun _ hg => absurd hg hgo, fun _ => ?_⟩
    obtain ⟨e, he⟩ | ⟨a, db', hcommit, hb, he⟩ :=
      Body.atomically_cases (commitErr f .checkins) (checkinBody f c) l.db
    · unfold userCheckinWithTransaction
      rw [he]
      exact h
    · -- a transaction that commits has met no failing statement
      refine absurd ⟨?_, ?_, commitErr_eq_none.1 hcommit⟩ hgo
      · cases hf : f ⟨.create, .checkins, 0⟩ with
        | false => rfl
        | true => simp [checkinBody, createCheckin, hf] at hb
      · cases hf : f ⟨.update, .users, c.userId⟩ with
        | false => rfl
        | true =>
          unfold checkinBody at hb
          cases hc : createCheckin f c l.db with
          | error e => rw [hc] at hb; cases hb
          | ok db => rw [hc] at hb; simp [hf] at hb

theorem under_checkin (f : Faults) (setting : CheckinSetting) (userId : ℤ)
    (today : String) (roll : ℕ) :
    UnderCeiling (userCheckin setup f setting userId today roll l).2 ↔
      Fits setup l (.checkin f setting userId today roll) := by
  unfold userCheckin
  split_ifs with hen hcount hchecked hsqlite
  · refine iff_of_true h fun hg => ?_
    rw [hg.2.1] at hen
    cases hen
  · refine iff_of_true h fun hg => ?_
    rw [hg.2.2.2.1] at hcount
    cases hcount
  · refine iff_of_true h fun hg => ?_
    rw [hg.2.2.1] at hchecked
    cases hchecked
  · refine iff_of_true (under_withoutTransaction h f _) fun hg => ?_
    rw [hg.1] at hsqlite
    cases hsqlite
  · rw [Bool.not_eq_true] at hcount hchecked hsqlite
    rw [Bool.not_eq_true, Bool.not_eq_false'] at hen
    refine (under_withTransaction h f _ hchecked).trans ?_
    constructor
    · rintro hroom ⟨-, -, -, -, h₁, h₂, h₃⟩
      exact hroom ⟨h₁, h₂, h₃⟩
    · rintro hroom ⟨h₁, h₂, h₃⟩
      exact hroom ⟨hsqlite, hen, hchecked, hcount, h₁, h₂, h₃⟩

/-- **One step under the ceiling.** -/
theorem step_ceiling (e : Event) : UnderCeiling (step setup quotaPerUnit l e) ↔ Fits setup l e := by
  cases e with
  | pay e => exact iff_of_true (under_pay h e) trivial
  | increase f id quota direct =>
    exact iff_of_true (under_after h fun l' hr => under_increase h hr) trivial
  | decrease f id quota direct =>
    exact iff_of_true (under_after h fun l' hr => under_decrease h hr) trivial
  | used f id quota => exact iff_of_true (under_used h f id quota) trivial
  | flush f => exact under_flush h f
  | checkin f setting userId today roll => exact under_checkin h f setting userId today roll

end

end Steps

/-- **The ceiling over whole runs.**  A run from under the ceiling stays under it exactly when every
check-in with a transaction and every flush finds room for what it adds. -/
theorem ceiling_runs_iff (l : Ledger) (h : UnderCeiling l) (es : List Event) :
    Always (step setup quotaPerUnit) UnderCeiling l es ↔
      Meets (step setup quotaPerUnit) (Fits setup) l es :=
  always_iff_meets (fun _ h => h) (fun _ e h hfits => (step_ceiling h e).2 hfits)
    (fun _ e h hunder => (step_ceiling h e).1 hunder) h

/-- A user whose wallet is at the ceiling, and nothing queued. -/
def fullLedger : Ledger :=
  ⟨{ DB.empty with users := [⟨7, maxWalletQuota, 0, 0, "default", "", ""⟩] }, .empty⟩

theorem underCeiling_fullLedger : UnderCeiling fullLedger := by
  intro id w hw
  by_cases hid : id = 7
  · subst hid
    have : w = maxWalletQuota := (some.inj hw).symm
    exact this.le
  · have hnone : fullLedger.db.wallet id = none := by
      simp [fullLedger, DB.wallet, DB.user, Table.get, Ne.symm hid]
    rw [hnone] at hw
    cases hw

/-- A credit that does not fit is refused, and the wallet stays at the ceiling. -/
theorem ceiling_runs_iff_refused :
    UnderCeiling fullLedger ∧
      Always (step ⟨false, true⟩ (.ofInt 500)) UnderCeiling fullLedger
        [.increase .none 7 1000 true] :=
  ⟨underCeiling_fullLedger, (ceiling_runs_iff ⟨false, true⟩ (.ofInt 500) fullLedger
    underCeiling_fullLedger _).2 ⟨trivial, trivial⟩⟩

/-- A check-in on MySQL takes the full wallet over the ceiling; with batch updates, so does a queued
credit when it is flushed. -/
theorem wallet_leaves_ceiling :
    (run (step ⟨false, false⟩ (.ofInt 500)) fullLedger
        [.checkin .none ⟨true, 1000, 1000⟩ 7 "2024-01-01" 0]).db.wallet 7 =
        some (maxWalletQuota + 1000) ∧
      (run (step ⟨true, true⟩ (.ofInt 500)) fullLedger
        [.increase .none 7 1000 false, .flush .none]).db.wallet 7 =
        some (maxWalletQuota + 1000) ∧
      ¬ Always (step ⟨false, false⟩ (.ofInt 500)) UnderCeiling fullLedger
        [.checkin .none ⟨true, 1000, 1000⟩ 7 "2024-01-01" 0] ∧
      ¬ Always (step ⟨true, true⟩ (.ofInt 500)) UnderCeiling fullLedger
        [.increase .none 7 1000 false, .flush .none] := by
  have h₁ : (run (step ⟨false, false⟩ (.ofInt 500)) fullLedger
      [.checkin .none ⟨true, 1000, 1000⟩ 7 "2024-01-01" 0]).db.wallet 7 =
      some (maxWalletQuota + 1000) := by decide
  have h₂ : (run (step ⟨true, true⟩ (.ofInt 500)) fullLedger
      [.increase .none 7 1000 false, .flush .none]).db.wallet 7 =
      some (maxWalletQuota + 1000) := by decide
  refine ⟨h₁, h₂, fun h => ?_, fun h => ?_⟩
  · exact absurd (h.run 7 _ h₁) (by decide)
  · exact absurd (h.run 7 _ h₂) (by decide)

end Ceiling

end NexusTok
