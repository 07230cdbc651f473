import NexusTok.Subscription.Period
import Mathlib.Data.List.Nodup
import Mathlib.Logic.Relation

/-!
# The reset task

`runSubscriptionQuotaResetOnce` calls `ResetDueSubscriptions` until a call resets fewer rows than
its batch holds.  A call takes the due rows in the order of their reset time and hands each to
`maybeResetUserSubscriptionWithPlanTx`; it counts a row as reset whether or not the row moved.

A due row moves when the plan it belongs to, as it stands now, puts a reset time in `(0, now]`
after the base of the row, and that time is not the base itself (`MovesOn`).  A plan that was
edited after the reset time was stored need not do so.  The results:

* `resetEach_eq` : what a call does to the table, row by row.
* `resetLoop_ends_iff` : the loop ends, and every call it makes moves every row it takes, iff every
  due row moves on.
* `resetLoop_stuck` : the loop never ends when a full batch of rows does not move.
-/

namespace NexusTok

open Machine List Table

/-- The rows `ResetDueSubscriptions` selects. -/
def UserSubscription.ResetDue (now : ℤ) (sub : UserSubscription) : Prop :=
  0 < sub.nextResetTime ∧ sub.nextResetTime ≤ now ∧ sub.status = .active

instance (now : ℤ) : DecidablePred (UserSubscription.ResetDue now) := fun sub =>
  inferInstanceAs (Decidable (0 < sub.nextResetTime ∧ sub.nextResetTime ≤ now ∧
    sub.status = .active))

namespace ResetTask

/-- The due rows of the table. -/
def dueRows (now : ℤ) (db : DB) : List UserSubscription :=
  db.subscriptions.filter fun sub => decide (sub.ResetDue now)

/-- The due rows a call takes: the first `limit` of them by reset time. -/
def dueBatch (limit : ℕ) (now : ℤ) (db : DB) : List UserSubscription :=
  (Table.select (fun sub => decide (sub.ResetDue now))
    (fun a b => decide (a.nextResetTime ≤ b.nextResetTime)) db.subscriptions).take limit

/-- The transaction for one row of the batch; the flag says whether the row was counted. -/
def resetOne (loc : Location) (now : ℤ) (sub : UserSubscription) (db : DB) :
    Except Err (DB × Bool) :=
  match getSubscriptionPlanById .none db sub.planId with
  | .error _ => .ok (db, false)
  | .ok plan =>
    match db.subscriptions.find? fun r =>
        decide (r.id = sub.id ∧ 0 < r.nextResetTime ∧ r.nextResetTime ≤ now) with
    | none => .ok (db, false)
    | some locked =>
      match maybeResetUserSubscriptionWithPlan loc locked plan now with
      | .error e => .error e
      | .ok (row, saved) => .ok (db.saveIf saved row, true)

/-- The loop over the batch, counting. -/
def resetEach (loc : Location) (now : ℤ) : List UserSubscription → DB → ℕ → Except Err ℕ × DB
  | [], db, n => (.ok n, db)
  | sub :: rest, db, n =>
    match resetOne loc now sub db with
    | .error e => (.error e, db)
    | .ok (db', counted) => resetEach loc now rest db' (if counted then n + 1 else n)

/-- `ResetDueSubscriptions`, when no statement fails. -/
def resetDueSubscriptions (loc : Location) (limit : ℕ) (now : ℤ) (db : DB) : Except Err ℕ × DB :=
  resetEach loc now (dueBatch (if limit ≤ 0 then 200 else limit) now db) db 0

def subscriptionResetBatchSize : ℕ := 300

/-- A call of the loop, with the limit the task passes. -/
def call (loc : Location) (now : ℤ) (db : DB) : Except Err ℕ × DB :=
  resetDueSubscriptions loc subscriptionResetBatchSize now db

/-- The state of the `ResetDueSubscriptions` loop of `runSubscriptionQuotaResetOnce`. -/
structure LoopState where
  db : DB
  running : Bool

/-- One turn of the loop.  A call that never returns leaves the loop running where it is. -/
def turn (loc : Location) (now : ℤ) (s : LoopState) : LoopState :=
  match call loc now s.db with
  | (.error .diverges, _) => s
  | (.error _, db') => ⟨db', false⟩
  | (.ok n, db') => ⟨db', n ≠ 0 && !(n < subscriptionResetBatchSize)⟩

/-- The loop ends when started on `db`. -/
def LoopEnds (loc : Location) (now : ℤ) (db : DB) : Prop :=
  Machine.Ends (fun s : LoopState => s.running = true) (turn loc now) ⟨db, true⟩

/-- The loop, started on `db`, makes a call on `db'`. -/
def Calls (loc : Location) (now : ℤ) : DB → DB → Prop :=
  Relation.ReflTransGen fun a b => ∃ n, call loc now a = (.ok n, b) ∧ n ≠ 0 ∧
    ¬ n < subscriptionResetBatchSize

/-- A call makes progress: it returns, a positive count means that fewer rows are due, and no row
it took is still due. -/
def Progress (loc : Location) (now : ℤ) (db : DB) : Prop :=
  ∃ n db', call loc now db = (.ok n, db') ∧
    (0 < n → (dueRows now db').length < (dueRows now db).length) ∧
    ∀ sub ∈ dueBatch subscriptionResetBatchSize now db, ∀ row ∈ db'.subscriptions,
      row.id = sub.id → ¬ row.ResetDue now

/-- The plan of the row can be loaded and gives, from the row's base, a reset time that has been
reached and is not the base itself. -/
def MovesOn (loc : Location) (now : ℤ) (db : DB) (sub : UserSubscription) : Prop :=
  ∃ plan, getSubscriptionPlanById .none db sub.planId = .ok plan ∧
    0 < calcNextResetTime loc sub.resetBase plan sub.endTime ∧
    calcNextResetTime loc sub.resetBase plan sub.endTime ≤ now ∧
    calcNextResetTime loc sub.resetBase plan sub.endTime ≠ sub.resetBase

/-! ### One row -/

section Row

variable {loc : Location} {now : ℤ} {sub : UserSubscription} {plan : SubscriptionPlan}

theorem maybeReset_of_not_reached (hd : sub.ResetDue now)
    (h : ¬ (0 < calcNextResetTime loc sub.resetBase plan sub.endTime ∧
      calcNextResetTime loc sub.resetBase plan sub.endTime ≤ now)) :
    maybeResetUserSubscriptionWithPlan loc sub plan now = .ok (sub, false) := by
  have hn : ¬ (0 < sub.nextResetTime ∧ now < sub.nextResetTime) := by
    obtain ⟨-, h₂, -⟩ := hd; omega
  have h0 : ¬ sub.nextResetTime = 0 := by obtain ⟨h₁, -⟩ := hd; omega
  simp only [maybeResetUserSubscriptionWithPlan, if_neg hn]
  split_ifs
  · rfl
  · rw [advance_of_not_due (f := fun b => calcNextResetTime loc b plan sub.endTime) h]
    simp [h0]

theorem maybeReset_of_fixed (hd : sub.ResetDue now)
    (h₁ : 0 < calcNextResetTime loc sub.resetBase plan sub.endTime)
    (h₂ : calcNextResetTime loc sub.resetBase plan sub.endTime ≤ now)
    (h₃ : calcNextResetTime loc sub.resetBase plan sub.endTime = sub.resetBase) :
    maybeResetUserSubscriptionWithPlan loc sub plan now = .error .diverges := by
  have hn : ¬ (0 < sub.nextResetTime ∧ now < sub.nextResetTime) := by
    obtain ⟨-, h₂, -⟩ := hd; omega
  have hp : ¬ normalizeResetPeriod plan.quotaResetPeriod = .never := fun hp => by
    rw [calcNextResetTime_never hp] at h₁; omega
  have ha := (advance_none_iff loc plan sub.endTime now sub.resetBase).2
    ⟨by omega, by omega, h₃⟩
  simp only [maybeResetUserSubscriptionWithPlan, if_neg hn, if_neg hp, ha]

theorem maybeReset_of_moves (hd : sub.ResetDue now)
    (h₁ : 0 < calcNextResetTime loc sub.resetBase plan sub.endTime)
    (h₂ : calcNextResetTime loc sub.resetBase plan sub.endTime ≤ now)
    (h₃ : calcNextResetTime loc sub.resetBase plan sub.endTime ≠ sub.resetBase) :
    ∃ row, maybeResetUserSubscriptionWithPlan loc sub plan now = .ok (row, true) ∧
      ¬ row.ResetDue now := by
  have hn : ¬ (0 < sub.nextResetTime ∧ now < sub.nextResetTime) := by
    obtain ⟨-, h₂, -⟩ := hd; omega
  have hp : ¬ normalizeResetPeriod plan.quotaResetPeriod = .never := fun hp => by
    rw [calcNextResetTime_never hp] at h₁; omega
  cases ha : advance (fun b => calcNextResetTime loc b plan sub.endTime) now sub.resetBase with
  | none => exact absurd ((advance_none_iff loc plan sub.endTime now sub.resetBase).1 ha).2.2 h₃
  | some a =>
    obtain ⟨hadv, hout⟩ := advance_spec ha
    refine ⟨_, by simp only [maybeResetUserSubscriptionWithPlan, if_neg hn, if_neg hp, ha,
      hadv.2 ⟨h₁, h₂⟩, ↓reduceIte]; rfl, ?_⟩
    rintro ⟨hr₁, hr₂, -⟩
    exact hout ⟨hr₁, hr₂⟩

end Row

/-- What a call makes of a due row that it can finish. -/
def resetRow (loc : Location) (now : ℤ) (db : DB) (sub : UserSubscription) : UserSubscription :=
  match getSubscriptionPlanById .none db sub.planId with
  | .error _ => sub
  | .ok plan =>
    match maybeResetUserSubscriptionWithPlan loc sub plan now with
    | .error _ => sub
    | .ok (row, _) => row

/-- The row never comes out of the call. -/
def Diverges (loc : Location) (now : ℤ) (db : DB) (sub : UserSubscription) : Prop :=
  ∃ plan, getSubscriptionPlanById .none db sub.planId = .ok plan ∧
    maybeResetUserSubscriptionWithPlan loc sub plan now = .error .diverges

/-- The plan of the row can be loaded, so that the row is counted. -/
def hasPlan (db : DB) (sub : UserSubscription) : Bool :=
  (getSubscriptionPlanById .none db sub.planId).isOk

variable {sub r : UserSubscription}

theorem maybeReset_error {loc : Location} {now : ℤ} {plan : SubscriptionPlan} {e : Err}
    (h : maybeResetUserSubscriptionWithPlan loc sub plan now = .error e) : e = .diverges := by
  unfold maybeResetUserSubscriptionWithPlan at h
  split_ifs at h
  split at h
  · exact (Except.error.inj h).symm
  · split_ifs at h

theorem resetRow_id (loc : Location) (now : ℤ) (db : DB) (sub : UserSubscription) :
    (resetRow loc now db sub).id = sub.id := by
  unfold resetRow
  split
  · rfl
  · split
    · rfl
    · rename_i h; exact maybeReset_id h

theorem resetRow_of_not_movesOn {loc : Location} {now : ℤ} {db : DB}
    (hd : sub.ResetDue now) (hm : ¬ MovesOn loc now db sub) (hv : ¬ Diverges loc now db sub) :
    resetRow loc now db sub = sub := by
  unfold resetRow
  split
  · rfl
  · rename_i plan hp
    by_cases hr : 0 < calcNextResetTime loc sub.resetBase plan sub.endTime ∧
        calcNextResetTime loc sub.resetBase plan sub.endTime ≤ now
    · by_cases hf : calcNextResetTime loc sub.resetBase plan sub.endTime = sub.resetBase
      · exact absurd ⟨plan, hp, maybeReset_of_fixed hd hr.1 hr.2 hf⟩ hv
      · exact absurd ⟨plan, hp, hr.1, hr.2, hf⟩ hm
    · rw [maybeReset_of_not_reached hd hr]

theorem resetRow_of_movesOn {loc : Location} {now : ℤ} {db : DB}
    (hd : sub.ResetDue now) (hm : MovesOn loc now db sub) :
    ¬ (resetRow loc now db sub).ResetDue now ∧ ¬ Diverges loc now db sub ∧
      hasPlan db sub = true := by
  obtain ⟨plan, hp, h₁, h₂, h₃⟩ := hm
  obtain ⟨row, hrow, hnd⟩ := maybeReset_of_moves hd h₁ h₂ h₃
  refine ⟨?_, ?_, ?_⟩
  · simpa only [resetRow, hp, hrow] using hnd
  · rintro ⟨plan', hp', hdiv⟩
    rw [hp, Except.ok.injEq] at hp'
    subst hp'
    rw [hrow] at hdiv; cases hdiv
  · simp [hasPlan, hp, Except.isOk, Except.toBool]

/-! ### The rows of a batch -/

section Batch

variable {loc : Location} {now : ℤ} {db : DB} {sub : UserSubscription}

/-- The lock finds the row the batch was built from. -/
theorem find_locked (hn : (db.subscriptions.map UserSubscription.id).Nodup)
    (hm : sub ∈ db.subscriptions) (hd : sub.ResetDue now) :
    (db.subscriptions.find? fun r =>
      decide (r.id = sub.id ∧ 0 < r.nextResetTime ∧ r.nextResetTime ≤ now)) = some sub := by
  cases h : db.subscriptions.find? fun r =>
      decide (r.id = sub.id ∧ 0 < r.nextResetTime ∧ r.nextResetTime ≤ now) with
  | none =>
    have := find?_eq_none.1 h sub hm
    simp only [decide_eq_true_eq, true_and] at this
    exact absurd ⟨hd.1, hd.2.1⟩ this
  | some r =>
    have hr := find?_some h
    simp only [decide_eq_true_eq] at hr
    rw [inj_on_of_nodup_map hn (mem_of_find?_eq_some h) hm hr.1]

theorem resetOne_of_diverges (hn : (db.subscriptions.map UserSubscription.id).Nodup)
    (hm : sub ∈ db.subscriptions) (hd : sub.ResetDue now) (hv : Diverges loc now db sub) :
    resetOne loc now sub db = .error .diverges := by
  obtain ⟨plan, hp, hdiv⟩ := hv
  simp only [resetOne, hp, find_locked hn hm hd, hdiv]

variable (loc now db) in
/-- The table after the rows `rows` have been reset as their plans say. -/
def resetRows (rows : List UserSubscription) : DB :=
  { db with
    subscriptions := db.subscriptions.map fun r =>
      if r ∈ rows then resetRow loc now db r else r }

theorem ids_resetRows (rows : List UserSubscription) :
    (resetRows loc now db rows).subscriptions.map UserSubscription.id =
      db.subscriptions.map UserSubscription.id := by
  simp only [resetRows, map_map]
  refine map_congr_left fun r _ => ?_
  by_cases h : r ∈ rows <;> simp [h, resetRow_id]

variable {rows : List UserSubscription}

theorem mem_resetRows_of_notMem
    (hm : r ∈ db.subscriptions) (hr : r ∉ rows) : r ∈ (resetRows loc now db rows).subscriptions :=
  mem_map.2 ⟨r, hm, if_neg hr⟩

section

variable (hn : (db.subscriptions.map UserSubscription.id).Nodup)
include hn

/-- Resetting one more row: rows are told apart by their ids, which a reset keeps. -/
theorem resetRows_cons {rest : List UserSubscription} (hs : sub ∉ rest)
    (hm : ∀ r ∈ sub :: rest, r ∈ db.subscriptions) :
    resetRows loc now (resetRows loc now db [sub]) rest = resetRows loc now db (sub :: rest) := by
  have hinj : ∀ r ∈ rest, r.id ≠ sub.id := fun r hr h =>
    hs (inj_on_of_nodup_map hn (hm r (mem_cons_of_mem _ hr)) (hm sub mem_cons_self) h
      ▸ hr)
  have hrow : ∀ r, resetRow loc now (resetRows loc now db [sub]) r = resetRow loc now db r :=
    fun _ => rfl
  simp only [resetRows, map_map, mem_singleton] at hrow ⊢
  congr 1
  refine map_congr_left fun r _ => ?_
  by_cases h : r = sub
  · subst h
    have : resetRow loc now db r ∉ rest := fun h => hinj _ h (resetRow_id loc now db r)
    simp [this]
  · simp [h, hrow]

theorem resetOne_eq
    (hm : sub ∈ db.subscriptions) (hd : sub.ResetDue now) (hv : ¬ Diverges loc now db sub) :
    resetOne loc now sub db = .ok (resetRows loc now db [sub], hasPlan db sub) := by
  have hid : (db.subscriptions.map fun r => if r = sub then sub else r) = db.subscriptions := by
    refine (map_congr_left fun r _ => ?_).trans (map_id _)
    by_cases h : r = sub <;> simp [h]
  have hrow : (db.subscriptions.map fun r => if r ∈ [sub] then resetRow loc now db r else r) =
      db.subscriptions.map fun r => if r = sub then resetRow loc now db sub else r := by
    refine map_congr_left fun r _ => ?_
    by_cases h : r = sub <;> simp [h]
  simp only [resetRows, hrow]
  unfold resetOne resetRow hasPlan
  cases hp : getSubscriptionPlanById .none db sub.planId with
  | error e => simp [hid, Except.isOk, Except.toBool]
  | ok plan =>
    simp only [find_locked hn hm hd]
    rcases hr : maybeResetUserSubscriptionWithPlan loc sub plan now with _ | p
    · exact absurd ⟨plan, hp, by rw [hr, maybeReset_error hr]⟩ hv
    obtain ⟨row, saved⟩ := p
    cases saved with
    | false =>
      rw [maybeReset_unsaved hr]
      simp [hid, DB.saveIf, Except.isOk, Except.toBool]
    | true =>
      simp [DB.saveIf, DB.saveSubscription, put_eq_map hn hm (maybeReset_id hr),
        Except.isOk, Except.toBool]

/-- **A call, row by row.**  Every row of the batch is reset as its plan says, the others are left
alone, and the count is the number of rows whose plan could be loaded. -/
theorem resetEach_eq {n : ℕ} (hnd : rows.Nodup)
    (hm : ∀ r ∈ rows, r ∈ db.subscriptions) (hd : ∀ r ∈ rows, r.ResetDue now)
    (hv : ∀ r ∈ rows, ¬ Diverges loc now db r) :
    resetEach loc now rows db n =
      (.ok (n + rows.countP (hasPlan db)), resetRows loc now db rows) := by
  induction rows generalizing db n with
  | nil => simp [resetEach, resetRows]
  | cons sub rest ih =>
    obtain ⟨hsr, hrest⟩ := nodup_cons.1 hnd
    have hstep := resetOne_eq hn (hm sub mem_cons_self) (hd sub mem_cons_self)
      (hv sub mem_cons_self)
    simp only [resetEach, hstep]
    rw [ih (by rw [ids_resetRows]; exact hn) hrest
      (fun r hr => mem_resetRows_of_notMem (hm r (mem_cons_of_mem _ hr))
        (by rw [mem_singleton]; rintro rfl; exact hsr hr))
      (fun r hr => hd r (mem_cons_of_mem _ hr))
      (fun r hr => hv r (mem_cons_of_mem _ hr)), resetRows_cons hn hsr hm]
    have hplan : ∀ r, hasPlan (resetRows loc now db [sub]) r = hasPlan db r := fun _ => rfl
    simp only [funext hplan, countP_cons]
    congr 2
    cases hasPlan db sub <;> simp
    omega

/-- A call whose batch holds a row that never comes out does not return. -/
theorem resetEach_of_diverges {n : ℕ} (hnd : rows.Nodup)
    (hm : ∀ r ∈ rows, r ∈ db.subscriptions) (hd : ∀ r ∈ rows, r.ResetDue now)
    (hv : ∃ r ∈ rows, Diverges loc now db r) :
    (resetEach loc now rows db n).1 = .error .diverges := by
  induction rows generalizing db n with
  | nil => simp at hv
  | cons sub rest ih =>
    obtain ⟨hsr, hrest⟩ := nodup_cons.1 hnd
    by_cases hs : Diverges loc now db sub
    · simp only [resetEach,
        resetOne_of_diverges hn (hm sub mem_cons_self) (hd sub mem_cons_self) hs]
    · simp only [resetEach,
        resetOne_eq hn (hm sub mem_cons_self) (hd sub mem_cons_self) hs]
      obtain ⟨r, hr, hrv⟩ := hv
      have hr' : r ∈ rest := by
        rcases mem_cons.1 hr with rfl | hr
        · exact absurd hrv hs
        · exact hr
      exact ih (by rw [ids_resetRows]; exact hn) hrest
        (fun r' hr' => mem_resetRows_of_notMem (hm r' (mem_cons_of_mem _ hr'))
          (by rw [mem_singleton]; rintro rfl; exact hsr hr'))
        (fun r hr => hd r (mem_cons_of_mem _ hr)) ⟨r, hr', hrv⟩

end

theorem mem_dueRows : sub ∈ dueRows now db ↔ sub ∈ db.subscriptions ∧ sub.ResetDue now := by
  simp [dueRows]

theorem mem_dueRows_of_mem_dueBatch {limit : ℕ} (h : sub ∈ dueBatch limit now db) :
    sub ∈ dueRows now db :=
  mem_filter.2 (mem_select.1 (mem_of_mem_take h))

theorem nodup_dueBatch (hn : (db.subscriptions.map UserSubscription.id).Nodup) (limit : ℕ) :
    (dueBatch limit now db).Nodup := by
  exact ((keys_select_nodup hn).of_map).sublist (take_sublist _ _)

theorem length_dueBatch (limit : ℕ) :
    (dueBatch limit now db).length = min limit (dueRows now db).length := by
  rw [dueBatch, length_take, length_select, dueRows]

/-- A due row is left for a later call only when the batch is full. -/
theorem length_dueBatch_of_notMem {limit : ℕ} (h : sub ∈ dueRows now db)
    (hb : sub ∉ dueBatch limit now db) : (dueBatch limit now db).length = limit := by
  by_contra hne
  rw [length_dueBatch] at hne
  refine hb ?_
  rw [dueRows] at hne h
  rw [dueBatch, take_of_length_le (by rw [length_select]; omega)]
  exact mem_select.2 (mem_filter.1 h)

/-- The call on a table with unique ids: it returns unless the batch holds a row that never comes
out. -/
theorem call_eq (hn : (db.subscriptions.map UserSubscription.id).Nodup)
    (hv : ∀ r ∈ dueBatch subscriptionResetBatchSize now db, ¬ Diverges loc now db r) :
    call loc now db =
      (.ok ((dueBatch subscriptionResetBatchSize now db).countP (hasPlan db)),
        resetRows loc now db (dueBatch subscriptionResetBatchSize now db)) := by
  have h := resetEach_eq (n := 0) hn (nodup_dueBatch hn subscriptionResetBatchSize)
    (fun r hr => (mem_dueRows.1 (mem_dueRows_of_mem_dueBatch hr)).1)
    (fun r hr => (mem_dueRows.1 (mem_dueRows_of_mem_dueBatch hr)).2) hv
  rw [Nat.zero_add] at h
  exact h

theorem not_diverges_of_call {n : ℕ} {db' : DB}
    (hn : (db.subscriptions.map UserSubscription.id).Nodup)
    (h : call loc now db = (.ok n, db')) :
    ∀ r ∈ dueBatch subscriptionResetBatchSize now db, ¬ Diverges loc now db r := by
  intro r hr hv
  have h' := resetEach_of_diverges (n := 0) hn (nodup_dueBatch hn subscriptionResetBatchSize)
    (fun r hr => (mem_dueRows.1 (mem_dueRows_of_mem_dueBatch hr)).1)
    (fun r hr => (mem_dueRows.1 (mem_dueRows_of_mem_dueBatch hr)).2) ⟨r, hr, hv⟩
  change (call loc now db).1 = _ at h'
  rw [h] at h'; cases h'

theorem dueRows_resetRows (hr : ∀ r ∈ rows, r.ResetDue now ∧ MovesOn loc now db r) :
    dueRows now (resetRows loc now db rows) =
      (dueRows now db).filter fun r => decide (r ∉ rows) := by
  simp only [dueRows, resetRows, filter_map, filter_filter]
  have hf : ∀ r ∈ db.subscriptions, ((fun sub : UserSubscription => decide (sub.ResetDue now)) ∘
      fun r => if r ∈ rows then resetRow loc now db r else r) r =
        (decide (r ∉ rows) && decide (r.ResetDue now)) := by
    intro r _
    by_cases h : r ∈ rows
    · simp [h, (resetRow_of_movesOn (hr r h).1 (hr r h).2).1]
    · simp [h]
  rw [filter_congr hf]
  refine (map_congr_left fun r hr' => ?_).trans (map_id _)
  have := (mem_filter.1 hr').2
  simp only [Bool.and_eq_true, decide_eq_true_eq] at this
  simp [this.1]

end Batch

/-! ### The loop -/

/-- The state in which the loop behaves: ids are unique and every due row moves on. -/
def AllMoveOn (loc : Location) (now : ℤ) (db : DB) : Prop :=
  (db.subscriptions.map UserSubscription.id).Nodup ∧ ∀ sub ∈ dueRows now db, MovesOn loc now db sub

section Loop

variable {loc : Location} {now : ℤ} {db : DB}

section

variable (h : AllMoveOn loc now db)
include h

theorem AllMoveOn.batch {limit : ℕ}
    (hr : r ∈ dueBatch limit now db) : r.ResetDue now ∧ MovesOn loc now db r :=
  ⟨(mem_dueRows.1 (mem_dueRows_of_mem_dueBatch hr)).2, h.2 r (mem_dueRows_of_mem_dueBatch hr)⟩

theorem AllMoveOn.call_eq :
    call loc now db = (.ok (dueBatch subscriptionResetBatchSize now db).length,
      resetRows loc now db (dueBatch subscriptionResetBatchSize now db)) := by
  rw [ResetTask.call_eq h.1 fun r hr => (resetRow_of_movesOn (h.batch hr).1 (h.batch hr).2).2.1]
  congr 2
  exact countP_eq_length.2 fun r hr =>
    (resetRow_of_movesOn (h.batch hr).1 (h.batch hr).2).2.2

theorem AllMoveOn.resetRows :
    AllMoveOn loc now (resetRows loc now db (dueBatch subscriptionResetBatchSize now db)) := by
  refine ⟨by rw [ids_resetRows]; exact h.1, fun sub hs => ?_⟩
  rw [dueRows_resetRows fun r hr => h.batch hr] at hs
  exact h.2 sub (mem_filter.1 hs).1

theorem AllMoveOn.length_lt (hb : dueBatch subscriptionResetBatchSize now db ≠ []) :
    (dueRows now (ResetTask.resetRows loc now db
      (dueBatch subscriptionResetBatchSize now db))).length < (dueRows now db).length := by
  rw [dueRows_resetRows fun r hr => h.batch hr]
  obtain ⟨r, hr⟩ := exists_mem_of_ne_nil _ hb
  refine length_filter_lt_length_iff_exists.2 ⟨r, mem_dueRows_of_mem_dueBatch hr, ?_⟩
  simpa using hr

theorem AllMoveOn.progress : Progress loc now db := by
  refine ⟨_, _, h.call_eq, fun hn => h.length_lt (length_pos_iff.1 hn), ?_⟩
  intro sub hs row hrow hid
  obtain ⟨r, hr, rfl⟩ := mem_map.1 hrow
  have hrs : r = sub := by
    refine inj_on_of_nodup_map h.1 hr (mem_dueRows.1 (mem_dueRows_of_mem_dueBatch hs)).1 ?_
    rw [← hid]
    by_cases hb : r ∈ dueBatch subscriptionResetBatchSize now db <;> simp [hb, resetRow_id]
  subst hrs
  rw [if_pos hs]
  exact (resetRow_of_movesOn (h.batch hs).1 (h.batch hs).2).1

theorem AllMoveOn.calls {db' : DB} (hc : Calls loc now db db') : AllMoveOn loc now db' := by
  induction hc with
  | refl => exact h
  | tail _ hst ih =>
    obtain ⟨n, hcall, -⟩ := hst
    rw [ih.call_eq] at hcall
    cases hcall
    exact ih.resetRows

/-- The due rows left count the turns of the loop. -/
theorem AllMoveOn.loopEnds : LoopEnds loc now db := by
  refine Machine.Ends.of_variant (I := fun s : LoopState => AllMoveOn loc now s.db)
    (fun s => if s.running then (dueRows now s.db).length + 1 else 0) ?_ ?_ h
  · intro s _ hs
    simpa only [turn, hs.call_eq] using hs.resetRows
  · intro s hr hs
    have hb := hs.length_lt
    simp only [turn, hs.call_eq]
    rw [if_pos hr]
    split_ifs with hc
    · simp only [ne_eq, Bool.and_eq_true, decide_eq_true_eq, Bool.not_eq_true',
        decide_eq_false_iff_not] at hc
      have := hb fun h0 => hc.1 (by rw [h0]; rfl)
      omega
    · omega

end

/-- If every call of the loop makes progress, every due row moves on: a row of the batch that does
not is still due afterwards, and a row outside a full batch is met by a later call. -/
theorem movesOn_of_progress (hn : (db.subscriptions.map UserSubscription.id).Nodup)
    (h : ∀ db', Calls loc now db db' → Progress loc now db') :
    ∀ sub ∈ dueRows now db, MovesOn loc now db sub := by
  generalize hk : (dueRows now db).length = k
  induction k using Nat.strong_induction_on generalizing db with
  | _ k ih =>
    obtain ⟨n, db', hcall, -, hgone⟩ := h db .refl
    have hv := not_diverges_of_call hn hcall
    rw [call_eq hn hv] at hcall
    obtain ⟨hcount, rfl⟩ := Prod.mk.inj hcall
    rw [Except.ok.injEq] at hcount
    have hbatch : ∀ sub ∈ dueBatch subscriptionResetBatchSize now db,
        sub.ResetDue now ∧ MovesOn loc now db sub := by
      intro sub hs
      obtain ⟨hmem, hd⟩ := mem_dueRows.1 (mem_dueRows_of_mem_dueBatch hs)
      refine ⟨hd, ?_⟩
      by_contra hm
      refine hgone sub hs sub (mem_map.2 ⟨sub, hmem, ?_⟩) rfl hd
      rw [if_pos hs, resetRow_of_not_movesOn hd hm (hv sub hs)]
    intro sub hs
    by_cases hb : sub ∈ dueBatch subscriptionResetBatchSize now db
    · exact (hbatch sub hb).2
    · -- the batch is full, so the loop goes on with fewer due rows
      have hfull := length_dueBatch_of_notMem hs hb
      have hall : (dueBatch subscriptionResetBatchSize now db).countP (hasPlan db) =
          (dueBatch subscriptionResetBatchSize now db).length :=
        countP_eq_length.2 fun r hr =>
          (resetRow_of_movesOn (hbatch r hr).1 (hbatch r hr).2).2.2
      have hn' : n = subscriptionResetBatchSize := hcount.symm.trans (hall.trans hfull)
      have hcall' : call loc now db = (.ok n,
          resetRows loc now db (dueBatch subscriptionResetBatchSize now db)) := by
        rw [call_eq hn hv, hcount]
      have hdue := dueRows_resetRows hbatch
      refine ih _ ?_ (by rw [ids_resetRows]; exact hn)
        (fun db'' hc => h db'' (.head ⟨n, hcall', by simp [hn', subscriptionResetBatchSize],
          by omega⟩ hc)) rfl sub (by rw [hdue]; exact mem_filter.2 ⟨hs, by simpa using hb⟩)
      have hne : dueBatch subscriptionResetBatchSize now db ≠ [] := by
        intro h0
        rw [h0] at hfull; cases hfull
      obtain ⟨r, hr⟩ := exists_mem_of_ne_nil _ hne
      rw [hdue, ← hk]
      exact length_filter_lt_length_iff_exists.2
        ⟨r, mem_dueRows_of_mem_dueBatch hr, by simpa using hr⟩

/-- **A full batch of rows that do not move.**  Every row is counted, so the call reports a full
batch, and the next call finds the table as it was. -/
theorem resetLoop_stuck (hn : (db.subscriptions.map UserSubscription.id).Nodup)
    (hfull : (dueBatch subscriptionResetBatchSize now db).length = subscriptionResetBatchSize)
    (h : ∀ sub ∈ dueBatch subscriptionResetBatchSize now db,
      hasPlan db sub = true ∧ ¬ MovesOn loc now db sub ∧ ¬ Diverges loc now db sub) :
    ¬ LoopEnds loc now db := by
  have hsame : resetRows loc now db (dueBatch subscriptionResetBatchSize now db) = db := by
    have hmap : (db.subscriptions.map fun r =>
        if r ∈ dueBatch subscriptionResetBatchSize now db then resetRow loc now db r else r) =
          db.subscriptions := by
      refine (map_congr_left fun r _ => ?_).trans (map_id _)
      by_cases hb : r ∈ dueBatch subscriptionResetBatchSize now db
      · rw [if_pos hb]
        exact resetRow_of_not_movesOn (mem_dueRows.1 (mem_dueRows_of_mem_dueBatch hb)).2
          (h r hb).2.1 (h r hb).2.2
      · rw [if_neg hb, id]
    simp only [resetRows, hmap]
  have hcall : call loc now db = (.ok subscriptionResetBatchSize, db) := by
    rw [call_eq hn fun r hr => (h r hr).2.2, hsame,
      countP_eq_length.2 fun r hr => (h r hr).1, hfull]
  rintro ⟨fuel, s, hs⟩
  have hnone := loop_eq_none_of_invariant (c := fun s : LoopState => s.running = true)
    (f := turn loc now) (I := fun s => s = ⟨db, true⟩) (fun s hs => by rw [hs])
    (fun s hs => by subst hs; simp [turn, hcall, subscriptionResetBatchSize]) rfl fuel
  rw [hnone] at hs
  cases hs

end Loop

/-- **When the reset loop does its work.**  The `ResetDueSubscriptions` loop ends, and every call it
makes takes its rows out of the due ones, iff the plan of every due subscription can be loaded and,
as it stands now, still puts a reset time in `(0, now]` after the subscription's last reset (or
start), other than that base itself. -/
theorem resetLoop_ends_iff (loc : Location) (now : ℤ) (db : DB)
    (hn : (db.subscriptions.map UserSubscription.id).Nodup) :
    (LoopEnds loc now db ∧ ∀ db', Calls loc now db db' → Progress loc now db') ↔
      ∀ sub ∈ dueRows now db, MovesOn loc now db sub := by
  constructor
  · rintro ⟨-, h⟩
    exact movesOn_of_progress hn h
  · intro h
    have hall : AllMoveOn loc now db := ⟨hn, h⟩
    exact ⟨hall.loopEnds, fun db' hc => (hall.calls hc).progress⟩

/-! ### An edited plan -/

/-- A plan with the given reset period. -/
def planWith (period : String) : SubscriptionPlan where
  id := 1
  title := "pro"
  priceAmount := .ofInt 10
  durationUnit := .month
  durationValue := 1
  customSeconds := 0
  enabled := true
  allowBalancePay := none
  allowWalletOverflow := none
  maxPurchasePerUser := 0
  upgradeGroup := ""
  downgradeGroup := ""
  totalAmount := 1000
  quotaResetPeriod := period
  quotaResetCustomSeconds := 60

/-- A subscription of that plan, bought at `100` and due for a reset at `160`. -/
def dueSub (id : ℕ) : UserSubscription where
  id := id
  userId := id
  planId := 1
  amountTotal := 1000
  amountUsed := 7
  startTime := 100
  endTime := 100000
  status := .active
  source := "order"
  lastResetTime := 100
  nextResetTime := 160
  upgradeGroup := ""
  prevUserGroup := ""
  downgradeGroup := ""
  allowWalletOverflow := true

/-- `n` subscriptions of one plan. -/
def dueDB (period : String) (n : ℕ) : DB :=
  { DB.empty with
    plans := [planWith period]
    subscriptions := (List.range n).map dueSub }

theorem nodup_dueDB (period : String) (n : ℕ) :
    ((dueDB period n).subscriptions.map UserSubscription.id).Nodup := by
  simp only [dueDB, map_map]
  exact nodup_range.map fun a b h => by simpa [dueSub] using h

theorem getPlan_dueDB (period : String) (n : ℕ) :
    getSubscriptionPlanById .none (dueDB period n) 1 =
      .ok (planWith period).normalizeDefaults := rfl

/-- While the plan's period is one minute, the loop resets three hundred and one subscriptions and
ends. -/
theorem resetLoop_ends_iff_minute :
    ((dueDB "custom" 301).subscriptions.map UserSubscription.id).Nodup ∧
      LoopEnds .utc 200 (dueDB "custom" 301) ∧
      ∀ db', Calls .utc 200 (dueDB "custom" 301) db' → Progress .utc 200 db' := by
  refine ⟨nodup_dueDB _ _, (resetLoop_ends_iff .utc 200 _ (nodup_dueDB _ _)).2 fun sub hs => ?_⟩
  obtain ⟨k, -, rfl⟩ := List.mem_map.1 (mem_dueRows.1 hs).1
  refine ⟨_, getPlan_dueDB "custom" 301, ?_⟩
  change 0 < calcNextResetTime .utc 100 (planWith "custom") 100000 ∧
    calcNextResetTime .utc 100 (planWith "custom") 100000 ≤ 200 ∧
    calcNextResetTime .utc 100 (planWith "custom") 100000 ≠ 100
  decide

/-- An administrator has switched the plan's period off.  The three hundred subscriptions stay due,
and the loop never ends. -/
theorem resetLoop_never_ends : ¬ LoopEnds .utc 200 (dueDB "never" 300) := by
  have hdue : dueRows 200 (dueDB "never" 300) = (dueDB "never" 300).subscriptions := by
    refine List.filter_eq_self.2 fun sub hs => ?_
    obtain ⟨k, -, rfl⟩ := List.mem_map.1 hs
    simp [UserSubscription.ResetDue, dueSub]
  refine resetLoop_stuck (nodup_dueDB _ _) ?_ fun sub hs => ?_
  · rw [length_dueBatch, hdue]
    simp [dueDB, subscriptionResetBatchSize]
  · obtain ⟨hm, hd⟩ := mem_dueRows.1 (mem_dueRows_of_mem_dueBatch hs)
    obtain ⟨k, -, rfl⟩ := List.mem_map.1 hm
    have hplan : getSubscriptionPlanById .none (dueDB "never" 300) (dueSub k).planId =
        .ok (planWith "never").normalizeDefaults := getPlan_dueDB _ _
    have hnever : normalizeResetPeriod (planWith "never").normalizeDefaults.quotaResetPeriod =
        .never := by decide
    refine ⟨by simp [hasPlan, hplan, Except.isOk, Except.toBool], ?_, ?_⟩
    · rintro ⟨plan, hp, h₁, -⟩
      rw [hplan, Except.ok.injEq] at hp
      subst hp
      rw [calcNextResetTime_never hnever] at h₁
      omega
    · rintro ⟨plan, hp, hdiv⟩
      rw [hplan, Except.ok.injEq] at hp
      subst hp
      rw [maybeReset_of_not_reached hd (by rw [calcNextResetTime_never hnever]; omega)] at hdiv
      cases hdiv

end ResetTask

end NexusTok
