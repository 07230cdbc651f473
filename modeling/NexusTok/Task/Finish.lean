import NexusTok.Task.Polling

/-!
# A call run to its end

Where nobody else writes the row, the statements of a call can be run one after the other
(`finish`); five are enough for every call.  Other requests go on moving the ledger in between.
What matters afterwards is whether the task is *closed*: since it was last moved to a new status,
its charge was returned whole, or settled by its usage, or there was none (`Closed`).

* `finish_idle` : five statements are enough.
* `finish_refund`, `finish_settle` : the end of a call, from the first statement of a refund and
  from `settleTaskBillingOnComplete` on.
-/

namespace NexusTok

open List Table

/-- The status was last changed when nothing was charged, or what was charged has since been
returned, or settled.  Events are listed newest first. -/
def Closed (quota : ℤ) : List TaskEvent → Prop
  | [] => False
  | .moved _ _ pre :: _ => pre = 0 ∧ quota = 0
  | .paid .recalculation _ :: _ => True
  | .paid .refund _ :: _ => quota = 0
  | .billed _ _ :: events | .unpaid _ :: events | .broken _ :: events | .cleared :: events =>
    Closed quota events

/-- A refund was not carried out, or a charge could not be written. -/
def TaskEvent.refundFails : TaskEvent → Bool
  | .unpaid .refund | .broken _ => true
  | _ => false

namespace Worker

/-- What the statements of a call meet; `n` is the number of statements that follow. -/
structure Course where
  answer : ℕ → TaskAnswer
  /-- What other requests have done to the ledger since the statement before. -/
  others : ℕ → Ledger → Ledger

section Finish

variable (setup : Setup) (course : Course)

/-- The next `n` statements of a worker. -/
def finish : ℕ → TaskStore → Worker → Advanced
  | 0, s, w => ⟨s, w, []⟩
  | n + 1, s, w =>
    let r := w.advance setup (course.answer n) { s with ledger := course.others n s.ledger }
    let r' := finish n r.store r.worker
    ⟨r'.store, r'.worker, r'.events ++ r.events⟩

/-- How many statements a stage has ahead at most. -/
def rank : Stage → ℕ
  | .idle => 0
  | .save _ _ => 1
  | .token _ _ => 2
  | .funding _ _ => 3
  | .settle _ => 4
  | .write _ _ => 5

/-- The funding source accepts the charge `actualQuota`. -/
def fundingOK (n : ℕ) (l : Ledger) (copy : Task) (actualQuota : ℤ) : Bool :=
  match taskAdjustFunding setup (course.answer n).faults copy (actualQuota - copy.quota)
    (course.others n l) with
  | .ok _ => true
  | .error _ => false

/-- A usage settlement, if there is one, is a charge the funding source accepts. -/
def accepted (n : ℕ) (l : Ledger) (copy : Task) : Settlement → Bool
  | .recalculate actualQuota =>
    decide (0 ≤ actualQuota) &&
      (decide (actualQuota - copy.quota = 0) || fundingOK setup course (n + 2) l copy actualQuota)
  | .declined | .kept => true

/-- What `settleTaskBillingOnComplete` decides about the copy is accepted. -/
def settlementOK (n : ℕ) (l : Ledger) (copy : Task) (info : TaskInfo) : Bool :=
  match settleTaskBillingOnComplete (course.answer (n + 3)).services
    (userGroup (course.answer (n + 3)) (course.others (n + 3) l) copy) copy info with
  | (settlement, copy') => accepted setup course n (course.others (n + 3) l) copy' settlement

end Finish

variable {setup : Setup} {course : Course} {s : TaskStore} {w : Worker}

/-! ### The end of a call -/

theorem rank_lost (next : AfterWrite) : rank (lost next) ≤ 4 := by
  cases next <;> simp [lost, rank]

theorem rank_won (copy : Task) (next : AfterWrite) : rank (won copy next).1 ≤ 4 := by
  cases next with
  | refundIfWon isLegacy =>
    cases isLegacy
    · simp only [won]
      split_ifs <;> simp [rank]
    · simp [won, rank]
  | _ => simp [won, rank]

theorem rank_settled (copy : Task) (settlement : Settlement) :
    rank (settled copy settlement).1 ≤ 3 := by
  cases settlement with
  | kept => simp [settled, rank]
  | declined | recalculate =>
    simp only [settled]
    split_ifs <;> simp [rank]

/-- Every statement leaves fewer to go. -/
theorem rank_advance (setup : Setup) (ans : TaskAnswer) (s : TaskStore) (w : Worker) :
    rank (w.advance setup ans s).worker.stage ≤ rank w.stage - 1 := by
  have hcases := advance_cases setup ans s w
  generalize w.advance setup ans s = r at hcases
  cases hcases with
  | idle stage => simp [stage, rank]
  | @lost fromStatus next stage =>
    rw [stage]
    exact rank_lost next
  | @unreported fromStatus next stage found same =>
    rw [stage]
    exact rank_lost next
  | @won fromStatus next row stage found same =>
    rw [stage]
    exact rank_won w.copy next
  | @settled info svc userGroup settlement copy stage settle =>
    rw [stage]
    exact rank_settled copy settlement
  | unpaid | saveFailed | saved => simp [rank]
  | funded stage ok => simp [stage, rank]
  | tokenFailed stage => simp [stage, rank]
  | charged stage ok => simp [stage, rank]

/-- **Five statements are enough.** -/
theorem finish_idle {n : ℕ} (h : rank w.stage ≤ n) :
    (w.finish setup course n s).worker.stage = .idle := by
  induction n generalizing s w with
  | zero =>
    show w.stage = .idle
    cases hs : w.stage with
    | idle => rfl
    | _ => rw [hs] at h; simp [rank] at h
  | succ n ih =>
    refine ih ?_
    have := rank_advance setup (course.answer n)
      { s with ledger := course.others n s.ledger } w
    omega

/-- Without a call under way only others move. -/
theorem finish_of_idle (setup : Setup) (course : Course) (n : ℕ) (s : TaskStore)
    (h : w.stage = .idle) :
    ∃ l, w.finish setup course n s = ⟨{ s with ledger := l }, w, []⟩ := by
  induction n generalizing s with
  | zero => exact ⟨s.ledger, rfl⟩
  | succ n ih =>
    obtain ⟨l, hl⟩ := ih { s with ledger := course.others n s.ledger }
    refine ⟨l, ?_⟩
    simp only [finish, advance, h, hl, append_nil]

/-- **The statements of a change.**  The funding source refuses it and nothing else is done, or
the charge is written. -/
theorem finish_funding (n : ℕ) {bill : Bill} {actualQuota : ℤ}
    (hstage : w.stage = .funding bill actualQuota)
    (hok : ∀ e ∈ (w.finish setup course (n + 3) s).events, e ≠ .broken bill) :
    (fundingOK setup course (n + 2) s.ledger w.copy actualQuota = false ∧ ∃ l : Ledger,
      w.finish setup course (n + 3) s =
        ⟨{ s with ledger := l }, { w with stage := .idle }, [.unpaid bill]⟩) ∨
    (fundingOK setup course (n + 2) s.ledger w.copy actualQuota = true ∧ ∃ l : Ledger,
      w.finish setup course (n + 3) s =
        ⟨{ s.updateQuota { w.copy with quota := actualQuota } with ledger := l },
          { w with copy := { w.copy with quota := actualQuota }, stage := .idle },
          [.paid bill actualQuota]⟩) := by
  unfold fundingOK
  rw [finish] at hok ⊢
  simp only [advance, hstage] at hok ⊢
  cases hfund : taskAdjustFunding setup (course.answer (n + 2)).faults w.copy
      (actualQuota - w.copy.quota) (course.others (n + 2) s.ledger) with
  | error e =>
    obtain ⟨l, hl⟩ := finish_of_idle (w := { w with stage := .idle }) setup course (n + 2)
      { s with ledger := course.others (n + 2) s.ledger } rfl
    refine .inl ⟨rfl, l, ?_⟩
    simp only [hl, nil_append]
  | ok l₁ =>
    refine .inr ⟨rfl, ?_⟩
    -- the token, and then the charge
    simp only [hfund, append_nil] at hok ⊢
    rw [finish] at hok ⊢
    simp only [advance] at hok ⊢
    rcases htok : taskAdjustTokenQuota setup (course.answer (n + 1)).faults w.copy
        (actualQuota - w.copy.quota) (course.others (n + 1) l₁) with _ | l₂
    · rw [htok] at hok
      exact absurd rfl (hok (.broken bill) (by simp))
    rw [htok] at hok
    simp only [finish, advance, append_nil] at hok ⊢
    by_cases hfails : (course.answer n).fails = true
    · rw [if_pos hfails] at hok
      exact absurd rfl (hok (.broken bill) (by simp))
    simp only [if_neg hfails]
    obtain ⟨l, hl⟩ := finish_of_idle
      (w := { w with copy := { w.copy with quota := actualQuota }, stage := .idle })
      setup course n (({ s with ledger := course.others n l₂ } : TaskStore).updateQuota
        { w.copy with quota := actualQuota }) rfl
    refine ⟨l, ?_⟩
    rw [hl]
    rfl

/-! ### Billing -/

/-- What billing an ended copy leaves: the row with the charge of the copy.  A task that was closed
stays closed. -/
structure Billed (s : TaskStore) (w : Worker) (row : Task) (r : Advanced) : Prop where
  payer : r.worker.copy.payer = w.copy.payer
  others : ∀ id, id ≠ w.copy.id → r.store.task id = s.task id
  keys : r.store.tasks.map Task.id = s.tasks.map Task.id
  found : r.store.task w.copy.id = some { row with quota := r.worker.copy.quota }
  closed : ∀ events, Closed row.quota events → Closed r.worker.copy.quota (r.events ++ events)

/-- What happened closes the task. -/
def Closes (r : Advanced) : Prop :=
  ∀ events, Closed r.worker.copy.quota (r.events ++ events)

/-- What happened leaves the charge, and does not close the task. -/
structure Leaves (w : Worker) (r : Advanced) : Prop where
  quota : r.worker.copy.quota = w.copy.quota
  events : ∀ quota events, Closed quota (r.events ++ events) ↔ Closed quota events

variable {row : Task}

variable {events : List TaskEvent}

theorem Billed.none {copy : Task} {stage : Stage} {l : Ledger}
    (hrow : s.task w.copy.id = some row) (hpayer : copy.payer = w.copy.payer)
    (hquota : copy.quota = row.quota)
    (hclosed : ∀ events', Closed row.quota events' → Closed row.quota (events ++ events')) :
    Billed s w row ⟨{ s with ledger := l }, { w with copy := copy, stage := stage }, events⟩ where
  payer := hpayer
  others := fun _ _ => rfl
  keys := rfl
  found := by
    show s.task w.copy.id = some { row with quota := copy.quota }
    rw [hrow, hquota]
  closed := by
    show ∀ events', Closed row.quota events' → Closed copy.quota (events ++ events')
    rw [hquota]
    exact hclosed

theorem Billed.write {l : Ledger} {bill : Bill} {actualQuota : ℤ} {stage : Stage}
    (hrow : s.task w.copy.id = some row) (hbill : bill = .refund → actualQuota = 0) :
    Billed s w row ⟨{ s.updateQuota { w.copy with quota := actualQuota } with ledger := l },
      { w with copy := { w.copy with quota := actualQuota }, stage := stage },
      [.paid bill actualQuota]⟩ where
  payer := rfl
  others := fun _ hid => TaskStore.task_updateQuota_ne hid
  keys := keys_modify fun _ h => h
  found := TaskStore.task_updateQuota (t := { w.copy with quota := actualQuota }) hrow
  closed := by
    intro _ _
    cases bill with
    | recalculation => trivial
    | refund => exact hbill rfl

/-- Billing of a copy `w'` that differs from the copy of `w` in nothing billing reads, after
`events`. -/
theorem Billed.after {w' : Worker} {r : Advanced} {l : Ledger}
    (h : Billed { s with ledger := l } w' row r) (hpayer : w'.copy.payer = w.copy.payer)
    (hskip : ∀ quota events', Closed quota (events ++ events') ↔ Closed quota events') :
    Billed s w row ⟨r.store, r.worker, r.events ++ events⟩ where
  payer := h.payer.trans hpayer
  others := by
    rw [← Task.payer_id hpayer]
    exact h.others
  keys := h.keys
  found := by
    rw [← Task.payer_id hpayer]
    exact h.found
  closed := by
    intro events' hclosed
    rw [append_assoc]
    exact h.closed _ ((hskip _ _).2 hclosed)

/-- **A refund.** -/
theorem finish_refund (n : ℕ) (hstage : w.stage = .funding .refund 0)
    (hrow : s.task w.copy.id = some row)
    (hok : ∀ e ∈ (w.finish setup course (n + 3) s).events, e.refundFails = false) :
    Billed s w row (w.finish setup course (n + 3) s) ∧
      Closes (w.finish setup course (n + 3) s) := by
  obtain ⟨-, l, heq⟩ | ⟨-, l, heq⟩ := finish_funding n hstage fun e he hb => by
    subst hb
    exact Bool.false_ne_true (hok _ he).symm
  · rw [heq] at hok
    exact absurd (hok (.unpaid .refund) (by simp)) (by decide)
  · rw [heq]
    exact ⟨.write hrow fun _ => rfl, fun _ => rfl⟩

/-- **A recalculation.** -/
theorem finish_recalculation (n : ℕ) {actualQuota : ℤ}
    (hstage : w.stage = .funding .recalculation actualQuota)
    (hrow : s.task w.copy.id = some row) (hq : row.quota = w.copy.quota)
    (hok : ∀ e ∈ (w.finish setup course (n + 3) s).events, e.refundFails = false) :
    Billed s w row (w.finish setup course (n + 3) s) ∧
      if fundingOK setup course (n + 2) s.ledger w.copy actualQuota = true then
        Closes (w.finish setup course (n + 3) s)
      else Leaves w (w.finish setup course (n + 3) s) := by
  obtain ⟨hno, l, heq⟩ | ⟨hyes, l, heq⟩ := finish_funding n hstage fun e he hb => by
    subst hb
    exact Bool.false_ne_true (hok _ he).symm
  · rw [heq, hno, if_neg Bool.false_ne_true]
    exact ⟨.none hrow rfl hq.symm fun _ h => h, rfl, fun _ _ => Iff.rfl⟩
  · rw [heq, hyes, if_pos rfl]
    exact ⟨.write hrow (by simp), fun _ => trivial⟩

/-- Events before billing that concern neither charge nor status. -/
theorem Closes.after {r : Advanced} (h : Closes r) :
    Closes ⟨r.store, r.worker, r.events ++ events⟩ := by
  intro events'
  rw [append_assoc]
  exact h (events ++ events')

theorem Leaves.after {w' : Worker} {r : Advanced} (h : Leaves w' r)
    (hquota : w'.copy.quota = w.copy.quota)
    (hskip : ∀ quota events', Closed quota (events ++ events') ↔ Closed quota events') :
    Leaves w ⟨r.store, r.worker, r.events ++ events⟩ where
  quota := h.quota.trans hquota
  events := by
    intro quota events'
    rw [append_assoc]
    exact (h.events quota (events ++ events')).trans (hskip quota events')

/-- What follows `settleTaskBillingOnComplete`, which left `copy` and answered `settlement`. -/
theorem finish_settled (n : ℕ) {copy : Task} {settlement : Settlement} {l : Ledger}
    (hpayer : copy.payer = w.copy.payer) (hquota : copy.quota = w.copy.quota)
    (hstatus : copy.status = w.copy.status)
    (hkept : w.copy.status = .failure → settlement ≠ .kept)
    (hrow : s.task w.copy.id = some row) (hq : row.quota = w.copy.quota) {r r' : Advanced}
    (hr' : r' = Worker.finish setup course (n + 3) { s with ledger := l }
      { w with copy := copy, stage := (settled copy settlement).1 })
    (hr : r = ⟨r'.store, r'.worker, r'.events ++ (settled copy settlement).2⟩)
    (hok : ∀ e ∈ r.events, e.refundFails = false) :
    Billed s w row r ∧ (w.copy.status = .failure → w.copy.quota ≠ 0 →
      if accepted setup course n l copy settlement = true then Closes r else Leaves w r) := by
  have hrow' : s.task copy.id = some row := by
    rw [Task.payer_id hpayer]
    exact hrow
  have hok' : ∀ e ∈ r'.events, e.refundFails = false := by
    intro e he
    refine hok e ?_
    rw [hr]
    exact mem_append_left _ he
  -- a settlement that leads to no statement
  have hidle : ∀ events, settled copy settlement = (.idle, events) →
      ∃ l', r = ⟨{ s with ledger := l' }, { w with copy := copy, stage := .idle }, events⟩ := by
    intro events he
    rw [he] at hr' hr
    obtain ⟨l', hl'⟩ := finish_of_idle (w := { w with copy := copy, stage := .idle }) setup course
      (n + 3) { s with ledger := l } rfl
    rw [hl'] at hr'
    rw [hr'] at hr
    exact ⟨l', hr⟩
  have hbegun : ∀ (bill : Bill) (actualQuota quota : ℤ) (events : List TaskEvent),
      Closed quota ([.billed bill actualQuota] ++ events) ↔ Closed quota events :=
    fun _ _ _ _ => Iff.rfl
  cases settlement with
  | kept =>
    obtain ⟨l', heq⟩ := hidle [] rfl
    rw [heq]
    exact ⟨.none hrow hpayer (hquota.trans hq.symm) fun _ h => h,
      fun hf _ => absurd rfl (hkept hf)⟩
  | declined =>
    by_cases hdue : copy.status = .failure ∧ copy.quota ≠ 0
    · have hsettled : settled copy .declined = (.funding .refund 0, [.billed .refund 0]) := by
        simp only [settled, if_pos hdue]
      rw [hsettled] at hr' hr
      subst hr'
      obtain ⟨hbilled, hcloses⟩ := finish_refund n rfl hrow' hok'
      rw [hr]
      exact ⟨hbilled.after hpayer (hbegun _ _), fun _ _ => hcloses.after⟩
    · obtain ⟨l', heq⟩ := hidle [] (by simp only [settled, if_neg hdue])
      rw [heq]
      refine ⟨.none hrow hpayer (hquota.trans hq.symm) fun _ h => h, fun hf hne => ?_⟩
      exact absurd ⟨hstatus.trans hf, by rw [hquota]; exact hne⟩ hdue
  | recalculate actualQuota =>
    by_cases hneg : actualQuota < 0
    · obtain ⟨l', heq⟩ := hidle [.billed .recalculation actualQuota]
        (by simp only [settled, if_pos hneg])
      rw [heq]
      refine ⟨.none hrow hpayer (hquota.trans hq.symm) fun _ h => h, fun _ _ => ?_⟩
      rw [accepted, decide_eq_false (not_le.2 hneg), Bool.false_and, if_neg Bool.false_ne_true]
      exact ⟨hquota, hbegun _ _⟩
    by_cases hsame : actualQuota - copy.quota = 0
    · obtain ⟨l', heq⟩ := hidle [.paid .recalculation actualQuota, .billed .recalculation actualQuota]
        (by simp only [settled, if_neg hneg, if_pos hsame])
      rw [heq]
      refine ⟨.none hrow hpayer (hquota.trans hq.symm) fun _ _ => trivial, fun _ _ => ?_⟩
      rw [accepted, decide_eq_true (not_lt.1 hneg), decide_eq_true hsame, Bool.true_and,
        Bool.true_or, if_pos rfl]
      exact fun _ => trivial
    have hsettled : settled copy (.recalculate actualQuota) =
        (.funding .recalculation actualQuota, [.billed .recalculation actualQuota]) := by
      simp only [settled, if_neg hneg, if_neg hsame]
    rw [hsettled] at hr' hr
    subst hr'
    obtain ⟨hbilled, hend⟩ := finish_recalculation n rfl hrow' (hq.trans hquota.symm) hok'
    rw [hr]
    refine ⟨hbilled.after hpayer (hbegun _ _), fun _ _ => ?_⟩
    rw [accepted, decide_eq_true (not_lt.1 hneg), decide_eq_false hsame, Bool.true_and,
      Bool.false_or]
    split_ifs at hend ⊢
    · exact hend.after
    · exact hend.after hquota (hbegun _ _)

variable {info : TaskInfo}

/-- **The end of a call from `settleTaskBillingOnComplete` on.**  A failed task that was charged is
closed, unless the settlement of its usage comes to nothing; then nothing has changed. -/
theorem finish_settle (n : ℕ) (hstage : w.stage = .settle info)
    (hrow : s.task w.copy.id = some row) (hq : row.quota = w.copy.quota)
    (hok : ∀ e ∈ (w.finish setup course (n + 4) s).events, e.refundFails = false) :
    Billed s w row (w.finish setup course (n + 4) s) ∧
      (w.copy.status = .failure → w.copy.quota ≠ 0 →
        if settlementOK setup course n s.ledger w.copy info = true then
          Closes (w.finish setup course (n + 4) s)
        else Leaves w (w.finish setup course (n + 4) s)) := by
  have hkept := settleTaskBillingOnComplete_failure (course.answer (n + 3)).services
    (userGroup (course.answer (n + 3)) (course.others (n + 3) s.ledger) w.copy) w.copy info
  unfold settlementOK
  cases hset : settleTaskBillingOnComplete (course.answer (n + 3)).services
      (userGroup (course.answer (n + 3)) (course.others (n + 3) s.ledger) w.copy) w.copy info with
  | mk settlement copy =>
  obtain ⟨hpayer, hquota, hstatus⟩ := settleTaskBillingOnComplete_copy hset
  rw [hset] at hkept
  have hadv : w.advance setup (course.answer (n + 3))
      { s with ledger := course.others (n + 3) s.ledger } =
        ⟨{ s with ledger := course.others (n + 3) s.ledger },
          { w with copy := copy, stage := (settled copy settlement).1 },
          (settled copy settlement).2⟩ := by
    simp only [advance, hstage, hset]
  exact finish_settled n hpayer hquota hstatus hkept hrow hq rfl
    (show w.finish setup course (n + 4) s = _ by rw [finish, hadv]) hok

/-! ### Whole calls -/

variable {fromStatus : TaskStatus}

/-- **A conditional write.**  It is lost, or it finds its status and changes nothing else, or it is
won. -/
theorem finish_write (setup : Setup) (course : Course) (n : ℕ) {next : AfterWrite}
    (hstage : w.stage = .write fromStatus next) (hrow : s.task w.copy.id = some row) :
    (((course.answer n).fails = true ∨ row.status ≠ fromStatus ∨
          row = w.copy ∧ row.status = fromStatus) ∧ ∃ s' : TaskStore,
        s'.tasks.map Task.id = s.tasks.map Task.id ∧ (∀ id, s'.task id = s.task id) ∧
        w.finish setup course (n + 1) s =
          Worker.finish setup course n s' { w with stage := lost next }) ∨
      (course.answer n).fails = false ∧ row.status = fromStatus ∧ ∃ r, r =
        Worker.finish setup course n
          { s.put w.copy with ledger := course.others n s.ledger }
          { w with stage := (won w.copy next).1 } ∧
        w.finish setup course (n + 1) s = ⟨r.store, r.worker,
          r.events ++ ((won w.copy next).2 ++ noted row w.copy fromStatus)⟩ := by
  rw [finish]
  simp only [advance, hstage]
  by_cases hfails : (course.answer n).fails = true
  · simp only [if_pos hfails, append_nil]
    exact .inl ⟨.inl hfails, { s with ledger := course.others n s.ledger }, rfl, fun _ => rfl, rfl⟩
  simp only [if_neg hfails]
  obtain ⟨heq, hne⟩ | ⟨row', won, hrow', hst, heq, hwon⟩ :=
    TaskStore.updateWithStatus_cases (course.answer n).reported w.copy fromStatus
      { s with ledger := course.others n s.ledger }
  · rw [heq]
    simp only [append_nil]
    exact .inl ⟨.inr (.inl (hne row hrow)), { s with ledger := course.others n s.ledger }, rfl,
      fun _ => rfl, rfl⟩
  cases hrow.symm.trans hrow'
  rw [heq]
  cases won with
  | true =>
    simp only [TaskStore.task_setLedger, hrow, Option.getD_some]
    exact .inr ⟨Bool.eq_false_iff.2 hfails, hst, _, rfl, rfl⟩
  | false =>
    have hsame : row = w.copy := by
      by_contra hne
      exact Bool.false_ne_true (hwon hne)
    simp only [append_nil]
    refine .inl ⟨.inr (.inr ⟨hsame, hst⟩), _, keys_put _ _, fun id => ?_, rfl⟩
    by_cases hid : id = w.copy.id
    · rw [hid]
      rw [hrow, hsame]
      exact TaskStore.task_put (t := w.copy) hrow
    · exact TaskStore.task_put_ne hid

/-- A call that ends as this one does leaves no charge on a task it fails. -/
def sparing (setup : Setup) (course : Course) (s : TaskStore) (w : Worker) : Bool :=
  match w.stage, s.task w.copy.id with
  | .write fromStatus (.settleIfWon info), some row =>
    decide (w.copy.status ≠ .failure) || decide (row.status ≠ fromStatus) ||
      decide (row.status = .failure) || decide (row.quota = 0) || (course.answer 4).fails ||
      settlementOK setup course 0 (course.others 4 s.ledger) w.copy info
  | _, _ => true

/-- A call on the task `id` that leaves the row `row'`. -/
structure Ran (s : TaskStore) (id : ℤ) (r : Advanced) (row' : Task) : Prop where
  copy : r.worker.copy.id = id
  others : ∀ id', id' ≠ id → r.store.task id' = s.task id'
  keys : r.store.tasks.map Task.id = s.tasks.map Task.id
  found : r.store.task id = some row'

/-- What a call made of the row. -/
inductive Outcome (row row' : Task) (events : List TaskEvent) (spared : Bool) : Prop
  /-- The status is the one it was, and a task that was closed is closed. -/
  | kept (status : row'.status = row.status)
      (closed : ∀ events', Closed row.quota events' → Closed row'.quota (events ++ events'))
      (ok : spared = true)
  | moved (status : row'.status ≠ .failure) (ok : spared = true)
  | failed (before : row.status ≠ .failure) (after : row'.status = .failure)
      (closed : ∀ events', Closed row'.quota (events ++ events') ↔ spared = true)

/-- What a whole call leaves. -/
def Ends (setup : Setup) (course : Course) (s : TaskStore) (w : Worker) (row : Task) : Prop :=
  ∃ row', Ran s w.copy.id (w.finish setup course 5 s) row' ∧
    Outcome row row' (w.finish setup course 5 s).events (sparing setup course s w) ∧
    row'.quota = (w.finish setup course 5 s).worker.copy.quota

theorem sparing_of_stage {stage : Stage} (hstage : w.stage = stage)
    (hne : ∀ fromStatus info, stage ≠ .write fromStatus (.settleIfWon info)) :
    sparing setup course s w = true := by
  unfold sparing
  split
  · rename_i fromStatus info row hs hr
    exact absurd (hstage.symm.trans hs) (hne fromStatus info)
  · rfl

theorem ends_idle (n : ℕ) {s' : TaskStore} (w' : Worker) (events : List TaskEvent)
    (hfin : w.finish setup course 5 s = ⟨(w'.finish setup course n s').store,
      (w'.finish setup course n s').worker, (w'.finish setup course n s').events ++ events⟩)
    (hstage : w'.stage = .idle) (hid : w'.copy.id = w.copy.id)
    (hothers : ∀ id', id' ≠ w.copy.id → s'.task id' = s.task id')
    (hkeys : s'.tasks.map Task.id = s.tasks.map Task.id) {row' : Task}
    (hrow : s'.task w.copy.id = some row') (hq : row'.quota = w'.copy.quota)
    (hout : Outcome row row' events (sparing setup course s w)) :
    Ends setup course s w row := by
  obtain ⟨l, hl⟩ := finish_of_idle setup course n s' hstage
  rw [hl] at hfin
  refine ⟨row', ?_, ?_, ?_⟩
  · rw [hfin]
    exact ⟨hid, hothers, hkeys, hrow⟩
  · rw [hfin]
    exact hout
  · rw [hfin]
    exact hq

/-- Nothing but billing is done with the row. -/
theorem ends_billed (n : ℕ) {s' : TaskStore} {w' : Worker} (events : List TaskEvent)
    (hfin : w.finish setup course 5 s = ⟨(w'.finish setup course n s').store,
      (w'.finish setup course n s').worker, (w'.finish setup course n s').events ++ events⟩)
    (hid : w'.copy.id = w.copy.id)
    (hothers : ∀ id', id' ≠ w.copy.id → s'.task id' = s.task id')
    (hkeys : s'.tasks.map Task.id = s.tasks.map Task.id) {row₁ : Task}
    (hbilled : Billed s' w' row₁ (w'.finish setup course n s'))
    (hout : Outcome row { row₁ with quota := (w'.finish setup course n s').worker.copy.quota }
      ((w'.finish setup course n s').events ++ events) (sparing setup course s w)) :
    Ends setup course s w row := by
  refine ⟨{ row₁ with quota := (w'.finish setup course n s').worker.copy.quota }, ?_, ?_, ?_⟩
  · rw [hfin]
    refine ⟨(Task.payer_id hbilled.payer).trans hid, fun id' hne => ?_,
      hbilled.keys.trans hkeys, ?_⟩
    · exact (hbilled.others id' (by rw [hid]; exact hne)).trans (hothers id' hne)
    · rw [← hid]
      exact hbilled.found
  · rw [hfin]
    exact hout
  · rw [hfin]

/-- **A copy that has not ended, or had ended before, is written back.** -/
theorem ends_note (hstage : w.stage = .write fromStatus .stop)
    (hsame : w.copy.status.finished = true → w.copy.status = fromStatus)
    (hrow : s.task w.copy.id = some row) (hq : row.quota = w.copy.quota) :
    Ends setup course s w row := by
  have hspared : sparing setup course s w = true := sparing_of_stage hstage (by simp)
  obtain ⟨-, s', hkeys, htask, hfin⟩ | ⟨-, hst, r, rfl, hfin⟩ :=
    finish_write setup course 4 hstage hrow
  · refine ends_idle 4 { w with stage := .idle } [] ?_ rfl rfl (fun id' _ => htask id') hkeys
      ((htask _).trans hrow) hq (.kept rfl (fun _ h => h) hspared)
    rw [append_nil]
    exact hfin
  · refine ends_idle 4 _ _ hfin rfl rfl (fun id' hne => TaskStore.task_put_ne hne)
      (keys_put _ _) (TaskStore.task_put hrow) rfl ?_
    by_cases hf : w.copy.status = .failure
    · have hst' : w.copy.status = fromStatus := hsame (by rw [hf]; rfl)
      refine .kept (hst'.trans hst.symm) (fun events' h => ?_) hspared
      rw [← hq, noted, if_pos hst']
      exact h
    · exact .moved hf hspared

/-- **A copy that had ended before is billed.** -/
theorem ends_settle (n : ℕ) {s' : TaskStore} {w' : Worker} {row₁ : Task}
    (hfin : w.finish setup course 5 s = w'.finish setup course (n + 4) s')
    (hstage : w'.stage = .settle info) (hcopy : w'.copy = w.copy)
    (hothers : ∀ id', id' ≠ w.copy.id → s'.task id' = s.task id')
    (hkeys : s'.tasks.map Task.id = s.tasks.map Task.id)
    (hrow : s'.task w.copy.id = some row₁) (hstatus : row₁.status = row.status)
    (hquota : row₁.quota = row.quota) (hq : row.quota = w.copy.quota)
    (hspared : sparing setup course s w = true)
    (hok : ∀ e ∈ (w.finish setup course 5 s).events, e.refundFails = false) :
    Ends setup course s w row := by
  rw [hfin] at hok
  have hbilled := (finish_settle n hstage (by rw [hcopy]; exact hrow)
    (by rw [hcopy]; exact hquota.trans hq) hok).1
  refine ends_billed (n + 4) [] ?_ (by rw [hcopy]) hothers hkeys hbilled ?_
  · rw [hfin, append_nil]
  · refine .kept hstatus (fun events' h => ?_) hspared
    rw [append_nil]
    exact hbilled.closed _ (by rw [hquota]; exact h)

/-- **A copy that has ended is written back, and billed.** -/
theorem ends_finish (hstage : w.stage = .write fromStatus (.settleIfWon info))
    (hrow : s.task w.copy.id = some row) (hq : row.quota = w.copy.quota)
    (hok : ∀ e ∈ (w.finish setup course 5 s).events, e.refundFails = false) :
    Ends setup course s w row := by
  have hspared : sparing setup course s w =
      (decide (w.copy.status ≠ .failure) || decide (row.status ≠ fromStatus) ||
        decide (row.status = .failure) || decide (row.quota = 0) || (course.answer 4).fails ||
        settlementOK setup course 0 (course.others 4 s.ledger) w.copy info) := by
    simp only [sparing, hstage, hrow]
  obtain ⟨hlost, s', hkeys, htask, hfin⟩ | ⟨hans, hst, r, hr, hfin⟩ :=
    finish_write setup course 4 hstage hrow
  · -- nothing is billed after a write that is not won
    refine ends_idle 4 { w with stage := .idle } [] ?_ rfl rfl (fun id' _ => htask id') hkeys
      ((htask _).trans hrow) hq (.kept rfl (fun _ h => h) ?_)
    · rw [append_nil]
      exact hfin
    · rw [hspared]
      rcases hlost with h | h | ⟨rfl, h⟩
      · simp [h]
      · simp [h]
      · by_cases hf : w.copy.status = .failure <;> simp [hf]
  have hok' : ∀ e ∈ r.events, e.refundFails = false := by
    intro e he
    refine hok e ?_
    rw [show w.finish setup course 5 s = _ from hfin]
    exact mem_append_left _ he
  subst hr
  have hset := finish_settle (s := { s.put w.copy with ledger := course.others 4 s.ledger })
    (w := { w with stage := .settle info }) 0 rfl (TaskStore.task_put hrow) rfl hok'
  refine ends_billed 4 _ hfin rfl (fun id' hne => TaskStore.task_put_ne hne) (keys_put _ _)
    hset.1 ?_
  obtain ⟨hbilled, hend⟩ := hset
  by_cases hf : w.copy.status = .failure
  · by_cases hsame : w.copy.status = fromStatus
    · refine .kept (hsame.trans hst.symm) (fun events' h => ?_) ?_
      · simp only [won, noted, if_pos hsame, append_nil]
        exact hbilled.closed events' (by rw [← hq]; exact h)
      · rw [hspared, hst, ← hsame, hf]
        simp
    have hopen : row.status ≠ .failure := by
      rw [hst, ← hf]
      exact fun h => hsame h.symm
    refine .failed hopen hf fun events' => ?_
    simp only [won, noted, if_neg hsame, nil_append, append_assoc, singleton_append]
    by_cases hz : row.quota = 0
    · refine iff_of_true (hbilled.closed _ ⟨hz, ?_⟩) (by rw [hspared]; simp [hz])
      rw [← hq]
      exact hz
    have hend := hend hf (by rw [← hq]; exact hz)
    have hspared' : sparing setup course s w =
        settlementOK setup course 0 (course.others 4 s.ledger) w.copy info := by
      rw [hspared, hans, decide_eq_false (not_not.2 hf), decide_eq_false (not_not.2 hst),
        decide_eq_false hopen, decide_eq_false hz]
      simp only [Bool.false_or]
    rw [hspared']
    by_cases hset : settlementOK setup course 0 (course.others 4 s.ledger) w.copy info = true
    · rw [if_pos hset] at hend
      exact iff_of_true (hend _) hset
    · rw [if_neg hset] at hend
      refine iff_of_false (fun h => ?_) hset
      exact hz ((hend.events _ _).1 h).1
  · exact .moved hf (by rw [hspared]; simp [hf])

/-- **A copy that had ended before is written back, and billed.** -/
theorem ends_again
    (hstage : w.stage = .write fromStatus (.settle info)) (hsame : w.copy.status = fromStatus)
    (hrow : s.task w.copy.id = some row) (hq : row.quota = w.copy.quota)
    (hok : ∀ e ∈ (w.finish setup course 5 s).events, e.refundFails = false) :
    Ends setup course s w row := by
  have hspared : sparing setup course s w = true := sparing_of_stage hstage (by simp)
  obtain ⟨-, s', hkeys, htask, hfin⟩ | ⟨-, hst, r, hr, hfin⟩ :=
    finish_write setup course 4 hstage hrow
  · exact ends_settle (w := w) 0 hfin rfl rfl (fun id' _ => htask id') hkeys
      ((htask _).trans hrow) rfl rfl hq hspared hok
  · have hfin' : w.finish setup course 5 s = r := by
      refine (show w.finish setup course 5 s = _ from hfin).trans ?_
      simp only [won, noted, if_pos hsame, append_nil]
    refine ends_settle (w := w) 0 (hfin'.trans hr) rfl rfl
      (fun id' hne => TaskStore.task_put_ne hne) (keys_put _ _) (TaskStore.task_put hrow)
      (hsame.trans hst.symm) hq.symm hq hspared hok

/-- **Polls.**  Everything a poll of the copy `c` can leave. -/
theorem ends_poll {c : Task} (hstart : Started c (w.copy, w.stage))
    (hsweep : w.stage.sweeps = false) (hrow : s.task c.id = some row) (hq : row.quota = c.quota)
    (hok : ∀ e ∈ (w.finish setup course 5 s).events, e.refundFails = false) :
    Ends setup course s w row := by
  generalize hstage : w.stage = stage at hstart hsweep
  generalize hcopy : w.copy = copy at hstart
  have hfacts : ∀ {c' : Task}, Kept c c' → c' = w.copy →
      s.task w.copy.id = some row ∧ row.quota = w.copy.quota := by
    rintro c' hk rfl
    rw [Task.payer_id hk.payer, hk.quota]
    exact ⟨hrow, hq⟩
  cases hstart with
  | skip kept same =>
    obtain ⟨hrow', hq'⟩ := hfacts kept hcopy.symm
    refine ends_idle 5 w [] ?_ hstage rfl (fun _ _ => rfl) rfl hrow' hq'
      (.kept rfl (fun _ h => h) (sparing_of_stage hstage (by simp)))
    rw [append_nil]
  | note kept same =>
    obtain ⟨hrow', hq'⟩ := hfacts kept hcopy.symm
    exact ends_note hstage (by rw [hcopy]; exact same) hrow' hq'
  | finish kept ended info =>
    obtain ⟨hrow', hq'⟩ := hfacts kept hcopy.symm
    exact ends_finish hstage hrow' hq' hok
  | again kept ended same info =>
    obtain ⟨hrow', hq'⟩ := hfacts kept hcopy.symm
    exact ends_again hstage (by rw [hcopy]; exact same) hrow' hq' hok
  | settle kept ended same info =>
    obtain ⟨hrow', hq'⟩ := hfacts kept hcopy.symm
    exact ends_settle (w := w) 1 rfl hstage rfl (fun _ _ => rfl) rfl hrow' rfl rfl hq'
      (sparing_of_stage hstage (by simp)) hok
  | timeout payer quota failed => exact absurd hsweep (by simp [Stage.sweeps])

/-- **The sweep.**  A task that is not a legacy task is closed. -/
theorem ends_sweep
    (hstage : w.stage = .write fromStatus (.refundIfWon false)) (hf : w.copy.status = .failure)
    (hrow : s.task w.copy.id = some row) (hq : row.quota = w.copy.quota)
    (hok : ∀ e ∈ (w.finish setup course 5 s).events, e.refundFails = false) :
    Ends setup course s w row := by
  have hspared : sparing setup course s w = true := sparing_of_stage hstage (by simp)
  obtain ⟨-, s', hkeys, htask, hfin⟩ | ⟨-, hst, r, hr, hfin⟩ :=
    finish_write setup course 4 hstage hrow
  · refine ends_idle 4 { w with stage := .idle } [] ?_ rfl rfl (fun id' _ => htask id') hkeys
      ((htask _).trans hrow) hq (.kept rfl (fun _ h => h) hspared)
    rw [append_nil]
    exact hfin
  -- both ways on, the row ends as `row'` after `events`
  have hout : ∀ (row' : Task) (events : List TaskEvent), row'.status = .failure →
      (∀ events', Closed w.copy.quota events' → Closed row'.quota (events ++ events')) →
      (∀ pre events', pre = w.copy.quota →
        Closed row'.quota (events ++ .moved fromStatus .failure pre :: events')) →
      Outcome row row' (events ++ noted row w.copy fromStatus) (sparing setup course s w) := by
    intro row' events hfail hkeep hclose
    by_cases hsame : w.copy.status = fromStatus
    · refine .kept ?_ (fun events' h => ?_) hspared
      · rw [hfail, hst, ← hsame, hf]
      · rw [noted, if_pos hsame, append_nil]
        exact hkeep events' (by rw [← hq]; exact h)
    · refine .failed ?_ hfail fun events' => iff_of_true ?_ hspared
      · rw [hst, ← hf]
        exact fun h => hsame h.symm
      · rw [noted, if_neg hsame, hf, append_assoc]
        exact hclose row.quota events' hq
  by_cases hz : w.copy.quota = 0
  · have hwon : won w.copy (.refundIfWon false) = (.idle, []) := by
      simp only [won, hz, ne_eq, not_true_eq_false, if_false]
    rw [hwon] at hr hfin
    subst hr
    refine ends_idle 4 _ _ hfin rfl rfl (fun id' hne => TaskStore.task_put_ne hne)
      (keys_put _ _) (TaskStore.task_put hrow) rfl ?_
    exact hout w.copy [] hf (fun _ h => h) fun pre _ hpre => ⟨hpre.trans hz, hz⟩
  · have hwon : won w.copy (.refundIfWon false) = (.funding .refund 0, [.billed .refund 0]) := by
      simp only [won, if_pos hz]
    rw [hwon] at hr hfin
    have hok' : ∀ e ∈ r.events, e.refundFails = false := by
      intro e he
      refine hok e ?_
      rw [show w.finish setup course 5 s = _ from hfin]
      exact mem_append_left _ he
    subst hr
    obtain ⟨hbilled, hcloses⟩ := finish_refund
      (s := { s.put w.copy with ledger := course.others 4 s.ledger })
      (w := { w with stage := .funding .refund 0 }) 1 rfl (TaskStore.task_put hrow) hok'
    refine ends_billed 4 _ hfin rfl (fun id' hne => TaskStore.task_put_ne hne)
      (keys_put _ _) hbilled ?_
    rw [← append_assoc]
    refine hout _ _ hf (fun events' _ => ?_) fun _ events' _ => ?_
    · rw [append_assoc]
      exact hcloses _
    · rw [append_assoc]
      exact hcloses _

/-- The sweep of a legacy task writes its row or leaves it. -/
theorem ran_clear (setup : Setup) (course : Course)
    (hstage : w.stage = .write fromStatus (.refundIfWon true))
    (hrow : s.task w.copy.id = some row) :
    ∃ row', Ran s w.copy.id (w.finish setup course 5 s) row' := by
  obtain ⟨-, s', hkeys, htask, hfin⟩ | ⟨-, -, r, hr, hfin⟩ :=
    finish_write setup course 4 hstage hrow
  · obtain ⟨l, hl⟩ := finish_of_idle (w := { w with stage := .idle }) setup course 4 s' rfl
    rw [show w.finish setup course 5 s = _ from hfin.trans hl]
    exact ⟨row, rfl, fun id' _ => htask id', hkeys, (htask _).trans hrow⟩
  · obtain ⟨l, hl⟩ := finish_of_idle (w := { w with stage := .idle }) setup course 4
      { s.put w.copy with ledger := course.others 4 s.ledger } rfl
    rw [show w.finish setup course 5 s = _ from hfin, show r = _ from hr.trans hl]
    exact ⟨w.copy, rfl, fun id' hne => TaskStore.task_put_ne hne, keys_put _ _,
      TaskStore.task_put hrow⟩

end Worker

end NexusTok
