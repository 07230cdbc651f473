import NexusTok.Machine.Pool
import NexusTok.Task.Polling

/-!
# Workers on one task

Pollers of several processes and timeout sweeps may hold copies of the same row at the same time.
The machine interleaves their statements in any order: a worker loads a copy of the row, begins a
call on it, and runs the statements of the call one by one.

What keeps them apart is that every call writes under the condition that the status is still the
one its copy had when the call began.  A call that begins on a copy that has not ended therefore
never writes over a row that has, and bills only after the write that ended it.

A poll of a copy that *has* ended in memory is different: `updateVideoSingleTask` then bills without
a write, and its writes expect a final status.  `Fresh` leaves it out.

* `Sound.step` : the transition lemma.  One number counts the billing begun, the billing due and
  the timeouts without a refund, and is at most the number of writes that ended the row.
* `Sound.step_status` : a final status stays.
-/

namespace NexusTok.Tasks

/-! ### The machine -/

/-- An entry of the journal. -/
structure Entry where
  worker : ℕ
  event : TaskEvent
  deriving DecidableEq

/-- The database, and what happened so far, newest first. -/
structure Board where
  store : TaskStore
  journal : List Entry
  deriving DecidableEq

/-- The process, and the task the workers are at. -/
structure Scene where
  setup : Setup
  cfg : PollConfig
  id : ℤ

/-- A step of the interleaving. -/
inductive Action where
  /-- A new worker loads the row: a sweep if it has timed out, a poller if it is unfinished. -/
  | load (sweeper : Bool) (now : ℤ)
  /-- A worker begins a call. -/
  | begin (i : ℕ) (cmd : Command)
  /-- A worker runs its next statement. -/
  | resume (i : ℕ) (ans : TaskAnswer)

variable (sc : Scene)

/-- The row is loaded by the query of the worker. -/
def Scene.loads (sweeper : Bool) (now : ℤ) (row : Task) : Bool :=
  if sweeper then timedOut sc.cfg now row else row.unfinished

/-- A worker without a call begins one: a sweep its timeout, a poller anything else. -/
def begin (cmd : Command) (b : Board) (w : Worker) : Board × Option Worker :=
  if w.stage = .idle ∧ cmd.isSweep = w.sweeper then
    (b, some { w with copy := (cmd.start sc.cfg w.copy).1, stage := (cmd.start sc.cfg w.copy).2 })
  else (b, some w)

/-- A worker runs its next statement, and what happens is noted under its number. -/
def resume (ans : TaskAnswer) (b : Board) (w : Worker) : Board × Option Worker :=
  let r := w.advance sc.setup ans b.store
  (⟨r.store, r.events.map (fun e => ⟨w.number, e⟩) ++ b.journal⟩, some r.worker)

def step (p : Pool Board Worker) : Action → Pool Board Worker
  | .load sweeper now =>
    match p.shared.store.task sc.id with
    | none => p
    | some row =>
      if sc.loads sweeper now row then p.start ⟨p.calls.length, sweeper, row, .idle⟩ else p
  | .begin i cmd => p.resume (begin sc cmd) i
  | .resume i ans => p.resume (resume sc ans) i

/-- No call is begun on a copy that has ended in memory. -/
def Fresh (p : Pool Board Worker) : Action → Prop
  | .begin i _ => ∀ w ∈ p.calls[i]?, w.stage = .idle → w.copy.status.finished = false
  | _ => True

instance (p : Pool Board Worker) : (e : Action) → Decidable (Fresh p e)
  | .begin _ _ => inferInstanceAs (Decidable (∀ _ ∈ _, _))
  | .load _ _ | .resume _ _ => inferInstanceAs (Decidable True)

/-! ### Counting -/

end Tasks

/-- The row is moved to a final status. -/
def TaskEvent.ends : TaskEvent → Bool
  | .moved _ toStatus _ => toStatus.finished
  | _ => false

def TaskEvent.bills : TaskEvent → Bool
  | .billed _ _ => true
  | _ => false

def TaskEvent.clears : TaskEvent → Bool
  | .cleared => true
  | _ => false

def TaskEvent.breaks : TaskEvent → Bool
  | .broken _ => true
  | _ => false

namespace Worker

/-- Billing is due. -/
def due (w : Worker) : ℤ :=
  match w.stage with
  | .settle _ => 1
  | _ => 0

/-- The worker has ended the row and is not done with it. -/
def active (w : Worker) : ℤ :=
  match w.stage with
  | .settle _ | .funding _ _ | .token _ _ | .save _ _ => 1
  | .idle | .write _ _ => 0

/-- What the funding source has paid of a change that the row does not show yet. -/
def fundingPending (w : Worker) : ℤ :=
  match w.stage with
  | .token _ actualQuota | .save _ actualQuota => actualQuota - w.copy.quota
  | _ => 0

/-- What the token has paid of a change that the row does not show yet. -/
def tokenPending (w : Worker) : ℤ :=
  match w.stage with
  | .save _ actualQuota => actualQuota - w.copy.quota
  | _ => 0

/-- What is known of the copy of a worker that has not ended the row; `r₀` is the row at the
start. -/
def Ready (r₀ : Task) (w : Worker) : Prop :=
  match w.stage with
  | .idle => w.copy.status.finished = false → w.copy.quota = r₀.quota
  | .write fromStatus .stop =>
    fromStatus.finished = false ∧ w.copy.status.finished = false ∧ w.copy.quota = r₀.quota
  | .write fromStatus (.settleIfWon _) =>
    fromStatus.finished = false ∧ w.copy.status.finished = true ∧ w.copy.quota = r₀.quota
  | .write _ (.settle _) => False
  | .write fromStatus (.refundIfWon isLegacy) =>
    fromStatus.finished = false ∧ w.copy.status = .failure ∧
      w.copy.quota = if isLegacy then 0 else r₀.quota
  | _ => True

theorem active_nonneg (w : Worker) : 0 ≤ w.active := by
  unfold active
  split <;> decide

/-- Nothing is asked of the copy of a worker that has ended the row. -/
theorem ready_of_active {r₀ : Task} {w : Worker} (h : w.active = 1) : w.Ready r₀ := by
  cases hs : w.stage with
  | idle =>
    rw [active, hs] at h
    exact absurd h (by decide)
  | write fromStatus next =>
    rw [active, hs] at h
    exact absurd h (show (0 : ℤ) ≠ 1 by decide)
  | _ => rw [Ready, hs]; trivial

theorem due_nonneg (w : Worker) : 0 ≤ w.due := by
  unfold due
  split <;> decide

end Worker

namespace Tasks

/-- How often something happened. -/
def count (p : TaskEvent → Bool) (journal : List Entry) : ℤ :=
  (journal.countP fun e => p e.event : ℕ)

section Count

variable {p : TaskEvent → Bool} {journal : List Entry}

theorem count_nonneg (p : TaskEvent → Bool) (journal : List Entry) : 0 ≤ count p journal :=
  Int.natCast_nonneg _

theorem count_note (k : ℕ) (events : List TaskEvent) :
    count p (events.map (fun e => ⟨k, e⟩) ++ journal) =
      (events.countP p : ℕ) + count p journal := by
  unfold count
  rw [List.countP_append, List.countP_map]
  push_cast
  rfl

end Count

/-! ### The invariant -/

variable (sc : Scene)

/-- What a worker that has ended the row knows of it. -/
structure Holds (b : Board) (w : Worker) : Prop where
  row : ∃ row, b.store.task sc.id = some row ∧ row.status = w.copy.status ∧
    row.status.finished = true ∧ row.quota = w.copy.quota
  ended : ∃ e ∈ b.journal, e.worker = w.number ∧ e.event.ends = true

/-- The row, as long as it has not ended, is charged what it was at the start. -/
def RowSound (r₀ : Task) (b : Board) : Prop :=
  ∃ row, b.store.task sc.id = some row ∧ row.payer = r₀.payer ∧
    (row.status.finished = false → row.quota = r₀.quota ∧ count TaskEvent.ends b.journal = 0)

/-- The invariant of a run that started with the row `r₀`. -/
structure Sound (r₀ : Task) (p : Pool Board Worker) : Prop where
  row : RowSound sc r₀ p.shared
  ends_le : count TaskEvent.ends p.shared.journal ≤ 1
  bills_le : count TaskEvent.bills p.shared.journal + count TaskEvent.clears p.shared.journal +
    p.total Worker.due ≤ count TaskEvent.ends p.shared.journal
  active_le : count TaskEvent.clears p.shared.journal + p.total Worker.active ≤
    count TaskEvent.ends p.shared.journal
  payer : p.Each fun w => w.copy.payer = r₀.payer
  ready : p.Each (Worker.Ready r₀)
  holds : p.Each fun w => w.active = 1 → Holds sc p.shared w
  billed : ∀ e ∈ p.shared.journal, e.event.bills = true →
    ∃ e' ∈ p.shared.journal, e'.worker = e.worker ∧ e'.event.ends = true
  cleared : 0 < count TaskEvent.clears p.shared.journal →
    ∀ row, p.shared.store.task sc.id = some row → row.quota = 0

section Sound

variable {sc} {r₀ : Task} {b b' : Board} {before after : List Worker} {c c' : Worker}

/-- When a worker is at work on the ended row, no other one is. -/
theorem Sound.alone (h : Sound sc r₀ ⟨b, before ++ c :: after⟩) {w : Worker}
    (hw : w ∈ before ++ after) (ha : w.active = 1) :
    c.active = 0 ∧ ∃ row, b.store.task sc.id = some row ∧ row.status.finished = true := by
  have hle := h.active_le
  rw [Pool.total_split] at hle
  have hrest : 1 ≤ (Pool.mk b (before ++ after)).total Worker.active := by
    obtain ⟨l₁, l₂, hl⟩ := List.append_of_mem hw
    rw [hl, Pool.total_split, ha]
    have := Pool.total_nonneg (w := Worker.active) (p := ⟨b, l₁ ++ l₂⟩)
      fun w _ => w.active_nonneg
    omega
  have hends := h.ends_le
  have hclears := count_nonneg TaskEvent.clears b.journal
  have hc := c.active_nonneg
  simp only at hle hends
  refine ⟨by omega, ?_⟩
  obtain ⟨row, hrow, -, hopen⟩ := h.row
  refine ⟨row, hrow, ?_⟩
  cases hf : row.status.finished with
  | true => rfl
  | false =>
    have := (hopen hf).2
    simp only at this
    omega

/-- The invariant, when one worker has taken a step. -/
theorem Sound.replace (events : List TaskEvent) (h : Sound sc r₀ ⟨b, before ++ c :: after⟩)
    (hj : b'.journal = events.map (fun e => ⟨c.number, e⟩) ++ b.journal)
    (hrow : RowSound sc r₀ b') (hends : count TaskEvent.ends b'.journal ≤ 1)
    (hbills : (events.countP TaskEvent.bills : ℤ) + events.countP TaskEvent.clears + c'.due ≤
      events.countP TaskEvent.ends + c.due)
    (hactive : (events.countP TaskEvent.clears : ℤ) + c'.active ≤
      events.countP TaskEvent.ends + c.active)
    (hpayer : c'.copy.payer = r₀.payer) (hready : c'.Ready r₀)
    (hholds : c'.active = 1 → Holds sc b' c')
    (hframe : c.active = 0 → ∀ row, b.store.task sc.id = some row → row.status.finished = true →
      b'.store.task sc.id = some row)
    (hbilled : (∃ e ∈ events, e.bills = true) →
      ∃ e' ∈ b'.journal, e'.worker = c.number ∧ e'.event.ends = true)
    (hcleared : 0 < count TaskEvent.clears b'.journal →
      ∀ row, b'.store.task sc.id = some row → row.quota = 0) :
    Sound sc r₀ ⟨b', before ++ (some c').toList ++ after⟩ := by
  have hsub : ∀ e ∈ b.journal, e ∈ b'.journal := by
    intro e he
    rw [hj]
    exact List.mem_append_right _ he
  have hb := h.bills_le
  have ha := h.active_le
  rw [Pool.total_split] at hb ha
  simp only at hb ha
  refine ⟨hrow, hends, ?_, ?_, ?_, ?_, ?_, ?_, hcleared⟩
  · rw [Pool.total_join b]
    simp only [hj, count_note, Pool.rest_some]
    omega
  · rw [Pool.total_join b]
    simp only [hj, count_note, Pool.rest_some]
    omega
  · refine h.payer.of_split rfl fun w hw => ?_
    cases hw
    exact hpayer
  · refine h.ready.of_split rfl fun w hw => ?_
    cases hw
    exact hready
  · intro w hw hact
    by_cases hother : w ∈ before ++ after
    · -- another worker is at work on the row, so this step has left the row alone
      obtain ⟨hc, row, hrow, hfin⟩ := h.alone hother hact
      have hmem : w ∈ before ++ c :: after := by
        rcases List.mem_append.1 hother with hw' | hw' <;> simp [hw']
      obtain ⟨⟨row', hrow', hst, hfin', hq⟩, e, he, hk, hend⟩ := h.holds w hmem hact
      rw [hrow] at hrow'
      cases hrow'
      exact ⟨⟨row, hframe hc row hrow hfin, hst, hfin, hq⟩, e, hsub e he, hk, hend⟩
    · have : w = c' := by
        simp only [Option.toList_some, List.mem_append, List.mem_singleton] at hw hother
        tauto
      subst this
      exact hholds hact
  · intro e he hbill
    simp only [hj] at he
    rcases List.mem_append.1 he with he | he
    · obtain ⟨ev, hev, rfl⟩ := List.mem_map.1 he
      exact hbilled ⟨ev, hev, hbill⟩
    · obtain ⟨e', he', hk, hend⟩ := h.billed e he hbill
      exact ⟨e', hsub e' he', hk, hend⟩

/-- A step that moves a worker and neither the row nor the journal's counts of it. -/
theorem Sound.replace_same (events : List TaskEvent)
    (h : Sound sc r₀ ⟨b, before ++ c :: after⟩)
    (hj : b'.journal = events.map (fun e => ⟨c.number, e⟩) ++ b.journal)
    (htask : b'.store.task sc.id = b.store.task sc.id)
    (hev : ∀ e ∈ events, e.ends = false ∧ e.clears = false)
    (hbills : (events.countP TaskEvent.bills : ℤ) + c'.due ≤ c.due) (hactive : c'.active ≤ c.active)
    (hpayer : c'.copy.payer = r₀.payer) (hready : c'.Ready r₀)
    (hholds : c'.active = 1 → Holds sc b' c')
    (hbilled : (∃ e ∈ events, e.bills = true) →
      ∃ e' ∈ b'.journal, e'.worker = c.number ∧ e'.event.ends = true) :
    Sound sc r₀ ⟨b', before ++ (some c').toList ++ after⟩ := by
  have hends : events.countP TaskEvent.ends = 0 :=
    List.countP_eq_zero.2 fun e he => by rw [(hev e he).1]; exact Bool.false_ne_true
  have hclears : events.countP TaskEvent.clears = 0 :=
    List.countP_eq_zero.2 fun e he => by rw [(hev e he).2]; exact Bool.false_ne_true
  have hends' : count TaskEvent.ends b'.journal = count TaskEvent.ends b.journal := by
    rw [hj, count_note, hends]
    simp
  have hclears' : count TaskEvent.clears b'.journal = count TaskEvent.clears b.journal := by
    rw [hj, count_note, hclears]
    simp
  refine h.replace events hj ?_ ?_ ?_ ?_ hpayer hready hholds ?_ hbilled ?_
  · obtain ⟨row, hrow, hp, hopen⟩ := h.row
    refine ⟨row, htask.trans hrow, hp, fun hf => ?_⟩
    rw [hends']
    exact hopen hf
  · rw [hends']
    exact h.ends_le
  · omega
  · omega
  · intro _ row hrow _
    exact htask.trans hrow
  · rw [hclears', htask]
    exact h.cleared

/-- A worker begins a call on a copy that has not ended. -/
theorem Sound.begin (h : Sound sc r₀ ⟨b, before ++ c :: after⟩) (cmd : Command)
    (hidle : c.stage = .idle) (hfresh : c.copy.status.finished = false) :
    Sound sc r₀ ⟨b, before ++ (some { c with
      copy := (cmd.start sc.cfg c.copy).1
      stage := (cmd.start sc.cfg c.copy).2 }).toList ++ after⟩ := by
  have hmem : c ∈ before ++ c :: after := by simp
  have hp : c.copy.payer = r₀.payer := h.payer c hmem
  have hq : c.copy.quota = r₀.quota := by
    have hready := h.ready c hmem
    simp only [Worker.Ready, hidle] at hready
    exact hready hfresh
  have hdue : c.due = 0 := by rw [Worker.due, hidle]
  have hact : c.active = 0 := by rw [Worker.active, hidle]
  have hstart := cmd.started sc.cfg c.copy
  generalize cmd.start sc.cfg c.copy = r at hstart
  -- what every case has in common: the call waits before its first statement
  have key : ∀ w : Worker, w.copy.payer = r₀.payer → w.Ready r₀ → w.due = 0 → w.active = 0 →
      Sound sc r₀ ⟨b, before ++ (some w).toList ++ after⟩ := by
    intro w hpayer hready hd ha
    refine h.replace_same [] rfl rfl (fun e he => absurd he (by simp)) ?_ ?_ hpayer
      hready (fun h1 => absurd h1 (by omega)) (fun ⟨e, he, _⟩ => absurd he (by simp))
    · simp [hd, hdue]
    · rw [ha, hact]
  cases hstart with
  | skip kept same =>
    refine key _ (kept.payer.trans hp) ?_ rfl rfl
    exact fun _ => kept.quota.trans hq
  | note kept same =>
    refine key _ (kept.payer.trans hp) ⟨hfresh, ?_, kept.quota.trans hq⟩ rfl rfl
    show _ = false
    by_contra hf
    rw [Bool.not_eq_false] at hf
    rw [same hf, hfresh] at hf
    exact Bool.false_ne_true hf
  | finish kept ended info =>
    exact key _ (kept.payer.trans hp) ⟨hfresh, ended, kept.quota.trans hq⟩ rfl rfl
  | again kept ended same info =>
    rw [same, hfresh] at ended
    exact absurd ended Bool.false_ne_true
  | settle kept ended same info =>
    rw [same, hfresh] at ended
    exact absurd ended Bool.false_ne_true
  | timeout payer quota failed =>
    refine key _ (payer.trans hp) ⟨hfresh, failed, ?_⟩ rfl rfl
    rw [← hq]
    exact quota

variable {next : AfterWrite}

/-- A worker at a conditional write that is not run, or not won. -/
theorem Sound.lost (h : Sound sc r₀ ⟨b, before ++ c :: after⟩) {fromStatus : TaskStatus}
    (hstage : c.stage = .write fromStatus next) {s' : TaskStore}
    (htask : s'.task sc.id = b.store.task sc.id) :
    Sound sc r₀ ⟨⟨s', b.journal⟩,
      before ++ (some { c with stage := Worker.lost next }).toList ++ after⟩ := by
  have hmem : c ∈ before ++ c :: after := by simp
  have hready := h.ready c hmem
  simp only [Worker.Ready, hstage] at hready
  have hidle : Worker.lost next = .idle := by
    cases next with
    | settle info => exact absurd hready id
    | _ => rfl
  have hdue : c.due = 0 := by rw [Worker.due, hstage]
  have hact : c.active = 0 := by rw [Worker.active, hstage]
  rw [hidle]
  refine h.replace_same [] rfl htask (fun e he => absurd he (by simp)) ?_ ?_
    (h.payer c hmem) ?_ (fun h1 => absurd h1 (show (0 : ℤ) ≠ 1 by decide))
    (fun ⟨e, he, _⟩ => absurd he (by simp))
  · rw [hdue]
    exact le_refl _
  · rw [hact]
    exact le_refl _
  · -- a copy that has ended is not written again, one that has not is charged as before
    intro hopen
    cases next with
    | stop => exact hready.2.2
    | settleIfWon info =>
      have hfin : c.copy.status.finished = true := hready.2.1
      exact absurd (hfin.symm.trans hopen) (by decide)
    | settle info => exact absurd hready id
    | refundIfWon isLegacy =>
      have hfail : c.copy.status = .failure := hready.2.1
      have hfin : c.copy.status.finished = true := by rw [hfail]; rfl
      exact absurd (hfin.symm.trans hopen) (by decide)

variable {p : Pool Board Worker}

/-- The copies are copies of the row. -/
theorem Sound.copy_id (h : Sound sc r₀ p) {w : Worker} (hw : w ∈ p.calls) : w.copy.id = sc.id := by
  obtain ⟨row, hrow, hp, -⟩ := h.row
  rw [Task.payer_id ((h.payer w hw).trans hp.symm)]
  exact TaskStore.task_id hrow

/-- A write of a fresh call expects a status that is not final. -/
theorem Sound.write_open (h : Sound sc r₀ ⟨b, before ++ c :: after⟩) {fromStatus : TaskStatus}
    (hstage : c.stage = .write fromStatus next) : fromStatus.finished = false := by
  have hready := h.ready c (by simp)
  simp only [Worker.Ready, hstage] at hready
  cases next with
  | settle info => exact absurd hready id
  | _ => exact hready.1

theorem Sound.open_zero (h : Sound sc r₀ p) {row : Task}
    (hfound : p.shared.store.task sc.id = some row) (hopen : row.status.finished = false) :
    row.quota = r₀.quota ∧ count TaskEvent.ends p.shared.journal = 0 ∧
      count TaskEvent.clears p.shared.journal = 0 := by
  obtain ⟨row', hrow', -, hopen'⟩ := h.row
  rw [hfound] at hrow'
  cases hrow'
  obtain ⟨hquota, hends⟩ := hopen' hopen
  have hle := h.active_le
  have hclears := count_nonneg TaskEvent.clears p.shared.journal
  have htotal := Pool.total_nonneg (w := Worker.active) (p := p) fun w _ => w.active_nonneg
  exact ⟨hquota, hends, by omega⟩

theorem noted_ended {row copy : Task} {fromStatus : TaskStatus}
    (hopen : fromStatus.finished = false) (hcopy : copy.status.finished = true) :
    Worker.noted row copy fromStatus = [.moved fromStatus copy.status row.quota] := by
  refine if_neg fun heq => ?_
  rw [heq, hopen] at hcopy
  exact Bool.false_ne_true hcopy

theorem noted_open (row : Task) (fromStatus : TaskStatus) {copy : Task}
    (hcopy : copy.status.finished = false) :
    ∀ e ∈ Worker.noted row copy fromStatus,
      e.ends = false ∧ e.bills = false ∧ e.clears = false := by
  intro e he
  unfold Worker.noted at he
  split_ifs at he
  · simp at he
  · rw [List.mem_singleton] at he
    subst he
    exact ⟨hcopy, rfl, rfl⟩

section Won

variable {fromStatus : TaskStatus} {row : Task}

/-- The row after a write that is won. -/
theorem Sound.put_found (h : Sound sc r₀ ⟨b, before ++ c :: after⟩)
    (hfound : b.store.task c.copy.id = some row) :
    (b.store.put c.copy).task sc.id = some c.copy := by
  rw [← h.copy_id (w := c) (by simp)]
  exact TaskStore.task_put hfound

/-- A write that finds the row open changes no row that has ended. -/
theorem Sound.put_frame (h : Sound sc r₀ ⟨b, before ++ c :: after⟩)
    (hfound : b.store.task c.copy.id = some row) (hopen : row.status.finished = false) :
    c.active = 0 → ∀ row', b.store.task sc.id = some row' → row'.status.finished = true →
      (b.store.put c.copy).task sc.id = some row' := by
  intro _ row' hrow' hfin
  rw [h.copy_id (w := c) (by simp), hrow'] at hfound
  cases hfound
  rw [hopen] at hfin
  cases hfin

/-- **A write that ends the row.**  Nobody has been billed for it, and nobody is about to. -/
theorem Sound.ended (extra : List TaskEvent) (stage : Stage)
    (h : Sound sc r₀ ⟨b, before ++ c :: after⟩)
    (hstage : c.stage = .write fromStatus next) (hfound : b.store.task c.copy.id = some row)
    (hsame : row.status = fromStatus) (hcopy : c.copy.status.finished = true)
    (hextra : ∀ e ∈ extra, e.ends = false)
    (hbills : (extra.countP TaskEvent.bills : ℤ) + extra.countP TaskEvent.clears +
      ({ c with stage := stage } : Worker).due ≤ 1)
    (hactive : (extra.countP TaskEvent.clears : ℤ) +
      ({ c with stage := stage } : Worker).active ≤ 1)
    (hnext : stage = .idle ∨ ({ c with stage := stage } : Worker).active = 1)
    (hcleared : 0 < extra.countP TaskEvent.clears → c.copy.quota = 0) :
    Sound sc r₀ ⟨⟨b.store.put c.copy,
        (extra ++ Worker.noted row c.copy fromStatus).map (fun e => ⟨c.number, e⟩) ++ b.journal⟩,
      before ++ (some { c with stage := stage }).toList ++ after⟩ := by
  have hmem : c ∈ before ++ c :: after := by simp
  have hopen := h.write_open hstage
  have hrowOpen : row.status.finished = false := by rw [hsame]; exact hopen
  have hfound' : b.store.task sc.id = some row := by rw [← h.copy_id hmem]; exact hfound
  obtain ⟨-, hends, hclears⟩ := h.open_zero hfound' hrowOpen
  have hput := h.put_found hfound
  have hdue : c.due = 0 := by rw [Worker.due, hstage]
  have hact : c.active = 0 := by rw [Worker.active, hstage]
  have hextra' : extra.countP TaskEvent.ends = 0 :=
    List.countP_eq_zero.2 fun e he => by rw [hextra e he]; exact Bool.false_ne_true
  rw [noted_ended hopen hcopy]
  have hended : ∃ e ∈ (extra ++ [TaskEvent.moved fromStatus c.copy.status row.quota]).map
      (fun e => (⟨c.number, e⟩ : Entry)) ++ b.journal,
      e.worker = c.number ∧ e.event.ends = true :=
    ⟨⟨c.number, .moved fromStatus c.copy.status row.quota⟩, by simp, rfl, hcopy⟩
  have hone : (extra ++ [TaskEvent.moved fromStatus c.copy.status row.quota]).countP
      TaskEvent.ends = 1 := by
    rw [List.countP_append, hextra', List.countP_singleton, zero_add]
    exact if_pos hcopy
  have hsame_count : ∀ p : TaskEvent → Bool,
      p (.moved fromStatus c.copy.status row.quota) = false →
      (extra ++ [TaskEvent.moved fromStatus c.copy.status row.quota]).countP p =
        extra.countP p := by
    intro p hp
    rw [List.countP_append, List.countP_singleton, hp]
    simp
  refine h.replace _ rfl ?_ ?_ ?_ ?_ (h.payer c hmem) ?_ (fun h1 => ?_)
    (h.put_frame hfound hrowOpen) (fun _ => hended) ?_
  · refine ⟨c.copy, hput, h.payer c hmem, fun hf => ?_⟩
    exact absurd (hcopy.symm.trans hf) (by decide)
  · rw [count_note, hends, hone]
    decide
  · rw [hone, hdue, hsame_count _ rfl, hsame_count _ rfl]
    omega
  · rw [hone, hact, hsame_count _ rfl]
    omega
  · rcases hnext with rfl | h1
    · exact fun hf => absurd (hcopy.symm.trans hf) (by decide)
    · exact Worker.ready_of_active h1
  · exact ⟨⟨c.copy, hput, rfl, hcopy, rfl⟩, hended⟩
  · rw [count_note, hsame_count _ rfl, hclears]
    intro h0 row' hrow'
    rw [hput] at hrow'
    cases hrow'
    exact hcleared (by omega)

theorem Sound.kept_open (h : Sound sc r₀ ⟨b, before ++ c :: after⟩)
    (hstage : c.stage = .write fromStatus .stop) (hfound : b.store.task c.copy.id = some row)
    (hsame : row.status = fromStatus) :
    Sound sc r₀ ⟨⟨b.store.put c.copy,
        (Worker.noted row c.copy fromStatus).map (fun e => ⟨c.number, e⟩) ++ b.journal⟩,
      before ++ (some { c with stage := .idle }).toList ++ after⟩ := by
  have hmem : c ∈ before ++ c :: after := by simp
  have hrowOpen : row.status.finished = false := by rw [hsame]; exact h.write_open hstage
  have hfound' : b.store.task sc.id = some row := by rw [← h.copy_id hmem]; exact hfound
  obtain ⟨-, hends, hclears⟩ := h.open_zero hfound' hrowOpen
  have hready := h.ready c hmem
  simp only [Worker.Ready, hstage] at hready
  obtain ⟨-, hcopy, hquota⟩ := hready
  have hdue : c.due = 0 := by rw [Worker.due, hstage]
  have hact : c.active = 0 := by rw [Worker.active, hstage]
  have hnone : ∀ p : TaskEvent → Bool,
      (∀ e ∈ Worker.noted row c.copy fromStatus, p e = false) →
      (Worker.noted row c.copy fromStatus).countP p = 0 :=
    fun p hp => List.countP_eq_zero.2 fun e he => by rw [hp e he]; exact Bool.false_ne_true
  have hnoted := noted_open row fromStatus hcopy
  have hends' := hnone TaskEvent.ends fun e he => (hnoted e he).1
  have hbills' := hnone TaskEvent.bills fun e he => (hnoted e he).2.1
  have hclears' := hnone TaskEvent.clears fun e he => (hnoted e he).2.2
  refine h.replace _ rfl ?_ ?_ ?_ ?_ (h.payer c hmem) (fun _ => hquota)
    (fun h1 => absurd h1 (show (0 : ℤ) ≠ 1 by decide)) (h.put_frame hfound hrowOpen) ?_ ?_
  · refine ⟨c.copy, h.put_found hfound, h.payer c hmem, fun _ => ⟨hquota, ?_⟩⟩
    rw [count_note, hends, hends']
    rfl
  · rw [count_note, hends, hends']
    decide
  · rw [hbills', hclears', hends', hdue]
    exact le_refl _
  · rw [hclears', hends', hact]
    exact le_refl _
  · rintro ⟨e, he, hb⟩
    rw [(hnoted e he).2.1] at hb
    cases hb
  · rw [count_note, hclears, hclears']
    exact fun h0 => absurd h0 (by decide)

/-- **A write that is won.** -/
theorem Sound.won (h : Sound sc r₀ ⟨b, before ++ c :: after⟩)
    (hstage : c.stage = .write fromStatus next) (hfound : b.store.task c.copy.id = some row)
    (hsame : row.status = fromStatus) :
    Sound sc r₀ ⟨⟨b.store.put c.copy,
        ((Worker.won c.copy next).2 ++ Worker.noted row c.copy fromStatus).map
          (fun e => ⟨c.number, e⟩) ++ b.journal⟩,
      before ++ (some { c with stage := (Worker.won c.copy next).1 }).toList ++ after⟩ := by
  have hready := h.ready c (by simp)
  simp only [Worker.Ready, hstage] at hready
  cases next with
  | settle info => exact absurd hready id
  | stop => exact h.kept_open hstage hfound hsame
  | settleIfWon info =>
    exact h.ended [] (.settle info) hstage hfound hsame hready.2.1 (by simp) (by simp [Worker.due])
      (by simp [Worker.active]) (.inr rfl) (by simp)
  | refundIfWon isLegacy =>
    obtain ⟨-, hfail, hquota⟩ := hready
    have hcopy : c.copy.status.finished = true := by rw [hfail]; rfl
    cases isLegacy with
    | true =>
      refine h.ended [.cleared] .idle hstage hfound hsame hcopy (by simp [TaskEvent.ends])
        (by simp [TaskEvent.bills, TaskEvent.clears, Worker.due])
        (by simp [TaskEvent.clears, Worker.active]) (.inl rfl) fun _ => ?_
      simpa using hquota
    | false =>
      simp only [Worker.won]
      by_cases hq : c.copy.quota ≠ 0
      · simp only [if_pos hq]
        exact h.ended [.billed .refund 0] (.funding .refund 0) hstage hfound hsame hcopy
          (by simp [TaskEvent.ends]) (by simp [TaskEvent.bills, TaskEvent.clears, Worker.due])
          (by simp [TaskEvent.clears, Worker.active])
          (.inr rfl) (by simp [TaskEvent.clears])
      · simp only [if_neg hq]
        exact h.ended [] .idle hstage hfound hsame hcopy (by simp) (by simp [Worker.due])
          (by simp [Worker.active]) (.inl rfl) (by simp)

end Won

/-- A step of a worker that has ended the row, and leaves the row alone. -/
theorem Sound.working (events : List TaskEvent) (h : Sound sc r₀ ⟨b, before ++ c :: after⟩)
    (hact : c.active = 1) (hnumber : c'.number = c.number)
    (hpayer : c'.copy.payer = c.copy.payer) (hstatus : c'.copy.status = c.copy.status)
    (hquota : c'.active = 1 → c'.copy.quota = c.copy.quota) (hwrite : c'.stage = .idle ∨ c'.active = 1)
    (htask : b'.store.task sc.id = b.store.task sc.id)
    (hj : b'.journal = events.map (fun e => ⟨c.number, e⟩) ++ b.journal)
    (hev : ∀ e ∈ events, e.ends = false ∧ e.clears = false)
    (hbills : (events.countP TaskEvent.bills : ℤ) + c'.due ≤ c.due) :
    Sound sc r₀ ⟨b', before ++ (some c').toList ++ after⟩ := by
  have hmem : c ∈ before ++ c :: after := by simp
  obtain ⟨⟨row, hrow, hst, hfin, hq⟩, e, he, hk, hend⟩ := h.holds c hmem hact
  have he' : e ∈ b'.journal := by
    rw [hj]
    exact List.mem_append_right _ he
  refine h.replace_same events hj htask hev hbills ?_ (hpayer.trans (h.payer c hmem)) ?_ (fun h1 => ?_)
    (fun _ => ⟨e, he', hk, hend⟩)
  · rcases hwrite with hidle | h1
    · rw [Worker.active, hidle, hact]
      decide
    · rw [h1, hact]
  · rcases hwrite with hidle | h1
    · simp only [Worker.Ready, hidle]
      intro hopen
      rw [hstatus, ← hst, hfin] at hopen
      cases hopen
    · exact Worker.ready_of_active h1
  · exact ⟨⟨row, htask.trans hrow, hst.trans hstatus.symm, hfin, hq.trans (hquota h1).symm⟩,
      e, he', hk.trans hnumber.symm, hend⟩

/-- Nobody has cleared the charge of a row that a worker is at work on. -/
theorem Sound.clears_zero (h : Sound sc r₀ ⟨b, before ++ c :: after⟩) (hact : c.active = 1) :
    count TaskEvent.clears b.journal = 0 := by
  have hle := h.active_le
  have hends := h.ends_le
  rw [Pool.total_split, hact] at hle
  have hrest := Pool.total_nonneg (w := Worker.active) (p := ⟨b, before ++ after⟩)
    fun w _ => w.active_nonneg
  have hnn := count_nonneg TaskEvent.clears b.journal
  simp only at hle hends
  omega

/-- What `settleTaskBillingOnComplete` leaves: at most one billing has begun, and none is due. -/
theorem Worker.settled_spec (copy : Task) (settlement : Settlement) :
    (∀ e ∈ (Worker.settled copy settlement).2, e.ends = false ∧ e.clears = false) ∧
      (Worker.settled copy settlement).2.countP TaskEvent.bills ≤ 1 ∧
      ((Worker.settled copy settlement).1 = .idle ∨
        ∃ bill actualQuota, (Worker.settled copy settlement).1 = .funding bill actualQuota) := by
  cases settlement with
  | kept => simp [Worker.settled]
  | declined =>
    simp only [Worker.settled]
    split_ifs <;> simp [TaskEvent.ends, TaskEvent.clears, TaskEvent.bills]
  | recalculate actualQuota =>
    simp only [Worker.settled]
    split_ifs <;>
      simp [List.countP_cons, TaskEvent.ends, TaskEvent.clears, TaskEvent.bills]

/-- **A worker runs its next statement.** -/
theorem Sound.resume (h : Sound sc r₀ ⟨b, before ++ c :: after⟩) (ans : TaskAnswer) :
    Sound sc r₀ ⟨(Tasks.resume sc ans b c).1,
      before ++ (Tasks.resume sc ans b c).2.toList ++ after⟩ := by
  have hmem : c ∈ before ++ c :: after := by simp
  have hid := h.copy_id hmem
  have hcases := Worker.advance_cases sc.setup ans b.store c
  simp only [Tasks.resume]
  generalize c.advance sc.setup ans b.store = r at hcases
  cases hcases with
  | idle stage => simpa using h
  | lost stage => exact h.lost stage rfl
  | unreported stage found same =>
    refine h.lost stage ?_
    rw [← hid]
    exact (TaskStore.task_put found).trans found.symm
  | won stage found same => exact h.won stage found same
  | @settled info svc userGroup settlement copy stage settle =>
    obtain ⟨hpayer, hquota, hstatus⟩ := settleTaskBillingOnComplete_copy settle
    obtain ⟨hev, hbills, hnext⟩ := Worker.settled_spec copy settlement
    refine h.working _ (by rw [Worker.active, stage]) rfl hpayer hstatus (fun _ => hquota) ?_ rfl rfl
      hev ?_
    · rcases hnext with hidle | ⟨bill, actualQuota, hfund⟩
      · exact .inl hidle
      · exact .inr (by simp only [Worker.active, hfund])
    · have hdue : c.due = 1 := by rw [Worker.due, stage]
      have hdue' : ∀ w : Worker, w.stage = .idle ∨ (∃ bill actualQuota,
          w.stage = .funding bill actualQuota) → w.due = 0 := by
        rintro w (hw | ⟨bill, actualQuota, hw⟩) <;> rw [Worker.due, hw]
      rw [hdue, hdue' _ hnext]
      show ((Worker.settled copy settlement).2.countP TaskEvent.bills : ℤ) + 0 ≤ 1
      omega
  | @unpaid bill actualQuota stage =>
    refine h.working [.unpaid bill] (by rw [Worker.active, stage]) rfl rfl rfl
      (fun _ => rfl) (.inl rfl) rfl rfl (by simp [TaskEvent.ends, TaskEvent.clears]) ?_
    simp [TaskEvent.bills, Worker.due, stage]
  | funded stage ok =>
    refine h.working [] (by rw [Worker.active, stage]) rfl rfl rfl
      (fun _ => rfl) (.inr rfl) rfl rfl (by simp) ?_
    simp [Worker.due, stage]
  | @tokenFailed bill actualQuota stage =>
    refine h.working [.broken bill] (by rw [Worker.active, stage]) rfl rfl rfl
      (fun _ => rfl) (.inr rfl) rfl rfl (by simp [TaskEvent.ends, TaskEvent.clears]) ?_
    simp [TaskEvent.bills, Worker.due, stage]
  | charged stage ok =>
    refine h.working [] (by rw [Worker.active, stage]) rfl rfl rfl
      (fun _ => rfl) (.inr rfl) rfl rfl (by simp) ?_
    simp [Worker.due, stage]
  | @saveFailed bill actualQuota stage =>
    refine h.working [.broken bill] (by rw [Worker.active, stage]) rfl rfl rfl
      (fun h1 => absurd h1 (show (0 : ℤ) ≠ 1 by decide)) (.inl rfl) rfl rfl
      (by simp [TaskEvent.ends, TaskEvent.clears]) ?_
    simp [TaskEvent.bills, Worker.due, stage]
  | @saved bill actualQuota stage =>
    have hact : c.active = 1 := by rw [Worker.active, stage]
    obtain ⟨⟨row, hrow, hst, hfin, hq⟩, e, he, hk, hend⟩ := h.holds c hmem hact
    have hcopy : c.copy.status.finished = true := by rw [← hst]; exact hfin
    have hnew : (b.store.updateQuota { c.copy with quota := actualQuota }).task sc.id =
        some { row with quota := actualQuota } := by
      rw [← hid] at hrow ⊢
      exact TaskStore.task_updateQuota hrow
    obtain ⟨row', hrow', hpayer, -⟩ := h.row
    rw [hrow] at hrow'
    cases hrow'
    have hclears := h.clears_zero hact
    refine h.replace [.paid bill actualQuota] rfl ?_ ?_ ?_ ?_ (h.payer c hmem)
      (fun hopen => ?_) (fun h1 => absurd h1 (show (0 : ℤ) ≠ 1 by decide))
      (fun h0 => absurd (h0.symm.trans hact) (by decide)) ?_ ?_
    · refine ⟨_, hnew, hpayer, fun hopen => ?_⟩
      exact absurd (hfin.symm.trans hopen) (by decide)
    · rw [count_note]
      have := h.ends_le
      simpa [TaskEvent.ends] using this
    · simp [TaskEvent.bills, TaskEvent.ends, TaskEvent.clears, Worker.due, stage]
    · simp [TaskEvent.ends, TaskEvent.clears, Worker.active, stage]
    · exact absurd (hcopy.symm.trans hopen) (by decide)
    · rintro ⟨e, he, hb⟩
      rw [List.mem_singleton] at he
      subst he
      cases hb
    · rw [count_note, hclears]
      intro h0
      simp [TaskEvent.clears] at h0

/-- **The transition lemma.** -/
theorem Sound.step (h : Sound sc r₀ p) (e : Action) (hfresh : Fresh p e) :
    Sound sc r₀ (Tasks.step sc p e) := by
  cases e with
  | load sweeper now =>
    simp only [Tasks.step]
    obtain ⟨row, hrow, hp, hopen⟩ := h.row
    rw [hrow]
    simp only
    by_cases hloads : sc.loads sweeper now row = true
    · rw [if_pos hloads]
      have hunfinished : row.unfinished = true := by
        cases sweeper with
        | false => exact hloads
        | true =>
          have ht : timedOut sc.cfg now row = true := hloads
          simp only [timedOut, Bool.and_eq_true] at ht
          exact ht.1.2
      refine ⟨h.row, h.ends_le, ?_, ?_, h.payer.start hp, h.ready.start ?_, h.holds.start ?_,
        h.billed, h.cleared⟩
      · simpa [Worker.due] using h.bills_le
      · simpa [Worker.active] using h.active_le
      · exact fun hf => (hopen hf).1
      · exact fun h1 => absurd h1 (show (0 : ℤ) ≠ 1 by decide)
    · rw [if_neg hloads]
      exact h
  | begin i cmd =>
    simp only [Tasks.step]
    rcases p.resume_cases (Tasks.begin sc cmd) i with
      ⟨-, hr⟩ | ⟨before, c, after, hget, hcalls, hr⟩
    · rw [hr]
      exact h
    obtain ⟨b, calls⟩ := p
    subst hcalls
    rw [hr]
    unfold Tasks.begin
    by_cases hbegin : c.stage = .idle ∧ cmd.isSweep = c.sweeper
    · rw [if_pos hbegin]
      exact h.begin cmd hbegin.1 (hfresh c hget hbegin.1)
    · rw [if_neg hbegin]
      simpa using h
  | resume i ans =>
    simp only [Tasks.step]
    rcases p.resume_cases (Tasks.resume sc ans) i with
      ⟨-, hr⟩ | ⟨before, c, after, hget, hcalls, hr⟩
    · rw [hr]
      exact h
    obtain ⟨b, calls⟩ := p
    subst hcalls
    rw [hr]
    exact h.resume ans

/-! ### A final status stays -/

theorem Sound.resume_status (h : Sound sc r₀ ⟨b, before ++ c :: after⟩) (ans : TaskAnswer)
    {row : Task} (hrow : b.store.task sc.id = some row) (hfin : row.status.finished = true) :
    ∃ row', (Tasks.resume sc ans b c).1.store.task sc.id = some row' ∧
      row'.status = row.status := by
  have hmem : c ∈ before ++ c :: after := by simp
  have hid := h.copy_id hmem
  have hcases := Worker.advance_cases sc.setup ans b.store c
  simp only [Tasks.resume]
  generalize c.advance sc.setup ans b.store = r at hcases
  cases hcases with
  | unreported stage found same =>
    rw [← hid] at hrow ⊢
    rw [found] at hrow
    cases hrow
    exact ⟨_, TaskStore.task_put found, rfl⟩
  | @won fromStatus next row' stage found same =>
    -- the write expects a status that is not final
    rw [hid, hrow] at found
    cases found
    rw [same, h.write_open stage] at hfin
    exact absurd hfin Bool.false_ne_true
  | saved stage =>
    rw [← hid] at hrow ⊢
    exact ⟨_, TaskStore.task_updateQuota hrow, rfl⟩
  | idle stage | lost stage | settled stage settle | unpaid stage | funded stage ok
    | tokenFailed stage | charged stage ok | saveFailed stage => exact ⟨row, hrow, rfl⟩

theorem Sound.step_status (h : Sound sc r₀ p) (e : Action) {row : Task}
    (hrow : p.shared.store.task sc.id = some row) (hfin : row.status.finished = true) :
    ∃ row', (Tasks.step sc p e).shared.store.task sc.id = some row' ∧ row'.status = row.status := by
  cases e with
  | load sweeper now =>
    refine ⟨row, ?_, rfl⟩
    simp only [Tasks.step, hrow]
    split_ifs <;> exact hrow
  | begin i cmd =>
    refine ⟨row, ?_, rfl⟩
    simp only [Tasks.step]
    rcases p.resume_cases (Tasks.begin sc cmd) i with ⟨-, hr⟩ | ⟨before, c, after, -, -, hr⟩
    · rw [hr]
      exact hrow
    · rw [hr]
      unfold Tasks.begin
      split_ifs <;> exact hrow
  | resume i ans =>
    simp only [Tasks.step]
    rcases p.resume_cases (Tasks.resume sc ans) i with
      ⟨-, hr⟩ | ⟨before, c, after, hget, hcalls, hr⟩
    · rw [hr]
      exact ⟨row, hrow, rfl⟩
    obtain ⟨b, calls⟩ := p
    subst hcalls
    rw [hr]
    exact h.resume_status ans hrow hfin

end Sound

end NexusTok.Tasks
