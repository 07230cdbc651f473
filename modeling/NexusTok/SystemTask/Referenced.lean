import NexusTok.SystemTask.Runners

/-!
# Running tasks and their lock rows

A task that runs should be found again when its runner is gone: the lock of its type points to it,
so that the sweep or the next claim fails it and frees its active key.  `Referenced` says so.

It breaks wherever a lock row leaves a running task behind.  A takeover points the row to the new
task before the old one is failed, so every takeover of a running task breaks it for a while, and
for good if the claim then crashes, or fails and releases the lock.  A claim may also start its task
after the lock was lost, and may release the lock of a task it has just started.

* `referenced_iff` : a run keeps `Referenced` iff no statement leaves a running task behind.
-/

namespace NexusTok.SystemTasks

open List Bool

open Table (update mem_update mem_update_of_mem update_keys)

/-- Every running task has a lock of its type that points to it. -/
def Referenced (s : Store) : Prop :=
  ∀ t ∈ s.tasks, t.status = .running → ∃ l ∈ s.locks, l.type = t.type ∧ l.taskID = t.taskID

/-- The lock is that of the task, which runs. -/
def guards (l : SystemTaskLock) (t : SystemTask) : Bool :=
  decide (t.status = .running) && decide (t.type = l.type) && decide (t.taskID = l.taskID)

/-- None of the locks that go is the lock of a running task. -/
def spares (gone : SystemTaskLock → Bool) (s : Store) : Bool :=
  s.locks.all fun l => !gone l || s.tasks.all fun t => !guards l t

/-- The next statement of a call leaves no running task behind. -/
def keeps (s : Store) : Call → Bool
  | .claimTake c _ =>
    spares (fun l => decide (l.type = c.type) && decide (l.lockedUntil < c.now) &&
      decide (l.taskID ≠ c.taskID)) s
  | .claimRun c =>
    s.tasks.all fun t => !claimable c.id c.type t ||
      s.locks.any fun l => decide (l.type = t.type) && decide (l.taskID = t.taskID)
  | .claimRelease c =>
    spares (fun l => decide (l.taskID = c.taskID) && decide (l.lockedBy = c.runner)) s
  | .release taskID runner =>
    spares (fun l => decide (l.taskID = taskID) && decide (l.lockedBy = runner)) s
  | .expireDelete now lock _ =>
    spares (fun l => decide (l.type = lock.type) && decide (l.taskID = lock.taskID) &&
      decide (l.lockedBy = lock.lockedBy) && decide (l.lockedUntil < now)) s
  | _ => true

/-- The event leaves no running task behind. -/
def keepsAll (p : Pool Shared Call) : Event → Bool
  | .resume i ans =>
    match p.calls[i]? with
    | some c => ans.fails || keeps p.shared.store c
    | none => true
  | _ => true

/-! ### Statements -/

section Statements

variable {s : Store} {p : SystemTask → Bool} {f : SystemTask → SystemTask}

/-- A change of tasks that starts none. -/
theorem Referenced.tasks (h : Referenced s)
    (hf : ∀ t, p t = true → (f t).status = .running →
      t.status = .running ∧ (f t).type = t.type ∧ (f t).taskID = t.taskID) :
    Referenced { s with tasks := update p f s.tasks } := by
  intro t ht hrun
  obtain ⟨t', ht', ⟨hp, rfl⟩ | ⟨-, rfl⟩⟩ := mem_update ht
  · obtain ⟨hr, htype, hid⟩ := hf t' hp hrun
    rw [htype, hid]
    exact h t' ht' hr
  · exact h t ht' hrun

theorem Referenced.locks (h : Referenced s) {p : SystemTaskLock → Bool}
    {f : SystemTaskLock → SystemTaskLock}
    (hf : ∀ l, (f l).type = l.type ∧ (f l).taskID = l.taskID) :
    Referenced { s with locks := update p f s.locks } := by
  intro t ht hrun
  obtain ⟨l, hl, htype, hid⟩ := h t ht hrun
  refine ⟨_, mem_update_of_mem hl, ?_⟩
  split_ifs
  · rw [(hf l).1, (hf l).2]
    exact ⟨htype, hid⟩
  · exact ⟨htype, hid⟩

theorem spares_iff {gone : SystemTaskLock → Bool} :
    spares gone s = true ↔ ∀ l ∈ s.locks, gone l = true → ∀ t ∈ s.tasks, t.status = .running →
      t.type = l.type → t.taskID ≠ l.taskID := by
  simp only [spares, guards, all_eq_true, or_eq_true, not_eq_true',
    and_eq_false_iff, decide_eq_false_iff_not]
  constructor
  · intro h l hl hgone t ht hrun htype
    have hall := (h l hl).resolve_left (by simp [hgone])
    exact (hall t ht).resolve_left fun h => h.elim (fun h => h hrun) fun h => h htype
  · intro h l hl
    cases hgone : gone l with
    | false => exact .inl rfl
    | true =>
      refine .inr fun t ht => ?_
      by_cases hrun : t.status = .running
      · by_cases htype : t.type = l.type
        · exact .inr (h l hl hgone t ht hrun htype)
        · exact .inl (.inr htype)
      · exact .inl (.inl hrun)

/-- Locks go, none of them that of a running task. -/
theorem Referenced.delete (h : Referenced s) {gone : SystemTaskLock → Bool}
    (hgone : spares gone s = true) :
    Referenced { s with locks := s.locks.filter fun l => !gone l } := by
  intro t ht hrun
  obtain ⟨l, hl, htype, hid⟩ := h t ht hrun
  refine ⟨l, mem_filter.2 ⟨hl, ?_⟩, htype, hid⟩
  by_contra hne
  have hl' : gone l = true := by simpa using hne
  exact spares_iff.1 hgone l hl hl' t ht hrun htype.symm hid.symm

def OneLock (s : Store) : Prop := (s.locks.map SystemTaskLock.type).Nodup

theorem OneLock.unique (h : OneLock s) {l l' : SystemTaskLock} (hl : l ∈ s.locks)
    (hl' : l' ∈ s.locks) (htype : l.type = l'.type) : l = l' :=
  inj_on_of_nodup_map h hl hl' htype

/-- A lock of a running task that goes leaves the task behind. -/
theorem spares_of_referenced (hone : OneLock s) {gone : SystemTaskLock → Bool}
    (h : Referenced { s with locks := s.locks.filter fun l => !gone l }) :
    spares gone s = true := by
  refine spares_iff.2 fun l hl hgone t ht hrun htype _ => ?_
  obtain ⟨l', hl', htype', -⟩ := h t ht hrun
  obtain ⟨hl', hkept⟩ := mem_filter.1 hl'
  rw [hone.unique hl' hl (htype'.trans htype), hgone] at hkept
  exact false_ne_true hkept

/-- A takeover of a lock that is not that of a running task. -/
theorem Referenced.take (h : Referenced s) {c : Claim} {expired : String}
    (hk : keeps s (.claimTake c expired) = true) :
    Referenced (s.takeLock c.type c.taskID c.runner c.now c.lockUntil) := by
  intro t ht hrun
  obtain ⟨l, hl, htype, hid⟩ := h t ht hrun
  refine ⟨_, mem_update_of_mem hl, ?_⟩
  split_ifs with hstale
  · refine ⟨htype, ?_⟩
    by_contra hne
    refine spares_iff.1 hk l hl ?_ t ht hrun htype.symm hid.symm
    simp only [hstale, Bool.true_and, hid]
    exact decide_eq_true (Ne.symm hne)
  · exact ⟨htype, hid⟩

theorem keeps_of_take (hone : OneLock s) {c : Claim} {expired : String}
    (h : Referenced (s.takeLock c.type c.taskID c.runner c.now c.lockUntil)) :
    keeps s (.claimTake c expired) = true := by
  refine spares_iff.2 fun l hl hgone t ht hrun htype hid => ?_
  rw [and_eq_true] at hgone
  obtain ⟨l', hl', htype', hid'⟩ := h t ht hrun
  obtain ⟨r, hr, ⟨hp, rfl⟩ | ⟨hp, rfl⟩⟩ := mem_update hl'
  · -- the row points to the new task now
    exact of_decide_eq_true hgone.2 (hid.symm.trans hid'.symm)
  · rw [hone.unique hr hl (htype'.trans htype), hgone.1] at hp
    exact false_ne_true hp.symm

/-- A task starts while its lock points to it. -/
theorem Referenced.run (h : Referenced s) {c : Claim} (hk : keeps s (.claimRun c) = true) :
    Referenced (s.runTask c.id c.type c.runner c.now) := by
  intro t ht hrun
  obtain ⟨t', ht', ⟨hp, rfl⟩ | ⟨-, rfl⟩⟩ := mem_update ht
  · have ht' := all_eq_true.1 hk t' ht'
    rw [hp, Bool.not_true, Bool.false_or] at ht'
    obtain ⟨l, hl, hlock⟩ := any_eq_true.1 ht'
    simp only [and_eq_true, decide_eq_true_eq] at hlock
    exact ⟨l, hl, hlock⟩
  · exact h t ht' hrun

theorem keeps_of_run {c : Claim} (h : Referenced (s.runTask c.id c.type c.runner c.now)) :
    keeps s (.claimRun c) = true := by
  refine all_eq_true.2 fun t ht => ?_
  cases hp : claimable c.id c.type t with
  | false => rfl
  | true =>
    have ht' : t.run c.runner c.now ∈ (s.runTask c.id c.type c.runner c.now).tasks := by
      have := mem_update_of_mem (p := claimable c.id c.type) (f := SystemTask.run c.runner c.now) ht
      rw [if_pos hp] at this
      exact this
    obtain ⟨l, hl, htype, hid⟩ := h _ ht' rfl
    have htype : l.type = t.type := htype
    have hid : l.taskID = t.taskID := hid
    refine any_eq_true.2 ⟨l, hl, ?_⟩
    rw [decide_eq_true htype, decide_eq_true hid]
    rfl

end Statements

/-! ### Calls -/

/-- What a run keeps besides. -/
structure Attached (p : Pool Shared Call) : Prop where
  referenced : Referenced p.shared.store
  one : OneLock p.shared.store

theorem OneLock.update {s : Store} (h : OneLock s) {p : SystemTaskLock → Bool}
    {f : SystemTaskLock → SystemTaskLock} (hf : ∀ l, (f l).type = l.type) :
    OneLock { s with locks := update p f s.locks } := by
  show ((Table.update p f s.locks).map SystemTaskLock.type).Nodup
  rw [update_keys hf]
  exact h

theorem OneLock.delete {s : Store} (h : OneLock s) (keep : SystemTaskLock → Bool) :
    OneLock { s with locks := s.locks.filter keep } :=
  (filter_sublist.map _).nodup h

theorem OneLock.insert {s s' : Store} (h : OneLock s) {l : SystemTaskLock}
    (hi : s.insertLock l = some s') :
    OneLock s' ∧ s' = { s with locks := s.locks ++ [l] } ∧ ∀ l' ∈ s.locks, l'.type ≠ l.type := by
  unfold Store.insertLock at hi
  split_ifs at hi with hany
  cases hi
  have hfree : ∀ l' ∈ s.locks, l'.type ≠ l.type := by
    intro l' hl' htype
    exact hany (any_eq_true.2 ⟨l', hl', decide_eq_true htype⟩)
  refine ⟨?_, rfl, hfree⟩
  show ((s.locks ++ [l]).map SystemTaskLock.type).Nodup
  rw [map_append, nodup_append]
  refine ⟨h, nodup_singleton _, ?_⟩
  intro x hx y hy
  obtain ⟨l', hl', rfl⟩ := mem_map.1 hx
  rw [mem_singleton.1 hy]
  exact hfree l' hl'

/-- A statement that fails changes nothing. -/
theorem act_fails {s : Store} {ans : Answer} (hf : ans.fails = true) (clock : ℤ) (c : Call) :
    (act clock ans s c).store = s := by
  cases c <;> simp only [act, hf, if_true, Bool.true_or]

theorem transfer_referenced {s : Store} (h : Referenced s) (hone : OneLock s) (reported : Bool)
    (taskID type fromRunner toRunner : String) (now lockUntil : ℤ) :
    OneLock (s.transferLock reported taskID type fromRunner toRunner now lockUntil).2 ∧
      Referenced (s.transferLock reported taskID type fromRunner toRunner now lockUntil).2 := by
  unfold Store.transferLock
  simp only
  split_ifs
  · have hlocks : Referenced { s with locks := update (fun l =>
        Store.renewable taskID fromRunner now l && decide (l.type = type)) (fun l =>
          { l with lockedBy := toRunner, lockedUntil := lockUntil, updatedAt := now }) s.locks } :=
      h.locks fun l => ⟨rfl, rfl⟩
    refine ⟨hone.update (s := s) fun _ => rfl, hlocks.tasks fun t _ hrun => ⟨hrun, rfl, rfl⟩⟩
  · exact ⟨hone, h⟩

/-- **One statement.**  It keeps `Referenced` iff it leaves no running task behind. -/
theorem act_referenced {s : Store} (h : Referenced s) (hone : OneLock s) (clock : ℤ) (ans : Answer)
    (c : Call) :
    OneLock (act clock ans s c).store ∧
      (Referenced (act clock ans s c).store ↔ (ans.fails || keeps s c) = true) := by
  by_cases hf : ans.fails = true
  · rw [act_fails hf, hf, Bool.true_or]
    exact ⟨hone, iff_of_true h rfl⟩
  rw [Bool.eq_false_iff.2 hf, Bool.false_or]
  have hsame : OneLock s ∧ (Referenced s ↔ true = true) := ⟨hone, iff_of_true h rfl⟩
  cases c with
  | claimRead c =>
    simp only [act, if_neg hf]
    split <;> exact hsame
  | claimInsert c =>
    simp only [act, if_neg hf]
    cases hi : s.insertLock ⟨c.type, c.taskID, c.runner, c.lockUntil, c.now⟩ with
    | none => exact hsame
    | some s' =>
      obtain ⟨hone', rfl, -⟩ := hone.insert hi
      refine ⟨hone', iff_of_true (fun t ht hrun => ?_) rfl⟩
      obtain ⟨l, hl, hlock⟩ := h t ht hrun
      exact ⟨l, mem_append_left _ hl, hlock⟩
  | claimFind c =>
    simp only [act, if_neg hf]
    split
    · exact hsame
    · split_ifs <;> exact hsame
  | claimTake c expired =>
    simp only [act, if_neg hf]
    split_ifs with hany
    · exact ⟨hone.update fun _ => rfl, keeps_of_take hone, h.take⟩
    · refine ⟨hone, iff_of_true h ?_⟩
      refine spares_iff.2 fun l hl hgone t _ _ _ _ => ?_
      rw [Bool.and_eq_true] at hgone
      -- a lock that points elsewhere would have changed
      refine hany ?_
      rw [Bool.and_eq_true, Bool.or_eq_true]
      refine ⟨any_eq_true.2 ⟨l, hl, hgone.1⟩, .inl (decide_eq_true fun heq => ?_)⟩
      have hnew := mem_update_of_mem (p := fun l => decide (l.type = c.type) &&
        decide (l.lockedUntil < c.now)) (f := fun l =>
          (⟨l.type, c.taskID, c.runner, c.lockUntil, c.now⟩ : SystemTaskLock)) hl
      rw [if_pos hgone.1] at hnew
      have hmem : (⟨l.type, c.taskID, c.runner, c.lockUntil, c.now⟩ : SystemTaskLock) ∈ s.locks := by
        rw [← heq]
        exact hnew
      have hsame := hone.unique hl hmem rfl
      exact of_decide_eq_true hgone.2 (congrArg SystemTaskLock.taskID hsame)
  | claimMark | expireMark =>
    simp only [act, if_neg hf]
    exact ⟨hone, iff_of_true (h.tasks fun t _ hrun => by cases hrun) rfl⟩
  | claimRun c =>
    simp only [act, if_neg hf]
    split_ifs with hany
    · exact ⟨hone, keeps_of_run, h.run⟩
    · refine ⟨hone, iff_of_true h ?_⟩
      refine all_eq_true.2 fun t ht => ?_
      rw [Bool.eq_false_iff.2 fun hp => hany (any_eq_true.2 ⟨t, ht, hp⟩)]
      rfl
  | claimLoad c =>
    simp only [act]
    split_ifs <;> exact hsame
  | claimRelease | release | expireDelete =>
    simp only [act, if_neg hf]
    exact ⟨hone.delete _, spares_of_referenced hone, h.delete⟩
  | write field taskID runner text now =>
    simp only [act, if_neg hf]
    have hwrite : OneLock (s.writeTask field taskID runner text now) ∧
        (Referenced (s.writeTask field taskID runner text now) ↔ true = true) := by
      unfold Store.writeTask
      split_ifs
      · refine ⟨hone, iff_of_true (h.tasks fun t _ hrun => ?_) rfl⟩
        cases field <;> exact ⟨hrun, rfl, rfl⟩
      · exact hsame
    split_ifs
    · exact hwrite
    · exact hsame
  | count | expireFind =>
    simp only [act, if_neg hf]
    exact hsame
  | renew taskID runner lockUntil now =>
    simp only [act, if_neg hf]
    exact ⟨hone.update fun _ => rfl, iff_of_true (h.locks fun _ => ⟨rfl, rfl⟩) rfl⟩
  | transfer taskID type fromRunner toRunner lockUntil now =>
    simp only [act, if_neg hf]
    have ht := transfer_referenced h hone ans.reported taskID type fromRunner toRunner now lockUntil
    cases hs : s.transferLock ans.reported taskID type fromRunner toRunner now lockUntil with
    | mk ok s' =>
      rw [hs] at ht
      cases ok <;> exact ⟨ht.1, iff_of_true ht.2 rfl⟩
  | finish taskID runner status result error now =>
    simp only [act, if_neg hf]
    split_ifs
    · unfold Store.finishTask
      split_ifs
      · refine ⟨hone, iff_of_true (h.tasks fun t hp hrun => ⟨?_, rfl, rfl⟩) rfl⟩
        simp only [runs, Bool.and_eq_true, decide_eq_true_eq] at hp
        exact hp.1.2
      · exact hsame
    · exact hsame

/-! ### Runs -/

theorem create_referenced {s : Store} (h : Referenced s) (hone : OneLock s) (id : ℤ)
    (key type activeKey payload state : String) (clock : ℤ) :
    OneLock (create id key type activeKey payload state clock s) ∧
      Referenced (create id key type activeKey payload state clock s) := by
  obtain heq | ⟨t₀, hpending, -, -, heq⟩ :=
    create_cases id key type activeKey payload state clock s
  · rw [heq]
    exact ⟨hone, h⟩
  rw [heq]
  refine ⟨hone, fun t ht hrun => ?_⟩
  obtain ht | ht := mem_append.1 ht
  · exact h t ht hrun
  · rw [mem_singleton.1 ht, hpending] at hrun
    cases hrun

theorem Attached.step {p : Pool Shared Call} (h : Attached p) (e : Event) :
    OneLock (step p e).shared.store ∧
      (Referenced (step p e).shared.store ↔ keepsAll p e = true) := by
  have hsame : OneLock p.shared.store ∧ (Referenced p.shared.store ↔ true = true) :=
    ⟨h.one, iff_of_true h.referenced rfl⟩
  cases e with
  | create id key type activeKey payload state =>
    obtain ⟨hone, href⟩ := create_referenced h.referenced h.one id key type activeKey payload state
      p.shared.clock
    exact ⟨hone, iff_of_true href rfl⟩
  | begin op =>
    simp only [SystemTasks.step]
    cases op.call p.shared.clock with
    | none | some => exact hsame
  | resume i ans =>
    simp only [SystemTasks.step, keepsAll]
    obtain ⟨hnone, heq⟩ | ⟨before, c, after, hc, -, heq⟩ := p.resume_cases (resumeCall ans) i
    · rw [heq, hnone]
      exact hsame
    · rw [heq, hc]
      exact act_referenced h.referenced h.one p.shared.clock ans c
  | crash i =>
    simp only [SystemTasks.step]
    obtain ⟨-, heq⟩ | ⟨before, c, after, -, -, heq⟩ :=
      p.resume_cases (fun (sh : Shared) (_ : Call) => (sh, none)) i
    · rw [heq]
      exact hsame
    · rw [heq]
      exact hsame
  | tick d => exact hsame

/-- **A run keeps every running task referenced iff none of its statements leaves one behind.** -/
theorem referenced_iff (clock : ℤ) (es : List Event) :
    Machine.Always step (fun p => Referenced p.shared.store) (fresh clock) es ↔
      Machine.Meets step (fun p e => keepsAll p e = true) (fresh clock) es := by
  refine Machine.always_iff_meets (J := Attached) (fun p h => h.referenced) ?_ ?_ ?_
  · intro p e h hk
    exact ⟨(h.step e).2.2 hk, (h.step e).1⟩
  · intro p e h href
    exact (h.step e).2.1 href
  · exact ⟨fun t ht => absurd ht List.not_mem_nil, List.nodup_nil⟩

def ok : Answer := ⟨false, true⟩

/-- The lease of a running task has expired; the runner that takes the lock over crashes before it
has failed that task.  Later the sweep removes the lock. -/
def abandoned : List Event :=
  [.create 1 "a" "upstream_sync" "upstream_sync:1" "" "",
    .create 2 "b" "upstream_sync" "upstream_sync:2" "" "",
    .begin (.claim 1 "upstream_sync" "r1" 60), .resume 0 ok, .resume 0 ok, .resume 0 ok,
    .resume 0 ok, .tick 100,
    .begin (.claim 2 "upstream_sync" "r2" 160), .resume 0 ok, .resume 0 ok, .resume 0 ok,
    .resume 0 ok, .crash 0, .tick 100,
    .begin .expire, .resume 0 ok, .resume 0 ok, .resume 0 ok]

/-- **A running task is left without a lock row**, with its active key, and nobody is at work. -/
theorem abandoned_unreferenced :
    ((Machine.run step (fresh 0) abandoned).shared.store.tasks.map fun t =>
        (t.taskID, t.status, t.activeKey)) =
      [("systask_a", .running, some "upstream_sync:1"),
        ("systask_b", .pending, some "upstream_sync:2")] ∧
      (Machine.run step (fresh 0) abandoned).shared.store.locks = [] ∧
      (Machine.run step (fresh 0) abandoned).calls = [] ∧
      ¬ Machine.Always step (fun p => Referenced p.shared.store) (fresh 0) abandoned := by
  refine ⟨by decide, by decide, by decide, fun h => ?_⟩
  have hrun : ∃ t ∈ (Machine.run step (fresh 0) abandoned).shared.store.tasks,
      t.status = .running := by decide
  obtain ⟨t, ht, hrunning⟩ := hrun
  obtain ⟨l, hl, -⟩ := h.run t ht hrunning
  rw [show (Machine.run step (fresh 0) abandoned).shared.store.locks = [] by decide] at hl
  exact absurd hl List.not_mem_nil

end NexusTok.SystemTasks
