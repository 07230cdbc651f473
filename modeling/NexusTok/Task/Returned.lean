import NexusTok.Task.Pass

/-!
# Failed tasks get their quota back

A pass should fail a task only together with giving back what it was charged, or with settling it
by its usage; legacy tasks are excepted.  `Returned` says so of a state: every task that has failed
had failed before the pass, is a legacy task, or is `Closed`.

The updates of many rows break it: they change the status and nothing else, and a failed task is
never loaded again.  So does a usage settlement that is negative or that the funding source refuses,
for then no refund is made either.  `spared` says of an event that none of this happens.

* `returned_iff_spared` : a pass keeps `Returned` iff all its events are spared.
-/

namespace NexusTok.Pass

open List Table

section Spec

variable (setup : Setup) (cfg : PollConfig) (limit : ℕ) (begun : TaskStore)

/-- The task had failed before the pass, or is a legacy task. -/
def exempt (id : ℤ) : Bool :=
  (begun.task id).any fun row => decide (row.status = .failure) || row.isLegacy

/-- Every task that has failed was given back its quota, or was settled. -/
def Returned (p : State) : Prop :=
  ∀ id row, p.store.task id = some row → row.status = .failure →
    exempt begun id = true ∨ Closed row.quota (history id p.journal)

/-- An update of many rows fails no task that is charged. -/
def spares (s : TaskStore) (ids : List ℤ) : Bool :=
  ids.all fun id => exempt begun id ||
    (s.task id).all fun row => decide (row.status = .failure) || decide (row.quota = 0)

/-- The event fails no task that is charged, or its charge is given back or settled. -/
def spared (p : State) (e : Event) : Bool :=
  match plan cfg limit p e with
  | .go _ => true
  | .bulk ids _ _ => spares begun p.store ids
  | .call task cmd course _ =>
    exempt begun task.id || Worker.sparing setup course p.store (worker cfg cmd task)

end Spec

/-! ### The copies of a pass -/

/-- The copies a phase holds. -/
def Phase.copies : Phase → List Task
  | .begin => []
  | .sweeping _ tasks => tasks
  | .polling w => w.rest ++ w.taskM.map Prod.snd

/-- What is known of the copies: they are of different rows, and agree with them on the charge. -/
structure Copies (begun s : TaskStore) (phase : Phase) : Prop where
  found : ∀ c ∈ phase.copies, ∃ row, s.task c.id = some row ∧ row.quota = c.quota
  distinct : (phase.copies.map Task.id).Nodup
  keys : ∀ w, phase = .polling w → (w.taskM.map Prod.fst).Nodup
  fresh : ∀ now tasks, phase = .sweeping now tasks → ∀ c ∈ tasks, begun.task c.id = some c
  start : phase = .begin → s = begun

section Copies

variable {begun s : TaskStore} {w w' : Polling}

theorem foldl_addTask (tasks : List Task) {m : TaskMap}
    (hids : ((m.map fun e => e.2.id) ++ tasks.map Task.id).Nodup)
    (hkeys : (m.map Prod.fst).Nodup) :
    (∀ e ∈ tasks.foldl addTask m, e ∈ m ∨ e.2 ∈ tasks) ∧
      ((tasks.foldl addTask m).map fun e => e.2.id).Nodup ∧
      ((tasks.foldl addTask m).map Prod.fst).Nodup := by
  induction tasks generalizing m with
  | nil => exact ⟨fun e he => .inl he, by simpa using hids, hkeys⟩
  | cons task tasks ih =>
    have hsub : (m.filter fun e => decide (e.1 ≠ task.getUpstreamTaskID)).Sublist m :=
      filter_sublist
    have hids' : (((addTask m task).map fun e => e.2.id) ++ tasks.map Task.id).Nodup := by
      rw [addTask, map_append, append_assoc]
      exact ((hsub.map _).append (List.Sublist.refl _)).nodup hids
    have hkeys' : ((addTask m task).map Prod.fst).Nodup := by
      rw [addTask, map_append, nodup_append]
      refine ⟨(hsub.map _).nodup hkeys, nodup_singleton _, ?_⟩
      intro k hk k' hk'
      obtain ⟨e, he, rfl⟩ := mem_map.1 hk
      rw [mem_singleton.1 hk']
      exact of_decide_eq_true (mem_filter.1 he).2
    obtain ⟨hmem, hn, hk⟩ := ih hids' hkeys'
    refine ⟨fun e he => ?_, hn, hk⟩
    obtain h | h := hmem e he
    · obtain h | h := mem_append.1 h
      · exact .inl (mem_filter.1 h).1
      · rw [mem_singleton.1 h]
        exact .inr mem_cons_self
    · exact .inr (mem_cons_of_mem _ h)

theorem Copies.polling
    (hfound : ∀ c ∈ w.rest ++ w.taskM.map Prod.snd, ∃ row, s.task c.id = some row ∧
      row.quota = c.quota)
    (hdistinct : ((w.rest ++ w.taskM.map Prod.snd).map Task.id).Nodup)
    (hkeys : (w.taskM.map Prod.fst).Nodup) : Copies begun s (.polling w) where
  found := hfound
  distinct := hdistinct
  keys := by
    rintro _ ⟨⟩
    exact hkeys
  fresh := by
    intro _ _ h
    cases h
  start := by
    intro h
    cases h

section

variable (h : Copies begun s (.polling w))
include h

/-- Another table, in which the rows of the copies have kept their charge. -/
theorem Copies.store {phase : Phase} {s' : TaskStore}
    (hphase : phase = .polling w) (hs' : ∀ id row, s.task id = some row →
      ∃ row', s'.task id = some row' ∧ row'.quota = row.quota) : Copies begun s' phase := by
  subst hphase
  refine .polling (fun c hc => ?_) h.distinct (h.keys w rfl)
  obtain ⟨row, hrow, hq⟩ := h.found c hc
  obtain ⟨row', hrow', hq'⟩ := hs' _ row hrow
  exact ⟨row', hrow', hq'.trans hq⟩

theorem Copies.lanes (hrest : w'.rest = w.rest)
    (htaskM : w'.taskM = w.taskM) : Copies begun s (.polling w') := by
  have hcopies : w'.rest ++ w'.taskM.map Prod.snd = w.rest ++ w.taskM.map Prod.snd := by
    rw [hrest, htaskM]
  refine .polling ?_ ?_ ?_
  · rw [hcopies]
    exact h.found
  · rw [hcopies]
    exact h.distinct
  · rw [htaskM]
    exact h.keys w rfl

/-- The loop turns to another platform. -/
theorem Copies.dispatch (platform : TaskPlatform)
    (batch : Bool) : Copies begun s (.polling (w.dispatch platform batch)) := by
  have hrest : (w.rest.map Task.id).Nodup := by
    refine List.Sublist.nodup ?_ h.distinct
    rw [Phase.copies, map_append]
    exact sublist_append_left _ _
  have hknown : ∀ t ∈ w.known platform, t ∈ w.rest ∧ t.platform = platform := by
    intro t ht
    have ht' := mem_filter.1 (mem_filter.1 ht).1
    exact ⟨ht'.1, of_decide_eq_true ht'.2⟩
  have hsub : (w.known platform).Sublist w.rest := filter_sublist.trans filter_sublist
  obtain ⟨hmem, hn, hk⟩ := foldl_addTask (w.known platform) (m := [])
    (by simpa using (hsub.map Task.id).nodup hrest) nodup_nil
  have hvalues : ∀ e ∈ (w.dispatch platform batch).taskM, e.2 ∈ w.known platform := by
    intro e he
    exact (hmem e he).resolve_left not_mem_nil
  refine .polling (fun c hc => ?_) ?_ hk
  · refine h.found c (mem_append_left _ ?_)
    obtain hc | hc := mem_append.1 hc
    · exact (mem_filter.1 hc).1
    · obtain ⟨e, he, rfl⟩ := mem_map.1 hc
      exact (hknown _ (hvalues e he)).1
  · rw [map_append, nodup_append]
    refine ⟨(filter_sublist.map _).nodup hrest, ?_, ?_⟩
    · rw [map_map]
      exact hn
    · -- a task has one platform
      intro i hi j hj hij
      obtain ⟨c, hc, rfl⟩ := mem_map.1 hi
      obtain ⟨c', hc', rfl⟩ := mem_map.1 hj
      obtain ⟨e, he, rfl⟩ := mem_map.1 hc'
      have hc := mem_filter.1 hc
      have he := hknown _ (hvalues e he)
      have hsame : c = e.2 := inj_on_of_nodup_map hrest hc.1 he.1 hij
      exact of_decide_eq_true hc.2 (by rw [hsame]; exact he.2)

theorem Copies.call {upstreamID : String} {e : String × Task}
    (hget : Table.get Prod.fst upstreamID w.taskM = some e) (hrest : w'.rest = w.rest)
    {s' : TaskStore} {c row' : Task} (hid : c.id = e.2.id)
    (hothers : ∀ id, id ≠ e.2.id → s'.task id = s.task id)
    (hrow : s'.task e.2.id = some row') (hq : row'.quota = c.quota) :
    Copies begun s' (.polling
      { w' with taskM := Table.put Prod.fst (upstreamID, c) w.taskM }) := by
  have he := get_mem hget
  have hput : Table.put Prod.fst (upstreamID, c) w.taskM =
      w.taskM.map fun x => if x = e then (upstreamID, c) else x :=
    put_eq_map (h.keys w rfl) he (get_key hget).symm
  have hids : (Table.put Prod.fst (upstreamID, c) w.taskM).map (fun x => x.2.id) =
      w.taskM.map fun x => x.2.id := by
    rw [hput, map_map]
    refine map_congr_left fun x _ => ?_
    by_cases hx : x = e
    · simp [hx, hid]
    · simp [hx]
  have hdistinct := h.distinct
  rw [Phase.copies, map_append, map_map] at hdistinct
  refine .polling (fun c' hc' => ?_) ?_ ?_
  · -- the other copies are of other rows
    have hkept : ∀ x ∈ w.rest ++ w.taskM.map Prod.snd, x.id ≠ e.2.id →
        ∃ row, s'.task x.id = some row ∧ row.quota = x.quota := by
      intro x hx hne
      rw [hothers _ hne]
      exact h.found x hx
    simp only [hrest] at hc'
    obtain hc' | hc' := mem_append.1 hc'
    · refine hkept c' (mem_append_left _ hc') fun hsame => ?_
      exact (nodup_append.1 hdistinct).2.2 _ (mem_map_of_mem hc') _
        (mem_map_of_mem (f := Task.id ∘ Prod.snd) he) hsame
    · rw [hput, map_map] at hc'
      obtain ⟨x, hx, rfl⟩ := mem_map.1 hc'
      by_cases hxe : x = e
      · simp only [Function.comp_apply, if_pos hxe, hid]
        exact ⟨row', hrow, hq⟩
      · simp only [Function.comp_apply, if_neg hxe]
        refine hkept x.2 (mem_append_right _ (mem_map_of_mem hx)) fun hsame => ?_
        exact hxe (inj_on_of_nodup_map (nodup_append.1 hdistinct).2.1 hx he hsame)
  · simp only [hrest, map_append, map_map]
    rw [show (Table.put Prod.fst (upstreamID, c) w.taskM).map (Task.id ∘ Prod.snd) =
      w.taskM.map (Task.id ∘ Prod.snd) from hids]
    exact hdistinct
  · rw [keys_put]
    exact h.keys w rfl

end

end Copies

/-! ### The invariant -/

/-- What a pass keeps. -/
structure Sound (begun : TaskStore) (p : State) : Prop where
  returned : Returned begun p
  keys : p.store.tasks.map Task.id = begun.tasks.map Task.id
  copies : Copies begun p.store p.phase

section Step

variable {setup : Setup} {cfg : PollConfig} {limit : ℕ} {begun : TaskStore} {p : State}

theorem Sound.start (begun : TaskStore) : Sound begun (start begun) where
  returned := by
    intro id row hrow hf
    refine .inl ?_
    have hrow : begun.task id = some row := hrow
    simp [exempt, hrow, hf]
  keys := rfl
  copies := by
    refine ⟨fun c hc => absurd hc not_mem_nil, nodup_nil, ?_, ?_, fun _ => rfl⟩
    · intro w hw
      cases hw
    · intro now tasks hw
      cases hw

/-- Rows that keep their status, their charge and their history. -/
theorem Sound.go (h : Sound begun p) {phase : Phase} (hc : Copies begun p.store phase) :
    Sound begun { p with phase := phase } :=
  ⟨h.returned, h.keys, hc⟩

theorem bulk_row {ids : List ℤ} {failReason : Option String} {s : TaskStore} {id : ℤ} {row' : Task}
    (h : (s.taskBulkUpdateByID ids failReason).task id = some row') :
    ∃ row, s.task id = some row ∧ row'.quota = row.quota ∧
      (id ∈ ids → row'.status = .failure) ∧ (id ∉ ids → row' = row) := by
  rw [TaskStore.task_bulk, Option.map_eq_some_iff] at h
  obtain ⟨row, hrow, rfl⟩ := h
  refine ⟨row, hrow, ?_, ?_, ?_⟩
  · split_ifs <;> rfl
  · intro hid
    rw [if_pos hid]
    rfl
  · intro hid
    rw [if_neg hid]

theorem bulk_keys (ids : List ℤ) (failReason : Option String) (s : TaskStore) :
    (s.taskBulkUpdateByID ids failReason).tasks.map Task.id = s.tasks.map Task.id := by
  unfold TaskStore.taskBulkUpdateByID
  split_ifs
  · rfl
  · simp only [map_map]
    refine map_congr_left fun row _ => ?_
    simp only [Function.comp_apply]
    split_ifs <;> rfl

variable {ids : List ℤ} {failReason : Option String} {phase : Phase}

theorem history_bulk (hn : (p.store.tasks.map Task.id).Nodup) {id : ℤ} {row : Task}
    (hrow : p.store.task id = some row) :
    history id (bulkNotes ids p.store.tasks ++ p.journal) =
      (if id ∈ ids ∧ row.status ≠ .failure then [.moved row.status .failure row.quota] else []) ++
        history id p.journal := by
  rw [history_append, history_bulkNotes id ids hn]
  rw [TaskStore.task] at hrow
  rw [hrow]

/-- **An update of many rows**, if it fails no task that is charged. -/
theorem Sound.bulk (h : Sound begun p) (hn : (begun.tasks.map Task.id).Nodup)
    (hspared : spares begun p.store ids = true)
    (hc : Copies begun (p.store.taskBulkUpdateByID ids failReason) phase) :
    Sound begun ⟨p.store.taskBulkUpdateByID ids failReason,
      bulkNotes ids p.store.tasks ++ p.journal, phase⟩ where
  returned := by
    intro id row' hrow' hf
    obtain ⟨row, hrow, hq, -, hout⟩ := bulk_row hrow'
    rw [history_bulk (by rw [h.keys]; exact hn) hrow, hq]
    by_cases hnew : id ∈ ids ∧ row.status ≠ .failure
    · rw [if_pos hnew]
      have hid := all_eq_true.1 hspared id hnew.1
      rw [hrow, Option.all_some, Bool.or_eq_true] at hid
      obtain hex | hrest := hid
      · exact .inl hex
      · refine .inr ?_
        simp only [Bool.or_eq_true, decide_eq_true_eq] at hrest
        exact ⟨hrest.resolve_left hnew.2, hrest.resolve_left hnew.2⟩
    · rw [if_neg hnew, nil_append]
      refine h.returned id row hrow ?_
      by_cases hid : id ∈ ids
      · by_contra hne
        exact hnew ⟨hid, hne⟩
      · rw [← hout hid]
        exact hf
  keys := (bulk_keys ids failReason p.store).trans h.keys
  copies := hc

/-- A task that is charged and failed by an update of many rows is not given back its quota. -/
theorem spares_of_returned (hn : (p.store.tasks.map Task.id).Nodup)
    (h : Returned begun ⟨p.store.taskBulkUpdateByID ids failReason,
      bulkNotes ids p.store.tasks ++ p.journal, phase⟩) :
    spares begun p.store ids = true := by
  refine all_eq_true.2 fun id hid => ?_
  cases hrow : p.store.task id with
  | none => simp
  | some row =>
    by_cases hst : row.status = .failure
    · simp [hst]
    have hrow' : (p.store.taskBulkUpdateByID ids failReason).task id =
        some (TaskStore.bulkFailed failReason row) := by
      rw [TaskStore.task_bulk, hrow, Option.map_some, if_pos hid]
    obtain hex | hclosed := h id _ hrow' rfl
    · simp [hex]
    · rw [history_bulk hn hrow, if_pos ⟨hid, hst⟩] at hclosed
      have hz : row.quota = 0 := hclosed.1
      simp [hz]

/-! ### Calls -/

variable {task row : Task} {cmd : Command} {course : Worker.Course}

/-- The state after a call. -/
def called (setup : Setup) (cfg : PollConfig) (p : State) (task : Task) (cmd : Command)
    (course : Worker.Course) (phase : Phase) : State :=
  ⟨((worker cfg cmd task).finish setup course 5 p.store).store,
    (((worker cfg cmd task).finish setup course 5 p.store).events.map fun e => ⟨task.id, e⟩) ++
      p.journal, phase⟩

theorem worker_id (cfg : PollConfig) (cmd : Command) (task : Task) :
    (worker cfg cmd task).copy.id = task.id := by
  have hstart := Command.started cfg cmd task
  show (cmd.start cfg task).1.id = task.id
  generalize cmd.start cfg task = x at hstart
  cases hstart with
  | skip kept same => exact Task.payer_id kept.payer
  | note kept same => exact Task.payer_id kept.payer
  | finish kept ended info => exact Task.payer_id kept.payer
  | again kept ended same info => exact Task.payer_id kept.payer
  | settle kept ended same info => exact Task.payer_id kept.payer
  | timeout payer quota failed => exact Task.payer_id payer

theorem Returned.others (h : Returned begun p) {row' : Task}
    (hran : Worker.Ran p.store task.id ((worker cfg cmd task).finish setup course 5 p.store) row')
    {id : ℤ} {row : Task} (hid : id ≠ task.id)
    (hrow : (called setup cfg p task cmd course phase).store.task id = some row)
    (hf : row.status = .failure) : exempt begun id = true ∨
      Closed row.quota (history id (called setup cfg p task cmd course phase).journal) := by
  rw [called, history_call, if_neg hid]
  exact h id row ((hran.others id hid).symm.trans hrow) hf

/-- **A call that is spared.** -/
theorem Returned.call (h : Returned begun p) (hrow : p.store.task task.id = some row)
    (hends : Worker.Ends setup course p.store (worker cfg cmd task) row)
    (hspared : (exempt begun task.id ||
      Worker.sparing setup course p.store (worker cfg cmd task)) = true) :
    Returned begun (called setup cfg p task cmd course phase) := by
  obtain ⟨row', hran, hout, -⟩ := hends
  rw [worker_id] at hran
  intro id row₁ hrow₁ hf
  by_cases hid : id = task.id
  · subst hid
    cases hran.found.symm.trans hrow₁
    rw [called, history_call, if_pos rfl]
    cases hout with
    | kept status closed ok =>
      obtain hex | hclosed := h _ row hrow (status.symm.trans hf)
      · exact .inl hex
      · exact .inr (closed _ hclosed)
    | moved status ok => exact absurd hf status
    | failed before after closed =>
      obtain hex | hsp := Bool.or_eq_true_iff.1 hspared
      · exact .inl hex
      · exact .inr ((closed _).2 hsp)
  · exact h.others hran hid hrow₁ hf

theorem spared_of_call (hends : Worker.Ends setup course p.store (worker cfg cmd task) row)
    (h : Returned begun (called setup cfg p task cmd course phase)) :
    (exempt begun task.id ||
      Worker.sparing setup course p.store (worker cfg cmd task)) = true := by
  obtain ⟨row', hran, hout, -⟩ := hends
  rw [worker_id] at hran
  cases hout with
  | kept status closed ok => rw [ok, Bool.or_true]
  | moved status ok => rw [ok, Bool.or_true]
  | failed before after closed =>
    have hret := h task.id row' hran.found after
    rw [called, history_call, if_pos rfl] at hret
    obtain hex | hclosed := hret
    · rw [hex, Bool.true_or]
    · rw [(closed _).1 hclosed, Bool.or_true]

theorem refunds_ok
    (hok : ∀ r ∈ (called setup cfg p task cmd course phase).journal, r.event.refundFails = false) :
    ∀ e ∈ ((worker cfg cmd task).finish setup course 5 p.store).events, e.refundFails = false := by
  intro e he
  exact hok ⟨task.id, e⟩ (mem_append_left _ (mem_map_of_mem he))

/-- **A poll**, run to its end. -/
theorem poll_ends (hpolls : cmd.isSweep = false) (hrow : p.store.task task.id = some row)
    (hq : row.quota = task.quota)
    (hok : ∀ r ∈ (called setup cfg p task cmd course phase).journal, r.event.refundFails = false) :
    Worker.Ends setup course p.store (worker cfg cmd task) row :=
  Worker.ends_poll (w := worker cfg cmd task) (Command.started cfg cmd task)
    ((Command.sweeps cfg cmd task).trans hpolls) hrow hq (refunds_ok hok)

/-- **The sweep of one task.** -/
theorem Sound.sweep (h : Sound begun p) {now : ℤ} {tasks : List Task}
    (hphase : p.phase = .sweeping now (task :: tasks))
    (hok : ∀ r ∈ (called setup cfg p task (.timeout now) course (.sweeping now tasks)).journal,
      r.event.refundFails = false) :
    Sound begun (called setup cfg p task (.timeout now) course (.sweeping now tasks)) := by
  have hcopies := h.copies
  rw [hphase] at hcopies
  obtain ⟨row, hrow, hq⟩ := hcopies.found task mem_cons_self
  have hfresh := hcopies.fresh now _ rfl
  have hrow' : p.store.task (worker cfg (.timeout now) task).copy.id = some row := by
    rw [worker_id]
    exact hrow
  obtain ⟨row', hran, hret⟩ : ∃ row',
      Worker.Ran p.store task.id ((worker cfg (.timeout now) task).finish setup course 5 p.store)
        row' ∧ Returned begun
          (called setup cfg p task (.timeout now) course (.sweeping now tasks)) := by
    by_cases hl : task.isLegacy = true
    · have hstage : (worker cfg (.timeout now) task).stage =
          .write task.status (.refundIfWon true) := by
        show Stage.write task.status (.refundIfWon task.isLegacy) = _
        rw [hl]
      obtain ⟨row', hran⟩ := Worker.ran_clear setup course hstage hrow'
      rw [worker_id] at hran
      refine ⟨row', hran, fun id row₁ hrow₁ hf => ?_⟩
      by_cases hid : id = task.id
      · refine .inl ?_
        rw [hid, exempt, hfresh task mem_cons_self]
        simp [hl]
      · exact h.returned.others hran hid hrow₁ hf
    · have hl : task.isLegacy = false := Bool.eq_false_iff.2 hl
      have hstage : (worker cfg (.timeout now) task).stage =
          .write task.status (.refundIfWon false) := by
        show Stage.write task.status (.refundIfWon task.isLegacy) = _
        rw [hl]
      have hquota : (worker cfg (.timeout now) task).copy.quota = task.quota := by
        show (if task.isLegacy = true then 0 else task.quota) = task.quota
        rw [hl, if_neg Bool.false_ne_true]
      have hends := Worker.ends_sweep hstage rfl hrow' (hq.trans hquota.symm) (refunds_ok hok)
      have hspared : Worker.sparing setup course p.store (worker cfg (.timeout now) task) = true :=
        Worker.sparing_of_stage hstage (by simp)
      have hret : Returned begun
          (called setup cfg p task (.timeout now) course (.sweeping now tasks)) :=
        h.returned.call hrow hends (by rw [hspared, Bool.or_true])
      obtain ⟨row', hran, -⟩ := hends
      rw [worker_id] at hran
      exact ⟨row', hran, hret⟩
  refine ⟨hret, hran.keys.trans h.keys, ?_⟩
  have hdistinct := nodup_cons.1 hcopies.distinct
  refine ⟨fun c hc => ?_, hdistinct.2, ?_, ?_, ?_⟩
  · obtain ⟨row₁, hrow₁, hq₁⟩ := hcopies.found c (mem_cons_of_mem _ hc)
    refine ⟨row₁, (hran.others c.id fun hsame => ?_).trans hrow₁, hq₁⟩
    exact hdistinct.1 (hsame ▸ mem_map_of_mem hc)
  · intro w hw
    cases hw
  · rintro _ _ ⟨⟩ c hc
    exact hfresh c (mem_cons_of_mem _ hc)
  · intro hw
    cases hw

/-! ### Runs -/

theorem select_copies {s : TaskStore} (hn : (s.tasks.map Task.id).Nodup) (q : Task → Bool)
    (le : Task → Task → Bool) (n : ℕ) :
    (∀ c ∈ (Table.select q le s.tasks).take n, s.task c.id = some c) ∧
      (((Table.select q le s.tasks).take n).map Task.id).Nodup := by
  refine ⟨fun c hc => ?_, ?_⟩
  · exact get_of_mem hn (mem_select.1 (mem_of_mem_take hc)).1
  · exact ((take_sublist _ _).map _).nodup (keys_select_nodup hn)

/-- What an event can amount to, from a state of a pass. -/
inductive Planned (begun : TaskStore) (p : State) : Plan → Prop
  | go {phase : Phase} (copies : Copies begun p.store phase) : Planned begun p (.go phase)
  | bulk {ids : List ℤ} {failReason : Option String} {phase : Phase}
      (copies : Copies begun (p.store.taskBulkUpdateByID ids failReason) phase) :
      Planned begun p (.bulk ids failReason phase)
  | sweep {now : ℤ} {task : Task} {tasks : List Task}
      (phase : p.phase = .sweeping now (task :: tasks)) (course : Worker.Course) :
      Planned begun p (.call task (.timeout now) course fun _ => .sweeping now tasks)
  | poll {task : Task} {cmd : Command} {next : Task → Phase} (polls : cmd.isSweep = false)
      (held : task ∈ p.phase.copies) (course : Worker.Course)
      (copies : ∀ (s' : TaskStore) (c row' : Task), c.id = task.id →
        (∀ id, id ≠ task.id → s'.task id = p.store.task id) → s'.task task.id = some row' →
        row'.quota = c.quota → Copies begun s' (next c)) :
      Planned begun p (.call task cmd course next)

theorem Sound.planned_polling (h : Sound begun p) {w : Polling} (hphase : p.phase = .polling w)
    (e : Event) : Planned begun p (w.plan e) := by
  have hcopies := h.copies
  rw [hphase] at hcopies
  have hbulk : ∀ (ids : List ℤ) (failReason : Option String) {w' : Polling},
      Copies begun p.store (.polling w') →
      Copies begun (p.store.taskBulkUpdateByID ids failReason) (.polling w') := by
    intro ids failReason w' hc
    refine hc.store rfl fun id row hrow => ?_
    have hrow' : (p.store.taskBulkUpdateByID ids failReason).task id =
        some (if id ∈ ids then TaskStore.bulkFailed failReason row else row) := by
      rw [TaskStore.task_bulk, hrow, Option.map_some]
    refine ⟨_, hrow', ?_⟩
    split_ifs <;> rfl
  have hplans := w.plan_cases e
  generalize w.plan e = plan at hplans
  cases hplans with
  | go rest taskM => exact .go (hcopies.lanes rest taskM)
  | dispatched platform batch => exact .go (hcopies.dispatch platform batch)
  | null platform batch => exact .bulk (hbulk _ _ (hcopies.dispatch platform batch))
  | missing taskIds failReason rest taskM => exact .bulk (hbulk _ _ (hcopies.lanes rest taskM))
  | call found polls course rest =>
    refine .poll polls ?_ course fun s' c row' hid hothers hrow hq =>
      hcopies.call found rest hid hothers hrow hq
    rw [hphase]
    exact mem_append_right _ (mem_map_of_mem (get_mem found))

theorem Sound.planned (cfg : PollConfig) (limit : ℕ) (h : Sound begun p)
    (hn : (begun.tasks.map Task.id).Nodup) (e : Event) :
    Planned begun p (plan cfg limit p e) := by
  have hcopies := h.copies
  have hkeys : (p.store.tasks.map Task.id).Nodup := by
    rw [h.keys]
    exact hn
  unfold plan
  cases hphase : p.phase with
  | begin =>
    rw [hphase] at hcopies
    have hsame : Planned begun p (.go .begin) := .go hcopies
    cases e with
    | query asked now fails =>
      refine .go ?_
      have hstart : p.store = begun := hcopies.start rfl
      obtain ⟨hfound, hdistinct⟩ := select_copies hkeys (timedOut cfg asked)
        (fun a b => decide (a.submitTime ≤ b.submitTime)) 100
      have hquery : ∀ tasks : List Task, (∀ c ∈ tasks, p.store.task c.id = some c) →
          (tasks.map Task.id).Nodup → Copies begun p.store (.sweeping now tasks) := by
        intro tasks hfound hdistinct
        refine ⟨fun c hc => ⟨c, hfound c hc, rfl⟩, hdistinct, ?_, ?_, ?_⟩
        · intro w hw
          cases hw
        · rintro _ _ ⟨⟩
          rw [← hstart]
          exact hfound
        · intro hw
          cases hw
      cases fails with
      | true => exact hquery [] (fun c hc => absurd hc not_mem_nil) nodup_nil
      | false => exact hquery _ hfound hdistinct
    | _ => exact hsame
  | sweeping now tasks =>
    rw [hphase] at hcopies
    cases tasks with
    | nil =>
      have hsame : Planned begun p (.go (.sweeping now [])) := .go hcopies
      cases e with
      | load fails =>
        obtain ⟨hfound, hdistinct⟩ := select_copies hkeys Task.unfinished
          (fun a b => decide (a.id ≤ b.id)) limit
        refine .go (.polling ?_ ?_ nodup_nil)
        · cases fails with
          | true => exact fun c hc => absurd hc not_mem_nil
          | false =>
            intro c hc
            rw [map_nil, append_nil] at hc
            exact ⟨c, hfound c hc, rfl⟩
        · cases fails with
          | true => exact nodup_nil
          | false =>
            rw [map_nil, append_nil]
            exact hdistinct
      | _ => exact hsame
    | cons task tasks =>
      have hsame : Planned begun p (.go (.sweeping now (task :: tasks))) := .go hcopies
      cases e with
      | sweep course => exact .sweep hphase course
      | _ => exact hsame
  | polling w => exact h.planned_polling hphase e

/-- **One event.**  A spared event keeps the invariant, and only a spared event keeps
`Returned`. -/
theorem Sound.step (h : Sound begun p) (hn : (begun.tasks.map Task.id).Nodup) (e : Event)
    (hok : ∀ r ∈ (step setup cfg limit p e).journal, r.event.refundFails = false) :
    (spared setup cfg limit begun p e = true → Sound begun (step setup cfg limit p e)) ∧
      (Returned begun (step setup cfg limit p e) → spared setup cfg limit begun p e = true) := by
  have hplanned := h.planned cfg limit hn e
  unfold Pass.step at hok ⊢
  unfold spared
  generalize plan cfg limit p e = plan at hplanned hok
  cases hplanned with
  | go copies => exact ⟨fun _ => h.go copies, fun _ => rfl⟩
  | bulk copies =>
    refine ⟨fun hspared => h.bulk hn hspared copies, fun hret => ?_⟩
    exact spares_of_returned (by rw [h.keys]; exact hn) hret
  | @sweep now task tasks phase course =>
    refine ⟨fun _ => h.sweep phase hok, fun _ => ?_⟩
    have hspared : Worker.sparing setup course p.store (worker cfg (.timeout now) task) = true :=
      Worker.sparing_of_stage
        (show _ = Stage.write task.status (.refundIfWon task.isLegacy) from rfl) (by simp)
    show (exempt begun task.id || _) = true
    rw [hspared, Bool.or_true]
  | @poll task cmd next polls held course copies =>
    obtain ⟨row, hrow, hq⟩ := h.copies.found task held
    have hends := poll_ends polls hrow hq
      (show ∀ r ∈ (called setup cfg p task cmd course (next _)).journal, _ from hok)
    refine ⟨fun hspared => ?_, fun hret => spared_of_call hends hret⟩
    have hret : Returned begun (called setup cfg p task cmd course (next
        ((worker cfg cmd task).finish setup course 5 p.store).worker.copy)) :=
      h.returned.call hrow hends hspared
    obtain ⟨row', hran, -, hq'⟩ := hends
    rw [worker_id] at hran
    exact ⟨hret, hran.keys.trans h.keys, copies _ _ row' hran.copy hran.others hran.found hq'⟩

theorem journal_step (p : State) (e : Event) :
    p.journal <:+ (step setup cfg limit p e).journal := by
  unfold step
  cases plan cfg limit p e with
  | go phase => exact suffix_refl _
  | bulk | call => exact suffix_append _ _

theorem journal_run (p : State) (es : List Event) :
    p.journal <:+ (Machine.run (step setup cfg limit) p es).journal := by
  induction es generalizing p with
  | nil => exact suffix_refl _
  | cons e es ih => exact (journal_step p e).trans (ih _)

theorem meets_refunds (p : State) (es : List Event)
    (hok : ∀ r ∈ (Machine.run (step setup cfg limit) p es).journal, r.event.refundFails = false) :
    Machine.Meets (step setup cfg limit)
      (fun p e => ∀ r ∈ (step setup cfg limit p e).journal, r.event.refundFails = false) p es := by
  induction es generalizing p with
  | nil => trivial
  | cons e es ih =>
    refine ⟨fun r hr => hok r ?_, ih _ hok⟩
    exact (journal_run (step setup cfg limit p e) es).subset hr

end Step

/-- **A pass returns the quota of the tasks it fails, or settles it, iff all its events are
spared.** -/
theorem returned_iff_spared (setup : Setup) (cfg : PollConfig) (limit : ℕ) (begun : TaskStore)
    (hn : (begun.tasks.map Task.id).Nodup) (es : List Event)
    (hok : ∀ r ∈ (Machine.run (step setup cfg limit) (start begun) es).journal,
      r.event.refundFails = false) :
    Machine.Always (step setup cfg limit) (Returned begun) (start begun) es ↔
      Machine.Meets (step setup cfg limit)
        (fun p e => spared setup cfg limit begun p e = true) (start begun) es :=
  Machine.always_iff_meets_of (J := Sound begun) (fun _ h => h.returned)
    (fun _ e h hR hC => (h.step hn e hR).1 hC) (fun _ e h hR hI => (h.step hn e hR).2 hI)
    (Sound.start begun) (meets_refunds _ _ hok)

/-- A task of user 7, charged 100 to the wallet. -/
def video (id : ℤ) (upstreamID : String) : Task where
  id := id
  taskID := ""
  platform := .other "54"
  userId := 7
  group := "default"
  channelId := 3
  quota := 100
  status := .queued
  failReason := ""
  submitTime := 1790000000
  startTime := 0
  finishTime := 0
  progress := "20%"
  originModelName := "video"
  privateData := ⟨upstreamID, "", .wallet, 0, 0, none, "", 0⟩
  data := ""

/-- User 7 with 900 in the wallet, and one task. -/
def wallet : TaskStore where
  tasks := [video 1 "up_1"]
  ledger :=
    { db := { DB.empty with users := [⟨7, 900, 100, 1, "default", "", ""⟩] }, queues := .empty }

/-- Nothing fails, nothing has a price of its own, and nobody else is at work. -/
def calm : Worker.Course where
  answer := fun _ =>
    ⟨⟨fun _ _ => 0, fun _ _ => none, fun _ => none, fun _ => .ofInt 1, fun _ _ => none,
      fun _ => .ofInt 1, fun _ _ _ _ => 0⟩, false, true, .none⟩
  others := fun _ l => l

/-- A cutoff of 20 failing polls, and a timeout of a day. -/
def config : PollConfig := ⟨20, 1440, fun body => body, fun reason _ => reason, fun id => id⟩

/-- The upstream does not know the task. -/
def notFound : List Event :=
  [.query 1790000100 1790000100 false, .load false, .platform (.other "54") false false, .begin 0,
    .poll 0 1790000101 (.response 404 "" (.failed "")) calm]

/-- The channel cannot be loaded. -/
def channelGone : List Event :=
  [.query 1790000100 1790000100 false, .load false, .platform (.other "54") false false,
    .missing 0 false]

theorem returned_iff_spared_notFound :
    Machine.Always (step ⟨false, true⟩ config 1000) (Returned wallet) (start wallet) notFound :=
  (returned_iff_spared ⟨false, true⟩ config 1000 wallet (by decide) notFound (by decide)).2
    (by decide)

/-- **A task whose channel cannot be loaded keeps its charge.**  It has failed, so it is never
loaded again. -/
theorem channelGone_charged :
    (wallet.tasks.map Task.id).Nodup ∧
      (∀ r ∈ (Machine.run (step ⟨false, true⟩ config 1000) (start wallet) channelGone).journal,
        r.event.refundFails = false) ∧
      exempt wallet 1 = false ∧
      ((Machine.run (step ⟨false, true⟩ config 1000) (start wallet)
          channelGone).store.task 1).map (fun row => (row.status, row.quota, row.unfinished)) =
        some (.failure, 100, false) ∧
      (Machine.run (step ⟨false, true⟩ config 1000) (start wallet) channelGone).store.ledger =
        wallet.ledger ∧
      ¬ Machine.Always (step ⟨false, true⟩ config 1000) (Returned wallet) (start wallet)
        channelGone := by
  refine ⟨by decide, by decide, by decide, by decide, by decide, fun h => ?_⟩
  have hrow : (Machine.run (step ⟨false, true⟩ config 1000) (start wallet)
      channelGone).store.task 1 = some (TaskStore.bulkFailed
        (some "Failed to get channel info, channel ID: 3") (video 1 "up_1")) := by
    decide
  have hhistory : history 1 (Machine.run (step ⟨false, true⟩ config 1000) (start wallet)
      channelGone).journal = [.moved .queued .failure 100] := by
    decide
  obtain hex | hclosed := h.run 1 _ hrow rfl
  · exact absurd hex (by decide)
  · rw [hhistory] at hclosed
    exact absurd hclosed.1 (by decide)

end NexusTok.Pass
