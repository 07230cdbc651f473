import NexusTok.SystemTask.Referenced

/-!
# One running task per type

The lock of a type is meant to make the running task of the type unique, to keep everybody but its
runner from writing to it, and to let a task be failed for its lease only when the lease is gone.

The writes are guarded in their own statement and need nothing more.  The rest needs that a claim
which has the lock comes to its end before the lock is lost: it fails the task of the lock it took
over, and starts its own, without looking at the lock again.  And the sweep fails the tasks of the
locks it has read, although a late renewal may have made the lease valid again.  `prompt` says of an
event that none of this happens.

* `Safe` : the invariant.
* `exclusive_of_prompt` : over every run without failing statements whose events are all prompt.
-/

namespace NexusTok.SystemTasks

open List

open Table (update mem_update mem_update_of_mem update_keys)

/-! ### What is to hold -/

/-- The note of a write says that the lease was held, that of an expiry that it is not valid. -/
def Note.fine : Note → Prop
  | .wrote _ _ held => held = true
  | .leaseExpired _ valid => valid = false

/-- At most one task of a type runs; every write was made under the lease; every task that was
failed for its lease had no valid lease. -/
structure Exclusive (sh : Shared) : Prop where
  one : ∀ t ∈ sh.store.tasks, ∀ t' ∈ sh.store.tasks, t.status = .running → t'.status = .running →
    t.type = t'.type → t = t'
  notes : ∀ n ∈ sh.journal, n.fine

/-- The claim of a call that has taken the lock and still has to use it. -/
def Call.claiming : Call → Option Claim
  | .claimMark c _ | .claimRun c | .claimRelease c => some c
  | _ => none

/-- The claims that have taken a lock. -/
def claims (calls : List Call) : List Claim := calls.filterMap Call.claiming

/-- No call in flight has taken this lock. -/
def unclaimed (calls : List Call) (l : SystemTaskLock) : Bool :=
  (claims calls).all fun c =>
    !(decide (c.type = l.type) && decide (c.taskID = l.taskID) && decide (c.runner = l.lockedBy))

/-- The locks that go are those of no call in flight and of no running task. -/
def idle (calls : List Call) (gone : SystemTaskLock → Bool) (s : Store) : Bool :=
  spares gone s && s.locks.all fun l => !gone l || unclaimed calls l

/-- The next statement of a call takes no lock away from a claim in flight or from a running task,
but for a takeover whose claim is about to fail just that task; and it fails no task whose lease
was renewed. -/
def promptCall (calls : List Call) (s : Store) : Call → Bool
  | .claimTake c expired =>
    s.locks.all fun l => !(decide (l.type = c.type) && decide (l.lockedUntil < c.now)) ||
      unclaimed calls l && s.tasks.all fun t => !guards l t ||
        decide (t.taskID = expired) && decide (t.taskID ≠ c.taskID)
  | .release taskID runner =>
    idle calls (fun l => decide (l.taskID = taskID) && decide (l.lockedBy = runner)) s
  | .expireDelete now lock _ =>
    idle calls (fun l => decide (l.type = lock.type) && decide (l.taskID = lock.taskID) &&
      decide (l.lockedBy = lock.lockedBy) && decide (l.lockedUntil < now)) s
  | .expireMark now lock _ =>
    s.locks.all fun l => decide (l.taskID ≠ lock.taskID) || decide (l.lockedUntil < now) ||
      s.tasks.all fun t => !(decide (t.taskID = lock.taskID) && decide (t.status = .running))
  | _ => true

/-- No claim crashes before it has failed the task of the lock it took over. -/
def harmless (s : Store) : Call → Bool
  | .claimMark _ expired =>
    s.tasks.all fun t => !(decide (t.taskID = expired) && decide (t.status = .running))
  | _ => true

def prompt (p : Pool Shared Call) : Event → Bool
  | .resume i _ =>
    match p.calls[i]? with
    | some c => promptCall p.calls p.shared.store c
    | none => true
  | .crash i =>
    match p.calls[i]? with
    | some c => harmless p.shared.store c
    | none => true
  | _ => true

/-- The event meets no database error. -/
def Event.succeeds : Event → Bool
  | .resume _ ans => !ans.fails
  | _ => true

/-! ### Keys -/

/-- What no statement changes in a task. -/
def SystemTask.keys (t : SystemTask) : ℤ × String × String := (t.id, t.taskID, t.type)

def Store.keys (s : Store) : List (ℤ × String × String) := s.tasks.map SystemTask.keys

variable {s : Store} {f : SystemTask → SystemTask}

theorem keys_update {p : SystemTask → Bool} (hf : ∀ t, (f t).keys = t.keys) :
    ({ s with tasks := update p f s.tasks } : Store).keys = s.keys :=
  update_keys hf

/-! ### The invariant -/

/-- The claim of a call that has read its task. -/
def Call.reading : Call → Option Claim
  | .claimInsert c | .claimFind c | .claimTake c _ | .claimMark c _ | .claimRun c | .claimLoad c
  | .claimRelease c => some c
  | _ => none

/-- The claim, and the task its lock pointed to when the lock was read. -/
def Call.finding : Call → Option (Claim × String)
  | .claimTake c expired | .claimMark c expired => some (c, expired)
  | _ => none

/-- The claim, and the task it is about to fail. -/
def Call.marking : Call → Option (Claim × String)
  | .claimMark c expired => some (c, expired)
  | _ => none

/-- When a sweep began. -/
def Call.swept : Call → Option ℤ
  | .expireFind now | .expireMark now _ _ | .expireDelete now _ _ => some now
  | _ => none

/-- The tasks that claims in flight are about to fail. -/
def marks (calls : List Call) : List (Claim × String) := calls.filterMap Call.marking

/-- What the keys of the tables keep. -/
structure Keyed (s : Store) : Prop where
  one : OneLock s
  ids : (s.keys.map fun k => k.1).Nodup
  taskIDs : (s.keys.map fun k => k.2.1).Nodup
  nonempty : ∀ k ∈ s.keys, k.2.1 ≠ ""
  named : ∀ l ∈ s.locks, ∃ id, (id, l.taskID, l.type) ∈ s.keys

/-- What a call knows of the tables. -/
structure Knows (sh : Shared) (x : Call) : Prop where
  task : ∀ c, x.reading = some c → (c.id, c.taskID, c.type) ∈ sh.store.keys
  expired : ∀ m, x.finding = some m → ∃ id, (id, m.2, m.1.type) ∈ sh.store.keys
  time : ∀ now, x.swept = some now → now ≤ sh.clock

/-- The lock a claim has taken. -/
def Held (s : Store) (c : Claim) : Prop :=
  ∃ l ∈ s.locks, l.type = c.type ∧ l.taskID = c.taskID ∧ l.lockedBy = c.runner

/-- A running task has its lock, or a claim that took the lock is about to fail it. -/
def Covered (s : Store) (calls : List Call) (t : SystemTask) : Prop :=
  (∃ l ∈ s.locks, l.type = t.type ∧ l.taskID = t.taskID ∧ l.lockedBy = t.lockedBy ∧
      t.type ∉ (claims calls).map Claim.type) ∨
    ∃ c, (c, t.taskID) ∈ marks calls ∧ c.type = t.type

/-- What a run of prompt events keeps. -/
structure Safe (p : Pool Shared Call) : Prop where
  keyed : Keyed p.shared.store
  knows : ∀ x ∈ p.calls, Knows p.shared x
  holds : ∀ c ∈ claims p.calls, Held p.shared.store c
  alone : ((claims p.calls).map Claim.type).Nodup
  others : ∀ m ∈ marks p.calls, m.2 ≠ m.1.taskID
  running : ∀ t ∈ p.shared.store.tasks, t.status = .running → Covered p.shared.store p.calls t
  notes : ∀ n ∈ p.shared.journal, n.fine

section Facts

variable {s : Store} {calls : List Call} {x : Call} {c : Claim}

theorem claims_cons_none (h : x.claiming = none) : claims (x :: calls) = claims calls :=
  filterMap_cons_none h

theorem claims_cons_some (h : x.claiming = some c) : claims (x :: calls) = c :: claims calls :=
  filterMap_cons_some h

theorem marks_cons_none (h : x.marking = none) : marks (x :: calls) = marks calls :=
  filterMap_cons_none h

theorem marks_cons_some {m : Claim × String} (h : x.marking = some m) :
    marks (x :: calls) = m :: marks calls :=
  filterMap_cons_some h

theorem claiming_of_marking {e : String} (h : x.marking = some (c, e)) : x.claiming = some c := by
  cases x <;> simp only [Call.marking, reduceCtorEq, Option.some.injEq, Prod.mk.injEq] at h
  rw [← h.1]
  rfl

theorem marking_of_claiming (h : x.claiming = none) : x.marking = none := by
  cases hm : x.marking with
  | none => rfl
  | some m =>
    rw [claiming_of_marking hm] at h
    cases h

/-- A claim that is about to fail a task has taken a lock. -/
theorem claim_of_mark {e : String} (h : (c, e) ∈ marks calls) : c ∈ claims calls := by
  obtain ⟨x, hx, hm⟩ := mem_filterMap.1 h
  exact mem_filterMap.2 ⟨x, hx, claiming_of_marking hm⟩

theorem mem_marks_append {m : Claim × String} {calls' : List Call} (h : m ∈ marks calls) :
    m ∈ marks (calls' ++ calls) := by
  obtain ⟨x, hx, hm⟩ := mem_filterMap.1 h
  exact mem_filterMap.2 ⟨x, mem_append_right _ hx, hm⟩

/-- Claims of one type are one claim, which is about to fail one task. -/
theorem mark_unique (halone : ((claims calls).map Claim.type).Nodup) {c' : Claim} {e e' : String}
    (h : (c, e) ∈ marks calls) (h' : (c', e') ∈ marks calls) (htype : c.type = c'.type) :
    e = e' := by
  induction calls with
  | nil => exact absurd h not_mem_nil
  | cons x calls ih =>
    cases hm : x.marking with
    | none =>
      rw [marks_cons_none hm] at h h'
      refine ih ((List.Sublist.map _ ?_).nodup halone) h h'
      exact (sublist_cons_self x calls).filterMap _
    | some m =>
      obtain ⟨c₀, e₀⟩ := m
      rw [claims_cons_some (claiming_of_marking hm), map_cons, nodup_cons] at halone
      rw [marks_cons_some hm, mem_cons, Prod.mk.injEq] at h h'
      obtain ⟨rfl, rfl⟩ | h := h
      · obtain ⟨-, rfl⟩ | h' := h'
        · rfl
        · refine absurd ?_ halone.1
          rw [htype]
          exact mem_map_of_mem (claim_of_mark h')
      · obtain ⟨rfl, rfl⟩ | h' := h'
        · refine absurd ?_ halone.1
          rw [← htype]
          exact mem_map_of_mem (claim_of_mark h)
        · exact ih halone.2 h h'

theorem Keyed.task_eq (h : Keyed s) {t t' : SystemTask} (ht : t ∈ s.tasks) (ht' : t' ∈ s.tasks)
    (hid : t.taskID = t'.taskID) : t = t' := by
  have hn := h.taskIDs
  rw [Store.keys, map_map] at hn
  exact inj_on_of_nodup_map hn ht ht' hid

theorem Keyed.type_eq (h : Keyed s) {id id' : ℤ} {taskID type type' : String}
    (hk : (id, taskID, type) ∈ s.keys) (hk' : (id', taskID, type') ∈ s.keys) : type = type' := by
  have heq := inj_on_of_nodup_map h.taskIDs hk hk' rfl
  simp only [Prod.mk.injEq] at heq
  exact heq.2.2

theorem mem_keys {t : SystemTask} (ht : t ∈ s.tasks) : (t.id, t.taskID, t.type) ∈ s.keys :=
  mem_map_of_mem (f := SystemTask.keys) ht

theorem Keyed.lock_type (h : Keyed s) {l : SystemTaskLock} {t : SystemTask} (hl : l ∈ s.locks)
    (ht : t ∈ s.tasks) (hid : l.taskID = t.taskID) : l.type = t.type := by
  obtain ⟨id, hk⟩ := h.named l hl
  rw [hid] at hk
  exact h.type_eq hk (mem_keys ht)

theorem Safe.lock_of_mark {p : Pool Shared Call} (h : Safe p) {c : Claim} {e : String}
    (hm : (c, e) ∈ marks p.calls) {l : SystemTaskLock} (hl : l ∈ p.shared.store.locks)
    (htype : l.type = c.type) : l.taskID ≠ e := by
  obtain ⟨l', hl', htype', hid', -⟩ := h.holds c (claim_of_mark hm)
  rw [h.keyed.one.unique hl hl' (htype.trans htype'.symm), hid']
  exact (h.others _ hm).symm

/-- **At most one task of a type runs.** -/
theorem Safe.exclusive {p : Pool Shared Call} (h : Safe p) : Exclusive p.shared where
  one := by
    intro t ht t' ht' hrun hrun' htype
    refine h.keyed.task_eq ht ht' ?_
    obtain ⟨l, hl, hlt, hlid, -, hfree⟩ | ⟨c, hc, hct⟩ := h.running t ht hrun
    · obtain ⟨l', hl', hlt', hlid', -, -⟩ | ⟨c', hc', hct'⟩ := h.running t' ht' hrun'
      · rw [← hlid, ← hlid', h.keyed.one.unique hl hl' (hlt.trans (htype.trans hlt'.symm))]
      · refine absurd ?_ hfree
        rw [htype, ← hct']
        exact mem_map_of_mem (claim_of_mark hc')
    · obtain ⟨l', -, -, -, -, hfree'⟩ | ⟨c', hc', hct'⟩ := h.running t' ht' hrun'
      · refine absurd ?_ hfree'
        rw [← htype, ← hct]
        exact mem_map_of_mem (claim_of_mark hc)
      · -- both are about to be failed by the one claim of the type
        exact mark_unique h.alone hc hc' (hct.trans (htype.trans hct'.symm))
  notes := h.notes

/-- The order of the calls says nothing. -/
theorem Safe.perm {sh : Shared} {calls calls' : List Call} (h : Safe ⟨sh, calls⟩)
    (hp : calls.Perm calls') : Safe ⟨sh, calls'⟩ := by
  have hclaims : (claims calls).Perm (claims calls') := hp.filterMap _
  have hmarks : (marks calls).Perm (marks calls') := hp.filterMap _
  refine ⟨h.keyed, ?_, ?_, ?_, ?_, ?_, h.notes⟩
  · exact fun x hx => h.knows x (hp.mem_iff.2 hx)
  · exact fun c hc => h.holds c (hclaims.mem_iff.2 hc)
  · exact (hclaims.map _).nodup_iff.1 h.alone
  · exact fun m hm => h.others m (hmarks.mem_iff.2 hm)
  · intro t ht hrun
    obtain ⟨l, hl, htype, hid, hby, hfree⟩ | ⟨c, hc, hct⟩ := h.running t ht hrun
    · exact .inl ⟨l, hl, htype, hid, hby, fun hmem => hfree ((hclaims.map _).mem_iff.2 hmem)⟩
    · exact .inr ⟨c, hmarks.mem_iff.1 hc, hct⟩

end Facts

/-! ### Statements of calls that hold no lock -/

/-- What a statement leaves. -/
def Shared.after (sh : Shared) (s' : Store) (notes : List Note) : Shared :=
  { sh with store := s', journal := notes ++ sh.journal }

variable {clock now : ℤ}

section Quiet

variable {sh : Shared} {s' : Store} {notes : List Note} {calls : List Call} {x : Call}
  {rest : Option Call}

theorem Keyed.of_locks (h : Keyed s) (hkeys : s'.keys = s.keys) (hone : OneLock s')
    (hnamed : ∀ l ∈ s'.locks, ∃ id, (id, l.taskID, l.type) ∈ s.keys) : Keyed s' := by
  refine ⟨hone, ?_, ?_, ?_, ?_⟩ <;> rw [hkeys]
  · exact h.ids
  · exact h.taskIDs
  · exact h.nonempty
  · exact hnamed

theorem Knows.keys {sh' : Shared} (h : Knows sh x) (hkeys : sh'.store.keys = sh.store.keys)
    (hclock : sh'.clock = sh.clock) : Knows sh' x := by
  refine ⟨?_, ?_, ?_⟩
  · rw [hkeys]
    exact h.task
  · rw [hkeys]
    exact h.expired
  · rw [hclock]
    exact h.time

theorem Knows.nothing (hread : x.reading = none) (hfind : x.finding = none)
    (hswept : x.swept = none) : Knows sh x := by
  refine ⟨fun c hc => ?_, fun m hm => ?_, fun now hnow => ?_⟩
  · rw [hread] at hc
    cases hc
  · rw [hfind] at hm
    cases hm
  · rw [hswept] at hnow
    cases hnow

/-- Nothing is left of a call that is over. -/
theorem noCall {P : Call → Prop} : ∀ y ∈ (none : Option Call), P y :=
  fun _ hy => nomatch hy

theorem left {P : Call → Prop} {y : Call} (h : P y) : ∀ z ∈ some y, P z := by
  intro z hz
  cases hz
  exact h

/-- **A statement**, and what is to be shown about it. -/
theorem Safe.next (h : Safe ⟨sh, x :: calls⟩) (hknows : ∀ y ∈ rest, Knows sh y)
    (hkeys : s'.keys = sh.store.keys) (hone : OneLock s')
    (hnamed : ∀ l ∈ s'.locks, ∃ id, (id, l.taskID, l.type) ∈ sh.store.keys)
    (hholds : ∀ c ∈ claims (rest.toList ++ calls), Held s' c)
    (halone : ((claims (rest.toList ++ calls)).map Claim.type).Nodup)
    (hothers : ∀ m ∈ marks (rest.toList ++ calls), m.2 ≠ m.1.taskID)
    (hrunning : ∀ t ∈ s'.tasks, t.status = .running → Covered s' (rest.toList ++ calls) t)
    (hnotes : ∀ n ∈ notes, n.fine) :
    Safe ⟨sh.after s' notes, rest.toList ++ calls⟩ := by
  refine ⟨h.keyed.of_locks hkeys hone hnamed, ?_, hholds, halone, hothers, hrunning, ?_⟩
  · intro y hy
    have hy' : Knows sh y := by
      obtain hy | hy := mem_append.1 hy
      · exact hknows y (Option.mem_toList.1 hy)
      · exact h.knows y (mem_cons_of_mem _ hy)
    exact hy'.keys hkeys rfl
  · intro n hn
    obtain hn | hn := mem_append.1 hn
    · exact hnotes n hn
    · exact h.notes n hn

theorem claims_rest (hrest : ∀ y ∈ rest, y.claiming = none) :
    claims (rest.toList ++ calls) = claims calls ∧ marks (rest.toList ++ calls) = marks calls := by
  cases rest with
  | none => exact ⟨rfl, rfl⟩
  | some y =>
    have hy := hrest y rfl
    exact ⟨claims_cons_none hy, marks_cons_none (marking_of_claiming hy)⟩

theorem Covered.quiet {t : SystemTask} (h : Covered s (x :: calls) t)
    (hx : x.claiming = none) (hrest : ∀ y ∈ rest, y.claiming = none) :
    Covered s (rest.toList ++ calls) t := by
  unfold Covered at h ⊢
  rw [claims_cons_none hx, marks_cons_none (marking_of_claiming hx)] at h
  rw [(claims_rest hrest).1, (claims_rest hrest).2]
  exact h

section

variable (h : Safe ⟨sh, x :: calls⟩)
include h

/-- **A statement of a call that holds no lock, and takes none.** -/
theorem Safe.quiet (hx : x.claiming = none)
    (hrest : ∀ y ∈ rest, y.claiming = none) (hknows : ∀ y ∈ rest, Knows sh y)
    (hkeys : s'.keys = sh.store.keys) (hone : OneLock s')
    (hnamed : ∀ l ∈ s'.locks, ∃ id, (id, l.taskID, l.type) ∈ sh.store.keys)
    (hholds : ∀ c ∈ claims calls, Held s' c)
    (hrunning : ∀ t ∈ s'.tasks, t.status = .running → Covered s' (x :: calls) t)
    (hnotes : ∀ n ∈ notes, n.fine) : Safe ⟨sh.after s' notes, rest.toList ++ calls⟩ := by
  obtain ⟨hclaims, hmarks⟩ : claims (rest.toList ++ calls) = claims calls ∧
      marks (rest.toList ++ calls) = marks calls := claims_rest hrest
  have halone := h.alone
  have hothers := h.others
  simp only [claims_cons_none hx] at halone
  simp only [marks_cons_none (marking_of_claiming hx)] at hothers
  refine h.next hknows hkeys hone hnamed ?_ ?_ ?_ ?_ hnotes
  · rw [hclaims]
    exact hholds
  · rw [hclaims]
    exact halone
  · rw [hmarks]
    exact hothers
  · exact fun t ht hrun => (hrunning t ht hrun).quiet hx hrest

/-- The claims of the other calls have their locks. -/
theorem Safe.held {c : Claim} (hc : c ∈ claims calls) : Held sh.store c := by
  refine h.holds c ?_
  obtain ⟨y, hy, hcy⟩ := mem_filterMap.1 hc
  exact mem_filterMap.2 ⟨y, mem_cons_of_mem _ hy, hcy⟩

theorem Safe.same (hx : x.claiming = none)
    (hrest : ∀ y ∈ rest, y.claiming = none) (hknows : ∀ y ∈ rest, Knows sh y)
    (hnotes : ∀ n ∈ notes, n.fine) : Safe ⟨sh.after sh.store notes, rest.toList ++ calls⟩ :=
  h.quiet hx hrest hknows rfl h.keyed.one h.keyed.named (fun _ => h.held) h.running hnotes

/-- The call is over, and has done nothing. -/
theorem Safe.ends (hx : x.claiming = none) (hnotes : ∀ n ∈ notes, n.fine) :
    Safe ⟨sh.after sh.store notes, (none : Option Call).toList ++ calls⟩ :=
  h.same hx noCall noCall hnotes

/-- Tasks change, and none of them starts or changes its runner. -/
theorem Safe.tasks (hx : x.claiming = none)
    (hrest : ∀ y ∈ rest, y.claiming = none) (hknows : ∀ y ∈ rest, Knows sh y)
    {q : SystemTask → Bool} (hf : ∀ t, (f t).keys = t.keys)
    (hrun : ∀ t, q t = true → (f t).status = .running →
      t.status = .running ∧ (f t).lockedBy = t.lockedBy) (hnotes : ∀ n ∈ notes, n.fine) :
    Safe ⟨sh.after { sh.store with tasks := update q f sh.store.tasks } notes,
      rest.toList ++ calls⟩ := by
  refine h.quiet hx hrest hknows (keys_update hf) h.keyed.one h.keyed.named (fun _ => h.held) ?_
    hnotes
  intro t ht hrunning
  obtain ⟨t', ht', ⟨hq, rfl⟩ | ⟨-, rfl⟩⟩ := mem_update ht
  · obtain ⟨hr, hby⟩ := hrun t' hq hrunning
    have hk := hf t'
    simp only [SystemTask.keys, Prod.mk.injEq] at hk
    have hcov := h.running t' ht' hr
    unfold Covered at hcov ⊢
    rw [hk.2.1, hk.2.2, hby]
    exact hcov
  · exact h.running t ht' hrunning

/-- Locks change, and keep their tasks and runners. -/
theorem Safe.locks (hx : x.claiming = none)
    {q : SystemTaskLock → Bool} {f : SystemTaskLock → SystemTaskLock}
    (hf : ∀ l, (f l).type = l.type ∧ (f l).taskID = l.taskID ∧ (f l).lockedBy = l.lockedBy) :
    Safe ⟨sh.after { sh.store with locks := update q f sh.store.locks } [],
      (none : Option Call).toList ++ calls⟩ := by
  have hmoved : ∀ l ∈ sh.store.locks, ∃ l' ∈ update q f sh.store.locks,
      l'.type = l.type ∧ l'.taskID = l.taskID ∧ l'.lockedBy = l.lockedBy := by
    intro l hl
    refine ⟨_, mem_update_of_mem hl, ?_⟩
    split_ifs
    · exact hf l
    · exact ⟨rfl, rfl, rfl⟩
  refine h.quiet hx noCall noCall rfl
    (h.keyed.one.update fun l => (hf l).1) ?_ ?_ ?_ fun n hn => absurd hn not_mem_nil
  · intro l hl
    obtain ⟨l', hl', ⟨-, rfl⟩ | ⟨-, rfl⟩⟩ := mem_update hl
    · rw [(hf l').1, (hf l').2.1]
      exact h.keyed.named l' hl'
    · exact h.keyed.named l hl'
  · intro c hc
    obtain ⟨l, hl, htype, hid, hby⟩ := h.held hc
    obtain ⟨l', hl', htype', hid', hby'⟩ := hmoved l hl
    exact ⟨l', hl', htype'.trans htype, hid'.trans hid, hby'.trans hby⟩
  · intro t ht hrun
    obtain ⟨l, hl, htype, hid, hby, hfree⟩ | hmark := h.running t ht hrun
    · obtain ⟨l', hl', htype', hid', hby'⟩ := hmoved l hl
      exact .inl ⟨l', hl', htype'.trans htype, hid'.trans hid, hby'.trans hby, hfree⟩
    · exact .inr hmark

end

theorem idle_iff {gone : SystemTaskLock → Bool} :
    idle calls gone s = true ↔ spares gone s = true ∧ ∀ l ∈ s.locks, gone l = true →
      ∀ c ∈ claims calls, c.type = l.type → c.taskID = l.taskID → c.runner ≠ l.lockedBy := by
  simp only [idle, unclaimed, Bool.and_eq_true, all_eq_true, Bool.or_eq_true,
    Bool.not_eq_true', Bool.and_eq_false_iff, decide_eq_false_iff_not]
  refine and_congr_right fun _ => forall₂_congr fun l _ => ?_
  constructor
  · intro h hgone c hc htype hid
    have hall := h.resolve_left (by simp [hgone])
    exact (hall c hc).resolve_left fun h => h.elim (fun h => h htype) fun h => h hid
  · intro h
    cases hgone : gone l with
    | false => exact .inl rfl
    | true =>
      refine .inr fun c hc => ?_
      by_cases htype : c.type = l.type
      · by_cases hid : c.taskID = l.taskID
        · exact .inr (h hgone c hc htype hid)
        · exact .inl (.inr hid)
      · exact .inl (.inl htype)

/-- Locks go, of no running task and no claim in flight. -/
theorem Safe.delete (h : Safe ⟨sh, x :: calls⟩) (hx : x.claiming = none)
    (hrest : ∀ y ∈ rest, y.claiming = none) (hknows : ∀ y ∈ rest, Knows sh y)
    {gone : SystemTaskLock → Bool} (hidle : idle (x :: calls) gone sh.store = true) :
    Safe ⟨sh.after { sh.store with locks := sh.store.locks.filter fun l => !gone l } [],
      rest.toList ++ calls⟩ := by
  obtain ⟨hspares, hfree⟩ := idle_iff.1 hidle
  rw [claims_cons_none hx] at hfree
  have hkept : ∀ l ∈ sh.store.locks, gone l = false →
      l ∈ sh.store.locks.filter fun l => !gone l := by
    intro l hl hgone
    exact mem_filter.2 ⟨hl, by rw [hgone]; rfl⟩
  refine h.quiet hx hrest hknows rfl (h.keyed.one.delete _) ?_ ?_ ?_
    fun n hn => absurd hn not_mem_nil
  · intro l hl
    exact h.keyed.named l (mem_filter.1 hl).1
  · intro c hc
    obtain ⟨l, hl, htype, hid, hby⟩ := h.held hc
    cases hgone : gone l with
    | false => exact ⟨l, hkept l hl hgone, htype, hid, hby⟩
    | true => exact absurd hby.symm (hfree l hl hgone c hc htype.symm hid.symm)
  · intro t ht hrun
    obtain ⟨l, hl, htype, hid, hby, hnone⟩ | hmark := h.running t ht hrun
    · cases hgone : gone l with
      | false => exact .inl ⟨l, hkept l hl hgone, htype, hid, hby, hnone⟩
      | true => exact absurd hid.symm (spares_iff.1 hspares l hl hgone t ht hrun htype.symm)
    · exact .inr hmark

/-- A task is failed, its lease being gone. -/
theorem Safe.mark (h : Safe ⟨sh, x :: calls⟩) (hx : x.claiming = none)
    (hrest : ∀ y ∈ rest, y.claiming = none) (hknows : ∀ y ∈ rest, Knows sh y) {taskID : String}
    (hnotes : ∀ n ∈ notes, n.fine) :
    Safe ⟨sh.after (sh.store.markLeaseExpired taskID clock) notes, rest.toList ++ calls⟩ :=
  h.tasks hx hrest hknows (fun _ => rfl) (fun _ _ hrun => nomatch hrun) hnotes

/-! ### Writes -/

/-- **A write that matched a row was made under the lease.** -/
theorem Keyed.wrote (h : Keyed s) (taskID runner : String) (now : ℤ) :
    ∀ n ∈ noteWrite taskID runner now s, n.fine := by
  intro n hn
  unfold noteWrite at hn
  split_ifs at hn with hmatch
  · rw [mem_singleton.1 hn]
    rw [Bool.and_eq_true, leased, any_eq_true, any_eq_true] at hmatch
    obtain ⟨⟨l, hl, hlease⟩, ⟨t, ht, hruns⟩⟩ := hmatch
    refine any_eq_true.2 ⟨t, ht, ?_⟩
    rw [hruns, Bool.true_and]
    refine any_eq_true.2 ⟨l, hl, ?_⟩
    simp only [Store.renewable, runs, Bool.and_eq_true, decide_eq_true_eq] at hlease hruns ⊢
    exact ⟨h.lock_type hl ht (hlease.1.1.trans hruns.1.1.symm), hlease⟩
  · exact absurd hn not_mem_nil

theorem Safe.write (h : Safe ⟨sh, x :: calls⟩) (hx : x.claiming = none) (field : Field)
    (taskID runner text : String) (now : ℤ) :
    Safe ⟨sh.after (sh.store.writeTask field taskID runner text now)
      (noteWrite taskID runner now sh.store), (none : Option Call).toList ++ calls⟩ := by
  have hnotes := h.keyed.wrote taskID runner now
  unfold Store.writeTask
  split_ifs
  · refine h.tasks hx noCall noCall ?_ ?_ hnotes
    · intro t
      cases field <;> rfl
    · intro t _ hrun
      cases field <;> exact ⟨hrun, rfl⟩
  · exact h.ends hx hnotes

theorem Safe.finish (h : Safe ⟨sh, x :: calls⟩) (hx : x.claiming = none) (taskID runner : String)
    (status : Status) (result error : String) (now : ℤ) :
    Safe ⟨sh.after (sh.store.finishTask taskID runner status result error now)
      (noteWrite taskID runner now sh.store),
      (some (Call.release taskID runner)).toList ++ calls⟩ := by
  have hnotes := h.keyed.wrote taskID runner now
  have hfree : ∀ y ∈ some (Call.release taskID runner), y.claiming = none := left rfl
  have hknows : ∀ y ∈ some (Call.release taskID runner), Knows sh y :=
    left (.nothing rfl rfl rfl)
  unfold Store.finishTask
  split_ifs
  · refine h.tasks hx hfree hknows (fun _ => rfl) (fun t hq _ => ⟨?_, rfl⟩) hnotes
    simp only [runs, Bool.and_eq_true, decide_eq_true_eq] at hq
    exact hq.1.2
  · exact h.same hx hfree hknows hnotes

/-- What a transfer that commits found. -/
theorem transfer_cases (s : Store) (reported : Bool) (taskID type fromRunner toRunner : String)
    (now lockUntil : ℤ) :
    s.transferLock reported taskID type fromRunner toRunner now lockUntil = (false, s) ∨
      (∃ t ∈ s.tasks, t.taskID = taskID ∧ t.status = .running ∧ t.lockedBy = fromRunner ∧
        t.type = type) ∧
      (∃ l ∈ s.locks, Store.renewable taskID fromRunner now l = true ∧ l.type = type) ∧
      s.transferLock reported taskID type fromRunner toRunner now lockUntil =
        (true,
          { tasks := update (fun t => runs taskID fromRunner t && decide (t.type = type))
              (fun t => { t with lockedBy := toRunner, updatedAt := now }) s.tasks
            locks := update (fun l => Store.renewable taskID fromRunner now l &&
                decide (l.type = type))
              (fun l => { l with lockedBy := toRunner, lockedUntil := lockUntil, updatedAt := now })
              s.locks }) := by
  unfold Store.transferLock
  simp only
  split_ifs with hmatch
  · refine .inr ⟨?_, ?_, rfl⟩
    · rw [Bool.and_eq_true, Bool.and_eq_true, any_eq_true] at hmatch
      obtain ⟨t, ht, hruns⟩ := hmatch.1.1
      simp only [runs, Bool.and_eq_true, decide_eq_true_eq] at hruns
      exact ⟨t, ht, hruns.1.1.1, hruns.1.1.2, hruns.1.2, hruns.2⟩
    · rw [Bool.and_eq_true, any_eq_true] at hmatch
      obtain ⟨l, hl, hheld⟩ := hmatch.2
      rw [Bool.and_eq_true, decide_eq_true_eq] at hheld
      exact ⟨l, hl, hheld⟩
  · exact .inl rfl

/-- The task of a lock that points to it is not claimed and not about to be failed. -/
theorem Safe.settled {p : Pool Shared Call} (h : Safe p) {t : SystemTask}
    (ht : t ∈ p.shared.store.tasks) (hrun : t.status = .running) {l : SystemTaskLock}
    (hl : l ∈ p.shared.store.locks) (htype : l.type = t.type) (hid : l.taskID = t.taskID) :
    l.lockedBy = t.lockedBy ∧ t.type ∉ (claims p.calls).map Claim.type := by
  obtain ⟨l', hl', htype', -, hby', hfree⟩ | ⟨c, hc, hct⟩ := h.running t ht hrun
  · rw [h.keyed.one.unique hl hl' (htype.trans htype'.symm)]
    exact ⟨hby', hfree⟩
  · exact absurd hid (h.lock_of_mark hc hl (htype.trans hct.symm))

/-- **The task and its lock go to the other runner together.** -/
theorem Safe.transfer (h : Safe ⟨sh, x :: calls⟩) (hx : x.claiming = none)
    {taskID type fromRunner : String} (toRunner : String) (lockUntil : ℤ)
    (htask : ∃ t ∈ sh.store.tasks, t.taskID = taskID ∧ t.status = .running ∧
      t.lockedBy = fromRunner ∧ t.type = type)
    (hlock : ∃ l ∈ sh.store.locks, Store.renewable taskID fromRunner now l = true ∧ l.type = type) :
    Safe ⟨sh.after
      { tasks := update (fun t => runs taskID fromRunner t && decide (t.type = type))
          (fun t => { t with lockedBy := toRunner, updatedAt := now }) sh.store.tasks
        locks := update (fun l => Store.renewable taskID fromRunner now l && decide (l.type = type))
          (fun l => { l with lockedBy := toRunner, lockedUntil := lockUntil, updatedAt := now })
          sh.store.locks }
      [.wrote taskID fromRunner (holdsLease taskID fromRunner now sh.store)],
      (none : Option Call).toList ++ calls⟩ := by
  obtain ⟨t₀, ht₀, hid₀, hrun₀, hby₀, htype₀⟩ := htask
  obtain ⟨l₀, hl₀, hheld₀, hltype₀⟩ := hlock
  have hheld := hheld₀
  simp only [Store.renewable, Bool.and_eq_true, decide_eq_true_eq] at hheld
  obtain ⟨⟨hlid₀, hlby₀⟩, -⟩ := hheld
  have hfree := (h.settled ht₀ hrun₀ hl₀ (hltype₀.trans htype₀.symm) (hlid₀.trans hid₀.symm)).2
  -- the lock that moves is `l₀`
  have hmoved : ∀ l ∈ sh.store.locks,
      (Store.renewable taskID fromRunner now l && decide (l.type = type)) = true → l = l₀ := by
    intro l hl hm
    rw [Bool.and_eq_true, decide_eq_true_eq] at hm
    exact h.keyed.one.unique hl hl₀ (hm.2.trans hltype₀.symm)
  refine h.quiet hx noCall noCall (update_keys fun _ => rfl)
    (h.keyed.one.update fun _ => rfl) ?_ ?_ ?_ ?_
  · intro l hl
    obtain ⟨l', hl', ⟨-, rfl⟩ | ⟨-, rfl⟩⟩ := mem_update hl
    · exact h.keyed.named l' hl'
    · exact h.keyed.named l hl'
  · intro c hc
    obtain ⟨l, hl, htype, hid, hby⟩ := h.held hc
    refine ⟨_, mem_update_of_mem hl, ?_⟩
    split_ifs with hm
    · -- a claim in flight would have its type claimed
      refine absurd ?_ hfree
      rw [claims_cons_none hx, htype₀, ← hltype₀, ← hmoved l hl hm, htype]
      exact mem_map_of_mem hc
    · exact ⟨htype, hid, hby⟩
  · intro t ht hrun
    obtain ⟨t', ht', ⟨hm, rfl⟩ | ⟨hm, rfl⟩⟩ := mem_update ht
    · simp only [runs, Bool.and_eq_true, decide_eq_true_eq] at hm
      refine .inl ⟨_, mem_update_of_mem hl₀, ?_⟩
      rw [if_pos (by rw [hheld₀, decide_eq_true hltype₀]; rfl)]
      refine ⟨hltype₀.trans hm.2.symm, hlid₀.trans hm.1.1.1.symm, rfl, ?_⟩
      show t'.type ∉ _
      rw [hm.2, ← htype₀]
      exact hfree
    · obtain ⟨l, hl, htype, hid, hby, hnone⟩ | hmark := h.running t ht' hrun
      · refine .inl ⟨_, mem_update_of_mem hl, ?_⟩
        split_ifs with hl'
        · -- the task of the lock that moves is the one that moves
          rw [hmoved l hl hl'] at htype hid hby
          refine absurd ?_ (Bool.eq_false_iff.1 hm)
          simp only [runs, Bool.and_eq_true, decide_eq_true_eq]
          exact ⟨⟨⟨hid.symm.trans hlid₀, hrun⟩, hby.symm.trans hlby₀⟩, htype.symm.trans hltype₀⟩
        · exact ⟨htype, hid, hby, hnone⟩
      · exact .inr hmark
  · intro n hn
    rw [mem_singleton.1 hn]
    refine any_eq_true.2 ⟨t₀, ht₀, ?_⟩
    simp only [runs, Bool.and_eq_true, decide_eq_true_eq, any_eq_true]
    exact ⟨⟨⟨hid₀, hrun₀⟩, hby₀⟩, l₀, hl₀, hltype₀.trans htype₀.symm, hheld₀⟩

end Quiet

/-! ### Statements of claims -/

section Claims

variable {sh : Shared} {calls : List Call} {c : Claim}

theorem Knows.claim {x y : Call} (h : Knows sh x) (hread : y.reading = x.reading)
    (hfind : y.finding = none) (hswept : y.swept = none) : Knows sh y := by
  refine ⟨fun c hc => h.task c (hread ▸ hc), fun m hm => ?_, fun now hnow => ?_⟩
  · rw [hfind] at hm
    cases hm
  · rw [hswept] at hnow
    cases hnow

theorem Safe.knows_head {x : Call} (h : Safe ⟨sh, x :: calls⟩) : Knows sh x :=
  h.knows x mem_cons_self

theorem Safe.insert {s' : Store} (h : Safe ⟨sh, .claimInsert c :: calls⟩)
    (hi : sh.store.insertLock ⟨c.type, c.taskID, c.runner, c.lockUntil, c.now⟩ = some s') :
    Safe ⟨sh.after s' [], (some (Call.claimRun c)).toList ++ calls⟩ := by
  obtain ⟨hone, rfl, hfree⟩ := h.keyed.one.insert hi
  have hkey := h.knows_head.task c rfl
  refine h.next (left (h.knows_head.claim rfl rfl rfl)) rfl hone ?_ ?_ ?_ h.others ?_
    fun n hn => absurd hn not_mem_nil
  · intro l hl
    obtain hl | hl := mem_append.1 hl
    · exact h.keyed.named l hl
    · rw [mem_singleton.1 hl]
      exact ⟨c.id, hkey⟩
  · intro c' hc'
    obtain rfl | hc' := mem_cons.1 hc'
    · exact ⟨_, mem_append_right _ (mem_singleton_self _), rfl, rfl, rfl⟩
    · obtain ⟨l, hl, hheld⟩ := h.held hc'
      exact ⟨l, mem_append_left _ hl, hheld⟩
  · refine nodup_cons.2 ⟨fun hmem => ?_, h.alone⟩
    obtain ⟨c', hc', htype'⟩ := mem_map.1 hmem
    obtain ⟨l, hl, htype, -⟩ := h.held hc'
    exact hfree l hl (htype.trans htype')
  · intro t ht hrun
    obtain ⟨l, hl, htype, hid, hby, hnone⟩ | hmark := h.running t ht hrun
    · refine .inl ⟨l, mem_append_left _ hl, htype, hid, hby, fun hmem => ?_⟩
      obtain heq | hmem := mem_cons.1 hmem
      · exact hfree l hl (htype.trans heq)
      · exact hnone hmem
    · exact .inr hmark

theorem prompt_take_iff {expired : String} :
    promptCall calls s (.claimTake c expired) = true ↔
      ∀ l ∈ s.locks, (l.type = c.type ∧ l.lockedUntil < c.now) →
        (∀ c' ∈ claims calls, c'.type = l.type → c'.taskID = l.taskID → c'.runner ≠ l.lockedBy) ∧
        ∀ t ∈ s.tasks, t.status = .running → t.type = l.type → t.taskID = l.taskID →
          t.taskID = expired ∧ t.taskID ≠ c.taskID := by
  simp only [promptCall, unclaimed, guards, all_eq_true, Bool.or_eq_true, Bool.and_eq_true,
    Bool.not_eq_true', decide_eq_true_eq, Bool.and_eq_false_iff, decide_eq_false_iff_not]
  refine forall₂_congr fun l _ => ?_
  rw [← not_and_or, ← imp_iff_not_or]
  refine imp_congr_right fun _ => and_congr ?_ ?_
  · refine forall₂_congr fun c' _ => ?_
    rw [← not_and_or, ← not_and_or, and_assoc, not_and, not_and]
  · refine forall₂_congr fun t _ => ?_
    rw [← not_and_or, ← not_and_or, ← imp_iff_not_or, and_imp, and_imp]

theorem claimNext_claiming (c : Claim) (expired : String) :
    (claimNext c expired).claiming = some c := by
  unfold claimNext
  split_ifs <;> rfl

theorem Safe.take {expired : String} (h : Safe ⟨sh, .claimTake c expired :: calls⟩)
    (hprompt : promptCall (.claimTake c expired :: calls) sh.store (.claimTake c expired) = true)
    (hany : ∃ l ∈ sh.store.locks, l.type = c.type ∧ l.lockedUntil < c.now) :
    Safe ⟨sh.after (sh.store.takeLock c.type c.taskID c.runner c.now c.lockUntil) [],
      (some (claimNext c expired)).toList ++ calls⟩ := by
  obtain ⟨l₀, hl₀, hstale₀⟩ := hany
  obtain ⟨hunclaimed, hguards⟩ := prompt_take_iff.1 hprompt l₀ hl₀ hstale₀
  have hkey := h.knows_head.task c rfl
  obtain ⟨eid, hekey⟩ := h.knows_head.expired _ rfl
  -- the lock of the type is `l₀`
  have htaken : ∀ l ∈ sh.store.locks, l.type = c.type → l = l₀ :=
    fun l hl htype => h.keyed.one.unique hl hl₀ (htype.trans hstale₀.1.symm)
  have hfree : ∀ c' ∈ claims calls, c'.type ≠ c.type := by
    intro c' hc' htype
    obtain ⟨l, hl, hlt, hlid, hlby⟩ := h.held hc'
    have hl' := htaken l hl (hlt.trans htype)
    exact hunclaimed c' hc' (hl' ▸ hlt.symm) (hl' ▸ hlid.symm) (hl' ▸ hlby.symm)
  have hkept : ∀ l ∈ sh.store.locks, l.type ≠ c.type →
      l ∈ (sh.store.takeLock c.type c.taskID c.runner c.now c.lockUntil).locks := by
    intro l hl htype
    have hmem := mem_update_of_mem (p := fun l => decide (l.type = c.type) &&
      decide (l.lockedUntil < c.now)) (f := fun l =>
        (⟨l.type, c.taskID, c.runner, c.lockUntil, c.now⟩ : SystemTaskLock)) hl
    rw [decide_eq_false htype, Bool.false_and, if_neg Bool.false_ne_true] at hmem
    exact hmem
  have hclaims : claims ((some (claimNext c expired)).toList ++ calls) = c :: claims calls :=
    claims_cons_some (claimNext_claiming c expired)
  refine h.next (left ?_) rfl (h.keyed.one.update fun _ => rfl) ?_ ?_ ?_ ?_ ?_
    fun n hn => absurd hn not_mem_nil
  · unfold claimNext
    split_ifs
    · exact ⟨h.knows_head.task, h.knows_head.expired, fun _ hnow => nomatch hnow⟩
    · exact h.knows_head.claim rfl rfl rfl
  · intro l hl
    obtain ⟨l', hl', ⟨hp, rfl⟩ | ⟨-, rfl⟩⟩ := mem_update hl
    · rw [Bool.and_eq_true, decide_eq_true_eq] at hp
      refine ⟨c.id, ?_⟩
      show (c.id, c.taskID, l'.type) ∈ _
      rw [hp.1]
      exact hkey
    · exact h.keyed.named l hl'
  · rw [hclaims]
    intro c' hc'
    obtain rfl | hc' := mem_cons.1 hc'
    · refine ⟨_, mem_update_of_mem hl₀, ?_⟩
      rw [if_pos (by simp [hstale₀.1, hstale₀.2])]
      exact ⟨hstale₀.1, rfl, rfl⟩
    · obtain ⟨l, hl, hheld⟩ := h.held hc'
      exact ⟨l, hkept l hl fun htype => hfree c' hc' (hheld.1.symm.trans htype), hheld⟩
  · rw [hclaims]
    refine nodup_cons.2 ⟨fun hmem => ?_, h.alone⟩
    obtain ⟨c', hc', htype⟩ := mem_map.1 hmem
    exact hfree c' hc' htype
  · intro m hm
    unfold claimNext at hm
    split_ifs at hm with hother
    · obtain rfl | hm := mem_cons.1 hm
      · exact hother.2
      · exact h.others m hm
    · exact h.others m hm
  · intro t ht hrun
    by_cases htc : t.type = c.type
    · -- a running task of the type is the one the lock points to
      obtain ⟨l, hl, htype, hid, -, -⟩ | ⟨c', hc', hct⟩ := h.running t ht hrun
      · have hl' := htaken l hl (htype.trans htc)
        rw [hl'] at htype hid
        obtain ⟨hexp, hne⟩ := hguards t ht hrun htype.symm hid.symm
        have hnonempty : expired ≠ "" := h.keyed.nonempty _ hekey
        refine .inr ⟨c, ?_, htc.symm⟩
        rw [claimNext, if_pos ⟨hnonempty, fun heq => hne (hexp.trans heq)⟩, hexp]
        exact mem_cons_self
      · exact absurd (hct.trans htc) (hfree c' (claim_of_mark hc'))
    · obtain ⟨l, hl, htype, hid, hby, hnone⟩ | ⟨c', hc', hct⟩ := h.running t ht hrun
      · refine .inl ⟨l, hkept l hl fun h' => htc (htype.symm.trans h'), htype, hid, hby, ?_⟩
        rw [hclaims]
        intro hmem
        obtain heq | hmem := mem_cons.1 hmem
        · exact htc heq
        · exact hnone hmem
      · exact .inr ⟨c', mem_marks_append hc', hct⟩

/-- **A claim fails the task of the lock it took over**, whose lease is gone. -/
theorem Safe.fail {expired : String} (h : Safe ⟨sh, .claimMark c expired :: calls⟩) (clock : ℤ) :
    Safe ⟨sh.after (sh.store.markLeaseExpired expired clock) (noteExpiry expired clock sh.store),
      (some (Call.claimRun c)).toList ++ calls⟩ := by
  have hmarks := h.others
  rw [marks_cons_some rfl] at hmarks
  refine h.next (left (h.knows_head.claim rfl rfl rfl)) (keys_update fun _ => rfl) h.keyed.one
    h.keyed.named h.holds h.alone (fun m hm => hmarks m (mem_cons_of_mem _ hm)) ?_ ?_
  · intro t ht hrun
    obtain ⟨t', ht', ⟨-, rfl⟩ | ⟨hp, rfl⟩⟩ := mem_update ht
    · cases hrun
    · obtain hlock | ⟨c', hc', hct⟩ := h.running t ht' hrun
      · exact .inl hlock
      · obtain heq | hc' := mem_cons.1 hc'
        · -- the task it was about to fail does not run any more
          rw [Prod.mk.injEq] at heq
          rw [decide_eq_true heq.2, decide_eq_true hrun] at hp
          cases hp
        · exact .inr ⟨c', hc', hct⟩
  · intro n hn
    unfold noteExpiry at hn
    split_ifs at hn with hrunning
    · rw [mem_singleton.1 hn]
      obtain ⟨t, ht, hrun⟩ := any_eq_true.1 hrunning
      rw [Bool.and_eq_true, decide_eq_true_eq, decide_eq_true_eq] at hrun
      obtain ⟨id, hkey⟩ := h.knows_head.expired _ rfl
      refine any_eq_false.2 fun l hl hvalid => ?_
      rw [Bool.and_eq_true, decide_eq_true_eq, decide_eq_true_eq] at hvalid
      refine h.lock_of_mark (c := c) (e := expired) mem_cons_self hl ?_ hvalid.1
      rw [h.keyed.lock_type hl ht (hvalid.1.trans hrun.1.symm)]
      have htkey := mem_keys ht
      rw [hrun.1] at htkey
      exact h.keyed.type_eq htkey hkey
    · exact absurd hn not_mem_nil

/-- **A claim starts its task**, while it has the lock. -/
theorem Safe.run (h : Safe ⟨sh, .claimRun c :: calls⟩) :
    Safe ⟨sh.after (sh.store.runTask c.id c.type c.runner c.now) [],
      (some (Call.claimLoad c)).toList ++ calls⟩ := by
  have halone := h.alone
  rw [claims_cons_some rfl, map_cons, nodup_cons] at halone
  have hkey := h.knows_head.task c rfl
  refine h.next (left (h.knows_head.claim rfl rfl rfl)) (keys_update fun _ => rfl) h.keyed.one
    h.keyed.named (fun _ => h.held) halone.2 h.others ?_ fun n hn => absurd hn not_mem_nil
  intro t ht hrun
  obtain ⟨t', ht', ⟨hp, rfl⟩ | ⟨-, rfl⟩⟩ := mem_update ht
  · simp only [claimable, Bool.and_eq_true, decide_eq_true_eq] at hp
    have hsame := inj_on_of_nodup_map h.keyed.ids (mem_keys ht') hkey hp.1.1
    rw [Prod.mk.injEq, Prod.mk.injEq] at hsame
    obtain ⟨l, hl, htype, hid, hby⟩ := h.holds c mem_cons_self
    refine .inl ⟨l, hl, htype.trans hsame.2.2.symm, hid.trans hsame.2.1.symm, hby, ?_⟩
    show t'.type ∉ _
    rw [hsame.2.2]
    exact halone.1
  · obtain ⟨l, hl, htype, hid, hby, hnone⟩ | hmark := h.running t ht' hrun
    · exact .inl ⟨l, hl, htype, hid, hby, fun hmem => hnone (mem_cons_of_mem _ hmem)⟩
    · exact .inr hmark

theorem Safe.giveBack (h : Safe ⟨sh, .claimRelease c :: calls⟩) :
    Safe ⟨sh.after (sh.store.releaseLock c.taskID c.runner) [],
      (none : Option Call).toList ++ calls⟩ := by
  have halone := h.alone
  rw [claims_cons_some rfl, map_cons, nodup_cons] at halone
  have hkey := h.knows_head.task c rfl
  have hkept : ∀ l ∈ sh.store.locks, l.type ≠ c.type →
      l ∈ (sh.store.releaseLock c.taskID c.runner).locks := by
    intro l hl htype
    refine mem_filter.2 ⟨hl, ?_⟩
    have hne : l.taskID ≠ c.taskID := by
      intro hid
      obtain ⟨id, hk⟩ := h.keyed.named l hl
      rw [hid] at hk
      exact htype (h.keyed.type_eq hk hkey)
    rw [decide_eq_false hne]
    rfl
  refine h.next noCall rfl (h.keyed.one.delete _) ?_ ?_ halone.2 h.others ?_
    fun n hn => absurd hn not_mem_nil
  · intro l hl
    exact h.keyed.named l (mem_filter.1 hl).1
  · intro c' hc'
    obtain ⟨l, hl, hheld⟩ := h.held hc'
    refine ⟨l, hkept l hl fun htype => halone.1 ?_, hheld⟩
    rw [← htype, hheld.1]
    exact mem_map_of_mem hc'
  · intro t ht hrun
    obtain ⟨l, hl, htype, hid, hby, hnone⟩ | hmark := h.running t ht hrun
    · refine .inl ⟨l, hkept l hl fun htc => hnone ?_, htype, hid, hby, ?_⟩
      · rw [← htype, htc]
        exact mem_cons_self
      · exact fun hmem => hnone (mem_cons_of_mem _ hmem)
    · exact .inr hmark

/-- A claim finds its task started by another one. -/
theorem Safe.lost (h : Safe ⟨sh, .claimRun c :: calls⟩) :
    Safe ⟨sh.after sh.store [], (some (Call.claimRelease c)).toList ++ calls⟩ :=
  h.next (left (h.knows_head.claim rfl rfl rfl)) rfl h.keyed.one h.keyed.named h.holds h.alone
    h.others h.running fun n hn => absurd hn not_mem_nil

/-- **A runner crashes**, not having to fail a task any more. -/
theorem Safe.crash {x : Call} (h : Safe ⟨sh, x :: calls⟩) (hx : harmless sh.store x = true) :
    Safe ⟨sh.after sh.store [], (none : Option Call).toList ++ calls⟩ := by
  have hclaims : (claims calls).Sublist (claims (x :: calls)) :=
    (sublist_cons_self x calls).filterMap _
  have hmarks : (marks calls).Sublist (marks (x :: calls)) :=
    (sublist_cons_self x calls).filterMap _
  refine h.next noCall rfl h.keyed.one h.keyed.named (fun _ => h.held)
    ((hclaims.map _).nodup h.alone) (fun m hm => h.others m (hmarks.subset hm)) ?_
    fun n hn => absurd hn not_mem_nil
  intro t ht hrun
  obtain ⟨l, hl, htype, hid, hby, hnone⟩ | ⟨c, hc, hct⟩ := h.running t ht hrun
  · exact .inl ⟨l, hl, htype, hid, hby, fun hmem => hnone ((hclaims.map _).subset hmem)⟩
  · cases hm : x.marking with
    | none =>
      rw [marks_cons_none hm] at hc
      exact .inr ⟨c, hc, hct⟩
    | some m =>
      rw [marks_cons_some hm] at hc
      obtain heq | hc := mem_cons.1 hc
      · rw [← heq] at hm
        cases x <;> simp only [Call.marking, reduceCtorEq, Option.some.injEq, Prod.mk.injEq] at hm
        have hdone := all_eq_true.1 hx t ht
        rw [hm.2, decide_eq_true hrun, decide_eq_true rfl] at hdone
        cases hdone
      · exact .inr ⟨c, hc, hct⟩

end Claims

/-! ### Events -/

section Events

variable {sh : Shared} {calls : List Call} {x : Call} {ans : Answer}

theorem noNotes : ∀ n ∈ ([] : List Note), n.fine := fun _ hn => absurd hn not_mem_nil

theorem Safe.claimRead {c : Claim} (h : Safe ⟨sh, .claimRead c :: calls⟩)
    (hok : ans.fails = false) :
    Safe ⟨sh.after (act sh.clock ans sh.store (.claimRead c)).store
        (act sh.clock ans sh.store (.claimRead c)).notes,
      (act sh.clock ans sh.store (.claimRead c)).call.toList ++ calls⟩ := by
  simp only [act, hok, Bool.false_eq_true, if_false]
  cases ht : sh.store.task (claimable c.id c.type) with
  | none => exact h.ends rfl noNotes
  | some t =>
    have hclaim := find?_some ht
    have hmem := mem_keys (mem_of_find?_eq_some ht)
    simp only [claimable, Bool.and_eq_true, decide_eq_true_eq] at hclaim
    rw [hclaim.1.1, hclaim.1.2] at hmem
    refine h.same rfl (left rfl) (left ⟨fun c' hc' => ?_, ?_, ?_⟩) noNotes
    · cases hc'
      exact hmem
    · exact fun _ hm => by cases hm
    · exact fun _ hnow => by cases hnow

theorem Safe.claimFind {c : Claim} (h : Safe ⟨sh, .claimFind c :: calls⟩)
    (hok : ans.fails = false) :
    Safe ⟨sh.after (act sh.clock ans sh.store (.claimFind c)).store
        (act sh.clock ans sh.store (.claimFind c)).notes,
      (act sh.clock ans sh.store (.claimFind c)).call.toList ++ calls⟩ := by
  simp only [act, hok, Bool.false_eq_true, if_false]
  cases hl : sh.store.lock c.type with
  | none => exact h.ends rfl noNotes
  | some l =>
    simp only
    split_ifs
    · exact h.ends rfl noNotes
    · obtain ⟨id, hk⟩ := h.keyed.named l (Table.get_mem hl)
      have htype : l.type = c.type := Table.get_key hl
      refine h.same rfl (left rfl) (left ⟨h.knows_head.task, fun m hm => ?_, ?_⟩) noNotes
      · cases hm
        exact ⟨id, htype ▸ hk⟩
      · exact fun _ hnow => by cases hnow

theorem Knows.sweep (hread : x.reading = none) (hfind : x.finding = none)
    (hswept : x.swept = some now) (hnow : now ≤ sh.clock) : Knows sh x := by
  refine ⟨fun c hc => ?_, fun m hm => ?_, fun now' hn => ?_⟩
  · rw [hread] at hc
    cases hc
  · rw [hfind] at hm
    cases hm
  · rw [hswept] at hn
    cases hn
    exact hnow

theorem expireNext_knows (hnow : now ≤ sh.clock) (locks : List SystemTaskLock) :
    (∀ y ∈ expireNext now locks, y.claiming = none) ∧ ∀ y ∈ expireNext now locks, Knows sh y := by
  cases locks with
  | nil => exact ⟨noCall, noCall⟩
  | cons l locks => exact ⟨left rfl, left (.sweep rfl rfl rfl hnow)⟩

theorem Safe.sweep {lock : SystemTaskLock} {locks : List SystemTaskLock}
    (h : Safe ⟨sh, .expireMark now lock locks :: calls⟩)
    (hprompt : promptCall (.expireMark now lock locks :: calls) sh.store
      (.expireMark now lock locks) = true) :
    Safe ⟨sh.after (sh.store.markLeaseExpired lock.taskID sh.clock)
        (noteExpiry lock.taskID sh.clock sh.store),
      (some (Call.expireDelete now lock locks)).toList ++ calls⟩ := by
  have hnow := h.knows_head.time now rfl
  refine h.mark rfl (left rfl) (left (.sweep rfl rfl rfl hnow)) ?_
  intro n hn
  unfold noteExpiry at hn
  split_ifs at hn with hrunning
  · rw [mem_singleton.1 hn]
    refine any_eq_false.2 fun l hl hvalid => ?_
    rw [Bool.and_eq_true, decide_eq_true_eq, decide_eq_true_eq] at hvalid
    have hstale := all_eq_true.1 hprompt l hl
    simp only [Bool.or_eq_true, decide_eq_true_eq] at hstale
    obtain (hne | hlt) | hnone := hstale
    · exact hne hvalid.1
    · exact absurd (hlt.trans_le (hnow.trans hvalid.2)) (lt_irrefl _)
    · obtain ⟨t, ht, hrun⟩ := any_eq_true.1 hrunning
      have := all_eq_true.1 hnone t ht
      rw [hrun] at this
      cases this
  · exact absurd hn not_mem_nil

theorem Safe.act (h : Safe ⟨sh, x :: calls⟩) (hok : ans.fails = false)
    (hprompt : promptCall (x :: calls) sh.store x = true) :
    Safe ⟨sh.after (act sh.clock ans sh.store x).store (act sh.clock ans sh.store x).notes,
      (act sh.clock ans sh.store x).call.toList ++ calls⟩ := by
  have hf : ¬ ans.fails = true := by simp [hok]
  cases x with
  | claimRead c => exact h.claimRead hok
  | claimInsert c =>
    simp only [SystemTasks.act, if_neg hf]
    cases hi : sh.store.insertLock ⟨c.type, c.taskID, c.runner, c.lockUntil, c.now⟩ with
    | none => exact h.same rfl (left rfl) (left (h.knows_head.claim rfl rfl rfl)) noNotes
    | some s' => exact h.insert hi
  | claimFind c => exact h.claimFind hok
  | claimTake c expired =>
    simp only [SystemTasks.act, if_neg hf]
    split_ifs with htake
    · rw [Bool.and_eq_true, any_eq_true] at htake
      obtain ⟨l, hl, hstale⟩ := htake.1
      rw [Bool.and_eq_true, decide_eq_true_eq, decide_eq_true_eq] at hstale
      exact h.take hprompt ⟨l, hl, hstale⟩
    · exact h.ends rfl noNotes
  | claimMark c expired =>
    simp only [SystemTasks.act, if_neg hf]
    exact h.fail sh.clock
  | claimRun c =>
    simp only [SystemTasks.act, if_neg hf]
    split_ifs
    · exact h.run
    · exact h.lost
  | claimLoad c =>
    obtain ⟨t, ht, hkeys⟩ := mem_map.1 (h.knows_head.task c rfl)
    have hid : t.id = c.id := congrArg Prod.fst hkeys
    have hfound : (sh.store.tasks.any fun t => decide (t.id = c.id)) = true :=
      any_eq_true.2 ⟨t, ht, decide_eq_true hid⟩
    simp only [SystemTasks.act, hok, hfound, Bool.not_true, Bool.or_false, Bool.false_eq_true,
      if_false]
    exact h.ends rfl noNotes
  | claimRelease c =>
    simp only [SystemTasks.act, if_neg hf]
    exact h.giveBack
  | write field taskID runner text now =>
    simp only [SystemTasks.act, if_neg hf]
    split_ifs
    · exact h.write rfl field taskID runner text now
    · exact h.same rfl (left rfl) (left (.nothing rfl rfl rfl)) noNotes
  | count taskID runner now =>
    simp only [SystemTasks.act, if_neg hf]
    exact h.ends rfl (h.keyed.wrote taskID runner now)
  | renew taskID runner lockUntil now =>
    simp only [SystemTasks.act, if_neg hf]
    exact h.locks rfl fun _ => ⟨rfl, rfl, rfl⟩
  | transfer taskID type fromRunner toRunner lockUntil now =>
    simp only [SystemTasks.act, if_neg hf]
    obtain heq | ⟨htask, hlock, heq⟩ :=
      transfer_cases sh.store ans.reported taskID type fromRunner toRunner now lockUntil
    · rw [heq]
      exact h.ends rfl noNotes
    · rw [heq]
      exact h.transfer rfl toRunner lockUntil htask hlock
  | finish taskID runner status result error now =>
    simp only [SystemTasks.act, if_neg hf]
    split_ifs
    · exact h.finish rfl taskID runner status result error now
    · exact h.ends rfl noNotes
  | release taskID runner =>
    simp only [SystemTasks.act, if_neg hf]
    exact h.delete rfl noCall noCall hprompt
  | expireFind now =>
    simp only [SystemTasks.act, if_neg hf]
    obtain ⟨hfree, hknows⟩ := expireNext_knows (h.knows_head.time now rfl)
      (sh.store.locks.filter fun l => decide (l.lockedUntil < now))
    exact h.same rfl hfree hknows noNotes
  | expireMark now lock locks =>
    simp only [SystemTasks.act, if_neg hf]
    exact h.sweep hprompt
  | expireDelete now lock locks =>
    simp only [SystemTasks.act, if_neg hf]
    obtain ⟨hfree, hknows⟩ := expireNext_knows (h.knows_head.time now rfl) locks
    exact h.delete rfl hfree hknows hprompt

theorem promptCall_perm {calls' : List Call} (hp : calls.Perm calls') :
    promptCall calls s x = promptCall calls' s x := by
  have hclaims : (claims calls).Perm (claims calls') := hp.filterMap _
  have hfree : unclaimed calls = unclaimed calls' := funext fun l => hclaims.all_eq
  cases x <;> simp only [promptCall, idle, hfree]

variable {p : Pool Shared Call}

theorem Safe.create (h : Safe p) (id : ℤ) (key type activeKey payload state : String) :
    Safe (step p (.create id key type activeKey payload state)) := by
  simp only [SystemTasks.step, Pool.outside]
  obtain heq | ⟨t₀, hpending, hname, hfree, heq⟩ :=
    create_cases id key type activeKey payload state p.shared.clock p.shared.store
  · rw [heq]
    exact h
  rw [heq]
  have hkeys : ({ p.shared.store with tasks := p.shared.store.tasks ++ [t₀] } : Store).keys =
      p.shared.store.keys ++ [t₀.keys] := map_append
  have hsub : ∀ k ∈ p.shared.store.keys,
      k ∈ ({ p.shared.store with tasks := p.shared.store.tasks ++ [t₀] } : Store).keys := by
    intro k hk
    rw [hkeys]
    exact mem_append_left _ hk
  have hnew : ∀ k ∈ p.shared.store.keys, k.1 ≠ t₀.id ∧ k.2.1 ≠ t₀.taskID := by
    intro k hk
    obtain ⟨t, ht, rfl⟩ := mem_map.1 hk
    exact hfree t ht
  refine ⟨⟨h.keyed.one, ?_, ?_, ?_, ?_⟩, ?_, h.holds, h.alone, h.others, ?_, h.notes⟩
  · rw [hkeys, map_append, map_singleton]
    refine nodup_append.2 ⟨h.keyed.ids, nodup_singleton _, ?_⟩
    intro a ha b hb
    obtain ⟨k, hk, rfl⟩ := mem_map.1 ha
    rw [mem_singleton.1 hb]
    exact (hnew k hk).1
  · rw [hkeys, map_append, map_singleton]
    refine nodup_append.2 ⟨h.keyed.taskIDs, nodup_singleton _, ?_⟩
    intro a ha b hb
    obtain ⟨k, hk, rfl⟩ := mem_map.1 ha
    rw [mem_singleton.1 hb]
    exact (hnew k hk).2
  · intro k hk
    rw [hkeys] at hk
    obtain hk | hk := mem_append.1 hk
    · exact h.keyed.nonempty k hk
    · rw [mem_singleton.1 hk]
      exact hname
  · intro l hl
    obtain ⟨id, hk⟩ := h.keyed.named l hl
    exact ⟨id, hsub _ hk⟩
  · intro x hx
    have hx := h.knows x hx
    refine ⟨fun c hc => hsub _ (hx.task c hc), fun m hm => ?_, hx.time⟩
    obtain ⟨id, hk⟩ := hx.expired m hm
    exact ⟨id, hsub _ hk⟩
  · intro t ht hrun
    obtain ht | ht := mem_append.1 ht
    · exact h.running t ht hrun
    · rw [mem_singleton.1 ht, hpending] at hrun
      cases hrun

/-- An operation begins with no lock, and knows the time. -/
theorem Safe.begin (h : Safe p) {op : Op} {x : Call}
    (hop : op.call p.shared.clock = some x) : Safe (p.start x) := by
  have hx : x.claiming = none ∧ Knows p.shared x := by
    cases op <;> simp only [Op.call] at hop <;> (try split_ifs at hop) <;> cases hop
    case expire => exact ⟨rfl, .sweep rfl rfl rfl le_rfl⟩
    all_goals exact ⟨rfl, .nothing rfl rfl rfl⟩
  obtain ⟨hfree, hknows⟩ := hx
  have hsafe : Safe ⟨p.shared, x :: p.calls⟩ := by
    refine ⟨h.keyed, ?_, ?_, ?_, ?_, ?_, h.notes⟩
    · intro y hy
      obtain rfl | hy := mem_cons.1 hy
      · exact hknows
      · exact h.knows y hy
    · rw [claims_cons_none hfree]
      exact h.holds
    · rw [claims_cons_none hfree]
      exact h.alone
    · rw [marks_cons_none (marking_of_claiming hfree)]
      exact h.others
    · intro t ht hrun
      have hcov := h.running t ht hrun
      unfold Covered at hcov ⊢
      rw [claims_cons_none hfree, marks_cons_none (marking_of_claiming hfree)]
      exact hcov
  exact hsafe.perm (perm_append_singleton x p.calls).symm

theorem Safe.tick (h : Safe p) (d : ℕ) : Safe (step p (.tick d)) := by
  refine ⟨h.keyed, fun x hx => ?_, h.holds, h.alone, h.others, h.running, h.notes⟩
  have hx := h.knows x hx
  refine ⟨hx.task, hx.expired, fun now hnow => ?_⟩
  have := hx.time now hnow
  show now ≤ p.shared.clock + d
  omega

theorem Safe.step (h : Safe p) {e : Event} (hok : e.succeeds = true)
    (hprompt : prompt p e = true) : Safe (step p e) := by
  have hmoves : ∀ {before after : List Call} {x : Call}, p.calls = before ++ x :: after →
      Safe ⟨p.shared, x :: (before ++ after)⟩ ∧ p.calls.Perm (x :: (before ++ after)) := by
    intro before after x hcalls
    have hperm : p.calls.Perm (x :: (before ++ after)) := by
      rw [hcalls]
      exact perm_middle
    have h' : Safe ⟨p.shared, p.calls⟩ := h
    exact ⟨h'.perm hperm, hperm⟩
  have hback : ∀ {sh : Shared} {before after : List Call} {rest : Option Call},
      Safe ⟨sh, rest.toList ++ (before ++ after)⟩ → Safe ⟨sh, before ++ rest.toList ++ after⟩ := by
    intro sh before after rest hsafe
    refine hsafe.perm ?_
    rw [← append_assoc]
    exact perm_append_comm.append_right _
  cases e with
  | create id key type activeKey payload state => exact h.create id key type activeKey payload state
  | begin op =>
    simp only [SystemTasks.step]
    cases hop : op.call p.shared.clock with
    | none => exact h
    | some x => exact h.begin hop
  | resume i ans =>
    simp only [SystemTasks.step, prompt] at hprompt ⊢
    obtain ⟨-, heq⟩ | ⟨before, x, after, hx, hcalls, heq⟩ := p.resume_cases (resumeCall ans) i
    · rw [heq]
      exact h
    · rw [heq]
      rw [hx] at hprompt
      obtain ⟨hsafe, hperm⟩ := hmoves hcalls
      have hprompt : promptCall p.calls p.shared.store x = true := hprompt
      rw [promptCall_perm hperm] at hprompt
      have hans : ans.fails = false := by simpa [Event.succeeds] using hok
      exact hback (hsafe.act hans hprompt)
  | crash i =>
    simp only [SystemTasks.step, prompt] at hprompt ⊢
    obtain ⟨-, heq⟩ | ⟨before, x, after, hx, hcalls, heq⟩ :=
      p.resume_cases (fun (sh : Shared) (_ : Call) => (sh, none)) i
    · rw [heq]
      exact h
    · rw [heq]
      rw [hx] at hprompt
      exact hback ((hmoves hcalls).1.crash hprompt)
  | tick d => exact h.tick d

end Events

/-! ### Ended tasks -/

section Ended

variable {s : Store} {t : SystemTask}

theorem ended_update {p : SystemTask → Bool} (ht : t ∈ s.tasks)
    (hp : p t = false) : t ∈ update p f s.tasks := by
  have hmem := mem_update_of_mem (p := p) (f := f) ht
  rw [hp, if_neg Bool.false_ne_true] at hmem
  exact hmem

theorem Status.not_running {status : Status} (h : status.terminal = true) :
    status ≠ .running ∧ status ≠ .pending := by
  cases status <;> simp_all [Status.terminal]

theorem act_ended (ht : t ∈ s.tasks) (hend : t.status.terminal = true) (clock : ℤ) (ans : Answer)
    (x : Call) : t ∈ (act clock ans s x).store.tasks := by
  by_cases hf : ans.fails = true
  · rw [act_fails hf]
    exact ht
  obtain ⟨hrun, hpend⟩ := Status.not_running hend
  have hruns : ∀ taskID runner, runs taskID runner t = false := by
    intro taskID runner
    simp [runs, hrun]
  have hmark : ∀ taskID, (decide (t.taskID = taskID) && decide (t.status = .running)) = false := by
    intro taskID
    simp [hrun]
  cases x with
  | claimRead c =>
    simp only [act, if_neg hf]
    split <;> exact ht
  | claimInsert c =>
    simp only [act, if_neg hf, Store.insertLock]
    split_ifs <;> exact ht
  | claimFind c =>
    simp only [act, if_neg hf]
    split
    · exact ht
    · split_ifs <;> exact ht
  | claimTake c expired =>
    simp only [act, if_neg hf]
    split_ifs <;> exact ht
  | claimMark c expired =>
    simp only [act, if_neg hf]
    exact ended_update ht (hmark expired)
  | claimRun c =>
    simp only [act, if_neg hf]
    split_ifs
    · exact ended_update ht (by simp [claimable, hpend])
    · exact ht
  | claimLoad c =>
    simp only [act]
    split_ifs <;> exact ht
  | claimRelease | count | renew | release | expireFind | expireDelete =>
    simp only [act, if_neg hf]
    exact ht
  | write field taskID runner text now =>
    simp only [act, if_neg hf, Store.writeTask]
    split_ifs
    · exact ended_update ht (hruns taskID runner)
    · exact ht
    · exact ht
    · exact ht
  | transfer taskID type fromRunner toRunner lockUntil now =>
    simp only [act, if_neg hf]
    obtain heq | ⟨-, -, heq⟩ :=
      transfer_cases s ans.reported taskID type fromRunner toRunner now lockUntil
    · rw [heq]
      exact ht
    · rw [heq]
      refine ended_update ht ?_
      rw [hruns, Bool.false_and]
  | finish taskID runner status result error now =>
    simp only [act, if_neg hf, Store.finishTask]
    split_ifs
    · exact ended_update ht (hruns taskID runner)
    · exact ht
    · exact ht
  | expireMark now lock locks =>
    simp only [act, if_neg hf]
    exact ended_update ht (hmark lock.taskID)

theorem step_ended {p : Pool Shared Call} (ht : t ∈ p.shared.store.tasks)
    (hend : t.status.terminal = true) (e : Event) : t ∈ (step p e).shared.store.tasks := by
  cases e with
  | create id key type activeKey payload state =>
    simp only [step, Pool.outside_shared]
    obtain heq | ⟨t₀, -, -, -, heq⟩ :=
      create_cases id key type activeKey payload state p.shared.clock p.shared.store
    · rw [heq]
      exact ht
    · rw [heq]
      exact mem_append_left _ ht
  | begin op =>
    simp only [step]
    split <;> exact ht
  | resume i ans =>
    simp only [step]
    obtain ⟨-, heq⟩ | ⟨before, x, after, -, -, heq⟩ := p.resume_cases (resumeCall ans) i
    · rw [heq]
      exact ht
    · rw [heq]
      exact act_ended ht hend p.shared.clock ans x
  | crash i =>
    simp only [step]
    obtain ⟨-, heq⟩ | ⟨before, x, after, -, -, heq⟩ :=
      p.resume_cases (fun (sh : Shared) (_ : Call) => (sh, none)) i
    · rw [heq]
      exact ht
    · rw [heq]
      exact ht
  | tick d => exact ht

/-- **A task that has ended stays as it is**, whatever happens. -/
theorem run_ended {p : Pool Shared Call} (ht : t ∈ p.shared.store.tasks)
    (hend : t.status.terminal = true) (es : List Event) :
    t ∈ (Machine.run step p es).shared.store.tasks := by
  induction es generalizing p with
  | nil => exact ht
  | cons e es ih => exact ih (step_ended ht hend e)

end Ended

/-! ### Runs -/

theorem safe_fresh (clock : ℤ) : Safe (fresh clock) where
  keyed := by
    refine ⟨nodup_nil, nodup_nil, nodup_nil, ?_, ?_⟩
    · exact fun k hk => absurd hk not_mem_nil
    · exact fun l hl => absurd hl not_mem_nil
  knows := fun x hx => absurd hx not_mem_nil
  holds := fun c hc => absurd hc not_mem_nil
  alone := nodup_nil
  others := fun m hm => absurd hm not_mem_nil
  running := fun t ht => absurd ht not_mem_nil
  notes := fun n hn => absurd hn not_mem_nil

theorem safe_run {es : List Event} (hok : ∀ e ∈ es, e.succeeds = true)
    (hprompt : Machine.Meets step (fun p e => prompt p e = true) (fresh clock) es) :
    Machine.Always step Safe (fresh clock) es := by
  have hmeets : ∀ {p : Pool Shared Call} {es : List Event}, (∀ e ∈ es, e.succeeds = true) →
      Machine.Meets step (fun p e => prompt p e = true) p es →
      Machine.Meets step (fun p e => e.succeeds = true ∧ prompt p e = true) p es := by
    intro p es hok hprompt
    induction es generalizing p with
    | nil => trivial
    | cons e es ih =>
      refine ⟨⟨hok e mem_cons_self, hprompt.1⟩, ih (fun e' he' => ?_) hprompt.2⟩
      exact hok e' (mem_cons_of_mem _ he')
  exact Machine.Always.of_meets (fun p e h hc => h.step hc.1 hc.2) (safe_fresh clock)
    (hmeets hok hprompt)

/-- **The lock keeps runners apart in every run whose events are all prompt.**  In every state at
most one task of a type runs, every write so far was made under the lease, and no task was failed
for a lease that is valid; and a task that has ended is never changed again. -/
theorem exclusive_of_prompt (clock : ℤ) (es : List Event) (hok : ∀ e ∈ es, e.succeeds = true)
    (hprompt : Machine.Meets step (fun p e => prompt p e = true) (fresh clock) es) :
    Machine.Always step (fun p => Exclusive p.shared) (fresh clock) es ∧
      ∀ es₁ es₂, es = es₁ ++ es₂ →
        ∀ t ∈ (Machine.run step (fresh clock) es₁).shared.store.tasks, t.status.terminal = true →
          t ∈ (Machine.run step (fresh clock) es).shared.store.tasks ∧
            ∀ t' ∈ (Machine.run step (fresh clock) es).shared.store.tasks,
              t'.taskID = t.taskID → t' = t := by
  have hsafe := safe_run hok hprompt
  refine ⟨hsafe.imp fun p h => h.exclusive, ?_⟩
  intro es₁ es₂ hes t ht hend
  have hmem : t ∈ (Machine.run step (fresh clock) es).shared.store.tasks := by
    rw [hes, Machine.run_append]
    exact run_ended ht hend es₂
  exact ⟨hmem, fun t' ht' hid => hsafe.run.keyed.task_eq ht' hmem hid⟩

/-- A task is claimed and written to.  Its lease expires, and the claim of the next task fails it. -/
def orderly : List Event :=
  [.create 1 "a" "upstream_sync" "upstream_sync:1" "" "",
    .create 2 "b" "upstream_sync" "upstream_sync:2" "" "",
    .begin (.claim 1 "upstream_sync" "r1" 60), .resume 0 ok, .resume 0 ok, .resume 0 ok,
    .resume 0 ok, .begin (.write .state "systask_a" "r1" "50%"), .resume 0 ok, .tick 100,
    .begin (.claim 2 "upstream_sync" "r2" 160), .resume 0 ok, .resume 0 ok, .resume 0 ok,
    .resume 0 ok, .resume 0 ok, .resume 0 ok, .resume 0 ok]

theorem exclusive_of_prompt_orderly :
    ((Machine.run step (fresh 0) orderly).shared.store.tasks.map fun t => (t.taskID, t.status)) =
        [("systask_a", .failed), ("systask_b", .running)] ∧
      (Machine.run step (fresh 0) orderly).shared.journal =
        [.leaseExpired "systask_a" false, .wrote "systask_a" "r1" true] ∧
      Machine.Always step (fun p => Exclusive p.shared) (fresh 0) orderly :=
  ⟨by decide, by decide, (exclusive_of_prompt 0 orderly (by decide) (by decide)).1⟩

/-- A claim has taken the lock and stands still until the lease has expired.  Another claim takes
the lock over and starts its task; then the first one starts its own. -/
def overtaken : List Event :=
  [.create 1 "a" "upstream_sync" "upstream_sync:1" "" "",
    .create 2 "b" "upstream_sync" "upstream_sync:2" "" "",
    .begin (.claim 1 "upstream_sync" "r1" 60), .resume 0 ok, .resume 0 ok, .tick 100,
    .begin (.claim 2 "upstream_sync" "r2" 160), .resume 1 ok, .resume 1 ok, .resume 1 ok,
    .resume 1 ok, .resume 1 ok, .resume 1 ok, .resume 1 ok, .resume 0 ok]

/-- A renewal that began in time runs between the two statements of a sweep. -/
def renewed : List Event :=
  [.create 1 "a" "upstream_sync" "upstream_sync:1" "" "",
    .begin (.claim 1 "upstream_sync" "r1" 60), .resume 0 ok, .resume 0 ok, .resume 0 ok,
    .resume 0 ok, .tick 60, .begin (.renew "systask_a" "r1" 160), .tick 1, .begin .expire,
    .resume 1 ok, .resume 0 ok, .resume 0 ok]

/-- **Two tasks of one type run at a time, and a task is failed whose lease is valid**, with no
statement failing and nobody crashing. -/
theorem overtaken_not_exclusive :
    (∀ e ∈ overtaken, e.succeeds = true) ∧
      ((Machine.run step (fresh 0) overtaken).shared.store.tasks.map fun t =>
          (t.taskID, t.type, t.status)) =
        [("systask_a", "upstream_sync", .running), ("systask_b", "upstream_sync", .running)] ∧
      ¬ Machine.Always step (fun p => Exclusive p.shared) (fresh 0) overtaken ∧
      (∀ e ∈ renewed, e.succeeds = true) ∧
      ((Machine.run step (fresh 0) renewed).shared.store.tasks.map fun t =>
          (t.taskID, t.status, t.error)) = [("systask_a", .failed, "task lease expired")] ∧
      ((Machine.run step (fresh 0) renewed).shared.store.locks.map fun l =>
          (l.taskID, l.lockedBy, l.lockedUntil)) = [("systask_a", "r1", 160)] ∧
      ¬ Machine.Always step (fun p => Exclusive p.shared) (fresh 0) renewed := by
  refine ⟨by decide, by decide, fun h => ?_, by decide, by decide, by decide, fun h => ?_⟩
  · have htwo : ∃ t ∈ (Machine.run step (fresh 0) overtaken).shared.store.tasks,
        ∃ t' ∈ (Machine.run step (fresh 0) overtaken).shared.store.tasks,
          t.status = .running ∧ t'.status = .running ∧ t.type = t'.type ∧ t ≠ t' := by decide
    obtain ⟨t, ht, t', ht', hrun, hrun', htype, hne⟩ := htwo
    exact hne (h.run.one t ht t' ht' hrun hrun' htype)
  · have hnote : Note.leaseExpired "systask_a" true ∈
        (Machine.run step (fresh 0) renewed).shared.journal := by decide
    exact Bool.false_ne_true (h.run.notes _ hnote).symm

end NexusTok.SystemTasks
