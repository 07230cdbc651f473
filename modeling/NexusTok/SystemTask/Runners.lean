import NexusTok.Machine.Pool
import NexusTok.SystemTask.Basic

/-!
# Runners of system tasks

The operations on system tasks, cut at their statements, and the machine that interleaves any
number of them.  An operation reads the clock once, when it begins, and compares leases with that
time to its end.  A statement may fail, and a runner may crash between two statements: its call is
then never resumed.

`ClaimSystemTask` takes the lock of the type before it fails the task the lock pointed to, and it
starts its own task without asking whether it still has the lock.  `ExpireStaleSystemTaskLocks`
fails the tasks of the locks it has read, whatever has become of the locks.

What the writes and the expiries found is noted in a journal that no code reads.

* `step` : one event.
* `create_cases` : a task is created under new keys.
-/

namespace NexusTok.SystemTasks

/-! ### Calls -/

/-- A call of `ClaimSystemTask`, and the task it has read. -/
structure Claim where
  id : ℤ
  type : String
  runner : String
  lockUntil : ℤ
  now : ℤ
  taskID : String
  deriving DecidableEq

/-- Where a call stands: before the statement named. -/
inductive Call where
  /-- The pending task is read. -/
  | claimRead (c : Claim)
  /-- `acquireSystemTaskLock`: the lock is created. -/
  | claimInsert (c : Claim)
  /-- The lock that is there is read. -/
  | claimFind (c : Claim)
  /-- The lock, which pointed to `expired`, is taken over. -/
  | claimTake (c : Claim) (expired : String)
  /-- The task the lock pointed to is failed. -/
  | claimMark (c : Claim) (expired : String)
  /-- The task starts to run. -/
  | claimRun (c : Claim)
  /-- The task is read again. -/
  | claimLoad (c : Claim)
  /-- The lock is released, the claim having come to nothing. -/
  | claimRelease (c : Claim)
  /-- `UpdateSystemTaskState`, `UpdateSystemTaskPayload`. -/
  | write (field : Field) (taskID runner text : String) (now : ℤ)
  /-- The lease is counted after a write that changed no row. -/
  | count (taskID runner : String) (now : ℤ)
  | renew (taskID runner : String) (lockUntil now : ℤ)
  | transfer (taskID type fromRunner toRunner : String) (lockUntil now : ℤ)
  | finish (taskID runner : String) (status : Status) (result error : String) (now : ℤ)
  /-- `ReleaseSystemTaskLock`, also at the end of `FinishSystemTask`. -/
  | release (taskID runner : String)
  /-- `ExpireStaleSystemTaskLocks`: the expired locks are read. -/
  | expireFind (now : ℤ)
  /-- The task of the first of the locks is failed. -/
  | expireMark (now : ℤ) (lock : SystemTaskLock) (locks : List SystemTaskLock)
  /-- The first of the locks is deleted. -/
  | expireDelete (now : ℤ) (lock : SystemTaskLock) (locks : List SystemTaskLock)
  deriving DecidableEq

/-- What a statement found. -/
inductive Note where
  /-- A state, a payload, a transfer or an end was written for a runner that held the lease of the
  task, or not. -/
  | wrote (taskID runner : String) (held : Bool)
  /-- A task was failed because its lease expired, and the lease is valid, or not. -/
  | leaseExpired (taskID : String) (valid : Bool)
  deriving DecidableEq

/-- The task runs for `runner`, and the lock of its type says so until `now` at least. -/
def holdsLease (taskID runner : String) (now : ℤ) (s : Store) : Bool :=
  s.tasks.any fun t => runs taskID runner t &&
    s.locks.any fun l => decide (l.type = t.type) && Store.renewable taskID runner now l

/-- Some lease of the task is valid. -/
def leaseValid (taskID : String) (now : ℤ) (s : Store) : Bool :=
  s.locks.any fun l => decide (l.taskID = taskID) && decide (now ≤ l.lockedUntil)

/-- The note of a write that matched a row. -/
def noteWrite (taskID runner : String) (now : ℤ) (s : Store) : List Note :=
  if leased taskID runner now s && s.tasks.any (runs taskID runner) then
    [.wrote taskID runner (holdsLease taskID runner now s)]
  else []

/-- The note of `MarkSystemTaskLeaseExpired`. -/
def noteExpiry (taskID : String) (clock : ℤ) (s : Store) : List Note :=
  if s.tasks.any fun t => decide (t.taskID = taskID) && decide (t.status = .running) then
    [.leaseExpired taskID (leaseValid taskID clock s)]
  else []

/-- How the database answers a statement. -/
structure Answer where
  /-- The statement fails. -/
  fails : Bool
  /-- A write that changes no column is reported. -/
  reported : Bool
  deriving DecidableEq

/-- What a statement leaves. -/
structure Done where
  store : Store
  call : Option Call
  notes : List Note
  deriving DecidableEq

/-- The rest of `ExpireStaleSystemTaskLocks`. -/
def expireNext (now : ℤ) : List SystemTaskLock → Option Call
  | [] => none
  | lock :: locks => some (.expireMark now lock locks)

/-- A claim that has the lock: the task the lock pointed to comes first, if it is another one. -/
def claimNext (c : Claim) (expired : String) : Call :=
  if expired ≠ "" ∧ expired ≠ c.taskID then .claimMark c expired else .claimRun c

/-- One statement of a call. -/
def act (clock : ℤ) (ans : Answer) (s : Store) : Call → Done
  | .claimRead c =>
    if ans.fails then ⟨s, none, []⟩
    else
      match s.task (claimable c.id c.type) with
      | none => ⟨s, none, []⟩
      | some t => ⟨s, some (.claimInsert { c with taskID := t.taskID }), []⟩
  | .claimInsert c =>
    if ans.fails then ⟨s, some (.claimFind c), []⟩
    else
      match s.insertLock ⟨c.type, c.taskID, c.runner, c.lockUntil, c.now⟩ with
      | none => ⟨s, some (.claimFind c), []⟩
      | some s' => ⟨s', some (.claimRun c), []⟩
  | .claimFind c =>
    if ans.fails then ⟨s, none, []⟩
    else
      match s.lock c.type with
      | none => ⟨s, none, []⟩
      | some l =>
        if c.now ≤ l.lockedUntil then ⟨s, none, []⟩ else ⟨s, some (.claimTake c l.taskID), []⟩
  | .claimTake c expired =>
    if ans.fails then ⟨s, none, []⟩
    else if (s.locks.any fun l => decide (l.type = c.type) && decide (l.lockedUntil < c.now)) &&
        (decide (s.takeLock c.type c.taskID c.runner c.now c.lockUntil ≠ s) || ans.reported) then
      ⟨s.takeLock c.type c.taskID c.runner c.now c.lockUntil, some (claimNext c expired), []⟩
    else ⟨s, none, []⟩
  | .claimMark c expired =>
    if ans.fails then ⟨s, some (.claimRelease c), []⟩
    else
      ⟨s.markLeaseExpired expired clock, some (.claimRun c), noteExpiry expired clock s⟩
  | .claimRun c =>
    if ans.fails then ⟨s, some (.claimRelease c), []⟩
    else if s.tasks.any (claimable c.id c.type) then
      ⟨s.runTask c.id c.type c.runner c.now, some (.claimLoad c), []⟩
    else ⟨s, some (.claimRelease c), []⟩
  | .claimLoad c =>
    if ans.fails || !s.tasks.any (fun t => decide (t.id = c.id)) then
      ⟨s, some (.claimRelease c), []⟩
    else ⟨s, none, []⟩
  | .claimRelease c =>
    if ans.fails then ⟨s, none, []⟩ else ⟨s.releaseLock c.taskID c.runner, none, []⟩
  | .write field taskID runner text now =>
    if ans.fails then ⟨s, none, []⟩
    else if s.writeTask field taskID runner text now ≠ s ∨
        (leased taskID runner now s && s.tasks.any (runs taskID runner) && ans.reported) = true then
      ⟨s.writeTask field taskID runner text now, none, noteWrite taskID runner now s⟩
    else ⟨s, some (.count taskID runner now), []⟩
  | .count taskID runner now =>
    if ans.fails then ⟨s, none, []⟩ else ⟨s, none, noteWrite taskID runner now s⟩
  | .renew taskID runner lockUntil now =>
    if ans.fails then ⟨s, none, []⟩ else ⟨s.renewLock taskID runner now lockUntil, none, []⟩
  | .transfer taskID type fromRunner toRunner lockUntil now =>
    if ans.fails then ⟨s, none, []⟩
    else
      match s.transferLock ans.reported taskID type fromRunner toRunner now lockUntil with
      | (false, s') => ⟨s', none, []⟩
      | (true, s') => ⟨s', none, [.wrote taskID fromRunner (holdsLease taskID fromRunner now s)]⟩
  | .finish taskID runner status result error now =>
    if ans.fails then ⟨s, none, []⟩
    else if leased taskID runner now s && s.tasks.any (runs taskID runner) then
      ⟨s.finishTask taskID runner status result error now, some (.release taskID runner),
        noteWrite taskID runner now s⟩
    else ⟨s, none, []⟩
  | .release taskID runner =>
    if ans.fails then ⟨s, none, []⟩ else ⟨s.releaseLock taskID runner, none, []⟩
  | .expireFind now =>
    if ans.fails then ⟨s, none, []⟩
    else ⟨s, expireNext now (s.locks.filter fun l => decide (l.lockedUntil < now)), []⟩
  | .expireMark now lock locks =>
    if ans.fails then ⟨s, none, []⟩
    else
      ⟨s.markLeaseExpired lock.taskID clock, some (.expireDelete now lock locks),
        noteExpiry lock.taskID clock s⟩
  | .expireDelete now lock locks =>
    if ans.fails then ⟨s, none, []⟩ else ⟨s.deleteStale lock now, expireNext now locks, []⟩

/-! ### The machine -/

/-- An operation with its arguments. -/
inductive Op where
  | claim (id : ℤ) (type runner : String) (lockUntil : ℤ)
  | write (field : Field) (taskID runner text : String)
  | renew (taskID runner : String) (lockUntil : ℤ)
  | transfer (taskID type fromRunner toRunner : String) (lockUntil : ℤ)
  | finish (taskID runner : String) (status : Status) (result error : String)
  | release (taskID runner : String)
  | expire
  deriving DecidableEq

/-- An operation up to its first statement.  Arguments that are missing end it. -/
def Op.call (clock : ℤ) : Op → Option Call
  | .claim id type runner lockUntil =>
    if runner = "" ∨ lockUntil = 0 then none
    else some (.claimRead ⟨id, type, runner, lockUntil, clock, ""⟩)
  | .write field taskID runner text => some (.write field taskID runner text clock)
  | .renew taskID runner lockUntil => some (.renew taskID runner lockUntil clock)
  | .transfer taskID type fromRunner toRunner lockUntil =>
    if taskID = "" ∨ type = "" ∨ fromRunner = "" ∨ toRunner = "" ∨ lockUntil = 0 then none
    else some (.transfer taskID type fromRunner toRunner lockUntil clock)
  | .finish taskID runner status result error =>
    if status.terminal then some (.finish taskID runner status result error clock) else none
  | .release taskID runner => some (.release taskID runner)
  | .expire => some (.expireFind clock)

/-- The shared state: the tables, the clock, and what was noted. -/
structure Shared where
  store : Store
  clock : ℤ
  journal : List Note
  deriving DecidableEq

inductive Event where
  /-- `CreateSystemTaskWithActiveKey`: the id is `systask_` and a random key. -/
  | create (id : ℤ) (key type activeKey payload state : String)
  | begin (op : Op)
  /-- The call `i` runs its next statement. -/
  | resume (i : ℕ) (ans : Answer)
  /-- The runner of the call `i` crashes. -/
  | crash (i : ℕ)
  /-- Time passes. -/
  | tick (d : ℕ)
  deriving DecidableEq

/-- `CreateSystemTaskWithActiveKey`.  The three unique indexes may refuse the row. -/
def create (id : ℤ) (key type activeKey payload state : String) (clock : ℤ) (s : Store) : Store :=
  let activeKey := if activeKey = "" then type else activeKey
  if type = "" ∨ 64 < activeKey.utf8ByteSize ∨
      (s.tasks.any fun t => decide (t.id = id) || decide (t.taskID = "systask_" ++ key) ||
        decide (t.activeKey = some activeKey)) = true then s
  else
    { s with
      tasks := s.tasks ++ [⟨id, "systask_" ++ key, type, .pending, some activeKey, payload, state,
        "", "", "", clock, clock⟩] }

theorem create_cases (id : ℤ) (key type activeKey payload state : String) (clock : ℤ)
    (s : Store) : create id key type activeKey payload state clock s = s ∨
      ∃ t : SystemTask, t.status = .pending ∧ t.taskID ≠ "" ∧
        (∀ t' ∈ s.tasks, t'.id ≠ t.id ∧ t'.taskID ≠ t.taskID) ∧
        create id key type activeKey payload state clock s =
          { s with tasks := s.tasks ++ [t] } := by
  unfold create
  simp only
  generalize (if activeKey = "" then type else activeKey) = activeKey
  by_cases hbad : type = "" ∨ 64 < activeKey.utf8ByteSize ∨
      (s.tasks.any fun t => decide (t.id = id) || decide (t.taskID = "systask_" ++ key) ||
        decide (t.activeKey = some activeKey)) = true
  · rw [if_pos hbad]
    exact .inl rfl
  rw [if_neg hbad]
  refine .inr ⟨_, rfl, ?_, fun t' ht' => ?_, rfl⟩
  · simp
  · simp only [not_or, Bool.not_eq_true, List.any_eq_false, Bool.or_eq_true, decide_eq_true_eq]
      at hbad
    obtain ⟨-, -, hfree⟩ := hbad
    exact (hfree t' ht').1

/-- A call takes its next statement. -/
def resumeCall (ans : Answer) (sh : Shared) (c : Call) : Shared × Option Call :=
  let r := act sh.clock ans sh.store c
  ({ sh with store := r.store, journal := r.notes ++ sh.journal }, r.call)

def step (p : Pool Shared Call) : Event → Pool Shared Call
  | .create id key type activeKey payload state =>
    p.outside fun sh =>
      { sh with store := create id key type activeKey payload state sh.clock sh.store }
  | .begin op =>
    match op.call p.shared.clock with
    | none => p
    | some c => p.start c
  | .resume i ans => p.resume (resumeCall ans) i
  | .crash i => p.resume (fun sh _ => (sh, none)) i
  | .tick d => p.outside fun sh => { sh with clock := sh.clock + d }

/-- No tasks, no locks, nobody at work. -/
def fresh (clock : ℤ) : Pool Shared Call := ⟨⟨⟨[], []⟩, clock, []⟩, []⟩

end NexusTok.SystemTasks
