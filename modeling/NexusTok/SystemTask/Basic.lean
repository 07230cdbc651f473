import NexusTok.Store.Table

/-!
# System tasks and their leases

A system task is a background job: its row goes from `pending` over `running` to `succeeded` or
`failed`.  A runner that wants to run it takes the *lock* of its type, a row with the task, the
runner, and the time until which the lease is valid.  One row per type is all there is, so a runner
that finds an expired lease points the row to its own task.

This module has the rows and the statements on them, each of them atomic.  A statement that changes
rows changes all rows that match its condition.
-/

namespace NexusTok.SystemTasks

open Table (update)

/-! ### Rows -/

/-- `SystemTaskStatus`. -/
inductive Status where
  | pending | running | succeeded | failed
  deriving DecidableEq

def Status.terminal : Status → Bool
  | .succeeded | .failed => true
  | .pending | .running => false

structure SystemTask where
  id : ℤ
  taskID : String
  type : String
  status : Status
  /-- Unique among all rows that have one. -/
  activeKey : Option String
  payload : String
  state : String
  result : String
  error : String
  lockedBy : String
  createdAt : ℤ
  updatedAt : ℤ
  deriving DecidableEq

structure SystemTaskLock where
  type : String
  taskID : String
  lockedBy : String
  lockedUntil : ℤ
  updatedAt : ℤ
  deriving DecidableEq

/-- The two tables. -/
structure Store where
  tasks : List SystemTask
  locks : List SystemTaskLock
  deriving DecidableEq

/-! ### Statements on tasks -/

variable (taskID : String) (runner : String)

/-- The condition of every statement of the runner of a task. -/
def runs (t : SystemTask) : Bool :=
  decide (t.taskID = taskID) && decide (t.status = .running) && decide (t.lockedBy = runner)

/-- `EXISTS (SELECT 1 FROM system_task_locks …)`. -/
def leased (now : ℤ) (s : Store) : Bool :=
  s.locks.any fun l =>
    decide (l.taskID = taskID) && decide (l.lockedBy = runner) && decide (now ≤ l.lockedUntil)

/-- A task that waits to be claimed. -/
def claimable (id : ℤ) (type : String) (t : SystemTask) : Bool :=
  decide (t.id = id) && decide (t.type = type) && decide (t.status = .pending)

/-- A claimed task starts to run. -/
def SystemTask.run (now : ℤ) (t : SystemTask) : SystemTask :=
  { t with status := .running, lockedBy := runner, updatedAt := now }

/-- A task whose lease expired. -/
def SystemTask.expire (now : ℤ) (t : SystemTask) : SystemTask :=
  { t with status := .failed, activeKey := none, error := "task lease expired", updatedAt := now }

def SystemTask.finish (status : Status) (result error : String) (now : ℤ) (t : SystemTask) :
    SystemTask :=
  { t with status := status, activeKey := none, result := result, error := error, updatedAt := now }

/-- The two texts a runner writes while its task runs. -/
inductive Field where
  /-- `UpdateSystemTaskState`. -/
  | state
  /-- `UpdateSystemTaskPayload`. -/
  | payload
  deriving DecidableEq

def SystemTask.write (field : Field) (text : String) (now : ℤ) (t : SystemTask) : SystemTask :=
  match field with
  | .state => { t with state := text, updatedAt := now }
  | .payload => { t with payload := text, updatedAt := now }

namespace Store

/-- The first row that matches. -/
def task (s : Store) (p : SystemTask → Bool) : Option SystemTask := s.tasks.find? p

/-- The update at the end of `ClaimSystemTask`. -/
def runTask (id : ℤ) (type runner : String) (now : ℤ) (s : Store) : Store :=
  { s with tasks := update (claimable id type) (SystemTask.run runner now) s.tasks }

/-- `MarkSystemTaskLeaseExpired`. -/
def markLeaseExpired (now : ℤ) (s : Store) : Store :=
  { s with
    tasks := update (fun t => decide (t.taskID = taskID) && decide (t.status = .running))
      (SystemTask.expire now) s.tasks }

/-- The statement of `UpdateSystemTaskState` and `UpdateSystemTaskPayload`. -/
def writeTask (field : Field) (taskID runner text : String) (now : ℤ) (s : Store) : Store :=
  if leased taskID runner now s then
    { s with tasks := update (runs taskID runner) (SystemTask.write field text now) s.tasks }
  else s

/-- The statement of `FinishSystemTask`. -/
def finishTask (status : Status) (result error : String) (now : ℤ) (s : Store) : Store :=
  if leased taskID runner now s then
    { s with
      tasks := update (runs taskID runner) (SystemTask.finish status result error now) s.tasks }
  else s

/-! ### Statements on locks -/

/-- `DB.Create(lock)`, refused when the type has a row. -/
def insertLock (l : SystemTaskLock) (s : Store) : Option Store :=
  if s.locks.any fun l' => decide (l'.type = l.type) then none
  else some { s with locks := s.locks ++ [l] }

def lock (s : Store) (type : String) : Option SystemTaskLock :=
  Table.get SystemTaskLock.type type s.locks

/-- The takeover of an expired lease. -/
def takeLock (type taskID runner : String) (now lockUntil : ℤ) (s : Store) : Store :=
  { s with
    locks := update (fun l => decide (l.type = type) && decide (l.lockedUntil < now))
      (fun l => ⟨l.type, taskID, runner, lockUntil, now⟩) s.locks }

/-- The condition of `RenewSystemTaskLock`. -/
def renewable (now : ℤ) (l : SystemTaskLock) : Bool :=
  decide (l.taskID = taskID) && decide (l.lockedBy = runner) && decide (now ≤ l.lockedUntil)

/-- `RenewSystemTaskLock`. -/
def renewLock (now lockUntil : ℤ) (s : Store) : Store :=
  { s with
    locks := update (renewable taskID runner now)
      (fun l => { l with lockedUntil := lockUntil, updatedAt := now }) s.locks }

/-- `ReleaseSystemTaskLock`. -/
def releaseLock (s : Store) : Store :=
  { s with
    locks := s.locks.filter fun l =>
      !(decide (l.taskID = taskID) && decide (l.lockedBy = runner)) }

/-- The delete of `ExpireStaleSystemTaskLocks`. -/
def deleteStale (stale : SystemTaskLock) (now : ℤ) (s : Store) : Store :=
  { s with
    locks := s.locks.filter fun l =>
      !(decide (l.type = stale.type) && decide (l.taskID = stale.taskID) &&
        decide (l.lockedBy = stale.lockedBy) && decide (l.lockedUntil < now)) }

/-- The transaction of `TransferSystemTaskLock`, with whether it commits.  A database that counts
changed rows finds none when the task is left as it is, unless that is `reported`. -/
def transferLock (reported : Bool) (taskID type fromRunner toRunner : String)
    (now lockUntil : ℤ) (s : Store) : Bool × Store :=
  let matched := fun t : SystemTask =>
    runs taskID fromRunner t && decide (t.type = type)
  let moved := update matched
    (fun t => { t with lockedBy := toRunner, updatedAt := now }) s.tasks
  let held := fun l : SystemTaskLock =>
    renewable taskID fromRunner now l && decide (l.type = type)
  if s.tasks.any matched && (decide (moved ≠ s.tasks) || reported) && s.locks.any held then
    (true,
      { tasks := moved
        locks := update held
          (fun l => { l with lockedBy := toRunner, lockedUntil := lockUntil, updatedAt := now })
          s.locks })
  else (false, s)

end Store

end NexusTok.SystemTasks
