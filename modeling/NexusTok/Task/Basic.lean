import NexusTok.Wallet.Ledger

/-!
# Asynchronous tasks

A task is a request that the upstream works on for minutes: its row holds the quota it was charged
when it was submitted, and pollers and a timeout sweep move it towards `SUCCESS` or `FAILURE`.
Every one of them loads a copy of the row, changes the copy, and writes the whole copy back under
the condition that the status in the table is still the one it saw (`updateWithStatus`).

Two writers have no such condition: `updateQuota`, which writes one column, and
`taskBulkUpdateByID`.

* `updateWithStatus_cases` : a conditional write is lost and changes nothing, or finds the status
  it expects and replaces the row.
-/

namespace NexusTok

open Table

/-! ### Rows -/

inductive TaskStatus where
  | notStart | submitted | queued | inProgress | failure | success | unknown
  /-- A text that is none of the constants. -/
  | other (text : String)
  deriving DecidableEq

/-- `FAILURE` and `SUCCESS`, after which a task is not polled again. -/
def TaskStatus.finished : TaskStatus → Bool
  | .failure | .success => true
  | _ => false

inductive TaskPlatform where
  | midjourney
  | other (name : String)
  deriving DecidableEq

/-- `BillingSource` of a task. -/
inductive TaskBillingSource where
  | wallet | subscription
  /-- The column is empty in rows older than it. -/
  | unset
  deriving DecidableEq

/-- Usage facts by name, in no particular order. -/
abbrev UsageFacts := List (String × String)

/-- `maps.Copy(dst, src)`. -/
def UsageFacts.copy (dst src : UsageFacts) : UsageFacts :=
  src ++ dst.filter fun e => !(src.map Prod.fst).contains e.1

/-- The tiered price a task was submitted under. -/
structure TieredSnapshot where
  exprString : String
  usageFacts : UsageFacts
  estimatedTier : String
  deriving DecidableEq

structure TaskBillingContext where
  originModelName : String
  otherRatios : List (String × Decimal)
  perCallBilling : Bool
  tieredSnapshot : Option TieredSnapshot
  deriving DecidableEq

structure TaskPrivateData where
  upstreamTaskID : String
  resultURL : String
  billingSource : TaskBillingSource
  subscriptionId : ℤ
  tokenId : ℤ
  billingContext : Option TaskBillingContext
  pluginState : String
  /-- Polls in a row that told nothing about the task. -/
  pollFailures : ℤ
  deriving DecidableEq

/-- A row of the table of tasks. -/
structure Task where
  id : ℤ
  taskID : String
  platform : TaskPlatform
  userId : ℤ
  group : String
  channelId : ℤ
  /-- What the task is charged. -/
  quota : ℤ
  status : TaskStatus
  failReason : String
  submitTime : ℤ
  startTime : ℤ
  finishTime : ℤ
  progress : String
  /-- Of `Properties`. -/
  originModelName : String
  privateData : TaskPrivateData
  data : String
  deriving DecidableEq

/-- `TaskRefundLegacyCutoff`, 2026-02-22 00:00:00 UTC. -/
def taskRefundLegacyCutoff : ℤ := 1771718400

namespace Task

def getUpstreamTaskID (t : Task) : String :=
  if t.privateData.upstreamTaskID ≠ "" then t.privateData.upstreamTaskID else t.taskID

def getResultURL (t : Task) : String :=
  if t.privateData.resultURL ≠ "" then t.privateData.resultURL else t.failReason

/-- The task was submitted before timeouts were refunded; a row without a submit time was not. -/
def isLegacy (t : Task) : Bool :=
  decide (0 < t.submitTime) && decide (t.submitTime < taskRefundLegacyCutoff)

/-- The condition under which a task is loaded for polling. -/
def unfinished (t : Task) : Bool := decide (t.progress ≠ "100%") && !t.status.finished

/-- `taskSnapshot`. -/
structure Snapshot where
  status : TaskStatus
  progress : String
  startTime : ℤ
  finishTime : ℤ
  failReason : String
  resultURL : String
  data : String
  pluginState : String
  pollFailures : ℤ
  deriving DecidableEq

def snapshot (t : Task) : Snapshot where
  status := t.status
  progress := t.progress
  startTime := t.startTime
  finishTime := t.finishTime
  failReason := t.failReason
  resultURL := t.privateData.resultURL
  data := t.data
  pluginState := t.privateData.pluginState
  pollFailures := t.privateData.pollFailures

/-- Whose money a task is charged with: what no poll changes. -/
structure Payer where
  id : ℤ
  userId : ℤ
  billingSource : TaskBillingSource
  subscriptionId : ℤ
  tokenId : ℤ
  deriving DecidableEq

def payer (t : Task) : Payer :=
  ⟨t.id, t.userId, t.privateData.billingSource, t.privateData.subscriptionId,
    t.privateData.tokenId⟩

theorem payer_id {t t' : Task} (h : t.payer = t'.payer) : t.id = t'.id :=
  congrArg Payer.id h

end Task

/-! ### The table -/

/-- The table of tasks beside the ledger. -/
structure TaskStore where
  tasks : List Task
  ledger : Ledger
  deriving DecidableEq

namespace TaskStore

def task (s : TaskStore) (id : ℤ) : Option Task := Table.get Task.id id s.tasks

/-- Write a task back whole. -/
def put (s : TaskStore) (t : Task) : TaskStore := { s with tasks := Table.put Task.id t s.tasks }

/-- `UpdateWithStatus`: the row is replaced by the copy when its status is still `fromStatus`.  The
answer is whether a row was affected.  A database that counts changed rows answers no when the copy
changes no column; of the columns left out here that is decided by `reported`. -/
def updateWithStatus (reported : Bool) (t : Task) (fromStatus : TaskStatus) (s : TaskStore) :
    Bool × TaskStore :=
  match s.task t.id with
  | none => (false, s)
  | some row =>
    if row.status = fromStatus then (decide (row ≠ t) || reported, s.put t) else (false, s)

def updateQuota (t : Task) (s : TaskStore) : TaskStore :=
  { s with tasks := Table.modify Task.id t.id (fun row => { row with quota := t.quota }) s.tasks }

/-- The columns the callers of `TaskBulkUpdateByID` set: the status, the progress, and a reason
where they give one. -/
def bulkFailed (failReason : Option String) (row : Task) : Task :=
  { row with
    status := .failure
    progress := "100%"
    failReason := failReason.getD row.failReason }

def taskBulkUpdateByID (ids : List ℤ) (failReason : Option String) (s : TaskStore) : TaskStore :=
  if ids = [] then s
  else
    { s with
      tasks := s.tasks.map fun row => if row.id ∈ ids then bulkFailed failReason row else row }

/-! ### Reads after writes -/

section Frame

variable {s : TaskStore} {t row : Task} {id : ℤ}

@[simp] theorem task_setLedger (l : Ledger) :
    ({ s with ledger := l } : TaskStore).task id = s.task id := rfl

theorem task_id (h : s.task id = some row) : row.id = id := get_key h

theorem task_put (h : s.task t.id = some row) : (s.put t).task t.id = some t := get_put h

theorem task_put_ne (hid : id ≠ t.id) : (s.put t).task id = s.task id := get_put_ne hid

theorem task_updateQuota (h : s.task t.id = some row) :
    (s.updateQuota t).task t.id = some { row with quota := t.quota } :=
  get_modify h (show row.id = t.id from task_id h)

theorem task_updateQuota_ne (hid : id ≠ t.id) : (s.updateQuota t).task id = s.task id :=
  get_modify_ne hid fun _ _ h => h

theorem task_bulk (ids : List ℤ) (failReason : Option String) :
    (s.taskBulkUpdateByID ids failReason).task id =
      (s.task id).map fun row => if id ∈ ids then bulkFailed failReason row else row := by
  unfold taskBulkUpdateByID
  by_cases hids : ids = []
  · rw [if_pos hids, hids]
    simp
  rw [if_neg hids]
  have hkey : ∀ row : Task, (if row.id ∈ ids then bulkFailed failReason row else row).id = row.id := by
    intro row
    split_ifs <;> rfl
  refine (get_map hkey).trans ?_
  cases hrow : s.task id with
  | none =>
    rw [task] at hrow
    rw [hrow]
    rfl
  | some row =>
    have hid : row.id = id := task_id hrow
    rw [task] at hrow
    rw [hrow, Option.map_some, Option.map_some, hid]

/-- **Everything a conditional write can do**: it is lost and changes nothing, or it finds the
status it expects and replaces the row; it is then reported unless it changes nothing. -/
theorem updateWithStatus_cases (reported : Bool) (t : Task) (fromStatus : TaskStatus)
    (s : TaskStore) :
    (s.updateWithStatus reported t fromStatus = (false, s) ∧
        ∀ row, s.task t.id = some row → row.status ≠ fromStatus) ∨
      ∃ row won, s.task t.id = some row ∧ row.status = fromStatus ∧
        s.updateWithStatus reported t fromStatus = (won, s.put t) ∧ (row ≠ t → won = true) := by
  unfold updateWithStatus
  cases hrow : s.task t.id with
  | none => exact .inl ⟨rfl, fun row h => by cases h⟩
  | some row =>
    simp only
    by_cases hst : row.status = fromStatus
    · rw [if_pos hst]
      exact .inr ⟨row, _, rfl, hst, rfl, fun hne => by simp [hne]⟩
    · rw [if_neg hst]
      refine .inl ⟨rfl, fun row' h => ?_⟩
      cases h
      exact hst

end Frame

end TaskStore

end NexusTok
