import NexusTok.Task.Billing

/-!
# Polling a task

What a poll does to the copy of a task it holds, and which statement it then runs: the poll of one
video task (`updateVideoSingleTask`), of one item of a batch (`updateBatchItem`), the two ways a
poll fails (`recordPollFailure`, `failTaskFromPoll`), and the timeout sweep (`timeOut`).

None of these touches the database before it has decided; what they leave is the copy and the
`Stage` to go on with.  Texts made from the body of an answer stand behind `PollConfig`.

* `Command.started` : everything a call can begin.  The status the following write expects is the
  one the copy had when the call began, and a call that ends the task writes before it bills,
  unless the copy had ended already.
-/

namespace NexusTok

/-! ### Classes of answers -/

/-- What an answer says about the poll. -/
inductive PollClass where
  | ok | otherClient | notFound | auth | transient | unrecognized | hookError | transport
  deriving DecidableEq

def PollClass.text : PollClass → String
  | .ok => "ok"
  | .otherClient => "other_client"
  | .notFound => "not_found"
  | .auth => "auth"
  | .transient => "transient"
  | .unrecognized => "unrecognized"
  | .hookError => "hook_error"
  | .transport => "transport_error"

def classifyPollHTTP (statusCode : ℤ) : PollClass :=
  if 200 ≤ statusCode ∧ statusCode < 300 then .ok
  else if statusCode = 404 ∨ statusCode = 410 then .notFound
  else if statusCode = 401 ∨ statusCode = 403 then .auth
  else if statusCode = 429 ∨ 500 ≤ statusCode then .transient
  else if 400 ≤ statusCode ∧ statusCode < 500 then .otherClient
  else .transient

def knownPollStatus : TaskStatus → Bool
  | .notStart | .submitted | .queued | .inProgress | .success | .failure => true
  | .unknown | .other _ => false

def isNonTerminalPollStatus : TaskStatus → Bool
  | .notStart | .submitted | .queued | .inProgress => true
  | .success | .failure | .unknown | .other _ => false

def pollFailureReason (cls : PollClass) (statusCode : ℤ) (detail : String) : String :=
  let reason :=
    if 0 < statusCode then
      "poll failed: " ++ cls.text ++ " (HTTP " ++ toString statusCode ++ ")"
    else "poll failed: " ++ cls.text
  if detail ≠ "" then reason ++ ": " ++ detail else reason

/-- The reason of a task its upstream does not know. -/
def notFoundReason (statusCode : ℤ) : String :=
  "upstream task not found (HTTP " ++ toString statusCode ++ ")"

/-- Settings of the polling, and the texts it makes of an answer's body. -/
structure PollConfig where
  /-- `TaskPollMaxFailures`; zero and below disable the cutoff. -/
  maxFailures : ℤ
  /-- `TaskTimeoutMinutes`; zero and below disable the sweep. -/
  timeoutMinutes : ℤ
  /-- `redactVideoResponseBody`. -/
  redact : String → String
  /-- `unrecognizedPollDetail`, of a reason and a body. -/
  unrecognizedDetail : String → String → String
  buildProxyURL : String → String

/-! ### Polls that fail -/

/-- `failTaskFromPoll` up to its write. -/
def failTaskFromPoll (now : ℤ) (task : Task) (fromStatus : TaskStatus) (reason : String) :
    Task × Stage :=
  ({ task with
    status := .failure
    progress := "100%"
    finishTime := if task.finishTime = 0 then now else task.finishTime
    failReason := reason },
   .write fromStatus (.settleIfWon (failTaskInfo reason)))

/-- The copy with one more failing poll. -/
def Task.countFailure (task : Task) : Task :=
  { task with
    privateData := { task.privateData with
      pollFailures := task.privateData.pollFailures + 1 } }

variable (cfg : PollConfig)

/-- `recordPollFailure` up to its write. -/
def recordPollFailure (now : ℤ) (task : Task) (fromStatus : TaskStatus) (cls : PollClass)
    (statusCode : ℤ) (detail : String) : Task × Stage :=
  if 0 < cfg.maxFailures ∧ cfg.maxFailures ≤ task.countFailure.privateData.pollFailures then
    failTaskFromPoll now task.countFailure fromStatus (pollFailureReason cls statusCode detail)
  else (task.countFailure, .write fromStatus .stop)

/-! ### Polling a video task -/

inductive Parsed where
  /-- In the format of another instance of the same program. -/
  | newAPI (task : Task)
  /-- By `ParseTaskResult` of the adaptor. -/
  | info (info : TaskInfo)
  /-- `ParseTaskResult` fails. -/
  | failed (error : String)
  deriving DecidableEq

/-- What the upstream answers to a poll of one task. -/
inductive Reply where
  | fetchFailed (error : String)
  | unreadable (statusCode : ℤ) (error : String)
  | response (statusCode : ℤ) (body : String) (parsed : Parsed)
  deriving DecidableEq

/-- The result taken from a task of another instance. -/
def TaskInfo.ofTask (t : Task) : TaskInfo where
  status := t.status
  reason := t.failReason
  url := t.getResultURL
  progress := t.progress
  completionTokens := 0
  totalTokens := 0
  usageFacts := []
  pluginState := ""

/-- The parsed status tells nothing about the task. -/
def unrecognizedStatus (parsedStatus : TaskStatus) : Bool :=
  decide (parsedStatus = .unknown) || decide (parsedStatus = .other "") ||
    !knownPollStatus parsedStatus

/-- A client error that comes with a status of a task still running. -/
def contradicts (statusCode : ℤ) (parsedStatus : TaskStatus) : Bool :=
  decide (classifyPollHTTP statusCode = .otherClient) && isNonTerminalPollStatus parsedStatus

/-- The private data after a recognized answer. -/
def TaskPrivateData.polled (d : TaskPrivateData) (info : TaskInfo) : TaskPrivateData :=
  { d with
    pluginState := if info.pluginState ≠ "" then info.pluginState else d.pluginState
    pollFailures := if isNonTerminalPollStatus info.status then 0 else d.pollFailures }

/-- The result URL of a task that succeeded. -/
def resultURL (task : Task) (info : TaskInfo) : String :=
  if info.url.startsWith "data:" then cfg.buildProxyURL task.taskID
  else if info.url ≠ "" then info.url
  else cfg.buildProxyURL task.taskID

/-- The switch over the parsed status. -/
def videoStatus (now : ℤ) (info : TaskInfo) (task : Task) : Task :=
  let task := { task with status := info.status }
  match info.status with
  | .submitted => { task with progress := "10%" }
  | .queued => { task with progress := "20%" }
  | .inProgress =>
    { task with
      progress := "30%"
      startTime := if task.startTime = 0 then now else task.startTime }
  | .success =>
    { task with
      progress := "100%"
      finishTime := if task.finishTime = 0 then now else task.finishTime
      privateData := { task.privateData with resultURL := resultURL cfg task info } }
  | .failure =>
    { task with
      status := .failure
      progress := "100%"
      finishTime := if task.finishTime = 0 then now else task.finishTime
      failReason := info.reason }
  | .notStart | .unknown | .other _ => task

/-- The result as it is handed on: a failed task is complete. -/
def TaskInfo.completed (info : TaskInfo) : TaskInfo :=
  if info.status = .failure then { info with progress := "100%" } else info

/-- The copy after a recognized answer. -/
def videoPolled (now : ℤ) (body : String) (info : TaskInfo) (task : Task) : Task :=
  let task := videoStatus cfg now info
    { task with data := cfg.redact body, privateData := task.privateData.polled info }
  { task with
    progress := if info.completed.progress ≠ "" then info.completed.progress else task.progress }

/-- The end of `updateVideoSingleTask`: the write, and billing.  A copy that had the same final
status before is billed without having won a write. -/
def videoWrite (snap : Task.Snapshot) (info : TaskInfo) (task : Task) : Stage :=
  if task.status.finished ∧ snap.status ≠ task.status then
    .write snap.status (.settleIfWon info)
  else if snap ≠ task.snapshot then
    .write snap.status (if task.status.finished then .settle info else .stop)
  else if task.status.finished then .settle info
  else .idle

/-- `updateVideoSingleTask` behind the parser; `snap` was taken before the answer came. -/
def videoResult (now : ℤ) (statusCode : ℤ) (body : String) (snap : Task.Snapshot)
    (info : TaskInfo) (task : Task) : Task × Stage :=
  if unrecognizedStatus info.status || contradicts statusCode info.status then
    recordPollFailure cfg now task snap.status .unrecognized statusCode
      (cfg.unrecognizedDetail info.reason body)
  else
    let task := videoPolled cfg now body info task
    (task, videoWrite snap info.completed task)

/-- The two formats an answer can have, and one that has neither. -/
def videoParsed (now : ℤ) (statusCode : ℤ) (body : String) (task : Task) : Parsed → Task × Stage
  | .newAPI t =>
    videoResult cfg now statusCode body task.snapshot (.ofTask t) { task with data := t.data }
  | .info info => videoResult cfg now statusCode body task.snapshot info task
  | .failed error => recordPollFailure cfg now task task.status .hookError statusCode error

/-- `updateVideoSingleTask`, from the answer of the upstream on. -/
def updateVideoSingleTask (now : ℤ) (reply : Reply) (task : Task) : Task × Stage :=
  match reply with
  | .fetchFailed error => recordPollFailure cfg now task task.status .transport 0 error
  | .unreadable statusCode error =>
    recordPollFailure cfg now task task.status .transport statusCode error
  | .response statusCode body parsed =>
    match classifyPollHTTP statusCode with
    | .notFound => failTaskFromPoll now task task.status (notFoundReason statusCode)
    | .auth => recordPollFailure cfg now task task.status .auth statusCode ""
    | .transient => recordPollFailure cfg now task task.status .transient statusCode ""
    | _ => videoParsed cfg now statusCode body task parsed

/-! ### Polling a batch -/

structure BatchTaskResult where
  taskInfo : TaskInfo
  submitTime : ℤ
  startTime : ℤ
  finishTime : ℤ
  /-- The data, marshalled. -/
  data : Option String
  deriving DecidableEq

/-- The copy after a recognized item.  Any reason makes it a failure. -/
def batchPolled (item : BatchTaskResult) (task : Task) : Task :=
  let info := item.taskInfo
  let isFailure := decide (info.reason ≠ "") || decide (info.status = .failure)
  let data := task.privateData.polled info
  { task with
    privateData := { data with resultURL := if info.url ≠ "" then info.url else data.resultURL }
    status := if isFailure then .failure else info.status
    failReason := if info.reason ≠ "" then info.reason else task.failReason
    submitTime := if item.submitTime ≠ 0 then item.submitTime else task.submitTime
    startTime := if item.startTime ≠ 0 then item.startTime else task.startTime
    finishTime := if item.finishTime ≠ 0 then item.finishTime else task.finishTime
    progress :=
      if isFailure ∨ info.status = .success then "100%"
      else if info.progress ≠ "" then info.progress
      else task.progress
    data := item.data.getD task.data }

/-- One item of the answer in `updateBatchTasks`. -/
def updateBatchItem (now : ℤ) (statusCode : ℤ) (item : BatchTaskResult) (task : Task) :
    Task × Stage :=
  if unrecognizedStatus item.taskInfo.status || contradicts statusCode item.taskInfo.status then
    recordPollFailure cfg now task task.status .unrecognized statusCode item.taskInfo.reason
  else
    let polled := batchPolled item task
    (polled, .write task.status
      (if polled.status.finished ∧ task.status ≠ polled.status then .settleIfWon item.taskInfo
        else .stop))

/-! ### The timeout sweep -/

/-- What `sweepTimedOutTasks` does with one of its tasks, up to the write. -/
def timeOut (now : ℤ) (task : Task) : Task × Stage :=
  ({ task with
    status := .failure
    progress := "100%"
    finishTime := now
    failReason :=
      if task.isLegacy then "任务超时（旧系统遗留任务，不进行退款，请联系管理员）"
      else "任务超时（" ++ toString cfg.timeoutMinutes ++ "分钟）"
    quota := if task.isLegacy then 0 else task.quota },
   .write task.status (.refundIfWon task.isLegacy))

/-- The condition under which the sweep loads a task. -/
def timedOut (now : ℤ) (task : Task) : Bool :=
  decide (0 < cfg.timeoutMinutes) && task.unfinished &&
    decide (task.submitTime < now - cfg.timeoutMinutes * 60)

/-! ### Calls -/

/-- A call on a copy. -/
inductive Command where
  | video (now : ℤ) (reply : Reply)
  | batchItem (now statusCode : ℤ) (item : BatchTaskResult)
  /-- `recordPollFailureForTasks`, for one of the tasks. -/
  | batchFailure (now : ℤ) (cls : PollClass) (statusCode : ℤ) (detail : String)
  /-- `failTasksFromPoll`, for one of the tasks. -/
  | batchNotFound (now statusCode : ℤ)
  | timeout (now : ℤ)
  deriving DecidableEq

/-- Whether a call is one of the timeout sweep. -/
def Command.isSweep : Command → Bool
  | .timeout _ => true
  | _ => false

/-- A call, up to its first statement. -/
def Command.start (task : Task) : Command → Task × Stage
  | .video now reply => updateVideoSingleTask cfg now reply task
  | .batchItem now statusCode item => updateBatchItem cfg now statusCode item task
  | .batchFailure now cls statusCode detail =>
    recordPollFailure cfg now task task.status cls statusCode detail
  | .batchNotFound now statusCode =>
    failTaskFromPoll now task task.status (notFoundReason statusCode)
  | .timeout now => timeOut cfg now task

/-- Neither the payer nor the charge of a task is touched. -/
structure Kept (c c' : Task) : Prop where
  payer : c'.payer = c.payer
  quota : c'.quota = c.quota

/-- Everything a call can begin on the copy `c`. -/
inductive Started (c : Task) : Task × Stage → Prop
  /-- Nothing has changed. -/
  | skip {c' : Task} (kept : Kept c c') (same : c'.status = c.status) : Started c (c', .idle)
  /-- The copy is written back; it has not ended, or had ended before. -/
  | note {c' : Task} (kept : Kept c c')
      (same : c'.status.finished = true → c'.status = c.status) :
      Started c (c', .write c.status .stop)
  /-- The copy has ended. -/
  | finish {c' : Task} (kept : Kept c c') (ended : c'.status.finished = true) (info : TaskInfo) :
      Started c (c', .write c.status (.settleIfWon info))
  /-- The copy had ended before, and is written back and billed. -/
  | again {c' : Task} (kept : Kept c c') (ended : c'.status.finished = true)
      (same : c'.status = c.status) (info : TaskInfo) :
      Started c (c', .write c.status (.settle info))
  /-- The copy had ended before, and is billed. -/
  | settle {c' : Task} (kept : Kept c c') (ended : c'.status.finished = true)
      (same : c'.status = c.status) (info : TaskInfo) : Started c (c', .settle info)
  /-- The copy has timed out. -/
  | timeout {c' : Task} (payer : c'.payer = c.payer)
      (quota : c'.quota = if c.isLegacy then 0 else c.quota) (failed : c'.status = .failure) :
      Started c (c', .write c.status (.refundIfWon c.isLegacy))

section Started

variable {cfg} {c : Task}

theorem Kept.refl (c : Task) : Kept c c := ⟨rfl, rfl⟩

theorem Kept.trans {c c' c'' : Task} (h : Kept c c') (h' : Kept c' c'') : Kept c c'' :=
  ⟨h'.payer.trans h.payer, h'.quota.trans h.quota⟩

theorem failTaskFromPoll_started {now : ℤ} {c' : Task} (hk : Kept c c') (reason : String) :
    Started c (failTaskFromPoll now c' c.status reason) := by
  unfold failTaskFromPoll
  refine .finish ?_ rfl _
  exact ⟨hk.payer, hk.quota⟩

/-- A failing poll of a copy `c'` whose call began on `c`. -/
theorem recordPollFailure_started {now statusCode : ℤ} {c' : Task} (hk : Kept c c')
    (hs : c'.status = c.status) (cls : PollClass) (detail : String) :
    Started c (recordPollFailure cfg now c' c.status cls statusCode detail) := by
  have hcount : Kept c c'.countFailure := ⟨hk.payer, hk.quota⟩
  unfold recordPollFailure
  split_ifs
  · exact failTaskFromPoll_started hcount _
  · exact .note hcount fun _ => hs

theorem videoStatus_kept (cfg : PollConfig) (now : ℤ) (info : TaskInfo) (task : Task) :
    Kept task (videoStatus cfg now info task) := by
  unfold videoStatus
  cases info.status <;> exact ⟨rfl, rfl⟩

theorem videoPolled_kept (now : ℤ) (body : String) (info : TaskInfo) (task : Task) :
    Kept task (videoPolled cfg now body info task) := by
  have h := videoStatus_kept cfg now info
    { task with data := cfg.redact body, privateData := task.privateData.polled info }
  exact ⟨h.payer.trans rfl, h.quota.trans rfl⟩

theorem videoWrite_started {c' : Task} (hk : Kept c c') (info : TaskInfo) :
    Started c (c', videoWrite c.snapshot info c') := by
  unfold videoWrite
  by_cases hmove : c'.status.finished ∧ c.snapshot.status ≠ c'.status
  · rw [if_pos hmove]
    exact .finish hk hmove.1 info
  rw [if_neg hmove]
  have hsame : c'.status.finished = true → c'.status = c.status := by
    intro hf
    by_contra hne
    exact hmove ⟨hf, fun h => hne h.symm⟩
  by_cases hsnap : c.snapshot ≠ c'.snapshot
  · rw [if_pos hsnap]
    by_cases hf : c'.status.finished = true
    · rw [if_pos hf]
      exact .again hk hf (hsame hf) info
    · rw [if_neg hf]
      exact .note hk hsame
  rw [if_neg hsnap]
  by_cases hf : c'.status.finished = true
  · rw [if_pos hf]
    exact .settle hk hf (hsame hf) info
  · rw [if_neg hf]
    exact .skip hk (congrArg Task.Snapshot.status (not_not.1 hsnap)).symm

theorem videoResult_started {now statusCode : ℤ} {body : String} {info : TaskInfo} {c' : Task}
    (hk : Kept c c') (hs : c'.status = c.status) :
    Started c (videoResult cfg now statusCode body c.snapshot info c') := by
  unfold videoResult
  by_cases hbad : (unrecognizedStatus info.status || contradicts statusCode info.status) = true
  · rw [if_pos hbad]
    exact recordPollFailure_started hk hs _ _
  · rw [if_neg hbad]
    exact videoWrite_started (hk.trans (videoPolled_kept now body info c')) _

theorem videoParsed_started (cfg : PollConfig) (now statusCode : ℤ) (body : String) (c : Task) (parsed : Parsed) :
    Started c (videoParsed cfg now statusCode body c parsed) := by
  cases parsed with
  | newAPI t => exact videoResult_started ⟨rfl, rfl⟩ rfl
  | info info => exact videoResult_started (.refl c) rfl
  | failed error => exact recordPollFailure_started (.refl c) rfl _ _

theorem updateVideoSingleTask_started (now : ℤ) (reply : Reply) (c : Task) :
    Started c (updateVideoSingleTask cfg now reply c) := by
  cases reply with
  | fetchFailed | unreadable => exact recordPollFailure_started (.refl c) rfl _ _
  | response statusCode body parsed =>
    have hparsed := videoParsed_started cfg now statusCode body c parsed
    simp only [updateVideoSingleTask]
    cases classifyPollHTTP statusCode with
    | notFound => exact failTaskFromPoll_started (.refl c) _
    | auth | transient => exact recordPollFailure_started (.refl c) rfl _ _
    | ok | otherClient | unrecognized | hookError | transport => exact hparsed

theorem updateBatchItem_started (now statusCode : ℤ) (item : BatchTaskResult) (c : Task) :
    Started c (updateBatchItem cfg now statusCode item c) := by
  unfold updateBatchItem
  by_cases hbad : (unrecognizedStatus item.taskInfo.status ||
      contradicts statusCode item.taskInfo.status) = true
  · rw [if_pos hbad]
    exact recordPollFailure_started (.refl c) rfl _ _
  rw [if_neg hbad]
  have hk : Kept c (batchPolled item c) := ⟨rfl, rfl⟩
  by_cases hmove : (batchPolled item c).status.finished ∧ c.status ≠ (batchPolled item c).status
  · simp only [if_pos hmove]
    exact .finish hk hmove.1 _
  · simp only [if_neg hmove]
    refine .note hk fun hf => ?_
    by_contra hne
    exact hmove ⟨hf, fun h => hne h.symm⟩

/-- **Everything a call can begin.** -/
theorem Command.started (cfg : PollConfig) (cmd : Command) (c : Task) : Started c (cmd.start cfg c) := by
  cases cmd with
  | video now reply => exact updateVideoSingleTask_started now reply c
  | batchItem now statusCode item => exact updateBatchItem_started now statusCode item c
  | batchFailure now cls statusCode detail =>
    exact recordPollFailure_started (.refl c) rfl cls detail
  | batchNotFound now statusCode => exact failTaskFromPoll_started (.refl c) _
  | timeout now =>
    unfold Command.start timeOut
    exact .timeout rfl rfl rfl

end Started

/-! ### Polls and sweeps -/

section Sweeps

variable {cfg}

/-- The refund of the sweep may follow. -/
def Stage.sweeps : Stage → Bool
  | .write _ (.refundIfWon _) => true
  | _ => false

theorem recordPollFailure_sweeps (now : ℤ) (task : Task) (fromStatus : TaskStatus)
    (cls : PollClass) (statusCode : ℤ) (detail : String) :
    (recordPollFailure cfg now task fromStatus cls statusCode detail).2.sweeps = false := by
  unfold recordPollFailure
  split_ifs <;> rfl

theorem videoResult_sweeps (now statusCode : ℤ) (body : String) (snap : Task.Snapshot)
    (info : TaskInfo) (task : Task) :
    (videoResult cfg now statusCode body snap info task).2.sweeps = false := by
  unfold videoResult
  split_ifs
  · exact recordPollFailure_sweeps _ _ _ _ _ _
  · simp only [videoWrite]
    split_ifs <;> rfl

theorem updateVideoSingleTask_sweeps (now : ℤ) (reply : Reply) (c : Task) :
    (updateVideoSingleTask cfg now reply c).2.sweeps = false := by
  have hparsed : ∀ statusCode body parsed,
      (videoParsed cfg now statusCode body c parsed).2.sweeps = false := by
    intro statusCode body parsed
    cases parsed with
    | newAPI | info => exact videoResult_sweeps _ _ _ _ _ _
    | failed error => exact recordPollFailure_sweeps _ _ _ _ _ _
  cases reply with
  | fetchFailed | unreadable => exact recordPollFailure_sweeps _ _ _ _ _ _
  | response statusCode body parsed =>
    simp only [updateVideoSingleTask]
    cases classifyPollHTTP statusCode with
    | notFound => rfl
    | auth | transient => exact recordPollFailure_sweeps _ _ _ _ _ _
    | _ => exact hparsed _ _ _

theorem Command.sweeps (cfg : PollConfig) (cmd : Command) (c : Task) :
    (cmd.start cfg c).2.sweeps = cmd.isSweep := by
  cases cmd with
  | video now reply => exact updateVideoSingleTask_sweeps now reply c
  | batchItem now statusCode item =>
    simp only [Command.start, updateBatchItem]
    split_ifs
    · exact recordPollFailure_sweeps _ _ _ _ _ _
    · rfl
    · rfl
  | batchFailure now cls statusCode detail => exact recordPollFailure_sweeps _ _ _ _ _ _
  | batchNotFound | timeout => rfl

end Sweeps

end NexusTok
