import NexusTok.Task.Finish

/-!
# A polling pass

`RunTaskPollingOnce`: the timeout sweep, then the unfinished tasks, platform by platform.  A
platform answers for one task at a time or for a whole channel (`batch`).  Its channels wait until
their turn comes; a channel that cannot be loaded has all its tasks failed at once, and so have the
tasks without an upstream id.

Maps are iterated in any order and the channels of a platform without batches are polled side by
side, so the pass is a machine: an event says what comes next and how it is answered.  `plan` says
what an event amounts to: nothing on the table of tasks, an update of many rows, or a call on one
copy, which is run to its end.

What happened to a task is kept in a journal that no code reads.  The progress `report`s are left
out.

* `step` : one event of a pass.
* `Polling.plan_cases` : everything an event can amount to while platforms are polled.
* `history_call`, `history_bulkNotes` : what an event adds to the history of a task.
-/

namespace NexusTok

open List

structure TaskPollSummary where
  unfinishedTasks : ℕ
  platformsScanned : ℕ
  nullTasksFailed : ℕ
  deriving DecidableEq

namespace Pass

/-! ### The state -/

/-- A call `updateBatchTasks` has still to make for one of its tasks. -/
inductive BatchCall where
  | failure (cls : PollClass) (statusCode : ℤ) (detail : String)
  | notFound (statusCode : ℤ)
  | item (statusCode : ℤ) (result : BatchTaskResult)
  deriving DecidableEq

def BatchCall.command (now : ℤ) : BatchCall → Command
  | .failure cls statusCode detail => .batchFailure now cls statusCode detail
  | .notFound statusCode => .batchNotFound now statusCode
  | .item statusCode result => .batchItem now statusCode result

/-- A channel of the platform: the upstream ids of its tasks, or what is left of them. -/
inductive Work where
  /-- Its turn has not come. -/
  | waiting (taskIds : List String)
  /-- `updateVideoTasks`, with the tasks still to poll. -/
  | video (taskIds : List String)
  /-- `updateBatchTasks`, with the calls still to make. -/
  | batch (calls : List (String × BatchCall))
  deriving DecidableEq

structure Lane where
  channelId : ℤ
  work : Work
  deriving DecidableEq

/-- Nothing is left to do. -/
def Lane.done (lane : Lane) : Bool :=
  match lane.work with
  | .video [] | .batch [] => true
  | _ => false

/-- A batch is under way. -/
def Lane.busy (lane : Lane) : Bool :=
  match lane.work with
  | .batch (_ :: _) => true
  | _ => false

/-- `taskM`: the copies of a platform by upstream id. -/
abbrev TaskMap := List (String × Task)

/-- The loop over the platforms. -/
structure Polling where
  summary : TaskPollSummary
  /-- The tasks of the platforms to come. -/
  rest : List Task
  /-- The platform answers for whole channels. -/
  batch : Bool
  taskM : TaskMap
  lanes : List Lane

/-- How far the pass has come. -/
inductive Phase where
  | begin
  /-- The timeout sweep, with the tasks still to time out. -/
  | sweeping (now : ℤ) (tasks : List Task)
  | polling (w : Polling)

/-- An entry of the journal. -/
structure Record where
  id : ℤ
  event : TaskEvent
  deriving DecidableEq

/-- The database, what happened so far, newest first, and how far the pass has come. -/
structure State where
  store : TaskStore
  journal : List Record
  phase : Phase

def start (s : TaskStore) : State := ⟨s, [], .begin⟩

/-- What happened to a task. -/
def history (id : ℤ) (journal : List Record) : List TaskEvent :=
  (journal.filter fun r => decide (r.id = id)).map Record.event

/-! ### One platform -/

/-- `taskM[upstreamID] = task`: of two tasks with one upstream id the later one stays. -/
def addTask (m : TaskMap) (task : Task) : TaskMap :=
  (m.filter fun e => decide (e.1 ≠ task.getUpstreamTaskID)) ++ [(task.getUpstreamTaskID, task)]

/-- `taskChannelM[task.ChannelId] = append(taskChannelM[task.ChannelId], upstreamID)`. -/
def addChannel (m : List (ℤ × List String)) (task : Task) : List (ℤ × List String) :=
  if task.channelId ∈ m.map Prod.fst then
    m.map fun e =>
      if e.1 = task.channelId then (e.1, e.2 ++ [task.getUpstreamTaskID]) else e
  else m ++ [(task.channelId, [task.getUpstreamTaskID])]

namespace Polling

def tasksOf (w : Polling) (platform : TaskPlatform) : List Task :=
  w.rest.filter fun t => decide (t.platform = platform)

/-- The tasks of a platform that can be asked for. -/
def known (w : Polling) (platform : TaskPlatform) : List Task :=
  (w.tasksOf platform).filter fun t => decide (t.getUpstreamTaskID ≠ "")

def nullTaskIds (w : Polling) (platform : TaskPlatform) : List ℤ :=
  ((w.tasksOf platform).filter fun t => decide (t.getUpstreamTaskID = "")).map Task.id

/-- The loop turns to a platform.  Tasks of Midjourney are polled elsewhere. -/
def dispatch (w : Polling) (platform : TaskPlatform) (batch : Bool) : Polling where
  summary :=
    { w.summary with
      platformsScanned := w.summary.platformsScanned + 1
      nullTasksFailed := w.summary.nullTasksFailed + (w.nullTaskIds platform).length }
  rest := w.rest.filter fun t => decide (t.platform ≠ platform)
  batch := batch
  taskM := (w.known platform).foldl addTask []
  lanes :=
    if platform = .midjourney then []
    else ((w.known platform).foldl addChannel []).map fun e => ⟨e.1, .waiting e.2⟩

/-- The channel `i`, if it waits and its turn has come.  Batches come one after the other. -/
def next (w : Polling) (i : ℕ) : Option (ℤ × List String) :=
  match w.lanes[i]? with
  | some ⟨channelId, .waiting taskIds⟩ =>
    if w.batch && w.lanes.any Lane.busy then none else some (channelId, taskIds)
  | _ => none

/-- The channel `i` goes on with `work`. -/
def set (w : Polling) (i : ℕ) (channelId : ℤ) (work : Work) : Polling :=
  { w with lanes := w.lanes.set i ⟨channelId, work⟩ }

/-- The rows of the tasks of a channel. -/
def failedIDs (w : Polling) (taskIds : List String) : List ℤ :=
  taskIds.filterMap fun upstreamID => (Table.get Prod.fst upstreamID w.taskM).map fun e => e.2.id

/-- The reason given to the tasks of a channel that cannot be loaded. -/
def missingReason (w : Polling) (channelId : ℤ) : String :=
  if w.batch then "获取渠道信息失败，请联系管理员，渠道ID：" ++ toString channelId
  else "Failed to get channel info, channel ID: " ++ toString channelId

end Polling

/-- What the upstream answers for a channel. -/
inductive BatchReply where
  /-- The credential cannot be read, or `FetchBatchTasks` fails. -/
  | failed (error : String)
  | unreadable (statusCode : ℤ) (error : String)
  /-- `ParseBatchResult` fails, or gives items in the order of the iteration. -/
  | response (statusCode : ℤ) (parsed : Except String (List (String × BatchTaskResult)))

/-- `updateBatchTasks`, from the answer of the upstream on. -/
def BatchReply.calls (taskIds : List String) : BatchReply → List (String × BatchCall)
  | .failed error => taskIds.map (·, .failure .transport 0 error)
  | .unreadable statusCode error => taskIds.map (·, .failure .transport statusCode error)
  | .response statusCode parsed =>
    match classifyPollHTTP statusCode with
    | .notFound => taskIds.map (·, .notFound statusCode)
    | .auth => taskIds.map (·, .failure .auth statusCode "")
    | .transient => taskIds.map (·, .failure .transient statusCode "")
    | _ =>
      match parsed with
      | .error error => taskIds.map (·, .failure .hookError statusCode error)
      | .ok items => items.map fun item => (item.1, .item statusCode item.2)

/-! ### The machine -/

/-- What comes next, and how it is answered. -/
inductive Event where
  /-- `GetTimedOutUnfinishedTasks`. -/
  | query (asked now : ℤ) (fails : Bool)
  /-- The next task of the sweep. -/
  | sweep (course : Worker.Course)
  /-- `GetAllUnFinishSyncTasks`. -/
  | load (fails : Bool)
  /-- The next platform.  Its adaptor polls batches or not; the update of its tasks without an
  upstream id may fail. -/
  | platform (platform : TaskPlatform) (batch fails : Bool)
  /-- `CacheGetChannel` fails for the channel `i`; the update of its tasks may fail. -/
  | missing (i : ℕ) (fails : Bool)
  /-- The channel `i` has no adaptor or no credential. -/
  | giveUp (i : ℕ)
  /-- The channel `i` is there, and its tasks are polled one by one. -/
  | begin (i : ℕ)
  /-- The credential for the next task of the channel `i` cannot be read. -/
  | skip (i : ℕ)
  /-- The next task of the channel `i`. -/
  | poll (i : ℕ) (now : ℤ) (reply : Reply) (course : Worker.Course)
  /-- The channel `i` is there, and is asked for all its tasks. -/
  | fetch (i : ℕ) (reply : BatchReply)
  /-- The next call for the batch of the channel `i`. -/
  | item (i : ℕ) (now : ℤ) (course : Worker.Course)

/-- What an event amounts to, with the phase it leads to. -/
inductive Plan where
  /-- No statement on the table of tasks. -/
  | go (phase : Phase)
  /-- `TaskBulkUpdateByID`. -/
  | bulk (ids : List ℤ) (failReason : Option String) (phase : Phase)
  /-- A call on a copy; the phase depends on what it leaves of the copy. -/
  | call (task : Task) (cmd : Command) (course : Worker.Course) (next : Task → Phase)

section Machine

variable (setup : Setup) (cfg : PollConfig) (limit : ℕ)

/-- An update of many rows, unless the statement fails. -/
def Plan.bulkUnless (fails : Bool) (ids : List ℤ) (failReason : Option String) (phase : Phase) :
    Plan :=
  if fails then .go phase else .bulk ids failReason phase

/-- A call for an upstream id, after which the channels are those of `w'`.  An id that is not of
this platform is ignored. -/
def Polling.call (w w' : Polling) (upstreamID : String) (cmd : Command)
    (course : Worker.Course) : Plan :=
  match Table.get Prod.fst upstreamID w.taskM with
  | none => .go (.polling w')
  | some e =>
    .call e.2 cmd course fun task =>
      .polling { w' with taskM := Table.put Prod.fst (upstreamID, task) w.taskM }

/-- What an event amounts to while platforms are polled. -/
def Polling.plan (w : Polling) : Event → Plan
  | .query _ _ _ | .sweep _ | .load _ => .go (.polling w)
  | .platform platform batch fails =>
    if w.lanes.all Lane.done = true ∧ w.tasksOf platform ≠ [] then
      .bulkUnless fails (w.nullTaskIds platform) none (.polling (w.dispatch platform batch))
    else .go (.polling w)
  | .missing i fails =>
    match w.next i with
    | some (channelId, taskIds) =>
      .bulkUnless fails (w.failedIDs taskIds) (some (w.missingReason channelId))
        (.polling (w.set i channelId (.video [])))
    | none => .go (.polling w)
  | .giveUp i =>
    match w.next i with
    | some (channelId, _) =>
      .go (.polling (if w.batch then w else w.set i channelId (.video [])))
    | none => .go (.polling w)
  | .begin i =>
    match w.next i with
    | some (channelId, taskIds) =>
      .go (.polling (if w.batch then w else w.set i channelId (.video taskIds)))
    | none => .go (.polling w)
  | .skip i =>
    match w.lanes[i]? with
    | some ⟨channelId, .video (_ :: taskIds)⟩ => .go (.polling (w.set i channelId (.video taskIds)))
    | _ => .go (.polling w)
  | .poll i now reply course =>
    match w.lanes[i]? with
    | some ⟨channelId, .video (upstreamID :: taskIds)⟩ =>
      w.call (w.set i channelId (.video taskIds)) upstreamID (.video now reply) course
    | _ => .go (.polling w)
  | .fetch i reply =>
    match w.next i with
    | some (channelId, taskIds) =>
      .go (.polling (if w.batch then w.set i channelId (.batch (reply.calls taskIds)) else w))
    | none => .go (.polling w)
  | .item i now course =>
    match w.lanes[i]? with
    | some ⟨channelId, .batch ((upstreamID, call) :: calls)⟩ =>
      w.call (w.set i channelId (.batch calls)) upstreamID (call.command now) course
    | _ => .go (.polling w)

/-- `GetTimedOutUnfinishedTasks`, of at most a hundred tasks. -/
def timedOutTasks (asked : ℤ) (s : TaskStore) : List Task :=
  (Table.select (timedOut cfg asked) (fun a b => decide (a.submitTime ≤ b.submitTime))
    s.tasks).take 100

/-- `GetAllUnFinishSyncTasks`. -/
def unfinishedTasks (s : TaskStore) : List Task :=
  (Table.select Task.unfinished (fun a b => decide (a.id ≤ b.id)) s.tasks).take limit

/-- What an event amounts to. -/
def plan (p : State) (e : Event) : Plan :=
  match p.phase with
  | .begin =>
    match e with
    | .query asked now fails =>
      .go (.sweeping now (if fails then [] else timedOutTasks cfg asked p.store))
    | _ => .go .begin
  | .sweeping now [] =>
    match e with
    | .load fails =>
      let allTasks := if fails then [] else unfinishedTasks limit p.store
      .go (.polling ⟨⟨allTasks.length, 0, 0⟩, allTasks, false, [], []⟩)
    | _ => .go (.sweeping now [])
  | .sweeping now (task :: tasks) =>
    match e with
    | .sweep course => .call task (.timeout now) course fun _ => .sweeping now tasks
    | _ => .go (.sweeping now (task :: tasks))
  | .polling w => w.plan e

/-- A worker at the begin of a call. -/
def worker (cmd : Command) (task : Task) : Worker :=
  ⟨0, cmd.isSweep, (cmd.start cfg task).1, (cmd.start cfg task).2⟩

/-- The notes of an update of many rows: those that had not failed. -/
def bulkNotes (ids : List ℤ) (rows : List Task) : List Record :=
  (rows.filter fun row => decide (row.id ∈ ids) && decide (row.status ≠ .failure)).map fun row =>
    ⟨row.id, .moved row.status .failure row.quota⟩

/-- Carry out what an event amounts to. -/
def Plan.run (p : State) : Plan → State
  | .go phase => { p with phase := phase }
  | .bulk ids failReason phase =>
    ⟨p.store.taskBulkUpdateByID ids failReason, bulkNotes ids p.store.tasks ++ p.journal, phase⟩
  | .call task cmd course next =>
    let r := (worker cfg cmd task).finish setup course 5 p.store
    ⟨r.store, (r.events.map fun e => ⟨task.id, e⟩) ++ p.journal, next r.worker.copy⟩

/-- One event of a pass. -/
def step (p : State) (e : Event) : State := (plan cfg limit p e).run setup cfg p

end Machine

/-! ### What an event can amount to -/

namespace Polling

variable {w : Polling}

/-- Everything an event can amount to while platforms are polled. -/
inductive Plans (w : Polling) : Plan → Prop
  /-- Only the channels change. -/
  | go {w' : Polling} (rest : w'.rest = w.rest) (taskM : w'.taskM = w.taskM) :
      Plans w (.go (.polling w'))
  /-- The update of the tasks without an upstream id fails. -/
  | dispatched (platform : TaskPlatform) (batch : Bool) :
      Plans w (.go (.polling (w.dispatch platform batch)))
  | null (platform : TaskPlatform) (batch : Bool) :
      Plans w (.bulk (w.nullTaskIds platform) none (.polling (w.dispatch platform batch)))
  | missing {w' : Polling} (taskIds : List String) (failReason : String)
      (rest : w'.rest = w.rest) (taskM : w'.taskM = w.taskM) :
      Plans w (.bulk (w.failedIDs taskIds) (some failReason) (.polling w'))
  | call {w' : Polling} {upstreamID : String} {e : String × Task} {cmd : Command}
      (found : Table.get Prod.fst upstreamID w.taskM = some e) (polls : cmd.isSweep = false)
      (course : Worker.Course) (rest : w'.rest = w.rest) :
      Plans w (.call e.2 cmd course fun task =>
        .polling { w' with taskM := Table.put Prod.fst (upstreamID, task) w.taskM })

theorem call_cases {w' : Polling} {upstreamID : String} {cmd : Command} {course : Worker.Course}
    (hrest : w'.rest = w.rest) (htaskM : w'.taskM = w.taskM) (hpolls : cmd.isSweep = false) :
    Plans w (w.call w' upstreamID cmd course) := by
  unfold call
  cases hget : Table.get Prod.fst upstreamID w.taskM with
  | none => exact .go hrest htaskM
  | some e => exact .call hget hpolls course hrest

theorem bulkUnless_cases {ids : List ℤ} {failReason : Option String} {phase : Phase}
    (fails : Bool) (hgo : Plans w (.go phase)) (hbulk : Plans w (.bulk ids failReason phase)) :
    Plans w (.bulkUnless fails ids failReason phase) := by
  cases fails with
  | true => exact hgo
  | false => exact hbulk

/-- **Everything an event can amount to.** -/
theorem plan_cases (w : Polling) (e : Event) : Plans w (w.plan e) := by
  have hsame : Plans w (.go (.polling w)) := .go rfl rfl
  have hset : ∀ (b : Bool) (i : ℕ) (channelId : ℤ) (work : Work),
      Plans w (.go (.polling (if b then w else w.set i channelId work))) ∧
        Plans w (.go (.polling (if b then w.set i channelId work else w))) := by
    intro b i channelId work
    cases b <;> exact ⟨.go rfl rfl, .go rfl rfl⟩
  cases e with
  | query | sweep | load => exact hsame
  | platform platform batch fails =>
    simp only [Polling.plan]
    split_ifs
    · exact bulkUnless_cases fails (.dispatched platform batch) (.null platform batch)
    · exact hsame
  | missing i fails =>
    simp only [Polling.plan]
    cases w.next i with
    | none => exact hsame
    | some x => exact bulkUnless_cases fails (.go rfl rfl) (.missing x.2 _ rfl rfl)
  | giveUp i =>
    simp only [Polling.plan]
    cases w.next i with
    | none => exact hsame
    | some x => exact (hset w.batch i x.1 _).1
  | begin i =>
    simp only [Polling.plan]
    cases w.next i with
    | none => exact hsame
    | some x => exact (hset w.batch i x.1 _).1
  | fetch i reply =>
    simp only [Polling.plan]
    cases w.next i with
    | none => exact hsame
    | some x => exact (hset w.batch i x.1 _).2
  | skip i =>
    simp only [Polling.plan]
    split
    · exact .go rfl rfl
    · exact hsame
  | poll i now reply course =>
    simp only [Polling.plan]
    split
    · exact call_cases rfl rfl rfl
    · exact hsame
  | item i now course =>
    simp only [Polling.plan]
    split
    · rename_i channelId upstreamID call calls _
      exact call_cases rfl rfl (by cases call <;> rfl)
    · exact hsame

end Polling

/-! ### The history of a task -/

theorem history_append (id : ℤ) (journal journal' : List Record) :
    history id (journal ++ journal') = history id journal ++ history id journal' := by
  simp [history]

theorem history_call (id id' : ℤ) (events : List TaskEvent) (journal : List Record) :
    history id' ((events.map fun e => ⟨id, e⟩) ++ journal) =
      if id' = id then events ++ history id' journal else history id' journal := by
  rw [history_append]
  by_cases hid : id' = id
  · subst hid
    have hall : history id' (events.map fun e => ⟨id', e⟩) = events := by
      simp [history, filter_map, Function.comp_def]
    rw [hall, if_pos rfl]
  · have hnone : history id' (events.map fun e => ⟨id, e⟩) = [] := by
      simp [history, filter_map, Function.comp_def, Ne.symm hid]
    rw [hnone, if_neg hid, nil_append]

theorem history_bulkNotes (id : ℤ) (ids : List ℤ) {rows : List Task}
    (hn : (rows.map Task.id).Nodup) :
    history id (bulkNotes ids rows) =
      match Table.get Task.id id rows with
      | some row =>
        if id ∈ ids ∧ row.status ≠ .failure then [.moved row.status .failure row.quota] else []
      | none => [] := by
  induction rows with
  | nil => rfl
  | cons row rows ih =>
    obtain ⟨hnew, hn⟩ := nodup_cons.1 hn
    have ih := ih hn
    have hcons : history id (bulkNotes ids (row :: rows)) =
        (if row.id = id ∧ row.id ∈ ids ∧ row.status ≠ .failure then
          [TaskEvent.moved row.status .failure row.quota] else []) ++
        history id (bulkNotes ids rows) := by
      rw [← singleton_append, bulkNotes, filter_append, map_append, history_append]
      congr 1
      by_cases hin : row.id ∈ ids ∧ row.status ≠ .failure
      · have hkeep : (decide (row.id ∈ ids) && decide (row.status ≠ .failure)) = true := by
          simp [hin.1, hin.2]
        rw [filter_singleton, hkeep]
        by_cases hid : row.id = id
        · rw [if_pos ⟨hid, hin⟩]
          simp [history, hid]
        · rw [if_neg fun h => hid h.1]
          simp [history, hid]
      · have hdrop : (decide (row.id ∈ ids) && decide (row.status ≠ .failure)) = false := by
          rw [← Bool.decide_and]
          exact decide_eq_false hin
        rw [filter_singleton, hdrop, if_neg fun h => hin h.2]
        rfl
    rw [hcons, Table.get_cons]
    by_cases hid : row.id = id
    · -- no later row has this id
      have hgone : Table.get Task.id id rows = none := by
        rw [Table.get, find?_eq_none]
        intro r hr
        rw [← hid]
        simpa using fun h : r.id = row.id => hnew (h ▸ mem_map_of_mem hr)
      rw [ih, hgone, if_pos hid]
      simp [hid]
    · rw [ih, if_neg hid]
      simp [hid]

end Pass

end NexusTok
