import NexusTok.Machine.Run
import NexusTok.Subscription.Create

/-!
# The user's group over whole histories

A plan can move its buyer into an upgrade group.  The subscription keeps a snapshot of the group the
buyer was moved out of, and nothing when the buyer already was in the upgrade group.  Three
operations close subscriptions: the expiry task, an administrator's cancellation and an
administrator's deletion.  When no running upgrade is left, each of them decides from **one**
subscription whether the user goes back, and where to: the one being closed, or the expired one that
ends last.

The machine of this file is one user under any sequence of purchases (of plans without an explicit
downgrade group), expiries, cancellations and deletions.

* `closed_group` : what a closing operation makes of the group.
* `group_runs_iff` : whenever no upgrade is active the user is back in the group held at the start,
  in exactly the runs in which every closing operation that leaves no upgrade active decides from a
  subscription that restores this group (`Restores`); and in every run, a closing operation that
  leaves a running upgrade leaves the group alone.
-/

namespace NexusTok

open Machine List Table

/-! ### Closing subscriptions -/

/-- The last step of a downgrade: write the group, unless there is nothing to change. -/
def changeGroup (f : Faults) (userId : ℤ) (currentGroup target : String) : Body DB Err String :=
  fun db =>
    if target = "" ∨ target = currentGroup then .ok ("", db)
    else if f ⟨.update, .users, userId⟩ then .error (.db ⟨.update, .users, userId⟩)
    else .ok (target, db.setGroup userId target)

/-- The user has a running subscription with an upgrade group, other than `except`. -/
def DB.runningUpgrade (db : DB) (userId now : ℤ) (except : Option ℤ) : Bool :=
  db.subscriptions.any fun sub =>
    decide (sub.userId = userId ∧ sub.status = .active ∧ now < sub.endTime ∧
      except ≠ some sub.id ∧ sub.upgradeGroup ≠ "")

/-- `downgradeUserGroupForSubscriptionTx`.  A failing look-up of running subscriptions counts as
finding none. -/
def downgradeUserGroupForSubscription (f : Faults) (sub : UserSubscription) (now : ℤ) :
    Body DB Err String := fun db =>
  let downgradeGroup := trimSpace sub.downgradeGroup
  let upgradeGroup := trimSpace sub.upgradeGroup
  if downgradeGroup = "" ∧ upgradeGroup = "" then .ok ("", db)
  else
    match getUserGroupById f db sub.userId with
    | .error e => .error e
    | .ok currentGroup =>
      if !f ⟨.find, .subscriptions, 0⟩ && db.runningUpgrade sub.userId now (some sub.id) then
        .ok ("", db)
      else if downgradeGroup ≠ "" then changeGroup f sub.userId currentGroup downgradeGroup db
      else if currentGroup ≠ upgradeGroup then .ok ("", db)
      else changeGroup f sub.userId currentGroup (trimSpace sub.prevUserGroup) db

/-- What the administrator is told. -/
def downgradeMessage (target : String) : String :=
  if target = "" then "" else "用户分组将回退到 " ++ target

/-- Mark a subscription cancelled as of `now`. -/
def DB.cancelSubscription (db : DB) (id now : ℤ) : DB :=
  { db with
    subscriptions := Table.modify UserSubscription.id id
      (fun sub => { sub with status := .cancelled, endTime := now }) db.subscriptions }

def DB.deleteSubscription (db : DB) (id : ℤ) : DB :=
  { db with subscriptions := db.subscriptions.filter fun sub => decide (sub.id ≠ id) }

def adminInvalidateUserSubscription (f : Faults) (id now : ℤ) (db : DB) : Except Err String × DB :=
  if id ≤ 0 then (.error (.text "invalid userSubscriptionId"), db)
  else
    Body.atomically (commitErr f .subscriptions) (fun db =>
      if f ⟨.find, .subscriptions, id⟩ then .error (.db ⟨.find, .subscriptions, id⟩)
      else
        match db.subscription id with
        | none => .error errRecordNotFound
        | some sub =>
          if f ⟨.update, .subscriptions, id⟩ then .error (.db ⟨.update, .subscriptions, id⟩)
          else
            match downgradeUserGroupForSubscription f sub now (db.cancelSubscription id now) with
            | .error e => .error e
            | .ok (target, db') => .ok (downgradeMessage target, db')) db

def adminDeleteUserSubscription (f : Faults) (id now : ℤ) (db : DB) : Except Err String × DB :=
  if id ≤ 0 then (.error (.text "invalid userSubscriptionId"), db)
  else
    Body.atomically (commitErr f .subscriptions) (fun db =>
      if f ⟨.find, .subscriptions, id⟩ then .error (.db ⟨.find, .subscriptions, id⟩)
      else
        match db.subscription id with
        | none => .error errRecordNotFound
        | some sub =>
          match downgradeUserGroupForSubscription f sub now db with
          | .error e => .error e
          | .ok (target, db') =>
            if f ⟨.delete, .subscriptions, id⟩ then .error (.db ⟨.delete, .subscriptions, id⟩)
            else .ok (downgradeMessage target, db'.deleteSubscription id)) db

/-- The time of the subscription is over, and it is still marked active. -/
def UserSubscription.expiryDue (sub : UserSubscription) (now : ℤ) : Bool :=
  decide (sub.status = .active ∧ 0 < sub.endTime ∧ sub.endTime ≤ now)

/-- Mark the user's subscriptions that are over. -/
def DB.markExpired (db : DB) (userId now : ℤ) : DB :=
  { db with
    subscriptions := db.subscriptions.map fun sub =>
      if sub.userId = userId ∧ sub.expiryDue now = true then { sub with status := .expired }
      else sub }

/-- The expired subscription that ends last among those that define a group transition. -/
def DB.lastExpired (db : DB) (userId : ℤ) : Option UserSubscription :=
  (Table.select
    (fun sub => decide (sub.userId = userId ∧ sub.status = .expired ∧
      (sub.downgradeGroup ≠ "" ∨ sub.upgradeGroup ≠ "")))
    (fun a b => decide (b.endTime < a.endTime ∨ a.endTime = b.endTime ∧ b.id ≤ a.id))
    db.subscriptions).head?

/-- The transaction of `ExpireDueSubscriptions` for one user: how many rows it marked, and the group
it moved the user to. -/
def expireUser (f : Faults) (now userId : ℤ) : Body DB Err (ℕ × String) := fun db =>
  if f ⟨.update, .subscriptions, userId⟩ then .error (.db ⟨.update, .subscriptions, userId⟩)
  else
    let marked := db.subscriptions.countP fun sub =>
      decide (sub.userId = userId) && sub.expiryDue now
    let db := db.markExpired userId now
    if !f ⟨.find, .subscriptions, 0⟩ && db.runningUpgrade userId now none then
      .ok ((marked, ""), db)
    else
      match (if f ⟨.find, .subscriptions, 1⟩ then none else db.lastExpired userId) with
      | none => .ok ((marked, ""), db)
      | some lastExpired =>
        match getUserGroupById f db userId with
        | .error e => .error e
        | .ok currentGroup =>
          let downgradeGroup := trimSpace lastExpired.downgradeGroup
          let upgradeGroup := trimSpace lastExpired.upgradeGroup
          let prevGroup := trimSpace lastExpired.prevUserGroup
          let target :=
            if downgradeGroup ≠ "" then downgradeGroup
            else if upgradeGroup = "" ∨ prevGroup = "" ∨ currentGroup ≠ upgradeGroup then ""
            else prevGroup
          match changeGroup f userId currentGroup target db with
          | .error e => .error e
          | .ok (group, db) => .ok ((marked, group), db)

/-- The loop over the users, each with a fault pattern of its own. -/
def expireUsers (fs : ℤ → Faults) (now : ℤ) : List ℤ → ℕ → DB → Except Err ℕ × DB
  | [], n, db => (.ok n, db)
  | userId :: rest, n, db =>
    match (expireUser (fs userId) now userId).atomically
        (commitErr (fs userId) .subscriptions) db with
    | (.error e, db') => (.error e, db')
    | (.ok (marked, _), db') => expireUsers fs now rest (n + marked) db'

/-- The users of a batch of subscriptions that are over. -/
def usersDue (limit : ℕ) (now : ℤ) (db : DB) : List ℤ :=
  (((Table.select (fun sub => sub.expiryDue now)
      (fun a b => decide (a.endTime < b.endTime ∨ a.endTime = b.endTime ∧ a.id ≤ b.id))
      db.subscriptions).take (if limit ≤ 0 then 200 else limit)).map
    UserSubscription.userId).dedup.filter fun userId => decide (0 < userId)

def expireDueSubscriptions (f : Faults) (fs : ℤ → Faults) (limit : ℕ) (now : ℤ) (db : DB) :
    Except Err ℕ × DB :=
  if f ⟨.find, .subscriptions, 0⟩ then (.error (.db ⟨.find, .subscriptions, 0⟩), db)
  else expireUsers fs now (usersDue limit now db) 0 db

namespace Group

/-! ### The machine -/

/-- A plan without an explicit downgrade group. -/
def PlainPlan := { plan : SubscriptionPlan // trimSpace plan.downgradeGroup = "" }

/-- What happens to the user's subscriptions. -/
inductive Event where
  | purchase (plan : PlainPlan) (source : String) (now newId : ℤ)
  | expire (limit : ℕ) (now : ℤ)
  | cancel (id now : ℤ)
  | delete (id now : ℤ)

variable (loc : Location) (uid : ℤ)

/-- One event, with no statement failing. -/
def step (db : DB) : Event → DB
  | .purchase plan source now newId =>
    ((createUserSubscriptionFromPlan .none loc ⟨uid, plan.1, source, now, newId⟩).atomically none
      db).2
  | .expire limit now => (expireDueSubscriptions .none (fun _ => .none) limit now db).2
  | .cancel id now => (adminInvalidateUserSubscription .none id now db).2
  | .delete id now => (adminDeleteUserSubscription .none id now db).2

/-- The user has an active subscription with an upgrade group. -/
def Upgraded (db : DB) : Prop :=
  ∃ sub ∈ db.subscriptions, sub.userId = uid ∧ sub.status = .active ∧ sub.upgradeGroup ≠ ""

/-- The user has one whose time is not over. -/
def Running (now : ℤ) (db : DB) : Prop :=
  ∃ sub ∈ db.subscriptions, sub.userId = uid ∧ sub.status = .active ∧ now < sub.endTime ∧
    sub.upgradeGroup ≠ ""

/-- With no upgrade active, the user is in the group `g₀`. -/
def Restored (g₀ : String) (db : DB) : Prop := ¬ Upgraded uid db → db.groupOf uid = g₀

/-- The subscription takes a user of the group back to its snapshot. -/
def TakesBack (group : String) (d : UserSubscription) : Prop :=
  group = trimSpace d.upgradeGroup ∧ trimSpace d.prevUserGroup ≠ ""

/-- Decided from `d`, the user ends in `g₀`: `d` takes the user back, and its snapshot is `g₀`; or
`d` leaves the user alone, who is in `g₀` already. -/
def Restores (g₀ group : String) (d : UserSubscription) : Prop :=
  TakesBack group d ∧ trimSpace d.prevUserGroup = g₀ ∨ ¬ TakesBack group d ∧ group = g₀

/-- The closing operation decides from a subscription that restores `g₀`, if it leaves no upgrade
active; or from none, and the user is in `g₀`. -/
def Decides (g₀ group : String) (closed : DB) (d : Option UserSubscription) : Prop :=
  ¬ Upgraded uid closed → d.elim (group = g₀) (Restores g₀ group)

/-- The condition on an event: what a closing operation of the user decides from. -/
def RestoresAtClose (g₀ : String) (db : DB) : Event → Prop
  | .purchase .. => True
  | .expire limit now =>
    uid ∈ usersDue limit now db →
      Decides uid g₀ (db.groupOf uid) (db.markExpired uid now)
        ((db.markExpired uid now).lastExpired uid)
  | .cancel id now =>
    ∀ sub, 0 < id → db.subscription id = some sub → sub.userId = uid →
      Decides uid g₀ (db.groupOf uid) (db.cancelSubscription id now)
        (if sub.upgradeGroup = "" then none else some sub)
  | .delete id _ =>
    ∀ sub, 0 < id → db.subscription id = some sub → sub.userId = uid →
      Decides uid g₀ (db.groupOf uid) (db.deleteSubscription id)
        (if sub.upgradeGroup = "" then none else some sub)

def Event.closingTime : Event → Option ℤ
  | .purchase .. => none
  | .expire _ now | .cancel _ now | .delete _ now => some now

/-- A closing operation that leaves a running upgrade leaves the group alone. -/
def KeepsGroup (db : DB) (e : Event) : Prop :=
  ∀ now, e.closingTime = some now → Running uid now (step loc uid db e) →
    (step loc uid db e).groupOf uid = db.groupOf uid

/-- Before the first purchase: the user is in the group `g₀` and has no subscription. -/
structure Start (g₀ : String) (db : DB) : Prop where
  user_pos : 0 < uid
  user : ∃ u, db.user uid = some u ∧ u.group = g₀
  unique : (db.subscriptions.map UserSubscription.id).Nodup
  none : ∀ sub ∈ db.subscriptions, sub.userId ≠ uid

/-! ### One user's part of the database -/

def rowsOf (db : DB) : List UserSubscription :=
  db.subscriptions.filter fun sub => decide (sub.userId = uid)

/-- The row of the user and the user's subscriptions are the same. -/
def Same (db db' : DB) : Prop := db'.user uid = db.user uid ∧ rowsOf uid db' = rowsOf uid db

variable {loc uid} {db db' : DB} {now : ℤ}

variable {sub : UserSubscription}

theorem mem_rowsOf : sub ∈ rowsOf uid db ↔ sub ∈ db.subscriptions ∧ sub.userId = uid := by
  simp [rowsOf]

theorem Same.groupOf (h : Same uid db db') : db'.groupOf uid = db.groupOf uid := by
  rw [DB.groupOf, DB.groupOf, h.1]

theorem upgraded_congr (h : rowsOf uid db' = rowsOf uid db) :
    Upgraded uid db' ↔ Upgraded uid db := by
  have hrows : ∀ db : DB, Upgraded uid db ↔
      ∃ sub ∈ rowsOf uid db, sub.status = .active ∧ sub.upgradeGroup ≠ "" := by
    intro db
    simp only [Upgraded, mem_rowsOf, and_assoc]
  rw [hrows, hrows, h]

theorem runningUpgrade_eq (db : DB) (now : ℤ) : db.runningUpgrade uid now none =
    (rowsOf uid db).any fun sub =>
      decide (sub.status = .active ∧ now < sub.endTime ∧ sub.upgradeGroup ≠ "") := by
  rw [rowsOf, any_filter, DB.runningUpgrade]
  congr 1
  funext sub
  by_cases hu : sub.userId = uid <;> simp [hu]

theorem runningUpgrade_iff : db.runningUpgrade uid now none = true ↔ Running uid now db := by
  simp only [DB.runningUpgrade, any_eq_true, decide_eq_true_eq, Running, ne_eq,
    reduceCtorEq, not_false_eq_true, true_and]

theorem upgraded_of_running (h : Running uid now db) : Upgraded uid db := by
  obtain ⟨sub, hm, hu, ha, -, hg⟩ := h
  exact ⟨sub, hm, hu, ha, hg⟩

theorem lastExpired_congr (h : rowsOf uid db' = rowsOf uid db) :
    db'.lastExpired uid = db.lastExpired uid := by
  have hrows : ∀ db : DB, (db.subscriptions.filter fun sub => decide (sub.userId = uid ∧
      sub.status = .expired ∧ (sub.downgradeGroup ≠ "" ∨ sub.upgradeGroup ≠ ""))) =
      (rowsOf uid db).filter fun sub => decide (sub.status = .expired ∧
        (sub.downgradeGroup ≠ "" ∨ sub.upgradeGroup ≠ "")) := by
    intro db
    rw [rowsOf, filter_filter]
    congr 1
    funext sub
    by_cases hu : sub.userId = uid <;> simp [hu]
  simp only [DB.lastExpired, Table.select, hrows, h]

/-! ### What a closing operation makes of the group -/

instance (group : String) (d : UserSubscription) : Decidable (TakesBack group d) :=
  inferInstanceAs (Decidable (group = trimSpace d.upgradeGroup ∧ trimSpace d.prevUserGroup ≠ ""))

/-- The group a user ends in when the decision is made from `d`. -/
def revert (group : String) : Option UserSubscription → String
  | none => group
  | some d => if TakesBack group d then trimSpace d.prevUserGroup else group

variable {g₀ target : String}

theorem decides_iff {group : String} {closed : DB} {d : Option UserSubscription} :
    Decides uid g₀ group closed d ↔ (¬ Upgraded uid closed → revert group d = g₀) := by
  unfold Decides
  refine imp_congr_right fun _ => ?_
  cases d with
  | none => rfl
  | some d =>
    simp only [Option.elim_some, Restores, revert]
    by_cases ht : TakesBack group d <;> simp [ht]

/-- The database after a closing operation: the user's subscriptions are those of `closed`, and the
group is what the subscription `d` decides, unless an upgrade is running. -/
structure Closes (uid now : ℤ) (db db' closed : DB) (d : Option UserSubscription) : Prop where
  rows : rowsOf uid db' = rowsOf uid closed
  group : db'.groupOf uid =
    if closed.runningUpgrade uid now none then db.groupOf uid else revert (db.groupOf uid) d

variable {closed : DB} {d : Option UserSubscription}

/-- **The group after a closing operation** is the one held at the start iff the operation decides
from a subscription that restores it. -/
theorem Closes.restored_iff (h : Closes uid now db db' closed d) :
    Restored uid g₀ db' ↔ Decides uid g₀ (db.groupOf uid) closed d := by
  rw [decides_iff, Restored, upgraded_congr h.rows]
  refine imp_congr_right fun hu => ?_
  have hr : ¬ closed.runningUpgrade uid now none = true := fun hr =>
    hu (upgraded_of_running (runningUpgrade_iff.1 hr))
  rw [h.group, if_neg hr]

theorem Closes.keeps (h : Closes uid now db db' closed d) (hr : Running uid now db') :
    db'.groupOf uid = db.groupOf uid := by
  have hc : closed.runningUpgrade uid now none = true := by
    rw [runningUpgrade_eq, ← h.rows, ← runningUpgrade_eq]
    exact runningUpgrade_iff.2 hr
  rw [h.group, if_pos hc]

/-- Write the group, unless there is nothing to change. -/
def moveTo (db : DB) (userId : ℤ) (target : String) : DB :=
  if target = "" ∨ target = db.groupOf userId then db else db.setGroup userId target

theorem changeGroup_none (db : DB) (userId : ℤ) (target : String) :
    ∃ t, changeGroup .none userId (db.groupOf userId) target db =
      .ok (t, moveTo db userId target) := by
  unfold changeGroup moveTo
  split_ifs
  · exact ⟨_, rfl⟩
  · cases ‹Faults.none _ = true›
  · exact ⟨_, rfl⟩

theorem moveTo_subscriptions (db : DB) (userId : ℤ) (target : String) :
    (moveTo db userId target).subscriptions = db.subscriptions := by
  unfold moveTo
  split_ifs <;> rfl

variable {v id : ℤ}

theorem moveTo_user_ne (hv : uid ≠ v) : (moveTo db v target).user uid = db.user uid := by
  unfold moveTo
  split_ifs
  · rfl
  · exact get_modify_ne hv fun _ _ hr => hr

theorem moveTo_groupOf {u : User} (hu : db.user uid = some u) :
    (moveTo db uid target).groupOf uid = if target = "" then db.groupOf uid else target := by
  unfold moveTo
  split_ifs with h₁ h₂ h₃
  · rfl
  · exact (h₁.resolve_left h₂).symm
  · exact absurd (.inl h₃) h₁
  · exact groupOf_setGroup hu

theorem moveTo_user_some {u : User} (hu : db.user uid = some u) (target : String) :
    ∃ u', (moveTo db uid target).user uid = some u' := by
  unfold moveTo
  split_ifs
  · exact ⟨u, hu⟩
  · have hid : u.id = uid := get_key hu
    exact ⟨_, get_modify hu hid⟩

/-- The target of a decision from `d`, `""` for leaving the user alone. -/
theorem moveTo_revert {u : User} {d : UserSubscription} (hu : db.user uid = some u) :
    (moveTo db uid (if TakesBack (db.groupOf uid) d then trimSpace d.prevUserGroup else "")).groupOf
      uid = revert (db.groupOf uid) (some d) := by
  rw [moveTo_groupOf hu, revert]
  by_cases ht : TakesBack (db.groupOf uid) d
  · rw [if_pos ht, if_pos ht, if_neg ht.2]
  · rw [if_neg ht, if_neg ht, if_pos rfl]

/-! ### The invariant -/

/-- What every state of a run has: the user is there, ids are unique, and the user's subscriptions
come from plans without a downgrade group. -/
structure Inv (uid : ℤ) (db : DB) : Prop where
  user_pos : 0 < uid
  user : ∃ u, db.user uid = some u
  unique : (db.subscriptions.map UserSubscription.id).Nodup
  plain : ∀ sub ∈ db.subscriptions, sub.userId = uid →
    sub.downgradeGroup = "" ∧ trimSpace sub.upgradeGroup = sub.upgradeGroup

/-- The invariant survives when every row stems from an old one, and the user stays. -/
theorem Inv.of_rows (h : Inv uid db) (hu : ∃ u, db'.user uid = some u)
    (hn : (db'.subscriptions.map UserSubscription.id).Nodup)
    (hr : ∀ sub' ∈ db'.subscriptions, ∃ sub ∈ db.subscriptions, sub'.userId = sub.userId ∧
      sub'.downgradeGroup = sub.downgradeGroup ∧ sub'.upgradeGroup = sub.upgradeGroup) :
    Inv uid db' := by
  refine ⟨h.user_pos, hu, hn, fun sub' hm hid => ?_⟩
  obtain ⟨sub, hs, h₁, h₂, h₃⟩ := hr sub' hm
  rw [h₂, h₃]
  exact h.plain sub hs (by rw [← h₁]; exact hid)

theorem Inv.moveTo (h : Inv uid db) : Inv uid (moveTo db v target) := by
  obtain ⟨u, hu⟩ := h.user
  refine h.of_rows ?_ (by rw [moveTo_subscriptions]; exact h.unique) fun sub hs => ?_
  · by_cases hv : uid = v
    · subst hv; exact moveTo_user_some hu target
    · exact ⟨u, by rw [moveTo_user_ne hv]; exact hu⟩
  · rw [moveTo_subscriptions] at hs
    exact ⟨sub, hs, rfl, rfl, rfl⟩

theorem Inv.cancel (h : Inv uid db) : Inv uid (db.cancelSubscription id now) := by
  refine h.of_rows h.user ?_ fun sub' hs => ?_
  · have hkeys : (db.cancelSubscription id now).subscriptions.map UserSubscription.id =
        db.subscriptions.map UserSubscription.id := keys_modify fun _ hr => hr
    rw [hkeys]
    exact h.unique
  · obtain ⟨sub, hm, rfl⟩ := mem_map.1 hs
    refine ⟨sub, hm, ?_⟩
    split_ifs <;> exact ⟨rfl, rfl, rfl⟩

theorem Inv.delete (h : Inv uid db) : Inv uid (db.deleteSubscription id) :=
  h.of_rows h.user (List.Sublist.nodup (List.Sublist.map _ filter_sublist) h.unique)
    fun sub hs => ⟨sub, (mem_filter.1 hs).1, rfl, rfl, rfl⟩

theorem Inv.markExpired (h : Inv uid db) : Inv uid (db.markExpired v now) := by
  refine h.of_rows h.user ?_ fun sub' hs => ?_
  · have hkeys : (db.markExpired v now).subscriptions.map UserSubscription.id =
        db.subscriptions.map UserSubscription.id := by
      simp only [DB.markExpired, map_map]
      refine map_congr_left fun sub _ => ?_
      simp only [Function.comp_apply]
      split_ifs <;> rfl
    rw [hkeys]
    exact h.unique
  · obtain ⟨sub, hm, rfl⟩ := mem_map.1 hs
    refine ⟨sub, hm, ?_⟩
    split_ifs <;> exact ⟨rfl, rfl, rfl⟩

/-! ### Purchases -/

theorem freeId_iff : db.freeId id = true ↔ 0 < id ∧ ∀ sub ∈ db.subscriptions, sub.id ≠ id := by
  simp [DB.freeId]

/-- A purchase of the user keeps the invariant, and an upgrade it brings is active. -/
theorem purchase_spec {p : Purchase} (h : Inv uid db) (hp : p.userId = uid)
    (hplain : trimSpace p.plan.downgradeGroup = "") (hc : Created loc p db sub db') :
    Inv uid db' ∧ ∀ g₀, Restored uid g₀ db → Restored uid g₀ db' := by
  obtain ⟨endUnix, -, hrow⟩ := hc.row
  have hsubs := hc.subscriptions
  obtain ⟨u, hu⟩ := h.user
  have hmove : p.moveUser db = moveTo db uid (trimSpace p.plan.upgradeGroup) := by
    unfold Purchase.moveUser Group.moveTo
    rw [hp]
    simp only [eq_comm]
  have huser : db'.user uid = (p.moveUser db).user uid := by
    rw [hc.db_eq, DB.user_addSubscription]
  refine ⟨⟨h.user_pos, ?_, ?_, ?_⟩, fun g₀ hres hup => ?_⟩
  · obtain ⟨u', hu'⟩ := moveTo_user_some hu (trimSpace p.plan.upgradeGroup)
    exact ⟨u', by rw [huser, hmove, hu']⟩
  · rw [hsubs, map_append, nodup_append]
    refine ⟨h.unique, by simp, ?_⟩
    intro id hid id' hid'
    obtain ⟨old, hold, rfl⟩ := mem_map.1 hid
    rw [map_singleton, mem_singleton] at hid'
    rw [hid', hrow]
    exact (freeId_iff.1 hc.free).2 old hold
  · intro s hs hid
    rw [hsubs] at hs
    rcases mem_append.1 hs with hs | hs
    · exact h.plain s hs hid
    · rw [mem_singleton] at hs
      subst hs
      rw [hrow]
      exact ⟨hplain, trimSpace_trimSpace _⟩
  · -- the new subscription is active: it has no upgrade group, and the user has not moved
    have hnone : trimSpace p.plan.upgradeGroup = "" := by
      by_contra hne
      refine hup ⟨sub, by rw [hsubs]; simp, ?_⟩
      rw [hrow]
      exact ⟨hp, rfl, hne⟩
    have hg : db'.groupOf uid = db.groupOf uid := by
      rw [DB.groupOf, huser, hmove, Group.moveTo, if_pos (.inl hnone), DB.groupOf]
    rw [hg]
    refine hres fun hrun => ?_
    obtain ⟨s, hs, hrest⟩ := hrun
    refine hup ⟨s, ?_, hrest⟩
    rw [hsubs]
    exact mem_append_left _ hs

/-! ### Cancellations and deletions -/

/-- A downgrade, with no statement failing: it gives up, or writes the group of the subscription's
user. -/
theorem downgrade_cases (sub : UserSubscription) (now : ℤ) (db : DB) :
    (∃ e, downgradeUserGroupForSubscription .none sub now db = .error e) ∨
      ∃ t target, downgradeUserGroupForSubscription .none sub now db =
        .ok (t, moveTo db sub.userId target) := by
  have stay : (.ok ("", db) : Except Err (String × DB)) = .ok ("", moveTo db sub.userId "") := by
    rw [moveTo, if_pos (.inl rfl)]
  unfold downgradeUserGroupForSubscription
  by_cases h0 : trimSpace sub.downgradeGroup = "" ∧ trimSpace sub.upgradeGroup = ""
  · exact .inr ⟨"", "", by simp only [h0, and_self, ↓reduceIte]; exact stay⟩
  simp only [h0, ↓reduceIte]
  cases hg : getUserGroupById .none db sub.userId with
  | error e => exact .inl ⟨e, rfl⟩
  | ok group =>
    have hcur : group = db.groupOf sub.userId := by
      unfold getUserGroupById at hg
      split_ifs at hg
      exact (Except.ok.inj hg).symm
    subst hcur
    right
    simp only
    split_ifs
    · exact ⟨_, _, stay⟩
    · obtain ⟨t, ht⟩ := changeGroup_none db sub.userId (trimSpace sub.downgradeGroup)
      exact ⟨t, _, ht⟩
    · exact ⟨_, _, stay⟩
    · obtain ⟨t, ht⟩ := changeGroup_none db sub.userId (trimSpace sub.prevUserGroup)
      exact ⟨t, _, ht⟩

/-- Where a downgrade takes a user of the group, `""` for nowhere. -/
def downgradeTarget (running : Bool) (group : String) (sub : UserSubscription) : String :=
  if running = true ∨ sub.upgradeGroup = "" then ""
  else if TakesBack group sub then trimSpace sub.prevUserGroup else ""

theorem downgrade_plain (hs : sub.userId = uid) (hpos : 0 < uid)
    (hd : sub.downgradeGroup = "") (ht : trimSpace sub.upgradeGroup = sub.upgradeGroup)
    (now : ℤ) (db : DB) :
    ∃ t, downgradeUserGroupForSubscription .none sub now db = .ok (t, moveTo db uid
      (downgradeTarget (db.runningUpgrade uid now (some sub.id)) (db.groupOf uid) sub)) := by
  subst hs
  have hd' : trimSpace sub.downgradeGroup = "" := by rw [hd]; decide
  have hg : getUserGroupById .none db sub.userId = .ok (db.groupOf sub.userId) := by
    rw [getUserGroupById, if_neg (not_le.2 hpos)]; rfl
  have stay : ∀ g, g = "" → (.ok ("", db) : Except Err (String × DB)) =
      .ok ("", moveTo db sub.userId g) := fun g hg => by
    rw [moveTo, if_pos (.inl hg)]
  unfold downgradeUserGroupForSubscription downgradeTarget
  by_cases hup : sub.upgradeGroup = ""
  · have hup' : trimSpace sub.upgradeGroup = "" := ht.trans hup
    exact ⟨"", (if_pos ⟨hd', hup'⟩).trans (stay _ (if_pos (.inr hup)))⟩
  · simp only [hd', ht, hup, and_false, hg, ↓reduceIte, or_false]
    cases hr : db.runningUpgrade sub.userId now (some sub.id) with
    | true => exact ⟨"", by simpa [Faults.none] using stay _ rfl⟩
    | false =>
      by_cases hcur : db.groupOf sub.userId = sub.upgradeGroup
      · by_cases hprev : trimSpace sub.prevUserGroup = ""
        · refine ⟨"", ?_⟩
          simp [Faults.none, hcur, changeGroup, hprev, moveTo, TakesBack]
        · obtain ⟨t, hc⟩ := changeGroup_none db sub.userId (trimSpace sub.prevUserGroup)
          refine ⟨t, ?_⟩
          have hback : TakesBack sub.upgradeGroup sub := ⟨ht.symm, hprev⟩
          simpa [Faults.none, hcur, hback] using hc
      · have hback : ¬ TakesBack (db.groupOf sub.userId) sub := fun hb => hcur (by rw [hb.1, ht])
        exact ⟨"", by simpa [Faults.none, hcur, hback] using stay _ rfl⟩

theorem ne_id_of_user_ne {r : UserSubscription} (h : Inv uid db)
    (hsub : db.subscription id = some sub) (hs : sub.userId ≠ uid) (hr : r ∈ db.subscriptions)
    (hru : r.userId = uid) : r.id ≠ id := by
  intro hid
  have hrow := DB.subscription_of_mem h.unique hr
  rw [hid, hsub, Option.some.injEq] at hrow
  rw [hrow] at hs
  exact hs hru

theorem rowsOf_cancel_ne (h : Inv uid db)
    (hsub : db.subscription id = some sub) (hs : sub.userId ≠ uid) :
    rowsOf uid (db.cancelSubscription id now) = rowsOf uid db := by
  simp only [rowsOf, DB.cancelSubscription, Table.modify, filter_map]
  have hf : ((fun r : UserSubscription => decide (r.userId = uid)) ∘ fun r =>
      if r.id = id then { r with status := .cancelled, endTime := now } else r) =
        fun r => decide (r.userId = uid) := by
    funext r
    by_cases hr : r.id = id <;> simp [hr]
  rw [hf]
  refine (map_congr_left fun r hr => ?_).trans (map_id _)
  obtain ⟨hm, hu⟩ := mem_filter.1 hr
  rw [if_neg (ne_id_of_user_ne h hsub hs hm (by simpa using hu))]
  rfl

theorem rowsOf_delete_ne (h : Inv uid db)
    (hsub : db.subscription id = some sub) (hs : sub.userId ≠ uid) :
    rowsOf uid (db.deleteSubscription id) = rowsOf uid db := by
  simp only [rowsOf, DB.deleteSubscription, filter_filter]
  refine filter_congr fun r hr => ?_
  by_cases hu : r.userId = uid
  · simp [hu, ne_id_of_user_ne h hsub hs hr hu]
  · simp [hu]

theorem runningUpgrade_cancel (db : DB) (id now : ℤ) :
    (db.cancelSubscription id now).runningUpgrade uid now (some id) =
      (db.cancelSubscription id now).runningUpgrade uid now none := by
  simp only [DB.runningUpgrade, DB.cancelSubscription, Table.modify, any_map]
  congr 1
  funext r
  by_cases hr : r.id = id
  · simp [hr]
  · simp [hr, Ne.symm hr]

theorem runningUpgrade_delete (db : DB) (id now : ℤ) :
    (db.deleteSubscription id).runningUpgrade uid now none =
      db.runningUpgrade uid now (some id) := by
  simp only [DB.runningUpgrade, DB.deleteSubscription, any_filter]
  congr 1
  funext r
  by_cases hr : r.id = id
  · simp [hr]
  · simp [hr, Ne.symm hr]

theorem closes_moveTo (db₁ : DB) (sub : UserSubscription) {u : User} {running : Bool}
    (hu : db.user uid = some u) (hu₁ : db₁.user uid = db.user uid)
    (hrun : running = closed.runningUpgrade uid now none)
    (hrows : rowsOf uid db' = rowsOf uid closed)
    (hg : db'.user uid =
      (moveTo db₁ uid (downgradeTarget running (db₁.groupOf uid) sub)).user uid) :
    Closes uid now db db' closed (if sub.upgradeGroup = "" then none else some sub) := by
  have hgroup : db₁.groupOf uid = db.groupOf uid := by rw [DB.groupOf, DB.groupOf, hu₁]
  refine ⟨hrows, ?_⟩
  rw [DB.groupOf, hg, ← DB.groupOf, hrun, ← hgroup, downgradeTarget]
  by_cases hr : closed.runningUpgrade uid now none = true
  · rw [if_pos hr, if_pos (.inl hr), moveTo, if_pos (.inl rfl)]
  · rw [if_neg hr]
    by_cases hup : sub.upgradeGroup = ""
    · rw [if_pos (.inr hup), if_pos hup, moveTo, if_pos (.inl rfl), revert]
    · rw [if_neg (not_or.2 ⟨hr, hup⟩), if_neg hup]
      exact moveTo_revert (hu₁.trans hu)

/-- What a closing event can do: leave the user's part alone, with nothing to decide, or close
subscriptions of the user. -/
def ClosesOr (uid : ℤ) (db db' : DB) (now : ℤ) (C : String → Prop) : Prop :=
  Inv uid db' ∧ (Same uid db db' ∧ (∀ g₀, C g₀) ∨
    ∃ closed d, Closes uid now db db' closed d ∧
      ∀ g₀, C g₀ ↔ Decides uid g₀ (db.groupOf uid) closed d)

/-- The common form of a cancellation and a deletion: the downgrade runs on the table `db₁`, and
`post` is done to the table afterwards. -/
theorem closesOr_of_downgrade (id : ℤ) (db₁ : DB) (post : DB → DB) (h : Inv uid db)
    (hu₁ : db₁.user uid = db.user uid) (hpost : ∀ db₂, (post db₂).user uid = db₂.user uid)
    (hrows : ∀ v t, rowsOf uid (post (moveTo db₁ v t)) = rowsOf uid (post db₁))
    (hinv : ∀ v t, Inv uid (post (moveTo db₁ v t)))
    (hrun : db₁.runningUpgrade uid now (some id) = (post db₁).runningUpgrade uid now none)
    (hother : ∀ sub, db.subscription id = some sub → sub.userId ≠ uid →
      rowsOf uid (post db₁) = rowsOf uid db)
    (hneg : id ≤ 0 → db' = db) (hnone : ¬id ≤ 0 → db.subscription id = none → db' = db)
    (heq : ∀ sub, ¬id ≤ 0 → db.subscription id = some sub →
      db' = match downgradeUserGroupForSubscription .none sub now db₁ with
        | .error _ => db
        | .ok (_, db₂) => post db₂) :
    ClosesOr uid db db' now fun g₀ =>
      ∀ sub, 0 < id → db.subscription id = some sub → sub.userId = uid →
        Decides uid g₀ (db.groupOf uid) (post db₁)
          (if sub.upgradeGroup = "" then none else some sub) := by
  by_cases hid : id ≤ 0
  · rw [hneg hid]
    exact ⟨h, .inl ⟨⟨rfl, rfl⟩, fun g₀ sub hpos => absurd hpos (by omega)⟩⟩
  cases hsub : db.subscription id with
  | none =>
    rw [hnone hid hsub]
    exact ⟨h, .inl ⟨⟨rfl, rfl⟩, fun g₀ sub _ hsub' => by cases hsub'⟩⟩
  | some sub =>
    replace heq := heq sub hid hsub
    rw [← DB.subscription_id hsub] at hrun
    by_cases hs : sub.userId = uid
    · obtain ⟨hdown, htrim⟩ := h.plain sub (get_mem hsub) hs
      obtain ⟨t, ht⟩ := downgrade_plain hs h.user_pos hdown htrim now db₁
      rw [ht, hrun] at heq
      simp only at heq
      subst heq
      refine ⟨hinv _ _, .inr ⟨post db₁, _, closes_moveTo db₁ sub h.user.choose_spec hu₁ rfl
        (hrows _ _) (hpost _), fun g₀ => ⟨fun hc => hc sub (not_le.1 hid) rfl hs, ?_⟩⟩⟩
      intro hc sub' _ hsub' _
      rwa [← Option.some.inj hsub']
    · have hC : ∀ g₀ sub', 0 < id → some sub = some sub' → sub'.userId = uid →
          Decides uid g₀ (db.groupOf uid) (post db₁)
            (if sub'.upgradeGroup = "" then none else some sub') :=
        fun g₀ sub' _ hsub' hs' => absurd (Option.some.inj hsub' ▸ hs') hs
      obtain ⟨e, he⟩ | ⟨t, target, ht⟩ := downgrade_cases sub now db₁
      · rw [he] at heq
        simp only at heq
        subst heq
        exact ⟨h, .inl ⟨⟨rfl, rfl⟩, hC⟩⟩
      · rw [ht] at heq
        simp only at heq
        subst heq
        refine ⟨hinv _ _, .inl ⟨⟨?_, (hrows _ _).trans (hother sub hsub hs)⟩, hC⟩⟩
        rw [hpost, moveTo_user_ne (Ne.symm hs), hu₁]

theorem cancel_closes (loc : Location) (h : Inv uid db) (id now : ℤ) :
    ClosesOr uid db (step loc uid db (.cancel id now)) now
      fun g₀ => RestoresAtClose uid g₀ db (.cancel id now) := by
  refine closesOr_of_downgrade id (db.cancelSubscription id now) (fun d => d) h rfl
    (fun _ => rfl) ?_ (fun _ _ => h.cancel.moveTo) (runningUpgrade_cancel db id now)
    (fun _ => rowsOf_cancel_ne h) ?_ ?_ ?_
  · intro v t
    rw [rowsOf, moveTo_subscriptions, rowsOf]
  · intro hid
    rw [step, adminInvalidateUserSubscription, if_pos hid]
  · intro hid hsub
    simp [step, adminInvalidateUserSubscription, hid, Faults.none, Body.atomically, hsub]
  · intro sub hid hsub
    simp only [step, adminInvalidateUserSubscription, if_neg hid, Faults.none, Body.atomically,
      hsub, Bool.false_eq_true, ↓reduceIte, commitErr]
    split <;> rename_i hd <;> split at hd <;> simp_all

theorem delete_closes (loc : Location) (h : Inv uid db) (id now : ℤ) :
    ClosesOr uid db (step loc uid db (.delete id now)) now
      fun g₀ => RestoresAtClose uid g₀ db (.delete id now) := by
  refine closesOr_of_downgrade id db (fun d => d.deleteSubscription id) h rfl (fun _ => rfl) ?_
    (fun _ _ => h.moveTo.delete) (runningUpgrade_delete ..).symm (fun _ => rowsOf_delete_ne h)
    ?_ ?_ ?_
  · intro v t
    rw [rowsOf, DB.deleteSubscription, moveTo_subscriptions]
    rfl
  · intro hid
    rw [step, adminDeleteUserSubscription, if_pos hid]
  · intro hid hsub
    simp [step, adminDeleteUserSubscription, hid, Faults.none, Body.atomically, hsub]
  · intro sub hid hsub
    simp only [step, adminDeleteUserSubscription, if_neg hid, Faults.none, Body.atomically,
      hsub, Bool.false_eq_true, ↓reduceIte, commitErr]
    split <;> rename_i hd <;> split at hd <;> simp_all

/-! ### Expiries -/

/-- The user's row, marked if it is over. -/
def expireRow (now : ℤ) (sub : UserSubscription) : UserSubscription :=
  if sub.expiryDue now = true then { sub with status := .expired } else sub

theorem rowsOf_markExpired (db : DB) (uid now : ℤ) :
    rowsOf uid (db.markExpired uid now) = (rowsOf uid db).map (expireRow now) := by
  simp only [rowsOf, DB.markExpired, filter_map]
  have hf : ((fun r : UserSubscription => decide (r.userId = uid)) ∘ fun r =>
      if r.userId = uid ∧ r.expiryDue now = true then { r with status := .expired } else r) =
        fun r => decide (r.userId = uid) := by
    funext r
    simp only [Function.comp_apply]
    split_ifs <;> rfl
  rw [hf]
  refine map_congr_left fun r hr => ?_
  have hu : r.userId = uid := by simpa using (mem_filter.1 hr).2
  simp only [hu, true_and, expireRow]

theorem rowsOf_markExpired_ne (hv : uid ≠ v) :
    rowsOf uid (db.markExpired v now) = rowsOf uid db := by
  simp only [rowsOf, DB.markExpired, filter_map]
  have hf : ((fun r : UserSubscription => decide (r.userId = uid)) ∘ fun r =>
      if r.userId = v ∧ r.expiryDue now = true then { r with status := .expired } else r) =
        fun r => decide (r.userId = uid) := by
    funext r
    simp only [Function.comp_apply]
    split_ifs <;> rfl
  rw [hf]
  refine (map_congr_left fun r hr => ?_).trans (map_id _)
  have hu : r.userId = uid := by simpa using (mem_filter.1 hr).2
  rw [if_neg fun hc => hv (hu.symm.trans hc.1)]
  rfl

/-- Where the expiry of the rows found takes a user of the group, `""` for nowhere. -/
def expiryTarget (group : String) (d : UserSubscription) : String :=
  if trimSpace d.downgradeGroup ≠ "" then trimSpace d.downgradeGroup
  else if trimSpace d.upgradeGroup = "" ∨ trimSpace d.prevUserGroup = "" ∨
    group ≠ trimSpace d.upgradeGroup then ""
  else trimSpace d.prevUserGroup

/-- The transaction for one user, with no statement failing. -/
theorem expireUser_none (hv : 0 < v) (now : ℤ) (db : DB) :
    ∃ r, expireUser .none now v db = .ok (r, moveTo (db.markExpired v now) v
      (if (db.markExpired v now).runningUpgrade v now none then ""
        else ((db.markExpired v now).lastExpired v).elim ""
          (expiryTarget ((db.markExpired v now).groupOf v)))) := by
  have hg : getUserGroupById .none (db.markExpired v now) v =
      .ok ((db.markExpired v now).groupOf v) := by
    rw [getUserGroupById, if_neg (not_le.2 hv)]; rfl
  have stay : moveTo (db.markExpired v now) v "" = db.markExpired v now := by
    rw [moveTo, if_pos (.inl rfl)]
  unfold expireUser
  simp only [Faults.none, Bool.false_eq_true, ↓reduceIte, Bool.not_false, Bool.true_and]
  split_ifs with hr
  · exact ⟨_, by rw [stay]⟩
  · cases hd : (db.markExpired v now).lastExpired v with
    | none => exact ⟨_, by rw [Option.elim_none, stay]⟩
    | some d =>
      obtain ⟨t, ht⟩ := changeGroup_none (db.markExpired v now) v
        (expiryTarget ((db.markExpired v now).groupOf v) d)
      simp only [expiryTarget] at ht
      simp only [hg, ht, expiryTarget, Option.elim_some]
      exact ⟨_, rfl⟩

theorem expireUser_closes (h : Inv uid db) (now : ℤ) :
    ∃ r db', expireUser .none now uid db = .ok (r, db') ∧ Inv uid db' ∧
      Closes uid now db db' (db.markExpired uid now)
        ((db.markExpired uid now).lastExpired uid) := by
  obtain ⟨u, hu⟩ := h.user
  obtain ⟨r, hr⟩ := expireUser_none h.user_pos now db
  refine ⟨r, _, hr, h.markExpired.moveTo, by rw [rowsOf, moveTo_subscriptions, rowsOf], ?_⟩
  have hu' : (db.markExpired uid now).user uid = some u := hu
  have hgroup : (db.markExpired uid now).groupOf uid = db.groupOf uid := rfl
  rw [moveTo_groupOf hu', hgroup]
  by_cases hrun : (db.markExpired uid now).runningUpgrade uid now none = true
  · rw [if_pos hrun, if_pos hrun, if_pos rfl]
  · rw [if_neg hrun, if_neg hrun]
    cases hd : (db.markExpired uid now).lastExpired uid with
    | none => rw [Option.elim_none, if_pos rfl, revert]
    | some d =>
      -- the row found is the user's own, with an upgrade group
      have hmem := mem_select.1 (mem_of_mem_head? hd)
      simp only [decide_eq_true_eq] at hmem
      obtain ⟨hm, hdu, -, hdg⟩ := hmem
      obtain ⟨hdown, htrim⟩ := h.markExpired.plain d hm hdu
      have hup : trimSpace d.upgradeGroup ≠ "" := by
        rw [htrim]
        exact hdg.resolve_left fun hne => hne hdown
      have hdown' : ¬ trimSpace d.downgradeGroup ≠ "" := by rw [hdown]; decide
      rw [Option.elim_some, expiryTarget, if_neg hdown', revert]
      by_cases ht : TakesBack (db.groupOf uid) d
      · have hn : ¬ (trimSpace d.upgradeGroup = "" ∨ trimSpace d.prevUserGroup = "" ∨
            db.groupOf uid ≠ trimSpace d.upgradeGroup) := by
          rintro (h1 | h1 | h1)
          · exact hup h1
          · exact ht.2 h1
          · exact h1 ht.1
        rw [if_neg hn, if_neg ht.2, if_pos ht]
      · have hp : trimSpace d.upgradeGroup = "" ∨ trimSpace d.prevUserGroup = "" ∨
            db.groupOf uid ≠ trimSpace d.upgradeGroup := by
          by_contra hc
          push Not at hc
          exact ht ⟨hc.2.2, hc.2.1⟩
        rw [if_pos hp, if_pos rfl, if_neg ht]

theorem Same.trans {db₁ db₂ : DB} (h : Same uid db db₁) (h' : Same uid db₁ db₂) : Same uid db db₂ :=
  ⟨h'.1.trans h.1, h'.2.trans h.2⟩

/-- What another user's transaction leaves alone. -/
theorem expireUser_same (h : Inv uid db) (hv : 0 < v) (hne : uid ≠ v) (now : ℤ) :
    ∃ r db', expireUser .none now v db = .ok (r, db') ∧ Inv uid db' ∧ Same uid db db' := by
  obtain ⟨r, hr⟩ := expireUser_none hv now db
  refine ⟨r, _, hr, h.markExpired.moveTo, moveTo_user_ne hne, ?_⟩
  rw [rowsOf, moveTo_subscriptions]
  exact rowsOf_markExpired_ne hne

/-- The other users' transactions before and after the user's own do not matter. -/
theorem Closes.of_same {db₁ db₂ : DB} (hs : Same uid db db₁)
    (hc : Closes uid now db₁ db₂ (db₁.markExpired uid now)
      ((db₁.markExpired uid now).lastExpired uid))
    (hs' : Same uid db₂ db') :
    Closes uid now db db' (db.markExpired uid now) ((db.markExpired uid now).lastExpired uid) := by
  have hrows : rowsOf uid (db₁.markExpired uid now) = rowsOf uid (db.markExpired uid now) := by
    rw [rowsOf_markExpired, rowsOf_markExpired, hs.2]
  refine ⟨hs'.2.trans (hc.rows.trans hrows), ?_⟩
  rw [hs'.groupOf, hc.group, runningUpgrade_eq, hrows, ← runningUpgrade_eq, hs.groupOf,
    lastExpired_congr hrows]

theorem expireUsers_cons {rest : List ℤ} {n : ℕ} {r : ℕ × String} {db₁ : DB}
    (h : expireUser .none now v db = .ok (r, db₁)) :
    (expireUsers (fun _ => .none) now (v :: rest) n db).2 =
      (expireUsers (fun _ => .none) now rest (n + r.1) db₁).2 := by
  simp only [expireUsers, Body.atomically, h, commitErr_none]

theorem expireUsers_same {users : List ℤ} (h : Inv uid db) (hpos : ∀ v ∈ users, 0 < v)
    (hne : uid ∉ users) (n : ℕ) :
    Inv uid (expireUsers (fun _ => .none) now users n db).2 ∧
      Same uid db (expireUsers (fun _ => .none) now users n db).2 := by
  induction users generalizing db n with
  | nil => exact ⟨h, rfl, rfl⟩
  | cons v rest ih =>
    rw [mem_cons, not_or] at hne
    obtain ⟨r, db₁, hr, hinv, hsame⟩ := expireUser_same h (hpos v mem_cons_self) hne.1 now
    rw [expireUsers_cons hr]
    obtain ⟨hinv', hsame'⟩ :=
      ih hinv (fun w hw => hpos w (mem_cons_of_mem _ hw)) hne.2 (n + r.1)
    exact ⟨hinv', hsame.trans hsame'⟩

/-- The loop over the users of a batch closes what is over of the user's, once. -/
theorem expireUsers_closes {users : List ℤ} (h : Inv uid db) (hpos : ∀ v ∈ users, 0 < v)
    (hnd : users.Nodup) (hm : uid ∈ users) (n : ℕ) :
    Inv uid (expireUsers (fun _ => .none) now users n db).2 ∧
      Closes uid now db (expireUsers (fun _ => .none) now users n db).2 (db.markExpired uid now)
        ((db.markExpired uid now).lastExpired uid) := by
  induction users generalizing db n with
  | nil => cases hm
  | cons v rest ih =>
    obtain ⟨hv, hrest⟩ := nodup_cons.1 hnd
    have hpos' : ∀ w ∈ rest, 0 < w := fun w hw => hpos w (mem_cons_of_mem _ hw)
    by_cases hne : uid = v
    · subst hne
      obtain ⟨r, db₁, hr, hinv, hc⟩ := expireUser_closes h now
      rw [expireUsers_cons hr]
      obtain ⟨hinv', hsame⟩ := expireUsers_same hinv hpos' hv (n + r.1)
      exact ⟨hinv', Closes.of_same ⟨rfl, rfl⟩ hc hsame⟩
    · obtain ⟨r, db₁, hr, hinv, hsame⟩ := expireUser_same h (hpos v mem_cons_self) hne now
      rw [expireUsers_cons hr]
      obtain ⟨hinv', hc⟩ := ih hinv hpos' hrest ((mem_cons.1 hm).resolve_left hne) (n + r.1)
      exact ⟨hinv', Closes.of_same hsame hc ⟨rfl, rfl⟩⟩

theorem expire_closes (loc : Location) (h : Inv uid db) (limit : ℕ) (now : ℤ) :
    ClosesOr uid db (step loc uid db (.expire limit now)) now
      fun g₀ => RestoresAtClose uid g₀ db (.expire limit now) := by
  have hpos : ∀ v ∈ usersDue limit now db, 0 < v := fun v hv => by
    simpa using (mem_filter.1 hv).2
  have hnd : (usersDue limit now db).Nodup := (nodup_dedup _).filter _
  have heq : step loc uid db (.expire limit now) =
      (expireUsers (fun _ => .none) now (usersDue limit now db) 0 db).2 := rfl
  rw [heq]
  by_cases hm : uid ∈ usersDue limit now db
  · obtain ⟨hinv, hc⟩ := expireUsers_closes h hpos hnd hm 0
    exact ⟨hinv, .inr ⟨_, _, hc, fun g₀ => ⟨fun hd => hd hm, fun hd _ => hd⟩⟩⟩
  · obtain ⟨hinv, hs⟩ := expireUsers_same h hpos hm 0
    exact ⟨hinv, .inl ⟨hs, fun g₀ hm' => absurd hm' hm⟩⟩

/-! ### Runs -/

/-- A closing event keeps the invariant, restores the group iff its condition holds, and leaves the
group alone while an upgrade runs. -/
theorem ClosesOr.spec {C : String → Prop} (hc : ClosesOr uid db db' now C) :
    Inv uid db' ∧ (∀ g₀, Restored uid g₀ db → (Restored uid g₀ db' ↔ C g₀)) ∧
      ∀ t, some now = some t → Running uid t db' → db'.groupOf uid = db.groupOf uid := by
  obtain ⟨hinv, ⟨hsame, hC⟩ | ⟨closed, d, hcl, hC⟩⟩ := hc
  · refine ⟨hinv, fun g₀ hres => ⟨fun _ => hC g₀, fun _ hup => ?_⟩, fun _ _ _ => hsame.groupOf⟩
    rw [hsame.groupOf]
    exact hres fun hu => hup ((upgraded_congr hsame.2).2 hu)
  · refine ⟨hinv, fun g₀ _ => hcl.restored_iff.trans (hC g₀).symm, fun t ht hr => ?_⟩
    cases ht
    exact hcl.keeps hr

/-- One event: the invariant, the condition, and the group under a running upgrade. -/
theorem step_spec (loc : Location) (h : Inv uid db) (e : Event) :
    Inv uid (step loc uid db e) ∧
      (∀ g₀, Restored uid g₀ db →
        (Restored uid g₀ (step loc uid db e) ↔ RestoresAtClose uid g₀ db e)) ∧
      KeepsGroup loc uid db e := by
  cases e with
  | purchase plan source now newId =>
    obtain ⟨e, he⟩ | ⟨sub, db', -, hb, he⟩ := Body.atomically_cases none
      (createUserSubscriptionFromPlan .none loc ⟨uid, plan.1, source, now, newId⟩) db
    · have heq : step loc uid db (.purchase plan source now newId) = db := by simp only [step, he]
      rw [heq]
      exact ⟨h, fun g₀ hres => ⟨fun _ => trivial, fun _ => hres⟩, fun t ht => nomatch ht⟩
    · have heq : step loc uid db (.purchase plan source now newId) = db' := by simp only [step, he]
      rw [heq]
      obtain ⟨hinv, hres⟩ := purchase_spec (p := ⟨uid, plan.1, source, now, newId⟩) h rfl plan.2
        (create_ok hb)
      exact ⟨hinv, fun g₀ hr => ⟨fun _ => trivial, fun _ => hres g₀ hr⟩, fun t ht => nomatch ht⟩
  | expire limit now => exact (expire_closes loc h limit now).spec
  | cancel id now => exact (cancel_closes loc h id now).spec
  | delete id now => exact (delete_closes loc h id now).spec

/-- **The group over whole histories.**  From the first purchase on: the user is back in the group
held at the start whenever no upgrade is active, in exactly the runs whose closing operations decide
from a subscription that restores this group; and in every run, a closing operation that leaves a
running upgrade leaves the group alone. -/
theorem group_runs_iff (loc : Location) (uid : ℤ) (g₀ : String) (db : DB) (h : Start uid g₀ db)
    (es : List Event) :
    (Always (step loc uid) (Restored uid g₀) db es ↔
        Meets (step loc uid) (RestoresAtClose uid g₀) db es) ∧
      Meets (step loc uid) (KeepsGroup loc uid) db es := by
  obtain ⟨u, hu, hg⟩ := h.user
  have hinv : Inv uid db :=
    ⟨h.user_pos, ⟨u, hu⟩, h.unique, fun sub hs hid => absurd hid (h.none sub hs)⟩
  have hres : Restored uid g₀ db := fun _ => by rw [DB.groupOf, hu]; exact hg
  refine ⟨?_, ?_⟩
  · refine always_iff_meets (J := fun db => Inv uid db ∧ Restored uid g₀ db) (fun _ h => h.2) ?_ ?_
      ⟨hinv, hres⟩
    · rintro db e ⟨hi, hr⟩ hc
      obtain ⟨hi', hiff, -⟩ := step_spec loc hi e
      exact ⟨hi', (hiff g₀ hr).2 hc⟩
    · rintro db e ⟨hi, hr⟩ hr'
      exact ((step_spec loc hi e).2.1 g₀ hr).1 hr'
  · clear h hu hg hres
    induction es generalizing db with
    | nil => trivial
    | cons e es ih =>
      obtain ⟨hi', -, hk⟩ := step_spec loc hinv e
      exact ⟨hk, ih _ hi'⟩

/-! ### A renewal -/

/-- A plan of one hour that moves its buyer into `vip`. -/
def vipPlan : PlainPlan :=
  ⟨{ id := 1
     title := "vip"
     priceAmount := .ofInt 10
     durationUnit := .hour
     durationValue := 1
     customSeconds := 0
     enabled := true
     allowBalancePay := none
     allowWalletOverflow := none
     maxPurchasePerUser := 0
     upgradeGroup := "vip"
     downgradeGroup := ""
     totalAmount := 0
     quotaResetPeriod := "never"
     quotaResetCustomSeconds := 0 }, by decide⟩

/-- A user who has bought nothing yet. -/
def startDB : DB :=
  { DB.empty with users := [⟨7, 0, 0, 0, "default", "", ""⟩] }

instance (uid : ℤ) (db : DB) : Decidable (Upgraded uid db) :=
  inferInstanceAs (Decidable (∃ sub ∈ db.subscriptions, sub.userId = uid ∧ sub.status = .active ∧
    sub.upgradeGroup ≠ ""))

instance (uid : ℤ) (g₀ : String) (db : DB) : Decidable (Restored uid g₀ db) :=
  inferInstanceAs (Decidable (¬ Upgraded uid db → db.groupOf uid = g₀))

theorem start_startDB : Start 7 "default" startDB :=
  ⟨by decide, ⟨⟨7, 0, 0, 0, "default", "", ""⟩, by decide, rfl⟩, by decide, by decide⟩

/-- One purchase that expires: the run is one of those the theorem is about. -/
theorem group_runs_iff_single : Start 7 "default" startDB ∧
    (Always (step .utc 7) (Restored 7 "default") startDB
        [.purchase vipPlan "order" 1000 1, .expire 200 6000] ↔
      Meets (step .utc 7) (RestoresAtClose 7 "default") startDB
        [.purchase vipPlan "order" 1000 1, .expire 200 6000]) :=
  ⟨start_startDB, (group_runs_iff .utc 7 "default" startDB start_startDB _).1⟩

/-- The plan is renewed before it expires.  The renewal keeps no snapshot, as the user is in `vip`
already; it ends last, so the expiry decides from it, and the user stays in `vip` for good. -/
theorem renewal_keeps_vip :
    ¬ Always (step .utc 7) (Restored 7 "default") startDB
        [.purchase vipPlan "order" 1000 1, .purchase vipPlan "order" 2000 2, .expire 200 6000] ∧
      (run (step .utc 7) startDB [.purchase vipPlan "order" 1000 1,
        .purchase vipPlan "order" 2000 2, .expire 200 6000]).groupOf 7 = "vip" := by
  refine ⟨fun h => absurd h.run ?_, ?_⟩ <;> decide

end Group

end NexusTok
