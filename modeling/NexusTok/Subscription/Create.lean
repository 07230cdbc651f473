import NexusTok.Subscription.Period

/-!
# Creating a subscription

`CreateUserSubscriptionFromPlanTx` is the one place where subscriptions come from: orders, balance
purchases and administrators all end here.  It checks the purchase limit of the plan, computes the
times, moves the user into the plan's upgrade group, and inserts the row, which keeps the group the
user was moved out of.

The id of the new row is the database's choice; it is a parameter here, and an insert under an id
that is taken fails.

* `Created` : everything a successful creation does.
-/

namespace NexusTok

namespace DB

/-- The id can be given to a new subscription. -/
def freeId (db : DB) (id : ℤ) : Bool :=
  decide (0 < id) && db.subscriptions.all fun sub => decide (sub.id ≠ id)

def addSubscription (db : DB) (sub : UserSubscription) : DB :=
  { db with subscriptions := db.subscriptions ++ [sub] }

/-- `UPDATE users SET group = ? WHERE id = ?`. -/
def setGroup (db : DB) (userId : ℤ) (group : String) : DB :=
  db.updateUser userId fun u => { u with group := group }

/-- The group of a user; the query scans nothing, and leaves `""`, for a user that is not there. -/
def groupOf (db : DB) (userId : ℤ) : String := (db.user userId).elim "" User.group

def countSubscriptions (db : DB) (userId planId : ℤ) : ℕ :=
  db.subscriptions.countP fun sub => decide (sub.userId = userId ∧ sub.planId = planId)

end DB

/-- `getUserGroupByIdTx`. -/
def getUserGroupById (f : Faults) (db : DB) (userId : ℤ) : Except Err String :=
  if userId ≤ 0 then .error (.text "invalid userId")
  else if f ⟨.find, .users, userId⟩ then .error (.db ⟨.find, .users, userId⟩)
  else .ok (db.groupOf userId)

/-- What a purchase is made of: the buyer, the plan, where it comes from, the time, and the id the
database gives the new row. -/
structure Purchase where
  userId : ℤ
  plan : SubscriptionPlan
  source : String
  now : ℤ
  newId : ℤ

/-- The row a purchase inserts. -/
def Purchase.row (loc : Location) (p : Purchase) (endUnix : ℤ) (prevGroup : String) :
    UserSubscription where
  id := p.newId
  userId := p.userId
  planId := p.plan.id
  amountTotal := p.plan.totalAmount
  amountUsed := 0
  startTime := p.now
  endTime := endUnix
  status := .active
  source := p.source
  lastResetTime := if 0 < calcNextResetTime loc p.now p.plan endUnix then p.now else 0
  nextResetTime := calcNextResetTime loc p.now p.plan endUnix
  upgradeGroup := trimSpace p.plan.upgradeGroup
  prevUserGroup := prevGroup
  downgradeGroup := trimSpace p.plan.downgradeGroup
  allowWalletOverflow := p.plan.allowWalletOverflow.getD true

/-- `INSERT INTO user_subscriptions`. -/
def insertSubscription (f : Faults) (sub : UserSubscription) : Body DB Err UserSubscription :=
  fun db =>
    if f ⟨.create, .subscriptions, 0⟩ || !db.freeId sub.id then
      .error (.db ⟨.create, .subscriptions, 0⟩)
    else .ok (sub, db.addSubscription sub)

/-- The part of the creation that moves the user into the upgrade group, and the insert. -/
def upgradeAndInsert (f : Faults) (loc : Location) (p : Purchase) (endUnix : ℤ) :
    Body DB Err UserSubscription := fun db =>
  let upgradeGroup := trimSpace p.plan.upgradeGroup
  if upgradeGroup = "" then insertSubscription f (p.row loc endUnix "") db
  else
    match getUserGroupById f db p.userId with
    | .error e => .error e
    | .ok currentGroup =>
      if currentGroup = upgradeGroup then insertSubscription f (p.row loc endUnix "") db
      else if f ⟨.update, .users, p.userId⟩ then .error (.db ⟨.update, .users, p.userId⟩)
      else
        insertSubscription f (p.row loc endUnix currentGroup) (db.setGroup p.userId upgradeGroup)

/-- `CreateUserSubscriptionFromPlanTx`. -/
def createUserSubscriptionFromPlan (f : Faults) (loc : Location) (p : Purchase) :
    Body DB Err UserSubscription := fun db =>
  if p.plan.id = 0 then .error (.text "invalid plan")
  else if p.userId ≤ 0 then .error (.text "invalid user id")
  else if 0 < p.plan.maxPurchasePerUser ∧ f ⟨.count, .subscriptions, 0⟩ = true then
    .error (.db ⟨.count, .subscriptions, 0⟩)
  else if 0 < p.plan.maxPurchasePerUser ∧
      p.plan.maxPurchasePerUser ≤ db.countSubscriptions p.userId p.plan.id then
    .error (.text "已达到该套餐购买上限")
  else
    match calcPlanEndTime loc p.now p.plan with
    | .error e => .error e
    | .ok endUnix => upgradeAndInsert f loc p endUnix db

/-! ### What a creation does -/

/-- The group snapshot of a new row: the group the user is moved out of, if any. -/
def Purchase.snapshot (p : Purchase) (db : DB) : String :=
  if trimSpace p.plan.upgradeGroup = "" ∨
    db.groupOf p.userId = trimSpace p.plan.upgradeGroup then ""
  else db.groupOf p.userId

/-- The users after a purchase. -/
def Purchase.moveUser (p : Purchase) (db : DB) : DB :=
  if trimSpace p.plan.upgradeGroup = "" ∨
    db.groupOf p.userId = trimSpace p.plan.upgradeGroup then db
  else db.setGroup p.userId (trimSpace p.plan.upgradeGroup)

/-- **A creation that succeeds**: the limit of the plan was not reached, the user is in the upgrade
group afterwards, and the row keeps the group the user was moved out of. -/
structure Created (loc : Location) (p : Purchase) (db : DB) (sub : UserSubscription) (db' : DB) :
    Prop where
  user_pos : 0 < p.userId
  limit : 0 < p.plan.maxPurchasePerUser →
    (db.countSubscriptions p.userId p.plan.id : ℤ) < p.plan.maxPurchasePerUser
  free : db.freeId p.newId = true
  row : ∃ endUnix, calcPlanEndTime loc p.now p.plan = .ok endUnix ∧
    sub = p.row loc endUnix (p.snapshot db)
  db_eq : db' = (p.moveUser db).addSubscription sub

theorem DB.user_addSubscription (db : DB) (sub : UserSubscription) (id : ℤ) :
    (db.addSubscription sub).user id = db.user id := rfl

variable {f : Faults} {loc : Location} {p : Purchase} {db db' : DB} {sub : UserSubscription}

theorem insertSubscription_ok {row : UserSubscription}
    (h : insertSubscription f row db = .ok (sub, db')) :
    sub = row ∧ db' = db.addSubscription row ∧ db.freeId row.id = true := by
  unfold insertSubscription at h
  split_ifs at h with hg
  rw [Except.ok.injEq, Prod.mk.injEq] at h
  simp only [Bool.or_eq_true, Bool.not_eq_true', not_or, Bool.not_eq_false] at hg
  exact ⟨h.1.symm, h.2.symm, hg.2⟩

theorem upgradeAndInsert_ok {endUnix : ℤ}
    (h : upgradeAndInsert f loc p endUnix db = .ok (sub, db')) :
    sub = p.row loc endUnix (p.snapshot db) ∧ db' = (p.moveUser db).addSubscription sub ∧
      db.freeId p.newId = true := by
  unfold upgradeAndInsert at h
  by_cases hu : trimSpace p.plan.upgradeGroup = ""
  · rw [if_pos hu] at h
    obtain ⟨rfl, rfl, hfree⟩ := insertSubscription_ok h
    exact ⟨by rw [Purchase.snapshot, if_pos (.inl hu)], by rw [Purchase.moveUser, if_pos (.inl hu)],
      hfree⟩
  · rw [if_neg hu] at h
    rcases hg : getUserGroupById f db p.userId with _ | currentGroup
    · rw [hg] at h; cases h
    have hcur : currentGroup = db.groupOf p.userId := by
      unfold getUserGroupById at hg
      split_ifs at hg
      exact (Except.ok.inj hg).symm
    subst hcur
    simp only [hg] at h
    split_ifs at h with heq
    · obtain ⟨rfl, rfl, hfree⟩ := insertSubscription_ok h
      exact ⟨by rw [Purchase.snapshot, if_pos (.inr heq)],
        by rw [Purchase.moveUser, if_pos (.inr heq)], hfree⟩
    · obtain ⟨rfl, rfl, hfree⟩ := insertSubscription_ok h
      have hn : ¬ (trimSpace p.plan.upgradeGroup = "" ∨
          db.groupOf p.userId = trimSpace p.plan.upgradeGroup) := not_or.2 ⟨hu, heq⟩
      exact ⟨by rw [Purchase.snapshot, if_neg hn], by rw [Purchase.moveUser, if_neg hn], hfree⟩

theorem create_ok (h : createUserSubscriptionFromPlan f loc p db = .ok (sub, db')) :
    Created loc p db sub db' := by
  unfold createUserSubscriptionFromPlan at h
  split_ifs at h with h₁ h₂ h₃ h₄
  rcases hend : calcPlanEndTime loc p.now p.plan with _ | endUnix
  · rw [hend] at h; cases h
  rw [hend] at h
  obtain ⟨hrow, hdb, hfree⟩ := upgradeAndInsert_ok h
  exact ⟨not_le.1 h₂, fun hmax => not_le.1 fun hle => h₄ ⟨hmax, hle⟩, hfree,
    ⟨endUnix, hend, hrow⟩, hdb⟩

theorem Created.subscriptions (h : Created loc p db sub db') :
    db'.subscriptions = db.subscriptions ++ [sub] := by
  rw [h.db_eq]
  unfold DB.addSubscription Purchase.moveUser
  split_ifs <;> rfl

theorem groupOf_setGroup {userId : ℤ} {u : User} {g : String} (h : db.user userId = some u) :
    (db.setGroup userId g).groupOf userId = g := by
  have hid : u.id = userId := Table.get_key h
  have hset : (db.setGroup userId g).user userId = some { u with group := g } :=
    Table.get_modify h hid
  simp [DB.groupOf, hset]

end NexusTok
