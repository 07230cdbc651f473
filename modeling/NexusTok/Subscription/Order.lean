import NexusTok.Machine.Run
import NexusTok.Subscription.Create
import NexusTok.Wallet.Quota

/-!
# Orders for subscriptions

A subscription is bought through an order that a payment callback completes
(`CompleteSubscriptionOrder`), from the wallet (`PurchaseSubscriptionWithBalance`), or given by an
administrator (`AdminBindSubscription`).  Each of them is one transaction that locks the rows it
decides on, so an interleaving of calls is a sequence of transactions.

The machine of this file is the database under any such sequence, with any pattern of failing
statements in each call.  Beside the database it keeps the trade numbers on whose account a
subscription was created.

* `complete_cases`, `expire_cases`, `bind_cases`, `buy_cases` : everything a call can do.
* `order_runs` : over every run, an order creates at most one subscription, at the moment it moves
  from pending to success; foreign callbacks change nothing; expired orders stay expired; the limit
  of a plan holds for every user; a purchase from the wallet is charged exactly, or not at all.
-/

namespace NexusTok

open Machine List Except Table

/-! ### Completing and expiring orders -/

def errSubscriptionOrderNotFound : Err := .text "subscription order not found"

def errSubscriptionOrderStatusInvalid : Err := .text "subscription order status invalid"

/-- The top-up row that is kept for a subscription order. -/
def SubscriptionOrder.newTopUp (o : SubscriptionOrder) (now : ℤ) : TopUp where
  userId := o.userId
  amount := 0
  money := o.money
  tradeNo := o.tradeNo
  paymentMethod := o.paymentMethod
  paymentProvider := .unset
  createTime := o.createTime
  completeTime := now
  status := .success

/-- `upsertSubscriptionTopUpTx`. -/
def upsertSubscriptionTopUp (f : Faults) (o : SubscriptionOrder) (now : ℤ) (db : DB) :
    Except Err DB :=
  if f ⟨.find, .topUps, 0⟩ then .error (.db ⟨.find, .topUps, 0⟩)
  else
    match db.topUp o.tradeNo with
    | none =>
      if f ⟨.create, .topUps, 0⟩ then .error (.db ⟨.create, .topUps, 0⟩)
      else .ok (db.addTopUp (o.newTopUp now))
    | some topup =>
      if topup.paymentMethod ≠ "" ∧ topup.paymentMethod ≠ o.paymentMethod then
        .error errPaymentMethodMismatch
      else if f ⟨.save, .topUps, 0⟩ then .error (.db ⟨.save, .topUps, 0⟩)
      else
        .ok (db.saveTopUp
          { topup with
            money := o.money
            paymentMethod := o.paymentMethod
            createTime := if topup.createTime = 0 then o.createTime else topup.createTime
            completeTime := now
            status := .success })

/-- A callback of a payment gateway. -/
structure Callback where
  tradeNo : String
  providerPayload : String
  expectedPaymentProvider : PaymentProvider
  actualPaymentMethod : String

/-- The order as a completion saves it. -/
def SubscriptionOrder.completed (o : SubscriptionOrder) (c : Callback) (now : ℤ) :
    SubscriptionOrder :=
  { o with
    status := .success
    completeTime := now
    providerPayload := if c.providerPayload = "" then o.providerPayload else c.providerPayload
    paymentMethod := if c.actualPaymentMethod = "" then o.paymentMethod else c.actualPaymentMethod }

/-- Lock the row of the user. -/
def lockUser (f : Faults) (db : DB) (userId : ℤ) : Except Err User :=
  if f ⟨.find, .users, 0⟩ then .error (.db ⟨.find, .users, 0⟩)
  else
    match db.user userId with
    | none => .error errRecordNotFound
    | some user => .ok user

/-- What the completion does to a pending order. -/
def completePending (f : Faults) (loc : Location) (c : Callback) (o : SubscriptionOrder)
    (now newId : ℤ) : Body DB Err Unit := fun db =>
  match getSubscriptionPlanById f db o.planId with
  | .error e => .error e
  | .ok plan =>
    match lockUser f db o.userId with
    | .error e => .error e
    | .ok _ =>
      match createUserSubscriptionFromPlan f loc ⟨o.userId, plan, "order", now, newId⟩ db with
      | .error e => .error e
      | .ok (_, db) =>
        match upsertSubscriptionTopUp f o now db with
        | .error e => .error e
        | .ok db =>
          if f ⟨.save, .orders, 0⟩ then .error (.db ⟨.save, .orders, 0⟩)
          else .ok ((), db.saveOrder (o.completed c now))

/-- The transaction of `CompleteSubscriptionOrder`. -/
def completeBody (f : Faults) (loc : Location) (c : Callback) (now newId : ℤ) : Body DB Err Unit :=
  fun db =>
    match (if f ⟨.find, .orders, 0⟩ then none else db.order c.tradeNo) with
    | none => .error errSubscriptionOrderNotFound
    | some o =>
      if providerMismatch c.expectedPaymentProvider o.paymentProvider then
        .error errPaymentMethodMismatch
      else if o.status = .success then .ok ((), db)
      else if o.status ≠ .pending then .error errSubscriptionOrderStatusInvalid
      else completePending f loc c o now newId db

def completeSubscriptionOrder (f : Faults) (loc : Location) (c : Callback) (now newId : ℤ)
    (db : DB) : Except Err Unit × DB :=
  if c.tradeNo = "" then (.error (.text "tradeNo is empty"), db)
  else (completeBody f loc c now newId).atomically (commitErr f .orders) db

/-- The transaction of `ExpireSubscriptionOrder`. -/
def expireOrderBody (f : Faults) (tradeNo : String) (expected : PaymentProvider) (now : ℤ) :
    Body DB Err Unit := fun db =>
  match (if f ⟨.find, .orders, 0⟩ then none else db.order tradeNo) with
  | none => .error errSubscriptionOrderNotFound
  | some o =>
    if providerMismatch expected o.paymentProvider then .error errPaymentMethodMismatch
    else if o.status ≠ .pending then .ok ((), db)
    else if f ⟨.save, .orders, 0⟩ then .error (.db ⟨.save, .orders, 0⟩)
    else .ok ((), db.saveOrder { o with status := .expired, completeTime := now })

def expireSubscriptionOrder (f : Faults) (tradeNo : String) (expected : PaymentProvider) (now : ℤ)
    (db : DB) : Except Err Unit × DB :=
  if tradeNo = "" then (.error (.text "tradeNo is empty"), db)
  else (expireOrderBody f tradeNo expected now).atomically (commitErr f .orders) db

/-! ### Binding and buying -/

/-- The transaction of `AdminBindSubscription`. -/
def bindBody (f : Faults) (loc : Location) (userId : ℤ) (plan : SubscriptionPlan)
    (now newId : ℤ) : Body DB Err String := fun db =>
  match lockUser f db userId with
  | .error e => .error e
  | .ok _ =>
    match createUserSubscriptionFromPlan f loc ⟨userId, plan, "admin", now, newId⟩ db with
    | .error e => .error e
    | .ok (sub, db) =>
      .ok (if sub.prevUserGroup = "" then "" else "用户分组将升级到 " ++ plan.upgradeGroup, db)

def adminBindSubscription (f : Faults) (loc : Location) (userId planId now newId : ℤ) (db : DB) :
    Except Err String × DB :=
  if userId ≤ 0 ∨ planId ≤ 0 then (.error (.text "invalid userId or planId"), db)
  else
    match getSubscriptionPlanById f db planId with
    | .error e => (.error e, db)
    | .ok plan => (bindBody f loc userId plan now newId).atomically (commitErr f .subscriptions) db

/-- The order a purchase from the wallet leaves. -/
def balanceOrder (userId : ℤ) (plan : SubscriptionPlan) (tradeNo : String) (now requiredQuota : ℤ) :
    SubscriptionOrder where
  userId := userId
  planId := plan.id
  money := plan.priceAmount
  tradeNo := tradeNo
  paymentMethod := "balance"
  paymentProvider := .balance
  status := .success
  createTime := now
  completeTime := now
  providerPayload := "charged_quota=" ++ toString requiredQuota

/-- `UPDATE users SET quota = quota - ?`. -/
def DB.deductQuota (db : DB) (userId amount : ℤ) : DB :=
  db.updateUser userId fun u => { u with quota := u.quota - amount }

/-- A purchase from the wallet, with what the call is given from outside: the time, the id of the
new subscription, and the trade number it makes up. -/
structure Buy where
  userId : ℤ
  planId : ℤ
  now : ℤ
  newId : ℤ
  tradeNo : String

/-- The end of the transaction: the charge, the subscription, and the order. -/
def chargeAndCreate (f : Faults) (loc : Location) (b : Buy) (plan : SubscriptionPlan)
    (requiredQuota : ℤ) : Body DB Err Unit := fun db =>
  match lockUser f db b.userId with
  | .error e => .error e
  | .ok user =>
    if 0 < requiredQuota ∧ user.quota < requiredQuota then .error (.text "余额不足")
    else if 0 < requiredQuota ∧ f ⟨.update, .users, 0⟩ = true then
      .error (.db ⟨.update, .users, 0⟩)
    else
      let db := if 0 < requiredQuota then db.deductQuota b.userId requiredQuota else db
      match createUserSubscriptionFromPlan f loc ⟨b.userId, plan, "balance", b.now, b.newId⟩ db with
      | .error e => .error e
      | .ok (_, db) =>
        if f ⟨.create, .orders, 0⟩ || (db.order b.tradeNo).isSome then
          .error (.db ⟨.create, .orders, 0⟩)
        else .ok ((), db.addOrder (balanceOrder b.userId plan b.tradeNo b.now requiredQuota))

/-- The transaction of `PurchaseSubscriptionWithBalance`. -/
def buyBody (f : Faults) (loc : Location) (quotaPerUnit : Decimal) (b : Buy) : Body DB Err Unit :=
  fun db =>
    match getSubscriptionPlanById f db b.planId with
    | .error e => .error e
    | .ok plan =>
      if !plan.enabled then .error (.text "套餐未启用")
      else if plan.priceAmount.coeff < 0 then .error (.text "套餐价格不能为负数")
      else if plan.allowBalancePay = some false then .error (.text "该套餐不允许使用余额兑换")
      else
        match calcSubscriptionBalanceQuota quotaPerUnit plan.priceAmount with
        | .error e => .error e
        | .ok requiredQuota => chargeAndCreate f loc b plan requiredQuota db

def purchaseSubscriptionWithBalance (f : Faults) (loc : Location) (quotaPerUnit : Decimal) (b : Buy)
    (db : DB) : Except Err Unit × DB :=
  if b.userId ≤ 0 ∨ b.planId ≤ 0 then (.error (.text "invalid userId or planId"), db)
  else (buyBody f loc quotaPerUnit b).atomically (commitErr f .subscriptions) db

/-! ### What the calls do -/

/-- A subscription of the user to the plan is added, the limit of the plan allowing it; the plans
stay. -/
structure Adds (db db' : DB) (userId planId : ℤ) : Prop where
  row : ∃ sub, db'.subscriptions = db.subscriptions ++ [sub] ∧ sub.userId = userId ∧
    sub.planId = planId
  limit : ∀ plan, db.plan planId = some plan → 0 < plan.maxPurchasePerUser →
    (db.countSubscriptions userId planId : ℤ) < plan.maxPurchasePerUser
  plans : db'.plans = db.plans

section Calls

variable {f : Faults} {loc : Location} {db db' : DB} {userId planId : ℤ}

theorem getSubscriptionPlanById_ok {plan : SubscriptionPlan}
    (h : getSubscriptionPlanById f db planId = .ok plan) :
    ∃ p, db.plan planId = some p ∧ plan = p.normalizeDefaults := by
  unfold getSubscriptionPlanById at h
  split_ifs at h
  rcases hp : db.plan planId with _ | p
  · rw [hp] at h; cases h
  rw [hp] at h
  exact ⟨p, rfl, (ok.inj h).symm⟩

theorem Created.adds {p : Purchase} {sub : UserSubscription} (h : Created loc p db sub db')
    (hplan : getSubscriptionPlanById f db planId = .ok p.plan) : Adds db db' p.userId planId := by
  have hid : p.plan.id = planId := getSubscriptionPlanById_id hplan
  obtain ⟨endUnix, -, hrow⟩ := h.row
  refine ⟨⟨sub, h.subscriptions, by rw [hrow]; rfl, by rw [hrow]; exact hid⟩, ?_, ?_⟩
  · intro plan hp hmax
    obtain ⟨p', hp', heq⟩ := getSubscriptionPlanById_ok hplan
    rw [hp, Option.some.injEq] at hp'
    subst hp'
    have hlim := h.limit
    rw [heq] at hlim hid
    have := hlim hmax
    rw [hid] at this
    exact this
  · rw [h.db_eq]
    unfold DB.addSubscription Purchase.moveUser
    split_ifs <;> rfl

theorem Created.orders {p : Purchase} {sub : UserSubscription} (h : Created loc p db sub db') :
    db'.orders = db.orders := by
  rw [h.db_eq]
  unfold DB.addSubscription Purchase.moveUser
  split_ifs <;> rfl

theorem upsertSubscriptionTopUp_ok {o : SubscriptionOrder} {now : ℤ}
    (h : upsertSubscriptionTopUp f o now db = .ok db') :
    db' = { db with topUps := db'.topUps } := by
  unfold upsertSubscriptionTopUp at h
  cases htop : db.topUp o.tradeNo with
  | none =>
    simp only [htop] at h
    split_ifs at h
    rw [← ok.inj h]
    rfl
  | some topup =>
    simp only [htop] at h
    split_ifs at h
    · rw [← ok.inj h]
      rfl
    · rw [← ok.inj h]
      rfl

/-- **Everything a completion can do**: leave the database alone, or add the subscription of a
pending order and save the order as successful. -/
theorem complete_cases (f : Faults) (loc : Location) (c : Callback) (now newId : ℤ) (db : DB) :
    (completeSubscriptionOrder f loc c now newId db).2 = db ∨
      ∃ o, db.order c.tradeNo = some o ∧ o.status = .pending ∧
        providerMismatch c.expectedPaymentProvider o.paymentProvider = false ∧
        Adds db (completeSubscriptionOrder f loc c now newId db).2 o.userId o.planId ∧
        (completeSubscriptionOrder f loc c now newId db).2.orders =
          Table.put SubscriptionOrder.tradeNo (o.completed c now) db.orders := by
  by_cases ht : c.tradeNo = ""
  · exact .inl (by rw [completeSubscriptionOrder, if_pos ht])
  have heq : completeSubscriptionOrder f loc c now newId db =
      (completeBody f loc c now newId).atomically (commitErr f .orders) db := by
    rw [completeSubscriptionOrder, if_neg ht]
  rw [heq]
  obtain ⟨e, he⟩ | ⟨_, db', -, hb, he⟩ :=
    Body.atomically_cases (commitErr f .orders) (completeBody f loc c now newId) db
  · exact .inl (by rw [he])
  · rw [he]
    unfold completeBody at hb
    rcases ho : (if f ⟨.find, .orders, 0⟩ then none else db.order c.tradeNo) with _ | o
    · rw [ho] at hb; cases hb
    have ho' : db.order c.tradeNo = some o := by
      split_ifs at ho
      exact ho
    rw [ho] at hb
    simp only at hb
    split_ifs at hb with hmis hsucc hpend
    · rw [Except.ok.injEq, Prod.mk.injEq] at hb
      exact .inl hb.2.symm
    · -- the pending order: plan, user, subscription, top-up row, order
      right
      unfold completePending at hb
      rcases hplan : getSubscriptionPlanById f db o.planId with _ | plan
      · rw [hplan] at hb; cases hb
      rcases hlock : lockUser f db o.userId with _ | user
      · simp only [hplan, hlock] at hb; cases hb
      rcases hcreate : createUserSubscriptionFromPlan f loc
          ⟨o.userId, plan, "order", now, newId⟩ db with _ | r
      · simp only [hplan, hlock, hcreate] at hb; cases hb
      obtain ⟨sub, db₁⟩ := r
      have hc := create_ok hcreate
      rcases htop : upsertSubscriptionTopUp f o now db₁ with _ | db₂
      · simp only [hplan, hlock, hcreate, htop] at hb; cases hb
      simp only [hplan, hlock, hcreate, htop] at hb
      split_ifs at hb
      rw [Except.ok.injEq, Prod.mk.injEq] at hb
      obtain ⟨-, rfl⟩ := hb
      have hframe := upsertSubscriptionTopUp_ok htop
      have hadds := hc.adds hplan
      refine ⟨o, ho', by simpa using hpend, by simpa using hmis, ?_, ?_⟩
      · rw [hframe]
        exact ⟨hadds.row, hadds.limit, hadds.plans⟩
      · rw [hframe]
        simp only [DB.saveOrder, hc.orders]

/-- **Everything an expiry of an order can do.** -/
theorem expire_cases (f : Faults) (tradeNo : String) (expected : PaymentProvider) (now : ℤ)
    (db : DB) :
    (expireSubscriptionOrder f tradeNo expected now db).2 = db ∨
      ∃ o, db.order tradeNo = some o ∧ o.status = .pending ∧
        providerMismatch expected o.paymentProvider = false ∧
        (expireSubscriptionOrder f tradeNo expected now db).2 =
          db.saveOrder { o with status := .expired, completeTime := now } := by
  by_cases ht : tradeNo = ""
  · exact .inl (by rw [expireSubscriptionOrder, if_pos ht])
  have heq : expireSubscriptionOrder f tradeNo expected now db =
      (expireOrderBody f tradeNo expected now).atomically (commitErr f .orders) db := by
    rw [expireSubscriptionOrder, if_neg ht]
  rw [heq]
  obtain ⟨e, he⟩ | ⟨_, db', -, hb, he⟩ :=
    Body.atomically_cases (commitErr f .orders) (expireOrderBody f tradeNo expected now) db
  · exact .inl (by rw [he])
  · rw [he]
    unfold expireOrderBody at hb
    rcases ho : (if f ⟨.find, .orders, 0⟩ then none else db.order tradeNo) with _ | o
    · rw [ho] at hb; cases hb
    have ho' : db.order tradeNo = some o := by
      split_ifs at ho
      exact ho
    rw [ho] at hb
    simp only at hb
    split_ifs at hb with hmis hpend hsave
    · rw [Except.ok.injEq, Prod.mk.injEq] at hb
      exact .inl hb.2.symm
    · rw [Except.ok.injEq, Prod.mk.injEq] at hb
      exact .inr ⟨o, ho', by simpa using hpend, by simpa using hmis, hb.2.symm⟩

/-- **Everything a binding can do.** -/
theorem bind_cases (f : Faults) (loc : Location) (userId planId now newId : ℤ) (db : DB) :
    (adminBindSubscription f loc userId planId now newId db).2 = db ∨
      Adds db (adminBindSubscription f loc userId planId now newId db).2 userId planId ∧
        (adminBindSubscription f loc userId planId now newId db).2.orders = db.orders := by
  by_cases hg : userId ≤ 0 ∨ planId ≤ 0
  · exact .inl (by rw [adminBindSubscription, if_pos hg])
  cases hplan : getSubscriptionPlanById f db planId with
  | error e => exact .inl (by simp only [adminBindSubscription, if_neg hg, hplan])
  | ok plan =>
    have heq : adminBindSubscription f loc userId planId now newId db =
        (bindBody f loc userId plan now newId).atomically (commitErr f .subscriptions) db := by
      simp only [adminBindSubscription, if_neg hg, hplan]
    rw [heq]
    obtain ⟨e, he⟩ | ⟨_, db', -, hb, he⟩ :=
      Body.atomically_cases (commitErr f .subscriptions) (bindBody f loc userId plan now newId) db
    · exact .inl (by rw [he])
    · rw [he]
      unfold bindBody at hb
      rcases hlock : lockUser f db userId with _ | user
      · rw [hlock] at hb; cases hb
      rcases hcreate : createUserSubscriptionFromPlan f loc
          ⟨userId, plan, "admin", now, newId⟩ db with _ | r
      · simp only [hlock, hcreate] at hb; cases hb
      obtain ⟨sub, db₁⟩ := r
      have hc := create_ok hcreate
      simp only [hlock, hcreate] at hb
      rw [Except.ok.injEq, Prod.mk.injEq] at hb
      obtain ⟨-, rfl⟩ := hb
      exact .inr ⟨hc.adds hplan, hc.orders⟩

theorem wallet_setGroup (userId v : ℤ) (g : String) :
    (db.setGroup userId g).wallet v = db.wallet v := by
  have h : (db.setGroup userId g).user v =
      (db.user v).map fun u => if v = userId then { u with group := g } else u :=
    user_updateUser (g := fun u => { u with group := g }) (fun _ => rfl) v
  rw [DB.wallet, h, DB.wallet, Option.map_map]
  congr 1
  funext u
  show (if v = userId then { u with group := g } else u).quota = u.quota
  split_ifs <;> rfl

theorem Created.wallet {p : Purchase} {sub : UserSubscription} (h : Created loc p db sub db')
    (v : ℤ) :
    db'.wallet v = db.wallet v := by
  have hadd : ∀ db : DB, (db.addSubscription sub).wallet v = db.wallet v := fun _ => rfl
  rw [h.db_eq, hadd, Purchase.moveUser]
  split_ifs
  · rfl
  · exact wallet_setGroup _ _ _

/-- A purchase from the wallet that goes through, for the quota `n`. -/
structure Bought (quotaPerUnit : Decimal) (b : Buy) (db db' : DB) (plan : SubscriptionPlan)
    (user : User) (n : ℤ) : Prop where
  plan_eq : db.plan b.planId = some plan
  price : 0 ≤ plan.priceAmount.coeff
  required : calcSubscriptionBalanceQuota quotaPerUnit plan.priceAmount = .ok n
  user_eq : db.user b.userId = some user
  enough : 0 < n → n ≤ user.quota
  adds : Adds db db' b.userId b.planId
  fresh : db.order b.tradeNo = none
  orders : ∃ o, db'.orders = db.orders ++ [o] ∧ o.tradeNo = b.tradeNo ∧ o.status = .success
  wallet : db'.wallet b.userId = some (if 0 < n then user.quota - n else user.quota)
  others : ∀ v, v ≠ b.userId → db'.wallet v = db.wallet v

theorem wallet_deduct {user : User} {n : ℤ} (hu : db.user userId = some user) :
    (if 0 < n then db.deductQuota userId n else db).wallet userId =
        some (if 0 < n then user.quota - n else user.quota) ∧
      ∀ v, v ≠ userId → (if 0 < n then db.deductQuota userId n else db).wallet v = db.wallet v := by
  have hw : db.wallet userId = some user.quota := by rw [DB.wallet, hu, Option.map_some]
  split_ifs with hn
  · have hadd : ∀ v, (db.deductQuota userId n).wallet v =
        (db.wallet v).map fun w => if v = userId then w + -n else w :=
      wallet_add fun u => ⟨rfl, sub_eq_add_neg _ _⟩
    refine ⟨?_, fun v hv => ?_⟩
    · rw [hadd, hw, Option.map_some, if_pos rfl, ← sub_eq_add_neg]
    · rw [hadd]
      simp only [if_neg hv, Option.map_id']
  · exact ⟨hw, fun _ _ => rfl⟩

/-- **Everything a purchase from the wallet can do**: fail and leave the database alone, or charge
the wallet, add the subscription and the order. -/
theorem buy_cases (f : Faults) (loc : Location) (quotaPerUnit : Decimal) (b : Buy) (db : DB) :
    (∃ e, purchaseSubscriptionWithBalance f loc quotaPerUnit b db = (.error e, db)) ∨
      ∃ db' plan user n, purchaseSubscriptionWithBalance f loc quotaPerUnit b db = (.ok (), db') ∧
        Bought quotaPerUnit b db db' plan user n := by
  by_cases hg : b.userId ≤ 0 ∨ b.planId ≤ 0
  · exact .inl ⟨_, by rw [purchaseSubscriptionWithBalance, if_pos hg]⟩
  have heq : purchaseSubscriptionWithBalance f loc quotaPerUnit b db =
      (buyBody f loc quotaPerUnit b).atomically (commitErr f .subscriptions) db := by
    rw [purchaseSubscriptionWithBalance, if_neg hg]
  rw [heq]
  obtain ⟨e, he⟩ | ⟨_, db', -, hb, he⟩ :=
    Body.atomically_cases (commitErr f .subscriptions) (buyBody f loc quotaPerUnit b) db
  · exact .inl ⟨e, he⟩
  refine .inr ⟨db', ?_⟩
  rw [he]
  unfold buyBody at hb
  rcases hplan : getSubscriptionPlanById f db b.planId with _ | plan
  · rw [hplan] at hb; cases hb
  obtain ⟨p, hp, hpeq⟩ := getSubscriptionPlanById_ok hplan
  have hprice : plan.priceAmount = p.priceAmount := by rw [hpeq]; rfl
  cases hreq : calcSubscriptionBalanceQuota quotaPerUnit plan.priceAmount with
  | error e =>
    simp only [hplan, hreq] at hb
    split_ifs at hb
  | ok n =>
    simp only [hplan, hreq] at hb
    split_ifs at hb with h₁ h₂ h₃
    unfold chargeAndCreate at hb
    rcases hlock : lockUser f db b.userId with _ | user
    · rw [hlock] at hb; cases hb
    have hu : db.user b.userId = some user := by
      unfold lockUser at hlock
      cases hu : db.user b.userId with
      | none =>
        simp only [hu] at hlock
        split_ifs at hlock
      | some u =>
        simp only [hu] at hlock
        split_ifs at hlock
        rw [ok.inj hlock]
    obtain ⟨hw, hothers⟩ := wallet_deduct (n := n) hu
    simp only [hlock] at hb
    generalize hdb₁ : (if 0 < n then db.deductQuota b.userId n else db) = db₁ at hb hw hothers
    have hsame : db₁.subscriptions = db.subscriptions ∧ db₁.plans = db.plans ∧
        db₁.orders = db.orders := by
      rw [← hdb₁]
      split_ifs <;> exact ⟨rfl, rfl, rfl⟩
    cases hcreate : createUserSubscriptionFromPlan f loc
        ⟨b.userId, plan, "balance", b.now, b.newId⟩ db₁ with
    | error e =>
      simp only [hcreate] at hb
      split_ifs at hb
    | ok r =>
      obtain ⟨sub, db₂⟩ := r
      have hc := create_ok hcreate
      simp only [hcreate] at hb
      split_ifs at hb with h₄ h₅ h₆
      rw [Except.ok.injEq, Prod.mk.injEq] at hb
      obtain ⟨-, rfl⟩ := hb
      have hplan₁ : getSubscriptionPlanById f db₁ b.planId = .ok plan := by
        rw [← hplan, getSubscriptionPlanById, getSubscriptionPlanById, DB.plan, DB.plan, hsame.2.1]
      have hadds := hc.adds hplan₁
      have horders : db₂.orders = db.orders := hc.orders.trans hsame.2.2
      refine ⟨p, user, n, rfl, hp, by rw [← hprice]; omega, by rw [← hprice]; exact hreq, hu,
        fun hn => by omega, ⟨?_, ?_, ?_⟩, ?_, ?_, ?_, ?_⟩
      · rw [← hsame.1]
        exact hadds.row
      · intro q hq hmax
        have hlim := hadds.limit q (by rw [DB.plan, hsame.2.1]; exact hq) hmax
        rw [DB.countSubscriptions, hsame.1] at hlim
        exact hlim
      · exact hadds.plans.trans hsame.2.1
      · have hnone : db₂.order b.tradeNo = none := by
          simp only [Bool.or_eq_true, not_or, Option.not_isSome_iff_eq_none] at h₆
          exact h₆.2
        rw [DB.order, horders] at hnone
        exact hnone
      · exact ⟨_, by rw [← horders]; rfl, rfl, rfl⟩
      · exact (hc.wallet _).trans hw
      · exact fun v hv => (hc.wallet _).trans (hothers v hv)

end Calls

namespace Orders

/-! ### The machine -/

/-- What can happen; every call brings its own pattern of failing statements. -/
inductive Event where
  | complete (f : Faults) (c : Callback) (now newId : ℤ)
  | expire (f : Faults) (tradeNo : String) (expected : PaymentProvider) (now : ℤ)
  | bind (f : Faults) (userId planId now newId : ℤ)
  | buy (f : Faults) (b : Buy)
  /-- A checkout inserts a pending order. -/
  | place (o : SubscriptionOrder)

/-- The database, and the trade numbers on whose account a subscription was created. -/
structure State where
  db : DB
  created : List String

/-- The log after a call for an order. -/
def State.logged (s : State) (tradeNo : String) (db' : DB) : List String :=
  if s.db.subscriptions.length < db'.subscriptions.length then tradeNo :: s.created else s.created

variable (loc : Location) (quotaPerUnit : Decimal)

def step (s : State) : Event → State
  | .complete f c now newId =>
    let db' := (completeSubscriptionOrder f loc c now newId s.db).2
    ⟨db', s.logged c.tradeNo db'⟩
  | .expire f tradeNo expected now =>
    ⟨(expireSubscriptionOrder f tradeNo expected now s.db).2, s.created⟩
  | .bind f userId planId now newId =>
    ⟨(adminBindSubscription f loc userId planId now newId s.db).2, s.created⟩
  | .buy f b =>
    let db' := (purchaseSubscriptionWithBalance f loc quotaPerUnit b s.db).2
    ⟨db', s.logged b.tradeNo db'⟩
  | .place o =>
    if (s.db.order o.tradeNo).isSome then s
    else ⟨s.db.addOrder { o with status := .pending }, s.created⟩

/-- The limit of every plan holds for every user. -/
def LimitsHold (db : DB) : Prop :=
  ∀ planId plan, db.plan planId = some plan → 0 < plan.maxPurchasePerUser →
    ∀ userId, (db.countSubscriptions userId planId : ℤ) ≤ plan.maxPurchasePerUser

/-- The callback of another provider than the order's. -/
def Foreign (db : DB) : Event → Prop
  | .complete _ c _ _ => ∃ o, db.order c.tradeNo = some o ∧
      providerMismatch c.expectedPaymentProvider o.paymentProvider = true
  | .expire _ tradeNo expected _ => ∃ o, db.order tradeNo = some o ∧
      providerMismatch expected o.paymentProvider = true
  | _ => False

/-- What every event does right. -/
structure StepOk (s : State) (e : Event) : Prop where
  /-- An order creates a subscription exactly when it moves from pending to success. -/
  creates : ∀ t o, s.db.order t = some o → ∃ o', (step loc quotaPerUnit s e).db.order t = some o' ∧
    (step loc quotaPerUnit s e).created.count t =
      s.created.count t + if o.status = .pending ∧ o'.status = .success then 1 else 0
  /-- What is logged is a new subscription. -/
  logged : (step loc quotaPerUnit s e).created ≠ s.created →
    ∃ sub, (step loc quotaPerUnit s e).db.subscriptions = s.db.subscriptions ++ [sub]
  /-- A foreign callback changes nothing. -/
  foreign : Foreign s.db e → step loc quotaPerUnit s e = s
  /-- An expired order stays expired. -/
  expired : ∀ t o, s.db.order t = some o → o.status = .expired →
    ∃ o', (step loc quotaPerUnit s e).db.order t = some o' ∧ o'.status = .expired
  /-- A purchase from the wallet that errs leaves the wallets alone; one that succeeds charges
  exactly the price, and never takes the wallet below zero. -/
  charge : ∀ f b, e = .buy f b →
    ((purchaseSubscriptionWithBalance f loc quotaPerUnit b s.db).1.isOk = false →
      (step loc quotaPerUnit s e).db = s.db) ∧
    ((purchaseSubscriptionWithBalance f loc quotaPerUnit b s.db).1.isOk = true →
      ∃ plan w, s.db.plan b.planId = some plan ∧ s.db.wallet b.userId = some w ∧
        (step loc quotaPerUnit s e).db.wallet b.userId =
          some (w - ⌈plan.priceAmount.toRat * quotaPerUnit.toRat⌉) ∧
        (0 < ⌈plan.priceAmount.toRat * quotaPerUnit.toRat⌉ →
          0 ≤ w - ⌈plan.priceAmount.toRat * quotaPerUnit.toRat⌉) ∧
        ∀ v, v ≠ b.userId → (step loc quotaPerUnit s e).db.wallet v = s.db.wallet v)

/-- The invariant: orders with a subscription are successful, none has two, and limits hold. -/
structure Inv (s : State) : Prop where
  success : ∀ t ∈ s.created, ∃ o, s.db.order t = some o ∧ o.status = .success
  once : s.created.Nodup
  limits : LimitsHold s.db

variable {loc quotaPerUnit} {s : State}

/-! ### One event -/

theorem LimitsHold.adds {db db' : DB} {userId planId : ℤ} (h : LimitsHold db)
    (ha : Adds db db' userId planId) : LimitsHold db' := by
  obtain ⟨sub, hsubs, hu, hp⟩ := ha.row
  intro pid plan hplan hmax uid
  have hplan' : db.plan pid = some plan := by rw [DB.plan, ← ha.plans]; exact hplan
  have hold := h pid plan hplan' hmax uid
  simp only [DB.countSubscriptions] at hold ⊢
  rw [hsubs, countP_append, countP_singleton]
  by_cases hsame : sub.userId = uid ∧ sub.planId = pid
  · obtain ⟨rfl, rfl⟩ := hsame
    have hlim := ha.limit plan (by rw [← hp]; exact hplan') hmax
    rw [DB.countSubscriptions, ← hu, ← hp] at hlim
    simp only [and_self, decide_true, ↓reduceIte]
    push_cast
    omega
  · simp only [hsame, decide_false, Bool.false_eq_true, ↓reduceIte]
    push_cast
    omega

/-- The log after a call that added a subscription, or left the database alone. -/
theorem logged_adds {t : String} {db' : DB} {userId planId : ℤ} (ha : Adds s.db db' userId planId) :
    s.logged t db' = t :: s.created := by
  obtain ⟨sub, hsubs, -⟩ := ha.row
  rw [State.logged, if_pos (by rw [hsubs, length_append]; simp)]

theorem logged_same (s : State) (t : String) : s.logged t s.db = s.created := by
  rw [State.logged, if_neg (lt_irrefl _)]

/-- An event that leaves the state alone is right about everything but a purchase's charge. -/
theorem StepOk.of_same {e : Event} (h : step loc quotaPerUnit s e = s)
    (hbuy : ∀ f b, e = .buy f b →
      (purchaseSubscriptionWithBalance f loc quotaPerUnit b s.db).1.isOk = false) :
    StepOk loc quotaPerUnit s e := by
  refine ⟨fun t o ho => ⟨o, by rw [h]; exact ho, ?_⟩, fun hne => absurd (by rw [h]) hne,
    fun _ => h, fun t o ho hs => ⟨o, by rw [h]; exact ho, hs⟩, fun f b he => ⟨fun _ => by rw [h],
      fun hok => ?_⟩⟩
  · rw [h, if_neg]
    · rfl
    · rintro ⟨h₁, h₂⟩
      rw [h₁] at h₂
      cases h₂
  · rw [hbuy f b he] at hok
    cases hok

variable {o o' : SubscriptionOrder}

/-- Orders after one of them was saved. -/
theorem order_put {db db' : DB} {t : String} (ho : db.order t = some o)
    (h : db'.orders = Table.put SubscriptionOrder.tradeNo o' db.orders)
    (ht : o'.tradeNo = o.tradeNo) :
    db'.order t = some o' ∧ ∀ t', t' ≠ t → db'.order t' = db.order t' := by
  have hkey : o'.tradeNo = t := ht.trans (get_key ho)
  subst hkey
  refine ⟨?_, fun t' hne => ?_⟩
  · rw [DB.order, h]
    exact get_put ho
  · rw [DB.order, h]
    exact get_put_ne hne

/-- Orders after one was inserted. -/
theorem order_append {db db' : DB} (h : db'.orders = db.orders ++ [o])
    {t : String} (ho : db.order t = some o') : db'.order t = some o' := by
  rw [DB.order, h]
  exact get_append ho [o]

theorem not_both : ¬ (o.status = .pending ∧ o.status = .success) := by
  rintro ⟨h₁, h₂⟩
  rw [h₁] at h₂
  cases h₂

theorem complete_spec (f : Faults) (c : Callback) (now newId : ℤ) (h : Inv s) :
    Inv (step loc quotaPerUnit s (.complete f c now newId)) ∧
      StepOk loc quotaPerUnit s (.complete f c now newId) := by
  obtain hsame | ⟨o, ho, hpend, hmis, hadds, horders⟩ := complete_cases f loc c now newId s.db
  · have heq : step loc quotaPerUnit s (.complete f c now newId) = s := by
      simp only [step, hsame, logged_same]
    exact ⟨by rw [heq]; exact h, .of_same heq fun f b he => nomatch he⟩
  · obtain ⟨hself, hothers⟩ := order_put ho horders rfl
    have heq : step loc quotaPerUnit s (.complete f c now newId) =
        ⟨(completeSubscriptionOrder f loc c now newId s.db).2, c.tradeNo :: s.created⟩ := by
      simp only [step, logged_adds hadds]
    -- the order was pending, so nothing has been created for it before
    have hnew : c.tradeNo ∉ s.created := fun hm => by
      obtain ⟨o₀, ho₀, hsucc⟩ := h.success _ hm
      rw [ho, Option.some.injEq] at ho₀
      subst ho₀
      rw [hpend] at hsucc
      cases hsucc
    refine ⟨?_, ?_⟩
    · rw [heq]
      refine ⟨fun t ht => ?_, nodup_cons.2 ⟨hnew, h.once⟩, h.limits.adds hadds⟩
      rcases mem_cons.1 ht with rfl | ht
      · exact ⟨_, hself, rfl⟩
      · obtain ⟨o₀, ho₀, hsucc⟩ := h.success t ht
        have hne : t ≠ c.tradeNo := fun he => hnew (he ▸ ht)
        exact ⟨o₀, (hothers t hne).trans ho₀, hsucc⟩
    · constructor
      · intro t o₀ ho₀
        rw [heq]
        by_cases ht : t = c.tradeNo
        · subst ht
          rw [ho, Option.some.injEq] at ho₀
          subst ho₀
          exact ⟨_, hself, by rw [count_cons_self, if_pos ⟨hpend, rfl⟩]⟩
        · refine ⟨o₀, (hothers t ht).trans ho₀, ?_⟩
          rw [count_cons_of_ne (Ne.symm ht), if_neg not_both, Nat.add_zero]
      · intro _
        rw [heq]
        obtain ⟨sub, hsubs, -⟩ := hadds.row
        exact ⟨sub, hsubs⟩
      · rintro ⟨o₀, ho₀, hm⟩
        rw [ho, Option.some.injEq] at ho₀
        subst ho₀
        rw [hmis] at hm
        cases hm
      · intro t o₀ ho₀ hexp
        rw [heq]
        have ht : t ≠ c.tradeNo := fun he => by
          rw [he, ho, Option.some.injEq] at ho₀
          rw [ho₀, hexp] at hpend
          cases hpend
        exact ⟨o₀, (hothers t ht).trans ho₀, hexp⟩
      · exact fun f b he => nomatch he

theorem expire_spec (f : Faults) (tradeNo : String) (expected : PaymentProvider) (now : ℤ)
    (h : Inv s) :
    Inv (step loc quotaPerUnit s (.expire f tradeNo expected now)) ∧
      StepOk loc quotaPerUnit s (.expire f tradeNo expected now) := by
  obtain hsame | ⟨o, ho, hpend, hmis, hdb⟩ := expire_cases f tradeNo expected now s.db
  · have heq : step loc quotaPerUnit s (.expire f tradeNo expected now) = s := by
      simp only [step, hsame]
    exact ⟨by rw [heq]; exact h, .of_same heq fun f b he => nomatch he⟩
  · have heq : step loc quotaPerUnit s (.expire f tradeNo expected now) =
        ⟨s.db.saveOrder { o with status := .expired, completeTime := now }, s.created⟩ := by
      simp only [step, hdb]
    have horders : (s.db.saveOrder { o with status := .expired, completeTime := now }).orders =
        Table.put SubscriptionOrder.tradeNo { o with status := .expired, completeTime := now }
          s.db.orders := rfl
    obtain ⟨hself, hothers⟩ := order_put ho horders rfl
    refine ⟨?_, ?_⟩
    · rw [heq]
      refine ⟨fun t ht => ?_, h.once, h.limits⟩
      obtain ⟨o₀, ho₀, hsucc⟩ := h.success t ht
      have hne : t ≠ tradeNo := fun he => by
        rw [he, ho, Option.some.injEq] at ho₀
        rw [ho₀, hsucc] at hpend
        cases hpend
      exact ⟨o₀, (hothers t hne).trans ho₀, hsucc⟩
    · constructor
      · intro t o₀ ho₀
        rw [heq]
        by_cases ht : t = tradeNo
        · subst ht
          refine ⟨_, hself, ?_⟩
          rw [if_neg (fun hb => nomatch hb.2), Nat.add_zero]
        · refine ⟨o₀, (hothers t ht).trans ho₀, ?_⟩
          rw [if_neg not_both, Nat.add_zero]
      · exact fun hne => absurd (by rw [heq]) hne
      · rintro ⟨o₀, ho₀, hm⟩
        rw [ho, Option.some.injEq] at ho₀
        subst ho₀
        rw [hmis] at hm
        cases hm
      · intro t o₀ ho₀ hexp
        rw [heq]
        by_cases ht : t = tradeNo
        · subst ht
          exact ⟨_, hself, rfl⟩
        · exact ⟨o₀, (hothers t ht).trans ho₀, hexp⟩
      · exact fun f b he => nomatch he

/-- An event that keeps the orders it finds, and moves none of them. -/
theorem spec_of_kept {e : Event} {db' : DB} {created : List String}
    (heq : step loc quotaPerUnit s e = ⟨db', created⟩)
    (horders : ∀ t o, s.db.order t = some o → db'.order t = some o)
    (hcount : ∀ t o, s.db.order t = some o → created.count t = s.created.count t)
    (hlogged : created ≠ s.created → ∃ sub, db'.subscriptions = s.db.subscriptions ++ [sub])
    (hforeign : ¬ Foreign s.db e)
    (hsuccess : ∀ t ∈ created, ∃ o, db'.order t = some o ∧ o.status = .success)
    (honce : created.Nodup) (hlimits : LimitsHold db')
    (hcharge : ∀ f b, e = .buy f b →
      ((purchaseSubscriptionWithBalance f loc quotaPerUnit b s.db).1.isOk = false → db' = s.db) ∧
      ((purchaseSubscriptionWithBalance f loc quotaPerUnit b s.db).1.isOk = true →
        ∃ plan w, s.db.plan b.planId = some plan ∧ s.db.wallet b.userId = some w ∧
          db'.wallet b.userId = some (w - ⌈plan.priceAmount.toRat * quotaPerUnit.toRat⌉) ∧
          (0 < ⌈plan.priceAmount.toRat * quotaPerUnit.toRat⌉ →
            0 ≤ w - ⌈plan.priceAmount.toRat * quotaPerUnit.toRat⌉) ∧
          ∀ v, v ≠ b.userId → db'.wallet v = s.db.wallet v)) :
    Inv (step loc quotaPerUnit s e) ∧ StepOk loc quotaPerUnit s e := by
  refine ⟨by rw [heq]; exact ⟨hsuccess, honce, hlimits⟩, ?_⟩
  constructor
  · intro t o ho
    rw [heq]
    refine ⟨o, horders t o ho, ?_⟩
    rw [hcount t o ho, if_neg not_both, Nat.add_zero]
  · rw [heq]
    exact hlogged
  · exact fun hf => absurd hf hforeign
  · intro t o ho hexp
    rw [heq]
    exact ⟨o, horders t o ho, hexp⟩
  · rw [heq]
    exact hcharge

theorem bind_spec (f : Faults) (userId planId now newId : ℤ) (h : Inv s) :
    Inv (step loc quotaPerUnit s (.bind f userId planId now newId)) ∧
      StepOk loc quotaPerUnit s (.bind f userId planId now newId) := by
  obtain hsame | ⟨hadds, horders⟩ := bind_cases f loc userId planId now newId s.db
  · have heq : step loc quotaPerUnit s (.bind f userId planId now newId) = s := by
      simp only [step, hsame]
    exact ⟨by rw [heq]; exact h, .of_same heq fun f b he => nomatch he⟩
  · have horder : ∀ t, (adminBindSubscription f loc userId planId now newId s.db).2.order t =
        s.db.order t := fun t => by rw [DB.order, horders, DB.order]
    refine spec_of_kept rfl (fun t o ho => (horder t).trans ho) (fun _ _ _ => rfl)
      (fun hne => absurd rfl hne) id (fun t ht => ?_) h.once (h.limits.adds hadds)
      (fun f b he => nomatch he)
    obtain ⟨o, ho, hs⟩ := h.success t ht
    exact ⟨o, (horder t).trans ho, hs⟩

theorem place_spec (o : SubscriptionOrder) (h : Inv s) :
    Inv (step loc quotaPerUnit s (.place o)) ∧ StepOk loc quotaPerUnit s (.place o) := by
  by_cases hs : (s.db.order o.tradeNo).isSome = true
  · have heq : step loc quotaPerUnit s (.place o) = s := by simp only [step, if_pos hs]
    exact ⟨by rw [heq]; exact h, .of_same heq fun f b he => nomatch he⟩
  · have heq : step loc quotaPerUnit s (.place o) =
        ⟨s.db.addOrder { o with status := .pending }, s.created⟩ := by simp only [step, if_neg hs]
    have horder : ∀ t o', s.db.order t = some o' →
        (s.db.addOrder { o with status := .pending }).order t = some o' :=
      fun t o' ho' => order_append rfl ho'
    refine spec_of_kept heq horder (fun _ _ _ => rfl) (fun hne => absurd rfl hne) id
      (fun t ht => ?_) h.once h.limits (fun f b he => nomatch he)
    obtain ⟨o', ho', hsucc⟩ := h.success t ht
    exact ⟨o', horder t o' ho', hsucc⟩

theorem buy_spec (f : Faults) (b : Buy) (h : Inv s) :
    Inv (step loc quotaPerUnit s (.buy f b)) ∧ StepOk loc quotaPerUnit s (.buy f b) := by
  obtain ⟨e, he⟩ | ⟨db', plan, user, n, hok, hb⟩ := buy_cases f loc quotaPerUnit b s.db
  · have heq : step loc quotaPerUnit s (.buy f b) = s := by
      simp only [step, he, logged_same]
    refine ⟨by rw [heq]; exact h, .of_same heq fun f' b' heq' => ?_⟩
    cases heq'
    rw [he]
    rfl
  · have heq : step loc quotaPerUnit s (.buy f b) = ⟨db', b.tradeNo :: s.created⟩ := by
      simp only [step, hok, logged_adds hb.adds]
    obtain ⟨o, horders, hto, hso⟩ := hb.orders
    have hnew : b.tradeNo ∉ s.created := fun hm => by
      obtain ⟨o₀, ho₀, -⟩ := h.success _ hm
      rw [hb.fresh] at ho₀
      cases ho₀
    have hkeep : ∀ t o', s.db.order t = some o' → db'.order t = some o' :=
      fun t o' ho' => order_append horders ho'
    refine spec_of_kept heq hkeep ?_ ?_ id ?_ (nodup_cons.2 ⟨hnew, h.once⟩)
      (h.limits.adds hb.adds) ?_
    · intro t o' ho'
      have hne : b.tradeNo ≠ t := fun he => by
        rw [← he, hb.fresh] at ho'
        cases ho'
      exact count_cons_of_ne hne
    · intro _
      obtain ⟨sub, hsubs, -⟩ := hb.adds.row
      exact ⟨sub, hsubs⟩
    · intro t ht
      rcases mem_cons.1 ht with rfl | ht
      · refine ⟨o, ?_, hso⟩
        rw [DB.order, horders]
        refine (get_append_none hb.fresh [o]).trans ?_
        rw [get_cons, if_pos hto]
      · obtain ⟨o', ho', hsucc⟩ := h.success t ht
        exact ⟨o', hkeep t o' ho', hsucc⟩
    · intro f' b' heq'
      cases heq'
      rw [hok]
      refine ⟨fun hf => (by cases hf),
        fun _ => ⟨plan, user.quota, hb.plan_eq, ?_, ?_, ?_, hb.others⟩⟩
      · rw [DB.wallet, hb.user_eq, Option.map_some]
      · have hprice := (Decimal.toRat_nonneg_iff plan.priceAmount).2 hb.price
        obtain ⟨hceil, hnn⟩ := calcSubscriptionBalanceQuota_ok hprice hb.required
        rw [hb.wallet, ← hceil]
        congr 1
        split_ifs <;> omega
      · have hprice := (Decimal.toRat_nonneg_iff plan.priceAmount).2 hb.price
        obtain ⟨hceil, -⟩ := calcSubscriptionBalanceQuota_ok hprice hb.required
        rw [← hceil]
        intro hn
        have := hb.enough hn
        omega

theorem step_spec (e : Event) (h : Inv s) :
    Inv (step loc quotaPerUnit s e) ∧ StepOk loc quotaPerUnit s e := by
  cases e with
  | complete f c now newId => exact complete_spec f c now newId h
  | expire f tradeNo expected now => exact expire_spec f tradeNo expected now h
  | bind f userId planId now newId => exact bind_spec f userId planId now newId h
  | buy f b => exact buy_spec f b h
  | place o => exact place_spec o h

/-! ### Runs -/

/-- A condition that every event meets, from states the invariant holds in, is met by every run. -/
theorem meets_of_inv (h : Inv s) (es : List Event) :
    Meets (step loc quotaPerUnit) (StepOk loc quotaPerUnit) s es := by
  induction es generalizing s with
  | nil => trivial
  | cons e es ih => exact ⟨(step_spec e h).2, ih (step_spec e h).1⟩

theorem expired_run {t : String} (h : Inv s) (ho : s.db.order t = some o)
    (hexp : o.status = .expired) (es : List Event) :
    ∃ o', (run (step loc quotaPerUnit) s es).db.order t = some o' ∧ o'.status = .expired := by
  induction es generalizing s o with
  | nil => exact ⟨o, ho, hexp⟩
  | cons e es ih =>
    obtain ⟨hinv, hok⟩ : Inv (step loc quotaPerUnit s e) ∧ StepOk loc quotaPerUnit s e :=
      step_spec e h
    obtain ⟨o', ho', hexp'⟩ := hok.expired t o ho hexp
    exact ih hinv ho' hexp'

/-- **Orders over whole runs.**  From a database in which the limits of the plans hold and nothing
has been created yet: in every state, every order has created at most one subscription and the
limits hold; every event is right (`StepOk`); and an order that has expired is never successful. -/
theorem order_runs (loc : Location) (quotaPerUnit : Decimal) (db : DB) (hl : LimitsHold db)
    (es : List Event) :
    Always (step loc quotaPerUnit) (fun s => (∀ t, s.created.count t ≤ 1) ∧ LimitsHold s.db)
        ⟨db, []⟩ es ∧
      Meets (step loc quotaPerUnit) (StepOk loc quotaPerUnit) ⟨db, []⟩ es ∧
      ∀ t o es₁ es₂, es = es₁ ++ es₂ →
        (run (step loc quotaPerUnit) ⟨db, []⟩ es₁).db.order t = some o → o.status = .expired →
        ∃ o', (run (step loc quotaPerUnit) ⟨db, []⟩ es).db.order t = some o' ∧
          o'.status = .expired := by
  have hinv : Inv (⟨db, []⟩ : State) := ⟨by simp, List.nodup_nil, hl⟩
  have hstep : ∀ s e, Inv s → Inv (step loc quotaPerUnit s e) := fun s e h => (step_spec e h).1
  have hall : ∀ es, Always (step loc quotaPerUnit) Inv (⟨db, []⟩ : State) es :=
    fun es => Always.of_step hstep hinv es
  refine ⟨(hall es).imp fun s h => ⟨List.nodup_iff_count_le_one.1 h.once, h.limits⟩,
    meets_of_inv hinv es, fun t o es₁ es₂ hes ho hexp => ?_⟩
  rw [hes, run_append]
  exact expired_run (hall es₁).run ho hexp es₂

/-- A plan of one hour that a user may buy once. -/
def oncePlan : SubscriptionPlan where
  id := 1
  title := "once"
  priceAmount := ⟨15, 1⟩
  durationUnit := .hour
  durationValue := 1
  customSeconds := 0
  enabled := true
  allowBalancePay := none
  allowWalletOverflow := none
  maxPurchasePerUser := 1
  upgradeGroup := ""
  downgradeGroup := ""
  totalAmount := 100
  quotaResetPeriod := "never"
  quotaResetCustomSeconds := 0

/-- A shop with this plan and one user. -/
def shopDB : DB :=
  { DB.empty with users := [⟨7, 1000, 0, 0, "default", "", ""⟩], plans := [oncePlan] }

/-- A wallet buys the plan, and tries to buy it again. -/
def twoPurchases : List Event :=
  [.buy .none ⟨7, 1, 50, 1, "T1"⟩, .buy .none ⟨7, 1, 60, 2, "T2"⟩]

theorem limitsHold_shopDB : LimitsHold shopDB := by
  intro planId plan _ hmax userId
  have hnone : shopDB.countSubscriptions userId planId = 0 := rfl
  rw [hnone]
  exact hmax.le

theorem order_runs_two_purchases :
    LimitsHold shopDB ∧
      (run (step .utc (.ofInt 500)) ⟨shopDB, []⟩ twoPurchases).created = ["T1"] ∧
      Meets (step .utc (.ofInt 500)) (StepOk .utc (.ofInt 500)) ⟨shopDB, []⟩ twoPurchases :=
  ⟨limitsHold_shopDB, by decide,
    (order_runs .utc (.ofInt 500) shopDB limitsHold_shopDB twoPurchases).2.1⟩

end Orders

end NexusTok
