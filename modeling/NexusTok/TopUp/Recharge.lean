import NexusTok.Wallet.Quota

/-!
# Completing top-up orders

A top-up order is completed by the callback of its payment gateway (`RechargeEpay`, `Recharge` for
Stripe, `RechargeCreem`, `RechargeWaffo`, `RechargeWaffoPancake`) or by an administrator
(`ManualCompleteTopUp`).  Each completion is one transaction: lock the order, check it, save it as
successful, credit the wallet.

The completions read the amount of an order in three units.  Stripe takes `Money` as dollars, Creem
takes `Amount` as quota, the others take `Amount` as dollars; the manual completion tells Stripe
apart from the rest and takes Creem for one of the others.

* `epay_cases`, `stripe_cases`, … : everything a completion can do, with any statement failing.
* `manual_agrees_iff` : exactly when the manual completion credits what the gateway's own would.
-/

namespace NexusTok

/-! ### The completions -/

def errTopUpNotFound : Err := .text "topup not found"

def errTopUpStatusInvalid : Err := .text "topup status invalid"

def errInvalidTopUpQuota : Err := .text "invalid top-up quota"

/-- What the user sees of a failed Stripe, Creem or Waffo completion. -/
def errRechargeFailed : Err := .text "充值失败，请稍后重试"

/-- The order as a completion saves it. -/
def TopUp.completed (o : TopUp) (now : ℤ) : TopUp :=
  { o with completeTime := now, status := .success }

/-- The order with the payment method that was really used. -/
def TopUp.paidBy (o : TopUp) (actualPaymentMethod : String) : TopUp :=
  if actualPaymentMethod ≠ "" ∧ o.paymentMethod ≠ actualPaymentMethod then
    { o with paymentMethod := actualPaymentMethod }
  else o

/-- Lock the order; whatever goes wrong, it is reported as `notFound`. -/
def lockTopUp (f : Faults) (db : DB) (tradeNo : String) (notFound : Err) : Except Err TopUp :=
  if f ⟨.find, .topUps, 0⟩ then .error notFound
  else
    match db.topUp tradeNo with
    | none => .error notFound
    | some o => .ok o

/-- The quota to credit for an amount; an amount that is not positive or out of range is
refused. -/
def quotaToAdd (amount : Decimal) : Except Err ℤ :=
  match walletQuotaFromDecimalStrict amount with
  | .error _ => .error errInvalidTopUpQuota
  | .ok quota => if quota ≤ 0 then .error errInvalidTopUpQuota else .ok quota

def saveTopUpRow (f : Faults) (o : TopUp) (db : DB) : Except Err DB :=
  if f ⟨.save, .topUps, 0⟩ then .error (.db ⟨.save, .topUps, 0⟩) else .ok (db.saveTopUp o)

/-- The end of the Epay, Waffo and manual completions: convert, save, credit. -/
def convertSaveCredit (f : Faults) (o : TopUp) (amount : Decimal) (now : ℤ) : Body DB Err Unit :=
  fun db =>
    match quotaToAdd amount with
    | .error e => .error e
    | .ok quota =>
      match saveTopUpRow f (o.completed now) db with
      | .error e => .error e
      | .ok db => creditTopUpQuota f o.userId quota id db

/-- The failure of a completion that hides its reason. -/
def hideReason {α : Type} (r : Except Err α × DB) : Except Err α × DB :=
  match r with
  | (.error _, db) => (.error errRechargeFailed, db)
  | (.ok a, db) => (.ok a, db)

variable (quotaPerUnit : Decimal)

/-- The transaction of `RechargeEpay`; the result is `alreadyDone`. -/
def epayBody (f : Faults) (tradeNo actualPaymentMethod : String) (now : ℤ) : Body DB Err Bool :=
  fun db =>
    match lockTopUp f db tradeNo errTopUpNotFound with
    | .error e => .error e
    | .ok o =>
      if o.paymentProvider ≠ .epay then .error errPaymentMethodMismatch
      else if o.status = .success then .ok (true, db)
      else if o.status ≠ .pending then .error errTopUpStatusInvalid
      else
        match convertSaveCredit f (o.paidBy actualPaymentMethod)
            ((Decimal.ofInt o.amount).mul quotaPerUnit) now db with
        | .error e => .error e
        | .ok (_, db) => .ok (false, db)

def rechargeEpay (f : Faults) (tradeNo actualPaymentMethod : String) (now : ℤ) (db : DB) :
    Except Err Bool × DB :=
  if tradeNo = "" then (.error (.text "未提供支付单号"), db)
  else (epayBody quotaPerUnit f tradeNo actualPaymentMethod now).atomically (commitErr f .topUps) db

/-- The checks that Stripe and Creem make: the order is theirs, and it is pending. -/
def lockPendingTopUp (f : Faults) (db : DB) (tradeNo : String) (provider : PaymentProvider) :
    Except Err TopUp :=
  match lockTopUp f db tradeNo (.text "充值订单不存在") with
  | .error e => .error e
  | .ok o =>
    if o.paymentProvider ≠ provider then .error errPaymentMethodMismatch
    else if o.status ≠ .pending then .error (.text "充值订单状态错误")
    else .ok o

/-- The transaction of `Recharge`; the order is saved before its amount is converted. -/
def stripeBody (f : Faults) (referenceId customerId : String) (now : ℤ) : Body DB Err Unit :=
  fun db =>
    match lockPendingTopUp f db referenceId .stripe with
    | .error e => .error e
    | .ok o =>
      match saveTopUpRow f (o.completed now) db with
      | .error e => .error e
      | .ok db =>
        match quotaToAdd (o.money.mul quotaPerUnit) with
        | .error e => .error e
        | .ok quota =>
          creditTopUpQuota f o.userId quota (fun u => { u with stripeCustomer := customerId }) db

/-- `Recharge`, the completion of a Stripe order. -/
def recharge (f : Faults) (referenceId customerId : String) (now : ℤ) (db : DB) :
    Except Err Unit × DB :=
  if referenceId = "" then (.error (.text "未提供支付单号"), db)
  else hideReason
    ((stripeBody quotaPerUnit f referenceId customerId now).atomically (commitErr f .topUps) db)

/-- The fields a Creem completion sets beside the quota: the email of the customer, for a user that
has none. -/
def creemUpdates (f : Faults) (db : DB) (userId : ℤ) (customerEmail : String) :
    Except Err (User → User) :=
  if customerEmail = "" then .ok id
  else if f ⟨.find, .users, 0⟩ then .error (.db ⟨.find, .users, 0⟩)
  else
    match db.user userId with
    | none => .error errRecordNotFound
    | some user =>
      .ok (if user.email = "" then fun u => { u with email := customerEmail } else id)

/-- The transaction of `RechargeCreem`; `Amount` is the quota. -/
def creemBody (f : Faults) (referenceId customerEmail : String) (now : ℤ) : Body DB Err Unit :=
  fun db =>
    match lockPendingTopUp f db referenceId .creem with
    | .error e => .error e
    | .ok o =>
      match saveTopUpRow f (o.completed now) db with
      | .error e => .error e
      | .ok db =>
        match quotaToAdd (Decimal.ofInt o.amount) with
        | .error e => .error e
        | .ok quota =>
          match creemUpdates f db o.userId customerEmail with
          | .error e => .error e
          | .ok updates => creditTopUpQuota f o.userId quota updates db

def rechargeCreem (f : Faults) (referenceId customerEmail : String) (now : ℤ) (db : DB) :
    Except Err Unit × DB :=
  if referenceId = "" then (.error (.text "未提供支付单号"), db)
  else hideReason
    ((creemBody f referenceId customerEmail now).atomically (commitErr f .topUps) db)

/-- The transaction of both Waffo completions, for the provider they expect. -/
def waffoBody (provider : PaymentProvider) (f : Faults) (tradeNo : String) (now : ℤ) :
    Body DB Err Unit := fun db =>
  match lockTopUp f db tradeNo (.text "充值订单不存在") with
  | .error e => .error e
  | .ok o =>
    if o.paymentProvider ≠ provider then .error errPaymentMethodMismatch
    else if o.status = .success then .ok ((), db)
    else if o.status ≠ .pending then .error (.text "充值订单状态错误")
    else convertSaveCredit f o ((Decimal.ofInt o.amount).mul quotaPerUnit) now db

/-- Both Waffo completions, for the provider they expect. -/
def rechargeWaffoFor (provider : PaymentProvider) (f : Faults) (tradeNo : String) (now : ℤ)
    (db : DB) : Except Err Unit × DB :=
  if tradeNo = "" then (.error (.text "未提供支付单号"), db)
  else hideReason
    ((waffoBody quotaPerUnit provider f tradeNo now).atomically (commitErr f .topUps) db)

def rechargeWaffo (f : Faults) (tradeNo : String) (now : ℤ) (db : DB) : Except Err Unit × DB :=
  rechargeWaffoFor quotaPerUnit .waffo f tradeNo now db

def rechargeWaffoPancake (f : Faults) (tradeNo : String) (now : ℤ) (db : DB) :
    Except Err Unit × DB :=
  rechargeWaffoFor quotaPerUnit .waffoPancake f tradeNo now db

/-- What the manual completion takes an order to be worth. -/
def TopUp.manualAmount (o : TopUp) : Decimal :=
  if o.paymentProvider = .stripe then o.money.mul quotaPerUnit
  else (Decimal.ofInt o.amount).mul quotaPerUnit

/-- The transaction of `ManualCompleteTopUp`. -/
def manualBody (f : Faults) (tradeNo : String) (now : ℤ) : Body DB Err Unit := fun db =>
  match lockTopUp f db tradeNo (.text "充值订单不存在") with
  | .error e => .error e
  | .ok o =>
    if o.status = .success then .ok ((), db)
    else if o.status ≠ .pending then .error (.text "订单状态不是待支付，无法补单")
    else convertSaveCredit f o (o.manualAmount quotaPerUnit) now db

def manualCompleteTopUp (f : Faults) (tradeNo : String) (now : ℤ) (db : DB) :
    Except Err Unit × DB :=
  if tradeNo = "" then (.error (.text "未提供订单号"), db)
  else (manualBody quotaPerUnit f tradeNo now).atomically (commitErr f .topUps) db

/-! ### Everything a completion can do -/

/-- The pending order `o` is saved as successful and `c` is credited to the wallet of its user. -/
structure Credited (db db' : DB) (o : TopUp) (c : ℤ) : Prop where
  pending : o.status = .pending
  creditable : Creditable db o.userId c
  writes : ∃ (o' : TopUp) (g : User → User), o'.tradeNo = o.tradeNo ∧ o'.status = .success ∧
    (∀ u, (g u).id = u.id ∧ (g u).quota = u.quota + c) ∧
    db' = (db.saveTopUp o').updateUser o.userId g

/-- What a completion of the order `tradeNo` can come to, when it accepts the providers `fits` and
takes an order to be worth `amount`. -/
inductive Completes {α : Type} (db : DB) (tradeNo : String) (fits : PaymentProvider → Prop)
    (amount : TopUp → Decimal) : Except Err α × DB → Prop where
  | failed (e : Err) : Completes db tradeNo fits amount (.error e, db)
  /-- The order has been completed before. -/
  | done (a : α) (o : TopUp) (ho : db.topUp tradeNo = some o) (hs : o.status = .success) :
    Completes db tradeNo fits amount (.ok a, db)
  | credited (a : α) (db' : DB) (o : TopUp) (ho : db.topUp tradeNo = some o)
    (hfits : fits o.paymentProvider) (hc : Credited db db' o (amount o).round) :
    Completes db tradeNo fits amount (.ok a, db')

section Cases

variable {quotaPerUnit} {f : Faults} {db db' : DB} {tradeNo : String}

theorem lockTopUp_ok {o : TopUp} {e : Err} (h : lockTopUp f db tradeNo e = .ok o) :
    db.topUp tradeNo = some o := by
  unfold lockTopUp at h
  cases ho : db.topUp tradeNo with
  | none =>
    simp only [ho] at h
    split_ifs at h
  | some o' =>
    simp only [ho] at h
    split_ifs at h
    rw [Except.ok.inj h]

theorem quotaToAdd_ok {d : Decimal} {c : ℤ} :
    quotaToAdd d = .ok c ↔ d.round = c ∧ 0 < c ∧ c ≤ maxWalletQuota := by
  unfold quotaToAdd
  cases hw : walletQuotaFromDecimalStrict d with
  | error e =>
    refine ⟨fun h => (nomatch h), ?_⟩
    rintro ⟨hr, hpos, hmax⟩
    have hok : walletQuotaFromDecimalStrict d = .ok c :=
      walletQuotaFromDecimalStrict_ok.2 ⟨hr, by unfold maxWalletQuota; omega, hmax⟩
    rw [hw] at hok
    cases hok
  | ok n =>
    obtain ⟨hr, -, hmax⟩ := walletQuotaFromDecimalStrict_ok.1 hw
    by_cases hn : n ≤ 0
    · simp only [if_pos hn]
      exact ⟨fun h => (nomatch h), fun h => by omega⟩
    · simp only [if_neg hn, Except.ok.injEq]
      omega

/-- The two writes that end every completion. -/
theorem save_credit_ok {o o' : TopUp} {c : ℤ} {g : User → User} {db₁ : DB} {a : Unit}
    (hp : o.status = .pending) (hsave : saveTopUpRow f o' db = .ok db₁)
    (hcredit : creditTopUpQuota f o.userId c g db₁ = .ok (a, db'))
    (ht : o'.tradeNo = o.tradeNo) (hs : o'.status = .success) (hg : ∀ u, (g u).id = u.id) :
    Credited db db' o c := by
  unfold saveTopUpRow at hsave
  split_ifs at hsave
  rw [Except.ok.injEq] at hsave
  subst hsave
  obtain ⟨e, he⟩ | ⟨hc, he⟩ := credit_cases f o.userId c g (db.saveTopUp o')
  · rw [he] at hcredit
    cases hcredit
  · rw [he, Except.ok.injEq, Prod.mk.injEq] at hcredit
    exact ⟨hp, hc, o', fun u => { g u with quota := u.quota + c }, ht, hs, fun u => ⟨hg u, rfl⟩,
      hcredit.2.symm⟩

theorem convertSaveCredit_ok {o : TopUp} {d : Decimal} {now : ℤ} {a : Unit}
    (hp : o.status = .pending) (h : convertSaveCredit f o d now db = .ok (a, db')) :
    Credited db db' o d.round := by
  unfold convertSaveCredit at h
  rcases hq : quotaToAdd d with _ | c
  · rw [hq] at h; cases h
  rcases hsave : saveTopUpRow f (o.completed now) db with _ | db₁
  · simp only [hq, hsave] at h; cases h
  simp only [hq, hsave] at h
  rw [(quotaToAdd_ok.1 hq).1]
  exact save_credit_ok hp hsave h rfl rfl fun _ => rfl

theorem paidBy_same (o : TopUp) (method : String) :
    (o.paidBy method).userId = o.userId ∧ (o.paidBy method).tradeNo = o.tradeNo ∧
      (o.paidBy method).status = o.status := by
  unfold TopUp.paidBy
  split_ifs <;> exact ⟨rfl, rfl, rfl⟩

/-- The payment method is not read by the writes. -/
theorem credited_paidBy {o : TopUp} {d : Decimal} {method : String} {now : ℤ} {a : Unit}
    (hp : o.status = .pending)
    (h : convertSaveCredit f (o.paidBy method) d now db = .ok (a, db')) :
    Credited db db' o d.round := by
  obtain ⟨hu, ht, hs⟩ := paidBy_same o method
  obtain ⟨-, hc, hw⟩ := convertSaveCredit_ok (hs.trans hp) h
  rw [hu] at hc
  rw [hu, ht] at hw
  exact ⟨hp, hc, hw⟩

theorem lockPendingTopUp_ok {o : TopUp} {provider : PaymentProvider}
    (h : lockPendingTopUp f db tradeNo provider = .ok o) :
    db.topUp tradeNo = some o ∧ o.paymentProvider = provider ∧ o.status = .pending := by
  unfold lockPendingTopUp at h
  rcases hlock : lockTopUp f db tradeNo (.text "充值订单不存在") with _ | o'
  · rw [hlock] at h; cases h
  simp only [hlock] at h
  split_ifs at h with hprov hpend
  rw [Except.ok.injEq] at h
  subst h
  exact ⟨lockTopUp_ok hlock, not_not.1 hprov, not_not.1 hpend⟩

variable {α : Type} {fits : PaymentProvider → Prop} {amount : TopUp → Decimal}

/-- A transaction does what its body does, or fails. -/
theorem Completes.of_body {body : Body DB Err α} (c : Option Err)
    (h : ∀ a db', body db = .ok (a, db') → Completes db tradeNo fits amount (.ok a, db')) :
    Completes db tradeNo fits amount (body.atomically c db) := by
  obtain ⟨e, he⟩ | ⟨a, db', -, hb, he⟩ := Body.atomically_cases c body db
  · rw [he]
    exact .failed e
  · rw [he]
    exact h a db' hb

theorem Completes.hideReason {r : Except Err α × DB} (h : Completes db tradeNo fits amount r) :
    Completes db tradeNo fits amount (hideReason r) := by
  cases h with
  | failed e => exact .failed _
  | done a o ho hs => exact .done a o ho hs
  | credited a db' o ho hfits hc => exact .credited a db' o ho hfits hc

/-- **Everything `RechargeEpay` can do.** -/
theorem epay_cases (f : Faults) (tradeNo actualPaymentMethod : String) (now : ℤ) (db : DB) :
    Completes db tradeNo (· = .epay) (fun o => (Decimal.ofInt o.amount).mul quotaPerUnit)
      (rechargeEpay quotaPerUnit f tradeNo actualPaymentMethod now db) := by
  unfold rechargeEpay
  split_ifs with ht
  · exact .failed _
  refine .of_body _ fun a db' hb => ?_
  unfold epayBody at hb
  rcases hlock : lockTopUp f db tradeNo errTopUpNotFound with _ | o
  · rw [hlock] at hb; cases hb
  have ho := lockTopUp_ok hlock
  simp only [hlock] at hb
  split_ifs at hb with hprov hsucc hpend
  · rw [Except.ok.injEq, Prod.mk.injEq] at hb
    rw [← hb.2]
    exact .done a o ho hsucc
  · rw [not_not] at hprov hpend
    rcases hcredit : convertSaveCredit f (o.paidBy actualPaymentMethod)
        ((Decimal.ofInt o.amount).mul quotaPerUnit) now db with _ | r
    · rw [hcredit] at hb; cases hb
    obtain ⟨u, db₁⟩ := r
    rw [hcredit, Except.ok.injEq, Prod.mk.injEq] at hb
    rw [← hb.2]
    exact .credited a db₁ o ho hprov (credited_paidBy hpend hcredit)

/-- **Everything `Recharge` can do.** -/
theorem stripe_cases (f : Faults) (referenceId customerId : String) (now : ℤ) (db : DB) :
    Completes db referenceId (· = .stripe) (fun o => o.money.mul quotaPerUnit)
      (recharge quotaPerUnit f referenceId customerId now db) := by
  unfold recharge
  split_ifs with ht
  · exact .failed _
  refine Completes.hideReason (.of_body _ fun a db' hb => ?_)
  unfold stripeBody at hb
  rcases hlock : lockPendingTopUp f db referenceId .stripe with _ | o
  · rw [hlock] at hb; cases hb
  obtain ⟨ho, hprov, hpend⟩ := lockPendingTopUp_ok hlock
  rcases hsave : saveTopUpRow f (o.completed now) db with _ | db₁
  · simp only [hlock, hsave] at hb; cases hb
  rcases hq : quotaToAdd (o.money.mul quotaPerUnit) with _ | c
  · simp only [hlock, hsave, hq] at hb; cases hb
  simp only [hlock, hsave, hq] at hb
  refine .credited a db' o ho hprov ?_
  rw [(quotaToAdd_ok.1 hq).1]
  exact save_credit_ok hpend hsave hb rfl rfl fun _ => rfl

theorem creemUpdates_id {userId : ℤ} {customerEmail : String} {g : User → User}
    (h : creemUpdates f db userId customerEmail = .ok g) (u : User) : (g u).id = u.id := by
  unfold creemUpdates at h
  cases hu : db.user userId with
  | none =>
    simp only [hu] at h
    split_ifs at h
    cases h
    rfl
  | some user =>
    simp only [hu] at h
    split_ifs at h
    all_goals
      cases h
      rfl

/-- **Everything `RechargeCreem` can do.** -/
theorem creem_cases (f : Faults) (referenceId customerEmail : String) (now : ℤ) (db : DB) :
    Completes db referenceId (· = .creem) (fun o => Decimal.ofInt o.amount)
      (rechargeCreem f referenceId customerEmail now db) := by
  unfold rechargeCreem
  split_ifs with ht
  · exact .failed _
  refine Completes.hideReason (.of_body _ fun a db' hb => ?_)
  unfold creemBody at hb
  rcases hlock : lockPendingTopUp f db referenceId .creem with _ | o
  · rw [hlock] at hb; cases hb
  obtain ⟨ho, hprov, hpend⟩ := lockPendingTopUp_ok hlock
  rcases hsave : saveTopUpRow f (o.completed now) db with _ | db₁
  · simp only [hlock, hsave] at hb; cases hb
  rcases hq : quotaToAdd (Decimal.ofInt o.amount) with _ | c
  · simp only [hlock, hsave, hq] at hb; cases hb
  rcases hup : creemUpdates f db₁ o.userId customerEmail with _ | g
  · simp only [hlock, hsave, hq, hup] at hb; cases hb
  simp only [hlock, hsave, hq, hup] at hb
  refine .credited a db' o ho hprov ?_
  rw [(quotaToAdd_ok.1 hq).1]
  exact save_credit_ok hpend hsave hb rfl rfl (creemUpdates_id hup)

/-- **Everything `RechargeWaffo` and `RechargeWaffoPancake` can do.** -/
theorem waffo_cases (provider : PaymentProvider) (f : Faults) (tradeNo : String) (now : ℤ)
    (db : DB) :
    Completes db tradeNo (· = provider) (fun o => (Decimal.ofInt o.amount).mul quotaPerUnit)
      (rechargeWaffoFor quotaPerUnit provider f tradeNo now db) := by
  unfold rechargeWaffoFor
  split_ifs with ht
  · exact .failed _
  refine Completes.hideReason (.of_body _ fun a db' hb => ?_)
  unfold waffoBody at hb
  rcases hlock : lockTopUp f db tradeNo (.text "充值订单不存在") with _ | o
  · rw [hlock] at hb; cases hb
  have ho := lockTopUp_ok hlock
  simp only [hlock] at hb
  split_ifs at hb with hprov hsucc hpend
  · rw [Except.ok.injEq, Prod.mk.injEq] at hb
    rw [← hb.2]
    exact .done a o ho hsucc
  · rw [not_not] at hprov hpend
    exact .credited a db' o ho hprov (convertSaveCredit_ok hpend hb)

/-- **Everything `ManualCompleteTopUp` can do**: it accepts the orders of every provider. -/
theorem manual_cases (f : Faults) (tradeNo : String) (now : ℤ) (db : DB) :
    Completes db tradeNo (fun _ => True) (fun o => o.manualAmount quotaPerUnit)
      (manualCompleteTopUp quotaPerUnit f tradeNo now db) := by
  unfold manualCompleteTopUp
  split_ifs with ht
  · exact .failed _
  refine .of_body _ fun a db' hb => ?_
  unfold manualBody at hb
  rcases hlock : lockTopUp f db tradeNo (.text "充值订单不存在") with _ | o
  · rw [hlock] at hb; cases hb
  have ho := lockTopUp_ok hlock
  simp only [hlock] at hb
  split_ifs at hb with hsucc hpend
  · rw [Except.ok.injEq, Prod.mk.injEq] at hb
    rw [← hb.2]
    exact .done a o ho hsucc
  · rw [not_not] at hpend
    exact .credited a db' o ho trivial (convertSaveCredit_ok hpend hb)

end Cases

/-! ### The gateways -/

/-- The gateways that complete top-up orders. -/
inductive Gateway where
  | epay | stripe | creem | waffo | waffoPancake
  deriving DecidableEq

/-- What a callback brings beside the trade number; every gateway reads its own part. -/
structure CallbackDetails where
  actualPaymentMethod : String
  customerId : String
  customerEmail : String
  now : ℤ

namespace Gateway

/-- The provider of the orders of a gateway. -/
def provider : Gateway → PaymentProvider
  | epay => .epay
  | stripe => .stripe
  | creem => .creem
  | waffo => .waffo
  | waffoPancake => .waffoPancake

/-- The gateway's own completion. -/
def complete (g : Gateway) (f : Faults) (tradeNo : String) (c : CallbackDetails) (db : DB) :
    Except Err Unit × DB :=
  match g with
  | epay =>
    let r := rechargeEpay quotaPerUnit f tradeNo c.actualPaymentMethod c.now db
    (r.1.map fun _ => (), r.2)
  | stripe => recharge quotaPerUnit f tradeNo c.customerId c.now db
  | creem => rechargeCreem f tradeNo c.customerEmail c.now db
  | waffo => rechargeWaffo quotaPerUnit f tradeNo c.now db
  | waffoPancake => rechargeWaffoPancake quotaPerUnit f tradeNo c.now db

/-- What the gateway takes an order to be worth. -/
def amount (g : Gateway) (o : TopUp) : Decimal :=
  match g with
  | stripe => o.money.mul quotaPerUnit
  | creem => .ofInt o.amount
  | _ => (Decimal.ofInt o.amount).mul quotaPerUnit

end Gateway

section Verdict

variable {quotaPerUnit} {f : Faults} {db : DB} {tradeNo : String} {α : Type}
  {fits : PaymentProvider → Prop} {amount : TopUp → Decimal}

/-- **Everything the completion of a gateway can do.** -/
theorem gateway_cases (g : Gateway) (f : Faults) (tradeNo : String) (c : CallbackDetails)
    (db : DB) : Completes db tradeNo (· = g.provider) (g.amount quotaPerUnit)
      (g.complete quotaPerUnit f tradeNo c db) := by
  cases g with
  | epay =>
    have h : Completes db tradeNo (· = .epay) (Gateway.epay.amount quotaPerUnit)
        (rechargeEpay quotaPerUnit f tradeNo c.actualPaymentMethod c.now db) :=
      epay_cases f tradeNo c.actualPaymentMethod c.now db
    unfold Gateway.complete
    cases hr : rechargeEpay quotaPerUnit f tradeNo c.actualPaymentMethod c.now db with
    | mk r db' =>
      rw [hr] at h
      cases h with
      | failed e => exact .failed e
      | done a o ho hs => exact .done () o ho hs
      | credited a db' o ho hfits hc => exact .credited () db' o ho hfits hc
  | stripe => exact stripe_cases f tradeNo c.customerId c.now db
  | creem => exact creem_cases f tradeNo c.customerEmail c.now db
  | waffo => exact waffo_cases .waffo f tradeNo c.now db
  | waffoPancake => exact waffo_cases .waffoPancake f tradeNo c.now db

theorem Credited.wallet {db' : DB} {o : TopUp} {c : ℤ} (h : Credited db db' o c) (v : ℤ) :
    db'.wallet v = (db.wallet v).map fun w => if v = o.userId then w + c else w := by
  obtain ⟨o', g, -, -, hg, rfl⟩ := h.writes
  exact wallet_add hg v

theorem Completes.of_error {r : Except Err α × DB} (h : Completes db tradeNo fits amount r)
    (hr : r.1.isOk = false) : r.2 = db := by
  cases h with
  | failed e => rfl
  | done | credited => cases hr

theorem Completes.of_pending {r : Except Err α × DB} {o : TopUp}
    (h : Completes db tradeNo fits amount r) (ho : db.topUp tradeNo = some o)
    (hp : o.status = .pending) (hr : r.1.isOk = true) : Credited db r.2 o (amount o).round := by
  cases h with
  | failed e => cases hr
  | done a o' ho' hs =>
    rw [ho, Option.some.injEq] at ho'
    rw [← ho', hp] at hs
    cases hs
  | credited a db' o' ho' hfits hc =>
    rw [ho, Option.some.injEq] at ho'
    rw [ho']
    exact hc

/-! ### Completions without failing statements -/

variable {o : TopUp}

theorem lockTopUp_none (ho : db.topUp tradeNo = some o) (e : Err) :
    lockTopUp .none db tradeNo e = .ok o := by
  simp [lockTopUp, Faults.none, ho]

theorem saveTopUpRow_none (o : TopUp) (db : DB) : saveTopUpRow .none o db = .ok (db.saveTopUp o) :=
  rfl

theorem lockPendingTopUp_none {provider : PaymentProvider} (ho : db.topUp tradeNo = some o)
    (hprov : o.paymentProvider = provider) (hp : o.status = .pending) :
    lockPendingTopUp .none db tradeNo provider = .ok o := by
  simp [lockPendingTopUp, lockTopUp_none ho, hprov, hp]

theorem quotaToAdd_creditable {d : Decimal} {userId : ℤ} (h : Creditable db userId d.round) :
    quotaToAdd d = .ok d.round :=
  quotaToAdd_ok.2 ⟨rfl, h.1, h.2.1⟩

theorem credit_after_save {userId c : ℤ} (o' : TopUp) (g : User → User)
    (h : Creditable db userId c) :
    ∃ db', creditTopUpQuota .none userId c g (db.saveTopUp o') = .ok ((), db') := by
  obtain ⟨⟨_, db'⟩, hr⟩ := (credit_none_iff userId c g (db.saveTopUp o')).2 h
  exact ⟨db', hr⟩

theorem convertSaveCredit_none {d : Decimal} (now : ℤ) (h : Creditable db o.userId d.round) :
    ∃ db', convertSaveCredit .none o d now db = .ok ((), db') := by
  obtain ⟨db', hr⟩ := credit_after_save (o.completed now) id h
  refine ⟨db', ?_⟩
  simp only [convertSaveCredit, quotaToAdd_creditable h, saveTopUpRow_none]
  exact hr

theorem hideReason_isOk (r : Except Err α × DB) : (hideReason r).1.isOk = r.1.isOk := by
  obtain ⟨r, db⟩ := r
  cases r <;> rfl

/-- A transaction whose body goes through with no statement failing is accepted. -/
theorem isOk_of_body {body : Body DB Err α} {a : α} {db' : DB} (h : body db = .ok (a, db')) :
    (body.atomically (commitErr .none .topUps) db).1.isOk = true := by
  rw [commitErr_none, Body.atomically_of_ok h]
  rfl

theorem epay_accepts (method : String) (now : ℤ) (ht : tradeNo ≠ "")
    (ho : db.topUp tradeNo = some o) (hp : o.status = .pending)
    (hprov : o.paymentProvider = .epay)
    (hc : Creditable db o.userId ((Decimal.ofInt o.amount).mul quotaPerUnit).round) :
    (rechargeEpay quotaPerUnit .none tradeNo method now db).1.isOk = true := by
  rw [← (paidBy_same o method).1] at hc
  obtain ⟨db', hr⟩ := convertSaveCredit_none now hc
  have hb : epayBody quotaPerUnit .none tradeNo method now db = .ok (false, db') := by
    simp [epayBody, lockTopUp_none ho, hprov, hp, hr]
  rw [rechargeEpay, if_neg ht]
  exact isOk_of_body hb

theorem stripe_accepts (customerId : String) (now : ℤ) (ht : tradeNo ≠ "")
    (ho : db.topUp tradeNo = some o) (hp : o.status = .pending)
    (hprov : o.paymentProvider = .stripe)
    (hc : Creditable db o.userId (o.money.mul quotaPerUnit).round) :
    (recharge quotaPerUnit .none tradeNo customerId now db).1.isOk = true := by
  obtain ⟨db', hr⟩ := credit_after_save (o.completed now)
    (fun u => { u with stripeCustomer := customerId }) hc
  have hb : stripeBody quotaPerUnit .none tradeNo customerId now db = .ok ((), db') := by
    simp only [stripeBody, lockPendingTopUp_none ho hprov hp, saveTopUpRow_none,
      quotaToAdd_creditable hc]
    exact hr
  rw [recharge, if_neg ht, hideReason_isOk]
  exact isOk_of_body hb

theorem creem_accepts (customerEmail : String) (now : ℤ) (ht : tradeNo ≠ "")
    (ho : db.topUp tradeNo = some o) (hp : o.status = .pending)
    (hprov : o.paymentProvider = .creem)
    (hc : Creditable db o.userId (Decimal.ofInt o.amount).round) :
    (rechargeCreem .none tradeNo customerEmail now db).1.isOk = true := by
  -- the user is there, so the email is looked up without an error
  obtain ⟨-, -, user, hu, -⟩ := id hc
  have hup : ∃ g, creemUpdates .none (db.saveTopUp (o.completed now)) o.userId customerEmail =
      .ok g := by
    have hu' : (db.saveTopUp (o.completed now)).user o.userId = some user := hu
    by_cases he : customerEmail = ""
    · exact ⟨_, by rw [creemUpdates, if_pos he]⟩
    · refine ⟨if user.email = "" then fun u => { u with email := customerEmail } else id, ?_⟩
      simp [creemUpdates, he, Faults.none, hu']
  obtain ⟨g, hg⟩ := hup
  obtain ⟨db', hr⟩ := credit_after_save (o.completed now) g hc
  have hb : creemBody .none tradeNo customerEmail now db = .ok ((), db') := by
    simp only [creemBody, lockPendingTopUp_none ho hprov hp, saveTopUpRow_none,
      quotaToAdd_creditable hc, hg]
    exact hr
  rw [rechargeCreem, if_neg ht, hideReason_isOk]
  exact isOk_of_body hb

theorem waffo_accepts (provider : PaymentProvider) (now : ℤ) (ht : tradeNo ≠ "")
    (ho : db.topUp tradeNo = some o) (hp : o.status = .pending)
    (hprov : o.paymentProvider = provider)
    (hc : Creditable db o.userId ((Decimal.ofInt o.amount).mul quotaPerUnit).round) :
    (rechargeWaffoFor quotaPerUnit provider .none tradeNo now db).1.isOk = true := by
  obtain ⟨db', hr⟩ := convertSaveCredit_none now hc
  have hb : waffoBody quotaPerUnit provider .none tradeNo now db = .ok ((), db') := by
    simp [waffoBody, lockTopUp_none ho, hprov, hp, hr]
  rw [rechargeWaffoFor, if_neg ht, hideReason_isOk]
  exact isOk_of_body hb

theorem manual_accepts (now : ℤ) (ht : tradeNo ≠ "") (ho : db.topUp tradeNo = some o)
    (hp : o.status = .pending) (hc : Creditable db o.userId (o.manualAmount quotaPerUnit).round) :
    (manualCompleteTopUp quotaPerUnit .none tradeNo now db).1.isOk = true := by
  obtain ⟨db', hr⟩ := convertSaveCredit_none now hc
  have hb : manualBody quotaPerUnit .none tradeNo now db = .ok ((), db') := by
    simp [manualBody, lockTopUp_none ho, hp, hr]
  rw [manualCompleteTopUp, if_neg ht]
  exact isOk_of_body hb

/-- A pending order whose worth can be credited is completed by its gateway. -/
theorem gateway_accepts (g : Gateway) (c : CallbackDetails) (ht : tradeNo ≠ "")
    (ho : db.topUp tradeNo = some o) (hp : o.status = .pending)
    (hprov : o.paymentProvider = g.provider)
    (hc : Creditable db o.userId (g.amount quotaPerUnit o).round) :
    (g.complete quotaPerUnit .none tradeNo c db).1.isOk = true := by
  cases g with
  | epay =>
    have h := epay_accepts c.actualPaymentMethod c.now ht ho hp hprov hc
    simp only [Gateway.complete]
    cases hr : (rechargeEpay quotaPerUnit .none tradeNo c.actualPaymentMethod c.now db).1 with
    | error e => rw [hr] at h; cases h
    | ok a => rfl
  | stripe => exact stripe_accepts c.customerId c.now ht ho hp hprov hc
  | creem => exact creem_accepts c.customerEmail c.now ht ho hp hprov hc
  | waffo => exact waffo_accepts .waffo c.now ht ho hp hprov hc
  | waffoPancake => exact waffo_accepts .waffoPancake c.now ht ho hp hprov hc

/-! ### Manual and automatic completion -/

/-- Two completions of one order from the same database: both reject it, or both credit the same. -/
def Agree (r r' : Except Err Unit × DB) : Prop :=
  r.1.isOk = r'.1.isOk ∧ ∀ v, r.2.wallet v = r'.2.wallet v

/-- Completions that accept a pending order whenever its worth can be credited agree iff they take
it to be worth the same, or can credit neither worth. -/
theorem agree_iff {fits' : PaymentProvider → Prop} {amount' : TopUp → Decimal}
    {r r' : Except Err Unit × DB} (ho : db.topUp tradeNo = some o) (hp : o.status = .pending)
    (h : Completes db tradeNo fits amount r) (h' : Completes db tradeNo fits' amount' r')
    (hacc : Creditable db o.userId (amount o).round → r.1.isOk = true)
    (hacc' : Creditable db o.userId (amount' o).round → r'.1.isOk = true) :
    Agree r r' ↔ (amount o).round = (amount' o).round ∨
      ¬ Creditable db o.userId (amount o).round ∧ ¬ Creditable db o.userId (amount' o).round := by
  have hiff : r.1.isOk = true ↔ Creditable db o.userId (amount o).round :=
    ⟨fun hr => (h.of_pending ho hp hr).creditable, hacc⟩
  have hiff' : r'.1.isOk = true ↔ Creditable db o.userId (amount' o).round :=
    ⟨fun hr => (h'.of_pending ho hp hr).creditable, hacc'⟩
  constructor
  · rintro ⟨hok, hw⟩
    by_cases hr : r.1.isOk = true
    · -- both credit: the wallet of the user shows the two worths
      have hr' : r'.1.isOk = true := hok ▸ hr
      obtain ⟨-, -, user, hu, -⟩ := hiff.1 hr
      have hv := hw o.userId
      rw [(h.of_pending ho hp hr).wallet, (h'.of_pending ho hp hr').wallet, DB.wallet, hu] at hv
      simp only [Option.map_some, if_true, Option.some.injEq] at hv
      exact .inl (by omega)
    · refine .inr ⟨fun hc => hr (hacc hc), fun hc => hr ?_⟩
      rw [hok]
      exact hacc' hc
  · intro hcond
    have hsame : r.1.isOk = r'.1.isOk := by
      rw [Bool.eq_iff_iff, hiff, hiff']
      obtain heq | ⟨hn, hn'⟩ := hcond
      · rw [heq]
      · exact ⟨fun hc => absurd hc hn, fun hc => absurd hc hn'⟩
    refine ⟨hsame, fun v => ?_⟩
    cases hr : r.1.isOk with
    | false => rw [h.of_error hr, h'.of_error (hsame ▸ hr)]
    | true =>
      have hr' : r'.1.isOk = true := hsame ▸ hr
      obtain heq | ⟨hn, -⟩ := hcond
      · rw [(h.of_pending ho hp hr).wallet, (h'.of_pending ho hp hr').wallet, heq]
      · exact absurd (hiff.1 hr) hn

/-- Every gateway but Creem takes an order to be worth what the manual completion takes it for. -/
theorem manualAmount_eq {g : Gateway} (hg : g ≠ .creem) (hprov : o.paymentProvider = g.provider) :
    o.manualAmount quotaPerUnit = g.amount quotaPerUnit o := by
  cases g with
  | creem => exact absurd rfl hg
  | stripe | epay | waffo | waffoPancake => rw [TopUp.manualAmount, hprov]; rfl

end Verdict

/-- **The manual completion against the gateway's own.**  For a pending order, the two agree exactly
when the order is not one of Creem, or its amount is the same in dollars as in quota, or neither
figure can be credited to the wallet as it stands; an order without a trade number is rejected by
both. -/
theorem manual_agrees_iff (g : Gateway) (c : CallbackDetails) (now : ℤ) (db : DB)
    (tradeNo : String) (o : TopUp) (ho : db.topUp tradeNo = some o) (hp : o.status = .pending)
    (hprov : o.paymentProvider = g.provider) :
    Agree (manualCompleteTopUp quotaPerUnit .none tradeNo now db)
        (g.complete quotaPerUnit .none tradeNo c db) ↔
      tradeNo = "" ∨ g ≠ .creem ∨ ((Decimal.ofInt o.amount).mul quotaPerUnit).round = o.amount ∨
        ¬ Creditable db o.userId ((Decimal.ofInt o.amount).mul quotaPerUnit).round ∧
          ¬ Creditable db o.userId o.amount := by
  by_cases ht : tradeNo = ""
  · refine ⟨fun _ => .inl ht, fun _ => ?_⟩
    subst ht
    have hmanual : manualCompleteTopUp quotaPerUnit .none "" now db =
        (.error (.text "未提供订单号"), db) := rfl
    have hown : g.complete quotaPerUnit .none "" c db = (.error (.text "未提供支付单号"), db) := by
      cases g <;> rfl
    rw [hmanual, hown]
    exact ⟨rfl, fun _ => rfl⟩
  · refine (agree_iff ho hp (manual_cases .none tradeNo now db)
      (gateway_cases g .none tradeNo c db) (manual_accepts now ht ho hp)
      (gateway_accepts g c ht ho hp hprov)).trans ?_
    by_cases hg : g = .creem
    · subst hg
      have hworth : o.manualAmount quotaPerUnit = (Decimal.ofInt o.amount).mul quotaPerUnit := by
        rw [TopUp.manualAmount, hprov]
        rfl
      have hown : (Gateway.creem.amount quotaPerUnit o).round = o.amount := Decimal.round_ofInt _
      rw [hworth, hown]
      simp [ht]
    · simp [manualAmount_eq hg hprov, hg]

/-- A pending order of a thousand, paid through a provider. -/
def pendingOrder (provider : PaymentProvider) : TopUp where
  userId := 7
  amount := 1000
  money := .ofInt 10
  tradeNo := "T1"
  paymentMethod := ""
  paymentProvider := provider
  createTime := 50
  completeTime := 0
  status := .pending

/-- A user with an empty wallet and this order. -/
def orderDB (provider : PaymentProvider) : DB :=
  { DB.empty with
    users := [⟨7, 0, 0, 0, "default", "", ""⟩]
    topUps := [pendingOrder provider] }

/-- A Waffo order: both completions credit the same. -/
theorem manual_agrees_iff_waffo :
    (orderDB .waffo).topUp "T1" = some (pendingOrder .waffo) ∧
      Agree (manualCompleteTopUp (.ofInt 500) .none "T1" 60 (orderDB .waffo))
        (Gateway.waffo.complete (.ofInt 500) .none "T1" ⟨"", "", "", 60⟩ (orderDB .waffo)) :=
  ⟨by decide, (manual_agrees_iff (.ofInt 500) .waffo ⟨"", "", "", 60⟩ 60 (orderDB .waffo) "T1"
    (pendingOrder .waffo) (by decide) rfl rfl).2 (.inr (.inl (by decide)))⟩

/-- A Creem order of a thousand units of quota: the callback credits them, the manual completion
takes them for dollars. -/
theorem creem_manual_credits_more :
    (rechargeCreem .none "T1" "" 60 (orderDB .creem)).2.wallet 7 = some 1000 ∧
      (manualCompleteTopUp (.ofInt 500) .none "T1" 60 (orderDB .creem)).2.wallet 7 = some 500000 ∧
      ¬ Agree (manualCompleteTopUp (.ofInt 500) .none "T1" 60 (orderDB .creem))
        (Gateway.creem.complete (.ofInt 500) .none "T1" ⟨"", "", "", 60⟩ (orderDB .creem)) := by
  refine ⟨by decide, by decide, fun h => ?_⟩
  exact absurd (h.2 7) (by decide)

end NexusTok
