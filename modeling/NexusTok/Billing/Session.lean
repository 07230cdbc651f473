import NexusTok.Subscription.Refund
import NexusTok.Wallet.Ledger

/-!
# Billing sessions

A request is billed through a session.  `NewBillingSession` chooses a funding source by the user's
preference and pre-consumes an estimate from the token and from the source; `Reserve` raises the
estimate; `Settle` corrects it to the real cost; `Refund` gives it back.

What the database and Redis answer on the way is an argument (`Answers`): which statements fail, and
who admits a reservation.  The asynchronous part of `Refund` runs at once.
-/

namespace NexusTok

/-! ### Data -/

/-- Error codes of the API. -/
inductive ErrorCode where
  | queryDataError | updateDataError | insufficientUserQuota | preConsumeTokenQuotaFailed
  deriving DecidableEq

/-- `NewAPIError`. -/
structure ApiErr where
  code : ErrorCode
  statusCode : ℕ
  err : Err
  deriving DecidableEq

/-- The preferences of `NormalizeBillingPreference`. -/
inductive BillingPreference where
  | subscriptionFirst | walletFirst | subscriptionOnly | walletOnly
  deriving DecidableEq

def normalizeBillingPreference (pref : String) : BillingPreference :=
  let p := trimSpace pref
  if p = "wallet_first" then .walletFirst
  else if p = "subscription_only" then .subscriptionOnly
  else if p = "wallet_only" then .walletOnly
  else .subscriptionFirst

/-- The part of `RelayInfo` that billing reads and writes. -/
structure RelayInfo where
  userId : ℤ
  tokenId : ℤ
  requestId : String
  billingPreference : String
  isPlayground : Bool
  tokenUnlimited : Bool
  forcePreConsume : Bool
  /-- `token_quota` of the request context. -/
  tokenQuota : ℤ
  userQuota : ℤ
  finalPreConsumedQuota : ℤ
  subscriptionId : ℤ
  subscriptionPreConsumed : ℤ
  subscriptionPostDelta : ℤ
  subscriptionAmountTotal : ℤ
  subscriptionAmountUsedAfterPreConsume : ℤ
  deriving DecidableEq

/-- `SubscriptionFunding`; the plan it keeps for the log is left out. -/
structure SubscriptionFunding where
  requestId : String
  userId : ℤ
  amount : ℤ
  subscriptionId : ℤ
  preConsumed : ℤ
  amountTotal : ℤ
  amountUsedAfter : ℤ
  deriving DecidableEq

/-- `FundingSource`. -/
inductive Funding where
  | wallet (userId consumed : ℤ)
  | subscription (s : SubscriptionFunding)
  deriving DecidableEq

structure BillingSession where
  relayInfo : RelayInfo
  funding : Funding
  preConsumedQuota : ℤ
  tokenConsumed : ℤ
  extraReserved : ℤ
  trusted : Bool
  fundingSettled : Bool
  settled : Bool
  refunded : Bool
  deriving DecidableEq

/-- A session before its `preConsume`. -/
def BillingSession.new (info : RelayInfo) (funding : Funding) : BillingSession :=
  ⟨info, funding, 0, 0, 0, false, false, false, false⟩

/-- What does not change while the process runs. -/
structure Env where
  setup : Setup
  loc : Location
  /-- `GetTrustQuota`. -/
  trustQuota : ℤ
  /-- `FormatQuota`, which depends on the currency the site shows. -/
  formatQuota : ℤ → String

/-- What the database and Redis answer to one attempt to pre-consume or reserve. -/
structure Answers where
  /-- What Redis answers to `GetUserQuota`, if it is on. -/
  userQuota : Option (Except Err ℤ)
  token : Admission
  wallet : Admission
  tokenFaults : Faults
  fundingFaults : Faults
  rollbackFaults : Faults
  now : ℤ

variable (env : Env)

/-! ### Pre-consuming -/

/-- The text of an error. -/
def Err.message : Err → String
  | .text m => m
  | _ => ""

/-- `strings.Contains`. -/
def contains (s sub : String) : Bool := decide (sub.toList <:+: s.toList)

def errInsufficientWalletQuota : Err := .text "wallet quota insufficient"

variable (ans : Answers)

/-- `GetUserQuota`; a user that is not there has none. -/
def getUserQuota (id : ℤ) (l : Ledger) : Except Err ℤ :=
  match ans.userQuota with
  | some answer => answer
  | none =>
    if ans.fundingFaults ⟨.find, .users, id⟩ then .error (.db ⟨.find, .users, id⟩)
    else .ok ((l.db.wallet id).getD 0)

def preConsumeTokenQuota (info : RelayInfo) (quota : ℤ) (l : Ledger) : Except Err Ledger :=
  if quota < 0 then .error errNegativeQuota
  else if info.isPlayground then .ok l
  else
    match tryReserveTokenQuota env.setup ans.tokenFaults ans.token info.tokenId quota
        info.tokenUnlimited l with
    | .error e => .error e
    | .ok (true, l') => .ok l'
    | .ok (false, _) =>
      .error (.text ("token quota is not enough, token remain quota: " ++
        env.formatQuota (((l.db.token info.tokenId).map Token.remainQuota).getD 0) ++
        ", need quota: " ++ env.formatQuota quota))

/-- `WalletFunding.PreConsume`. -/
def walletPreConsume (userId consumed amount : ℤ) (l : Ledger) : Except Err Funding × Ledger :=
  if amount ≤ 0 then (.ok (.wallet userId consumed), l)
  else
    match tryReserveUserQuota env.setup ans.fundingFaults ans.wallet userId amount l with
    | .error e => (.error e, l)
    | .ok (false, l') => (.error errInsufficientWalletQuota, l')
    | .ok (true, l') => (.ok (.wallet userId amount), l')

/-- The call a subscription is pre-consumed by. -/
def SubscriptionFunding.args (s : SubscriptionFunding) (now : ℤ) : PreConsumeArgs :=
  ⟨s.requestId, s.userId, s.amount, now⟩

/-- The funding with what the pre-consume reports. -/
def SubscriptionFunding.filled (s : SubscriptionFunding) (res : SubscriptionPreConsumeResult) :
    SubscriptionFunding :=
  { s with
    subscriptionId := res.userSubscriptionId
    preConsumed := res.preConsumed
    amountTotal := res.amountTotal
    amountUsedAfter := res.amountUsedAfter }

/-- `SubscriptionFunding.PreConsume`; the amount it is called with is ignored. -/
def subscriptionPreConsume (s : SubscriptionFunding) (l : Ledger) : Except Err Funding × Ledger :=
  match preConsumeUserSubscription ans.fundingFaults env.loc (s.args ans.now) l.db with
  | (.error e, db) => (.error e, { l with db := db })
  | (.ok res, db) => (.ok (.subscription (s.filled res)), { l with db := db })

/-- `FundingSource.PreConsume`. -/
def Funding.preConsume (amount : ℤ) (l : Ledger) : Funding → Except Err Funding × Ledger
  | .wallet userId consumed => walletPreConsume env ans userId consumed amount l
  | .subscription s => subscriptionPreConsume env ans s l

namespace BillingSession

/-- `shouldTrust`; a subscription is never trusted. -/
def shouldTrust (s : BillingSession) : Bool :=
  if s.relayInfo.forcePreConsume then false
  else if env.trustQuota ≤ 0 then false
  else if !(s.relayInfo.tokenUnlimited || decide (env.trustQuota < s.relayInfo.tokenQuota)) then
    false
  else
    match s.funding with
    | .wallet _ _ => decide (env.trustQuota < s.relayInfo.userQuota)
    | .subscription _ => false

def syncRelayInfo (s : BillingSession) : BillingSession :=
  match s.funding with
  | .subscription sub =>
    { s with relayInfo := { s.relayInfo with
        finalPreConsumedQuota := s.preConsumedQuota
        subscriptionId := sub.subscriptionId
        subscriptionPreConsumed := sub.preConsumed + s.extraReserved
        subscriptionPostDelta := 0
        subscriptionAmountTotal := sub.amountTotal
        subscriptionAmountUsedAfterPreConsume := sub.amountUsedAfter + s.extraReserved } }
  | .wallet _ _ =>
    { s with relayInfo := { s.relayInfo with
        finalPreConsumedQuota := s.preConsumedQuota
        subscriptionId := 0
        subscriptionPreConsumed := 0 } }

@[simp] theorem syncRelayInfo_funding (s : BillingSession) :
    s.syncRelayInfo.funding = s.funding := by
  unfold syncRelayInfo
  cases s.funding <;> rfl

@[simp] theorem syncRelayInfo_preConsumedQuota (s : BillingSession) :
    s.syncRelayInfo.preConsumedQuota = s.preConsumedQuota := by
  unfold syncRelayInfo
  cases s.funding <;> rfl

@[simp] theorem syncRelayInfo_trusted (s : BillingSession) :
    s.syncRelayInfo.trusted = s.trusted := by
  unfold syncRelayInfo
  cases s.funding <;> rfl

/-- The error a failed funding source is reported as. -/
def fundingErr (s : BillingSession) (l : Ledger) (e : Err) : ApiErr :=
  if e = errInsufficientWalletQuota then
    ⟨.insufficientUserQuota, 403, .text ("用户额度不足, 剩余额度: " ++
      env.formatQuota (match getUserQuota ans s.relayInfo.userId l with
        | .ok q => q
        | .error _ => 0))⟩
  else if contains e.message "no active subscription" ||
      contains e.message "subscription quota insufficient" then
    ⟨.insufficientUserQuota, 403, .text ("订阅额度不足或未配置订阅: " ++ e.message)⟩
  else ⟨.updateDataError, 500, e⟩

/-- The quota that is really pre-consumed: nothing for a trusted session. -/
def effectiveQuota (s : BillingSession) (quota : ℤ) : ℤ := if s.shouldTrust env then 0 else quota

/-- The token step of `preConsume`. -/
def preConsumeToken (s : BillingSession) (effectiveQuota : ℤ) (l : Ledger) : Except Err Ledger :=
  if 0 < effectiveQuota then preConsumeTokenQuota env ans s.relayInfo effectiveQuota l else .ok l

/-- The rollback of the token step; an error is logged and dropped. -/
def rollbackToken (s : BillingSession) (effectiveQuota : ℤ) (l : Ledger) : Ledger :=
  if 0 < effectiveQuota ∧ s.relayInfo.isPlayground = false then
    l.after
      (increaseTokenQuota env.setup ans.rollbackFaults s.relayInfo.tokenId effectiveQuota l)
  else l

/-- The session after a pre-consume that went through. -/
def opened (s : BillingSession) (funding : Funding) (effectiveQuota : ℤ) : BillingSession :=
  syncRelayInfo { s with
    funding := funding
    trusted := s.shouldTrust env
    tokenConsumed := max effectiveQuota 0
    preConsumedQuota := effectiveQuota }

/-- `preConsume`: the token first, then the funding source. -/
def preConsume (s : BillingSession) (quota : ℤ) (l : Ledger) :
    Except ApiErr BillingSession × Ledger :=
  let effective := s.effectiveQuota env quota
  match s.preConsumeToken env ans effective l with
  | .error e => (.error ⟨.preConsumeTokenQuotaFailed, 403, e⟩, l)
  | .ok l₁ =>
    match s.funding.preConsume env ans effective l₁ with
    | (.error e, l₂) =>
      (.error (s.fundingErr env ans l₂ e), s.rollbackToken env ans effective l₂)
    | (.ok funding, l₂) => (.ok (s.opened env funding effective), l₂)

end BillingSession

/-! ### Opening a session -/

/-- The wallet path of `NewBillingSession`. -/
def tryWallet (info : RelayInfo) (preConsumedQuota : ℤ) (l : Ledger) :
    Except ApiErr BillingSession × Ledger :=
  match getUserQuota ans info.userId l with
  | .error e => (.error ⟨.queryDataError, 500, e⟩, l)
  | .ok userQuota =>
    if userQuota ≤ 0 then
      (.error ⟨.insufficientUserQuota, 403,
        .text ("用户额度不足, 剩余额度: " ++ env.formatQuota userQuota)⟩, l)
    else if userQuota - preConsumedQuota < 0 then
      (.error ⟨.insufficientUserQuota, 403,
        .text ("预扣费额度失败, 用户剩余额度: " ++ env.formatQuota userQuota ++
          ", 需要预扣费额度: " ++ env.formatQuota preConsumedQuota)⟩, l)
    else
      (BillingSession.new { info with userQuota := userQuota } (.wallet info.userId 0)).preConsume
        env ans preConsumedQuota l

/-- What a subscription is charged at least. -/
def subConsume (preConsumedQuota : ℤ) : ℤ := if preConsumedQuota ≤ 0 then 1 else preConsumedQuota

/-- The subscription path of `NewBillingSession`. -/
def trySubscription (info : RelayInfo) (preConsumedQuota : ℤ) (l : Ledger) :
    Except ApiErr BillingSession × Ledger :=
  (BillingSession.new info (.subscription
    ⟨info.requestId, info.userId, subConsume preConsumedQuota, 0, 0, 0, 0⟩)).preConsume env ans
      (subConsume preConsumedQuota) l

variable (f : Faults)

def hasActiveUserSubscription (userId now : ℤ) (db : DB) : Except Err Bool :=
  if userId ≤ 0 then .error (.text "invalid userId")
  else if f ⟨.count, .subscriptions, 0⟩ then .error (.db ⟨.count, .subscriptions, 0⟩)
  else .ok (db.subscriptions.any fun sub =>
    decide (sub.userId = userId ∧ sub.status = .active ∧ now < sub.endTime))

def userActiveSubscriptionsAllowWalletOverflow (userId now : ℤ) (db : DB) : Except Err Bool :=
  if userId ≤ 0 then .error (.text "invalid userId")
  else if f ⟨.count, .subscriptions, 1⟩ then .error (.db ⟨.count, .subscriptions, 1⟩)
  else .ok (!db.subscriptions.any fun sub =>
    decide (sub.userId = userId ∧ sub.status = .active ∧ now < sub.endTime ∧
      sub.allowWalletOverflow = false))

/-- The answers to a whole `NewBillingSession`, which tries each funding source at most once. -/
structure OpenAnswers where
  wallet : Answers
  subscription : Answers
  faults : Faults
  now : ℤ

/-- The session is refused for lack of quota. -/
def lacksQuota : Except ApiErr BillingSession → Bool
  | .error e => decide (e.code = .insufficientUserQuota)
  | .ok _ => false

/-- `NewBillingSession` for a preference of `wallet_first`. -/
def openWalletFirst (ans : OpenAnswers) (info : RelayInfo) (preConsumedQuota : ℤ) (l : Ledger) :
    Except ApiErr BillingSession × Ledger :=
  let r := tryWallet env ans.wallet info preConsumedQuota l
  if lacksQuota r.1 then trySubscription env ans.subscription info preConsumedQuota r.2 else r

/-- `NewBillingSession` for a preference of `subscription_first`: a subscription that lacks quota
lets the wallet overflow only if every active subscription does. -/
def openSubscriptionFirst (ans : OpenAnswers) (info : RelayInfo) (preConsumedQuota : ℤ)
    (l : Ledger) : Except ApiErr BillingSession × Ledger :=
  match hasActiveUserSubscription ans.faults info.userId ans.now l.db with
  | .error e => (.error ⟨.queryDataError, 500, e⟩, l)
  | .ok false => tryWallet env ans.wallet info preConsumedQuota l
  | .ok true =>
    let r := trySubscription env ans.subscription info preConsumedQuota l
    if lacksQuota r.1 then
      match userActiveSubscriptionsAllowWalletOverflow ans.faults info.userId ans.now r.2.db with
      | .error e => (.error ⟨.queryDataError, 500, e⟩, r.2)
      | .ok true => tryWallet env ans.wallet info preConsumedQuota r.2
      | .ok false => r
    else r

def newBillingSession (ans : OpenAnswers) (info : RelayInfo) (preConsumedQuota : ℤ) (l : Ledger) :
    Except ApiErr BillingSession × Ledger :=
  match normalizeBillingPreference info.billingPreference with
  | .subscriptionOnly => trySubscription env ans.subscription info preConsumedQuota l
  | .walletOnly => tryWallet env ans.wallet info preConsumedQuota l
  | .walletFirst => openWalletFirst env ans info preConsumedQuota l
  | .subscriptionFirst => openSubscriptionFirst env ans info preConsumedQuota l

/-! ### Reserving, settling and refunding -/

/-- Run a settlement of a subscription on the ledger. -/
def settleSubscription (id delta : ℤ) (l : Ledger) : Except Err Unit × Ledger :=
  match postConsumeUserSubscriptionDelta f id delta l.db with
  | (r, db) => (r, { l with db := db })

namespace BillingSession

variable (s : BillingSession)

/-- `reserveFunding`: the wallet is charged without a condition. -/
def reserveFunding (delta : ℤ) (l : Ledger) : Except ApiErr Funding × Ledger :=
  match s.funding with
  | .wallet userId consumed =>
    match decreaseUserQuota env.setup ans.fundingFaults userId delta false l with
    | .error e => (.error ⟨.updateDataError, 500, e⟩, l)
    | .ok l' => (.ok (.wallet userId (consumed + delta)), l')
  | .subscription sub =>
    match settleSubscription ans.fundingFaults sub.subscriptionId delta l with
    | (.error e, l') =>
      (.error ⟨.insufficientUserQuota, 403,
        .text ("订阅额度不足或未配置订阅: " ++ e.message)⟩, l')
    | (.ok _, l') => (.ok (.subscription sub), l')

/-- `rollbackFundingReserve`; an error is logged and dropped. -/
def rollbackFundingReserve (delta : ℤ) (funding : Funding) (l : Ledger) :
    Except Err Funding × Ledger :=
  match funding with
  | .wallet userId consumed =>
    match increaseUserQuota env.setup ans.rollbackFaults userId delta false l with
    | .error e => (.error e, l)
    | .ok l' => (.ok (.wallet userId (consumed - delta)), l')
  | .subscription sub =>
    match settleSubscription ans.rollbackFaults sub.subscriptionId (-delta) l with
    | (.error e, l') => (.error e, l')
    | (.ok _, l') => (.ok (.subscription sub), l')

def reserveToken (delta : ℤ) (l : Ledger) : Except ApiErr Ledger :=
  if delta ≤ 0 ∨ s.relayInfo.isPlayground then .ok l
  else
    match preConsumeTokenQuota env ans s.relayInfo delta l with
    | .error e => .error ⟨.preConsumeTokenQuotaFailed, 403, e⟩
    | .ok l' => .ok l'

/-- The session after a reservation that went through. -/
def reserved (funding : Funding) (delta : ℤ) : BillingSession :=
  syncRelayInfo { s with
    funding := funding
    preConsumedQuota := s.preConsumedQuota + delta
    tokenConsumed := s.tokenConsumed + delta
    extraReserved := s.extraReserved + delta }

/-- The part of `Reserve` behind its guard: the funding source first, then the token. -/
def reserveDelta (delta : ℤ) (l : Ledger) : Except ApiErr Unit × BillingSession × Ledger :=
  match s.reserveFunding env ans delta l with
  | (.error e, l₁) => (.error e, s, l₁)
  | (.ok funding, l₁) =>
    match s.reserveToken env ans delta l₁ with
    | .error e =>
      match rollbackFundingReserve env ans delta funding l₁ with
      | (.error _, l₂) => (.error e, { s with funding := funding }, l₂)
      | (.ok funding', l₂) => (.error e, { s with funding := funding' }, l₂)
    | .ok l₂ => (.ok (), s.reserved funding delta, l₂)

def reserve (targetQuota : ℤ) (l : Ledger) : Except ApiErr Unit × BillingSession × Ledger :=
  if s.settled || s.refunded || s.trusted || decide (targetQuota ≤ s.preConsumedQuota) then
    (.ok (), s, l)
  else s.reserveDelta env ans (targetQuota - s.preConsumedQuota) l

/-- `FundingSource.Settle`. -/
def settleFunding (delta : ℤ) (l : Ledger) : Except Err Unit × Ledger :=
  match s.funding with
  | .wallet userId _ =>
    if delta = 0 then (.ok (), l)
    else
      match (if 0 < delta then decreaseUserQuota env.setup f userId delta false l
        else increaseUserQuota env.setup f userId (-delta) false l) with
      | .error e => (.error e, l)
      | .ok l' => (.ok (), l')
  | .subscription sub =>
    if delta = 0 then (.ok (), l) else settleSubscription f sub.subscriptionId delta l

/-- The token step of `Settle`. -/
def settleToken (delta : ℤ) (l : Ledger) : Except Err Ledger :=
  if s.relayInfo.isPlayground then .ok l
  else if 0 < delta then decreaseTokenQuota env.setup f s.relayInfo.tokenId delta l
  else increaseTokenQuota env.setup f s.relayInfo.tokenId (-delta) l

/-- The end of `Settle`: the token, the delta kept for the log, and the flag. -/
def finishSettle (delta : ℤ) (l : Ledger) : Except Err Unit × BillingSession × Ledger :=
  let info := match s.funding with
    | .subscription _ =>
      { s.relayInfo with subscriptionPostDelta := s.relayInfo.subscriptionPostDelta + delta }
    | .wallet _ _ => s.relayInfo
  match s.settleToken env f delta l with
  | .error e => (.error e, { s with relayInfo := info, settled := true }, l)
  | .ok l' => (.ok (), { s with relayInfo := info, settled := true }, l')

def settle (actualQuota : ℤ) (l : Ledger) : Except Err Unit × BillingSession × Ledger :=
  if s.settled then (.ok (), s, l)
  else if actualQuota - s.preConsumedQuota = 0 then (.ok (), { s with settled := true }, l)
  else if s.fundingSettled then finishSettle env f s (actualQuota - s.preConsumedQuota) l
  else
    match s.settleFunding env f (actualQuota - s.preConsumedQuota) l with
    | (.error e, l₁) => (.error e, s, l₁)
    | (.ok _, l₁) =>
      finishSettle env f { s with fundingSettled := true } (actualQuota - s.preConsumedQuota) l₁

/-- `needsRefundLocked`. -/
def needsRefund : Bool :=
  if s.settled || s.refunded || s.fundingSettled then false
  else if 0 < s.tokenConsumed then true
  else
    match s.funding with
    | .subscription sub => decide (0 < sub.preConsumed)
    | .wallet _ _ => false

/-- `FundingSource.Refund`; an error is logged and dropped. -/
def refundFunding (l : Ledger) : Ledger :=
  match s.funding with
  | .wallet userId consumed =>
    if consumed ≤ 0 then l else l.after (increaseUserQuota env.setup f userId consumed false l)
  | .subscription sub =>
    { l with db := (subscriptionFundingRefund sub.preConsumed sub.requestId f f f l.db).2 }

/-- The refund of what a subscription has been charged by `Reserve`; an error is logged and
dropped. -/
def refundExtra (l : Ledger) : Ledger :=
  match s.funding with
  | .wallet _ _ => l
  | .subscription _ =>
    if 0 < s.extraReserved ∧ 0 < s.relayInfo.subscriptionId then
      (settleSubscription f s.relayInfo.subscriptionId (-s.extraReserved) l).2
    else l

/-- The refund of the token; an error is logged and dropped. -/
def refundToken (l : Ledger) : Ledger :=
  if 0 < s.tokenConsumed ∧ s.relayInfo.isPlayground = false then
    l.after (increaseTokenQuota env.setup f s.relayInfo.tokenId s.tokenConsumed l)
  else l

/-- `Refund`, with the work it leaves to a goroutine. -/
def refund (l : Ledger) : BillingSession × Ledger :=
  if s.settled || s.refunded || !s.needsRefund then (s, l)
  else
    ({ s with refunded := true },
      s.refundToken env f (s.refundExtra f (s.refundFunding env f l)))

end BillingSession

end NexusTok
