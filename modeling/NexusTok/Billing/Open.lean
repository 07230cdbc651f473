import NexusTok.Billing.Session

/-!
# Opening a session, or not

`NewBillingSession` and `Reserve` each take two charges, one from the token and one from the funding
source, and undo the first when the second is refused.  `NewBillingSession` may go through a whole
failed attempt on one source before it tries the other.

* `preConsume_wallet`, `preConsume_subscription` : one attempt charges both, or moves no balance.
* `billing_all_or_nothing` : the same of `NewBillingSession`, for every preference and every point
  of failure, and of `Reserve`.
-/

namespace NexusTok

open Option BillingSession

/-! ### Charged and unchanged -/

/-- No balance has moved. -/
structure Unchanged (l l' : Ledger) : Prop where
  wallet : ∀ v, l'.walletBalance v = l.walletBalance v
  token : ∀ t, l'.tokenBalance t = l.tokenBalance t
  db_eq : l'.db = { l.db with users := l'.db.users, tokens := l'.db.tokens }

/-- Outside the playground, the token of the request is charged `n`; nothing else moves. -/
structure TokenCharged (info : RelayInfo) (n : ℤ) (l l' : Ledger) : Prop where
  token : ∀ t, l'.tokenBalance t = (l.tokenBalance t).map fun b =>
    if t = info.tokenId ∧ info.isPlayground = false then b - n else b
  wallet : ∀ v, l'.walletBalance v = l.walletBalance v
  db_eq : l'.db = { l.db with tokens := l'.db.tokens }

/-- The wallet of the user is charged `n`; no subscription moves. -/
structure WalletCharged (userId n : ℤ) (l l' : Ledger) : Prop where
  wallet : ∀ v, l'.walletBalance v =
    (l.walletBalance v).map fun b => if v = userId then b - n else b
  subscriptions : l'.db.subscriptions = l.db.subscriptions

/-- A subscription is charged `n`, after the resets that were due; the others are at most reset, and
no wallet moves. -/
structure SubscriptionCharged (f : Faults) (loc : Location) (now subId n : ℤ) (l l' : Ledger) :
    Prop where
  wallet : ∀ v, l'.walletBalance v = l.walletBalance v
  row : ∃ db₁ sub, ResetsInPassing f loc now l.db db₁ ∧ db₁.subscription subId = some sub ∧
    l'.db.subscriptions = (db₁.saveSubscription (sub.charge n)).subscriptions

/-- The session has charged the token and exactly one funding source by the quota it keeps, which is
none if it is trusted. -/
structure Opened (env : Env) (ans : Answers) (info : RelayInfo) (l l' : Ledger)
    (s : BillingSession) : Prop where
  token : ∀ t, l'.tokenBalance t = (l.tokenBalance t).map fun b =>
    if t = info.tokenId ∧ info.isPlayground = false then b - s.preConsumedQuota else b
  source : (∃ consumed, s.funding = .wallet info.userId consumed ∧
      WalletCharged info.userId s.preConsumedQuota l l') ∨
    ∃ sub, s.funding = .subscription sub ∧ SubscriptionCharged ans.fundingFaults env.loc ans.now
      sub.subscriptionId s.preConsumedQuota l l'
  trusted : s.trusted = true → s.preConsumedQuota = 0

/-- All or nothing: a session is returned and has charged, or no balance has moved. -/
def AllOrNothing (env : Env) (ans : Answers) (info : RelayInfo) (l : Ledger) :
    Except ApiErr BillingSession × Ledger → Prop
  | (.error _, l') => Unchanged l l'
  | (.ok s, l') => Opened env ans info l l' s

section Charges

variable {env : Env} {ans : Answers} {info : RelayInfo} {l l₁ l₂ : Ledger} {n : ℤ}

theorem Unchanged.refl (l : Ledger) : Unchanged l l := ⟨fun _ => rfl, fun _ => rfl, rfl⟩

theorem Unchanged.subscriptions (h : Unchanged l l₁) :
    l₁.db.subscriptions = l.db.subscriptions := by
  rw [h.db_eq]

theorem Unchanged.trans (h : Unchanged l l₁) (h' : Unchanged l₁ l₂) : Unchanged l l₂ := by
  refine ⟨fun v => (h'.wallet v).trans (h.wallet v), fun t => (h'.token t).trans (h.token t), ?_⟩
  rw [h'.db_eq, h.db_eq]

theorem TokenCharged.undo (h : TokenCharged info n l l₁) (h' : TokenCharged info (-n) l₁ l₂) :
    Unchanged l l₂ := by
  refine ⟨fun v => (h'.wallet v).trans (h.wallet v), fun t => ?_, ?_⟩
  · rw [h'.token, h.token, map_map]
    cases l.tokenBalance t with
    | none => rfl
    | some b =>
      simp only [map_some, Option.some.injEq, Function.comp_apply]
      split_ifs <;> omega
  · rw [h'.db_eq, h.db_eq]

theorem TokenCharged.of_moves (h : MovesToken l l₁ info.tokenId (-n))
    (hp : info.isPlayground = false) : TokenCharged info n l l₁ := by
  refine ⟨fun t => ?_, h.wallet, h.db_eq⟩
  rw [h.token]
  congr 1
  funext b
  simp only [hp, and_true, sub_eq_add_neg]

theorem TokenCharged.none (l : Ledger) (h : info.isPlayground = true ∨ n = 0) :
    TokenCharged info n l l := by
  refine ⟨fun t => ?_, fun _ => rfl, rfl⟩
  rcases h with h | h
  · simp [h]
  · subst h
    simp

theorem preConsumeTokenQuota_ok (h : preConsumeTokenQuota env ans info n l = .ok l₁) :
    TokenCharged info n l l₁ := by
  unfold preConsumeTokenQuota at h
  by_cases hneg : n < 0
  · rw [if_pos hneg] at h
    cases h
  rw [if_neg hneg] at h
  cases hp : info.isPlayground with
  | true =>
    rw [hp, if_pos rfl, Except.ok.injEq] at h
    subst h
    exact .none l (.inl hp)
  | false =>
    rw [hp, if_neg Bool.false_ne_true] at h
    rcases hr : tryReserveTokenQuota env.setup ans.tokenFaults ans.token info.tokenId n
        info.tokenUnlimited l with _ | r
    · rw [hr] at h; cases h
    obtain ⟨reserved, l'⟩ := r
    obtain ⟨rfl, hm⟩ | ⟨rfl, -⟩ := tryReserveTokenQuota_ok hr
    · rw [hr] at h
      cases h
      exact .of_moves hm hp
    · rw [hr] at h
      cases h

theorem preConsumeToken_ok {s : BillingSession} (hn : 0 ≤ n)
    (h : s.preConsumeToken env ans n l = .ok l₁) : TokenCharged s.relayInfo n l l₁ := by
  unfold BillingSession.preConsumeToken at h
  split_ifs at h with hpos
  · exact preConsumeTokenQuota_ok h
  · cases h
    exact .none l (.inr (by omega))

/-- Without a failing statement a token can always be given quota back. -/
theorem increaseTokenQuota_none (setup : Setup) (id : ℤ) (hn : 0 ≤ n) (l : Ledger) :
    ∃ l', increaseTokenQuota setup .none id n l = .ok l' := by
  unfold increaseTokenQuota changeTokenQuota
  rw [if_neg (not_lt.2 hn)]
  split_ifs with hb hf
  · exact ⟨_, rfl⟩
  · cases hf
  · exact ⟨_, rfl⟩

theorem rollbackToken_charged (ans : Answers) (s : BillingSession) (hn : 0 ≤ n)
    (hroll : ans.rollbackFaults = .none) (l : Ledger) :
    TokenCharged s.relayInfo (-n) l (s.rollbackToken env ans n l) := by
  unfold BillingSession.rollbackToken
  split_ifs with h
  · obtain ⟨l', hl'⟩ := increaseTokenQuota_none env.setup s.relayInfo.tokenId hn l
    rw [hroll, hl']
    have hm := increaseTokenQuota_ok hl'
    refine .of_moves ?_ h.2
    rw [neg_neg]
    exact hm
  · rw [not_and_or, Bool.not_eq_false] at h
    rcases h with h | h
    · exact .none l (.inr (by omega))
    · exact .none l (.inl h)

end Charges

/-! ### One attempt -/

section Attempt

variable {env : Env} {ans : Answers} {info : RelayInfo} {l l₁ l₂ : Ledger} {n : ℤ}

theorem walletPreConsume_error {userId consumed : ℤ} {e : Err}
    (h : walletPreConsume env ans userId consumed n l = (.error e, l₁)) : l₁ = l := by
  unfold walletPreConsume at h
  by_cases hn : n ≤ 0
  · rw [if_pos hn] at h
    cases h
  rw [if_neg hn] at h
  cases hr : tryReserveUserQuota env.setup ans.fundingFaults ans.wallet userId n l with
  | error e' =>
    rw [hr] at h
    exact (Prod.mk.inj h).2.symm
  | ok r =>
    obtain ⟨reserved, l'⟩ := r
    obtain ⟨rfl, -⟩ | ⟨rfl, hl⟩ := tryReserveUserQuota_ok hr
    · rw [hr] at h
      cases h
    · rw [hr] at h
      rw [← hl]
      exact (Prod.mk.inj h).2.symm

theorem walletPreConsume_ok {userId : ℤ} {funding : Funding} (hn : 0 ≤ n)
    (h : walletPreConsume env ans userId 0 n l = (.ok funding, l₁)) :
    MovesWallet l l₁ userId (-n) ∧ funding = .wallet userId n := by
  unfold walletPreConsume at h
  by_cases hz : n ≤ 0
  · have hn0 : n = 0 := by omega
    rw [if_pos hz] at h
    cases h
    rw [hn0]
    exact ⟨.zero l userId, rfl⟩
  rw [if_neg hz] at h
  rcases hr : tryReserveUserQuota env.setup ans.fundingFaults ans.wallet userId n l with _ | r
  · rw [hr] at h; cases h
  obtain ⟨reserved, l'⟩ := r
  obtain ⟨rfl, hm⟩ | ⟨rfl, -⟩ := tryReserveUserQuota_ok hr
  · rw [hr] at h
    cases h
    exact ⟨hm, rfl⟩
  · rw [hr] at h
    cases h

theorem subscriptionPreConsume_cases (env : Env) (ans : Answers) {l : Ledger}
    (sf : SubscriptionFunding)
    (hfresh : l.db.preConsumeRecord sf.requestId = none)
    (hids : (l.db.subscriptions.map UserSubscription.id).Nodup) :
    (∃ e, subscriptionPreConsume env ans sf l = (.error e, l)) ∨
      ∃ db₁ sub, Charges ans.fundingFaults env.loc (sf.args ans.now) l.db db₁ sub ∧
        subscriptionPreConsume env ans sf l =
          (.ok (.subscription (sf.filled ((sf.args ans.now).result sub))),
            { l with db := (sf.args ans.now).apply sub db₁ }) := by
  unfold subscriptionPreConsume
  obtain ⟨e, he⟩ | ⟨r, res, hr, -⟩ | ⟨db₁, sub, hc, he⟩ :=
    preConsume_outcomes ans.fundingFaults env.loc (sf.args ans.now) hids
  · exact .inl ⟨e, by rw [he]⟩
  · refine absurd hr ?_
    show l.db.preConsumeRecord sf.requestId ≠ some r
    rw [hfresh]
    exact fun h => nomatch h
  · exact .inr ⟨db₁, sub, hc, by rw [he]⟩

theorem ResetsInPassing.of_frame {f : Faults} {loc : Location} {now : ℤ} {db db' db₁ : DB}
    (h : ResetsInPassing f loc now db' db₁) (hs : db'.subscriptions = db.subscriptions)
    (hp : db'.plans = db.plans) :
    ResetsInPassing f loc now db { db with subscriptions := db₁.subscriptions } := by
  have hsub : ∀ id, db'.subscription id = db.subscription id := by
    intro id
    rw [DB.subscription, hs, DB.subscription]
  have hplan : ∀ id, getSubscriptionPlanById f db' id = getSubscriptionPlanById f db id := by
    intro id
    rw [getSubscriptionPlanById, DB.plan, hp, getSubscriptionPlanById, DB.plan]
  refine ⟨rfl, h.ids.trans (by rw [hs]), fun id => ?_⟩
  rcases h.rows id with hrow | ⟨sub, plan, row, h₁, h₂, h₃, h₄⟩
  · exact .inl (hrow.trans (hsub id))
  · exact .inr ⟨sub, plan, row, by rw [← hsub]; exact h₁, by rw [← hplan]; exact h₂, h₃, h₄⟩

/-- **One attempt on the wallet.** -/
theorem preConsume_wallet (ans' : Answers) {s : BillingSession} {quota : ℤ} (hq : 0 ≤ quota)
    (hroll : ans.rollbackFaults = .none) (hf : s.funding = .wallet info.userId 0)
    (ht : s.relayInfo.tokenId = info.tokenId)
    (hp : s.relayInfo.isPlayground = info.isPlayground) (l : Ledger) :
    AllOrNothing env ans' info l (s.preConsume env ans quota l) := by
  have hn : 0 ≤ s.effectiveQuota env quota := by
    unfold BillingSession.effectiveQuota
    split_ifs
    · exact le_rfl
    · exact hq
  unfold BillingSession.preConsume
  simp only [hf, Funding.preConsume]
  cases htok : s.preConsumeToken env ans (s.effectiveQuota env quota) l with
  | error e => exact .refl l
  | ok l₁ =>
    have hcharged := preConsumeToken_ok hn htok
    cases hfund : walletPreConsume env ans info.userId 0 (s.effectiveQuota env quota) l₁ with
    | mk r l₂ =>
      cases r with
      | error e =>
        -- the wallet refuses, and the token is given back
        have hl := walletPreConsume_error hfund
        subst hl
        simp only [hfund]
        exact hcharged.undo (rollbackToken_charged ans s hn hroll l₂)
      | ok funding =>
        obtain ⟨hm, hfeq⟩ := walletPreConsume_ok hn hfund
        simp only [hfund]
        refine ⟨fun t => ?_, .inl ⟨s.effectiveQuota env quota, ?_, ?_, ?_⟩, ?_⟩
        · rw [hm.token, hcharged.token]
          simp only [BillingSession.opened, syncRelayInfo_preConsumedQuota, ht, hp]
        · simp only [BillingSession.opened, syncRelayInfo_funding, hfeq]
        · intro v
          rw [hm.wallet, hcharged.wallet]
          simp only [BillingSession.opened, syncRelayInfo_preConsumedQuota,
            sub_eq_add_neg]
        · rw [hm.db_eq, hcharged.db_eq]
        · simp only [BillingSession.opened, syncRelayInfo_trusted,
            syncRelayInfo_preConsumedQuota]
          intro htrust
          rw [BillingSession.effectiveQuota, if_pos htrust]

theorem shouldTrust_subscription {s : BillingSession} {sf : SubscriptionFunding}
    (hf : s.funding = .subscription sf) : s.shouldTrust env = false := by
  unfold BillingSession.shouldTrust
  rw [hf]
  split_ifs <;> rfl

/-- **One attempt on a subscription.** -/
theorem preConsume_subscription {s : BillingSession} {sf : SubscriptionFunding}
    (hpos : 0 < sf.amount) (hroll : ans.rollbackFaults = .none)
    (hf : s.funding = .subscription sf) (hinfo : s.relayInfo = info)
    (hfresh : l.db.preConsumeRecord sf.requestId = none)
    (hids : (l.db.subscriptions.map UserSubscription.id).Nodup) :
    AllOrNothing env ans info l (s.preConsume env ans sf.amount l) := by
  have heff : s.effectiveQuota env sf.amount = sf.amount := by
    rw [BillingSession.effectiveQuota, shouldTrust_subscription hf, if_neg Bool.false_ne_true]
  unfold BillingSession.preConsume
  simp only [heff, hf, Funding.preConsume]
  cases htok : s.preConsumeToken env ans sf.amount l with
  | error e => exact .refl l
  | ok l₁ =>
    have hcharged := preConsumeToken_ok hpos.le htok
    have hsubs : l₁.db.subscriptions = l.db.subscriptions := by rw [hcharged.db_eq]
    have hplans : l₁.db.plans = l.db.plans := by rw [hcharged.db_eq]
    have hfresh₁ : l₁.db.preConsumeRecord sf.requestId = none := by
      rw [hcharged.db_eq]
      exact hfresh
    have hids₁ : (l₁.db.subscriptions.map UserSubscription.id).Nodup := by
      rw [hsubs]
      exact hids
    obtain ⟨e, he⟩ | ⟨db₁, sub, hc, he⟩ := subscriptionPreConsume_cases env ans sf hfresh₁ hids₁
    · simp only [he]
      exact hcharged.undo (rollbackToken_charged ans s hpos.le hroll l₁)
    · simp only [he]
      have htokens : ((sf.args ans.now).apply sub db₁).tokens = l₁.db.tokens := by
        rw [hc.resets.frame]
        rfl
      have husers : ((sf.args ans.now).apply sub db₁).users = l₁.db.users := by
        rw [hc.resets.frame]
        rfl
      refine ⟨fun t => ?_, .inr ⟨sf.filled ((sf.args ans.now).result sub), ?_, ?_, ?_⟩, ?_⟩
      · have hsame : Ledger.tokenBalance { l₁ with db := (sf.args ans.now).apply sub db₁ } t =
            l₁.tokenBalance t := by
          rw [Ledger.tokenBalance, DB.token, htokens, Ledger.tokenBalance, DB.token]
        rw [hsame, hcharged.token, hinfo]
        simp only [BillingSession.opened, syncRelayInfo_preConsumedQuota]
      · simp only [BillingSession.opened, syncRelayInfo_funding]
      · intro v
        have hsame : Ledger.walletBalance { l₁ with db := (sf.args ans.now).apply sub db₁ } v =
            l₁.walletBalance v := by
          rw [Ledger.walletBalance, DB.wallet, DB.user, husers, Ledger.walletBalance, DB.wallet,
            DB.user]
        exact hsame.trans (hcharged.wallet v)
      · refine ⟨_, sub, hc.resets.of_frame hsubs hplans, hc.row, ?_⟩
        simp only [BillingSession.opened, syncRelayInfo_preConsumedQuota]
        rfl
      · simp only [BillingSession.opened, syncRelayInfo_trusted,
          shouldTrust_subscription hf]
        intro h
        exact absurd h Bool.false_ne_true

end Attempt

/-! ### Preferences -/

section Preferences

variable {env : Env} {ans : Answers} {info : RelayInfo} {l l₁ : Ledger}
  {r : Except ApiErr BillingSession × Ledger}

/-- An attempt that moved no balance does not show in the next one. -/
theorem AllOrNothing.after (h : Unchanged l l₁) (h' : AllOrNothing env ans info l₁ r) :
    AllOrNothing env ans info l r := by
  obtain ⟨res, l'⟩ := r
  cases res with
  | error e => exact h.trans h'
  | ok s =>
    obtain ⟨htoken, hsource, htrusted⟩ := h'
    refine ⟨fun t => ?_, ?_, htrusted⟩
    · rw [htoken, h.token]
    · rcases hsource with ⟨consumed, hf, hw, hs⟩ | ⟨sf, hf, hw, db₁, sub, hr, hrow, hs⟩
      · refine .inl ⟨consumed, hf, fun v => ?_, hs.trans h.subscriptions⟩
        rw [hw, h.wallet]
      · have hplans : l₁.db.plans = l.db.plans := by rw [h.db_eq]
        exact .inr ⟨sf, hf, fun v => (hw v).trans (h.wallet v), _, sub,
          hr.of_frame h.subscriptions hplans, hrow, hs⟩

/-- A session that is refused has moved no balance. -/
theorem AllOrNothing.of_lacksQuota (h : AllOrNothing env ans info l r)
    (hl : lacksQuota r.1 = true) : Unchanged l r.2 := by
  obtain ⟨res, l'⟩ := r
  cases res with
  | error e => exact h
  | ok s => cases hl

theorem tryWallet_atomic (ans' : Answers) {quota : ℤ} (hq : 0 ≤ quota)
    (hroll : ans.rollbackFaults = .none) (l : Ledger) :
    AllOrNothing env ans' info l (tryWallet env ans info quota l) := by
  unfold tryWallet
  cases hu : getUserQuota ans info.userId l with
  | error e => exact .refl l
  | ok userQuota =>
    simp only
    split_ifs
    · exact Unchanged.refl l
    · exact Unchanged.refl l
    · exact preConsume_wallet ans' (s := .new { info with userQuota := userQuota }
        (.wallet info.userId 0)) hq hroll rfl rfl rfl l

theorem trySubscription_atomic {quota : ℤ} (hroll : ans.rollbackFaults = .none)
    (hfresh : l.db.preConsumeRecord info.requestId = none)
    (hids : (l.db.subscriptions.map UserSubscription.id).Nodup) :
    AllOrNothing env ans info l (trySubscription env ans info quota l) := by
  have hpos : 0 < subConsume quota := by
    unfold subConsume
    split_ifs <;> omega
  unfold trySubscription
  set sf : SubscriptionFunding :=
    ⟨info.requestId, info.userId, subConsume quota, 0, 0, 0, 0⟩ with hsf
  have hf : (BillingSession.new info (.subscription sf)).funding = .subscription sf := rfl
  exact preConsume_subscription hpos hroll hf rfl hfresh hids

/-- **Opening a session is all or nothing**, whatever the preference. -/
theorem newBillingSession_atomic {ans : OpenAnswers} {quota : ℤ} (hq : 0 ≤ quota)
    (hw : ans.wallet.rollbackFaults = .none) (hs : ans.subscription.rollbackFaults = .none)
    (hfresh : l.db.preConsumeRecord info.requestId = none)
    (hids : (l.db.subscriptions.map UserSubscription.id).Nodup) :
    AllOrNothing env ans.subscription info l (newBillingSession env ans info quota l) := by
  have hwallet : ∀ l, AllOrNothing env ans.subscription info l
      (tryWallet env ans.wallet info quota l) := tryWallet_atomic ans.subscription hq hw
  have hsub : AllOrNothing env ans.subscription info l
      (trySubscription env ans.subscription info quota l) := trySubscription_atomic hs hfresh hids
  unfold newBillingSession
  cases normalizeBillingPreference info.billingPreference with
  | subscriptionOnly => exact hsub
  | walletOnly => exact hwallet l
  | walletFirst =>
    simp only [openWalletFirst]
    split_ifs with hl
    · have hun := (hwallet l).of_lacksQuota hl
      refine .after hun (trySubscription_atomic hs ?_ ?_)
      · rw [hun.db_eq]
        exact hfresh
      · rw [hun.subscriptions]
        exact hids
    · exact hwallet l
  | subscriptionFirst =>
    simp only [openSubscriptionFirst]
    cases hasActiveUserSubscription ans.faults info.userId ans.now l.db with
    | error e => exact .refl l
    | ok has =>
      cases has with
      | false => exact hwallet l
      | true =>
        simp only
        split_ifs with hl
        · have hun := hsub.of_lacksQuota hl
          cases userActiveSubscriptionsAllowWalletOverflow ans.faults info.userId ans.now
              (trySubscription env ans.subscription info quota l).2.db with
          | error e => exact hun
          | ok allow =>
            cases allow with
            | true => exact .after hun (hwallet _)
            | false => exact hsub
        · exact hsub

end Preferences

/-! ### Reserving -/

/-- The charge of a reservation on its funding source. -/
def FundingCharged (n : ℤ) (l l' : Ledger) : Funding → Prop
  | .wallet userId _ => WalletCharged userId n l l'
  | .subscription sf => (∀ v, l'.walletBalance v = l.walletBalance v) ∧
      ∃ sub, l.db.subscription sf.subscriptionId = some sub ∧
        l'.db.subscriptions = (l.db.saveSubscription (sub.charge n)).subscriptions

/-- All or nothing for `Reserve`: an error leaves the session and the balances alone; success leaves
them alone too, or charges the token and the funding source by what the session keeps more. -/
def ReservesAllOrNothing (s : BillingSession) (l : Ledger) :
    Except ApiErr Unit × BillingSession × Ledger → Prop
  | (.error _, s', l') => s' = s ∧ Unchanged l l'
  | (.ok _, s', l') => (s' = s ∧ l' = l) ∨
      (∀ t, l'.tokenBalance t = (l.tokenBalance t).map fun b =>
        if t = s.relayInfo.tokenId ∧ s.relayInfo.isPlayground = false then
          b - (s'.preConsumedQuota - s.preConsumedQuota) else b) ∧
      FundingCharged (s'.preConsumedQuota - s.preConsumedQuota) l l' s.funding

/-- The rollback of a reservation of `delta`, where it is needed, succeeds. -/
def RollbackSucceeds (env : Env) (ans : Answers) (s : BillingSession) (delta : ℤ) (l : Ledger) :
    Prop :=
  ∀ funding l₁, s.reserveFunding env ans delta l = (.ok funding, l₁) →
    ∃ funding' l₂,
      BillingSession.rollbackFundingReserve env ans delta funding l₁ = (.ok funding', l₂)

/-- A reservation that goes through: the funding source is charged, then the token. -/
structure Reserves (s : BillingSession) (delta : ℤ) (l : Ledger) (funding : Funding)
    (l₁ l₂ : Ledger) : Prop where
  settled : s.settled = false
  refunded : s.refunded = false
  trusted : s.trusted = false
  pos : 0 < delta
  source : (∃ userId consumed, s.funding = .wallet userId consumed ∧
      funding = .wallet userId (consumed + delta) ∧ MovesWallet l l₁ userId (-delta)) ∨
    ∃ sf sub, s.funding = .subscription sf ∧ funding = .subscription sf ∧
      l.db.subscription sf.subscriptionId = some sub ∧ 0 ≤ sub.amountUsed ∧
      sub.exceeds delta = false ∧
      l₁ = { l with db := l.db.saveSubscription (sub.charge delta) }
  token : TokenCharged s.relayInfo delta l₁ l₂

section Reserve

variable {env : Env} {ans : Answers} {s : BillingSession} {l l₁ l₂ : Ledger} {delta : ℤ}

/-- What a reservation does to the funding source. -/
theorem reserveFunding_cases (env : Env) (ans : Answers) (s : BillingSession) (hpos : 0 < delta)
    (hused : ∀ id sub, l.db.subscription id = some sub → 0 ≤ sub.amountUsed) :
    (∃ e, s.reserveFunding env ans delta l = (.error e, l)) ∨
      (∃ userId consumed l₁, s.funding = .wallet userId consumed ∧
        s.reserveFunding env ans delta l = (.ok (.wallet userId (consumed + delta)), l₁) ∧
        MovesWallet l l₁ userId (-delta)) ∨
      ∃ sf sub, s.funding = .subscription sf ∧ l.db.subscription sf.subscriptionId = some sub ∧
        0 ≤ sub.amountUsed ∧ sub.exceeds delta = false ∧
        s.reserveFunding env ans delta l = (.ok (.subscription sf),
          { l with db := l.db.saveSubscription (sub.charge delta) }) := by
  unfold BillingSession.reserveFunding
  cases hf : s.funding with
  | wallet userId consumed =>
    simp only
    cases hd : decreaseUserQuota env.setup ans.fundingFaults userId delta false l with
    | error e => exact .inl ⟨_, rfl⟩
    | ok l' => exact .inr (.inl ⟨userId, consumed, l', rfl, rfl, decreaseUserQuota_ok hd⟩)
  | subscription sf =>
    simp only [settleSubscription]
    obtain ⟨e, he⟩ | ⟨h0, -⟩ | ⟨sub, hs⟩ :=
      postConsume_cases ans.fundingFaults sf.subscriptionId delta l.db
    · exact .inl ⟨_, by rw [he]⟩
    · omega
    · have hnn := hused _ sub hs.row
      have hrow : sub.settle delta = sub.charge delta := by
        unfold UserSubscription.settle UserSubscription.charge UserSubscription.usedAfter
        rw [max_eq_left (by omega)]
      rw [hs.eq, hrow]
      exact .inr (.inr ⟨sf, sub, rfl, hs.row, hnn, hs.fits, rfl⟩)

/-- A row that is written back as it was. -/
theorem saveSubscription_self {db : DB} {id : ℤ} {sub : UserSubscription}
    (hids : (db.subscriptions.map UserSubscription.id).Nodup) (h : db.subscription id = some sub) :
    db.saveSubscription sub = db := by
  have hrows : Table.put UserSubscription.id sub db.subscriptions = db.subscriptions := by
    refine Table.modify_eq fun r hr hkey => ?_
    exact (List.inj_on_of_nodup_map hids hr (Table.get_mem h) hkey).symm
  unfold DB.saveSubscription
  rw [hrows]

/-- A row that is charged and then written back. -/
theorem saveSubscription_save {db : DB} (sub : UserSubscription) (n : ℤ) :
    (db.saveSubscription (sub.charge n)).saveSubscription sub = db.saveSubscription sub := by
  have hrows : Table.put UserSubscription.id sub
      (Table.put UserSubscription.id (sub.charge n) db.subscriptions) =
      Table.put UserSubscription.id sub db.subscriptions := by
    unfold Table.put Table.modify
    rw [List.map_map]
    refine List.map_congr_left fun r _ => ?_
    show (if (if r.id = sub.id then sub.charge n else r).id = sub.id then sub else
      if r.id = sub.id then sub.charge n else r) = if r.id = sub.id then sub else r
    by_cases h : r.id = sub.id
    · rw [if_pos h, if_pos (show (sub.charge n).id = sub.id from rfl), if_pos h]
    · simp only [if_neg h]
  unfold DB.saveSubscription
  rw [hrows]

theorem rollback_wallet {userId consumed : ℤ} {funding : Funding}
    (hm : MovesWallet l l₁ userId (-delta))
    (h : BillingSession.rollbackFundingReserve env ans delta
      (.wallet userId (consumed + delta)) l₁ = (.ok funding, l₂)) : funding = .wallet userId consumed ∧ Unchanged l l₂ := by
  unfold BillingSession.rollbackFundingReserve at h
  rcases hi : increaseUserQuota env.setup ans.rollbackFaults userId delta false l₁ with _ | l'
  · simp only [hi] at h
    cases h
  simp only [hi] at h
  cases h
  have hm' := increaseUserQuota_ok hi
  refine ⟨by rw [add_sub_cancel_right], ?_, fun t => (hm'.token t).trans (hm.token t), ?_⟩
  · intro v
    rw [hm'.wallet, hm.wallet, map_map]
    cases l.walletBalance v with
    | none => rfl
    | some b =>
      simp only [map_some, Option.some.injEq, Function.comp_apply]
      split_ifs <;> omega
  · rw [hm'.db_eq, hm.db_eq]

theorem rollback_subscription {sf : SubscriptionFunding} {sub : UserSubscription}
    {funding : Funding} (hpos : 0 < delta)
    (hids : (l.db.subscriptions.map UserSubscription.id).Nodup)
    (hrow : l.db.subscription sf.subscriptionId = some sub) (hnn : 0 ≤ sub.amountUsed)
    (h : BillingSession.rollbackFundingReserve env ans delta (.subscription sf)
      { l with db := l.db.saveSubscription (sub.charge delta) } = (.ok funding, l₂)) :
    funding = .subscription sf ∧ l₂ = l := by
  have hcharged : (l.db.saveSubscription (sub.charge delta)).subscription sf.subscriptionId =
      some (sub.charge delta) := by
    refine DB.subscription_save hrow ?_
    show sub.id = _
    exact DB.subscription_id hrow
  simp only [BillingSession.rollbackFundingReserve, settleSubscription] at h
  obtain ⟨e, he⟩ | ⟨h0, -⟩ | ⟨sub', hs⟩ := postConsume_cases ans.rollbackFaults sf.subscriptionId
    (-delta) (l.db.saveSubscription (sub.charge delta))
  · rw [he] at h
    cases h
  · omega
  · have hsub : sub' = sub.charge delta := some.inj (hs.row.symm.trans hcharged)
    have hback : sub'.settle (-delta) = sub := by
      rw [hsub]
      unfold UserSubscription.settle UserSubscription.charge UserSubscription.usedAfter
      simp only [add_neg_cancel_right, max_eq_left hnn]
    rw [hs.eq, hback, saveSubscription_save, saveSubscription_self hids hrow] at h
    cases h
    exact ⟨rfl, rfl⟩

theorem reserveToken_ok (hpos : 0 < delta) (h : s.reserveToken env ans delta l = .ok l₁) :
    TokenCharged s.relayInfo delta l l₁ := by
  unfold BillingSession.reserveToken at h
  by_cases hp : delta ≤ 0 ∨ s.relayInfo.isPlayground = true
  · rw [if_pos hp] at h
    rcases h
    exact .none l (.inl (hp.resolve_left (by omega)))
  · rw [if_neg hp] at h
    rcases ht : preConsumeTokenQuota env ans s.relayInfo delta l with _ | l'
    · rw [ht] at h; cases h
    rw [ht] at h
    cases h
    exact preConsumeTokenQuota_ok ht

/-- **Everything a reservation can do**, provided its rollback succeeds: leave the session and the
balances alone, or go through. -/
theorem reserve_cases {target : ℤ}
    (hids : (l.db.subscriptions.map UserSubscription.id).Nodup)
    (hused : ∀ id sub, l.db.subscription id = some sub → 0 ≤ sub.amountUsed)
    (hroll : RollbackSucceeds env ans s (target - s.preConsumedQuota) l) :
    (∃ r l', s.reserve env ans target l = (r, s, l') ∧ Unchanged l l' ∧ (r = .ok () → l' = l)) ∨
      ∃ funding l₁ l₂, Reserves s (target - s.preConsumedQuota) l funding l₁ l₂ ∧
        s.reserve env ans target l =
          (.ok (), s.reserved funding (target - s.preConsumedQuota), l₂) := by
  unfold BillingSession.reserve
  split_ifs with hguard
  · exact .inl ⟨.ok (), l, rfl, .refl l, fun _ => rfl⟩
  simp only [Bool.or_eq_true, decide_eq_true_eq, not_or, Bool.not_eq_true, not_le] at hguard
  obtain ⟨⟨⟨hset, href⟩, htrust⟩, hlt⟩ := hguard
  have hpos : 0 < target - s.preConsumedQuota := by omega
  generalize target - s.preConsumedQuota = delta at hpos hroll
  unfold BillingSession.reserveDelta
  obtain ⟨e, he⟩ | ⟨userId, consumed, l₁, hf, he, hm⟩ | ⟨sf, sub, hf, hrow, hnn, hfits, he⟩ :=
    reserveFunding_cases env ans s hpos hused
  · rw [he]
    exact .inl ⟨_, l, rfl, .refl l, fun _ => rfl⟩
  · cases ht : s.reserveToken env ans delta l₁ with
    | error e =>
      -- the token refuses, and the wallet is given back
      obtain ⟨funding', l₂, hback⟩ := hroll _ _ he
      obtain ⟨rfl, hun⟩ := rollback_wallet hm hback
      simp only [he, ht, hback]
      exact .inl ⟨.error e, l₂, by rw [← hf], hun, fun h => nomatch h⟩
    | ok l₂ =>
      simp only [he, ht]
      exact .inr ⟨_, l₁, l₂, ⟨hset, href, htrust, hpos,
        .inl ⟨userId, consumed, hf, rfl, hm⟩, reserveToken_ok hpos ht⟩, rfl⟩
  · cases ht : s.reserveToken env ans delta
        { l with db := l.db.saveSubscription (sub.charge delta) } with
    | error e =>
      obtain ⟨funding', l₂, hback⟩ := hroll _ _ he
      obtain ⟨rfl, rfl⟩ := rollback_subscription hpos hids hrow hnn hback
      simp only [he, ht, hback]
      exact .inl ⟨.error e, _, by rw [← hf], .refl _, fun _ => rfl⟩
    | ok l₂ =>
      simp only [he, ht]
      exact .inr ⟨_, _, l₂, ⟨hset, href, htrust, hpos,
        .inr ⟨sf, sub, hf, rfl, hrow, hnn, hfits, rfl⟩, reserveToken_ok hpos ht⟩, rfl⟩

/-- What a reservation that goes through has charged. -/
theorem Reserves.charged {funding : Funding} (h : Reserves s delta l funding l₁ l₂) :
    (∀ t, l₂.tokenBalance t = (l.tokenBalance t).map fun b =>
      if t = s.relayInfo.tokenId ∧ s.relayInfo.isPlayground = false then b - delta else b) ∧
    FundingCharged delta l l₂ s.funding := by
  rcases h.source with ⟨userId, consumed, hf, -, hm⟩ | ⟨sf, sub, hf, -, hrow, -, -, hl⟩
  · refine ⟨fun t => by rw [h.token.token, hm.token], ?_⟩
    rw [hf]
    refine ⟨fun v => ?_, ?_⟩
    · rw [h.token.wallet, hm.wallet]
      simp only [sub_eq_add_neg]
    · rw [h.token.db_eq, hm.db_eq]
  · subst hl
    refine ⟨h.token.token, ?_⟩
    rw [hf]
    refine ⟨h.token.wallet, sub, hrow, ?_⟩
    rw [h.token.db_eq]

/-- **A reservation is all or nothing**, provided its rollback succeeds. -/
theorem reserve_atomic {target : ℤ}
    (hids : (l.db.subscriptions.map UserSubscription.id).Nodup)
    (hused : ∀ id sub, l.db.subscription id = some sub → 0 ≤ sub.amountUsed)
    (hroll : RollbackSucceeds env ans s (target - s.preConsumedQuota) l) :
    ReservesAllOrNothing s l (s.reserve env ans target l) := by
  obtain ⟨r, l', he, hun, hok⟩ | ⟨funding, l₁, l₂, hr, he⟩ := reserve_cases hids hused hroll
  · rw [he]
    cases r with
    | error e => exact ⟨rfl, hun⟩
    | ok u => exact .inl ⟨rfl, hok rfl⟩
  · rw [he]
    have hdelta : (s.reserved funding (target - s.preConsumedQuota)).preConsumedQuota -
        s.preConsumedQuota = target - s.preConsumedQuota := by
      simp only [BillingSession.reserved, syncRelayInfo_preConsumedQuota,
        add_sub_cancel_left]
    refine .inr ?_
    rw [hdelta]
    exact hr.charged

end Reserve

/-! ### The whole -/

/-- **All or nothing.**  Whatever the preference and the balances, and wherever a charge is refused
or fails, `NewBillingSession` charges the token and exactly one funding source by the quota the
session keeps, or moves no balance; the same holds of `Reserve`. -/
theorem billing_all_or_nothing (env : Env) (l : Ledger)
    (hids : (l.db.subscriptions.map UserSubscription.id).Nodup) :
    (∀ (ans : OpenAnswers) (info : RelayInfo) (quota : ℤ), 0 ≤ quota →
      ans.wallet.rollbackFaults = .none → ans.subscription.rollbackFaults = .none →
      l.db.preConsumeRecord info.requestId = none →
      AllOrNothing env ans.subscription info l (newBillingSession env ans info quota l)) ∧
    ∀ (ans : Answers) (s : BillingSession) (target : ℤ),
      (∀ id sub, l.db.subscription id = some sub → 0 ≤ sub.amountUsed) →
      RollbackSucceeds env ans s (target - s.preConsumedQuota) l →
      ReservesAllOrNothing s l (s.reserve env ans target l) := by
  constructor
  · intro ans info quota hq hw hs hfresh
    exact newBillingSession_atomic hq hw hs hfresh hids
  · intro ans s target hused hroll
    exact reserve_atomic hids hused hroll

/-- A process without batch updates and without trust. -/
def plainEnv : Env := ⟨⟨false, true⟩, .utc, 0, fun _ => ""⟩

/-- The database answers, at time `0`, and no statement fails. -/
def plainAnswers : Answers := ⟨none, .database, .database, .none, .none, .none, 0⟩

/-- A request of user `7` with token `3`, who prefers the wallet. -/
def walletFirstInfo : RelayInfo :=
  ⟨7, 3, "r", "wallet_first", false, false, false, 1000, 0, 0, 0, 0, 0, 0, 0⟩

/-- The user has `5` in the wallet, `1000` on the token and `80` left of a subscription. -/
def shortLedger : Ledger :=
  ⟨{ DB.empty with
      users := [⟨7, 5, 0, 0, "default", "", ""⟩]
      tokens := [⟨3, 1000, 0⟩]
      plans := [⟨1, "", .ofInt 0, .day, 30, 0, true, none, none, 0, "", "", 100, "never", 0⟩]
      subscriptions :=
        [⟨2, 7, 1, 100, 20, 0, 1000, .active, "", 0, 0, "", "", "", true⟩] }, .empty⟩

/-- The wallet is too small for a request of `10`, so the subscription is charged; a reservation of
`8` for a session on the wallet is charged too, and leaves the wallet in debt. -/
theorem billing_all_or_nothing_fallback :
    AllOrNothing plainEnv plainAnswers walletFirstInfo shortLedger
        (newBillingSession plainEnv ⟨plainAnswers, plainAnswers, .none, 0⟩ walletFirstInfo 10
          shortLedger) ∧
      ReservesAllOrNothing (.new walletFirstInfo (.wallet 7 0)) shortLedger
        (BillingSession.reserve plainEnv plainAnswers (.new walletFirstInfo (.wallet 7 0)) 8
          shortLedger) ∧
      ((newBillingSession plainEnv ⟨plainAnswers, plainAnswers, .none, 0⟩ walletFirstInfo 10
          shortLedger).2.db.subscription 2).map UserSubscription.amountUsed = some 30 ∧
      (BillingSession.reserve plainEnv plainAnswers (.new walletFirstInfo (.wallet 7 0)) 8
          shortLedger).2.2.walletBalance 7 = some (-3) := by
  have hids : (shortLedger.db.subscriptions.map UserSubscription.id).Nodup := by decide
  obtain ⟨hopen, hreserve⟩ := billing_all_or_nothing plainEnv shortLedger hids
  refine ⟨hopen ⟨plainAnswers, plainAnswers, .none, 0⟩ walletFirstInfo 10 (by decide) rfl rfl
    (by decide), hreserve plainAnswers (.new walletFirstInfo (.wallet 7 0)) 8 ?_ ?_, by decide,
    by decide⟩
  · intro id sub h
    have hmem : sub ∈ shortLedger.db.subscriptions := Table.get_mem h
    rw [List.mem_singleton.1 hmem]
    decide
  · intro funding l₁ h
    cases h
    exact ⟨_, _, rfl⟩

end NexusTok
