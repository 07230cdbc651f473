import NexusTok.Billing.Open

/-!
# The life of a session

After its `preConsume` a session takes any number of `Reserve`, `Settle` and `Refund` calls, in any
order.  The three guard themselves by flags, but not by the same ones: `Reserve` and `Refund` look
at `settled` and at `refunded`, `Settle` looks at `settled` only.  A `Settle` that comes after a
`Refund` therefore still corrects an estimate that has already been given back.

The machine of this file runs the calls without a failing statement, and keeps in a ghost field what
has become of the session: it is open, or the first call to end it has settled it or refunded it.
What is *taken* is then the reservation of an open session, the actual quota of a settled one, and
nothing of a refunded one.

* `settle_cases`, `refund_open` : what the calls do.
* `lifecycle_runs` : if no refunded session is settled to another amount than it had reserved, the
  funding source and the token are charged exactly what is taken, in every state.
* `settle_after_refund` : otherwise they are charged for a request that was refunded.
-/

namespace NexusTok.Lifecycle

open Machine Option UserSubscription

/-! ### The machine -/

/-- What has become of a session. -/
inductive Outcome where
  | opened
  | settled (actual : ℤ)
  | refunded
  deriving DecidableEq

/-- The session, the ledger, and what has become of the session. -/
structure State where
  session : BillingSession
  ledger : Ledger
  outcome : Outcome

/-- A call.  Redis or the database admits the token of a reservation. -/
inductive Event where
  | reserve (token : Admission) (targetQuota : ℤ)
  | settle (actualQuota : ℤ)
  | refund
  deriving DecidableEq

/-- The answers to a reservation when no statement fails. -/
def answers (token : Admission) : Answers := ⟨none, token, .database, .none, .none, .none, 0⟩

/-- The first call that sets the flag decides. -/
def Outcome.next (o o' : Outcome) (flag : Bool) : Outcome :=
  match o with
  | .opened => if flag then o' else .opened
  | _ => o

def step (env : Env) (st : State) : Event → State
  | .reserve token target =>
    let r := st.session.reserve env (answers token) target st.ledger
    ⟨r.2.1, r.2.2, st.outcome⟩
  | .settle actual =>
    let r := st.session.settle env .none actual st.ledger
    ⟨r.2.1, r.2.2, st.outcome.next (.settled actual) r.2.1.settled⟩
  | .refund =>
    let r := st.session.refund env .none st.ledger
    ⟨r.1, r.2, st.outcome.next .refunded r.1.refunded⟩

/-- What the request is charged. -/
def State.taken (st : State) : ℤ :=
  match st.outcome with
  | .opened => st.session.preConsumedQuota
  | .settled actual => actual
  | .refunded => 0

/-- The funding source has been charged `n` since `base`. -/
def FundingTaken (base l : Ledger) (n : ℤ) : Funding → Prop
  | .wallet userId _ => l.walletBalance userId = (base.walletBalance userId).map (· - n)
  | .subscription sf => ∃ sub₀ sub, base.db.subscription sf.subscriptionId = some sub₀ ∧
      l.db.subscription sf.subscriptionId = some sub ∧ sub.amountUsed = sub₀.amountUsed + n

/-- The token of the request has been charged `n` since `base`, outside the playground. -/
def TokenTaken (info : RelayInfo) (base l : Ledger) (n : ℤ) : Prop :=
  l.tokenBalance info.tokenId =
    (base.tokenBalance info.tokenId).map fun b => if info.isPlayground then b else b - n

/-- The funding source and the token have been charged exactly what is taken. -/
structure Accounted (info : RelayInfo) (base : Ledger) (st : State) : Prop where
  funding : FundingTaken base st.ledger st.taken st.session.funding
  token : TokenTaken info base st.ledger st.taken

/-- A session as `NewBillingSession` makes it, before its `preConsume` of `quota`. -/
inductive Fresh (info : RelayInfo) (quota : ℤ) : BillingSession → Prop
  | wallet (hq : 0 ≤ quota) : Fresh info quota (.new info (.wallet info.userId 0))
  | subscription (hq : 0 < quota) : Fresh info quota
      (.new info (.subscription ⟨info.requestId, info.userId, quota, 0, 0, 0, 0⟩))

/-- The ledger a session is opened on: ids are keys, used amounts are not negative, and the request
is new. -/
structure Ready (info : RelayInfo) (l : Ledger) : Prop where
  ids : (l.db.subscriptions.map UserSubscription.id).Nodup
  id_pos : ∀ id sub, l.db.subscription id = some sub → 0 < id
  used : ∀ id sub, l.db.subscription id = some sub → 0 ≤ sub.amountUsed
  request : l.db.preConsumeRecord info.requestId = none

/-- A wallet from which `m` has been taken takes `n` back: `n` passes `ValidateWalletQuota`, and a
write at once finds the wallet with room for it. -/
def TakesBack (setup : Setup) (userId m n : ℤ) (l : Ledger) : Prop :=
  n ≤ maxWalletQuota ∧ (setup.batchUpdateEnabled = true ∨
    ∃ w, l.db.wallet userId = some w ∧ w - m + n ≤ maxWalletQuota)

/-- A change of the used amount of a subscription is not cut off at zero. -/
def Uncut (delta : ℤ) (l : Ledger) : Funding → Prop
  | .wallet _ _ => True
  | .subscription sf =>
    ∀ sub, l.db.subscription sf.subscriptionId = some sub → 0 ≤ sub.amountUsed + delta

/-- A call that keeps the account.  What a `Reserve` or a `Refund` may have to give back to a wallet
is accepted; a `Settle` does nothing, or meets a session that has not been refunded. -/
def Keeps (env : Env) (st : State) : Event → Prop
  | .reserve _ target => ∀ userId consumed, st.session.funding = .wallet userId consumed →
      TakesBack env.setup userId (target - st.session.preConsumedQuota)
        (target - st.session.preConsumedQuota) st.ledger
  | .settle actual => st.session.settled = true ∨ actual = st.session.preConsumedQuota ∨
      (st.session.refunded = false ∧
        Uncut (actual - st.session.preConsumedQuota) st.ledger st.session.funding)
  | .refund => ∀ userId consumed, st.session.funding = .wallet userId consumed →
      TakesBack env.setup userId 0 st.session.preConsumedQuota st.ledger

/-! ### What the calls do -/

section Calls

variable {env : Env} {s : BillingSession} {l l₁ l₂ : Ledger}

theorem increaseUserQuota_none {setup : Setup} {userId n m : ℤ} (l₁ : Ledger) (hn : 0 ≤ n)
    (h : TakesBack setup userId m n l)
    (hw : l₁.db.wallet userId = (l.db.wallet userId).map (· - m)) :
    ∃ l₂, increaseUserQuota setup .none userId n false l₁ = .ok l₂ := by
  have hv : validateWalletQuota n = .ok () := by
    rw [validateWalletQuota, if_neg (not_lt.2 h.1)]
  unfold increaseUserQuota
  rw [if_neg (not_lt.2 hn), hv]
  rcases h.2 with hb | ⟨w, hrow, hroom⟩
  · exact ⟨_, by simp only [hb]; rfl⟩
  · rw [hrow, map_some] at hw
    obtain ⟨user, huser, hquota⟩ := map_eq_some_iff.1 hw
    have hfit : user.quota ≤ maxWalletQuota - n := by omega
    have hdb : increaseUserQuotaDB .none userId n l₁.db = .ok (l₁.db.addQuota userId n) := by
      unfold increaseUserQuotaDB
      rw [if_neg (show ¬ Faults.none _ = true from Bool.false_ne_true), huser]
      simp only [if_pos hfit]
    simp only [hdb]
    split_ifs
    · exact ⟨_, rfl⟩
    · exact ⟨_, rfl⟩

theorem settleSubscription_ok {f : Faults} {id delta : ℤ} {sub : UserSubscription}
    (h : Settles f id delta l.db sub) : settleSubscription f id delta l =
      (.ok (), { l with db := l.db.saveSubscription (sub.settle delta) }) := by
  unfold settleSubscription
  rw [h.eq]

/-- What a settlement does to the funding source. -/
def SettlesFunding (delta : ℤ) (l l₁ : Ledger) : Funding → Prop
  | .wallet userId _ => MovesWallet l l₁ userId (-delta)
  | .subscription sf => ∃ sub, Settles .none sf.subscriptionId delta l.db sub ∧
      l₁ = { l with db := l.db.saveSubscription (sub.settle delta) }

theorem settleFunding_cases (env : Env) (s : BillingSession) {delta : ℤ} (hd : delta ≠ 0)
    (l : Ledger) :
    (∃ e, s.settleFunding env .none delta l = (.error e, l)) ∨
      ∃ l₁, s.settleFunding env .none delta l = (.ok (), l₁) ∧
        SettlesFunding delta l l₁ s.funding := by
  unfold BillingSession.settleFunding
  cases s.funding with
  | wallet userId consumed =>
    simp only [if_neg hd]
    by_cases hpos : 0 < delta
    · rw [if_pos hpos]
      cases hdec : decreaseUserQuota env.setup .none userId delta false l with
      | error e => exact .inl ⟨e, rfl⟩
      | ok l₁ => exact .inr ⟨l₁, rfl, decreaseUserQuota_ok hdec⟩
    · rw [if_neg hpos]
      cases hinc : increaseUserQuota env.setup .none userId (-delta) false l with
      | error e => exact .inl ⟨e, rfl⟩
      | ok l₁ => exact .inr ⟨l₁, rfl, increaseUserQuota_ok hinc⟩
  | subscription sf =>
    simp only [if_neg hd, settleSubscription]
    obtain ⟨e, he⟩ | ⟨h0, -⟩ | ⟨sub, hs⟩ := postConsume_cases .none sf.subscriptionId delta l.db
    · exact .inl ⟨e, by rw [he]⟩
    · exact absurd h0 hd
    · exact .inr ⟨_, by rw [hs.eq], sub, hs, rfl⟩

theorem settleToken_charged (env : Env) (s : BillingSession) (delta : ℤ) (l : Ledger) :
    ∃ l', s.settleToken env .none delta l = .ok l' ∧ TokenCharged s.relayInfo delta l l' := by
  unfold BillingSession.settleToken
  by_cases hp : s.relayInfo.isPlayground = true
  · rw [if_pos hp]
    exact ⟨l, rfl, .none l (.inl hp)⟩
  rw [if_neg hp]
  have hp' : s.relayInfo.isPlayground = false := Bool.not_eq_true _ ▸ hp
  by_cases hpos : 0 < delta
  · rw [if_pos hpos]
    have hdec : ∃ l', decreaseTokenQuota env.setup .none s.relayInfo.tokenId delta l = .ok l' := by
      unfold decreaseTokenQuota changeTokenQuota
      rw [if_neg (not_lt.2 hpos.le)]
      split_ifs with hb hf
      · exact ⟨_, rfl⟩
      · cases hf
      · exact ⟨_, rfl⟩
    obtain ⟨l', hl'⟩ := hdec
    exact ⟨l', hl', .of_moves (decreaseTokenQuota_ok hl') hp'⟩
  · rw [if_neg hpos]
    obtain ⟨l', hl'⟩ := increaseTokenQuota_none env.setup s.relayInfo.tokenId
      (show 0 ≤ -delta by omega) l
    exact ⟨l', hl', .of_moves (increaseTokenQuota_ok hl') hp'⟩

/-- A settlement that moves balances: the funding source, then the token. -/
structure SettlesWith (s : BillingSession) (actual : ℤ) (l l₁ l₂ : Ledger) (s' : BillingSession) :
    Prop where
  differs : actual - s.preConsumedQuota ≠ 0
  settled : s'.settled = true
  funding : s'.funding = s.funding
  source : SettlesFunding (actual - s.preConsumedQuota) l l₁ s.funding
  token : TokenCharged s.relayInfo (actual - s.preConsumedQuota) l₁ l₂

/-- **Everything a settlement can do** to a session that is not settled: move nothing, or charge the
difference. -/
theorem settle_cases (env : Env) (actual : ℤ) (hset : s.settled = false)
    (hfs : s.fundingSettled = false) (l : Ledger) :
    (∃ r s', s.settle env .none actual l = (r, s', l) ∧
        (s' = s ∨ (actual = s.preConsumedQuota ∧ s' = { s with settled := true }))) ∨
      ∃ s' l₁ l₂, s.settle env .none actual l = (.ok (), s', l₂) ∧
        SettlesWith s actual l l₁ l₂ s' := by
  unfold BillingSession.settle
  rw [if_neg (ne_true_of_eq_false hset)]
  by_cases hd : actual - s.preConsumedQuota = 0
  · rw [if_pos hd]
    exact .inl ⟨_, _, rfl, .inr ⟨by omega, rfl⟩⟩
  rw [if_neg hd, if_neg (ne_true_of_eq_false hfs)]
  obtain ⟨e, he⟩ | ⟨l₁, he, hf⟩ := settleFunding_cases env s hd l
  · rw [he]
    exact .inl ⟨_, _, rfl, .inl rfl⟩
  · obtain ⟨l₂, ht, htok⟩ := settleToken_charged env { s with fundingSettled := true }
      (actual - s.preConsumedQuota) l₁
    simp only [he, BillingSession.finishSettle, ht]
    exact .inr ⟨_, l₁, l₂, rfl, hd, rfl, rfl, hf, htok⟩

/-- An outcome is decided once. -/
theorem Outcome.next_of_ne {o : Outcome} (h : o ≠ .opened) (o' : Outcome) (flag : Bool) :
    o.next o' flag = o := by
  cases o with
  | opened => exact absurd rfl h
  | settled | refunded => rfl

/-- A settled session takes no further call. -/
theorem step_settled {st : State} (h : st.session.settled = true) (ho : st.outcome ≠ .opened)
    (e : Event) : step env st e = st := by
  cases e with
  | reserve token target =>
    simp only [step, BillingSession.reserve, h, Bool.true_or, ↓reduceIte]
  | settle actual =>
    simp only [step, BillingSession.settle, h, ↓reduceIte, Outcome.next_of_ne ho]
  | refund =>
    simp only [step, BillingSession.refund, h, Bool.true_or, ↓reduceIte, Outcome.next_of_ne ho]

/-- A refunded session takes no call but a settlement. -/
theorem step_refunded {st : State} (h : st.session.refunded = true) (ho : st.outcome ≠ .opened)
    {e : Event} (he : ∀ actual, e ≠ .settle actual) : step env st e = st := by
  cases e with
  | reserve token target =>
    simp only [step, BillingSession.reserve, h, Bool.or_true, Bool.true_or, ↓reduceIte]
  | settle actual => exact absurd rfl (he actual)
  | refund =>
    simp only [step, BillingSession.refund, h, Bool.or_true, Bool.true_or, ↓reduceIte,
      Outcome.next_of_ne ho]

end Calls

/-! ### What is taken -/

section Taken

variable {info : RelayInfo} {base l l₁ l₂ : Ledger} {n m : ℤ}

theorem TokenTaken.charge {info' : RelayInfo} (h : TokenTaken info base l n)
    (hc : TokenCharged info' m l l₁) (hid : info'.tokenId = info.tokenId)
    (hp : info'.isPlayground = info.isPlayground) : TokenTaken info base l₁ (n + m) := by
  unfold TokenTaken at h ⊢
  rw [hc.token, h, map_map, hid, hp]
  congr 1
  funext b
  cases info.isPlayground with
  | true => simp
  | false =>
    simp only [Function.comp_apply, and_self, Bool.false_eq_true, ↓reduceIte]
    omega

theorem TokenTaken.of_same (h : TokenTaken info base l n)
    (hl : ∀ t, l₁.tokenBalance t = l.tokenBalance t) : TokenTaken info base l₁ n := by
  unfold TokenTaken at h ⊢
  rw [hl, h]

theorem FundingTaken.wallet {userId consumed consumed' : ℤ}
    (h : FundingTaken base l n (.wallet userId consumed)) (hm : MovesWallet l l₁ userId (-m)) :
    FundingTaken base l₁ (n + m) (.wallet userId consumed') := by
  show l₁.walletBalance userId = (base.walletBalance userId).map (· - (n + m))
  have h' : l.walletBalance userId = (base.walletBalance userId).map (· - n) := h
  rw [hm.wallet, h', map_map]
  congr 1
  funext b
  simp only [Function.comp_apply, ↓reduceIte]
  omega

theorem FundingTaken.of_token {funding : Funding} {info' : RelayInfo}
    (h : FundingTaken base l n funding) (hc : TokenCharged info' m l l₁) :
    FundingTaken base l₁ n funding := by
  cases funding with
  | wallet userId consumed => exact (hc.wallet userId).trans h
  | subscription sf =>
    unfold FundingTaken at h ⊢
    rw [hc.db_eq]
    exact h

theorem FundingTaken.of_unchanged {funding : Funding} (h : FundingTaken base l n funding)
    (hu : Unchanged l l₁) : FundingTaken base l₁ n funding := by
  cases funding with
  | wallet userId consumed => exact (hu.wallet userId).trans h
  | subscription sf =>
    unfold FundingTaken at h ⊢
    rw [hu.db_eq]
    exact h

theorem FundingTaken.subscription {sf : SubscriptionFunding} {sub row : UserSubscription}
    (h : FundingTaken base l n (.subscription sf))
    (hsub : l.db.subscription sf.subscriptionId = some sub)
    (hrow : l₁.db.subscription sf.subscriptionId = some row)
    (hused : row.amountUsed = sub.amountUsed + m) :
    FundingTaken base l₁ (n + m) (.subscription sf) := by
  obtain ⟨sub₀, sub', h₀, h', hn⟩ := h
  rw [hsub, Option.some.injEq] at h'
  subst h'
  exact ⟨sub₀, row, h₀, hrow, by omega⟩

end Taken

/-! ### The invariant -/

/-- An open session on a subscription holds its estimate: the pre-consume under its record, and the
rest as extra reservations. -/
structure SubscriptionHeld (s : BillingSession) (l : Ledger) (sf : SubscriptionFunding) : Prop where
  id_pos : 0 < sf.subscriptionId
  requestId : trimSpace sf.requestId ≠ ""
  positive : 0 < sf.preConsumed
  info : s.relayInfo.subscriptionId = sf.subscriptionId
  estimate : s.preConsumedQuota = sf.preConsumed + s.extraReserved
  extra : 0 ≤ s.extraReserved
  record : l.db.preConsumeRecord sf.requestId =
    some ⟨sf.requestId, sf.userId, sf.subscriptionId, sf.preConsumed, .consumed⟩
  row : ∃ sub, l.db.subscription sf.subscriptionId = some sub ∧
    s.preConsumedQuota ≤ sub.amountUsed ∧ (0 < sub.amountTotal → sub.amountUsed ≤ sub.amountTotal)

/-- The estimate is held by the funding source. -/
def Held (s : BillingSession) (l : Ledger) : Funding → Prop
  | .wallet _ consumed => consumed = s.preConsumedQuota
  | .subscription sf => SubscriptionHeld s l sf

/-- The flags and the counters of an open session. -/
structure IsOpen (info : RelayInfo) (s : BillingSession) (l : Ledger) : Prop where
  settled : s.settled = false
  refunded : s.refunded = false
  fundingSettled : s.fundingSettled = false
  nonneg : 0 ≤ s.preConsumedQuota
  tokenConsumed : s.tokenConsumed = s.preConsumedQuota
  tokenId : s.relayInfo.tokenId = info.tokenId
  playground : s.relayInfo.isPlayground = info.isPlayground
  ids : (l.db.subscriptions.map UserSubscription.id).Nodup
  used : ∀ id sub, l.db.subscription id = some sub → 0 ≤ sub.amountUsed
  source : Held s l s.funding

/-- The flags agree with what has become of the session. -/
def Phase (info : RelayInfo) (st : State) : Prop :=
  match st.outcome with
  | .opened => IsOpen info st.session st.ledger
  | .settled _ => st.session.settled = true
  | .refunded => st.session.refunded = true

section Open

variable {env : Env} {info : RelayInfo} {s : BillingSession} {base l l₁ l₂ : Ledger}

/-- A ledger that differs in users and tokens only. -/
theorem IsOpen.of_db (h : IsOpen info s l)
    (hdb : l₁.db = { l.db with users := l₁.db.users, tokens := l₁.db.tokens }) :
    IsOpen info s l₁ := by
  have hsubs : l₁.db.subscriptions = l.db.subscriptions := by rw [hdb]
  have hrow : ∀ id, l₁.db.subscription id = l.db.subscription id := by
    intro id
    rw [DB.subscription, hsubs, DB.subscription]
  refine { h with ids := by rw [hsubs]; exact h.ids, used := ?_, source := ?_ }
  · intro id sub
    rw [hrow]
    exact h.used id sub
  · have hs := h.source
    cases hf : s.funding with
    | wallet userId consumed =>
      rw [hf] at hs
      exact hs
    | subscription sf =>
      rw [hf] at hs
      obtain ⟨h₁, h₂, h₃, h₄, h₅, h₆, h₇, h₈⟩ := hs
      refine ⟨h₁, h₂, h₃, h₄, h₅, h₆, ?_, ?_⟩
      · rw [hdb]
        exact h₇
      · rw [hrow]
        exact h₈

/-- The rollback of a reservation is accepted. -/
theorem IsOpen.rollback (h : IsOpen info s l) (token : Admission) {delta : ℤ} (hpos : 0 < delta)
    (hw : ∀ userId consumed, s.funding = .wallet userId consumed →
      TakesBack env.setup userId delta delta l) :
    RollbackSucceeds env (answers token) s delta l := by
  intro funding l₁ hr
  have hs := h.source
  unfold BillingSession.reserveFunding at hr
  cases hf : s.funding with
  | wallet userId consumed =>
    rw [hf] at hr
    have hback := hw userId consumed hf
    rcases hd : decreaseUserQuota env.setup .none userId delta false l with _ | l'
    · simp only [answers, hd] at hr
      cases hr
    simp only [answers, hd] at hr
    cases hr
    have hinc : ∃ l₂, increaseUserQuota env.setup .none userId delta false l₁ = .ok l₂ := by
      cases hb : env.setup.batchUpdateEnabled with
      | true =>
        refine increaseUserQuota_none l₁ (l := l₁) (m := 0) hpos.le ⟨hback.1, .inl hb⟩ ?_
        simp
      | false =>
        refine increaseUserQuota_none l₁ hpos.le hback ?_
        unfold decreaseUserQuota at hd
        rw [if_neg (not_lt.2 hpos.le), hb, Bool.and_false, if_neg Bool.false_ne_true,
          if_neg (show ¬ Faults.none _ = true from Bool.false_ne_true), Except.ok.injEq] at hd
        rw [← hd]
        simp only [wallet_addQuota, ↓reduceIte, sub_eq_add_neg]
    obtain ⟨l₂, hl₂⟩ := hinc
    refine ⟨.wallet userId (consumed + delta - delta), l₂, ?_⟩
    simp only [BillingSession.rollbackFundingReserve, answers, hl₂]
  | subscription sf =>
    rw [hf] at hr hs
    simp only [answers, settleSubscription] at hr
    obtain ⟨e, he⟩ | ⟨h0, -⟩ | ⟨sub, hset⟩ := postConsume_cases .none sf.subscriptionId delta l.db
    · rw [he] at hr
      cases hr
    · omega
    · rw [hset.eq] at hr
      cases hr
      have hrow : (l.db.saveSubscription (sub.settle delta)).subscription sf.subscriptionId =
          some (sub.settle delta) := by
        refine DB.subscription_save hset.row ?_
        show sub.id = sf.subscriptionId
        exact DB.subscription_id hset.row
      have hnn := h.used _ sub hset.row
      have hfits := exceeds_eq_false_iff.1 hset.fits
      have hback : Settles .none sf.subscriptionId (-delta)
          (l.db.saveSubscription (sub.settle delta)) (sub.settle delta) := by
        refine ⟨hset.id_pos, by omega, hrow, ?_, rfl, rfl, rfl⟩
        rw [exceeds_eq_false_iff]
        simp only [UserSubscription.settle, UserSubscription.usedAfter]
        omega
      have hsettle : ∃ l₂, settleSubscription .none sf.subscriptionId (-delta)
          { l with db := l.db.saveSubscription (sub.settle delta) } = (.ok (), l₂) :=
        ⟨_, settleSubscription_ok hback⟩
      obtain ⟨l₂, hl₂⟩ := hsettle
      refine ⟨.subscription sf, l₂, ?_⟩
      simp only [BillingSession.rollbackFundingReserve, answers, hl₂]

theorem SubscriptionHeld.reserved {sf : SubscriptionFunding} {sub : UserSubscription} {delta : ℤ}
    (h : SubscriptionHeld s l sf) (hpos : 0 < delta)
    (hsub : l.db.subscription sf.subscriptionId = some sub) (hfits : sub.exceeds delta = false) :
    SubscriptionHeld (s.reserved (.subscription sf) delta)
      { l with db := l.db.saveSubscription (sub.charge delta) } sf := by
  obtain ⟨row, hrow, hused, -⟩ := h.row
  rw [hsub, Option.some.injEq] at hrow
  subst hrow
  have hid : sub.id = sf.subscriptionId := DB.subscription_id hsub
  have hextra := h.extra
  have hestimate := h.estimate
  refine ⟨h.id_pos, h.requestId, h.positive, rfl, ?_, ?_, h.record, sub.charge delta,
    DB.subscription_save hsub hid, ?_, exceeds_eq_false_iff.1 hfits⟩
  · show s.preConsumedQuota + delta = sf.preConsumed + (s.extraReserved + delta)
    omega
  · show 0 ≤ s.extraReserved + delta
    omega
  · show s.preConsumedQuota + delta ≤ sub.amountUsed + delta
    omega

/-- An open session stays open under a reservation that goes through. -/
theorem IsOpen.reserved {delta : ℤ} {funding : Funding} (h : IsOpen info s l)
    (hr : Reserves s delta l funding l₁ l₂) : IsOpen info (s.reserved funding delta) l₂ := by
  have hpos := hr.pos
  have hnn := h.nonneg
  have hdb : l₂.db = { l₁.db with users := l₂.db.users, tokens := l₂.db.tokens } := by
    rw [hr.token.db_eq]
  refine IsOpen.of_db ?_ hdb
  have hsource := h.source
  rcases hr.source with ⟨userId, consumed, hf, rfl, hm⟩ | ⟨sf, sub, hf, rfl, hsub, h0, hfits, rfl⟩
  · rw [hf] at hsource
    refine IsOpen.of_db (l := l) ?_ (by rw [hm.db_eq])
    refine ⟨h.settled, h.refunded, h.fundingSettled, ?_, ?_, h.tokenId, h.playground, h.ids,
      h.used, ?_⟩
    · show 0 ≤ s.preConsumedQuota + delta
      omega
    · show s.tokenConsumed + delta = s.preConsumedQuota + delta
      rw [h.tokenConsumed]
    · show consumed + delta = s.preConsumedQuota + delta
      rw [show consumed = s.preConsumedQuota from hsource]
  · rw [hf] at hsource
    have hheld := SubscriptionHeld.reserved hsource hpos hsub hfits
    refine ⟨h.settled, h.refunded, h.fundingSettled, ?_, ?_, h.tokenId, h.playground, ?_, ?_, hheld⟩
    · show 0 ≤ s.preConsumedQuota + delta
      omega
    · show s.tokenConsumed + delta = s.preConsumedQuota + delta
      rw [h.tokenConsumed]
    · rw [DB.ids_saveSubscription]
      exact h.ids
    · intro id row hrow
      by_cases hid : id = sf.subscriptionId
      · have hcharged : (l.db.saveSubscription (sub.charge delta)).subscription id =
            some (sub.charge delta) := by
          rw [hid]
          exact DB.subscription_save hsub (show sub.id = _ from DB.subscription_id hsub)
        rw [← some.inj (hcharged.symm.trans hrow)]
        show 0 ≤ sub.amountUsed + delta
        omega
      · have hne : id ≠ sub.id := by
          rw [DB.subscription_id hsub]
          exact hid
        have hkeep : (l.db.saveSubscription (sub.charge delta)).subscription id =
            l.db.subscription id := DB.subscription_save_ne hne
        exact h.used id row (hkeep.symm.trans hrow)

theorem refund_wallet {userId consumed : ℤ} (h : IsOpen info s l)
    (hf : s.funding = .wallet userId consumed) (hpos : 0 < s.preConsumedQuota)
    (hback : TakesBack env.setup userId 0 s.preConsumedQuota l) :
    ∃ l₁ l₂, s.refund env .none l = ({ s with refunded := true }, l₂) ∧
      MovesWallet l l₁ userId s.preConsumedQuota ∧
      TokenCharged s.relayInfo (-s.preConsumedQuota) l₁ l₂ := by
  have hconsumed : consumed = s.preConsumedQuota := by
    have := h.source
    rw [hf] at this
    exact this
  have hneeds : s.needsRefund = true := by
    simp only [BillingSession.needsRefund, h.settled, h.refunded, h.fundingSettled,
      h.tokenConsumed, hpos, Bool.or_self, Bool.false_eq_true, ↓reduceIte]
  obtain ⟨l₁, hl₁⟩ := increaseUserQuota_none l hpos.le hback (by simp)
  have hfunding : s.refundFunding env .none l = l₁ := by
    simp only [BillingSession.refundFunding, hf, hconsumed, if_neg (not_le.2 hpos), hl₁,
      Ledger.after]
  have hextra : s.refundExtra .none l₁ = l₁ := by
    simp only [BillingSession.refundExtra, hf]
  refine ⟨l₁, s.refundToken env .none l₁, ?_, increaseUserQuota_ok hl₁, ?_⟩
  · simp only [BillingSession.refund, h.settled, h.refunded, hneeds, hfunding, hextra, Bool.or_self,
      Bool.not_true, Bool.false_eq_true, ↓reduceIte]
  · rw [← h.tokenConsumed]
    exact rollbackToken_charged (answers .database) s
      (h.tokenConsumed ▸ hpos.le) rfl l₁

theorem refundFunding_subscription (env : Env) {sf : SubscriptionFunding} {sub : UserSubscription}
    (hf : s.funding = .subscription sf) (h : SubscriptionHeld s l sf)
    (hsub : l.db.subscription sf.subscriptionId = some sub)
    (hfits : 0 < sub.amountTotal → sub.amountUsed ≤ sub.amountTotal) :
    ∃ r, s.refundFunding env .none l =
      { l with db := (l.db.saveSubscription (sub.settle (-sf.preConsumed))).saveRecord r } := by
  have hpos := h.positive
  have hr : Refunds .none sf.requestId l.db
      ⟨sf.requestId, sf.userId, sf.subscriptionId, sf.preConsumed, .consumed⟩ :=
    ⟨h.requestId, rfl, h.record, rfl⟩
  have hs : Settles .none sf.subscriptionId (-sf.preConsumed) l.db sub := by
    refine ⟨h.id_pos, by omega, hsub, ?_, rfl, rfl, rfl⟩
    rw [exceeds_eq_false_iff]
    omega
  have hrefund := hr.eq
  simp only [if_neg (not_le.2 hpos), hs.eq] at hrefund
  simp only [BillingSession.refundFunding, hf, subscriptionFundingRefund, if_neg (not_le.2 hpos),
    refundWithRetry, hrefund]
  exact ⟨_, rfl⟩

/-- A refund on a subscription gives the estimate back to it and to the token. -/
theorem refund_subscription (env : Env) {sf : SubscriptionFunding} (h : IsOpen info s l)
    (hf : s.funding = .subscription sf) :
    ∃ l₁ l₂ sub row, s.refund env .none l = ({ s with refunded := true }, l₂) ∧
      l.db.subscription sf.subscriptionId = some sub ∧
      l₁.db.subscription sf.subscriptionId = some row ∧
      row.amountUsed = sub.amountUsed + -s.preConsumedQuota ∧
      (∀ t, l₁.tokenBalance t = l.tokenBalance t) ∧
      TokenCharged s.relayInfo (-s.preConsumedQuota) l₁ l₂ := by
  have hheld : SubscriptionHeld s l sf := by
    have := h.source
    rw [hf] at this
    exact this
  obtain ⟨sub, hsub, hused, hfits⟩ := hheld.row
  have hpos := hheld.positive
  have hnn := hheld.extra
  have hestimate := hheld.estimate
  have hneeds : s.needsRefund = true := by
    simp only [BillingSession.needsRefund, h.settled, h.refunded, h.fundingSettled,
      h.tokenConsumed, show 0 < s.preConsumedQuota by omega, Bool.or_self, Bool.false_eq_true,
      ↓reduceIte]
  obtain ⟨r, hfunding⟩ := refundFunding_subscription env hf hheld hsub hfits
  have hid : (sub.settle (-sf.preConsumed)).id = sf.subscriptionId := by
    show sub.id = sf.subscriptionId
    exact DB.subscription_id hsub
  set l' : Ledger :=
    { l with db := (l.db.saveSubscription (sub.settle (-sf.preConsumed))).saveRecord r } with hl'
  have hrow : l'.db.subscription sf.subscriptionId = some (sub.settle (-sf.preConsumed)) :=
    DB.subscription_save hsub hid
  have hleft : (sub.settle (-sf.preConsumed)).amountUsed = sub.amountUsed - sf.preConsumed := by
    simp only [UserSubscription.settle, UserSubscription.usedAfter]
    omega
  have hextra : ∃ row, (s.refundExtra .none l').db.subscription sf.subscriptionId = some row ∧
      row.amountUsed = sub.amountUsed + -s.preConsumedQuota ∧
      ∀ t, (s.refundExtra .none l').tokenBalance t = l.tokenBalance t := by
    simp only [BillingSession.refundExtra, hf, hheld.info]
    by_cases hx : 0 < s.extraReserved
    · have hs : Settles .none sf.subscriptionId (-s.extraReserved) l'.db
          (sub.settle (-sf.preConsumed)) := by
        refine ⟨hheld.id_pos, by omega, hrow, ?_, rfl, rfl, rfl⟩
        rw [exceeds_eq_false_iff, hleft]
        show 0 < sub.amountTotal → _ ≤ sub.amountTotal
        omega
      rw [if_pos ⟨hx, hheld.id_pos⟩, settleSubscription_ok hs]
      refine ⟨(sub.settle (-sf.preConsumed)).settle (-s.extraReserved),
        DB.subscription_save hrow hid, ?_, fun t => rfl⟩
      rw [UserSubscription.settle, UserSubscription.usedAfter, hleft]
      show max _ _ = _
      omega
    · rw [if_neg (fun hc => hx hc.1)]
      exact ⟨_, hrow, by omega, fun t => rfl⟩
  obtain ⟨row, hrow', hback, htok⟩ := hextra
  refine ⟨s.refundExtra .none l', s.refundToken env .none (s.refundExtra .none l'), sub, row, ?_,
    hsub, hrow', hback, htok, ?_⟩
  · simp only [BillingSession.refund, h.settled, h.refunded, hneeds, hfunding, Bool.or_self,
      Bool.not_true, Bool.false_eq_true, ↓reduceIte]
  · rw [← h.tokenConsumed]
    exact rollbackToken_charged (answers .database) s (h.tokenConsumed ▸ h.nonneg) rfl _

end Open

/-! ### Steps and runs -/

section Steps

variable {env : Env} {info : RelayInfo} {s : BillingSession} {base l : Ledger}

theorem Outcome.next_opened (o : Outcome) (flag : Bool) :
    Outcome.opened.next o flag = if flag then o else .opened := rfl

theorem reserve_keeps {token : Admission} {target : ℤ} (h : IsOpen info s l)
    (ha : Accounted info base ⟨s, l, .opened⟩)
    (hk : Keeps env ⟨s, l, .opened⟩ (.reserve token target)) :
    Accounted info base (step env ⟨s, l, .opened⟩ (.reserve token target)) ∧
      Phase info (step env ⟨s, l, .opened⟩ (.reserve token target)) := by
  by_cases hle : target ≤ s.preConsumedQuota
  · -- nothing is asked for
    have hnoop : s.reserve env (answers token) target l = (.ok (), s, l) := by
      rw [BillingSession.reserve, if_pos (by simp [hle])]
    simp only [step, hnoop]
    exact ⟨ha, h⟩
  have hpos : 0 < target - s.preConsumedQuota := by omega
  obtain ⟨r, l', he, hun, -⟩ | ⟨funding, l₁, l₂, hr, he⟩ :=
    reserve_cases h.ids h.used (h.rollback token hpos hk)
  · simp only [step, he]
    exact ⟨⟨ha.funding.of_unchanged hun, ha.token.of_same hun.token⟩, h.of_db hun.db_eq⟩
  · simp only [step, he]
    have htaken : State.taken
        ⟨s.reserved funding (target - s.preConsumedQuota), l₂, .opened⟩ =
          s.preConsumedQuota + (target - s.preConsumedQuota) :=
      BillingSession.syncRelayInfo_preConsumedQuota _
    have hfunding : (s.reserved funding (target - s.preConsumedQuota)).funding = funding :=
      BillingSession.syncRelayInfo_funding _
    refine ⟨⟨?_, ?_⟩, h.reserved hr⟩
    · rw [htaken]
      show FundingTaken base l₂ _ (s.reserved funding _).funding
      rw [hfunding]
      refine FundingTaken.of_token ?_ hr.token
      have hf₀ : FundingTaken base l s.preConsumedQuota s.funding := ha.funding
      rcases hr.source with ⟨userId, consumed, hf, rfl, hm⟩ | ⟨sf, sub, hf, rfl, hsub, -, -, rfl⟩
      · rw [hf] at hf₀
        exact hf₀.wallet hm
      · rw [hf] at hf₀
        have hid : sub.id = sf.subscriptionId := DB.subscription_id hsub
        exact hf₀.subscription hsub (DB.subscription_save hsub hid) rfl
    · rw [htaken]
      have ht₀ : TokenTaken info base l₁ s.preConsumedQuota := by
        refine TokenTaken.of_same (l := l) ha.token ?_
        rcases hr.source with ⟨_, _, -, -, hm⟩ | ⟨_, _, -, -, -, -, -, rfl⟩
        · exact hm.token
        · exact fun t => rfl
      exact ht₀.charge hr.token h.tokenId h.playground

theorem settle_keeps {actual : ℤ} (h : IsOpen info s l)
    (ha : Accounted info base ⟨s, l, .opened⟩)
    (hk : Keeps env ⟨s, l, .opened⟩ (.settle actual)) :
    Accounted info base (step env ⟨s, l, .opened⟩ (.settle actual)) ∧
      Phase info (step env ⟨s, l, .opened⟩ (.settle actual)) := by
  obtain ⟨r, s', he, rfl | ⟨hactual, rfl⟩⟩ | ⟨s', l₁, l₂, he, hs⟩ :=
    settle_cases env actual h.settled h.fundingSettled l
  · -- the settlement is refused, and the session stays open
    simp only [step, he, h.settled, Outcome.next_opened]
    exact ⟨ha, h⟩
  · simp only [step, he, Outcome.next_opened]
    subst hactual
    exact ⟨⟨ha.funding, ha.token⟩, rfl⟩
  · simp only [step, he, Outcome.next_opened, hs.settled]
    have hsum : actual = s.preConsumedQuota + (actual - s.preConsumedQuota) := by omega
    have hf₀ : FundingTaken base l s.preConsumedQuota s.funding := ha.funding
    have hsource := hs.source
    refine ⟨⟨?_, ?_⟩, hs.settled⟩
    · show FundingTaken base l₂ actual s'.funding
      rw [hs.funding, hsum]
      refine FundingTaken.of_token ?_ hs.token
      cases hf : s.funding with
      | wallet userId consumed =>
        rw [hf] at hf₀ hsource
        exact hf₀.wallet hsource
      | subscription sf =>
        rw [hf] at hf₀ hsource
        obtain ⟨sub, hset, rfl⟩ := hsource
        -- what is settled is not cut off at zero
        have huncut : 0 ≤ sub.amountUsed + (actual - s.preConsumedQuota) := by
          rcases hk with hk | hk | ⟨-, hk⟩
          · rw [h.settled] at hk
            cases hk
          · exact absurd (by simp only [hk, sub_self]) hs.differs
          · simp only [hf] at hk
            exact hk sub hset.row
        have hid : sub.id = sf.subscriptionId := DB.subscription_id hset.row
        exact hf₀.subscription hset.row (DB.subscription_save hset.row hid) (max_eq_left huncut)
    · show TokenTaken info base l₂ actual
      rw [hsum]
      refine TokenTaken.charge (l := l₁) ?_ hs.token h.tokenId h.playground
      refine TokenTaken.of_same (l := l) ha.token ?_
      cases hf : s.funding with
      | wallet userId consumed =>
        rw [hf] at hsource
        exact MovesWallet.token hsource
      | subscription sf =>
        rw [hf] at hsource
        obtain ⟨sub, -, rfl⟩ := hsource
        exact fun t => rfl

theorem refund_keeps (h : IsOpen info s l) (ha : Accounted info base ⟨s, l, .opened⟩)
    (hk : Keeps env ⟨s, l, .opened⟩ .refund) :
    Accounted info base (step env ⟨s, l, .opened⟩ .refund) ∧
      Phase info (step env ⟨s, l, .opened⟩ .refund) := by
  have hf₀ : FundingTaken base l s.preConsumedQuota s.funding := ha.funding
  have hzero : s.preConsumedQuota + -s.preConsumedQuota = 0 := by omega
  cases hf : s.funding with
  | wallet userId consumed =>
    by_cases hpos : 0 < s.preConsumedQuota
    · obtain ⟨l₁, l₂, he, hm, ht⟩ := refund_wallet h hf hpos (hk userId consumed hf)
      simp only [step, he, Outcome.next_opened]
      refine ⟨⟨?_, ?_⟩, rfl⟩
      · show FundingTaken base l₂ 0 s.funding
        rw [hf] at hf₀ ⊢
        rw [← hzero]
        refine FundingTaken.of_token ?_ ht
        refine hf₀.wallet ?_
        rw [neg_neg]
        exact hm
      · show TokenTaken info base l₂ 0
        rw [← hzero]
        refine TokenTaken.charge (l := l₁) ?_ ht h.tokenId h.playground
        exact TokenTaken.of_same (l := l) ha.token hm.token
    · -- nothing was reserved, and nothing is given back
      have hneeds : s.needsRefund = false := by
        simp only [BillingSession.needsRefund, h.settled, h.refunded, h.fundingSettled,
          h.tokenConsumed, hpos, hf, Bool.or_self, Bool.false_eq_true, ↓reduceIte]
      have hnoop : s.refund env .none l = (s, l) := by
        rw [BillingSession.refund, if_pos (by simp [hneeds])]
      simp only [step, hnoop, h.refunded, Outcome.next_opened]
      exact ⟨ha, h⟩
  | subscription sf =>
    obtain ⟨l₁, l₂, sub, row, he, hsub, hrow, hused, htok, ht⟩ := refund_subscription env h hf
    simp only [step, he, Outcome.next_opened]
    refine ⟨⟨?_, ?_⟩, rfl⟩
    · show FundingTaken base l₂ 0 s.funding
      rw [hf] at hf₀ ⊢
      rw [← hzero]
      refine FundingTaken.of_token ?_ ht
      exact hf₀.subscription hsub hrow hused
    · show TokenTaken info base l₂ 0
      rw [← hzero]
      refine TokenTaken.charge (l := l₁) ?_ ht h.tokenId h.playground
      exact TokenTaken.of_same (l := l) ha.token htok

/-- **One call** keeps the account and the phase. -/
theorem step_keeps (st : State) (e : Event) (h : Accounted info base st ∧ Phase info st)
    (hk : Keeps env st e) : Accounted info base (step env st e) ∧ Phase info (step env st e) := by
  obtain ⟨s, l, outcome⟩ := st
  obtain ⟨ha, hp⟩ := h
  cases outcome with
  | opened =>
    cases e with
    | reserve token target => exact reserve_keeps hp ha hk
    | settle actual => exact settle_keeps hp ha hk
    | refund => exact refund_keeps hp ha hk
  | settled a =>
    rw [step_settled hp (by simp)]
    exact ⟨ha, hp⟩
  | refunded =>
    cases e with
    | reserve | refund =>
      rw [step_refunded hp (by simp) (by simp)]
      exact ⟨ha, hp⟩
    | settle actual =>
      rcases hk with hk | hk | ⟨hk, -⟩
      · rw [step_settled hk (by simp)]
        exact ⟨ha, hp⟩
      · -- the settlement finds no difference, and sets its flag
        cases hs : s.settled with
        | true =>
          rw [step_settled hs (by simp)]
          exact ⟨ha, hp⟩
        | false =>
          have hset : s.settle env .none actual l = (.ok (), { s with settled := true }, l) := by
            rw [BillingSession.settle, if_neg (ne_true_of_eq_false hs),
              if_pos (by rw [hk]; exact sub_self _)]
          simp only [step, hset]
          exact ⟨⟨ha.funding, ha.token⟩, hp⟩
      · have hr : s.refunded = true := hp
        rw [show s.refunded = false from hk] at hr
        cases hr

end Steps

/-! ### The opening -/

section Opening

variable {env : Env} {ans : Answers} {info : RelayInfo} {quota : ℤ} {s₀ s : BillingSession}
  {l₀ l : Ledger}

/-- The two charges of a pre-consume that went through. -/
theorem preConsume_ok (h : s₀.preConsume env ans quota l₀ = (.ok s, l)) :
    ∃ l₁ funding, s₀.preConsumeToken env ans (s₀.effectiveQuota env quota) l₀ = .ok l₁ ∧
      s₀.funding.preConsume env ans (s₀.effectiveQuota env quota) l₁ = (.ok funding, l) ∧
      s = s₀.opened env funding (s₀.effectiveQuota env quota) := by
  unfold BillingSession.preConsume at h
  rcases ht : s₀.preConsumeToken env ans (s₀.effectiveQuota env quota) l₀ with _ | l₁
  · simp only [ht] at h
    cases h
  simp only [ht] at h
  cases hf : s₀.funding.preConsume env ans (s₀.effectiveQuota env quota) l₁ with
  | mk r l₂ =>
    rcases r with _ | funding
    · simp only [hf] at h
      cases h
    simp only [hf] at h
    cases h
    exact ⟨l₁, funding, rfl, hf, rfl⟩

theorem opens_wallet (hq : 0 ≤ quota) (hready : Ready info l₀)
    (h : (BillingSession.new info (.wallet info.userId 0)).preConsume env ans quota l₀ =
      (.ok s, l)) : Accounted info l₀ ⟨s, l, .opened⟩ ∧ IsOpen info s l := by
  obtain ⟨l₁, funding, ht, hf, rfl⟩ := preConsume_ok h
  set s₀ : BillingSession := .new info (.wallet info.userId 0) with hs₀
  have hn : 0 ≤ s₀.effectiveQuota env quota := by
    unfold BillingSession.effectiveQuota
    split_ifs
    · exact le_rfl
    · exact hq
  generalize s₀.effectiveQuota env quota = n at ht hf hn
  have htoken := preConsumeToken_ok hn ht
  obtain ⟨hm, rfl⟩ := walletPreConsume_ok hn hf
  have hdb : l.db = { l₀.db with users := l.db.users, tokens := l.db.tokens } := by
    rw [hm.db_eq, htoken.db_eq]
  refine ⟨⟨?_, ?_⟩, IsOpen.of_db (l := l₀) ?_ hdb⟩
  · show l.walletBalance info.userId = (l₀.walletBalance info.userId).map (· - n)
    rw [hm.wallet, htoken.wallet]
    simp only [↓reduceIte, sub_eq_add_neg]
  · show TokenTaken info l₀ l n
    have hstart : TokenTaken info l₀ l₀ 0 := by
      unfold TokenTaken
      simp
    have := (hstart.charge htoken rfl rfl).of_same hm.token
    rwa [zero_add] at this
  · exact ⟨rfl, rfl, rfl, hn, max_eq_left hn, rfl, rfl, hready.ids, hready.used, rfl⟩

/-- The resets a pre-consume makes on its way keep used amounts from being negative. -/
theorem resets_used {f : Faults} {loc : Location} {now : ℤ} {db db₁ : DB}
    (h : ResetsInPassing f loc now db db₁)
    (hused : ∀ id sub, db.subscription id = some sub → 0 ≤ sub.amountUsed) :
    ∀ id sub, db₁.subscription id = some sub → 0 ≤ sub.amountUsed := by
  intro id sub hsub
  rcases h.rows id with hsame | ⟨sub', plan, row, hsub', -, hreset, hrow⟩
  · exact hused id sub (hsame.symm.trans hsub)
  · rw [← some.inj (hrow.symm.trans hsub), maybeReset_amountUsed hreset]
    split_ifs
    · exact le_rfl
    · exact hused id sub' hsub'

theorem opens_subscription (hq : 0 < quota) (hready : Ready info l₀)
    (h : (BillingSession.new info (.subscription
      ⟨info.requestId, info.userId, quota, 0, 0, 0, 0⟩)).preConsume env ans quota l₀ = (.ok s, l)) :
    ∃ base : Ledger, ResetsInPassing ans.fundingFaults env.loc ans.now l₀.db base.db ∧
      base.queues = l₀.queues ∧ Accounted info base ⟨s, l, .opened⟩ ∧ IsOpen info s l := by
  obtain ⟨l₁, funding, ht, hf, rfl⟩ := preConsume_ok h
  set sf : SubscriptionFunding := ⟨info.requestId, info.userId, quota, 0, 0, 0, 0⟩ with hsf
  set s₀ : BillingSession := .new info (.subscription sf) with hs₀
  have heff : s₀.effectiveQuota env quota = quota := by
    rw [BillingSession.effectiveQuota, shouldTrust_subscription (show s₀.funding = _ from rfl),
      if_neg Bool.false_ne_true]
  rw [heff] at ht hf ⊢
  have htoken := preConsumeToken_ok hq.le ht
  have hsubs : l₁.db.subscriptions = l₀.db.subscriptions := by rw [htoken.db_eq]
  have hplans : l₁.db.plans = l₀.db.plans := by rw [htoken.db_eq]
  have hfresh : l₁.db.preConsumeRecord sf.requestId = none := by
    rw [htoken.db_eq]
    exact hready.request
  have hids : (l₁.db.subscriptions.map UserSubscription.id).Nodup := by
    rw [hsubs]
    exact hready.ids
  have hfunding : subscriptionPreConsume env ans sf l₁ = (.ok funding, l) := hf
  obtain ⟨e, he⟩ | ⟨db₁, sub, hc, he⟩ := subscriptionPreConsume_cases env ans sf hfresh hids
  · rw [he] at hfunding
    cases hfunding
  rw [he, Prod.mk.injEq, Except.ok.injEq] at hfunding
  obtain ⟨rfl, rfl⟩ := hfunding
  have hresets := hc.resets.of_frame hsubs hplans
  have hused₁ : ∀ id sub, db₁.subscription id = some sub → 0 ≤ sub.amountUsed := by
    intro id row hr
    exact resets_used hresets hready.used id row hr
  have hrow : ((sf.args ans.now).apply sub db₁).subscription sub.id = some (sub.charge quota) :=
    DB.subscription_save hc.row rfl
  have hid : 0 < sub.id := by
    rcases hresets.rows sub.id with hsame | ⟨sub', plan, row, hsub', -⟩
    · exact hready.id_pos sub.id sub (hsame.symm.trans hc.row)
    · exact hready.id_pos sub.id sub' hsub'
  have hnn := hused₁ sub.id sub hc.row
  refine ⟨{ l₀ with db := { l₀.db with subscriptions := db₁.subscriptions } }, hresets, rfl,
    ⟨⟨sub, sub.charge quota, hc.row, hrow, rfl⟩, ?_⟩,
    ⟨rfl, rfl, rfl, hq.le, max_eq_left hq.le, rfl, rfl, ?_, ?_, ?_⟩⟩
  · -- the pre-consume of the subscription leaves the tokens alone
    have htokens : ((sf.args ans.now).apply sub db₁).tokens = l₁.db.tokens := by
      rw [hc.resets.frame]
      rfl
    have hstart : TokenTaken info
        { l₀ with db := { l₀.db with subscriptions := db₁.subscriptions } } l₀ 0 := by
      show l₀.tokenBalance info.tokenId = (l₀.tokenBalance info.tokenId).map _
      simp
    have hcharged := hstart.charge htoken rfl rfl
    rw [zero_add] at hcharged
    refine hcharged.of_same fun t => ?_
    rw [Ledger.tokenBalance, DB.token, htokens, Ledger.tokenBalance, DB.token]
  · have hids₁ : ((sf.args ans.now).apply sub db₁).subscriptions.map UserSubscription.id =
        db₁.subscriptions.map UserSubscription.id := DB.ids_saveSubscription _
    rw [hids₁, hc.resets.ids]
    exact hids
  · intro id row hr
    by_cases hne : id = sub.id
    · subst hne
      rw [← some.inj (hrow.symm.trans hr)]
      show 0 ≤ sub.amountUsed + quota
      omega
    · have hkeep : ((sf.args ans.now).apply sub db₁).subscription id = db₁.subscription id :=
        DB.subscription_save_ne hne
      exact hused₁ id row (hkeep.symm.trans hr)
  · refine ⟨hid, hc.requestId, hq, rfl, ?_, le_rfl, ?_, sub.charge quota, hrow, ?_,
      bears_iff.1 hc.bears⟩
    · show quota = quota + 0
      omega
    · exact DB.preConsumeRecord_add ((hc.resets.record _).trans hfresh) rfl
    · show quota ≤ sub.amountUsed + quota
      omega

end Opening

/-! ### Whole lives -/

/-- **The account of a session.**  Open a session, and call it as often as you like: as long as no
refunded session is settled to another amount than it had reserved, the funding source and the token
have been charged exactly what is taken, in every state.  The account starts from the ledger before
the opening, with the resets that were due. -/
theorem lifecycle_runs (env : Env) (ans : Answers) {info : RelayInfo} {quota : ℤ}
    {s₀ s : BillingSession} {l₀ l : Ledger} (hfresh : Fresh info quota s₀)
    (hready : Ready info l₀) (hopen : s₀.preConsume env ans quota l₀ = (.ok s, l))
    (es : List Event) (hkeeps : Meets (step env) (Keeps env) ⟨s, l, .opened⟩ es) :
    ∃ base : Ledger, ResetsInPassing ans.fundingFaults env.loc ans.now l₀.db base.db ∧
      base.queues = l₀.queues ∧ Always (step env) (Accounted info base) ⟨s, l, .opened⟩ es := by
  have hopened : ∃ base : Ledger,
      ResetsInPassing ans.fundingFaults env.loc ans.now l₀.db base.db ∧
      base.queues = l₀.queues ∧ Accounted info base ⟨s, l, .opened⟩ ∧ IsOpen info s l := by
    cases hfresh with
    | wallet hq =>
      obtain ⟨ha, ho⟩ := opens_wallet hq hready hopen
      exact ⟨l₀, .refl ans.now l₀.db, rfl, ha, ho⟩
    | subscription hq => exact opens_subscription hq hready hopen
  obtain ⟨base, hresets, hqueues, ha, ho⟩ := hopened
  refine ⟨base, hresets, hqueues, ?_⟩
  have hrun : Always (step env) (fun st => Accounted info base st ∧ Phase info st)
      ⟨s, l, .opened⟩ es := Always.of_meets step_keeps ⟨ha, ho⟩ hkeeps
  exact hrun.imp fun _ h => h.1

/-- User `7` has `100` in the wallet and `1000` on token `3`. -/
def fundedLedger : Ledger :=
  ⟨{ DB.empty with
      users := [⟨7, 100, 0, 0, "default", "", ""⟩]
      tokens := [⟨3, 1000, 0⟩] }, .empty⟩

/-- A request of user `7` before its pre-consume. -/
def freshSession : BillingSession := .new walletFirstInfo (.wallet 7 0)

/-- The same request with `10` reserved. -/
def reservedState : State where
  session := freshSession.opened plainEnv (.wallet 7 10) 10
  ledger := ⟨{ fundedLedger.db with
      users := [⟨7, 90, 0, 0, "default", "", ""⟩]
      tokens := [⟨3, 990, 10⟩] }, .empty⟩
  outcome := .opened

theorem freshSession_opens : freshSession.preConsume plainEnv plainAnswers 10 fundedLedger =
    (.ok reservedState.session, reservedState.ledger) := rfl

theorem ready_fundedLedger : Ready walletFirstInfo fundedLedger := by
  have hnone : ∀ id, fundedLedger.db.subscription id = none := fun _ => rfl
  refine ⟨List.nodup_nil, ?_, ?_, rfl⟩
  · intro id sub h
    rw [hnone] at h
    cases h
  · intro id sub h
    rw [hnone] at h
    cases h

/-- Reserve up to `12`, settle `15`, and refund too late: the wallet and the token pay `15`. -/
theorem lifecycle_runs_settled :
    Meets (step plainEnv) (Keeps plainEnv) reservedState
        [.reserve .database 12, .settle 15, .refund] ∧
      (∃ base : Ledger, ResetsInPassing .none .utc 0 fundedLedger.db base.db ∧
        base.queues = fundedLedger.queues ∧
        Always (step plainEnv) (Accounted walletFirstInfo base) reservedState
          [.reserve .database 12, .settle 15, .refund]) ∧
      (run (step plainEnv) reservedState
        [.reserve .database 12, .settle 15, .refund]).ledger.walletBalance 7 = some 85 := by
  have hkeeps : Meets (step plainEnv) (Keeps plainEnv) reservedState
      [.reserve .database 12, .settle 15, .refund] := by
    refine ⟨?_, .inr (.inr ⟨rfl, trivial⟩), ?_, trivial⟩
    · intro userId consumed hf
      cases hf
      exact ⟨by decide, .inr ⟨90, rfl, by decide⟩⟩
    · intro userId consumed hf
      cases hf
      exact ⟨by decide, .inr ⟨85, rfl, by decide⟩⟩
  exact ⟨hkeeps, lifecycle_runs plainEnv plainAnswers (.wallet (by decide)) ready_fundedLedger
    freshSession_opens _ hkeeps, rfl⟩

/-- A settlement after the refund charges the difference to an estimate that has been given back:
the request is refunded, and yet the wallet and the token pay `5`. -/
theorem settle_after_refund :
    freshSession.preConsume plainEnv plainAnswers 10 fundedLedger =
        (.ok reservedState.session, reservedState.ledger) ∧
      (run (step plainEnv) reservedState [.refund, .settle 15]).outcome = .refunded ∧
      (run (step plainEnv) reservedState [.refund, .settle 15]).ledger.walletBalance 7 = some 95 ∧
      (run (step plainEnv) reservedState [.refund, .settle 15]).ledger.tokenBalance 3 = some 995 ∧
      ∀ base : Ledger, ResetsInPassing .none .utc 0 fundedLedger.db base.db →
        base.queues = fundedLedger.queues →
        ¬ Always (step plainEnv) (Accounted walletFirstInfo base) reservedState
          [.refund, .settle 15] := by
  refine ⟨freshSession_opens, rfl, rfl, rfl, ?_⟩
  intro base hresets hqueues halways
  have hlast := halways.run.funding
  have hbase : base.walletBalance 7 = some 100 := by
    rw [Ledger.walletBalance, hresets.frame, hqueues]
    rfl
  have hpaid : (run (step plainEnv) reservedState [.refund, .settle 15]).ledger.walletBalance 7 =
      (base.walletBalance 7).map (· - 0) := hlast
  rw [hbase] at hpaid
  exact absurd hpaid (by decide)

end NexusTok.Lifecycle
