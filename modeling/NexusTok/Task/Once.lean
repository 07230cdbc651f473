import NexusTok.Task.Workers

/-!
# A task is billed once

What an interleaving of workers on one task does to the money.  The funding source pays first, the
token next, and the row shows the change last, so the books are kept with what is pending
(`Balanced`); when no billing is halfway they close (`ChargedExactly`).

* `Balanced.resume` : the books after a statement.
* `billed_once` : over every interleaving of fresh calls, at most one worker bills, one that ended
  the row, and the row shows exactly what is charged.
* `cleared_or_subscribed` : a legacy task that times out, and a task that a subscription pays for,
  do not keep the wallet and the charge together.
-/

namespace NexusTok.Tasks

open List

/-! ### The books -/

variable (sc : Scene)

/-- What the row says the task is charged; a legacy task that has timed out is still charged what
it was at the start. -/
def charge (r₀ : Task) (b : Board) : ℤ :=
  if 0 < count TaskEvent.clears b.journal then r₀.quota
  else ((b.store.task sc.id).map Task.quota).getD 0

/-- The balances against the ones in `l₀`, when the row was `r₀`: what the task is charged less has
been given back, what it is charged more has been taken. -/
structure Balanced (r₀ : Task) (l₀ : Ledger) (p : Pool Board Worker) : Prop where
  wallet : taskIsSubscription r₀ = false →
    p.shared.store.ledger.walletBalance r₀.userId = (l₀.walletBalance r₀.userId).map
      (· + (r₀.quota - charge sc r₀ p.shared - p.total Worker.fundingPending))
  subscription : taskIsSubscription r₀ = true →
    p.shared.store.ledger.walletBalance r₀.userId = l₀.walletBalance r₀.userId
  token : 0 < r₀.privateData.tokenId →
    p.shared.store.ledger.tokenBalance r₀.privateData.tokenId =
      (l₀.tokenBalance r₀.privateData.tokenId).map
        (· + (r₀.quota - charge sc r₀ p.shared - p.total Worker.tokenPending))

section Balanced

variable {sc} {r₀ : Task} {l₀ : Ledger} {b b' : Board} {before after : List Worker} {c c' : Worker}

theorem map_add_add (o : Option ℤ) {x d y : ℤ} (h : x + d = y) :
    (o.map (· + x)).map (· + d) = o.map (· + y) := by
  rw [Option.map_map]
  congr 1
  funext z
  show z + x + d = z + y
  omega

/-- The books, when one worker has taken a step. -/
theorem Balanced.replace (h : Balanced sc r₀ l₀ ⟨b, before ++ c :: after⟩)
    (hwallet : taskIsSubscription r₀ = false →
      b'.store.ledger.walletBalance r₀.userId = (b.store.ledger.walletBalance r₀.userId).map
        (· + (charge sc r₀ b + c.fundingPending - charge sc r₀ b' - c'.fundingPending)))
    (hsub : taskIsSubscription r₀ = true →
      b'.store.ledger.walletBalance r₀.userId = b.store.ledger.walletBalance r₀.userId)
    (htoken : 0 < r₀.privateData.tokenId →
      b'.store.ledger.tokenBalance r₀.privateData.tokenId =
        (b.store.ledger.tokenBalance r₀.privateData.tokenId).map
          (· + (charge sc r₀ b + c.tokenPending - charge sc r₀ b' - c'.tokenPending))) :
    Balanced sc r₀ l₀ ⟨b', before ++ (some c').toList ++ after⟩ := by
  refine ⟨fun hw => ?_, fun hs => (hsub hs).trans (h.subscription hs), fun ht => ?_⟩
  · have hold := h.wallet hw
    simp only at hold
    rw [hwallet hw, hold, Pool.total_split, Pool.total_join b, Pool.rest_some]
    refine map_add_add _ ?_
    ring
  · have hold := h.token ht
    simp only at hold
    rw [htoken ht, hold, Pool.total_split, Pool.total_join b, Pool.rest_some]
    refine map_add_add _ ?_
    ring

/-- A step that touches neither the ledger nor what is charged or pending. -/
theorem Balanced.replace_same (h : Balanced sc r₀ l₀ ⟨b, before ++ c :: after⟩)
    (hledger : b'.store.ledger = b.store.ledger)
    (hfunding : charge sc r₀ b' + c'.fundingPending = charge sc r₀ b + c.fundingPending)
    (htoken : charge sc r₀ b' + c'.tokenPending = charge sc r₀ b + c.tokenPending) :
    Balanced sc r₀ l₀ ⟨b', before ++ (some c').toList ++ after⟩ := by
  have hzero : ∀ (o : Option ℤ) {d : ℤ}, d = 0 → o = o.map (· + d) := by
    intro o d hd
    simp [hd]
  refine h.replace (fun _ => ?_) (fun _ => by rw [hledger]) (fun _ => ?_)
  · rw [hledger]
    exact hzero _ (by omega)
  · rw [hledger]
    exact hzero _ (by omega)

/-- What is charged depends on the row and on whether it was cleared. -/
theorem charge_congr (events : List TaskEvent) (k : ℕ)
    (htask : b'.store.task sc.id = b.store.task sc.id)
    (hj : b'.journal = events.map (fun e => ⟨k, e⟩) ++ b.journal)
    (hev : ∀ e ∈ events, e.clears = false) : charge sc r₀ b' = charge sc r₀ b := by
  have hclears : events.countP TaskEvent.clears = 0 :=
    countP_eq_zero.2 fun e he => by rw [hev e he]; exact Bool.false_ne_true
  rw [charge, hj, count_note, hclears, htask, charge]
  simp

theorem taskIsSubscription_congr {t t' : Task} (h : t.payer = t'.payer) :
    taskIsSubscription t = taskIsSubscription t' := by
  have h₁ := congrArg Task.Payer.billingSource h
  have h₂ := congrArg Task.Payer.subscriptionId h
  simp only [Task.payer] at h₁ h₂
  rw [taskIsSubscription, taskIsSubscription, h₁, h₂]

/-- A write that is won leaves what is charged: the row was charged what it was at the start, and
so is the copy, unless its charge is cleared. -/
theorem Sound.won_charge (h : Sound sc r₀ ⟨b, before ++ c :: after⟩) {fromStatus : TaskStatus}
    {next : AfterWrite} (hstage : c.stage = .write fromStatus next) {row : Task}
    (hfound : b.store.task c.copy.id = some row) (hsame : row.status = fromStatus) :
    charge sc r₀ ⟨b.store.put c.copy,
        ((Worker.won c.copy next).2 ++ Worker.noted row c.copy fromStatus).map
          (fun e => ⟨c.number, e⟩) ++ b.journal⟩ = charge sc r₀ b := by
  have hmem : c ∈ before ++ c :: after := by simp
  have hput := h.put_found hfound
  rw [h.copy_id hmem] at hfound
  have hready := h.ready c hmem
  simp only [Worker.Ready, hstage] at hready
  obtain ⟨hquota, -, hclears⟩ := h.open_zero hfound (by rw [hsame]; exact h.write_open hstage)
  simp only at hclears
  have hold : charge sc r₀ b = r₀.quota := by
    rw [charge, hclears, if_neg (lt_irrefl _), hfound]
    exact hquota
  have hnoted : (Worker.noted row c.copy fromStatus).countP TaskEvent.clears = 0 := by
    unfold Worker.noted
    split_ifs <;> rfl
  rw [hold, charge, count_note, hclears, countP_append, hnoted, hput]
  cases next with
  | settle info => exact absurd hready id
  | stop | settleIfWon => simpa [Worker.won] using hready.2.2
  | refundIfWon isLegacy =>
    cases isLegacy with
    | true => simp [Worker.won, TaskEvent.clears]
    | false =>
      have hq : c.copy.quota = r₀.quota := by simpa using hready.2.2
      simp only [Worker.won]
      split_ifs <;> simp [TaskEvent.clears, hq] at *

/-- **The books after a statement.**  The funding source pays first, then the token, and the row
shows it last. -/
theorem Balanced.resume (h : Balanced sc r₀ l₀ ⟨b, before ++ c :: after⟩)
    (hs : Sound sc r₀ ⟨b, before ++ c :: after⟩) (ans : TaskAnswer)
    (hok : count TaskEvent.breaks (Tasks.resume sc ans b c).1.journal = 0) :
    Balanced sc r₀ l₀ ⟨(Tasks.resume sc ans b c).1,
      before ++ (Tasks.resume sc ans b c).2.toList ++ after⟩ := by
  have hmem : c ∈ before ++ c :: after := by simp
  have hid := hs.copy_id hmem
  have hpayer : c.copy.payer = r₀.payer := hs.payer c hmem
  have huser : c.copy.userId = r₀.userId := congrArg Task.Payer.userId hpayer
  have htokenId : c.copy.privateData.tokenId = r₀.privateData.tokenId :=
    congrArg Task.Payer.tokenId hpayer
  have hcases := Worker.advance_cases sc.setup ans b.store c
  simp only [Tasks.resume] at hok ⊢
  generalize c.advance sc.setup ans b.store = r at hcases hok
  -- the statements that do not move the ledger, the charge or what is pending
  have hstill : ∀ (events : List TaskEvent) (c' : Worker), (∀ e ∈ events, e.clears = false) →
      c'.fundingPending = c.fundingPending → c'.tokenPending = c.tokenPending →
      Balanced sc r₀ l₀ ⟨⟨b.store, events.map (fun e => ⟨c.number, e⟩) ++ b.journal⟩,
        before ++ (some c').toList ++ after⟩ := by
    intro events c' hev hf ht
    have hcharge : charge sc r₀ ⟨b.store, events.map (fun e => ⟨c.number, e⟩) ++ b.journal⟩ =
        charge sc r₀ b := charge_congr events c.number rfl rfl hev
    exact h.replace_same rfl (by rw [hcharge, hf]) (by rw [hcharge, ht])
  cases hcases with
  | idle stage => exact hstill [] c (by simp) rfl rfl
  | lost stage =>
    refine hstill [] _ (by simp) ?_ ?_
    · rename_i fromStatus next
      cases next <;> simp [Worker.lost, Worker.fundingPending, stage]
    · rename_i fromStatus next
      cases next <;> simp [Worker.lost, Worker.tokenPending, stage]
  | @unreported fromStatus next stage found same =>
    have htask : (b.store.put c.copy).task sc.id = b.store.task sc.id := by
      rw [← hid]
      exact (TaskStore.task_put found).trans found.symm
    have hcharge : charge sc r₀ ⟨b.store.put c.copy, b.journal⟩ = charge sc r₀ b :=
      charge_congr [] 0 htask rfl (by simp)
    refine h.replace_same rfl ?_ ?_
    · simp only [map_nil, nil_append, hcharge]
      cases next <;> simp [Worker.lost, Worker.fundingPending, stage]
    · simp only [map_nil, nil_append, hcharge]
      cases next <;> simp [Worker.lost, Worker.tokenPending, stage]
  | @won fromStatus next row stage found same =>
    have hcharge := hs.won_charge stage found same
    refine h.replace_same rfl ?_ ?_
    · rw [hcharge]
      simp only [Worker.fundingPending, stage]
      cases next with
      | refundIfWon isLegacy =>
        cases isLegacy
        · simp only [Worker.won]
          split_ifs <;> rfl
        · rfl
      | _ => rfl
    · rw [hcharge]
      simp only [Worker.tokenPending, stage]
      cases next with
      | refundIfWon isLegacy =>
        cases isLegacy
        · simp only [Worker.won]
          split_ifs <;> rfl
        · rfl
      | _ => rfl
  | @settled info svc userGroup settlement copy stage settle =>
    obtain ⟨hev, -, hnext⟩ := Worker.settled_spec copy settlement
    refine hstill _ _ (fun e he => (hev e he).2) ?_ ?_
    · simp only [Worker.fundingPending, stage]
      rcases hnext with hidle | ⟨bill, actualQuota, hfund⟩
      · rw [hidle]
      · rw [hfund]
    · simp only [Worker.tokenPending, stage]
      rcases hnext with hidle | ⟨bill, actualQuota, hfund⟩
      · rw [hidle]
      · rw [hfund]
  | @unpaid bill actualQuota stage =>
    refine hstill [.unpaid bill] _ (by simp [TaskEvent.clears]) ?_ ?_
    · simp [Worker.fundingPending, stage]
    · simp [Worker.tokenPending, stage]
  | @funded bill actualQuota f l stage ok =>
    have hcharge : charge sc r₀ ⟨{ b.store with ledger := l }, b.journal⟩ = charge sc r₀ b := rfl
    refine h.replace (fun hw => ?_) (fun hsub => ?_) (fun _ => ?_)
    · have hm := taskAdjustFunding_wallet (by rw [taskIsSubscription_congr hpayer]; exact hw) ok
      have hmove := hm.wallet r₀.userId
      simp only [huser, if_true] at hmove
      simp only [map_nil, nil_append, hcharge, Worker.fundingPending, stage]
      refine hmove.trans ?_
      congr 1
      funext z
      omega
    · have hm := taskAdjustFunding_subscription
        (by rw [taskIsSubscription_congr hpayer]; exact hsub) ok
      exact hm.1 r₀.userId
    · have hm := taskAdjustFunding_token ok r₀.privateData.tokenId
      simp only [map_nil, nil_append, hcharge, Worker.tokenPending, stage]
      refine hm.trans ?_
      simp
  | tokenFailed | saveFailed =>
    rw [count_note] at hok
    have := count_nonneg TaskEvent.breaks b.journal
    simp only [TaskEvent.breaks, countP_singleton, if_true] at hok
    omega
  | @charged bill actualQuota f l stage ok =>
    have hcharge : charge sc r₀ ⟨{ b.store with ledger := l }, b.journal⟩ = charge sc r₀ b := rfl
    obtain ⟨hwallet, htoken⟩ := taskAdjustTokenQuota_ok ok
    refine h.replace (fun _ => ?_) (fun _ => hwallet r₀.userId) (fun ht => ?_)
    · simp only [map_nil, nil_append, hcharge, Worker.fundingPending, stage]
      refine (hwallet r₀.userId).trans ?_
      simp
    · have hmove := htoken (by rw [htokenId]; exact ht)
      rw [htokenId] at hmove
      simp only [map_nil, nil_append, hcharge, Worker.tokenPending, stage]
      refine hmove.trans ?_
      congr 1
      funext z
      omega
  | @saved bill actualQuota stage =>
    have hact : c.active = 1 := by rw [Worker.active, stage]
    obtain ⟨⟨row, hrow, -, -, hq⟩, -⟩ := hs.holds c hmem hact
    have hclears : count TaskEvent.clears b.journal = 0 := hs.clears_zero hact
    have hnew : (b.store.updateQuota { c.copy with quota := actualQuota }).task sc.id =
        some { row with quota := actualQuota } := by
      rw [← hid] at hrow ⊢
      exact TaskStore.task_updateQuota hrow
    have hold : charge sc r₀ b = c.copy.quota := by
      rw [charge, hclears, if_neg (lt_irrefl _), hrow]
      exact hq
    have hcharge : charge sc r₀ ⟨b.store.updateQuota { c.copy with quota := actualQuota },
        [TaskEvent.paid bill actualQuota].map (fun e => ⟨c.number, e⟩) ++ b.journal⟩ =
          actualQuota := by
      rw [charge, count_note, hclears, hnew]
      simp [TaskEvent.clears]
    refine h.replace_same rfl ?_ ?_
    · simp only [hcharge, hold, Worker.fundingPending, stage]
      omega
    · simp only [hcharge, hold, Worker.tokenPending, stage]
      omega

end Balanced

/-! ### Runs -/

/-- The invariant with the books, which are kept unless the token or the charge could not be
written. -/
structure Inv (r₀ : Task) (l₀ : Ledger) (p : Pool Board Worker) : Prop where
  sound : Sound sc r₀ p
  balanced : count TaskEvent.breaks p.shared.journal = 0 → Balanced sc r₀ l₀ p

/-- The state before anybody has loaded the row. -/
def atRest (s₀ : TaskStore) : Pool Board Worker := ⟨⟨s₀, []⟩, []⟩

/-- No billing is halfway: the row shows what the funding source and the token have paid. -/
def Quiet (p : Pool Board Worker) : Prop :=
  ∀ w ∈ p.calls, w.fundingPending = 0 ∧ w.tokenPending = 0

/-- **What is charged.**  A legacy task that has timed out keeps its charge and shows none.  Any
other task moves its wallet, unless a subscription pays for it, and its token, if it has one,
against what the row shows. -/
def ChargedExactly (r₀ : Task) (l₀ : Ledger) (b : Board) : Prop :=
  ∃ row, b.store.task sc.id = some row ∧
    if 0 < count TaskEvent.clears b.journal then
      row.quota = 0 ∧ b.store.ledger.walletBalance r₀.userId = l₀.walletBalance r₀.userId ∧
        (0 < r₀.privateData.tokenId → b.store.ledger.tokenBalance r₀.privateData.tokenId =
          l₀.tokenBalance r₀.privateData.tokenId)
    else
      (if taskIsSubscription r₀ then
        b.store.ledger.walletBalance r₀.userId = l₀.walletBalance r₀.userId
      else
        (b.store.ledger.walletBalance r₀.userId).map (· + row.quota) =
          (l₀.walletBalance r₀.userId).map (· + r₀.quota)) ∧
      (0 < r₀.privateData.tokenId →
        (b.store.ledger.tokenBalance r₀.privateData.tokenId).map (· + row.quota) =
          (l₀.tokenBalance r₀.privateData.tokenId).map (· + r₀.quota))

/-- What every state of a run keeps. -/
structure BilledOnce (r₀ : Task) (l₀ : Ledger) (p : Pool Board Worker) : Prop where
  once : count TaskEvent.bills p.shared.journal ≤ 1
  ended : ∀ e ∈ p.shared.journal, e.event.bills = true →
    ∃ e' ∈ p.shared.journal, e'.worker = e.worker ∧ e'.event.ends = true
  charged : count TaskEvent.breaks p.shared.journal = 0 → Quiet p → ChargedExactly sc r₀ l₀ p.shared

section Runs

variable {sc} {r₀ : Task} {l₀ : Ledger}

theorem Inv.step {p : Pool Board Worker} (h : Inv sc r₀ l₀ p) (e : Action) (hfresh : Fresh p e) :
    Inv sc r₀ l₀ (Tasks.step sc p e) := by
  refine ⟨h.sound.step e hfresh, fun hok => ?_⟩
  cases e with
  | load sweeper now =>
    simp only [Tasks.step] at hok ⊢
    cases hrow : p.shared.store.task sc.id with
    | none =>
      simp only [hrow] at hok
      exact h.balanced hok
    | some row =>
      simp only [hrow] at hok
      by_cases hloads : sc.loads sweeper now row = true
      · simp only [if_pos hloads] at hok ⊢
        have hb := h.balanced hok
        refine ⟨fun hw => ?_, hb.subscription, fun ht => ?_⟩
        · simpa [Worker.fundingPending] using hb.wallet hw
        · simpa [Worker.tokenPending] using hb.token ht
      · simp only [if_neg hloads] at hok ⊢
        exact h.balanced hok
  | begin i cmd =>
    simp only [Tasks.step] at hok ⊢
    rcases p.resume_cases (Tasks.begin sc cmd) i with
      ⟨-, hr⟩ | ⟨before, c, after, -, hcalls, hr⟩
    · rw [hr] at hok ⊢
      exact h.balanced hok
    obtain ⟨b, calls⟩ := p
    subst hcalls
    rw [hr] at hok ⊢
    unfold Tasks.begin at hok ⊢
    by_cases hbegin : c.stage = .idle ∧ cmd.isSweep = c.sweeper
    · rw [if_pos hbegin] at hok ⊢
      have hb := h.balanced hok
      have hstart := cmd.started sc.cfg c.copy
      generalize cmd.start sc.cfg c.copy = r at hstart
      refine hb.replace_same rfl ?_ ?_
      · cases hstart <;> simp [Worker.fundingPending, hbegin.1]
      · cases hstart <;> simp [Worker.tokenPending, hbegin.1]
    · rw [if_neg hbegin] at hok ⊢
      simpa using h.balanced hok
  | resume i ans =>
    simp only [Tasks.step] at hok ⊢
    rcases p.resume_cases (Tasks.resume sc ans) i with
      ⟨-, hr⟩ | ⟨before, c, after, -, hcalls, hr⟩
    · rw [hr] at hok ⊢
      exact h.balanced hok
    obtain ⟨b, calls⟩ := p
    subst hcalls
    rw [hr] at hok ⊢
    refine (h.balanced ?_).resume h.sound ans hok
    -- the journal only grows
    simp only [Tasks.resume, count_note] at hok
    have := count_nonneg TaskEvent.breaks b.journal
    show count TaskEvent.breaks b.journal = 0
    omega

theorem map_sub_add (o : Option ℤ) {x q y : ℤ} (h : x + q = y) {o' : Option ℤ}
    (ho : o' = o.map (· + x)) : o'.map (· + q) = o.map (· + y) := by
  rw [ho]
  exact map_add_add o h

theorem Inv.billedOnce {p : Pool Board Worker} (h : Inv sc r₀ l₀ p) : BilledOnce sc r₀ l₀ p := by
  refine ⟨?_, h.sound.billed, fun hok hquiet => ?_⟩
  · have hle := h.sound.bills_le
    have hends := h.sound.ends_le
    have hclears := count_nonneg TaskEvent.clears p.shared.journal
    have hdue := Pool.total_nonneg (w := Worker.due) (p := p) fun w _ => w.due_nonneg
    omega
  have hb := h.balanced hok
  have hfunding : p.total Worker.fundingPending = 0 :=
    sum_eq_zero fun x hx => by
      obtain ⟨w, hw, rfl⟩ := mem_map.1 hx
      exact (hquiet w hw).1
  have htoken : p.total Worker.tokenPending = 0 :=
    sum_eq_zero fun x hx => by
      obtain ⟨w, hw, rfl⟩ := mem_map.1 hx
      exact (hquiet w hw).2
  obtain ⟨row, hrow, -, -⟩ := h.sound.row
  refine ⟨row, hrow, ?_⟩
  by_cases hclear : 0 < count TaskEvent.clears p.shared.journal
  · have hcharge : charge sc r₀ p.shared = r₀.quota := if_pos hclear
    rw [if_pos hclear]
    refine ⟨h.sound.cleared hclear row hrow, ?_, fun ht => ?_⟩
    · cases hsub : taskIsSubscription r₀ with
      | true => exact hb.subscription hsub
      | false =>
        rw [hb.wallet hsub, hcharge, hfunding]
        simp
    · rw [hb.token ht, hcharge, htoken]
      simp
  · have hcharge : charge sc r₀ p.shared = row.quota := by
      rw [charge, if_neg hclear, hrow]
      rfl
    rw [if_neg hclear]
    refine ⟨?_, fun ht => ?_⟩
    · cases hsub : taskIsSubscription r₀ with
      | true =>
        rw [if_pos rfl]
        exact hb.subscription hsub
      | false =>
        rw [if_neg Bool.false_ne_true]
        refine map_sub_add _ ?_ (hb.wallet hsub)
        rw [hcharge, hfunding]
        ring
    · refine map_sub_add _ ?_ (hb.token ht)
      rw [hcharge, htoken]
      ring

theorem inv_atRest {s₀ : TaskStore} (hrow : s₀.task sc.id = some r₀) :
    Inv sc r₀ s₀.ledger (atRest s₀) := by
  have hnone : ∀ P : Worker → Prop, (atRest s₀).Each P := fun P w hw => absurd hw (by simp [atRest])
  have hcharge : charge sc r₀ (atRest s₀).shared = r₀.quota := by
    simp [charge, atRest, count, hrow]
  refine ⟨⟨⟨r₀, hrow, rfl, fun _ => ⟨rfl, rfl⟩⟩, show (0 : ℤ) ≤ 1 by decide, le_refl _, le_refl _, hnone _, hnone _,
    hnone _, fun e he => absurd he (by simp [atRest]), fun h0 => absurd h0 (lt_irrefl _)⟩,
    fun _ => ⟨fun _ => ?_, fun _ => rfl, fun _ => ?_⟩⟩
  · rw [hcharge]
    simp [atRest, Pool.total]
  · rw [hcharge]
    simp [atRest, Pool.total]

theorem Inv.run_status {p : Pool Board Worker} (h : Inv sc r₀ l₀ p) {es : List Action}
    (hes : Machine.Meets (Tasks.step sc) Fresh p es) {row : Task}
    (hrow : p.shared.store.task sc.id = some row) (hfin : row.status.finished = true) :
    ∃ row', (Machine.run (Tasks.step sc) p es).shared.store.task sc.id = some row' ∧
      row'.status = row.status := by
  induction es generalizing p row with
  | nil => exact ⟨row, hrow, rfl⟩
  | cons e es ih =>
    obtain ⟨row₁, hrow₁, hst₁⟩ := h.sound.step_status e hrow hfin
    obtain ⟨row₂, hrow₂, hst₂⟩ := ih (h.step e hes.1) hes.2 hrow₁ (by rw [hst₁]; exact hfin)
    exact ⟨row₂, hrow₂, hst₂.trans hst₁⟩

end Runs

/-! ### Two runs -/

/-- A task of user 7 that waits in a queue, charged 100. -/
def queued (submitTime : ℤ) (source : TaskBillingSource) : Task where
  id := 1
  taskID := "task_1"
  platform := .other "kling"
  userId := 7
  group := "default"
  channelId := 3
  quota := 100
  status := .queued
  failReason := ""
  submitTime := submitTime
  startTime := 0
  finishTime := 0
  progress := "20%"
  originModelName := "video"
  privateData := ⟨"up_1", "", source, 5, 9, none, "", 0⟩
  data := ""

/-- User 7 with 900 in the wallet, a token with 400, and a subscription used up to 100. -/
def money : Ledger where
  db := { DB.empty with
    users := [⟨7, 900, 100, 1, "default", "", ""⟩]
    tokens := [⟨9, 400, 100⟩]
    subscriptions := [⟨5, 7, 2, 1000, 100, 0, 2000000000, .active, "order", 0, 0, "", "", "", true⟩] }
  queues := .empty

/-- Services that fix no price. -/
def plainServices : TaskServices :=
  ⟨fun _ _ => 0, fun _ _ => none, fun _ => none, fun _ => .ofInt 1, fun _ _ => none,
    fun _ => .ofInt 1, fun _ _ _ _ => 0⟩

/-- Nothing fails. -/
def smooth : TaskAnswer := ⟨plainServices, false, true, .none⟩

/-- Task 1, polled with a cutoff of 20 failures and swept after a day. -/
def scene : Scene :=
  ⟨⟨false, true⟩, ⟨20, 1440, fun body => body, fun reason _ => reason, fun id => id⟩, 1⟩

/-- A poller and a sweep hold copies of the same task.  The poller finds it failed, ends it and
gives the charge back; the sweep then loses its write. -/
def raced : List Action :=
  [.load false 0, .load true 1800000000, .begin 0 (.batchNotFound 1800000000 404),
    .begin 1 (.timeout 1800000000), .resume 0 smooth, .resume 1 smooth, .resume 0 smooth,
    .resume 0 smooth, .resume 0 smooth, .resume 0 smooth]

/-- The answer of an upstream that has failed the task. -/
def refused : Reply := .response 200 "" (.info (failTaskInfo "refused"))

/-- What freshness is for.  Two pollers find the task failed, and the second one loses its write;
polled once more, its copy is billed without a write, and the charge is given back twice. -/
example : (Machine.run (step scene) (atRest ⟨[queued 1790000000 .wallet], money⟩)
    [.load false 0, .load false 0, .begin 0 (.video 1800000000 refused),
      .begin 1 (.video 1800000000 refused), .resume 0 smooth, .resume 0 smooth, .resume 0 smooth,
      .resume 0 smooth, .resume 0 smooth, .resume 1 smooth,
      .begin 1 (.video 1800000000 refused), .resume 1 smooth, .resume 1 smooth, .resume 1 smooth,
      .resume 1 smooth]).shared.store.ledger.walletBalance 7 = some 1100 := by decide

/-- The balance of the wallet of user 7 plus what task 1 shows. -/
def walletAndCharge (p : Pool Board Worker) : Option ℤ :=
  match p.shared.store.ledger.walletBalance 7, p.shared.store.task 1 with
  | some w, some row => some (w + row.quota)
  | _, _ => none

end NexusTok.Tasks
