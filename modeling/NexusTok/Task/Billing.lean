import NexusTok.Billing.Session
import NexusTok.Task.Basic

/-!
# Billing of a task that ends

A task that reaches `SUCCESS` or `FAILURE` is billed once more.  `settleTaskBillingOnComplete`
decides: the tiered price, the adaptor or the tokens may fix what the task really costs, and then
`RecalculateTaskQuota` moves the difference; a failed task that none of them took is given back
whole by `RefundTaskQuota`.  Both are the same three statements: the funding source, the token, and
the column `quota` of the row.

Pollers work side by side, so the code is cut at its statements.  A `Worker` is a copy of a row in
memory and the statement that comes next (`Stage`); `advance` runs it.  What happened is kept in a
journal, whose entries no code reads.

Prices and ratios are floats and stand behind `TaskServices`.  Logs and the counters of used quota
are left out.

* `taskAdjustFunding_wallet`, `taskAdjustFunding_subscription`, `taskAdjustTokenQuota_ok` : what an
  adjustment does to the balances.
-/

namespace NexusTok

/-! ### What the upstream and the settings say -/

/-- `TaskInfo`: a parsed answer about a task. -/
structure TaskInfo where
  status : TaskStatus
  reason : String
  url : String
  progress : String
  completionTokens : ℤ
  totalTokens : ℤ
  usageFacts : UsageFacts
  pluginState : String
  deriving DecidableEq

def failTaskInfo (reason : String) : TaskInfo := ⟨.failure, reason, "", "", 0, 0, [], ""⟩

/-- Prices, ratios and the adaptor of a platform, as they answer at one moment. -/
structure TaskServices where
  /-- `AdjustBillingOnComplete` of the adaptor. -/
  adjustBillingOnComplete : Task → TaskInfo → ℤ
  /-- `ComputeTieredQuotaWithRequest`: the quota after the group ratio and the matched tier, or
  nothing when the expression fails. -/
  computeTieredQuota : TieredSnapshot → UsageFacts → Option (ℤ × String)
  /-- `GetModelRatio`, of a model that has a ratio. -/
  modelRatio : String → Option Decimal
  groupRatio : String → Decimal
  groupGroupRatio : String → String → Option Decimal
  otherRatioMultiplier : List (String × Decimal) → Decimal
  /-- `QuotaFromFloatChecked` of the product of tokens, model ratio, group ratio and multiplier. -/
  quotaFromFloat : ℤ → Decimal → Decimal → Decimal → ℤ

/-! ### What a task costs in the end -/

def taskModelName (task : Task) : String :=
  match task.privateData.billingContext with
  | some bc => if bc.originModelName ≠ "" then bc.originModelName else task.originModelName
  | none => task.originModelName

/-- The product of the other ratios of a task, one without a billing context. -/
def taskOtherMultiplier (svc : TaskServices) (task : Task) : Decimal :=
  match task.privateData.billingContext with
  | some bc => if bc.otherRatios = [] then .ofInt 1 else svc.otherRatioMultiplier bc.otherRatios
  | none => .ofInt 1

/-- `RecalculateTaskQuotaByTokens` up to its call of `RecalculateTaskQuota`, with the quota it hands
over; `userGroup` is the group of the user, if the user is found. -/
def recalculateTaskQuotaByTokens (svc : TaskServices) (userGroup : Option String) (task : Task)
    (totalTokens : ℤ) : Option ℤ :=
  if totalTokens ≤ 0 then none
  else
    match svc.modelRatio (taskModelName task) with
    | none => none
    | some modelRatio =>
      if modelRatio.coeff ≤ 0 then none
      else
        let group := if task.group = "" then userGroup.getD "" else task.group
        if group = "" then none
        else
          some (svc.quotaFromFloat totalTokens modelRatio
            ((svc.groupGroupRatio group group).getD (svc.groupRatio group))
            (taskOtherMultiplier svc task))

/-- What `settleTaskBillingOnComplete` does with a task. -/
inductive Settlement where
  /-- It answers `false`. -/
  | declined
  /-- It answers `true` and leaves the charge as it is. -/
  | kept
  /-- It answers `true` after `RecalculateTaskQuota`. -/
  | recalculate (actualQuota : ℤ)
  deriving DecidableEq

/-- The snapshot of a task after a tiered settlement. -/
def Task.setTiered (task : Task) (bc : TaskBillingContext) (snap : TieredSnapshot) : Task :=
  { task with
    privateData := { task.privateData with
      billingContext := some { bc with tieredSnapshot := some snap } } }

/-- `settleTaskBillingOnComplete` behind the tiered price. -/
def settleUntiered (svc : TaskServices) (userGroup : Option String) (task : Task)
    (info : TaskInfo) : Settlement :=
  if (task.privateData.billingContext.map TaskBillingContext.perCallBilling).getD false then
    .declined
  else if 0 < svc.adjustBillingOnComplete task info then
    .recalculate (svc.adjustBillingOnComplete task info)
  else
    let tokens :=
      if info.totalTokens = 0 ∧ 0 < info.completionTokens then info.completionTokens
      else info.totalTokens
    if 0 < tokens then
      match recalculateTaskQuotaByTokens svc userGroup task tokens with
      | none => .declined
      | some actualQuota => .recalculate actualQuota
    else .declined

/-- `settleTaskBillingOnComplete`, with the copy it leaves. -/
def settleTaskBillingOnComplete (svc : TaskServices) (userGroup : Option String) (task : Task)
    (info : TaskInfo) : Settlement × Task :=
  match task.privateData.billingContext with
  | some bc =>
    match bc.tieredSnapshot with
    | some snap =>
      if task.status = .failure then (.declined, task)
      else
        let usageFacts := snap.usageFacts.copy info.usageFacts
        match svc.computeTieredQuota snap usageFacts with
        | none => (.kept, task)
        | some (actualQuota, tier) =>
          (.recalculate actualQuota,
            task.setTiered bc { snap with usageFacts := usageFacts, estimatedTier := tier })
    | none => (settleUntiered svc userGroup task info, task)
  | none => (settleUntiered svc userGroup task info, task)

/-- A settlement keeps who pays, the charge and the status. -/
theorem settleTaskBillingOnComplete_copy {svc : TaskServices} {userGroup : Option String}
    {task copy : Task} {info : TaskInfo} {settlement : Settlement}
    (h : settleTaskBillingOnComplete svc userGroup task info = (settlement, copy)) :
    copy.payer = task.payer ∧ copy.quota = task.quota ∧ copy.status = task.status := by
  have hsame : ∀ x : Settlement, (x, task) = (settlement, copy) →
      copy.payer = task.payer ∧ copy.quota = task.quota ∧ copy.status = task.status := by
    intro x hx
    cases hx
    exact ⟨rfl, rfl, rfl⟩
  unfold settleTaskBillingOnComplete at h
  cases hbc : task.privateData.billingContext with
  | none =>
    simp only [hbc] at h
    exact hsame _ h
  | some bc =>
    cases hsnap : bc.tieredSnapshot with
    | none =>
      simp only [hbc, hsnap] at h
      exact hsame _ h
    | some snap =>
      simp only [hbc, hsnap] at h
      by_cases hf : task.status = .failure
      · rw [if_pos hf] at h
        exact hsame _ h
      rw [if_neg hf] at h
      cases hq : svc.computeTieredQuota snap (snap.usageFacts.copy info.usageFacts) with
      | none =>
        simp only [hq] at h
        exact hsame _ h
      | some r =>
        simp only [hq] at h
        cases h
        exact ⟨rfl, rfl, rfl⟩

theorem settleTaskBillingOnComplete_failure (svc : TaskServices) (userGroup : Option String)
    (task : Task) (info : TaskInfo) (hf : task.status = .failure) :
    (settleTaskBillingOnComplete svc userGroup task info).1 ≠ .kept := by
  have htokens : ∀ tokens : ℤ, (if 0 < tokens then
      match recalculateTaskQuotaByTokens svc userGroup task tokens with
      | none => Settlement.declined
      | some actualQuota => .recalculate actualQuota
      else .declined) ≠ .kept := by
    intro tokens
    split_ifs
    · cases recalculateTaskQuotaByTokens svc userGroup task tokens <;> simp
    · simp
  have hflat : settleUntiered svc userGroup task info ≠ .kept := by
    unfold settleUntiered
    by_cases hcall :
        (task.privateData.billingContext.map TaskBillingContext.perCallBilling).getD false = true
    · rw [if_pos hcall]
      simp
    rw [if_neg hcall]
    by_cases hadj : 0 < svc.adjustBillingOnComplete task info
    · rw [if_pos hadj]
      simp
    rw [if_neg hadj]
    exact htokens _
  unfold settleTaskBillingOnComplete
  cases hbc : task.privateData.billingContext with
  | none => simpa only [hbc] using hflat
  | some bc =>
    cases hsnap : bc.tieredSnapshot with
    | none => simpa only [hbc, hsnap] using hflat
    | some snap => simp only [hsnap, if_pos hf, ne_eq, reduceCtorEq, not_false_eq_true]

/-! ### The statements of a change -/

def taskIsSubscription (task : Task) : Bool :=
  decide (task.privateData.billingSource = .subscription) &&
    decide (0 < task.privateData.subscriptionId)

section Adjust

variable (setup : Setup)

def taskAdjustFunding (f : Faults) (task : Task) (delta : ℤ) (l : Ledger) : Except Err Ledger :=
  if taskIsSubscription task then
    match settleSubscription f task.privateData.subscriptionId delta l with
    | (.error e, _) => .error e
    | (.ok _, l') => .ok l'
  else if 0 < delta then decreaseUserQuota setup f task.userId delta false l
  else increaseUserQuota setup f task.userId (-delta) false l

/-- `taskAdjustTokenQuota`.  Its errors are logged and dropped.  A token that is not there has no
key, and is left alone. -/
def taskAdjustTokenQuota (f : Faults) (task : Task) (delta : ℤ) (l : Ledger) :
    Except Err Ledger :=
  let tokenId := task.privateData.tokenId
  if tokenId ≤ 0 ∨ delta = 0 then .ok l
  else if f ⟨.find, .tokens, tokenId⟩ then .error (.db ⟨.find, .tokens, tokenId⟩)
  else if (l.db.token tokenId).isNone then .ok l
  else if 0 < delta then decreaseTokenQuota setup f tokenId delta l
  else increaseTokenQuota setup f tokenId (-delta) l

end Adjust

section AdjustOk

variable {setup : Setup} {f : Faults} {task : Task} {delta : ℤ} {l l' : Ledger}

theorem taskAdjustFunding_wallet (hw : taskIsSubscription task = false)
    (h : taskAdjustFunding setup f task delta l = .ok l') :
    MovesWallet l l' task.userId (-delta) := by
  unfold taskAdjustFunding at h
  rw [hw, if_neg Bool.false_ne_true] at h
  by_cases hd : 0 < delta
  · rw [if_pos hd] at h
    exact decreaseUserQuota_ok h
  · rw [if_neg hd] at h
    exact increaseUserQuota_ok h

theorem taskAdjustFunding_subscription (hs : taskIsSubscription task = true)
    (h : taskAdjustFunding setup f task delta l = .ok l') :
    (∀ v, l'.walletBalance v = l.walletBalance v) ∧ ∀ t, l'.tokenBalance t = l.tokenBalance t := by
  unfold taskAdjustFunding settleSubscription at h
  rw [hs, if_pos rfl] at h
  obtain ⟨e, he⟩ | ⟨-, he⟩ | ⟨sub, hsub⟩ :=
    postConsume_cases f task.privateData.subscriptionId delta l.db
  · rw [he] at h
    cases h
  · rw [he] at h
    cases h
    exact ⟨fun _ => rfl, fun _ => rfl⟩
  · rw [hsub.eq] at h
    cases h
    exact ⟨fun _ => rfl, fun _ => rfl⟩

theorem taskAdjustFunding_token (h : taskAdjustFunding setup f task delta l = .ok l') (t : ℤ) :
    l'.tokenBalance t = l.tokenBalance t := by
  cases hs : taskIsSubscription task with
  | true => exact (taskAdjustFunding_subscription hs h).2 t
  | false => exact (taskAdjustFunding_wallet hs h).token t

theorem taskAdjustTokenQuota_ok (h : taskAdjustTokenQuota setup f task delta l = .ok l') :
    (∀ v, l'.walletBalance v = l.walletBalance v) ∧
      (0 < task.privateData.tokenId → l'.tokenBalance task.privateData.tokenId =
        (l.tokenBalance task.privateData.tokenId).map (· - delta)) := by
  unfold taskAdjustTokenQuota at h
  simp only at h
  by_cases hnone : task.privateData.tokenId ≤ 0 ∨ delta = 0
  · rw [if_pos hnone] at h
    cases h
    refine ⟨fun _ => rfl, fun hpos => ?_⟩
    have hd : delta = 0 := hnone.resolve_left (not_le.2 hpos)
    simp [hd]
  rw [if_neg hnone] at h
  split_ifs at h with hfind hgone hpos
  · -- without its row the token has no balance
    cases h
    refine ⟨fun _ => rfl, fun _ => ?_⟩
    rw [Option.isNone_iff_eq_none] at hgone
    simp [Ledger.tokenBalance, hgone]
  · have hm := decreaseTokenQuota_ok h
    refine ⟨hm.wallet, fun _ => ?_⟩
    rw [hm.token]
    simp [sub_eq_add_neg]
  · have hm := increaseTokenQuota_ok h
    refine ⟨hm.wallet, fun _ => ?_⟩
    rw [hm.token]
    simp [sub_eq_add_neg]

end AdjustOk

/-! ### Workers -/

/-- The two ways of billing a task that ends. -/
inductive Bill where
  /-- `RecalculateTaskQuota`. -/
  | recalculation
  /-- `RefundTaskQuota`. -/
  | refund
  deriving DecidableEq

/-- What follows a conditional write. -/
inductive AfterWrite where
  /-- Nothing, whether it was won or lost. -/
  | stop
  /-- Billing, if it was won. -/
  | settleIfWon (info : TaskInfo)
  /-- Billing, whether it was won or lost. -/
  | settle (info : TaskInfo)
  /-- A refund, if it was won and the task is not a legacy task. -/
  | refundIfWon (isLegacy : Bool)
  deriving DecidableEq

/-- The statement a worker runs next. -/
inductive Stage where
  /-- No call is under way. -/
  | idle
  /-- `UpdateWithStatus`. -/
  | write (fromStatus : TaskStatus) (next : AfterWrite)
  /-- `settleTaskBillingOnComplete`, and the refund of a failed task it declines. -/
  | settle (info : TaskInfo)
  /-- `taskAdjustFunding`, on the way to the charge `actualQuota`. -/
  | funding (bill : Bill) (actualQuota : ℤ)
  /-- `taskAdjustTokenQuota`. -/
  | token (bill : Bill) (actualQuota : ℤ)
  /-- `UpdateQuota`. -/
  | save (bill : Bill) (actualQuota : ℤ)
  deriving DecidableEq

/-- A poller or a sweep at work on its copy of a row. -/
structure Worker where
  /-- Its number, to tell workers apart. -/
  number : ℕ
  /-- It is a timeout sweep. -/
  sweeper : Bool
  copy : Task
  stage : Stage
  deriving DecidableEq

/-- What happened to a task. -/
inductive TaskEvent where
  /-- Its status was changed, at the charge `quota`. -/
  | moved (fromStatus toStatus : TaskStatus) (quota : ℤ)
  /-- It timed out as a legacy task, and its charge was cleared. -/
  | cleared
  /-- Billing began, on the way to the charge `actualQuota`. -/
  | billed (bill : Bill) (actualQuota : ℤ)
  /-- Billing ended. -/
  | paid (bill : Bill) (actualQuota : ℤ)
  /-- The funding source could not be adjusted, and billing was given up. -/
  | unpaid (bill : Bill)
  /-- The token or the charge could not be written after the funding source was adjusted. -/
  | broken (bill : Bill)
  deriving DecidableEq

/-- How the database and the services answer a statement. -/
structure TaskAnswer where
  services : TaskServices
  /-- A statement on the table of tasks fails. -/
  fails : Bool
  /-- A write that changes no column is reported. -/
  reported : Bool
  /-- The statements on the ledger that fail. -/
  faults : Faults

/-- The database after a step, with the worker and what happened. -/
structure Advanced where
  store : TaskStore
  worker : Worker
  events : List TaskEvent

namespace Worker

def lost : AfterWrite → Stage
  | .settle info => .settle info
  | .stop | .settleIfWon _ | .refundIfWon _ => .idle

/-- The stage after a write that was won, and what is to be noted of it. -/
def won (copy : Task) : AfterWrite → Stage × List TaskEvent
  | .stop => (.idle, [])
  | .settleIfWon info | .settle info => (.settle info, [])
  | .refundIfWon true => (.idle, [.cleared])
  | .refundIfWon false =>
    if copy.quota ≠ 0 then (.funding .refund 0, [.billed .refund 0]) else (.idle, [])

/-- The stage after `settleTaskBillingOnComplete`: `RecalculateTaskQuota` and `RefundTaskQuota` up
to their first statement. -/
def settled (copy : Task) : Settlement → Stage × List TaskEvent
  | .kept => (.idle, [])
  | .recalculate actualQuota =>
    if actualQuota < 0 then (.idle, [.billed .recalculation actualQuota])
    else if actualQuota - copy.quota = 0 then
      (.idle, [.paid .recalculation actualQuota, .billed .recalculation actualQuota])
    else (.funding .recalculation actualQuota, [.billed .recalculation actualQuota])
  | .declined =>
    if copy.status = .failure ∧ copy.quota ≠ 0 then (.funding .refund 0, [.billed .refund 0])
    else (.idle, [])

/-- The note of a won write: that the status changed. -/
def noted (row copy : Task) (fromStatus : TaskStatus) : List TaskEvent :=
  if copy.status = fromStatus then [] else [.moved fromStatus copy.status row.quota]

/-- The group of the user, as `RecalculateTaskQuotaByTokens` reads it for a task without a group. -/
def userGroup (ans : TaskAnswer) (l : Ledger) (copy : Task) : Option String :=
  if ans.faults ⟨.find, .users, copy.userId⟩ then none
  else (l.db.user copy.userId).map User.group

/-- One statement of a worker.  Events are listed newest first. -/
def advance (setup : Setup) (ans : TaskAnswer) (s : TaskStore) (w : Worker) : Advanced :=
  match w.stage with
  | .idle => ⟨s, w, []⟩
  | .write fromStatus next =>
    if ans.fails then ⟨s, { w with stage := lost next }, []⟩
    else
      match s.updateWithStatus ans.reported w.copy fromStatus with
      | (false, s') => ⟨s', { w with stage := lost next }, []⟩
      | (true, s') =>
        ⟨s', { w with stage := (won w.copy next).1 },
          (won w.copy next).2 ++ noted ((s.task w.copy.id).getD w.copy) w.copy fromStatus⟩
  | .settle info =>
    match settleTaskBillingOnComplete ans.services (userGroup ans s.ledger w.copy) w.copy info with
    | (settlement, copy) =>
      ⟨s, { w with copy := copy, stage := (settled copy settlement).1 },
        (settled copy settlement).2⟩
  | .funding bill actualQuota =>
    match taskAdjustFunding setup ans.faults w.copy (actualQuota - w.copy.quota) s.ledger with
    | .error _ => ⟨s, { w with stage := .idle }, [.unpaid bill]⟩
    | .ok l => ⟨{ s with ledger := l }, { w with stage := .token bill actualQuota }, []⟩
  | .token bill actualQuota =>
    match taskAdjustTokenQuota setup ans.faults w.copy (actualQuota - w.copy.quota) s.ledger with
    | .error _ => ⟨s, { w with stage := .save bill actualQuota }, [.broken bill]⟩
    | .ok l => ⟨{ s with ledger := l }, { w with stage := .save bill actualQuota }, []⟩
  | .save bill actualQuota =>
    let copy := { w.copy with quota := actualQuota }
    if ans.fails then ⟨s, { w with copy := copy, stage := .idle }, [.broken bill]⟩
    else ⟨s.updateQuota copy, { w with copy := copy, stage := .idle }, [.paid bill actualQuota]⟩

/-! ### What a statement does -/

/-- Everything one statement of a worker can do. -/
inductive Advances (setup : Setup) (s : TaskStore) (w : Worker) : Advanced → Prop
  | idle (stage : w.stage = .idle) : Advances setup s w ⟨s, w, []⟩
  /-- The write fails, or the status has changed. -/
  | lost {fromStatus : TaskStatus} {next : AfterWrite} (stage : w.stage = .write fromStatus next) :
      Advances setup s w ⟨s, { w with stage := lost next }, []⟩
  /-- The write changes nothing and is not reported. -/
  | unreported {fromStatus : TaskStatus} {next : AfterWrite}
      (stage : w.stage = .write fromStatus next) (found : s.task w.copy.id = some w.copy)
      (same : w.copy.status = fromStatus) :
      Advances setup s w ⟨s.put w.copy, { w with stage := lost next }, []⟩
  | won {fromStatus : TaskStatus} {next : AfterWrite} {row : Task}
      (stage : w.stage = .write fromStatus next) (found : s.task w.copy.id = some row)
      (same : row.status = fromStatus) :
      Advances setup s w ⟨s.put w.copy, { w with stage := (won w.copy next).1 },
        (won w.copy next).2 ++ noted row w.copy fromStatus⟩
  | settled {info : TaskInfo} {svc : TaskServices} {userGroup : Option String}
      {settlement : Settlement} {copy : Task} (stage : w.stage = .settle info)
      (settle : settleTaskBillingOnComplete svc userGroup w.copy info = (settlement, copy)) :
      Advances setup s w ⟨s, { w with copy := copy, stage := (settled copy settlement).1 },
        (settled copy settlement).2⟩
  | unpaid {bill : Bill} {actualQuota : ℤ} (stage : w.stage = .funding bill actualQuota) :
      Advances setup s w ⟨s, { w with stage := .idle }, [.unpaid bill]⟩
  | funded {bill : Bill} {actualQuota : ℤ} {f : Faults} {l : Ledger}
      (stage : w.stage = .funding bill actualQuota)
      (ok : taskAdjustFunding setup f w.copy (actualQuota - w.copy.quota) s.ledger = .ok l) :
      Advances setup s w ⟨{ s with ledger := l }, { w with stage := .token bill actualQuota }, []⟩
  | tokenFailed {bill : Bill} {actualQuota : ℤ} (stage : w.stage = .token bill actualQuota) :
      Advances setup s w ⟨s, { w with stage := .save bill actualQuota }, [.broken bill]⟩
  | charged {bill : Bill} {actualQuota : ℤ} {f : Faults} {l : Ledger}
      (stage : w.stage = .token bill actualQuota)
      (ok : taskAdjustTokenQuota setup f w.copy (actualQuota - w.copy.quota) s.ledger = .ok l) :
      Advances setup s w ⟨{ s with ledger := l }, { w with stage := .save bill actualQuota }, []⟩
  | saveFailed {bill : Bill} {actualQuota : ℤ} (stage : w.stage = .save bill actualQuota) :
      Advances setup s w
        ⟨s, { w with copy := { w.copy with quota := actualQuota }, stage := .idle }, [.broken bill]⟩
  | saved {bill : Bill} {actualQuota : ℤ} (stage : w.stage = .save bill actualQuota) :
      Advances setup s w ⟨s.updateQuota { w.copy with quota := actualQuota },
        { w with copy := { w.copy with quota := actualQuota }, stage := .idle },
        [.paid bill actualQuota]⟩

/-- **Everything one statement of a worker can do.** -/
theorem advance_cases (setup : Setup) (ans : TaskAnswer) (s : TaskStore) (w : Worker) :
    Advances setup s w (w.advance setup ans s) := by
  unfold advance
  cases hstage : w.stage with
  | idle => exact .idle hstage
  | write fromStatus next =>
    simp only
    by_cases hfails : ans.fails = true
    · rw [if_pos hfails]
      exact .lost hstage
    rw [if_neg hfails]
    obtain ⟨heq, -⟩ | ⟨row, won, hrow, hst, heq, hwon⟩ :=
      s.updateWithStatus_cases ans.reported w.copy fromStatus
    · rw [heq]
      exact .lost hstage
    rw [heq]
    cases won with
    | true =>
      simp only [hrow, Option.getD_some]
      exact .won hstage hrow hst
    | false =>
      have hsame : row = w.copy := by
        by_contra hne
        exact Bool.false_ne_true (hwon hne)
      subst hsame
      exact .unreported hstage hrow hst
  | settle info =>
    simp only
    cases hs : settleTaskBillingOnComplete ans.services (userGroup ans s.ledger w.copy) w.copy info with
    | mk settlement copy => exact .settled hstage hs
  | funding bill actualQuota =>
    simp only
    cases hf : taskAdjustFunding setup ans.faults w.copy (actualQuota - w.copy.quota) s.ledger with
    | error e => exact .unpaid hstage
    | ok l => exact .funded hstage hf
  | token bill actualQuota =>
    simp only
    cases ht : taskAdjustTokenQuota setup ans.faults w.copy (actualQuota - w.copy.quota)
        s.ledger with
    | error e => exact .tokenFailed hstage
    | ok l => exact .charged hstage ht
  | save bill actualQuota =>
    simp only
    split_ifs
    · exact .saveFailed hstage
    · exact .saved hstage

end Worker

end NexusTok
