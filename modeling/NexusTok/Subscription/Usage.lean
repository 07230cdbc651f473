import NexusTok.Machine.Run
import NexusTok.Subscription.PreConsume
import NexusTok.Subscription.ResetTask

/-!
# The used amount of one subscription

All charges of a subscription share one counter, `amountUsed`: pre-consumes add to it, settlements
and refunds correct it and never take it below zero, resets set it to zero.  Nothing in a record
says in which period its request was charged, so a correction falls on the counter of the period in
which it arrives.

The machine of this file is one limited subscription under every interleaving of these operations,
each of them a committed transaction.  Beside the database it keeps the log of the period: every
pre-consume since the last reset, and every correction of a request in it.

* `step_cases` : what an event does to the counter and to the log.
* `usage_runs` : the counter stays between zero and the total in every run; and it is the sum of the
  log in exactly the runs whose corrections are accounted for (`Accounted`): a correction of a
  request of this period does not run into zero, and a correction of any other request finds
  nothing to change.
-/

namespace NexusTok

open Machine List

/-! ### The administrator's resets -/

/-- What an administrator's reset reports. -/
structure SubscriptionResetResult where
  planId : ℤ
  matchedCount : ℕ
  resetCount : ℕ
  userCount : ℕ
  advanceResetTime : Bool
  planTitle : String
  affectedUserIds : List ℤ
  deriving DecidableEq

def buildSubscriptionResetResult (plan : SubscriptionPlan) (subs : List UserSubscription)
    (advanceResetTime : Bool) : SubscriptionResetResult :=
  let userIds := (subs.map UserSubscription.userId).eraseDups
  ⟨plan.id, subs.length, subs.length, userIds.length, advanceResetTime, plan.title, userIds⟩

/-- The running subscriptions of a plan, of one user or of all, `ORDER BY user_id asc,
end_time asc, id asc`. -/
def planSubscriptions (userId : Option ℤ) (planId now : ℤ) (db : DB) : List UserSubscription :=
  Table.select
    (fun sub => decide ((userId = none ∨ userId = some sub.userId) ∧ sub.planId = planId ∧
      sub.status = .active ∧ now < sub.endTime))
    (fun a b => decide (a.userId < b.userId ∨ a.userId = b.userId ∧
      (a.endTime < b.endTime ∨ a.endTime = b.endTime ∧ a.id ≤ b.id)))
    db.subscriptions

/-- The loop over the subscriptions found. -/
def resetMatched (f : Faults) (loc : Location) (plan : SubscriptionPlan) (now : ℤ)
    (advanceResetTime : Bool) : List UserSubscription → DB → Except Err DB
  | [], db => .ok db
  | sub :: rest, db =>
    if f ⟨.save, .subscriptions, sub.id⟩ then .error (.db ⟨.save, .subscriptions, sub.id⟩)
    else
      resetMatched f loc plan now advanceResetTime rest
        (db.saveSubscription (resetUserSubscription loc sub plan now advanceResetTime))

/-- `adminResetUserSubscriptionsByPlanTx` for one user, `adminResetPlanSubscriptionsTx` for all:
only the first minds that nothing was found. -/
def adminResetBody (f : Faults) (loc : Location) (userId : Option ℤ) (planId now : ℤ)
    (advanceResetTime : Bool) : Body DB Err SubscriptionResetResult := fun db =>
  match getSubscriptionPlanById f db planId with
  | .error e => .error e
  | .ok plan =>
    let subs := planSubscriptions userId plan.id now db
    if f ⟨.find, .subscriptions, 0⟩ then .error (.db ⟨.find, .subscriptions, 0⟩)
    else if userId.isSome && subs.isEmpty then .error (.text "该用户没有有效的此套餐订阅")
    else
      match resetMatched f loc plan now advanceResetTime subs db with
      | .error e => .error e
      | .ok db' => .ok (buildSubscriptionResetResult plan subs advanceResetTime, db')

def adminResetUserSubscriptionsByPlan (f : Faults) (loc : Location) (userId planId now : ℤ)
    (advanceResetTime : Bool) (db : DB) : Except Err SubscriptionResetResult × DB :=
  if userId ≤ 0 ∨ planId ≤ 0 then (.error (.text "invalid userId or planId"), db)
  else
    (adminResetBody f loc (some userId) planId now advanceResetTime).atomically
      (commitErr f .subscriptions) db

def adminResetPlanSubscriptions (f : Faults) (loc : Location) (planId now : ℤ)
    (advanceResetTime : Bool) (db : DB) : Except Err SubscriptionResetResult × DB :=
  if planId ≤ 0 then (.error (.text "invalid planId"), db)
  else
    (adminResetBody f loc none planId now advanceResetTime).atomically
      (commitErr f .subscriptions) db

namespace Usage

/-! ### The machine -/

/-- What happens to the subscription. -/
inductive Event where
  | preConsume (args : PreConsumeArgs)
  /-- A settlement on account of a request. -/
  | settle (requestId : String) (delta : ℤ)
  | refund (requestId : String)
  /-- The transaction of the reset task for one row of its batch. -/
  | resetDue (row : UserSubscription) (now : ℤ)
  | adminResetUser (userId planId now : ℤ) (advanceResetTime : Bool)
  | adminResetPlan (planId now : ℤ) (advanceResetTime : Bool)

/-- The database, and the log of the current period: what each request took, entry by entry. -/
structure State where
  db : DB
  log : List (String × ℤ)

/-- The request has pre-consumed since the last reset. -/
def State.Current (s : State) (requestId : String) : Prop := requestId ∈ s.log.map Prod.fst

instance (s : State) (requestId : String) : Decidable (s.Current requestId) :=
  inferInstanceAs (Decidable (requestId ∈ s.log.map Prod.fst))

def State.total (s : State) : ℤ := (s.log.map Prod.snd).sum

/-- The log with a correction, which it takes only of its own requests. -/
def State.correct (s : State) (requestId : String) (delta : ℤ) : List (String × ℤ) :=
  if s.Current requestId then s.log ++ [(requestId, delta)] else s.log

/-- Seen from the database: the subscription's period was reset. -/
def resetSeen (sid : ℤ) (before after : DB) : Bool :=
  match before.subscription sid, after.subscription sid with
  | some sub, some row => sub.periodReset row
  | _, _ => false

/-- Seen from the database: what the request has newly taken from the subscription. -/
def chargeSeen (sid : ℤ) (requestId : String) (before after : DB) : List (String × ℤ) :=
  match before.preConsumeRecord requestId, after.preConsumeRecord requestId with
  | none, some r => if r.userSubscriptionId = sid then [(requestId, r.preConsumed)] else []
  | _, _ => []

/-- The correction that a refund of the request makes on the subscription. -/
def refundOf (sid : ℤ) (requestId : String) (db : DB) : ℤ :=
  match db.preConsumeRecord requestId with
  | some r =>
    if r.status = .consumed ∧ r.userSubscriptionId = sid ∧ 0 < r.preConsumed then -r.preConsumed
    else 0
  | none => 0

/-- The log after an administrator's reset of the subscriptions `subs`. -/
def State.logAfterReset (s : State) (sid : ℤ) (subs : List UserSubscription) (ok : Bool) :
    List (String × ℤ) :=
  if ok && subs.any fun sub => decide (sub.id = sid) then [] else s.log

variable (loc : Location) (sid : ℤ)

def step (s : State) : Event → State
  | .preConsume a =>
    let db' := (preConsumeUserSubscription .none loc a s.db).2
    ⟨db', (if resetSeen sid s.db db' then [] else s.log) ++ chargeSeen sid a.requestId s.db db'⟩
  | .settle rid delta =>
    let out := postConsumeUserSubscriptionDelta .none sid delta s.db
    ⟨out.2, if out.1.isOk then s.correct rid delta else s.log⟩
  | .refund rid =>
    let out := refundSubscriptionPreConsume .none rid s.db
    ⟨out.2, if out.1.isOk then s.correct rid (refundOf sid rid s.db) else s.log⟩
  | .resetDue row now =>
    match ResetTask.resetOne loc now row s.db with
    | .error _ => s
    | .ok (db', _) => ⟨db', if resetSeen sid s.db db' then [] else s.log⟩
  | .adminResetUser userId planId now adv =>
    let out := adminResetUserSubscriptionsByPlan .none loc userId planId now adv s.db
    ⟨out.2, s.logAfterReset sid (planSubscriptions (some userId) planId now s.db) out.1.isOk⟩
  | .adminResetPlan planId now adv =>
    let out := adminResetPlanSubscriptions .none loc planId now adv s.db
    ⟨out.2, s.logAfterReset sid (planSubscriptions none planId now s.db) out.1.isOk⟩

/-- The subscription is limited, and its counter lies between zero and the total. -/
structure InRange (db : DB) (sub : UserSubscription) : Prop where
  unique : (db.subscriptions.map UserSubscription.id).Nodup
  id_pos : 0 < sid
  row : db.subscription sid = some sub
  limited : 0 < sub.amountTotal
  nonneg : 0 ≤ sub.amountUsed
  le_total : sub.amountUsed ≤ sub.amountTotal

/-- The counter is the sum of the log. -/
def Balanced (s : State) : Prop :=
  (s.db.subscription sid).map UserSubscription.amountUsed = some s.total

/-- The correction an event makes: a settlement that takes effect, or the refund of a record that is
still to be given back. -/
inductive Corrects (s : State) : Event → String → ℤ → Prop
  | settle {rid : String} {delta : ℤ} {sub : UserSubscription}
      (h : Settles .none sid delta s.db sub) : Corrects s (.settle rid delta) rid delta
  | refund {rid : String} {r : SubscriptionPreConsumeRecord} (h : Refunds .none rid s.db r)
      (hs : r.userSubscriptionId = sid) (hp : 0 < r.preConsumed) :
      Corrects s (.refund rid) rid (-r.preConsumed)

/-- The corrections of the event are accounted for: one of a request of this period does not run
into zero, one of another request finds nothing to change. -/
def Accounted (s : State) (e : Event) : Prop :=
  ∀ rid delta sub, Corrects sid s e rid delta → s.db.subscription sid = some sub →
    if s.Current rid then 0 ≤ sub.amountUsed + delta else sub.usedAfter delta = sub.amountUsed

/-! ### What an event does -/

/-- The ways an event can move the counter, from `sub` to `sub'`, and the log with it. -/
inductive Effect (s s' : State) (e : Event) (sub sub' : UserSubscription) : Prop
  | keep (hu : sub'.amountUsed = sub.amountUsed) (hl : s'.log = s.log)
  | reset (hu : sub'.amountUsed = 0) (hl : s'.log = [])
  | charge (rid : String) (amount : ℤ) (fresh : Bool)
      (hu : sub'.amountUsed = (if fresh then 0 else sub.amountUsed) + amount)
      (hl : s'.log = (if fresh then [] else s.log) ++ [(rid, amount)])
  | correct (rid : String) (delta : ℤ) (hc : Corrects sid s e rid delta)
      (hu : sub'.amountUsed = sub.usedAfter delta) (hl : s'.log = s.correct rid delta)

variable {loc sid} {s : State} {sub : UserSubscription}

variable {db db' : DB}

theorem InRange.of_reset {row : UserSubscription} (h : InRange sid db sub)
    (hids : db'.subscriptions.map UserSubscription.id = db.subscriptions.map UserSubscription.id)
    (hrow : db'.subscription sid = some row) (htotal : row.amountTotal = sub.amountTotal)
    (hused : row.amountUsed = if sub.periodReset row then 0 else sub.amountUsed) :
    InRange sid db' row := by
  have h₁ := h.nonneg
  have h₂ := h.le_total
  have h₃ := h.limited
  refine ⟨by rw [hids]; exact h.unique, h.id_pos, hrow, by omega, ?_, ?_⟩ <;>
    split_ifs at hused <;> omega

/-- A database that differs only in other subscriptions. -/
theorem InRange.of_same (h : InRange sid db sub)
    (hids : db'.subscriptions.map UserSubscription.id = db.subscriptions.map UserSubscription.id)
    (hrow : db'.subscription sid = db.subscription sid) : InRange sid db' sub :=
  ⟨by rw [hids]; exact h.unique, h.id_pos, hrow.trans h.row, h.limited, h.nonneg, h.le_total⟩

theorem resetSeen_eq {row : UserSubscription} (h : db.subscription sid = some sub)
    (h' : db'.subscription sid = some row) : resetSeen sid db db' = sub.periodReset row := by
  simp [resetSeen, h, h']

theorem periodReset_self (sub : UserSubscription) : sub.periodReset sub = false := by
  simp [UserSubscription.periodReset]

theorem resetSeen_self (sid : ℤ) (db : DB) : resetSeen sid db db = false := by
  unfold resetSeen
  cases db.subscription sid with
  | none => rfl
  | some sub => exact periodReset_self sub

theorem chargeSeen_self (sid : ℤ) (rid : String) (db : DB) : chargeSeen sid rid db db = [] := by
  unfold chargeSeen
  cases db.preConsumeRecord rid <;> rfl

variable {now delta : ℤ}

/-- The row of the subscription after the resets a pre-consume makes on its way. -/
theorem resets_row {f : Faults} {db₁ : DB} (h : InRange sid s.db sub)
    (hr : ResetsInPassing f loc now s.db db₁) :
    ∃ row, InRange sid db₁ row ∧
      row.amountUsed = if sub.periodReset row then 0 else sub.amountUsed := by
  obtain hsame | ⟨sub', plan, row, hsub', -, hreset, hrow⟩ := hr.rows sid
  · exact ⟨sub, h.of_same hr.ids hsame, by rw [periodReset_self]; rfl⟩
  · rw [h.row, Option.some.injEq] at hsub'
    subst hsub'
    have hused := maybeReset_amountUsed hreset
    have htotal : row.amountTotal = sub.amountTotal := by rw [maybeReset_frame hreset]
    exact ⟨row, h.of_reset hr.ids hrow htotal hused, hused⟩

theorem preConsume_effect (a : PreConsumeArgs) (h : InRange sid s.db sub) :
    ∃ sub', InRange sid (step loc sid s (.preConsume a)).db sub' ∧
      Effect sid s (step loc sid s (.preConsume a)) (.preConsume a) sub sub' := by
  obtain hsame | ⟨db₁, sub₁, hc, hout⟩ := preConsume_cases .none loc a h.unique
  · refine ⟨sub, ?_, .keep rfl ?_⟩
    · simp only [step, hsame]; exact h
    · simp [step, hsame, resetSeen_self, chargeSeen_self]
  · obtain ⟨row, hrow, hused⟩ := resets_row h hc.resets
    have hstep : (step loc sid s (.preConsume a)).db = a.apply sub₁ db₁ := by
      simp only [step, hout]
    have hrec : (a.apply sub₁ db₁).preConsumeRecord a.requestId = some (a.record sub₁.id) :=
      DB.preConsumeRecord_add ((hc.resets.record _).trans hc.fresh) rfl
    have hids : (a.apply sub₁ db₁).subscriptions.map UserSubscription.id =
        db₁.subscriptions.map UserSubscription.id := DB.ids_saveSubscription _
    have hcharge : chargeSeen sid a.requestId s.db (a.apply sub₁ db₁) =
        if sub₁.id = sid then [(a.requestId, a.amount)] else [] := by
      simp only [chargeSeen, hc.fresh, hrec]
      rfl
    by_cases hid : sub₁.id = sid
    · -- the subscription itself is charged
      have heq : sub₁ = row := by
        have := hc.row
        rw [hid, hrow.row, Option.some.injEq] at this
        exact this.symm
      subst heq
      have hrow' : (a.apply sub₁ db₁).subscription sid = some (sub₁.charge a.amount) :=
        DB.subscription_save hrow.row hid
      have hbears := UserSubscription.bears_iff.1 hc.bears hrow.limited
      refine ⟨sub₁.charge a.amount, ?_, .charge a.requestId a.amount (sub.periodReset sub₁) ?_ ?_⟩
      · rw [hstep]
        have h₁ := hrow.nonneg
        have h₂ := hc.positive
        refine ⟨by rw [hids]; exact hrow.unique, h.id_pos, hrow', hrow.limited, ?_, hbears⟩
        simp only [UserSubscription.charge]
        omega
      · simp only [UserSubscription.charge, hused]
      · simp only [step, hout, hcharge, if_pos hid, resetSeen_eq h.row hrow']
        rfl
    · -- another one is charged
      have hid' : sid ≠ (sub₁.charge a.amount).id := Ne.symm hid
      have hrow' : (a.apply sub₁ db₁).subscription sid = some row :=
        (DB.subscription_save_ne hid').trans hrow.row
      have hlog : (step loc sid s (.preConsume a)).log =
          if sub.periodReset row then [] else s.log := by
        simp only [step, hout, hcharge, if_neg hid, resetSeen_eq h.row hrow', append_nil]
      refine ⟨row, by rw [hstep]; exact hrow.of_same hids (hrow'.trans hrow.row.symm), ?_⟩
      cases hp : sub.periodReset row with
      | true => exact .reset (by rw [hused, hp, if_pos rfl]) (by rw [hlog, hp, if_pos rfl])
      | false => exact .keep (by rw [hused, hp]; rfl) (by rw [hlog, hp]; rfl)

/-- A settlement that takes effect leaves the counter in range. -/
theorem InRange.settle {f : Faults} (h : InRange sid s.db sub) (hs : Settles f sid delta s.db sub) :
    InRange sid (s.db.saveSubscription (sub.settle delta)) (sub.settle delta) := by
  have hfits := UserSubscription.exceeds_eq_false_iff.1 hs.fits h.limited
  have hlim := h.limited
  have hid : sub.id = sid := DB.subscription_id h.row
  refine ⟨by rw [DB.ids_saveSubscription]; exact h.unique, h.id_pos,
    DB.subscription_save h.row hid, h.limited, ?_, ?_⟩ <;>
    simp only [UserSubscription.settle, UserSubscription.usedAfter] <;> omega

/-- With no statement failing, a refund that goes past its guards marks the record, whatever the
settlement wrote. -/
theorem markRefunded_none (r : SubscriptionPreConsumeRecord) (db : DB) :
    markRefunded .none r db = (.ok (), db.saveRecord { r with status := .refunded }) := rfl

theorem refundOf_eq {rid : String} {r : SubscriptionPreConsumeRecord}
    (h : Refunds .none rid s.db r) : refundOf sid rid s.db =
      if r.userSubscriptionId = sid ∧ 0 < r.preConsumed then -r.preConsumed else 0 := by
  simp only [refundOf, h.row, h.consumed, true_and]

/-- With no statement failing, a refund never meets a settlement that goes over the total. -/
theorem settles_refund {r : SubscriptionPreConsumeRecord} (h : InRange sid s.db sub)
    (hp : 0 < r.preConsumed) : Settles .none sid (-r.preConsumed) s.db sub := by
  have hle := h.le_total
  exact ⟨h.id_pos, by omega, h.row, UserSubscription.exceeds_eq_false_iff.2 fun _ => by omega,
    rfl, rfl, rfl⟩

theorem Corrects.eq {e : Event} {rid : String} (hc : Corrects sid s e rid delta)
    (loc : Location) (h : InRange sid s.db sub) :
    InRange sid (step loc sid s e).db (sub.settle delta) ∧
      (step loc sid s e).log = s.correct rid delta := by
  cases hc with
  | @settle _ _ sub' hs =>
    have heq : sub' = sub := by
      have := hs.row
      rw [h.row, Option.some.injEq] at this
      exact this.symm
    subst heq
    refine ⟨by simp only [step, hs.eq]; exact h.settle hs, ?_⟩
    simp [step, hs.eq, Except.isOk, Except.toBool]
  | @refund _ r hr hsid hp =>
    have hs := settles_refund h hp
    have hout := hr.eq
    rw [if_neg (not_le.2 hp), hsid, hs.eq] at hout
    simp only [markRefunded_none] at hout
    refine ⟨?_, ?_⟩
    · simp only [step, hout]
      obtain ⟨h₁, h₂, h₃, h₄, h₅, h₆⟩ := h.settle hs
      exact ⟨h₁, h₂, h₃, h₄, h₅, h₆⟩
    · simp [step, hout, Except.isOk, Except.toBool, refundOf_eq hr, hsid, hp]

theorem Corrects.effect {e : Event} {rid : String} (hc : Corrects sid s e rid delta)
    (h : InRange sid s.db sub) :
    ∃ sub', InRange sid (step loc sid s e).db sub' ∧ Effect sid s (step loc sid s e) e sub sub' :=
  ⟨sub.settle delta, (hc.eq loc h).1, .correct rid delta hc rfl (hc.eq loc h).2⟩

theorem correct_zero (s : State) (rid : String) :
    s.correct rid 0 = s.log ∨ s.correct rid 0 = s.log ++ [(rid, 0)] := by
  unfold State.correct
  split_ifs
  · exact .inr rfl
  · exact .inl rfl

theorem effect_of_zero {s' : State} {e : Event} (rid : String) (h : InRange sid s.db sub)
    (hids : s'.db.subscriptions.map UserSubscription.id =
      s.db.subscriptions.map UserSubscription.id)
    (hrow : s'.db.subscription sid = s.db.subscription sid) (hl : s'.log = s.correct rid 0) :
    ∃ sub', InRange sid s'.db sub' ∧ Effect sid s s' e sub sub' := by
  refine ⟨sub, h.of_same hids hrow, ?_⟩
  rcases correct_zero s rid with h0 | h0
  · exact .keep rfl (hl.trans h0)
  · exact .charge rid 0 false (by simp) (by rw [hl, h0]; rfl)

theorem settle_effect (rid : String) (delta : ℤ) (h : InRange sid s.db sub) :
    ∃ sub', InRange sid (step loc sid s (.settle rid delta)).db sub' ∧
      Effect sid s (step loc sid s (.settle rid delta)) (.settle rid delta) sub sub' := by
  obtain ⟨e, he⟩ | ⟨h0, hok⟩ | ⟨sub', hs⟩ := postConsume_cases .none sid delta s.db
  · refine ⟨sub, by simp only [step, he]; exact h, .keep rfl ?_⟩
    simp [step, he, Except.isOk, Except.toBool]
  · refine effect_of_zero rid h ?_ ?_ ?_ <;> simp only [step, hok]
    simp [Except.isOk, Except.toBool, h0]
  · exact Corrects.effect (.settle hs) h

theorem refund_effect (rid : String) (h : InRange sid s.db sub) :
    ∃ sub', InRange sid (step loc sid s (.refund rid)).db sub' ∧
      Effect sid s (step loc sid s (.refund rid)) (.refund rid) sub sub' := by
  obtain ⟨e, he⟩ | ⟨r, hr, href, hok⟩ | ⟨r, hr⟩ := refund_cases .none rid s.db
  · refine ⟨sub, by simp only [step, he]; exact h, .keep rfl ?_⟩
    simp [step, he, Except.isOk, Except.toBool]
  · refine effect_of_zero rid h ?_ ?_ ?_ <;> simp only [step, hok]
    simp [Except.isOk, Except.toBool, refundOf, hr, href]
  · have hout := hr.eq
    by_cases hp : r.preConsumed ≤ 0
    · rw [if_pos hp, markRefunded_none] at hout
      refine effect_of_zero rid h ?_ ?_ ?_ <;> simp only [step, hout]
      · rfl
      · rfl
      · simp [Except.isOk, Except.toBool, refundOf_eq hr, not_lt.2 hp]
    by_cases hsid : r.userSubscriptionId = sid
    · exact Corrects.effect (.refund hr hsid (not_le.1 hp)) h
    -- the refund goes to another subscription
    rw [if_neg hp] at hout
    obtain ⟨e, he⟩ | ⟨h0, -⟩ | ⟨sub', hs⟩ :=
      postConsume_cases .none r.userSubscriptionId (-r.preConsumed) s.db
    · rw [he] at hout
      refine ⟨sub, by simp only [step, hout]; exact h, .keep rfl ?_⟩
      simp [step, hout, Except.isOk, Except.toBool]
    · omega
    · rw [hs.eq] at hout
      simp only [markRefunded_none] at hout
      have hne : sid ≠ (sub'.settle (-r.preConsumed)).id := by
        have : sub'.id = r.userSubscriptionId := DB.subscription_id hs.row
        change sid ≠ sub'.id
        omega
      refine effect_of_zero rid h ?_ ?_ ?_ <;> simp only [step, hout]
      · exact DB.ids_saveSubscription _
      · exact DB.subscription_save_ne hne
      · simp [Except.isOk, Except.toBool, refundOf_eq hr, hsid]

theorem resetOne_cases {row : UserSubscription} {counted : Bool}
    (hn : (db.subscriptions.map UserSubscription.id).Nodup)
    (h : ResetTask.resetOne loc now row db = .ok (db', counted)) :
    db' = db ∨ ∃ locked plan row', db.subscription locked.id = some locked ∧
      maybeResetUserSubscriptionWithPlan loc locked plan now = .ok (row', true) ∧
      db' = db.saveSubscription row' := by
  unfold ResetTask.resetOne at h
  split at h
  · rw [Except.ok.injEq, Prod.mk.injEq] at h
    exact .inl h.1.symm
  · rename_i plan hplan
    split at h
    · rw [Except.ok.injEq, Prod.mk.injEq] at h
      exact .inl h.1.symm
    · rename_i locked hlocked
      split at h
      · cases h
      · rename_i row' saved hrow
        rw [Except.ok.injEq, Prod.mk.injEq] at h
        cases saved with
        | false => exact .inl h.1.symm
        | true =>
          exact .inr ⟨locked, plan, row', DB.subscription_of_mem hn
            (mem_of_find?_eq_some hlocked), hrow, h.1.symm⟩

theorem resetDue_effect (row : UserSubscription) (now : ℤ) (h : InRange sid s.db sub) :
    ∃ sub', InRange sid (step loc sid s (.resetDue row now)).db sub' ∧
      Effect sid s (step loc sid s (.resetDue row now)) (.resetDue row now) sub sub' := by
  cases hout : ResetTask.resetOne loc now row s.db with
  | error e =>
    exact ⟨sub, by simp only [step, hout]; exact h, .keep rfl (by simp only [step, hout])⟩
  | ok p =>
    obtain ⟨db', counted⟩ := p
    -- a row for the subscription in the new table, and what it makes of the log
    have finish : ∀ row', InRange sid db' row' →
        (row'.amountUsed = if sub.periodReset row' then 0 else sub.amountUsed) →
        ∃ sub', InRange sid (step loc sid s (.resetDue row now)).db sub' ∧
          Effect sid s (step loc sid s (.resetDue row now)) (.resetDue row now) sub sub' := by
      intro row' hrow' hused
      refine ⟨row', by simp only [step, hout]; exact hrow', ?_⟩
      have hlog : (step loc sid s (.resetDue row now)).log =
          if sub.periodReset row' then [] else s.log := by
        simp only [step, hout, resetSeen_eq h.row hrow'.row]
      cases hp : sub.periodReset row' with
      | true => exact .reset (by rw [hused, hp, if_pos rfl]) (by rw [hlog, hp, if_pos rfl])
      | false => exact .keep (by rw [hused, hp]; rfl) (by rw [hlog, hp]; rfl)
    obtain rfl | ⟨locked, plan, row', hlocked, hreset, rfl⟩ := resetOne_cases h.unique hout
    · exact finish sub h (by rw [periodReset_self]; rfl)
    · have hid := maybeReset_id hreset
      by_cases hsid : locked.id = sid
      · have heq : locked = sub := by
          rw [hsid, h.row, Option.some.injEq] at hlocked
          exact hlocked.symm
        subst heq
        have hused := maybeReset_amountUsed hreset
        exact finish row' (h.of_reset (DB.ids_saveSubscription _)
          (DB.subscription_save h.row (hid.trans hsid)) (by rw [maybeReset_frame hreset]) hused)
          hused
      · have hne : sid ≠ row'.id := by omega
        exact finish sub (h.of_same (DB.ids_saveSubscription _) (DB.subscription_save_ne hne))
          (by rw [periodReset_self]; rfl)

/-- The administrator's reset of the rows found. -/
theorem resetMatched_none (loc : Location) (plan : SubscriptionPlan) (now : ℤ) (adv : Bool)
    {subs : List UserSubscription} (hnd : (subs.map UserSubscription.id).Nodup)
    (hm : ∀ sub ∈ subs, db.subscription sub.id = some sub) :
    ∃ db', resetMatched .none loc plan now adv subs db = .ok db' ∧
      db'.subscriptions.map UserSubscription.id = db.subscriptions.map UserSubscription.id ∧
      (∀ sub ∈ subs, db'.subscription sub.id = some (resetUserSubscription loc sub plan now adv)) ∧
      ∀ id, id ∉ subs.map UserSubscription.id → db'.subscription id = db.subscription id := by
  induction subs generalizing db with
  | nil => exact ⟨db, rfl, rfl, by simp, fun _ _ => rfl⟩
  | cons c rest ih =>
    obtain ⟨hc, hrest⟩ := nodup_cons.1 hnd
    have hid : (resetUserSubscription loc c plan now adv).id = c.id := by
      unfold resetUserSubscription
      split_ifs <;> rfl
    have hm' : ∀ sub ∈ rest, (db.saveSubscription (resetUserSubscription loc c plan now
        adv)).subscription sub.id = some sub := by
      intro sub hsub
      have hne : sub.id ≠ (resetUserSubscription loc c plan now adv).id := by
        rw [hid]
        exact fun he => hc (he ▸ mem_map_of_mem hsub)
      rw [DB.subscription_save_ne hne]
      exact hm sub (mem_cons_of_mem _ hsub)
    obtain ⟨db', hok, hids, hin, hout⟩ := ih hrest hm'
    refine ⟨db', hok, hids.trans (DB.ids_saveSubscription _), ?_, ?_⟩
    · intro sub hsub
      rcases mem_cons.1 hsub with rfl | hsub
      · rw [hout _ hc]
        exact DB.subscription_save (hm sub mem_cons_self) hid
      · exact hin sub hsub
    · intro id hidn
      rw [map_cons, mem_cons, not_or] at hidn
      rw [hout id hidn.2, DB.subscription_save_ne (by rw [hid]; exact hidn.1)]

theorem planSubscriptions_mem {userId : Option ℤ} {planId : ℤ}
    {c : UserSubscription} (h : c ∈ planSubscriptions userId planId now db) :
    c ∈ db.subscriptions := (Table.mem_select.1 h).1

theorem resetUserSubscription_used (loc : Location) (sub : UserSubscription)
    (plan : SubscriptionPlan) (now : ℤ) (adv : Bool) :
    (resetUserSubscription loc sub plan now adv).amountUsed = 0 ∧
      (resetUserSubscription loc sub plan now adv).amountTotal = sub.amountTotal := by
  unfold resetUserSubscription
  split_ifs <;> exact ⟨rfl, rfl⟩

/-- An administrator's reset, of one user's subscriptions or of all: it fails, or the subscription
was among those found and its counter is zero, or it was not and its row is what it was. -/
theorem adminReset_cases (loc : Location) (userId : Option ℤ) (planId now : ℤ) (adv : Bool)
    (h : InRange sid s.db sub) :
    let out := (adminResetBody .none loc userId planId now adv).atomically
      (commitErr .none .subscriptions) s.db
    ∃ sub', InRange sid out.2 sub' ∧
      (sub'.amountUsed = sub.amountUsed ∧
          s.logAfterReset sid (planSubscriptions userId planId now s.db) out.1.isOk = s.log ∨
        sub'.amountUsed = 0 ∧
          s.logAfterReset sid (planSubscriptions userId planId now s.db) out.1.isOk = []) := by
  intro out
  obtain ⟨e, he⟩ | ⟨res, db', -, hb, he⟩ := Body.atomically_cases (commitErr .none .subscriptions)
    (adminResetBody .none loc userId planId now adv) s.db
  · refine ⟨sub, by simp only [out, he]; exact h, .inl ⟨rfl, ?_⟩⟩
    simp [out, he, State.logAfterReset, Except.isOk, Except.toBool]
  · have hout : out = (.ok res, db') := he
    clear_value out
    subst hout
    unfold adminResetBody at hb
    split at hb
    · cases hb
    rename_i plan hplan
    rw [getSubscriptionPlanById_id hplan] at hb
    have hnd : ((planSubscriptions userId planId now s.db).map UserSubscription.id).Nodup :=
      Table.keys_select_nodup h.unique
    obtain ⟨db₁, hok, hids, hin, hnot⟩ := resetMatched_none loc plan now adv hnd
      fun c hc => DB.subscription_of_mem h.unique (planSubscriptions_mem hc)
    simp only [hok] at hb
    split_ifs at hb
    rw [Except.ok.injEq, Prod.mk.injEq] at hb
    obtain ⟨-, rfl⟩ := hb
    -- the subscription is among those found iff its id is
    have hmem : ∀ c ∈ planSubscriptions userId planId now s.db, c.id = sid → c = sub := by
      intro c hc hid
      have hrow := DB.subscription_of_mem h.unique (planSubscriptions_mem hc)
      rw [hid, h.row, Option.some.injEq] at hrow
      exact hrow.symm
    have hid : sub.id = sid := DB.subscription_id h.row
    by_cases hm : sub ∈ planSubscriptions userId planId now s.db
    · have hrow := hin sub hm
      rw [hid] at hrow
      obtain ⟨hused, htotal⟩ := resetUserSubscription_used loc sub plan now adv
      have hlim := h.limited
      refine ⟨_, ⟨by rw [hids]; exact h.unique, h.id_pos, hrow, by omega, by omega, by omega⟩,
        .inr ⟨hused, ?_⟩⟩
      have hany : (planSubscriptions userId planId now s.db).any
          (fun c => decide (c.id = sid)) = true :=
        any_eq_true.2 ⟨sub, hm, by simpa using hid⟩
      simp [State.logAfterReset, hany, Except.isOk, Except.toBool]
    · have hsid : sid ∉ (planSubscriptions userId planId now s.db).map UserSubscription.id := by
        intro hin'
        obtain ⟨c, hc, hcid⟩ := mem_map.1 hin'
        exact hm (hmem c hc hcid ▸ hc)
      refine ⟨sub, h.of_same hids (hnot sid hsid), .inl ⟨rfl, ?_⟩⟩
      have hany : (planSubscriptions userId planId now s.db).any
          (fun c => decide (c.id = sid)) = false := by
        refine any_eq_false.2 fun c hc => ?_
        intro hcid
        exact hsid (mem_map.2 ⟨c, hc, by simpa using hcid⟩)
      simp [State.logAfterReset, hany]

/-- **Everything an event can do** to the counter and the log of the subscription. -/
theorem step_cases (loc : Location) (e : Event) (h : InRange sid s.db sub) :
    ∃ sub', InRange sid (step loc sid s e).db sub' ∧
      Effect sid s (step loc sid s e) e sub sub' := by
  cases e with
  | preConsume a => exact preConsume_effect a h
  | settle rid delta => exact settle_effect rid delta h
  | refund rid => exact refund_effect rid h
  | resetDue row now => exact resetDue_effect row now h
  | adminResetUser userId planId now adv =>
    by_cases hg : userId ≤ 0 ∨ planId ≤ 0
    · refine ⟨sub, by simp only [step, adminResetUserSubscriptionsByPlan, if_pos hg]; exact h,
        .keep rfl ?_⟩
      simp [step, adminResetUserSubscriptionsByPlan, if_pos hg, State.logAfterReset, Except.isOk,
        Except.toBool]
    · obtain ⟨sub', hr, ⟨hu, hl⟩ | ⟨hu, hl⟩⟩ := adminReset_cases loc (some userId) planId now adv h
      · refine ⟨sub', ?_, .keep hu ?_⟩ <;>
          simp only [step, adminResetUserSubscriptionsByPlan, if_neg hg]
        · exact hr
        · exact hl
      · refine ⟨sub', ?_, .reset hu ?_⟩ <;>
          simp only [step, adminResetUserSubscriptionsByPlan, if_neg hg]
        · exact hr
        · exact hl
  | adminResetPlan planId now adv =>
    by_cases hg : planId ≤ 0
    · refine ⟨sub, by simp only [step, adminResetPlanSubscriptions, if_pos hg]; exact h,
        .keep rfl ?_⟩
      simp [step, adminResetPlanSubscriptions, if_pos hg, State.logAfterReset, Except.isOk,
        Except.toBool]
    · obtain ⟨sub', hr, ⟨hu, hl⟩ | ⟨hu, hl⟩⟩ := adminReset_cases loc none planId now adv h
      · refine ⟨sub', ?_, .keep hu ?_⟩ <;> simp only [step, adminResetPlanSubscriptions, if_neg hg]
        · exact hr
        · exact hl
      · refine ⟨sub', ?_, .reset hu ?_⟩ <;> simp only [step, adminResetPlanSubscriptions, if_neg hg]
        · exact hr
        · exact hl

/-! ### Runs -/

theorem balanced_iff (h : InRange sid s.db sub) : Balanced sid s ↔ sub.amountUsed = s.total := by
  rw [Balanced, h.row, Option.map_some, Option.some.injEq]

theorem total_correct (s : State) (rid : String) (delta : ℤ) :
    ((s.correct rid delta).map Prod.snd).sum = s.total + if s.Current rid then delta else 0 := by
  unfold State.correct State.total
  split_ifs <;> simp

theorem Balanced.step (loc : Location) (e : Event) (h : InRange sid s.db sub)
    (hb : Balanced sid s) (ha : Accounted sid s e) : Balanced sid (step loc sid s e) := by
  rw [balanced_iff h] at hb
  obtain ⟨sub', hr, heff⟩ := step_cases loc e h
  rw [balanced_iff hr]
  cases heff with
  | keep hu hl => rw [hu, hb, State.total, State.total, hl]
  | reset hu hl => rw [hu, State.total, hl]; rfl
  | charge rid amount fresh hu hl =>
    rw [hu, State.total, hl]
    cases fresh
    · simp [hb, State.total]
    · simp
  | correct rid delta hc hu hl =>
    have hacc := ha rid delta sub hc h.row
    rw [hu, State.total, hl, total_correct, ← hb]
    split_ifs at hacc ⊢
    · exact max_eq_left hacc
    · rw [hacc, add_zero]

theorem accounted_of_balanced (loc : Location) (e : Event) (h : InRange sid s.db sub)
    (hb : Balanced sid s) (hb' : Balanced sid (step loc sid s e)) : Accounted sid s e := by
  intro rid delta sub' hc hrow
  rw [h.row, Option.some.injEq] at hrow
  subst hrow
  obtain ⟨hr, hl⟩ := hc.eq loc h
  rw [balanced_iff h] at hb
  rw [balanced_iff hr, State.total, hl, total_correct, ← hb] at hb'
  change sub.usedAfter delta = _ at hb'
  split_ifs at hb' ⊢
  · rw [UserSubscription.usedAfter] at hb'
    omega
  · rw [hb', add_zero]

/-- **The counter over whole runs.**  Started on a limited subscription whose counter is the sum of
its log: the counter stays between zero and the total in every run, and it stays the sum of the log
in exactly the runs whose corrections are accounted for. -/
theorem usage_runs (loc : Location) (sid : ℤ) (s : State) (sub : UserSubscription)
    (h : InRange sid s.db sub) (hb : Balanced sid s) (es : List Event) :
    Always (step loc sid) (fun s => ∃ sub, InRange sid s.db sub) s es ∧
      (Always (step loc sid) (Balanced sid) s es ↔ Meets (step loc sid) (Accounted sid) s es) := by
  refine ⟨Always.of_step (fun s e hs => ?_) ⟨sub, h⟩ es, ?_⟩
  · obtain ⟨sub, h⟩ := hs
    obtain ⟨sub', hr, -⟩ := step_cases loc e h
    exact ⟨sub', hr⟩
  · refine always_iff_meets (J := fun s => (∃ sub, InRange sid s.db sub) ∧ Balanced sid s)
      (fun s hs => hs.2) ?_ ?_ ⟨⟨sub, h⟩, hb⟩
    · rintro s e ⟨⟨sub, h⟩, hb⟩ ha
      obtain ⟨sub', hr, -⟩ := step_cases loc e h
      exact ⟨⟨sub', hr⟩, hb.step loc e h ha⟩
    · rintro s e ⟨⟨sub, h⟩, hb⟩ hb'
      exact accounted_of_balanced loc e h hb hb'

/-! ### Corrections that arrive late -/

/-- A subscription of 100 that resets every minute, just bought. -/
def freshDB : DB :=
  { DB.empty with
    plans := [
      { id := 1
        title := "pro"
        priceAmount := .ofInt 10
        durationUnit := .month
        durationValue := 1
        customSeconds := 0
        enabled := true
        allowBalancePay := none
        allowWalletOverflow := none
        maxPurchasePerUser := 0
        upgradeGroup := ""
        downgradeGroup := ""
        totalAmount := 100
        quotaResetPeriod := "custom"
        quotaResetCustomSeconds := 60 }]
    subscriptions := [
      { id := 1
        userId := 7
        planId := 1
        amountTotal := 100
        amountUsed := 0
        startTime := 1000
        endTime := 100000
        status := .active
        source := "order"
        lastResetTime := 1000
        nextResetTime := 1060
        upgradeGroup := ""
        prevUserGroup := ""
        downgradeGroup := ""
        allowWalletOverflow := true }] }

def used (s : State) : Option ℤ := (s.db.subscription 1).map UserSubscription.amountUsed

/-- Two requests in one period: the first is settled down, the second refunded. -/
theorem usage_runs_one_period :
    (∃ sub, InRange 1 freshDB sub) ∧
      (Always (step .utc 1) (Balanced 1) ⟨freshDB, []⟩
          [.preConsume ⟨"a", 7, 10, 1010⟩, .preConsume ⟨"b", 7, 20, 1020⟩, .settle "a" (-4),
            .refund "b"] ↔
        Meets (step .utc 1) (Accounted 1) ⟨freshDB, []⟩
          [.preConsume ⟨"a", 7, 10, 1010⟩, .preConsume ⟨"b", 7, 20, 1020⟩, .settle "a" (-4),
            .refund "b"]) := by
  have h : InRange 1 freshDB (freshDB.subscriptions.head (by decide)) :=
    ⟨by decide, by decide, by decide, by decide, by decide, by decide⟩
  exact ⟨⟨_, h⟩, (usage_runs .utc 1 ⟨freshDB, []⟩ _ h rfl _).2⟩

/-- A request of the period before, refunded after the reset, takes back what another request has
used since: the counter is 0, though the request made after the reset took 5.  And a refund gives
back what was pre-consumed only: a request that was settled up by 5 leaves 5 behind. -/
theorem late_refund_lowers_usage :
    used (run (step .utc 1) ⟨freshDB, []⟩ [.preConsume ⟨"a", 7, 10, 1010⟩,
        .resetDue (freshDB.subscriptions.head (by decide)) 1070, .preConsume ⟨"b", 7, 5, 1080⟩,
        .refund "a"]) = some 0 ∧
      (run (step .utc 1) ⟨freshDB, []⟩ [.preConsume ⟨"a", 7, 10, 1010⟩,
        .resetDue (freshDB.subscriptions.head (by decide)) 1070, .preConsume ⟨"b", 7, 5, 1080⟩,
        .refund "a"]).log = [("b", 5)] ∧
      used (run (step .utc 1) ⟨freshDB, []⟩ [.preConsume ⟨"a", 7, 10, 1010⟩, .settle "a" 5,
        .refund "a"]) = some 5 := by
  decide

end Usage

end NexusTok
