import NexusTok.Subscription.Period

/-!
# Charging a subscription

A request charges a subscription in up to three transactions:

* `preConsumeUserSubscription` takes an estimate from the first active subscription that can bear
  it, and leaves a record under the request's id.
* `postConsumeUserSubscriptionDelta` corrects the used amount when the real cost is known.
* `refundSubscriptionPreConsume` gives the estimate back and marks the record.  It calls the
  correction, which commits on its own, from inside its own transaction.

The `_cases` lemmas say everything each of them can do to the database; nothing later unfolds the
functions.
-/

namespace NexusTok

open List

/-! ### Pre-consuming -/

/-- What a pre-consume reports. -/
structure SubscriptionPreConsumeResult where
  userSubscriptionId : ℤ
  preConsumed : ℤ
  amountTotal : ℤ
  amountUsedBefore : ℤ
  amountUsedAfter : ℤ
  deriving DecidableEq

/-- A user's active subscriptions, `ORDER BY end_time asc, id asc`. -/
def activeSubscriptions (userId now : ℤ) (db : DB) : List UserSubscription :=
  Table.select
    (fun sub => decide (sub.userId = userId ∧ sub.status = .active ∧ now < sub.endTime))
    (fun a b => decide (a.endTime < b.endTime ∨ a.endTime = b.endTime ∧ a.id ≤ b.id))
    db.subscriptions

/-- The subscription can bear the amount. -/
def UserSubscription.bears (sub : UserSubscription) (amount : ℤ) : Bool :=
  !(decide (0 < sub.amountTotal) && decide (sub.amountTotal - sub.amountUsed < amount))

/-- A call of `PreConsumeUserSubscription`: its arguments, and the time it reads. -/
structure PreConsumeArgs where
  requestId : String
  userId : ℤ
  amount : ℤ
  now : ℤ
  deriving DecidableEq

/-- The record a pre-consume leaves. -/
def PreConsumeArgs.record (a : PreConsumeArgs) (subId : ℤ) : SubscriptionPreConsumeRecord :=
  ⟨a.requestId, a.userId, subId, a.amount, .consumed⟩

/-- The subscription after a charge. -/
def UserSubscription.charge (sub : UserSubscription) (amount : ℤ) : UserSubscription :=
  { sub with amountUsed := sub.amountUsed + amount }

/-- The database after a pre-consume from `sub`: the charge and its record. -/
def PreConsumeArgs.apply (a : PreConsumeArgs) (sub : UserSubscription) (db : DB) : DB :=
  (db.saveSubscription (sub.charge a.amount)).addRecord (a.record sub.id)

/-- What a pre-consume from `sub` reports. -/
def PreConsumeArgs.result (a : PreConsumeArgs) (sub : UserSubscription) :
    SubscriptionPreConsumeResult :=
  ⟨sub.id, a.amount, sub.amountTotal, sub.amountUsed, sub.amountUsed + a.amount⟩

/-- The end of a turn of the loop: the candidate, brought up to date, bears the amount. -/
def preConsumeSub (f : Faults) (a : PreConsumeArgs) (sub : UserSubscription) :
    Body DB Err SubscriptionPreConsumeResult := fun db =>
  if f ⟨.create, .preConsumeRecords, 0⟩ then
    -- the record may have been created by a concurrent call of the same request
    match (if f ⟨.find, .preConsumeRecords, 1⟩ then none else db.preConsumeRecord a.requestId) with
    | none => .error (.db ⟨.create, .preConsumeRecords, 0⟩)
    | some dup =>
      if dup.status = .refunded then .error (.text "subscription pre-consume already refunded")
      else .ok (⟨sub.id, dup.preConsumed, sub.amountTotal, sub.amountUsed, sub.amountUsed⟩, db)
  else if f ⟨.save, .subscriptions, sub.id⟩ then .error (.db ⟨.save, .subscriptions, sub.id⟩)
  else .ok (a.result sub, a.apply sub db)

/-- The loop over the candidates. -/
def preConsumeFrom (f : Faults) (loc : Location) (a : PreConsumeArgs) :
    List UserSubscription → Body DB Err SubscriptionPreConsumeResult
  | [], _ => .error (.text ("subscription quota insufficient, need=" ++ toString a.amount))
  | candidate :: rest, db =>
    match getSubscriptionPlanById f db candidate.planId with
    | .error e => .error e
    | .ok plan =>
      match maybeResetUserSubscriptionWithPlan loc candidate plan a.now with
      | .error e => .error e
      | .ok (sub, saved) =>
        if saved && f ⟨.reset, .subscriptions, sub.id⟩ then
          .error (.db ⟨.reset, .subscriptions, sub.id⟩)
        else
          let db := db.saveIf saved sub
          if sub.bears a.amount then preConsumeSub f a sub db else preConsumeFrom f loc a rest db

/-- The transaction of `PreConsumeUserSubscription`. -/
def preConsumeBody (f : Faults) (loc : Location) (a : PreConsumeArgs) :
    Body DB Err SubscriptionPreConsumeResult := fun db =>
  if f ⟨.find, .preConsumeRecords, 0⟩ then .error (.db ⟨.find, .preConsumeRecords, 0⟩)
  else
    match db.preConsumeRecord a.requestId with
    | some existing =>
      if existing.status = .refunded then .error (.text "subscription pre-consume already refunded")
      else if f ⟨.find, .subscriptions, existing.userSubscriptionId⟩ then
        .error (.db ⟨.find, .subscriptions, existing.userSubscriptionId⟩)
      else
        match db.subscription existing.userSubscriptionId with
        | none => .error errRecordNotFound
        | some sub =>
          .ok (⟨sub.id, existing.preConsumed, sub.amountTotal, sub.amountUsed, sub.amountUsed⟩, db)
    | none =>
      let subs := activeSubscriptions a.userId a.now db
      if f ⟨.find, .subscriptions, 0⟩ || subs.isEmpty then .error (.text "no active subscription")
      else preConsumeFrom f loc a subs db

def preConsumeUserSubscription (f : Faults) (loc : Location) (a : PreConsumeArgs) (db : DB) :
    Except Err SubscriptionPreConsumeResult × DB :=
  if a.userId ≤ 0 then (.error (.text "invalid userId"), db)
  else if trimSpace a.requestId = "" then (.error (.text "requestId is empty"), db)
  else if a.amount ≤ 0 then (.error (.text "amount must be > 0"), db)
  else (preConsumeBody f loc a).atomically (commitErr f .preConsumeRecords) db

/-! ### Settling and refunding -/

/-- The used amount a settlement leaves. -/
def UserSubscription.usedAfter (sub : UserSubscription) (delta : ℤ) : ℤ :=
  max (sub.amountUsed + delta) 0

/-- The settlement would go over the total. -/
def UserSubscription.exceeds (sub : UserSubscription) (delta : ℤ) : Bool :=
  decide (0 < sub.amountTotal) && decide (sub.amountTotal < sub.usedAfter delta)

/-- The transaction of `PostConsumeUserSubscriptionDelta`. -/
def postConsumeBody (f : Faults) (id delta : ℤ) : Body DB Err Unit := fun db =>
  if f ⟨.find, .subscriptions, id⟩ then .error (.db ⟨.find, .subscriptions, id⟩)
  else
    match db.subscription id with
    | none => .error errRecordNotFound
    | some sub =>
      if sub.exceeds delta then
        .error (.text ("subscription used exceeds total, used=" ++ toString (sub.usedAfter delta) ++
          " total=" ++ toString sub.amountTotal))
      else if f ⟨.save, .subscriptions, id⟩ then .error (.db ⟨.save, .subscriptions, id⟩)
      else .ok ((), db.saveSubscription { sub with amountUsed := sub.usedAfter delta })

def postConsumeUserSubscriptionDelta (f : Faults) (id delta : ℤ) (db : DB) : Except Err Unit × DB :=
  if id ≤ 0 then (.error (.text "invalid userSubscriptionId"), db)
  else if delta = 0 then (.ok (), db)
  else (postConsumeBody f id delta).atomically (commitErr f .subscriptions) db

/-- The end of the refund transaction: mark the record and commit. -/
def markRefunded (f : Faults) (record : SubscriptionPreConsumeRecord) (db : DB) :
    Except Err Unit × DB :=
  Body.atomically (commitErr f .preConsumeRecords) (fun db =>
    if f ⟨.save, .preConsumeRecords, 0⟩ then .error (.db ⟨.save, .preConsumeRecords, 0⟩)
    else .ok ((), db.saveRecord { record with status := .refunded })) db

/-- `RefundSubscriptionPreConsume`.  The settlement inside it runs on the global handle: what it
commits stays when the enclosing transaction fails, so the committed database is threaded
through. -/
def refundSubscriptionPreConsume (f : Faults) (requestId : String) (db : DB) :
    Except Err Unit × DB :=
  if trimSpace requestId = "" then (.error (.text "requestId is empty"), db)
  else if f ⟨.find, .preConsumeRecords, 0⟩ then (.error (.db ⟨.find, .preConsumeRecords, 0⟩), db)
  else
    match db.preConsumeRecord requestId with
    | none => (.error errRecordNotFound, db)
    | some record =>
      if record.status = .refunded then
        Body.atomically (commitErr f .preConsumeRecords) (fun db => .ok ((), db)) db
      else if record.preConsumed ≤ 0 then markRefunded f record db
      else
        match postConsumeUserSubscriptionDelta f record.userSubscriptionId (-record.preConsumed)
            db with
        | (.error e, db') => (.error e, db')
        | (.ok _, db') => markRefunded f record db'

/-- The loop of `refundWithRetry`: try until an attempt succeeds, one fault pattern each. -/
def retry (fn : Faults → DB → Except Err Unit × DB) (lastErr : Err) :
    List Faults → DB → Except Err Unit × DB
  | [], db => (.error lastErr, db)
  | f :: fs, db =>
    match fn f db with
    | (.ok (), db') => (.ok (), db')
    | (.error e, db') => retry fn e fs db'

/-- `refundWithRetry`, with its three attempts. -/
def refundWithRetry (fn : Faults → DB → Except Err Unit × DB) (f₁ f₂ f₃ : Faults) (db : DB) :
    Except Err Unit × DB :=
  match fn f₁ db with
  | (.ok (), db') => (.ok (), db')
  | (.error e, db') => retry fn e [f₂, f₃] db'

/-! ### What a pre-consume does -/

/-- Subscriptions that a pre-consume only reset on its way; nothing else of the database moved. -/
structure ResetsInPassing (f : Faults) (loc : Location) (now : ℤ) (db db' : DB) : Prop where
  frame : db' = { db with subscriptions := db'.subscriptions }
  ids : db'.subscriptions.map UserSubscription.id = db.subscriptions.map UserSubscription.id
  rows : ∀ id, db'.subscription id = db.subscription id ∨
    ∃ sub plan row, db.subscription id = some sub ∧
      getSubscriptionPlanById f db sub.planId = .ok plan ∧
      maybeResetUserSubscriptionWithPlan loc sub plan now = .ok (row, true) ∧
      db'.subscription id = some row

variable {sub row : UserSubscription}

theorem UserSubscription.bears_iff {amount : ℤ} :
    sub.bears amount = true ↔
      (0 < sub.amountTotal → sub.amountUsed + amount ≤ sub.amountTotal) := by
  simp only [UserSubscription.bears, Bool.not_eq_true', Bool.and_eq_false_iff,
    decide_eq_false_iff_not]
  omega

section PreConsume

variable {f : Faults} {loc : Location} {a : PreConsumeArgs} {db : DB}

theorem ResetsInPassing.refl (now : ℤ) (db : DB) : ResetsInPassing f loc now db db :=
  ⟨rfl, rfl, fun _ => .inl rfl⟩

theorem ResetsInPassing.getPlan {now : ℤ} {db db' : DB} (h : ResetsInPassing f loc now db db')
    (id : ℤ) : getSubscriptionPlanById f db' id = getSubscriptionPlanById f db id := by
  rw [h.frame]; rfl

theorem ResetsInPassing.record {now : ℤ} {db db' : DB} (h : ResetsInPassing f loc now db db')
    (rid : String) : db'.preConsumeRecord rid = db.preConsumeRecord rid := by
  rw [h.frame]; rfl

theorem subscription_saveIf {db : DB} {plan : SubscriptionPlan}
    {now : ℤ} {saved : Bool} (hsub : db.subscription sub.id = some sub)
    (hrow : maybeResetUserSubscriptionWithPlan loc sub plan now = .ok (row, saved)) :
    (db.saveIf saved row).subscription row.id = some row := by
  have hid := maybeReset_id hrow
  cases saved with
  | true => exact DB.subscription_save (by rw [hid]; exact hsub) rfl
  | false => rw [maybeReset_unsaved hrow]; exact hsub

theorem ResetsInPassing.step {now : ℤ} {db db' : DB}
    {plan : SubscriptionPlan} {saved : Bool} (h : ResetsInPassing f loc now db db')
    (hsub : db'.subscription sub.id = some sub) (hsub₀ : db.subscription sub.id = some sub)
    (hplan : getSubscriptionPlanById f db sub.planId = .ok plan)
    (hrow : maybeResetUserSubscriptionWithPlan loc sub plan now = .ok (row, saved)) :
    ResetsInPassing f loc now db (db'.saveIf saved row) := by
  cases saved with
  | false => exact h
  | true =>
    have hid := maybeReset_id hrow
    refine ⟨?_, ?_, fun id => ?_⟩
    · rw [h.frame]; rfl
    · exact (DB.ids_saveSubscription row).trans h.ids
    · by_cases hi : id = row.id
      · subst hi
        exact .inr ⟨sub, plan, row, by rw [hid]; exact hsub₀, hplan, hrow,
          DB.subscription_save (by rw [hid]; exact hsub) rfl⟩
      · rcases h.rows id with h' | ⟨s, p, r, h₁, h₂, h₃, h₄⟩
        · exact .inl ((DB.subscription_save_ne hi).trans h')
        · exact .inr ⟨s, p, r, h₁, h₂, h₃, (DB.subscription_save_ne hi).trans h₄⟩

/-- The loop, started on a database that some resets have already reached. -/
theorem preConsumeFrom_ok {cands : List UserSubscription} {db₀ : DB}
    {res : SubscriptionPreConsumeResult} {db' : DB}
    (hr : ResetsInPassing f loc a.now db₀ db) (hnd : (cands.map UserSubscription.id).Nodup)
    (hc₀ : ∀ c ∈ cands, db₀.subscription c.id = some c)
    (hc : ∀ c ∈ cands, db.subscription c.id = some c)
    (hrec : db₀.preConsumeRecord a.requestId = none)
    (h : preConsumeFrom f loc a cands db = .ok (res, db')) :
    ∃ db₁ sub, ResetsInPassing f loc a.now db₀ db₁ ∧ db₁.subscription sub.id = some sub ∧
      sub.bears a.amount = true ∧ res = a.result sub ∧ db' = a.apply sub db₁ := by
  induction cands generalizing db with
  | nil => cases h
  | cons c rest ih =>
    have hmem := hc c mem_cons_self
    unfold preConsumeFrom at h
    rcases hplan : getSubscriptionPlanById f db c.planId with _ | plan
    · rw [hplan] at h; cases h
    rcases hrow : maybeResetUserSubscriptionWithPlan loc c plan a.now with _ | p
    · simp only [hplan, hrow] at h; cases h
    obtain ⟨row, saved⟩ := p
    simp only [hplan, hrow] at h
    have hstep := hr.step hmem (hc₀ c mem_cons_self) (hr.getPlan _ ▸ hplan) hrow
    have hrow' := subscription_saveIf hmem hrow
    split_ifs at h with h₁ h₂
    · -- a failed insert looks for a record of the request, and there is none
      unfold preConsumeSub at h
      rw [hstep.record, hrec, ite_self] at h
      split_ifs at h
      rw [Except.ok.injEq, Prod.mk.injEq] at h
      exact ⟨_, row, hstep, hrow', h₂, h.1.symm, h.2.symm⟩
    · -- the candidate cannot bear the amount: the others keep their rows
      obtain ⟨hcr, hrest⟩ := nodup_cons.1 hnd
      refine ih hstep hrest (fun c' hc' => hc₀ c' (mem_cons_of_mem _ hc'))
        (fun c' hc' => ?_) h
      have hne : c'.id ≠ row.id := fun he => hcr (by
        rw [← maybeReset_id hrow, ← he]; exact mem_map_of_mem hc')
      cases saved with
      | true => exact (DB.subscription_save_ne hne).trans (hc c' (mem_cons_of_mem _ hc'))
      | false => exact hc c' (mem_cons_of_mem _ hc')

theorem activeSubscriptions_mem {userId now : ℤ} {c : UserSubscription}
    (h : c ∈ activeSubscriptions userId now db) :
    c ∈ db.subscriptions ∧ c.userId = userId ∧ c.status = .active ∧ now < c.endTime := by
  simpa using Table.mem_select.1 h

/-- A pre-consume that takes effect: some subscriptions are reset, and one that can then bear the
amount is charged. -/
structure Charges (f : Faults) (loc : Location) (a : PreConsumeArgs) (db db₁ : DB)
    (sub : UserSubscription) : Prop where
  requestId : trimSpace a.requestId ≠ ""
  positive : 0 < a.amount
  fresh : db.preConsumeRecord a.requestId = none
  resets : ResetsInPassing f loc a.now db db₁
  row : db₁.subscription sub.id = some sub
  bears : sub.bears a.amount = true

/-- **Everything a pre-consume can do**: fail and leave the database alone, report the record that
the request has already left, or reset some subscriptions and charge one of them. -/
theorem preConsume_outcomes (f : Faults) (loc : Location) (a : PreConsumeArgs)
    (hn : (db.subscriptions.map UserSubscription.id).Nodup) :
    (∃ e, preConsumeUserSubscription f loc a db = (.error e, db)) ∨
      (∃ r res, db.preConsumeRecord a.requestId = some r ∧
        preConsumeUserSubscription f loc a db = (.ok res, db)) ∨
      ∃ db₁ sub, Charges f loc a db db₁ sub ∧
        preConsumeUserSubscription f loc a db = (.ok (a.result sub), a.apply sub db₁) := by
  by_cases hguard : a.userId ≤ 0 ∨ trimSpace a.requestId = "" ∨ a.amount ≤ 0
  · left
    unfold preConsumeUserSubscription
    split_ifs with h₁ h₂ h₃
    · exact ⟨_, rfl⟩
    · exact ⟨_, rfl⟩
    · exact ⟨_, rfl⟩
    · exact absurd hguard (by push Not; exact ⟨not_le.1 h₁, h₂, not_le.1 h₃⟩)
  · push Not at hguard
    obtain ⟨h₁, h₂, h₃⟩ := hguard
    have heq : preConsumeUserSubscription f loc a db =
        (preConsumeBody f loc a).atomically (commitErr f .preConsumeRecords) db := by
      simp only [preConsumeUserSubscription, if_neg (not_le.2 h₁), if_neg h₂, if_neg (not_le.2 h₃)]
    rw [heq]
    obtain ⟨e, he⟩ | ⟨res, db', -, hb, he⟩ :=
      Body.atomically_cases (commitErr f .preConsumeRecords) (preConsumeBody f loc a) db
    · exact .inl ⟨e, he⟩
    · rw [he]
      unfold preConsumeBody at hb
      split_ifs at hb
      cases hrec : db.preConsumeRecord a.requestId with
      | some existing =>
        rw [hrec] at hb
        simp only at hb
        split_ifs at hb
        split at hb
        · cases hb
        · rw [Except.ok.injEq, Prod.mk.injEq] at hb
          exact .inr (.inl ⟨existing, res, rfl, by rw [← hb.2]⟩)
      | none =>
        rw [hrec] at hb
        simp only at hb
        split_ifs at hb
        have hc : ∀ c ∈ activeSubscriptions a.userId a.now db, db.subscription c.id = some c :=
          fun c hc => DB.subscription_of_mem hn (activeSubscriptions_mem hc).1
        obtain ⟨db₁, sub, hr, hrow, hbears, rfl, rfl⟩ := preConsumeFrom_ok (.refl a.now db)
          (Table.keys_select_nodup hn) hc hc hrec hb
        exact .inr (.inr ⟨db₁, sub, ⟨h₂, h₃, hrec, hr, hrow, hbears⟩, rfl⟩)

theorem preConsume_cases (f : Faults) (loc : Location) (a : PreConsumeArgs)
    (hn : (db.subscriptions.map UserSubscription.id).Nodup) :
    (preConsumeUserSubscription f loc a db).2 = db ∨
      ∃ db₁ sub, Charges f loc a db db₁ sub ∧
        preConsumeUserSubscription f loc a db = (.ok (a.result sub), a.apply sub db₁) := by
  obtain ⟨e, he⟩ | ⟨r, res, -, he⟩ | hc := preConsume_outcomes f loc a hn
  · exact .inl (by rw [he])
  · exact .inl (by rw [he])
  · exact .inr hc

end PreConsume

/-! ### What a settlement and a refund do -/

/-- The row a settlement leaves. -/
def UserSubscription.settle (sub : UserSubscription) (delta : ℤ) : UserSubscription :=
  { sub with amountUsed := sub.usedAfter delta }

theorem UserSubscription.exceeds_eq_false_iff {delta : ℤ} :
    sub.exceeds delta = false ↔
      (0 < sub.amountTotal → sub.amountUsed + delta ≤ sub.amountTotal) := by
  rw [UserSubscription.exceeds, ← Bool.decide_and, decide_eq_false_iff_not,
    UserSubscription.usedAfter, lt_max_iff]
  omega

section Settle

variable {f : Faults} {id delta : ℤ} {db : DB}

/-- A settlement takes effect on `sub`: no statement fails, and it stays under the total. -/
structure Settles (f : Faults) (id delta : ℤ) (db : DB) (sub : UserSubscription) : Prop where
  id_pos : 0 < id
  delta_ne : delta ≠ 0
  row : db.subscription id = some sub
  fits : sub.exceeds delta = false
  find_ok : f ⟨.find, .subscriptions, id⟩ = false
  save_ok : f ⟨.save, .subscriptions, id⟩ = false
  commit_ok : f ⟨.commit, .subscriptions, 0⟩ = false

theorem Settles.eq (h : Settles f id delta db sub) :
    postConsumeUserSubscriptionDelta f id delta db =
      (.ok (), db.saveSubscription (sub.settle delta)) := by
  have hbody : postConsumeBody f id delta db =
      .ok ((), db.saveSubscription (sub.settle delta)) := by
    simp only [postConsumeBody, h.find_ok, h.row, h.fits, h.save_ok, Bool.false_eq_true, ↓reduceIte]
    rfl
  simp only [postConsumeUserSubscriptionDelta, if_neg (not_le.2 h.id_pos), if_neg h.delta_ne,
    Body.atomically, hbody, commitErr_eq_none.2 h.commit_ok]

/-- **Everything a settlement can do**: leave the database alone (and report success only when
there was nothing to do), or write the new used amount. -/
theorem postConsume_cases (f : Faults) (id delta : ℤ) (db : DB) :
    (∃ e, postConsumeUserSubscriptionDelta f id delta db = (.error e, db)) ∨
      (delta = 0 ∧ postConsumeUserSubscriptionDelta f id delta db = (.ok (), db)) ∨
        ∃ sub, Settles f id delta db sub := by
  by_cases hid : id ≤ 0
  · exact .inl ⟨_, by rw [postConsumeUserSubscriptionDelta, if_pos hid]⟩
  by_cases hd : delta = 0
  · exact .inr (.inl ⟨hd, by rw [postConsumeUserSubscriptionDelta, if_neg hid, if_pos hd]⟩)
  have heq : postConsumeUserSubscriptionDelta f id delta db =
      (postConsumeBody f id delta).atomically (commitErr f .subscriptions) db := by
    rw [postConsumeUserSubscriptionDelta, if_neg hid, if_neg hd]
  obtain ⟨e, he⟩ | ⟨_, db', hcommit, hb, -⟩ :=
    Body.atomically_cases (commitErr f .subscriptions) (postConsumeBody f id delta) db
  · exact .inl ⟨e, heq.trans he⟩
  · unfold postConsumeBody at hb
    cases hsub : db.subscription id with
    | none =>
      simp only [hsub] at hb
      split_ifs at hb
    | some sub =>
      simp only [hsub] at hb
      split_ifs at hb with hfind hex hsave
      exact .inr (.inr ⟨sub, not_le.1 hid, hd, hsub, by simpa using hex, by simpa using hfind,
        by simpa using hsave, commitErr_eq_none.1 hcommit⟩)

end Settle

section Refund

variable {f : Faults} {rid : String} {db : DB} {r : SubscriptionPreConsumeRecord}

/-- The refund transaction ends well: the record is marked. -/
theorem markRefunded_cases (f : Faults) (r : SubscriptionPreConsumeRecord) (db : DB) :
    (∃ e, markRefunded f r db = (.error e, db)) ∧
        (f ⟨.save, .preConsumeRecords, 0⟩ = true ∨ f ⟨.commit, .preConsumeRecords, 0⟩ = true) ∨
      markRefunded f r db = (.ok (), db.saveRecord { r with status := .refunded }) ∧
        f ⟨.save, .preConsumeRecords, 0⟩ = false ∧ f ⟨.commit, .preConsumeRecords, 0⟩ = false := by
  unfold markRefunded Body.atomically commitErr
  cases hs : f ⟨.save, .preConsumeRecords, 0⟩
  · cases hc : f ⟨.commit, .preConsumeRecords, 0⟩
    · exact .inr ⟨rfl, rfl, rfl⟩
    · exact .inl ⟨⟨_, rfl⟩, .inr rfl⟩
  · exact .inl ⟨⟨_, rfl⟩, .inl rfl⟩

/-- A refund goes past its guards with the record `r`, which is still to be given back. -/
structure Refunds (f : Faults) (rid : String) (db : DB) (r : SubscriptionPreConsumeRecord) :
    Prop where
  requestId : trimSpace rid ≠ ""
  find_ok : f ⟨.find, .preConsumeRecords, 0⟩ = false
  row : db.preConsumeRecord rid = some r
  consumed : r.status = .consumed

theorem Refunds.eq (h : Refunds f rid db r) : refundSubscriptionPreConsume f rid db =
    if r.preConsumed ≤ 0 then markRefunded f r db
    else
      match postConsumeUserSubscriptionDelta f r.userSubscriptionId (-r.preConsumed) db with
      | (.error e, db') => (.error e, db')
      | (.ok _, db') => markRefunded f r db' := by
  have hs : ¬ r.status = .refunded := by rw [h.consumed]; decide
  simp only [refundSubscriptionPreConsume, if_neg h.requestId, h.find_ok, h.row, if_neg hs,
    Bool.false_eq_true, ↓reduceIte]

/-- **Everything a refund can do**: leave the database alone, or go past its guards.  It reports
success without doing anything only when the record is already marked. -/
theorem refund_cases (f : Faults) (rid : String) (db : DB) :
    (∃ e, refundSubscriptionPreConsume f rid db = (.error e, db)) ∨
      (∃ r, db.preConsumeRecord rid = some r ∧ r.status = .refunded ∧
        refundSubscriptionPreConsume f rid db = (.ok (), db)) ∨
      ∃ r, Refunds f rid db r := by
  by_cases hrid : trimSpace rid = ""
  · exact .inl ⟨_, by rw [refundSubscriptionPreConsume, if_pos hrid]⟩
  cases hf : f ⟨.find, .preConsumeRecords, 0⟩ with
  | true =>
    exact .inl ⟨_, by rw [refundSubscriptionPreConsume, if_neg hrid, hf, if_pos rfl]⟩
  | false =>
    cases hr : db.preConsumeRecord rid with
    | none =>
      exact .inl ⟨errRecordNotFound, by simp [refundSubscriptionPreConsume, hrid, hf, hr]⟩
    | some r =>
      cases hs : r.status with
      | consumed => exact .inr (.inr ⟨r, hrid, hf, hr, hs⟩)
      | refunded =>
        have heq : refundSubscriptionPreConsume f rid db =
            Body.atomically (commitErr f .preConsumeRecords) (fun db => .ok ((), db)) db := by
          simp [refundSubscriptionPreConsume, hrid, hf, hr, hs]
        rw [heq]
        obtain ⟨e, he⟩ | ⟨_, db', -, hb, he⟩ :=
          Body.atomically_cases (commitErr f .preConsumeRecords) (fun db => .ok ((), db)) db
        · exact .inl ⟨e, he⟩
        · rw [Except.ok.injEq, Prod.mk.injEq] at hb
          exact .inr (.inl ⟨r, rfl, hs, by rw [he, ← hb.2]⟩)

end Refund

end NexusTok
