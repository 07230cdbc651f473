import NexusTok.Machine.Run
import NexusTok.TopUp.Recharge

/-!
# Credits for orders and codes

Top-up orders are completed by the callbacks of their gateways and by administrators, closed by
`UpdatePendingTopUpStatus`, and redemption codes are redeemed by `Redeem`.  Every call is one
transaction under the row lock of the order or code, so an interleaving is a sequence of calls.

The machine of this file is the database under any such sequence, each call with its own pattern of
failing statements, together with whatever else moves wallets in between.  Beside the database it
logs on whose account a call has changed a wallet.

* `Effect` : a call settles nothing and credits nothing, or settles one order or code and credits
  one wallet.
* `settlement_runs` : over every run an order or code is credited at most once, exactly when it
  becomes successful or used; a call that errs changes nothing; a gateway credits only for its own
  orders.
-/

namespace NexusTok

open Machine List Table

/-! ### Closing orders and redeeming codes -/

/-- The transaction of `UpdatePendingTopUpStatus`. -/
def updatePendingBody (f : Faults) (tradeNo : String) (expected : PaymentProvider)
    (targetStatus : TopUpStatus) : Body DB Err Unit := fun db =>
  match lockTopUp f db tradeNo errTopUpNotFound with
  | .error e => .error e
  | .ok o =>
    if providerMismatch expected o.paymentProvider then .error errPaymentMethodMismatch
    else if o.status ≠ .pending then .error errTopUpStatusInvalid
    else
      match saveTopUpRow f { o with status := targetStatus } db with
      | .error e => .error e
      | .ok db => .ok ((), db)

def updatePendingTopUpStatus (f : Faults) (tradeNo : String) (expected : PaymentProvider)
    (targetStatus : TopUpStatus) (db : DB) : Except Err Unit × DB :=
  if tradeNo = "" then (.error (.text "未提供支付单号"), db)
  else (updatePendingBody f tradeNo expected targetStatus).atomically (commitErr f .topUps) db

/-- The code can still be used. -/
def Redemption.usable (r : Redemption) : Bool := decide (r.status = .enabled) && !r.deleted

/-- The code after its use. -/
def Redemption.use (r : Redemption) (userId now : ℤ) : Redemption :=
  if r.usable then { r with redeemedTime := now, status := .used, usedUserId := userId } else r

/-- `UPDATE redemptions … WHERE id = ? AND status = enabled`. -/
def DB.useRedemption (db : DB) (id userId now : ℤ) : DB :=
  { db with
    redemptions := Table.modify Redemption.id id (fun r => r.use userId now) db.redemptions }

/-- The rows that update affects. -/
def DB.usableCount (db : DB) (id : ℤ) : ℕ :=
  db.redemptions.countP fun r => decide (r.id = id) && r.usable

/-- The transaction of `Redeem`. -/
def redeemBody (f : Faults) (key : String) (userId now : ℤ) : Body DB Err ℤ := fun db =>
  match (if f ⟨.find, .redemptions, 0⟩ then none else db.redemption key) with
  | none => .error (.text "无效的兑换码")
  | some r =>
    if r.status ≠ .enabled then .error (.text "该兑换码已被使用")
    else if r.expiredTime ≠ 0 ∧ r.expiredTime < now then .error (.text "该兑换码已过期")
    else if f ⟨.update, .redemptions, 0⟩ then .error (.db ⟨.update, .redemptions, 0⟩)
    else if db.usableCount r.id = 0 then .error (.text "该兑换码已被使用")
    else
      match creditTopUpQuota f userId r.quota id (db.useRedemption r.id userId now) with
      | .error e => .error e
      | .ok (_, db) => .ok (r.quota, db)

/-- `Redeem`; every error of the transaction is reported as the same one. -/
def redeem (f : Faults) (key : String) (userId now : ℤ) (db : DB) : Except Err ℤ × DB :=
  if key = "" then (.error (.text "未提供兑换码"), db)
  else if userId = 0 then (.error (.text "无效的 user id"), db)
  else
    match (redeemBody f key userId now).atomically (commitErr f .redemptions) db with
    | (.error _, db) => (.error (.text "redeem.failed"), db)
    | (.ok quota, db) => (.ok quota, db)

/-! ### Reading orders and codes -/

section Reads

variable {db : DB}

theorem topUp_save {t : String} {o : TopUp} (o' : TopUp) (ho : db.topUp t = some o)
    (ht : o'.tradeNo = o.tradeNo) :
    (db.saveTopUp o').topUp t = some o' ∧
      ∀ t', t' ≠ t → (db.saveTopUp o').topUp t' = db.topUp t' := by
  have hkey : o'.tradeNo = t := ht.trans (get_key ho)
  subst hkey
  exact ⟨get_put ho, fun t' hne => get_put_ne hne⟩

theorem use_key (r : Redemption) (userId now : ℤ) : (r.use userId now).key = r.key := by
  unfold Redemption.use
  split_ifs <;> rfl

theorem use_deleted (r : Redemption) (userId now : ℤ) : (r.use userId now).deleted = r.deleted := by
  unfold Redemption.use
  split_ifs <;> rfl

theorem use_id (r : Redemption) (userId now : ℤ) : (r.use userId now).id = r.id := by
  unfold Redemption.use
  split_ifs <;> rfl

/-- What is found under a key after the update of the codes with an id. -/
theorem redemption_use (db : DB) (id userId now : ℤ) (key : String) :
    (db.useRedemption id userId now).redemption key =
      (db.redemption key).map fun r => if r.id = id then r.use userId now else r := by
  have hdel : ((fun r : Redemption => !r.deleted) ∘ fun r =>
      if r.id = id then r.use userId now else r) = fun r => !r.deleted := by
    funext r
    show (!(if r.id = id then r.use userId now else r).deleted) = !r.deleted
    split_ifs
    · rw [use_deleted]
    · rfl
  have hkey : ∀ r : Redemption, (if r.id = id then r.use userId now else r).key = r.key := by
    intro r
    split_ifs
    · exact use_key r userId now
    · rfl
  rw [DB.redemption, DB.useRedemption, Table.modify, filter_map, hdel]
  exact get_map hkey

theorem redemption_mem {key : String} {r : Redemption} (h : db.redemption key = some r) :
    r ∈ db.redemptions ∧ r.deleted = false ∧ r.key = key := by
  have hm := get_mem h
  rw [mem_filter] at hm
  exact ⟨hm.1, by simpa using hm.2, get_key h⟩

/-- **Everything `Redeem` can do**: fail and leave the database alone, or use an enabled code and
credit its quota to the user. -/
theorem redeem_cases (f : Faults) (key : String) (userId now : ℤ) (db : DB) :
    (∃ err, redeem f key userId now db = (.error err, db)) ∨
      ∃ r, db.redemption key = some r ∧ r.status = .enabled ∧ Creditable db userId r.quota ∧
        redeem f key userId now db = (.ok r.quota,
          (db.useRedemption r.id userId now).updateUser userId fun u =>
            { u with quota := u.quota + r.quota }) := by
  unfold redeem
  split_ifs with hk hu
  · exact .inl ⟨_, rfl⟩
  · exact .inl ⟨_, rfl⟩
  obtain ⟨err, he⟩ | ⟨a, db', -, hb, he⟩ := Body.atomically_cases (commitErr f .redemptions)
    (redeemBody f key userId now) db
  · exact .inl ⟨_, by rw [he]⟩
  rw [he]
  unfold redeemBody at hb
  rcases hr : (if f ⟨.find, .redemptions, 0⟩ then none else db.redemption key) with _ | r
  · rw [hr] at hb; cases hb
  have hr' : db.redemption key = some r := by
    split_ifs at hr
    exact hr
  obtain ⟨err, hc⟩ | ⟨hcred, hc⟩ :=
    credit_cases f userId r.quota id (db.useRedemption r.id userId now)
  · simp only [hr, hc] at hb
    split_ifs at hb
  · simp only [hr, hc] at hb
    split_ifs at hb with hen hexp hupd hcount
    rw [not_not] at hen
    rw [Except.ok.injEq, Prod.mk.injEq] at hb
    obtain ⟨rfl, rfl⟩ := hb
    exact .inr ⟨r, hr', hen, hcred, rfl⟩

end Reads

namespace Settlement

/-! ### The machine -/

/-- What a wallet can be credited for. -/
inductive Source where
  | order (tradeNo : String)
  | code (key : String)
  deriving DecidableEq

/-- What can happen. -/
inductive Event where
  | callback (g : Gateway) (f : Faults) (tradeNo : String) (c : CallbackDetails)
  | manual (f : Faults) (tradeNo : String) (now : ℤ)
  /-- `UpdatePendingTopUpStatus`; no caller asks it for success. -/
  | close (f : Faults) (tradeNo : String) (expected : PaymentProvider)
    (target : { status : TopUpStatus // status ≠ .success })
  | redeem (f : Faults) (key : String) (userId now : ℤ)
  /-- A checkout inserts a pending order. -/
  | place (o : TopUp)
  /-- An administrator inserts a code. -/
  | issue (r : Redemption)
  /-- Anything else that changes a wallet. -/
  | setQuota (userId quota : ℤ)

/-- The order or code a call credits for. -/
def Event.source : Event → Option Source
  | .callback _ _ tradeNo _ => some (.order tradeNo)
  | .manual _ tradeNo _ => some (.order tradeNo)
  | .redeem _ key _ _ => some (.code key)
  | _ => none

variable (quotaPerUnit : Decimal)

/-- The result of a call, and the database it leaves. -/
def call (db : DB) : Event → Except Err Unit × DB
  | .callback g f tradeNo c => g.complete quotaPerUnit f tradeNo c db
  | .manual f tradeNo now => manualCompleteTopUp quotaPerUnit f tradeNo now db
  | .close f tradeNo expected target => updatePendingTopUpStatus f tradeNo expected target.1 db
  | .redeem f key userId now =>
    let r := NexusTok.redeem f key userId now db
    (r.1.map fun _ => (), r.2)
  | .place o =>
    if (db.topUp o.tradeNo).isSome then (.error (.db ⟨.create, .topUps, 0⟩), db)
    else (.ok (), db.addTopUp { o with status := .pending })
  | .issue r =>
    if db.redemptions.any fun r' => decide (r'.key = r.key) || decide (r'.id = r.id) then
      (.error (.db ⟨.create, .redemptions, 0⟩), db)
    else (.ok (), { db with redemptions := db.redemptions ++ [{ r with status := .enabled }] })
  | .setQuota userId quota => (.ok (), db.updateUser userId fun u => { u with quota := quota })

/-- Some wallet has changed. -/
def walletsMoved (db db' : DB) : Bool :=
  db.users.any fun u => decide (db'.wallet u.id ≠ db.wallet u.id)

/-- The database, and the orders and codes on whose account a call has changed a wallet. -/
structure State where
  db : DB
  credits : List Source

/-- The log after a call. -/
def State.logged (s : State) (e : Event) (db' : DB) : List Source :=
  match e.source with
  | none => s.credits
  | some src => if walletsMoved s.db db' then src :: s.credits else s.credits

def step (s : State) (e : Event) : State :=
  ⟨(call quotaPerUnit s.db e).2, s.logged e (call quotaPerUnit s.db e).2⟩

/-- The order is successful, the code is used. -/
def Settled (db : DB) : Source → Prop
  | .order tradeNo => ∃ o, db.topUp tradeNo = some o ∧ o.status = .success
  | .code key => ∃ r, db.redemption key = some r ∧ r.status = .used

/-- The user an event credits for the source: the one of the order, or the one who redeems. -/
def Pays (db : DB) (userId : ℤ) : Event → Prop
  | .callback _ _ tradeNo _ => ∃ o, db.topUp tradeNo = some o ∧ o.userId = userId
  | .manual _ tradeNo _ => ∃ o, db.topUp tradeNo = some o ∧ o.userId = userId
  | .redeem _ _ uid _ => uid = userId
  | _ => False

/-! ### What a call does -/

/-- The ids of the codes are unique. -/
def IdsUnique (db : DB) : Prop := (db.redemptions.map Redemption.id).Nodup

/-- The two things a call can do. -/
inductive Effect (db : DB) (e : Event) (db' : DB) : Prop where
  /-- Nothing is settled and nothing is credited. -/
  | quiet (hids : IdsUnique db') (hsettled : ∀ src, Settled db' src ↔ Settled db src)
    (hlog : e.source = none ∨ walletsMoved db db' = false)
  /-- One order or code is settled, and one wallet is credited. -/
  | credit (hids : IdsUnique db') (src : Source) (userId c : ℤ) (hsrc : e.source = some src)
      (hpays : Pays db userId e)
    (hbefore : ¬ Settled db src) (hafter : Settled db' src)
    (hothers : ∀ src', src' ≠ src → (Settled db' src' ↔ Settled db src'))
    (hpos : 0 < c) (hthere : (db.user userId).isSome)
    (hwallet : ∀ v, db'.wallet v = (db.wallet v).map fun w => if v = userId then w + c else w)

section Effects

variable {db db' : DB} {e : Event}

theorem walletsMoved_self (db : DB) : walletsMoved db db = false := by
  simp [walletsMoved]

theorem Effect.unchanged (hids : IdsUnique db) : Effect db e db :=
  .quiet hids (fun _ => Iff.rfl) (.inr (walletsMoved_self db))

theorem walletsMoved_credit {userId c : ℤ} (hpos : 0 < c) (hthere : (db.user userId).isSome)
    (hwallet : ∀ v, db'.wallet v = (db.wallet v).map fun w => if v = userId then w + c else w) :
    walletsMoved db db' = true := by
  obtain ⟨u, hu⟩ := Option.isSome_iff_exists.1 hthere
  have hid : u.id = userId := get_key hu
  refine any_eq_true.2 ⟨u, get_mem hu, ?_⟩
  rw [hid, hwallet, DB.wallet, hu]
  simp only [Option.map_some, if_true, ne_eq, Option.some.injEq, decide_eq_true_eq]
  omega

/-- Codes do not see a write that leaves their table alone. -/
theorem settled_code {key : String} (h : db'.redemptions = db.redemptions) :
    Settled db' (.code key) ↔ Settled db (.code key) := by
  simp only [Settled, DB.redemption, h]

theorem settled_order {t : String} (h : db'.topUps = db.topUps) :
    Settled db' (.order t) ↔ Settled db (.order t) := by
  simp only [Settled, DB.topUp, h]

section

variable (hids : IdsUnique db)
include hids

theorem effect_completes {fits : PaymentProvider → Prop} {amount : TopUp → Decimal}
    {tradeNo : String} {r : Except Err Unit × DB} (h : Completes db tradeNo fits amount r)
    (hsrc : e.source = some (.order tradeNo))
    (hpays : ∀ userId, (∃ o, db.topUp tradeNo = some o ∧ o.userId = userId) → Pays db userId e) :
    Effect db e r.2 := by
  cases h with
  | failed | done => exact .unchanged hids
  | credited a db' o ho hfits hc =>
    obtain ⟨hpos, -, user, hu, -⟩ := hc.creditable
    obtain ⟨o', g, ht, hs, -, hdb⟩ := hc.writes
    obtain ⟨hself, hothers⟩ := topUp_save o' ho ht
    have hids' : IdsUnique db' := by
      rw [hdb]
      exact hids
    refine .credit hids' (.order tradeNo) o.userId (amount o).round hsrc (hpays _ ⟨o, ho, rfl⟩)
      ?_ ?_ ?_ hpos (by rw [hu]; rfl) hc.wallet
    · rintro ⟨o₀, ho₀, hs₀⟩
      rw [ho, Option.some.injEq] at ho₀
      rw [← ho₀, hc.pending] at hs₀
      cases hs₀
    · rw [hdb]
      exact ⟨o', hself, hs⟩
    · intro src hne
      rw [hdb]
      cases src with
      | code key => exact settled_code rfl
      | order t =>
        have hread := hothers t fun he => hne (by rw [he])
        show (∃ o₀, (db.saveTopUp o').topUp t = some o₀ ∧ _) ↔ _
        rw [hread]
        rfl

theorem effect_close (f : Faults) (tradeNo : String)
    (expected : PaymentProvider) (target : { status : TopUpStatus // status ≠ .success }) :
    Effect db (.close f tradeNo expected target)
      (updatePendingTopUpStatus f tradeNo expected target.1 db).2 := by
  unfold updatePendingTopUpStatus
  split_ifs with ht
  · exact .unchanged hids
  obtain ⟨err, he⟩ | ⟨a, db', -, hb, he⟩ := Body.atomically_cases (commitErr f .topUps)
    (updatePendingBody f tradeNo expected target.1) db
  · rw [he]
    exact .unchanged hids
  rw [he]
  unfold updatePendingBody at hb
  rcases hlock : lockTopUp f db tradeNo errTopUpNotFound with _ | o
  · rw [hlock] at hb; cases hb
  have ho := lockTopUp_ok hlock
  cases hsave : saveTopUpRow f { o with status := target.1 } db with
  | error err =>
    simp only [hlock, hsave] at hb
    split_ifs at hb
  | ok db₁ =>
    simp only [hlock, hsave] at hb
    split_ifs at hb with hmis hpend
    rw [not_not] at hpend
    rw [Except.ok.injEq, Prod.mk.injEq] at hb
    obtain ⟨-, rfl⟩ := hb
    unfold saveTopUpRow at hsave
    split_ifs at hsave
    cases hsave
    obtain ⟨hself, hothers⟩ := topUp_save { o with status := target.1 } ho rfl
    refine .quiet hids ?_ (.inl rfl)
    intro src
    cases src with
    | code key => exact settled_code rfl
    | order t =>
      by_cases h : t = tradeNo
      · -- the order was pending, and the target is not success
        subst h
        constructor
        · rintro ⟨o₀, ho₀, hs⟩
          rw [hself, Option.some.injEq] at ho₀
          rw [← ho₀] at hs
          exact absurd hs target.2
        · rintro ⟨o₀, ho₀, hs⟩
          rw [ho, Option.some.injEq] at ho₀
          rw [← ho₀, hpend] at hs
          cases hs
      · show (∃ o₀, (db.saveTopUp _).topUp t = some o₀ ∧ _) ↔ _
        rw [hothers t h]
        rfl

theorem effect_place (o : TopUp) : Effect db (.place o) (call quotaPerUnit db (.place o)).2 := by
  unfold call
  simp only
  split_ifs with h
  · exact .unchanged hids
  refine .quiet hids ?_ (.inl rfl)
  intro src
  cases src with
  | code key => exact settled_code rfl
  | order t =>
    show (∃ o₀, (db.addTopUp { o with status := .pending }).topUp t = some o₀ ∧ _) ↔ _
    cases hget : db.topUp t with
    | some x =>
      have hold : (db.addTopUp { o with status := .pending }).topUp t = some x :=
        get_append hget _
      simp only [Settled, hold, hget]
    | none =>
      have hnew : (db.addTopUp { o with status := .pending }).topUp t =
          Table.get TopUp.tradeNo t [{ o with status := .pending }] := get_append_none hget _
      constructor
      · -- what is found is the new order, which is pending
        rintro ⟨o₀, ho₀, hs⟩
        rw [hnew] at ho₀
        rw [mem_singleton.1 (get_mem ho₀)] at hs
        cases hs
      · rintro ⟨o₀, ho₀, -⟩
        rw [hget] at ho₀
        cases ho₀

theorem effect_issue (r : Redemption) :
    Effect db (.issue r) (call quotaPerUnit db (.issue r)).2 := by
  unfold call
  simp only
  split_ifs with h
  · exact .unchanged hids
  simp only [any_eq_true, Bool.or_eq_true, decide_eq_true_eq, not_exists, not_and, not_or] at h
  have hids' : IdsUnique { db with
      redemptions := db.redemptions ++ [{ r with status := .enabled }] } := by
    show ((db.redemptions ++ [_]).map Redemption.id).Nodup
    rw [map_append]
    refine hids.append (nodup_singleton _) ?_
    intro i hi hi'
    obtain ⟨r', hr', rfl⟩ := mem_map.1 hi
    exact (h r' hr').2 (mem_singleton.1 hi')
  refine .quiet hids' ?_ (.inl rfl)
  intro src
  cases src with
  | order t => exact settled_order rfl
  | code key =>
    have happ : (db.redemptions ++ [{ r with status := .enabled }]).filter (fun r => !r.deleted) =
        db.redemptions.filter (fun r => !r.deleted) ++
          [{ r with status := .enabled }].filter (fun r => !r.deleted) := filter_append _ _
    cases hget : db.redemption key with
    | some x =>
      have hold : DB.redemption { db with
          redemptions := db.redemptions ++ [{ r with status := .enabled }] } key = some x := by
        rw [DB.redemption, happ]
        exact get_append hget _
      simp only [Settled, hold, hget]
    | none =>
      constructor
      · -- what is found is the new code, which is enabled
        rintro ⟨r₀, hr₀, hs⟩
        rw [DB.redemption, happ, get_append_none hget] at hr₀
        have hmem := mem_of_mem_filter (get_mem hr₀)
        rw [mem_singleton.1 hmem] at hs
        cases hs
      · rintro ⟨r₀, hr₀, -⟩
        rw [hget] at hr₀
        cases hr₀

theorem effect_setQuota (userId quota : ℤ) :
    Effect db (.setQuota userId quota) (call quotaPerUnit db (.setQuota userId quota)).2 := by
  refine .quiet hids ?_ (.inl rfl)
  intro src
  cases src with
  | order t => exact settled_order rfl
  | code key => exact settled_code rfl

theorem settled_use {key : String} {r : Redemption}
    (hr : db.redemption key = some r) (hs : r.status = .enabled) (userId now : ℤ) :
    Settled (db.useRedemption r.id userId now) (.code key) ∧
      ∀ key', key' ≠ key → (Settled (db.useRedemption r.id userId now) (.code key') ↔
        Settled db (.code key')) := by
  obtain ⟨hmem, hdel, hkey⟩ := redemption_mem hr
  constructor
  · refine ⟨r.use userId now, ?_, ?_⟩
    · rw [redemption_use, hr, Option.map_some, if_pos rfl]
    · rw [Redemption.use, if_pos (by simp [Redemption.usable, hs, hdel])]
  · intro key' hne
    show (∃ r₀, (db.useRedemption r.id userId now).redemption key' = some r₀ ∧ _) ↔ _
    rw [redemption_use]
    cases hget : db.redemption key' with
    | none => simp [Settled, hget]
    | some r' =>
      -- another key is another row, so another id
      obtain ⟨hmem', -, hkey'⟩ := redemption_mem hget
      have hid : r'.id ≠ r.id := by
        intro heq
        have hrow := inj_on_of_nodup_map hids hmem' hmem heq
        exact hne (by rw [← hkey', hrow, hkey])
      simp [Settled, hget, hid]

theorem effect_redeem (f : Faults) (key : String) (userId now : ℤ) :
    Effect db (.redeem f key userId now) (redeem f key userId now db).2 := by
  obtain ⟨err, he⟩ | ⟨r, hr, hen, ⟨hpos, -, user, hu, -⟩, he⟩ := redeem_cases f key userId now db
  · rw [he]
    exact .unchanged hids
  rw [he]
  obtain ⟨hself, hothers⟩ := settled_use hids hr hen userId now
  have hids' : IdsUnique (db.useRedemption r.id userId now) := by
    show ((Table.modify Redemption.id r.id _ db.redemptions).map Redemption.id).Nodup
    rw [keys_modify fun r' hr' => (use_id r' userId now).trans hr']
    exact hids
  refine .credit hids' (.code key) userId r.quota rfl rfl ?_ hself ?_ hpos
    (Option.isSome_iff_exists.2 ⟨user, hu⟩) (wallet_add fun u => ⟨rfl, rfl⟩)
  · rintro ⟨r₀, hr₀, hs₀⟩
    rw [hr, Option.some.injEq] at hr₀
    rw [← hr₀, hen] at hs₀
    cases hs₀
  · intro src hne
    cases src with
    | order t => exact settled_order rfl
    | code key' => exact hothers key' fun h => hne (by rw [h])

/-- **Everything a call can do to orders, codes and wallets.** -/
theorem call_effect (e : Event) : Effect db e (call quotaPerUnit db e).2 := by
  cases e with
  | callback g f tradeNo c =>
    exact effect_completes hids (gateway_cases g f tradeNo c db) rfl fun _ h => h
  | manual f tradeNo now =>
    exact effect_completes hids (manual_cases f tradeNo now db) rfl fun _ h => h
  | close f tradeNo expected target => exact effect_close hids f tradeNo expected target
  | redeem f key userId now => exact effect_redeem hids f key userId now
  | place o => exact effect_place quotaPerUnit hids o
  | issue r => exact effect_issue quotaPerUnit hids r
  | setQuota userId quota => exact effect_setQuota quotaPerUnit hids userId quota

end

theorem call_error (e : Event) (h : (call quotaPerUnit db e).1.isOk = false) :
    (call quotaPerUnit db e).2 = db := by
  cases e with
  | callback g f tradeNo c => exact (gateway_cases g f tradeNo c db).of_error h
  | manual f tradeNo now => exact (manual_cases f tradeNo now db).of_error h
  | close f tradeNo expected target =>
    simp only [call, updatePendingTopUpStatus] at h ⊢
    split_ifs at h ⊢ with ht
    · rfl
    obtain ⟨err, he⟩ | ⟨a, db', -, hb, he⟩ := Body.atomically_cases (commitErr f .topUps)
      (updatePendingBody f tradeNo expected target.1) db
    · rw [he]
    · rw [he] at h
      cases h
  | redeem f key userId now =>
    simp only [call] at h ⊢
    obtain ⟨err, he⟩ | ⟨r, -, -, -, he⟩ := redeem_cases f key userId now db
    · rw [he]
    · rw [he] at h
      cases h
  | place | issue =>
    simp only [call] at h ⊢
    split_ifs at h ⊢
    · rfl
    · cases h
  | setQuota userId quota => cases h

/-- A gateway leaves the orders of the others alone. -/
theorem call_foreign {g : Gateway} {tradeNo : String} {o : TopUp} (f : Faults)
    (c : CallbackDetails) (ho : db.topUp tradeNo = some o) (hne : o.paymentProvider ≠ g.provider) :
    (call quotaPerUnit db (.callback g f tradeNo c)).2 = db := by
  show (g.complete quotaPerUnit f tradeNo c db).2 = db
  cases hr : g.complete quotaPerUnit f tradeNo c db with
  | mk r db' =>
    have h : Completes db tradeNo (· = g.provider) (g.amount quotaPerUnit) (r, db') :=
      hr ▸ gateway_cases g f tradeNo c db
    cases h with
    | failed | done => rfl
    | credited a db' o' ho' hfits hc =>
      rw [ho, Option.some.injEq] at ho'
      exact absurd (ho' ▸ hfits) hne

end Effects

/-! ### Runs -/

/-- What every event does right. -/
structure StepOk (s : State) (e : Event) : Prop where
  /-- A call that errs changes nothing. -/
  error : (call quotaPerUnit s.db e).1.isOk = false → step quotaPerUnit s e = s
  /-- What is logged is one positive credit, to the user it is due to, and to nobody else. -/
  credit : (step quotaPerUnit s e).credits ≠ s.credits → ∃ src userId c,
    e.source = some src ∧ (step quotaPerUnit s e).credits = src :: s.credits ∧
    Pays s.db userId e ∧ 0 < c ∧ ∀ v, (step quotaPerUnit s e).db.wallet v =
      (s.db.wallet v).map fun w => if v = userId then w + c else w
  /-- A callback for an order of another provider changes nothing. -/
  foreign : ∀ g f tradeNo c o, e = .callback g f tradeNo c → s.db.topUp tradeNo = some o →
    o.paymentProvider ≠ g.provider → step quotaPerUnit s e = s

/-- The log accounts for everything that has been settled since the database was `db₀`. -/
structure Inv (db₀ : DB) (s : State) : Prop where
  ids : IdsUnique s.db
  once : s.credits.Nodup
  settled : ∀ src, Settled s.db src ↔ Settled db₀ src ∨ src ∈ s.credits
  fresh : ∀ src ∈ s.credits, ¬ Settled db₀ src

section Runs

variable {quotaPerUnit} {db₀ : DB} {s : State}

/-- An event that leaves the database alone leaves the state alone. -/
theorem step_same {e : Event} (h : (call quotaPerUnit s.db e).2 = s.db) :
    step quotaPerUnit s e = s := by
  unfold step State.logged
  rw [h, walletsMoved_self]
  cases e.source <;> rfl

theorem step_quiet {e : Event}
    (h : e.source = none ∨ walletsMoved s.db (call quotaPerUnit s.db e).2 = false) :
    step quotaPerUnit s e = ⟨(call quotaPerUnit s.db e).2, s.credits⟩ := by
  unfold step State.logged
  obtain h | h := h
  · rw [h]
  · rw [h]
    cases e.source <;> rfl

theorem step_credit {e : Event} {src : Source} (hsrc : e.source = some src)
    (h : walletsMoved s.db (call quotaPerUnit s.db e).2 = true) :
    step quotaPerUnit s e = ⟨(call quotaPerUnit s.db e).2, src :: s.credits⟩ := by
  simp only [step, State.logged, hsrc, h, if_true]

theorem inv_step (e : Event) (h : Inv db₀ s) : Inv db₀ (step quotaPerUnit s e) := by
  cases call_effect quotaPerUnit h.ids e with
  | quiet hids hsettled hlog =>
    rw [step_quiet hlog]
    exact ⟨hids, h.once, fun src => (hsettled src).trans (h.settled src), h.fresh⟩
  | credit hids src userId c hsrc hpays hbefore hafter hothers hpos hthere hwallet =>
    rw [step_credit hsrc (walletsMoved_credit hpos hthere hwallet)]
    have hnot : ¬ (Settled db₀ src ∨ src ∈ s.credits) := fun hs => hbefore ((h.settled src).2 hs)
    refine ⟨hids, nodup_cons.2 ⟨fun hm => hnot (.inr hm), h.once⟩, ?_, ?_⟩
    · intro src'
      by_cases hsame : src' = src
      · subst hsame
        exact ⟨fun _ => .inr mem_cons_self, fun _ => hafter⟩
      · rw [hothers src' hsame, h.settled src', mem_cons]
        constructor
        · rintro (hs | hs)
          · exact .inl hs
          · exact .inr (.inr hs)
        · rintro (hs | hs | hs)
          · exact .inl hs
          · exact absurd hs hsame
          · exact .inr hs
    · intro src' hm
      rcases mem_cons.1 hm with rfl | hm
      · exact fun hs => hnot (.inl hs)
      · exact h.fresh src' hm

theorem stepOk (e : Event) (h : Inv db₀ s) : StepOk quotaPerUnit s e := by
  constructor
  · intro herr
    exact step_same (call_error quotaPerUnit e herr)
  · intro hlog
    cases call_effect quotaPerUnit h.ids e with
    | quiet hids hsettled hquiet => exact absurd (by rw [step_quiet hquiet]) hlog
    | credit hids src userId c hsrc hpays hbefore hafter hothers hpos hthere hwallet =>
      rw [step_credit hsrc (walletsMoved_credit hpos hthere hwallet)]
      exact ⟨src, userId, c, hsrc, rfl, hpays, hpos, hwallet⟩
  · intro g f tradeNo c o he ho hne
    subst he
    exact step_same (call_foreign quotaPerUnit f c ho hne)

/-- Every event of a run is right, as the invariant holds where it is taken. -/
theorem meets_of_inv (h : Inv db₀ s) (es : List Event) :
    Meets (step quotaPerUnit) (StepOk quotaPerUnit) s es := by
  induction es generalizing s with
  | nil => trivial
  | cons e es ih => exact ⟨stepOk e h, ih (inv_step e h)⟩

end Runs

/-- **Credits over whole runs.**  In every state of every run: an order or code has been credited at
most once since the start, and not at all if it was settled then; it is settled iff it was settled
at the start or has been credited since.  Every event of the run is right (`StepOk`). -/
theorem settlement_runs (db : DB) (hids : IdsUnique db) (es : List Event) :
    Always (step quotaPerUnit) (fun s => ∀ src, s.credits.count src ≤ 1 ∧
        (Settled db src → src ∉ s.credits) ∧
        (Settled s.db src ↔ Settled db src ∨ src ∈ s.credits)) ⟨db, []⟩ es ∧
      Meets (step quotaPerUnit) (StepOk quotaPerUnit) ⟨db, []⟩ es := by
  have hinv : Inv db (⟨db, []⟩ : State) := by
    refine ⟨hids, List.nodup_nil, fun src => ?_, fun src hm => ?_⟩
    · simp
    · cases hm
  have hall : Always (step quotaPerUnit) (Inv db) (⟨db, []⟩ : State) es :=
    Always.of_step (fun s e h => inv_step e h) hinv es
  refine ⟨hall.imp ?_, meets_of_inv hinv es⟩
  intro s h src
  exact ⟨List.nodup_iff_count_le_one.1 h.once src, fun hs hm => h.fresh src hm hs, h.settled src⟩

/-- A Waffo callback comes twice, with a Stripe callback for the same order in between. -/
def repeatedCallbacks : List Event :=
  [.callback .waffo .none "T1" ⟨"", "", "", 60⟩, .callback .stripe .none "T1" ⟨"", "c", "", 61⟩,
    .callback .waffo .none "T1" ⟨"", "", "", 62⟩]

theorem settlement_runs_repeated :
    IdsUnique (orderDB .waffo) ∧
      (run (step (.ofInt 500)) ⟨orderDB .waffo, []⟩ repeatedCallbacks).credits = [.order "T1"] ∧
      Meets (step (.ofInt 500)) (StepOk (.ofInt 500)) ⟨orderDB .waffo, []⟩ repeatedCallbacks :=
  ⟨List.nodup_nil, by decide,
    (settlement_runs (.ofInt 500) (orderDB .waffo) List.nodup_nil repeatedCallbacks).2⟩

end Settlement

end NexusTok
