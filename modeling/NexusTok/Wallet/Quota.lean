import NexusTok.Database.Basic

/-!
# Quota of a wallet

Conversions of money into quota, and the one write that credits a wallet for a payment.  A wallet
holds at most `maxWalletQuota`, the largest integer a JavaScript number represents exactly;
`creditTopUpQuota` keeps it there by a condition inside its `UPDATE`.

* `credit_cases` : everything a credit can do.
* `calcSubscriptionBalanceQuota_ok` : the price of a plan in quota is the ceiling of price times
  quota per unit.
-/

namespace NexusTok

def maxWalletQuota : ℤ := 2 ^ 53 - 1

/-- `WalletQuotaFromDecimalStrict`.  An integer outside the range stays outside when it is turned
into a float, so the comparison can be made on the integer. -/
def walletQuotaFromDecimalStrict (d : Decimal) : Except Err ℤ :=
  let n := d.round
  if maxWalletQuota < n then
    .error (.quotaClamp "WalletQuotaFromDecimal" "overflow" n maxWalletQuota)
  else if n < -maxWalletQuota then
    .error (.quotaClamp "WalletQuotaFromDecimal" "underflow" n (-maxWalletQuota))
  else .ok n

theorem walletQuotaFromDecimalStrict_ok {d : Decimal} {n : ℤ} :
    walletQuotaFromDecimalStrict d = .ok n ↔
      d.round = n ∧ -maxWalletQuota ≤ n ∧ n ≤ maxWalletQuota := by
  unfold walletQuotaFromDecimalStrict
  simp only
  split_ifs with h₁ h₂
  · simp only [false_iff, not_and]
    omega
  · simp only [false_iff, not_and]
    omega
  · rw [Except.ok.injEq]
    omega

/-! ### Prices -/

/-- `calcSubscriptionBalanceQuota`, `quotaPerUnit` being the configured quota of a dollar. -/
def calcSubscriptionBalanceQuota (quotaPerUnit priceAmount : Decimal) : Except Err ℤ :=
  if priceAmount.coeff ≤ 0 then .ok 0
  else if quotaPerUnit.coeff ≤ 0 then .error (.text "额度单位配置错误")
  else walletQuotaFromDecimalStrict (.ofInt (priceAmount.mul quotaPerUnit).ceil)

/-- **The price of a plan in quota.** -/
theorem calcSubscriptionBalanceQuota_ok {quotaPerUnit price : Decimal} {n : ℤ}
    (hprice : 0 ≤ price.toRat) (h : calcSubscriptionBalanceQuota quotaPerUnit price = .ok n) :
    n = ⌈price.toRat * quotaPerUnit.toRat⌉ ∧ 0 ≤ n := by
  unfold calcSubscriptionBalanceQuota at h
  split_ifs at h with h₁ h₂
  · -- a price that is not positive is zero
    have h0 : price.coeff = 0 := by
      have := (Decimal.toRat_nonneg_iff price).1 hprice
      omega
    have hz : price.toRat = 0 := by simp [Decimal.toRat, h0]
    rw [Except.ok.injEq] at h
    subst h
    simp [hz]
  · rw [walletQuotaFromDecimalStrict_ok, Decimal.round_ofInt] at h
    rw [← h.1, Decimal.ceil_eq, Decimal.toRat_mul]
    refine ⟨rfl, Int.ceil_nonneg ?_⟩
    have hq : 0 < quotaPerUnit.toRat := (Decimal.toRat_pos_iff _).2 (by omega)
    exact mul_nonneg hprice hq.le

/-! ### Credits -/

def topUpQuotaMaxCurrent (creditedQuota : ℤ) : Except Err ℤ :=
  if creditedQuota ≤ 0 ∨ maxWalletQuota < creditedQuota then .error (.text "invalid top-up quota")
  else .ok (maxWalletQuota - creditedQuota)

/-- `creditTopUpQuota`; `updates` are the other fields it sets. -/
def creditTopUpQuota (f : Faults) (userId creditedQuota : ℤ) (updates : User → User) :
    Body DB Err Unit := fun db =>
  match topUpQuotaMaxCurrent creditedQuota with
  | .error e => .error e
  | .ok maxCurrentQuota =>
    if f ⟨.update, .users, userId⟩ then .error (.db ⟨.update, .users, userId⟩)
    else
      match db.user userId with
      | none =>
        if f ⟨.count, .users, userId⟩ then .error (.db ⟨.count, .users, userId⟩)
        else .error errRecordNotFound
      | some user =>
        if user.quota ≤ maxCurrentQuota then
          .ok ((), db.updateUser userId fun u =>
            { updates u with quota := u.quota + creditedQuota })
        else if f ⟨.count, .users, userId⟩ then .error (.db ⟨.count, .users, userId⟩)
        else .error (.text "top-up quota limit exceeded")

/-- The quota can be credited to the wallet of the user. -/
def Creditable (db : DB) (userId c : ℤ) : Prop :=
  0 < c ∧ c ≤ maxWalletQuota ∧ ∃ user, db.user userId = some user ∧ user.quota ≤ maxWalletQuota - c

/-- **Everything a credit can do**: fail, or add the quota to a wallet that has room for it. -/
theorem credit_cases (f : Faults) (userId c : ℤ) (updates : User → User) (db : DB) :
    (∃ e, creditTopUpQuota f userId c updates db = .error e) ∨
      Creditable db userId c ∧ creditTopUpQuota f userId c updates db =
        .ok ((), db.updateUser userId fun u => { updates u with quota := u.quota + c }) := by
  unfold creditTopUpQuota topUpQuotaMaxCurrent
  by_cases hc : c ≤ 0 ∨ maxWalletQuota < c
  · exact .inl ⟨_, by rw [if_pos hc]⟩
  rw [if_neg hc]
  simp only
  cases hf : f ⟨.update, .users, userId⟩ with
  | true => exact .inl ⟨_, rfl⟩
  | false =>
    cases hu : db.user userId with
    | none =>
      left
      simp only [Bool.false_eq_true, ↓reduceIte]
      split_ifs <;> exact ⟨_, rfl⟩
    | some user =>
      simp only [Bool.false_eq_true, ↓reduceIte]
      split_ifs with hq hcount
      · exact .inr ⟨⟨by omega, by omega, user, hu, hq⟩, rfl⟩
      · exact .inl ⟨_, rfl⟩
      · exact .inl ⟨_, rfl⟩

theorem credit_none_iff (userId c : ℤ) (updates : User → User) (db : DB) :
    (∃ r, creditTopUpQuota .none userId c updates db = .ok r) ↔ Creditable db userId c := by
  constructor
  · rintro ⟨r, hr⟩
    obtain ⟨e, he⟩ | ⟨hc, -⟩ := credit_cases .none userId c updates db
    · rw [he] at hr; cases hr
    · exact hc
  · rintro ⟨hpos, hmax, user, hu, hq⟩
    refine ⟨((), db.updateUser userId fun u => { updates u with quota := u.quota + c }), ?_⟩
    have hm : topUpQuotaMaxCurrent c = .ok (maxWalletQuota - c) := by
      rw [topUpQuotaMaxCurrent, if_neg (by omega)]
    simp [creditTopUpQuota, hm, Faults.none, hu, hq]

/-! ### Reading a wallet -/

/-- The wallet of a user; a user that is not there has none. -/
def DB.wallet (db : DB) (userId : ℤ) : Option ℤ := (db.user userId).map User.quota

theorem user_updateUser {db : DB} {userId : ℤ} {g : User → User} (hg : ∀ u, (g u).id = u.id)
    (v : ℤ) : (db.updateUser userId g).user v =
      (db.user v).map fun u => if v = userId then g u else u := by
  have hkey : ∀ u : User, (if u.id = userId then g u else u).id = u.id := by
    intro u
    split_ifs
    · exact hg u
    · rfl
  refine (Table.get_map hkey).trans ?_
  cases hu : db.user v with
  | none =>
    rw [DB.user] at hu
    rw [hu]
    rfl
  | some u =>
    have hid : u.id = v := Table.get_key hu
    rw [DB.user] at hu
    rw [hu, Option.map_some, Option.map_some, hid]

theorem wallet_add {db : DB} {userId c : ℤ} {g : User → User}
    (hg : ∀ u, (g u).id = u.id ∧ (g u).quota = u.quota + c) (v : ℤ) :
    (db.updateUser userId g).wallet v =
      (db.wallet v).map fun w => if v = userId then w + c else w := by
  rw [DB.wallet, user_updateUser fun u => (hg u).1, DB.wallet, Option.map_map, Option.map_map]
  congr 1
  funext u
  show (if v = userId then g u else u).quota = if v = userId then u.quota + c else u.quota
  split_ifs
  · exact (hg u).2
  · rfl

end NexusTok
