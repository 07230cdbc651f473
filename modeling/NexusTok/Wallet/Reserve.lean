import NexusTok.Cache.User
import NexusTok.Machine.Pool
import NexusTok.Wallet.Ledger

/-!
# Reservations against the cached balance

With Redis enabled and direct writes, `TryReserveUserQuota` decides on the cached `Quota` and then
debits the row without looking at it.  `IncreaseUserQuota` credits the row and only later, in a
goroutine, the cache; `GetUserCache` fills a cold cache with whatever the row held when it read it.

The machine interleaves the single steps of any number of these calls with the passing of time.
The row stays solvent as long as it covers what the cache can still let pass: the cached quota, the
credits on their way to the cache, and the debits already let pass.  Two steps can break this, a
fill of a cold cache and a reservation on the database, and only these; `Covered` says when they
do not.

* `Call.step_solvent` : the step lemma.
* `reserve_runs` : over every interleaving whose fills and fallbacks are covered.
* `reserve_overdraws` : a credit that reaches the cache twice.
-/

namespace NexusTok.Reserve

/-! ### The machine -/

/-- A user: the row, the keys in Redis, and what was reserved and credited so far. -/
structure Account where
  row : UserBase
  keys : UserKeys
  reserved : ℤ
  credited : ℤ
  deriving DecidableEq

/-- Where a call stands. -/
inductive Call where
  /-- `TryReserveUserQuota`, before its first script. -/
  | reserve (quota : ℤ)
  /-- The hash gave nothing: inside `GetUserCache`. -/
  | hydrate (quota : ℤ) (f : Fetch)
  /-- Before its second script. -/
  | retry (quota : ℤ)
  /-- Before `reserveUserQuotaDB`. -/
  | fallback (quota : ℤ)
  /-- Let pass by the cache, before `persistUserQuotaDelta`. -/
  | persist (quota : ℤ)
  /-- The debit failed, before the cache is compensated. -/
  | compensate (quota : ℤ)
  /-- `IncreaseUserQuota`, before the row is credited. -/
  | increase (quota : ℤ)
  /-- The row is credited, before `cacheIncrUserQuota`. -/
  | echo (quota : ℤ)
  /-- `GetUserCache`, called for a request. -/
  | getUserCache (f : Fetch)
  deriving DecidableEq

namespace Account

/-- `UPDATE users SET quota = quota - ?` for a reservation that returns true. -/
def debit (a : Account) (quota : ℤ) : Account :=
  { a with
    row := { a.row with quota := a.row.quota - quota }
    reserved := a.reserved + quota }

/-- `UPDATE users SET quota = quota + ?` for a credit. -/
def credit (a : Account) (quota : ℤ) : Account :=
  { a with
    row := { a.row with quota := a.row.quota + quota }
    credited := a.credited + quota }

def withKeys (a : Account) (k : UserKeys) : Account := { a with keys := k }

end Account

/-- What `TryReserveUserQuota` does with the answer of its script; `onMiss` is where a miss leads. -/
def afterScript (a : Account) (quota : ℤ) (onMiss : Call) : Account × Option Call :=
  match cacheTryReserveUserQuota a.row.id quota a.keys with
  | (k, .miss) => (a.withKeys k, some onMiss)
  | (k, .insufficient) => (a.withKeys k, none)
  | (k, .ok) => (a.withKeys k, some (.persist quota))

/-- One step of a call.  `fault` says that its command fails. -/
def Call.step (syncFrequency : ℤ) (fault : Bool) (a : Account) : Call → Account × Option Call
  | .reserve quota =>
    if quota ≤ 0 then (a, none)
    else if fault then (a, some (.fallback quota))
    else afterScript a quota (.hydrate quota .readHash)
  | .hydrate quota f =>
    match f.step syncFrequency a.row.id (some a.row) fault a.keys with
    | (k, .inl f) => (a.withKeys k, some (.hydrate quota f))
    | (k, .inr (.ok _)) => (a.withKeys k, some (.retry quota))
    | (k, .inr (.error _)) => (a.withKeys k, some (.fallback quota))
  | .retry quota =>
    if fault then (a, some (.fallback quota)) else afterScript a quota (.fallback quota)
  | .fallback quota =>
    if fault then (a, none)
    else if quota ≤ a.row.quota then (a.debit quota, none)
    else (a, none)
  | .persist quota => if fault then (a, some (.compensate quota)) else (a.debit quota, none)
  | .compensate quota =>
    if fault then (a, none) else (a.withKeys (cacheApplyUserQuotaDelta a.row.id quota a.keys).1, none)
  | .increase quota =>
    if quota < 0 ∨ maxWalletQuota < quota ∨ fault then (a, none)
    else if a.row.quota ≤ maxWalletQuota - quota then (a.credit quota, some (.echo quota))
    else (a, none)
  | .echo quota =>
    if fault then (a, none) else (a.withKeys (cacheApplyUserQuotaDelta a.row.id quota a.keys).1, none)
  | .getUserCache f =>
    match f.step syncFrequency a.row.id (some a.row) fault a.keys with
    | (k, .inl f) => (a.withKeys k, some (.getUserCache f))
    | (k, .inr _) => (a.withKeys k, none)

/-- A new call, a step of a call in flight, or time. -/
inductive Event where
  | tryReserveUserQuota (quota : ℤ)
  | increaseUserQuota (quota : ℤ)
  | getUserCache
  | resume (i : ℕ) (fault : Bool)
  | tick (seconds : ℕ)
  deriving DecidableEq

def step (syncFrequency : ℤ) (p : Pool Account Call) : Event → Pool Account Call
  | .tryReserveUserQuota quota => p.start (.reserve quota)
  | .increaseUserQuota quota => p.start (.increase quota)
  | .getUserCache => p.start (.getUserCache .readHash)
  | .resume i fault => p.resume (Call.step syncFrequency fault) i
  | .tick seconds => p.outside fun a => a.withKeys (a.keys.tick seconds)

/-! ### What the row has to cover -/

/-- The debits that were let pass and are not in the row yet. -/
def Call.debt : Call → ℤ
  | .persist quota => quota
  | _ => 0

/-- What is on its way into the cached quota. -/
def Call.inbound : Call → ℤ
  | .compensate quota => quota
  | .echo quota => quota
  | _ => 0

/-- **The invariant.**  The row covers the debits that were let pass, and, when a quota is cached,
also that quota and what is on its way into it. -/
structure Solvent (a : Account) (debt inbound : ℤ) : Prop where
  debt_le : debt ≤ a.row.quota
  cached_le : ∀ quota, a.keys.quota = some quota → debt + quota + inbound ≤ a.row.quota

/-- **When a step is covered.**  A fill that writes a quota into a cold cache: the row covers it on
top of the debits let pass and of what is on its way into the cache.  A reservation that succeeds on
the database: the row covers it on top of the debits let pass and, with a quota cached, of that
quota and what is on its way into it.  Every other step is covered. -/
def Call.Covered (fault : Bool) (a : Account) (debt inbound : ℤ) : Call → Prop
  | .hydrate _ (.populate user) | .getUserCache (.populate user) =>
    fault = false → fillsQuota user a.keys = true → debt + user.quota + inbound ≤ a.row.quota
  | .fallback quota =>
    fault = false → quota ≤ a.row.quota →
      debt + quota ≤ a.row.quota ∧
        ∀ cached ∈ a.keys.quota, debt + quota + cached + inbound ≤ a.row.quota
  | _ => True

instance (fault : Bool) (a : Account) (debt inbound : ℤ) :
    (c : Call) → Decidable (c.Covered fault a debt inbound)
  | .hydrate _ (.populate _) => inferInstanceAs (Decidable (_ → _ → _))
  | .getUserCache (.populate _) => inferInstanceAs (Decidable (_ → _ → _))
  | .fallback _ => inferInstanceAs (Decidable (_ → _ → _ ∧ _))
  | .hydrate _ .readHash | .hydrate _ (.readFloor _) | .hydrate _ .readUser
  | .hydrate _ (.checkFloor _) | .getUserCache .readHash | .getUserCache (.readFloor _)
  | .getUserCache .readUser | .getUserCache (.checkFloor _) | .reserve _ | .retry _ | .persist _
  | .compensate _ | .increase _ | .echo _ => inferInstanceAs (Decidable True)

/-- The amounts a call carries were checked when it got there. -/
def Call.Sound : Call → Prop
  | .reserve _ | .increase _ | .getUserCache _ => True
  | .hydrate quota _ | .retry quota | .fallback quota | .persist quota | .compensate quota =>
    0 < quota
  | .echo quota => 0 ≤ quota

theorem Call.Sound.debt_nonneg {c : Call} (h : c.Sound) : 0 ≤ c.debt := by
  cases c <;> simp only [Call.Sound, Call.debt] at h ⊢ <;> omega

theorem Call.Sound.inbound_nonneg {c : Call} (h : c.Sound) : 0 ≤ c.inbound := by
  cases c <;> simp only [Call.Sound, Call.inbound] at h ⊢ <;> omega

/-! ### The steps -/

variable {a : Account} {debt inbound : ℤ}

/-- What a step leaves: a solvent account, and a call whose amounts are checked. -/
def Kept (debt inbound : ℤ) (r : Account × Option Call) : Prop :=
  Solvent r.1 (Pool.rest Call.debt r.2 + debt) (Pool.rest Call.inbound r.2 + inbound) ∧
    ∀ c ∈ r.2, c.Sound

/-- The account is untouched, and the call carries no weight afterwards. -/
theorem Kept.same (h : Solvent a debt inbound) {c : Option Call}
    (hd : Pool.rest Call.debt c = 0) (hi : Pool.rest Call.inbound c = 0)
    (hs : ∀ c' ∈ c, c'.Sound) : Kept debt inbound (a, c) := by
  refine ⟨?_, hs⟩
  rw [hd, hi, zero_add, zero_add]
  exact h

variable {quota initial syncFrequency : ℤ}

/-- What is on its way into the cache can be dropped. -/
theorem Solvent.drop (h : Solvent a debt (quota + inbound)) (hq : 0 ≤ quota) :
    Solvent a debt inbound :=
  ⟨h.debt_le, fun cached hc => by
    have := h.cached_le cached hc
    omega⟩

/-- A script that lets a reservation pass moves the amount from the cached quota to the debits. -/
theorem afterScript_kept {onMiss : Call} (h : Solvent a debt inbound)
    (hq : 0 < quota) (hin : 0 ≤ inbound) (hd : onMiss.debt = 0) (hi : onMiss.inbound = 0)
    (hs : onMiss.Sound) : Kept debt inbound (afterScript a quota onMiss) := by
  simp only [afterScript, cacheTryReserveUserQuota]
  cases hg : a.keys.guardedQuota a.row.id with
  | none => exact Kept.same h (by simp [hd]) (by simp [hi]) (by simp [hs])
  | some cached =>
    have hcached := UserKeys.quota_of_guarded hg
    have hcov := h.cached_le cached hcached
    by_cases hlt : cached < quota
    · simp only [hlt, if_true]
      exact Kept.same h rfl rfl (by simp)
    · simp only [hlt, if_false]
      refine ⟨⟨?_, ?_⟩, by simpa [Call.Sound] using hq⟩
      · show quota + debt ≤ a.row.quota
        omega
      · intro cached' hc'
        have : cached - quota = cached' := by
          simpa [Account.withKeys, hcached, sub_eq_add_neg] using hc'
        show quota + debt + cached' + (0 + inbound) ≤ a.row.quota
        omega

/-- A change that reaches the cache is no longer on its way. -/
theorem applyDelta_solvent (h : Solvent a debt (quota + inbound)) (hq : 0 ≤ quota) :
    Solvent (a.withKeys (cacheApplyUserQuotaDelta a.row.id quota a.keys).1) debt inbound := by
  simp only [cacheApplyUserQuotaDelta]
  cases hg : a.keys.guardedQuota a.row.id with
  | none => exact h.drop hq
  | some cached =>
    have hcached := UserKeys.quota_of_guarded hg
    refine ⟨h.debt_le, fun cached' hc' => ?_⟩
    have : cached + quota = cached' := by simpa [Account.withKeys, hcached] using hc'
    have := h.cached_le cached hcached
    show debt + cached' + inbound ≤ a.row.quota
    omega

/-- A step of `GetUserCache` keeps the account solvent when the fill it may end in is covered. -/
theorem fetch_solvent (syncFrequency : ℤ) (fault : Bool) (f : Fetch)
    (h : Solvent a debt inbound)
    (hc : ∀ user, f = .populate user → fault = false → fillsQuota user a.keys = true →
      debt + user.quota + inbound ≤ a.row.quota) :
    Solvent
      (a.withKeys (f.step syncFrequency a.row.id (some a.row) fault a.keys).1)
      debt inbound := by
  rcases f.step_keys syncFrequency a.row.id (some a.row) fault a.keys with
    hk | ⟨user, hf, hfault, hk⟩
  · rw [hk]
    exact h
  · rw [hk]
    rcases writeUserCache_quota syncFrequency user a.keys with hq | ⟨hfill, hq⟩
    · refine ⟨h.debt_le, fun cached hcached => h.cached_le cached ?_⟩
      rw [← hq]
      exact hcached
    · refine ⟨h.debt_le, fun cached hcached => ?_⟩
      obtain rfl : user.quota = cached := by
        have : some user.quota = some cached := hq.symm.trans hcached
        exact Option.some.inj this
      exact hc user hf hfault hfill

/-- **The step lemma.**  A covered step keeps the account solvent. -/
theorem Call.step_solvent (syncFrequency : ℤ) {fault : Bool} {c : Call} (hs : c.Sound)
    (hin : 0 ≤ inbound) (h : Solvent a (c.debt + debt) (c.inbound + inbound))
    (hc : c.Covered fault a debt inbound) :
    Kept debt inbound (c.step syncFrequency fault a) := by
  cases c with
  | reserve quota =>
    have h : Solvent a debt inbound := by simpa [Call.debt, Call.inbound] using h
    simp only [Call.step]
    split_ifs with hq hf
    · exact Kept.same h rfl rfl (by simp)
    · exact Kept.same h rfl rfl (by simp [Call.Sound]; omega)
    · exact afterScript_kept h (by omega) hin rfl rfl (by simp only [Call.Sound]; omega)
  | hydrate quota f =>
    have h : Solvent a debt inbound := by simpa [Call.debt, Call.inbound] using h
    have hk := fetch_solvent syncFrequency fault f h
      (by rintro user rfl; exact hc)
    simp only [Call.step]
    rcases hr : f.step syncFrequency a.row.id (some a.row) fault a.keys with
      ⟨k, f' | (_ | _)⟩ <;> rw [hr] at hk
    · exact Kept.same hk rfl rfl (by simpa [Call.Sound] using hs)
    · exact Kept.same hk rfl rfl (by simpa [Call.Sound] using hs)
    · exact Kept.same hk rfl rfl (by simpa [Call.Sound] using hs)
  | retry quota =>
    have h : Solvent a debt inbound := by simpa [Call.debt, Call.inbound] using h
    simp only [Call.step]
    split_ifs with hf
    · exact Kept.same h rfl rfl (by simpa [Call.Sound] using hs)
    · exact afterScript_kept h hs hin rfl rfl hs
  | fallback quota =>
    have h : Solvent a debt inbound := by simpa [Call.debt, Call.inbound] using h
    simp only [Call.step]
    split_ifs with hf hq
    · exact Kept.same h rfl rfl (by simp)
    · obtain ⟨hd, hcov⟩ := hc (by simpa using hf) hq
      refine Kept.same ⟨?_, fun cached hcached => ?_⟩ rfl rfl (by simp)
      · show debt ≤ a.row.quota - quota
        omega
      · have := hcov cached hcached
        show debt + cached + inbound ≤ a.row.quota - quota
        omega
    · exact Kept.same h rfl rfl (by simp)
  | persist quota =>
    have hq : 0 < quota := hs
    have hd : quota + debt ≤ a.row.quota := h.debt_le
    simp only [Call.step]
    split_ifs with hf
    · -- the debit failed: its amount is on its way back into the cache
      refine ⟨⟨?_, fun cached hcached => ?_⟩, by simpa [Call.Sound] using hs⟩
      · show 0 + debt ≤ a.row.quota
        omega
      · have : quota + debt + cached + (0 + inbound) ≤ a.row.quota := h.cached_le cached hcached
        show 0 + debt + cached + (quota + inbound) ≤ a.row.quota
        omega
    · refine Kept.same ⟨?_, fun cached hcached => ?_⟩ rfl rfl (by simp)
      · show debt ≤ a.row.quota - quota
        omega
      · have : quota + debt + cached + (0 + inbound) ≤ a.row.quota := h.cached_le cached hcached
        show debt + cached + inbound ≤ a.row.quota - quota
        omega
  | compensate quota =>
    have hq : 0 < quota := hs
    have h : Solvent a debt (quota + inbound) := by simpa [Call.debt, Call.inbound] using h
    simp only [Call.step]
    split_ifs with hf
    · exact Kept.same (h.drop hq.le) rfl rfl (by simp)
    · exact Kept.same (applyDelta_solvent h hq.le) rfl rfl (by simp)
  | increase quota =>
    have h : Solvent a debt inbound := by simpa [Call.debt, Call.inbound] using h
    simp only [Call.step]
    split_ifs with hbad hmax
    · exact Kept.same h rfl rfl (by simp)
    · have hq : 0 ≤ quota := by
        by_contra hneg
        exact hbad (Or.inl (by omega))
      have hd := h.debt_le
      refine ⟨⟨?_, fun cached hcached => ?_⟩, by simpa [Call.Sound] using hq⟩
      · show 0 + debt ≤ a.row.quota + quota
        omega
      · have := h.cached_le cached hcached
        show 0 + debt + cached + (quota + inbound) ≤ a.row.quota + quota
        omega
    · exact Kept.same h rfl rfl (by simp)
  | echo quota =>
    have hq : 0 ≤ quota := hs
    have h : Solvent a debt (quota + inbound) := by simpa [Call.debt, Call.inbound] using h
    simp only [Call.step]
    split_ifs with hf
    · exact Kept.same (h.drop hq) rfl rfl (by simp)
    · exact Kept.same (applyDelta_solvent h hq) rfl rfl (by simp)
  | getUserCache f =>
    have h : Solvent a debt inbound := by simpa [Call.debt, Call.inbound] using h
    have hk := fetch_solvent syncFrequency fault f h
      (by rintro user rfl; exact hc)
    simp only [Call.step]
    rcases hr : f.step syncFrequency a.row.id (some a.row) fault a.keys with
      ⟨k, f' | _⟩ <;> rw [hr] at hk
    · exact Kept.same hk rfl rfl (by simp [Call.Sound])
    · exact Kept.same hk rfl rfl (by simp)

/-! ### The books -/

/-- The stored quota, with the reservations undone and without the credits: the quota at the start
of a run. -/
def Account.books (a : Account) : ℤ := a.row.quota + a.reserved - a.credited

@[simp] theorem Account.books_debit (a : Account) (quota : ℤ) : (a.debit quota).books = a.books := by
  show a.row.quota - quota + (a.reserved + quota) - a.credited = _
  simp only [Account.books]
  ring

@[simp] theorem Account.books_credit (a : Account) (quota : ℤ) :
    (a.credit quota).books = a.books := by
  show a.row.quota + quota + a.reserved - (a.credited + quota) = _
  simp only [Account.books]
  ring

theorem afterScript_books (a : Account) (quota : ℤ) (onMiss : Call) :
    (afterScript a quota onMiss).1.books = a.books := by
  simp only [afterScript]
  split <;> rfl

theorem Call.step_books (syncFrequency : ℤ) (fault : Bool) (a : Account) (c : Call) :
    (c.step syncFrequency fault a).1.books = a.books := by
  cases c with
  | reserve quota =>
    simp only [Call.step]
    split_ifs
    · rfl
    · rfl
    · exact afterScript_books a quota _
  | hydrate | getUserCache =>
    simp only [Call.step]
    split <;> rfl
  | retry quota =>
    simp only [Call.step]
    split_ifs
    · rfl
    · exact afterScript_books a quota _
  | fallback | persist | increase =>
    simp only [Call.step]
    split_ifs <;> simp
  | compensate | echo =>
    simp only [Call.step]
    split_ifs <;> rfl

/-! ### Runs -/

/-- The step an event takes is covered. -/
def Covered (p : Pool Account Call) : Event → Prop
  | .resume i fault =>
    ∀ c ∈ p.calls[i]?, c.Covered fault p.shared (p.total Call.debt) (p.total Call.inbound)
  | _ => True

instance (p : Pool Account Call) : (e : Event) → Decidable (Covered p e)
  | .resume _ _ => inferInstanceAs (Decidable (∀ _ ∈ _, _))
  | .tryReserveUserQuota _ | .increaseUserQuota _ | .getUserCache | .tick _ =>
    inferInstanceAs (Decidable True)

/-- The invariant of a run that started with the quota `initial`. -/
structure Inv (initial : ℤ) (p : Pool Account Call) : Prop where
  sound : p.Each Call.Sound
  solvent : Solvent p.shared (p.total Call.debt) (p.total Call.inbound)
  books : p.shared.books = initial

variable {p : Pool Account Call}

theorem Inv.start (h : Inv initial p) {c : Call}
    (hs : c.Sound) (hd : c.debt = 0) (hi : c.inbound = 0) : Inv initial (p.start c) where
  sound := h.sound.start hs
  solvent := by simpa [hd, hi] using h.solvent
  books := h.books

theorem Call.Covered.others {fault : Bool} {c : Call} {d i : ℤ}
    (h : c.Covered fault a (c.debt + d) (c.inbound + i)) : c.Covered fault a d i := by
  cases c with
  | hydrate quota f =>
    cases f with
    | populate user => simpa [Call.Covered, Call.debt, Call.inbound] using h
    | _ => trivial
  | getUserCache f =>
    cases f with
    | populate user => simpa [Call.Covered, Call.debt, Call.inbound] using h
    | _ => trivial
  | fallback quota => simpa [Call.Covered, Call.debt, Call.inbound] using h
  | _ => trivial

theorem Inv.resume (h : Inv initial p) {i : ℕ} {fault : Bool} (hc : Covered p (.resume i fault)) :
    Inv initial (p.resume (Call.step syncFrequency fault) i) := by
  rcases p.resume_cases (Call.step syncFrequency fault) i with
    ⟨-, hr⟩ | ⟨before, c, after, hget, hcalls, hr⟩
  · rw [hr]
    exact h
  · obtain ⟨a, calls⟩ := p
    subst hcalls
    have hsound : c.Sound := h.sound c (by simp)
    have hcov := hc c hget
    have hsolvent := h.solvent
    rw [Pool.total_split, Pool.total_split] at hcov hsolvent
    -- the calls that do not move carry nothing negative
    have hin : 0 ≤ (Pool.mk a (before ++ after)).total Call.inbound := by
      refine Pool.total_nonneg fun c' hc' => (h.sound c' ?_).inbound_nonneg
      rcases List.mem_append.1 hc' with hc' | hc' <;> simp [hc']
    obtain ⟨hkept, hrest⟩ := Call.step_solvent syncFrequency hsound hin hsolvent hcov.others
    rw [hr]
    refine ⟨?_, ?_, ?_⟩
    · exact h.sound.of_split rfl hrest
    · rw [Pool.total_join a, Pool.total_join a]
      exact hkept
    · exact (Call.step_books syncFrequency fault a c).trans h.books

/-- **The transition lemma.**  Every covered event keeps the invariant. -/
theorem Inv.step (e : Event)
    (h : Inv initial p) (hc : Covered p e) : Inv initial (step syncFrequency p e) := by
  cases e with
  | tryReserveUserQuota | increaseUserQuota | getUserCache => exact h.start trivial rfl rfl
  | resume i fault => exact h.resume hc
  | tick seconds =>
    refine ⟨h.sound, ⟨h.solvent.debt_le, fun cached hcached => ?_⟩, h.books⟩
    refine h.solvent.cached_le cached ?_
    rcases p.shared.keys.quota_tick seconds with hq | hq
    · rw [← hq]
      exact hcached
    · exact absurd (hq.symm.trans hcached) (by simp)

/-- Nothing is overdrawn: the stored quota is not negative, and the reservations that returned true
add up to no more than the quota at the start and the credits. -/
def Covers (initial : ℤ) (p : Pool Account Call) : Prop :=
  0 ≤ p.shared.row.quota ∧ p.shared.reserved ≤ initial + p.shared.credited

instance (initial : ℤ) (p : Pool Account Call) : Decidable (Covers initial p) :=
  inferInstanceAs (Decidable (_ ∧ _))

theorem Inv.covers (h : Inv initial p) : Covers initial p := by
  have hdebt := Pool.total_nonneg (h.sound.imp fun c hc => hc.debt_nonneg)
  have hle := h.solvent.debt_le
  have hbooks : p.shared.row.quota + p.shared.reserved - p.shared.credited = initial := h.books
  exact ⟨by omega, by omega⟩

/-- **Reservations never overdraw a covered run.**  From a row that is not negative, with a cache
that is cold or holds no more than the row, every interleaving of reservations, credits, cache reads
and expiry whose steps are covered keeps the stored quota from going negative. -/
theorem reserve_runs (syncFrequency : ℤ) (row : UserBase) (keys : UserKeys) (es : List Event)
    (hrow : 0 ≤ row.quota) (hcached : ∀ quota, keys.quota = some quota → quota ≤ row.quota)
    (hes : Machine.Meets (step syncFrequency) Covered ⟨⟨row, keys, 0, 0⟩, []⟩ es) :
    Machine.Always (step syncFrequency) (Covers row.quota) ⟨⟨row, keys, 0, 0⟩, []⟩ es := by
  have hstart : Inv row.quota ⟨⟨row, keys, 0, 0⟩, []⟩ := by
    refine ⟨fun c hc => absurd hc (by simp), ⟨hrow, fun quota hq => ?_⟩, ?_⟩
    · have := hcached quota hq
      show 0 + quota + 0 ≤ row.quota
      omega
    · show row.quota + 0 - 0 = row.quota
      ring
  refine (Machine.Always.of_meets ?_ hstart hes).imp fun p hp => hp.covers
  intro p e hp hc
  exact hp.step e hc

/-- A user with the quota `quota`. -/
def someone (quota : ℤ) : UserBase := ⟨7, "default", "", quota, 1, 1, "someone", "", 1⟩

/-- The keys of a user that was never cached. -/
def cold : UserKeys := ⟨0, none, none, none⟩

/-- A request reads the user and fills the cache, which then lets a reservation pass. -/
theorem reserve_runs_filled :
    Machine.Always (step 60) (Covers 10) ⟨⟨someone 10, cold, 0, 0⟩, []⟩
      [.getUserCache, .resume 0 false, .resume 0 false, .resume 0 false, .resume 0 false,
        .tryReserveUserQuota 4, .resume 0 false, .resume 0 false] :=
  reserve_runs 60 (someone 10) cold _ (by decide) (by decide) (by decide)

/-- **A credit that reaches the cache twice.**  The row is credited with 10; before the credit
reaches the cache, a request fills the cold cache with the credited row.  The credit then arrives on
top of it, the cache holds 20, and a reservation of 20 leaves the row at -10. -/
theorem reserve_overdraws :
    ¬ Machine.Always (step 60) (Covers 0) ⟨⟨someone 0, cold, 0, 0⟩, []⟩
      [.increaseUserQuota 10, .resume 0 false, .getUserCache, .resume 1 false, .resume 1 false,
        .resume 1 false, .resume 1 false, .resume 0 false, .tryReserveUserQuota 20,
        .resume 0 false, .resume 0 false] := by
  intro h
  exact absurd h.run (by decide)

end NexusTok.Reserve
