import Mathlib.Order.Bounds.Basic
import NexusTok.Subscription.Period

/-!
# Reset boundaries

The instants at which the quota of a subscription is reset: local midnights, midnights before a
Monday, midnights before the first of a month, or every so many seconds after a base.

* `IsBoundary` : the boundaries of a plan, said of an instant.
* `nextReset_least` : `calcNextResetTime` finds the first one after an instant.
* `advance_latest` : the loop of `maybeResetUserSubscriptionWithPlanTx` ends, at the last boundary
  that has passed.
* `maybeReset_spec` : what a reset leaves of a subscription.  A reset time that is stored for later
  is kept whatever the plan says by now, and an end time of zero is none.

The location has a fixed offset, and a custom period is one that a `Duration` holds.
-/

namespace NexusTok

/-- The instant is a reset boundary of the plan; the periods of a custom plan are counted from
`base`. -/
def IsBoundary (loc : Location) (plan : SubscriptionPlan) (base t : ℤ) : Prop :=
  match normalizeResetPeriod plan.quotaResetPeriod with
  | .never => False
  | .daily => loc.civil t % 86400 = 0
  | .weekly => loc.civil t % 86400 = 0 ∧ weekday (loc.day t) = 1
  | .monthly => loc.civil t % 86400 = 0 ∧ loc.day t = monthStart (monthOf (loc.day t))
  | .custom => ∃ n : ℤ, 1 ≤ n ∧ t = base + n * plan.quotaResetCustomSeconds

/-- What `AdminCreateSubscriptionPlan` and `AdminUpdateSubscriptionPlan` ask of the reset period. -/
def SubscriptionPlan.ResetAccepted (plan : SubscriptionPlan) : Prop :=
  normalizeResetPeriod plan.quotaResetPeriod = .custom → 0 < plan.quotaResetCustomSeconds

/-- A `Duration` holds the custom period. -/
def SubscriptionPlan.ResetFits (plan : SubscriptionPlan) : Prop :=
  normalizeResetPeriod plan.quotaResetPeriod = .custom → plan.quotaResetCustomSeconds ≤ 9223372036

/-- A boundary, if it is not past the end. -/
def untilEnd (endTime t : ℤ) : ℤ := if 0 < endTime ∧ endTime < t then 0 else t

/-- The boundaries that have passed since `base`, up to the end. -/
def passed (loc : Location) (plan : SubscriptionPlan) (endTime now base : ℤ) : Set ℤ :=
  {t | IsBoundary loc plan base t ∧ base < t ∧ t ≤ now ∧ (0 < endTime → t ≤ endTime)}

/-- The reset time is the first boundary after `now`, or zero if that is past the end. -/
def IsNext (loc : Location) (plan : SubscriptionPlan) (endTime now base next : ℤ) : Prop :=
  IsLeast {t | IsBoundary loc plan base t ∧ now < t} next ∧ (0 < endTime → next ≤ endTime) ∨
    next = 0 ∧ 0 < endTime ∧ ∀ t, IsBoundary loc plan base t → now < t → endTime < t

/-! ### The first boundary after an instant -/

section Next

variable {plan : SubscriptionPlan} {k : ℤ}

theorem customStep_eq (hplan : plan.ResetAccepted) (hfits : plan.ResetFits)
    (hcustom : normalizeResetPeriod plan.quotaResetPeriod = .custom) :
    plan.customStep = plan.quotaResetCustomSeconds := by
  have hpos := hplan hcustom
  have hle := hfits hcustom
  have hwrap : wrap64 (plan.quotaResetCustomSeconds * nanosPerSecond) =
      plan.quotaResetCustomSeconds * nanosPerSecond := by
    unfold wrap64 nanosPerSecond
    rw [Int.bmod_eq_of_le] <;> omega
  rw [SubscriptionPlan.customStep, hwrap]
  unfold nanosPerSecond
  omega

/-- Local midnight, in a zone with a constant offset. -/
theorem fixed_day (t : ℤ) : (Location.fixed k).day t = (t + k) / 86400 := rfl

theorem fixed_civil (t : ℤ) : (Location.fixed k).civil t = t + k := rfl

theorem fixed_startOfDay (t : ℤ) :
    (Location.fixed k).startOfDay t = 86400 * ((t + k) / 86400) - k := rfl

theorem fixed_addDays (t n : ℤ) : (Location.fixed k).addDays t n = t + 86400 * n := by
  change t + k + 86400 * n - k = _
  omega

theorem fixed_nextMonth (t : ℤ) :
    (Location.fixed k).addMonths ((Location.fixed k).startOfMonth t) 1 =
      86400 * monthStart (monthOf ((t + k) / 86400) + 1) - k := by
  simp only [Location.addMonths, Location.startOfMonth, Location.day_date_midnight,
    Location.civil_date_midnight, monthOf_monthStart, fixed_day]
  change 86400 * (monthStart (monthOf ((t + k) / 86400) + 1) +
    (monthStart (monthOf ((t + k) / 86400)) - monthStart (monthOf ((t + k) / 86400)))) +
      86400 * monthStart (monthOf ((t + k) / 86400)) % 86400 - k = _
  omega

/-- A later month begins later. -/
theorem monthStart_le_of_lt {m m' : ℤ} (h : monthStart m < monthStart m') :
    monthStart (m + 1) ≤ monthStart m' :=
  monthStart_strictMono.le_iff_le.2 (monthStart_strictMono.lt_iff_lt.1 h)

/-- **The first boundary after an instant**, which is the base or a boundary itself. -/
theorem nextReset_least (hplan : plan.ResetAccepted) (hfits : plan.ResetFits) {base b : ℤ}
    (hnever : normalizeResetPeriod plan.quotaResetPeriod ≠ .never)
    (hb : b = base ∨ base < b ∧ IsBoundary (.fixed k) plan base b) :
    ∃ n, nextReset (.fixed k) b plan = some n ∧
      IsLeast {t | IsBoundary (.fixed k) plan base t ∧ b < t} n := by
  cases hp : normalizeResetPeriod plan.quotaResetPeriod with
  | never => exact absurd hp hnever
  | daily =>
    refine ⟨_, by simp only [nextReset, hp]; rfl, ⟨?_, ?_⟩, fun t ht => ?_⟩
    · simp only [IsBoundary, hp, fixed_civil, fixed_addDays, fixed_startOfDay]
      omega
    · rw [fixed_addDays, fixed_startOfDay]
      omega
    · obtain ⟨hbound, hlt⟩ := ht
      simp only [IsBoundary, hp, fixed_civil] at hbound
      rw [fixed_addDays, fixed_startOfDay]
      omega
  | weekly =>
    refine ⟨_, by simp only [nextReset, hp]; rfl, ⟨?_, ?_⟩, fun t ht => ?_⟩
    · simp only [IsBoundary, hp, fixed_civil, fixed_day, fixed_addDays, fixed_startOfDay, weekday]
      split_ifs <;> omega
    · simp only [fixed_day, fixed_addDays, fixed_startOfDay, weekday]
      split_ifs <;> omega
    · obtain ⟨hbound, hlt⟩ := ht
      simp only [IsBoundary, hp, fixed_civil, fixed_day, weekday] at hbound
      simp only [fixed_day, fixed_addDays, fixed_startOfDay, weekday]
      split_ifs <;> omega
  | monthly =>
    obtain ⟨hstart, hend⟩ := monthOf_spec ((b + k) / 86400)
    have hnext := monthStart_lt_succ (monthOf ((b + k) / 86400))
    refine ⟨_, by simp only [nextReset, hp]; rfl, ⟨?_, ?_⟩, fun t ht => ?_⟩
    · simp only [IsBoundary, hp, fixed_civil, fixed_day, fixed_nextMonth]
      have hday : (86400 * monthStart (monthOf ((b + k) / 86400) + 1) - k + k) / 86400 =
          monthStart (monthOf ((b + k) / 86400) + 1) := by omega
      rw [hday, monthOf_monthStart]
      exact ⟨by omega, rfl⟩
    · rw [fixed_nextMonth]
      omega
    · obtain ⟨hbound, hlt⟩ := ht
      simp only [IsBoundary, hp, fixed_civil, fixed_day] at hbound
      obtain ⟨hmidnight, hfirst⟩ := hbound
      rw [fixed_nextMonth]
      -- a midnight after `b` belongs to a later day, and as a first of a month to a later month
      have hlater : (b + k) / 86400 < (t + k) / 86400 := by omega
      have hmonth : monthStart (monthOf ((b + k) / 86400) + 1) ≤
          monthStart (monthOf ((t + k) / 86400)) :=
        monthStart_le_of_lt (by omega)
      omega
  | custom =>
    have hpos := hplan hp
    have hstep := customStep_eq hplan hfits hp
    -- `b` lies a whole number of periods after the base
    obtain ⟨m, hm, rfl⟩ : ∃ m : ℤ, 0 ≤ m ∧ b = base + m * plan.quotaResetCustomSeconds := by
      rcases hb with rfl | ⟨-, hbound⟩
      · exact ⟨0, le_refl 0, by omega⟩
      · simp only [IsBoundary, hp] at hbound
        obtain ⟨n, hn, rfl⟩ := hbound
        exact ⟨n, by omega, rfl⟩
    refine ⟨base + (m + 1) * plan.quotaResetCustomSeconds, ?_, ⟨?_, ?_⟩, fun t ht => ?_⟩
    · simp only [nextReset, hp, if_neg (not_le.2 hpos), Option.some.injEq]
      change base + m * plan.quotaResetCustomSeconds + plan.customStep = _
      rw [hstep]
      ring
    · simp only [IsBoundary, hp]
      exact ⟨m + 1, by omega, rfl⟩
    · have hadd : (m + 1) * plan.quotaResetCustomSeconds =
          m * plan.quotaResetCustomSeconds + plan.quotaResetCustomSeconds := by ring
      omega
    · obtain ⟨hbound, hlt⟩ := ht
      simp only [IsBoundary, hp] at hbound
      obtain ⟨n, -, rfl⟩ := hbound
      have hmn : m < n := by
        by_contra hnm
        have := mul_le_mul_of_nonneg_right (not_lt.1 hnm) hpos.le
        omega
      have := mul_le_mul_of_nonneg_right (Int.add_one_le_of_lt hmn) hpos.le
      omega

end Next

/-! ### The loop -/

section Loop

variable {plan : SubscriptionPlan} {k endTime now base : ℤ}

theorem calcNextResetTime_eq {loc : Location} {b n : ℤ} (h : nextReset loc b plan = some n) :
    calcNextResetTime loc b plan endTime = untilEnd endTime n := by
  rw [calcNextResetTime, h]
  rfl

/-- What the loop keeps: it stands at the base or at a boundary that has passed. -/
def Advance.At (loc : Location) (plan : SubscriptionPlan) (endTime now base : ℤ) (a : Advance) :
    Prop :=
  (a.advanced = false ∧ a.base = base ∨
      a.advanced = true ∧ a.base ∈ passed loc plan endTime now base) ∧
    a.next = calcNextResetTime loc a.base plan endTime

theorem At.base_or {a : Advance} (h : a.At (.fixed k) plan endTime now base) :
    a.base = base ∨ base < a.base ∧ IsBoundary (.fixed k) plan base a.base := by
  rcases h.1 with ⟨-, hbase⟩ | ⟨-, hpassed⟩
  · exact .inl hbase
  · exact .inr ⟨hpassed.2.1, hpassed.1⟩

theorem At.turn (hplan : plan.ResetAccepted) (hfits : plan.ResetFits)
    (hnever : normalizeResetPeriod plan.quotaResetPeriod ≠ .never) {a : Advance}
    (h : a.At (.fixed k) plan endTime now base) (hdue : a.Due now) :
    (a.turn fun b => calcNextResetTime (.fixed k) b plan endTime).At (.fixed k) plan endTime now
      base := by
  refine ⟨.inr ⟨rfl, ?_⟩, rfl⟩
  obtain ⟨n, hn, ⟨⟨hbound, hlt⟩, -⟩⟩ := nextReset_least (k := k) hplan hfits hnever (At.base_or h)
  have hnext : a.next = untilEnd endTime n := h.2.trans (calcNextResetTime_eq hn)
  obtain ⟨hpos, hle⟩ := hdue
  have heq : untilEnd endTime n = n ∧ (0 < endTime → n ≤ endTime) := by
    rw [hnext] at hpos
    unfold untilEnd at hpos ⊢
    split_ifs at hpos ⊢ with hend
    · omega
    · exact ⟨rfl, fun he => by omega⟩
  change a.next ∈ passed (.fixed k) plan endTime now base
  rw [hnext, heq.1] at hle ⊢
  have hge : base ≤ a.base := (At.base_or h).elim (fun h => h.ge) fun h => h.1.le
  exact ⟨hbound, by omega, hle, heq.2⟩

/-- **The loop ends at the last boundary that has passed**, and the reset time that it leaves is
the first boundary ahead. -/
theorem advance_latest (hplan : plan.ResetAccepted) (hfits : plan.ResetFits)
    (hnever : normalizeResetPeriod plan.quotaResetPeriod ≠ .never) (hbase : 0 ≤ base) :
    ∃ a, advance (fun b => calcNextResetTime (.fixed k) b plan endTime) now base = some a ∧
      (a.advanced = false → a.base = base ∧ passed (.fixed k) plan endTime now base = ∅) ∧
      (a.advanced = true →
        IsGreatest (passed (.fixed k) plan endTime now base) a.base ∧
          IsNext (.fixed k) plan endTime now base a.next) := by
  -- the reset times move forward, so the loop ends
  have hforward : ∀ b, calcNextResetTime (.fixed k) b plan endTime = 0 ∨
      b < calcNextResetTime (.fixed k) b plan endTime := by
    intro b
    obtain ⟨n, hn, ⟨-, hlt⟩, -⟩ := nextReset_least (k := k) (b := b) hplan hfits hnever (.inl rfl)
    rw [calcNextResetTime_eq hn]
    unfold untilEnd
    split_ifs
    · exact .inl rfl
    · exact .inr hlt
  obtain ⟨a, ha⟩ := advance_of_forward now base hforward
  have hat : a.At (.fixed k) plan endTime now base :=
    Machine.invariant_of_loop (I := Advance.At (.fixed k) plan endTime now base)
      (fun a hdue hI => At.turn hplan hfits hnever hI hdue) ⟨.inl ⟨rfl, rfl⟩, rfl⟩ ha
  have hdone : ¬ a.Due now := (advance_spec ha).2
  obtain ⟨n, hn, ⟨⟨hbound, hlt⟩, hleast⟩⟩ :=
    nextReset_least (k := k) hplan hfits hnever (At.base_or hat)
  have hnext : a.next = untilEnd endTime n := hat.2.trans (calcNextResetTime_eq hn)
  have hge : base ≤ a.base := (At.base_or hat).elim (fun h => h.ge) fun h => h.1.le
  -- the boundary ahead is past the end or later than now
  have hahead : 0 < endTime ∧ endTime < n ∨ a.next = n ∧ now < n := by
    unfold untilEnd at hnext
    split_ifs at hnext with hend
    · exact .inl hend
    · refine .inr ⟨hnext, ?_⟩
      by_contra hle
      exact hdone ⟨by omega, by omega⟩
  -- no boundary that has passed lies beyond the place of the loop
  have hlast : ∀ t ∈ passed (.fixed k) plan endTime now base, t ≤ a.base := by
    rintro t ⟨htbound, -, htnow, htend⟩
    by_contra hbeyond
    have hnt : n ≤ t := hleast ⟨htbound, not_le.1 hbeyond⟩
    rcases hahead with ⟨hpos, hend⟩ | ⟨-, hnow⟩
    · have := htend hpos
      omega
    · omega
  refine ⟨a, ha, fun hadv => ?_, fun hadv => ?_⟩
  · have hhere : a.base = base := by
      rcases hat.1 with ⟨-, h⟩ | ⟨h, -⟩
      · exact h
      · rw [hadv] at h
        cases h
    refine ⟨hhere, Set.eq_empty_iff_forall_notMem.2 fun t ht => ?_⟩
    have := hlast t ht
    have := ht.2.1
    omega
  · have hpassed : a.base ∈ passed (.fixed k) plan endTime now base := by
      rcases hat.1 with ⟨h, -⟩ | ⟨-, h⟩
      · rw [hadv] at h
        cases h
      · exact h
    have hnow' : a.base ≤ now := hpassed.2.2.1
    refine ⟨⟨hpassed, hlast⟩, ?_⟩
    rcases hahead with ⟨hpos, hend⟩ | ⟨hsame, hnow⟩
    · refine .inr ⟨by rw [hnext, untilEnd, if_pos ⟨hpos, hend⟩], hpos, fun t htbound htnow => ?_⟩
      exact hend.trans_le (hleast ⟨htbound, hnow'.trans_lt htnow⟩)
    · rw [hsame]
      refine .inl ⟨⟨⟨hbound, hnow⟩, fun t ht => hleast ⟨ht.1, hnow'.trans_lt ht.2⟩⟩, fun hpos => ?_⟩
      by_contra hend
      rw [hnext, untilEnd, if_pos ⟨hpos, not_le.1 hend⟩] at hsame
      omega

end Loop

/-! ### The reset of a row -/

section Row

variable {plan : SubscriptionPlan} {k now : ℤ} {sub row : UserSubscription}

/-- A second reset at the same time changes nothing. -/
theorem maybeReset_again {loc : Location} {saved : Bool}
    (h : maybeResetUserSubscriptionWithPlan loc sub plan now = .ok (row, saved)) :
    maybeResetUserSubscriptionWithPlan loc row plan now = .ok (row, false) := by
  obtain ⟨rfl, rfl⟩ | ⟨a, ha, rfl, ⟨hadv, rfl⟩ | ⟨hadv, hzero, rfl⟩⟩ := maybeReset_cases h
  · exact h
  · -- after a reset the base is where the loop ended, and the reset time there has not come
    have hpos := (advance_base_ne ha hadv).1
    have hdone := (advance_spec ha).2
    have hnext : a.next = calcNextResetTime loc a.base plan sub.endTime := by
      have hdue := (advance_spec ha).1.1 hadv
      rw [advance_of_due (f := fun b => calcNextResetTime loc b plan sub.endTime) hdue] at ha
      exact Machine.invariant_of_loop
        (I := fun a : Advance => a.next = calcNextResetTime loc a.base plan sub.endTime)
        (fun _ _ _ => rfl) rfl ha
    have hstay : advance (fun b => calcNextResetTime loc b plan sub.endTime) now a.base =
        some ⟨a.base, a.next, false⟩ := by
      rw [advance_of_not_due (f := fun b => calcNextResetTime loc b plan sub.endTime), ← hnext]
      rw [← hnext]
      exact hdone
    have hbase : UserSubscription.resetBase
        { sub with amountUsed := 0, lastResetTime := a.base, nextResetTime := a.next } =
        a.base := by
      rw [UserSubscription.resetBase, if_neg (not_le.2 hpos)]
    unfold maybeResetUserSubscriptionWithPlan
    rw [hbase]
    simp only [hstay, Bool.false_eq_true, if_false]
    split_ifs with h₁ h₂ h₃
    · rfl
    · rfl
    · exact absurd h₃.2 (by rw [h₃.1]; exact lt_irrefl 0)
    · rfl
  · have hdone := (advance_spec ha).2
    unfold maybeResetUserSubscriptionWithPlan at h ⊢
    by_cases hpos : 0 < a.next
    · rw [if_pos]
      exact ⟨hpos, by by_contra hle; exact hdone ⟨hpos, not_lt.1 hle⟩⟩
    · exfalso
      rw [hzero, if_neg (by simp), ha] at h
      simp only [hadv, Bool.false_eq_true, if_false, if_neg (not_and_of_not_right _ hpos)] at h
      split_ifs at h
      · cases (Prod.mk.inj (Except.ok.inj h)).2
      · cases (Prod.mk.inj (Except.ok.inj h)).2

/-- **What a reset leaves of a subscription**, of a plan that the administrator could set up and
whose custom period a `Duration` holds.  It returns, and a second one at the same time changes
nothing.  A subscription with a reset time still to come is left as it is.  Otherwise, if no
boundary has passed before the end, what is used up stays so; if some have, nothing is used up, and
the two reset times are the last of these and the first boundary to come. -/
theorem maybeReset_spec (k now : ℤ) (sub : UserSubscription) (plan : SubscriptionPlan)
    (hplan : plan.ResetAccepted) (hfits : plan.ResetFits) (hbase : 0 ≤ sub.resetBase) :
    ∃ row saved, maybeResetUserSubscriptionWithPlan (.fixed k) sub plan now = .ok (row, saved) ∧
      maybeResetUserSubscriptionWithPlan (.fixed k) row plan now = .ok (row, false) ∧
      (now < sub.nextResetTime → 0 < sub.nextResetTime → row = sub) ∧
      (¬ (0 < sub.nextResetTime ∧ now < sub.nextResetTime) →
        (passed (.fixed k) plan sub.endTime now sub.resetBase = ∅ →
          row.amountUsed = sub.amountUsed) ∧
        ((passed (.fixed k) plan sub.endTime now sub.resetBase).Nonempty →
          row.amountUsed = 0 ∧
          IsGreatest (passed (.fixed k) plan sub.endTime now sub.resetBase) row.lastResetTime ∧
          IsNext (.fixed k) plan sub.endTime now sub.resetBase row.nextResetTime)) := by
  suffices hrow : ∃ row saved,
      maybeResetUserSubscriptionWithPlan (.fixed k) sub plan now = .ok (row, saved) ∧
      (now < sub.nextResetTime → 0 < sub.nextResetTime → row = sub) ∧
      (¬ (0 < sub.nextResetTime ∧ now < sub.nextResetTime) →
        (passed (.fixed k) plan sub.endTime now sub.resetBase = ∅ →
          row.amountUsed = sub.amountUsed) ∧
        ((passed (.fixed k) plan sub.endTime now sub.resetBase).Nonempty →
          row.amountUsed = 0 ∧
          IsGreatest (passed (.fixed k) plan sub.endTime now sub.resetBase) row.lastResetTime ∧
          IsNext (.fixed k) plan sub.endTime now sub.resetBase row.nextResetTime)) by
    obtain ⟨row, saved, hrun, hspec⟩ := hrow
    exact ⟨row, saved, hrun, maybeReset_again hrun, hspec⟩
  by_cases hlater : 0 < sub.nextResetTime ∧ now < sub.nextResetTime
  · refine ⟨sub, false, ?_, fun _ _ => rfl, fun h => absurd hlater h⟩
    rw [maybeResetUserSubscriptionWithPlan, if_pos hlater]
  by_cases hnever : normalizeResetPeriod plan.quotaResetPeriod = .never
  · refine ⟨sub, false, ?_, fun h₁ h₂ => absurd ⟨h₂, h₁⟩ hlater, fun _ => ⟨fun _ => rfl, ?_⟩⟩
    · rw [maybeResetUserSubscriptionWithPlan, if_neg hlater, if_pos hnever]
    · rintro ⟨t, hbound, -⟩
      simp only [IsBoundary, hnever] at hbound
  obtain ⟨a, ha, hstay, hmoved⟩ :=
    @advance_latest plan k sub.endTime now _ hplan hfits hnever hbase
  have hrun : maybeResetUserSubscriptionWithPlan (.fixed k) sub plan now =
      if a.advanced then
        .ok ({ sub with amountUsed := 0, lastResetTime := a.base, nextResetTime := a.next }, true)
      else if sub.nextResetTime = 0 ∧ 0 < a.next then
        .ok ({ sub with nextResetTime := a.next, lastResetTime := a.base }, true)
      else .ok (sub, false) := by
    rw [maybeResetUserSubscriptionWithPlan, if_neg hlater, if_neg hnever, ha]
  cases hadv : a.advanced with
  | true =>
    obtain ⟨hgreatest, hnext⟩ := hmoved hadv
    refine ⟨_, _, hrun.trans (if_pos hadv), fun h₁ h₂ => absurd ⟨h₂, h₁⟩ hlater,
      fun _ => ⟨fun hnone => ?_, fun _ => ⟨rfl, hgreatest, hnext⟩⟩⟩
    rw [hnone] at hgreatest
    exact absurd hgreatest.1 (Set.notMem_empty _)
  | false =>
    obtain ⟨-, hnone⟩ := hstay hadv
    have hidle := hrun.trans (if_neg (by simp [hadv]))
    have hempty : ¬ (passed (.fixed k) plan sub.endTime now sub.resetBase).Nonempty := by
      rw [hnone]
      exact Set.not_nonempty_empty
    by_cases hset : sub.nextResetTime = 0 ∧ 0 < a.next
    · exact ⟨_, _, hidle.trans (if_pos hset),
        fun h₁ h₂ => absurd ⟨h₂, h₁⟩ hlater, fun _ => ⟨fun _ => rfl, fun h => absurd h hempty⟩⟩
    · exact ⟨_, _, hidle.trans (if_neg hset),
        fun _ _ => rfl, fun _ => ⟨fun _ => rfl, fun h => absurd h hempty⟩⟩

end Row

/-! ### Four subscriptions -/

/-- A plan that is reset daily, or every so many seconds if `seconds` says so. -/
def resetPlan (seconds : Option ℤ) : SubscriptionPlan where
  id := 1
  title := "pro"
  priceAmount := .ofInt 10
  durationUnit := .month
  durationValue := 1
  customSeconds := 0
  enabled := true
  allowBalancePay := none
  allowWalletOverflow := none
  maxPurchasePerUser := 0
  upgradeGroup := ""
  downgradeGroup := ""
  totalAmount := 1000
  quotaResetPeriod := if seconds.isSome then "custom" else "daily"
  quotaResetCustomSeconds := seconds.getD 0

/-- A subscription with 7 units used up, never reset so far. -/
def usedSub (startTime endTime nextResetTime : ℤ) : UserSubscription where
  id := 1
  userId := 1
  planId := 1
  amountTotal := 1000
  amountUsed := 7
  startTime := startTime
  endTime := endTime
  status := .active
  source := "order"
  lastResetTime := 0
  nextResetTime := nextResetTime
  upgradeGroup := ""
  prevUserGroup := ""
  downgradeGroup := ""
  allowWalletOverflow := true

theorem maybeReset_spec_hour :
    ∃ row saved, maybeResetUserSubscriptionWithPlan (.fixed 28800) (usedSub 100 0 3700)
        (resetPlan (some 3600)) 8000 = .ok (row, saved) ∧
      maybeResetUserSubscriptionWithPlan (.fixed 28800) row (resetPlan (some 3600)) 8000 =
        .ok (row, false) ∧
      (8000 < (usedSub 100 0 3700).nextResetTime → 0 < (usedSub 100 0 3700).nextResetTime →
        row = usedSub 100 0 3700) ∧
      (¬ (0 < (usedSub 100 0 3700).nextResetTime ∧ 8000 < (usedSub 100 0 3700).nextResetTime) →
        (passed (.fixed 28800) (resetPlan (some 3600)) 0 8000 100 = ∅ → row.amountUsed = 7) ∧
        ((passed (.fixed 28800) (resetPlan (some 3600)) 0 8000 100).Nonempty →
          row.amountUsed = 0 ∧
          IsGreatest (passed (.fixed 28800) (resetPlan (some 3600)) 0 8000 100)
            row.lastResetTime ∧
          IsNext (.fixed 28800) (resetPlan (some 3600)) 0 8000 100 row.nextResetTime)) :=
  maybeReset_spec 28800 8000 (usedSub 100 0 3700) (resetPlan (some 3600))
    (fun _ => by decide) (fun _ => by decide) (by decide)

/-- A reset time stored for later keeps a subscription from being reset at a boundary that has
passed; an end time of zero does not; before the epoch no boundary counts; and where the seconds of
a period wrap to no nanoseconds at all, the loop never ends. -/
theorem reset_otherwise :
    (IsBoundary .utc (resetPlan none) 100 86400 ∧
      maybeResetUserSubscriptionWithPlan .utc (usedSub 100 200000 90000) (resetPlan none) 86400 =
        .ok (usedSub 100 200000 90000, false)) ∧
    ((∀ t, t ≤ (usedSub 100 0 86400).endTime → ¬ (100 < t ∧ t ≤ 86400)) ∧
      maybeResetUserSubscriptionWithPlan .utc (usedSub 100 0 86400) (resetPlan none) 86400 =
        .ok ({ usedSub 100 0 172800 with amountUsed := 0, lastResetTime := 86400 }, true)) ∧
    (IsBoundary .utc (resetPlan none) (-100) 0 ∧
      maybeResetUserSubscriptionWithPlan .utc (usedSub (-100) 200000 0) (resetPlan none) 50 =
        .ok (usedSub (-100) 200000 0, false)) ∧
    maybeResetUserSubscriptionWithPlan .utc (usedSub 100 200000 0)
      (resetPlan (some 36028797018963968)) 200 = .error .diverges := by
  have hdaily : normalizeResetPeriod (resetPlan none).quotaResetPeriod = .daily := by
    decide +kernel
  have hcustom : normalizeResetPeriod (resetPlan (some 36028797018963968)).quotaResetPeriod =
      .custom := by decide +kernel
  refine ⟨⟨?_, rfl⟩, ⟨fun t ht => ?_, ?_⟩, ⟨?_, ?_⟩, ?_⟩
  · simp only [IsBoundary, hdaily]
    decide
  · change t ≤ 0 at ht
    omega
  · -- one turn, from midnight to midnight
    rw [maybeResetUserSubscriptionWithPlan, if_neg (by decide), if_neg (by rw [hdaily]; simp)]
    have hrun : advance (fun b => calcNextResetTime .utc b (resetPlan none)
        (usedSub 100 0 86400).endTime) 86400 (usedSub 100 0 86400).resetBase =
        some ⟨86400, 172800, true⟩ := by
      rw [advance_of_due (by decide +kernel)]
      exact Machine.loop_of_not (by decide +kernel)
    rw [hrun]
    rfl
  · simp only [IsBoundary, hdaily]
    decide
  · rw [maybeResetUserSubscriptionWithPlan, if_neg (by decide), if_neg (by rw [hdaily]; simp),
      advance_of_not_due (by decide +kernel)]
    rfl
  · have hstuck : advance (fun b => calcNextResetTime .utc b (resetPlan (some 36028797018963968))
        (usedSub 100 200000 0).endTime) 200 (usedSub 100 200000 0).resetBase = none := by
      refine (advance_none_iff .utc _ _ _ _).2 ⟨by decide, by decide, ?_⟩
      simp only [calcNextResetTime, nextReset, hcustom]
      decide
    rw [maybeResetUserSubscriptionWithPlan, if_neg (by decide), if_neg (by rw [hcustom]; simp),
      hstuck]

end NexusTok
