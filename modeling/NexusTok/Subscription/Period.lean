import NexusTok.Database.Basic
import NexusTok.Machine.Loop
import NexusTok.Time.Calendar

/-!
# Durations and reset periods of subscriptions

When a subscription ends (`calcPlanEndTime`), when its quota is next reset (`calcNextResetTime`),
and the reset itself, in its two forms: `maybeResetUserSubscriptionWithPlan` resets a subscription
whose time has come and moves the reset time past `now`, one period at a time;
`resetUserSubscription` is the administrator's reset.

`next_cases` sums up the next reset time as a function of the base it is computed from.  The
periods of the calendar move forward.  A custom period is a `Duration` in nanoseconds that wraps
at 64 bits, so that it may move forward, stand still or move backward; the loop of
`maybeResetUserSubscriptionWithPlan` ends unless it stands still inside `(0, now]`
(`advance_none_iff`).
-/

namespace NexusTok

open Machine Except

/-! ### Plans -/

def SubscriptionPlan.normalizeDefaults (plan : SubscriptionPlan) : SubscriptionPlan :=
  { plan with
    allowBalancePay := plan.allowBalancePay <|> some true
    allowWalletOverflow := plan.allowWalletOverflow <|> some true }

/-- `getSubscriptionPlanByIdTx`; the plan cache holds what the table holds. -/
def getSubscriptionPlanById (f : Faults) (db : DB) (id : ℤ) : Except Err SubscriptionPlan :=
  if id ≤ 0 then .error (.text "invalid plan id")
  else if f ⟨.find, .plans, id⟩ then .error (.db ⟨.find, .plans, id⟩)
  else
    match db.plan id with
    | none => .error errRecordNotFound
    | some plan => .ok plan.normalizeDefaults

theorem getSubscriptionPlanById_id {f : Faults} {db : DB} {id : ℤ} {plan : SubscriptionPlan}
    (h : getSubscriptionPlanById f db id = .ok plan) : plan.id = id := by
  unfold getSubscriptionPlanById at h
  split_ifs at h
  split at h
  · cases h
  · rename_i p hp
    rw [Except.ok.injEq] at h
    have hid : p.id = id := Table.get_key hp
    rw [← h]
    exact hid

/-! ### End and reset times -/

inductive ResetPeriod where
  | never | daily | weekly | monthly | custom
  deriving DecidableEq

def normalizeResetPeriod (period : String) : ResetPeriod :=
  let p := trimSpace period
  if p = "daily" then .daily
  else if p = "weekly" then .weekly
  else if p = "monthly" then .monthly
  else if p = "custom" then .custom
  else .never

def nanosPerHour : ℤ := 3600 * nanosPerSecond

def calcPlanEndTime (loc : Location) (start : ℤ) (plan : SubscriptionPlan) : Except Err ℤ :=
  if plan.durationValue ≤ 0 ∧ plan.durationUnit ≠ .custom then
    .error (.text "duration_value must be > 0")
  else
    match plan.durationUnit with
    | .year => .ok (loc.addMonths start (12 * plan.durationValue))
    | .month => .ok (loc.addMonths start plan.durationValue)
    | .day => .ok (addDuration start (wrap64 (plan.durationValue * 24 * nanosPerHour)))
    | .hour => .ok (addDuration start (wrap64 (plan.durationValue * nanosPerHour)))
    | .custom =>
      if plan.customSeconds ≤ 0 then .error (.text "custom_seconds must be > 0")
      else .ok (addDuration start (wrap64 (plan.customSeconds * nanosPerSecond)))
    | .other unit => .error (.text ("invalid duration_unit: " ++ unit))

/-- The `switch` of `calcNextResetTime`: the next reset after `base`, if the plan resets at all. -/
def nextReset (loc : Location) (base : ℤ) (plan : SubscriptionPlan) : Option ℤ :=
  match normalizeResetPeriod plan.quotaResetPeriod with
  | .never => none
  | .daily => some (loc.addDays (loc.startOfDay base) 1)
  | .weekly =>
    let wd := weekday (loc.day base)
    let wd := if wd = 0 then 7 else wd
    some (loc.addDays (loc.startOfDay base) (8 - wd))
  | .monthly => some (loc.addMonths (loc.startOfMonth base) 1)
  | .custom =>
    if plan.quotaResetCustomSeconds ≤ 0 then none
    else some (addDuration base (wrap64 (plan.quotaResetCustomSeconds * nanosPerSecond)))

def calcNextResetTime (loc : Location) (base : ℤ) (plan : SubscriptionPlan) (endUnix : ℤ) : ℤ :=
  match nextReset loc base plan with
  | none => 0
  | some next => if 0 < endUnix ∧ endUnix < next then 0 else next

/-! ### Resets -/

/-- The variables of the loop in `maybeResetUserSubscriptionWithPlanTx`. -/
structure Advance where
  base : ℤ
  next : ℤ
  advanced : Bool

/-- The condition of the loop: the reset time has been reached. -/
def Advance.Due (now : ℤ) (a : Advance) : Prop := 0 < a.next ∧ a.next ≤ now

instance (now : ℤ) : DecidablePred (Advance.Due now) := fun a =>
  inferInstanceAs (Decidable (0 < a.next ∧ a.next ≤ now))

/-- One turn of the loop, `f` being `calcNextResetTime` as a function of the base. -/
def Advance.turn (f : ℤ → ℤ) (a : Advance) : Advance := ⟨a.next, f a.next, true⟩

/-- The loop started at `base`.  Its reset times stay in `(0, now]`, so it has ended after `now`
turns or never does. -/
def advance (f : ℤ → ℤ) (now base : ℤ) : Option Advance :=
  loop (Advance.Due now) (Advance.turn f) now.toNat ⟨base, f base, false⟩

/-- The time the next reset of a subscription is counted from. -/
def UserSubscription.resetBase (sub : UserSubscription) : ℤ :=
  if sub.lastResetTime ≤ 0 then sub.startTime else sub.lastResetTime

/-- `maybeResetUserSubscriptionWithPlanTx`: the row it leaves, and whether it saved it. -/
def maybeResetUserSubscriptionWithPlan (loc : Location) (sub : UserSubscription)
    (plan : SubscriptionPlan) (now : ℤ) : Except Err (UserSubscription × Bool) :=
  if 0 < sub.nextResetTime ∧ now < sub.nextResetTime then .ok (sub, false)
  else if normalizeResetPeriod plan.quotaResetPeriod = .never then .ok (sub, false)
  else
    match advance (fun b => calcNextResetTime loc b plan sub.endTime) now sub.resetBase with
    | none => .error .diverges
    | some a =>
      if a.advanced then
        .ok ({ sub with amountUsed := 0, lastResetTime := a.base, nextResetTime := a.next }, true)
      else if sub.nextResetTime = 0 ∧ 0 < a.next then
        .ok ({ sub with nextResetTime := a.next, lastResetTime := a.base }, true)
      else .ok (sub, false)

/-- `resetUserSubscriptionTx`: the row an administrator's reset saves. -/
def resetUserSubscription (loc : Location) (sub : UserSubscription) (plan : SubscriptionPlan)
    (now : ℤ) (advanceResetTime : Bool) : UserSubscription :=
  if advanceResetTime then
    let next := calcNextResetTime loc now plan sub.endTime
    { sub with
      amountUsed := 0
      nextResetTime := next
      lastResetTime := if 0 < next then now else 0 }
  else { sub with amountUsed := 0 }

/-! ### How the next reset time moves -/

/-- The step of a custom period, in whole seconds. -/
def SubscriptionPlan.customStep (plan : SubscriptionPlan) : ℤ :=
  wrap64 (plan.quotaResetCustomSeconds * nanosPerSecond) / nanosPerSecond

theorem next_cases (loc : Location) (plan : SubscriptionPlan) (e : ℤ) :
    (∀ b, calcNextResetTime loc b plan e = 0 ∨ b < calcNextResetTime loc b plan e) ∨
      ∀ b, calcNextResetTime loc b plan e = 0 ∨
        calcNextResetTime loc b plan e = b + plan.customStep := by
  have hend : ∀ b n, nextReset loc b plan = some n → calcNextResetTime loc b plan e = 0 ∨
      calcNextResetTime loc b plan e = n := by
    intro b n hn
    simp only [calcNextResetTime, hn]
    split_ifs <;> simp
  have hnone : ∀ b, nextReset loc b plan = none → calcNextResetTime loc b plan e = 0 := by
    intro b hn
    simp only [calcNextResetTime, hn]
  -- the periods of the calendar: each gives an instant after the base
  have ahead : (∀ b, ∃ n, nextReset loc b plan = some n ∧ b < n) →
      ∀ b, calcNextResetTime loc b plan e = 0 ∨ b < calcNextResetTime loc b plan e := by
    intro h b
    obtain ⟨n, hn, hlt⟩ := h b
    rcases hend b n hn with h0 | h1
    · exact .inl h0
    · exact .inr (by rw [h1]; exact hlt)
  cases hp : normalizeResetPeriod plan.quotaResetPeriod with
  | never => exact .inl fun b => .inl (hnone b (by simp [nextReset, hp]))
  | daily =>
    exact .inl (ahead fun b => ⟨loc.addDays (loc.startOfDay b) 1, by simp only [nextReset, hp],
      Location.lt_nextDays (by omega)⟩)
  | weekly =>
    refine .inl (ahead fun b => ?_)
    have hwd : weekday (loc.day b) < 7 := by unfold weekday; omega
    refine ⟨_, by simp only [nextReset, hp]; rfl, Location.lt_nextDays ?_⟩
    split_ifs <;> omega
  | monthly =>
    exact .inl (ahead fun b => ⟨loc.addMonths (loc.startOfMonth b) 1, by simp only [nextReset, hp],
      Location.lt_nextMonth b⟩)
  | custom =>
    refine .inr fun b => ?_
    by_cases hs : plan.quotaResetCustomSeconds ≤ 0
    · exact .inl (hnone b (by simp [nextReset, hp, hs]))
    · rcases hend b (b + plan.customStep) (by simp [nextReset, hp, hs, addDuration,
        SubscriptionPlan.customStep]) with h0 | h1
      · exact .inl h0
      · exact .inr h1

theorem calcNextResetTime_never {loc : Location} {plan : SubscriptionPlan} {b e : ℤ}
    (h : normalizeResetPeriod plan.quotaResetPeriod = .never) :
    calcNextResetTime loc b plan e = 0 := by
  simp [calcNextResetTime, nextReset, h]

/-! ### The loop -/

section Advance

variable {f : ℤ → ℤ} {now base : ℤ}

theorem advance_of_not_due (h : ¬ (0 < f base ∧ f base ≤ now)) :
    advance f now base = some ⟨base, f base, false⟩ :=
  loop_of_not (c := Advance.Due now) h

theorem advance_of_due (h : 0 < f base ∧ f base ≤ now) :
    advance f now base =
      loop (Advance.Due now) (Advance.turn f) (now.toNat - 1) ⟨f base, f (f base), true⟩ := by
  have hpos : now.toNat = (now.toNat - 1) + 1 := by omega
  rw [advance, hpos]
  exact loop_succ (c := Advance.Due now) h

/-- A loop whose reset times move forward ends. -/
theorem advance_of_forward (now base : ℤ) (hf : ∀ b, f b = 0 ∨ b < f b) :
    ∃ a, advance f now base = some a := by
  -- either the loop condition fails at once, or `now - next` counts the turns left
  by_cases hd : 0 < f base ∧ f base ≤ now
  · refine loop_eq_some_of_variant (I := fun a => 0 < a.next ∨ a.next = 0)
      (fun a => if 0 < a.next then (now + 1 - a.next).toNat else 0) ?_ ?_ (.inl hd.1) ?_
    · rintro a ⟨ha, -⟩ -
      rcases hf a.next with h | h
      · exact .inr h
      · exact .inl (by simp only [Advance.turn]; omega)
    · rintro a ⟨ha, ha'⟩ -
      change (if 0 < f a.next then (now + 1 - f a.next).toNat else 0) <
        if 0 < a.next then (now + 1 - a.next).toNat else 0
      rw [if_pos ha]
      rcases hf a.next with h | h
      · rw [h, if_neg (by omega)]; omega
      · rw [if_pos (by omega)]; omega
    · simp only [hd.1, ↓reduceIte]; omega
  · exact ⟨_, advance_of_not_due hd⟩

/-- A loop whose reset times move backward ends. -/
theorem advance_of_backward (now base : ℤ) (hf : ∀ b, f b = 0 ∨ f b < b) :
    ∃ a, advance f now base = some a := by
  by_cases hd : 0 < f base ∧ f base ≤ now
  · refine loop_eq_some_of_variant (I := fun _ => True) (fun a => a.next.toNat) ?_ ?_ trivial ?_
    · exact fun _ _ _ => trivial
    · rintro a ⟨ha, -⟩ -
      simp only [Advance.turn]
      rcases hf a.next with h | h <;> omega
    · simp only; omega
  · exact ⟨_, advance_of_not_due hd⟩

/-- A loop whose reset time stands still inside `(0, now]` never ends. -/
theorem advance_of_fixed (hd : 0 < base ∧ base ≤ now) (hf : f base = base) :
    advance f now base = none := by
  refine loop_eq_none_of_invariant (I := fun a => a.next = base) ?_ ?_ hf _
  · rintro a ha
    exact ⟨by omega, by omega⟩
  · rintro a ha
    simp only [Advance.turn, ha, hf]

end Advance

/-- **When the loop never ends**: the next reset time is the base itself, and has been reached. -/
theorem advance_none_iff (loc : Location) (plan : SubscriptionPlan) (e now base : ℤ) :
    advance (fun b => calcNextResetTime loc b plan e) now base = none ↔
      0 < base ∧ base ≤ now ∧ calcNextResetTime loc base plan e = base := by
  constructor
  · intro h
    rcases next_cases loc plan e with hf | hf
    · obtain ⟨a, ha⟩ := advance_of_forward now base hf
      rw [h] at ha; cases ha
    · rcases lt_trichotomy plan.customStep 0 with hc | hc | hc
      · obtain ⟨a, ha⟩ := advance_of_backward now base
          (f := fun b => calcNextResetTime loc b plan e) fun b => by
            rcases hf b with h' | h'
            · exact .inl h'
            · exact .inr (by rw [h']; omega)
        rw [h] at ha; cases ha
      · -- a period that stands still: `f b` is `0` or `b`
        by_cases hd : 0 < calcNextResetTime loc base plan e ∧
            calcNextResetTime loc base plan e ≤ now
        · rcases hf base with h' | h'
          · omega
          · rw [hc, add_zero] at h'
            rw [h'] at hd
            exact ⟨hd.1, hd.2, h'⟩
        · rw [advance_of_not_due (f := fun b => calcNextResetTime loc b plan e) hd] at h
          cases h
      · obtain ⟨a, ha⟩ := advance_of_forward now base
          (f := fun b => calcNextResetTime loc b plan e) fun b => by
            rcases hf b with h' | h'
            · exact .inl h'
            · exact .inr (by rw [h']; omega)
        rw [h] at ha; cases ha
  · rintro ⟨h₁, h₂, h₃⟩
    exact advance_of_fixed ⟨h₁, h₂⟩ h₃

/-- What the loop leaves: it has advanced iff the first reset time had been reached, and then the
last one has not. -/
theorem advance_spec {f : ℤ → ℤ} {now base : ℤ} {a : Advance} (h : advance f now base = some a) :
    (a.advanced = true ↔ 0 < f base ∧ f base ≤ now) ∧ ¬ a.Due now := by
  refine ⟨?_, not_cond_of_loop h⟩
  by_cases hd : 0 < f base ∧ f base ≤ now
  · -- the first turn sets the flag, and no turn clears it
    rw [advance_of_due hd] at h
    have := invariant_of_loop (I := fun a => a.advanced = true) (fun _ _ _ => rfl) rfl h
    simp [this, hd]
  · rw [advance_of_not_due hd, Option.some.injEq] at h
    subst h
    simpa using hd

/-- Where the base of a loop that has advanced ends up: on the side `lt` of its start to which each
reset time lies of its own base. -/
theorem advance_base {f : ℤ → ℤ} {now base : ℤ} {a : Advance} (lt : ℤ → ℤ → Prop)
    (htrans : ∀ x y z, lt x y → lt y z → lt x z) (hf : ∀ b, f b = 0 ∨ lt b (f b))
    (h : advance f now base = some a) (hadv : a.advanced = true) : 0 < a.base ∧ lt base a.base := by
  have hdue := ((advance_spec h).1).1 hadv
  rw [advance_of_due hdue] at h
  have hfirst : lt base (f base) := (hf base).resolve_left (by omega)
  have hI := invariant_of_loop
    (I := fun a => 0 < a.base ∧ lt base a.base ∧ a.next = f a.base) ?_ ⟨hdue.1, hfirst, rfl⟩ h
  · exact ⟨hI.1, hI.2.1⟩
  · rintro a ⟨hpos, -⟩ ⟨-, hlt, hnext⟩
    refine ⟨hpos, htrans _ _ _ hlt ?_, rfl⟩
    rw [Advance.turn, hnext]
    exact (hf a.base).resolve_left (by omega)

/-- A loop that has advanced has moved the base off where it started. -/
theorem advance_base_ne {loc : Location} {plan : SubscriptionPlan} {e now base : ℤ} {a : Advance}
    (h : advance (fun b => calcNextResetTime loc b plan e) now base = some a)
    (hadv : a.advanced = true) : 0 < a.base ∧ a.base ≠ base := by
  have forward : (∀ b, calcNextResetTime loc b plan e = 0 ∨ b < calcNextResetTime loc b plan e) →
      0 < a.base ∧ a.base ≠ base := fun hf => by
    obtain ⟨hpos, hlt⟩ := advance_base (· < ·) (fun _ _ _ => lt_trans) hf h hadv
    exact ⟨hpos, hlt.ne'⟩
  rcases next_cases loc plan e with hf | hf
  · exact forward hf
  · rcases lt_trichotomy plan.customStep 0 with hc | hc | hc
    · obtain ⟨hpos, hlt⟩ := advance_base (· > ·) (fun _ _ _ => gt_trans)
        (fun b => (hf b).imp_right fun hb => by rw [hb]; omega) h hadv
      exact ⟨hpos, hlt.ne⟩
    · -- a period that stands still never comes out of the loop
      have hdue := ((advance_spec h).1).1 hadv
      have hfix : calcNextResetTime loc base plan e = base :=
        (hf base).elim (fun h0 => absurd h0 hdue.1.ne') fun h1 => by rw [h1, hc, add_zero]
      rw [hfix] at hdue
      rw [(advance_none_iff loc plan e now base).2 ⟨hdue.1, hdue.2, hfix⟩] at h
      cases h
    · exact forward fun b => (hf b).imp_right fun hb => by rw [hb]; omega

/-! ### The reset of a row -/

/-- Seen from the row: its last reset time has moved, and not just been filled in with the base. -/
def UserSubscription.periodReset (before after : UserSubscription) : Bool :=
  decide (after.lastResetTime ≠ before.lastResetTime ∧ after.lastResetTime ≠ before.resetBase)

section Reset

variable {loc : Location} {sub row : UserSubscription} {plan : SubscriptionPlan} {now : ℤ}
  {saved : Bool}

section

variable (h : maybeResetUserSubscriptionWithPlan loc sub plan now = .ok (row, saved))
include h

/-- What `maybeResetUserSubscriptionWithPlanTx` does when it returns: nothing; a reset; or, for a
subscription that had no reset time yet, setting one. -/
theorem maybeReset_cases :
    (row = sub ∧ saved = false) ∨
      ∃ a, advance (fun b => calcNextResetTime loc b plan sub.endTime) now sub.resetBase = some a ∧
        saved = true ∧
        (a.advanced = true ∧
            row = { sub with
              amountUsed := 0, lastResetTime := a.base, nextResetTime := a.next } ∨
          a.advanced = false ∧ sub.nextResetTime = 0 ∧
            row = { sub with nextResetTime := a.next, lastResetTime := a.base }) := by
  unfold maybeResetUserSubscriptionWithPlan at h
  split_ifs at h with h₁ h₂
  · obtain ⟨rfl, rfl⟩ := Prod.mk.inj (ok.inj h); exact .inl ⟨rfl, rfl⟩
  · obtain ⟨rfl, rfl⟩ := Prod.mk.inj (ok.inj h); exact .inl ⟨rfl, rfl⟩
  · split at h
    · cases h
    · rename_i a ha
      split_ifs at h with h₃ h₄
      · obtain ⟨rfl, rfl⟩ := Prod.mk.inj (ok.inj h)
        exact .inr ⟨a, ha, rfl, .inl ⟨h₃, rfl⟩⟩
      · obtain ⟨rfl, rfl⟩ := Prod.mk.inj (ok.inj h)
        exact .inr ⟨a, ha, rfl, .inr ⟨by simpa using h₃, h₄.1, rfl⟩⟩
      · obtain ⟨rfl, rfl⟩ := Prod.mk.inj (ok.inj h); exact .inl ⟨rfl, rfl⟩

theorem maybeReset_frame :
    row = { sub with
      amountUsed := row.amountUsed
      lastResetTime := row.lastResetTime
      nextResetTime := row.nextResetTime } := by
  obtain ⟨rfl, -⟩ | ⟨a, -, -, ⟨-, rfl⟩ | ⟨-, -, rfl⟩⟩ := maybeReset_cases h <;> rfl

theorem maybeReset_id : row.id = sub.id := by
  rw [maybeReset_frame h]

end

theorem maybeReset_unsaved
    (h : maybeResetUserSubscriptionWithPlan loc sub plan now = .ok (row, false)) : row = sub := by
  obtain ⟨rfl, -⟩ | ⟨a, -, hs, -⟩ := maybeReset_cases h
  · rfl
  · cases hs

/-- A reset sets the used amount to zero when the last reset time moves, and keeps it otherwise. -/
theorem maybeReset_amountUsed
    (h : maybeResetUserSubscriptionWithPlan loc sub plan now = .ok (row, saved)) :
    row.amountUsed = if sub.periodReset row then 0 else sub.amountUsed := by
  obtain ⟨rfl, -⟩ | ⟨a, ha, -, ⟨hadv, rfl⟩ | ⟨hadv, -, rfl⟩⟩ := maybeReset_cases h
  · simp [UserSubscription.periodReset]
  · obtain ⟨hpos, hne⟩ := advance_base_ne ha hadv
    have hmoved : a.base ≠ sub.lastResetTime := fun heq => hne (by
      rw [UserSubscription.resetBase, if_neg (by omega), heq])
    simp [UserSubscription.periodReset, hmoved, hne]
  · have hbase : a.base = sub.resetBase := by
      have hd := mt (advance_spec ha).1.2 (by simp [hadv])
      rw [advance_of_not_due (f := fun b => calcNextResetTime loc b plan sub.endTime) hd,
        Option.some.injEq] at ha
      rw [← ha]
    simp [UserSubscription.periodReset, hbase]

end Reset

end NexusTok
