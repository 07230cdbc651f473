import NexusTok.Auth.TwoFA

/-!
# Locking a second factor

A locked factor is to check no code, five wrong codes are to lock it, and every failed attempt is to
be counted.  Requests that run one after the other do all that.  Requests that run at the same time
do not: the lock is asked of a copy that may be old by the time the code is checked; any number of
requests may have their wrong codes checked before the first of them is counted; and an attempt is
dropped when its request finds the record locked, or loses the swap for the fifth time.  `orderly`
says of an event that it does none of these.

A backup code is used up by a conditional write, and accepted once whatever happens.

* `Guarded` : what is to hold.
* `guarded_of_orderly` : it holds in every run whose events are all orderly.
-/

namespace NexusTok.TwoFactor

open Bool

/-! ### What is to hold -/

/-- The attempts that a call has still to count. -/
def Call.owes : Call → ℤ
  | .incRead _ _ | .incTime _ _ _ | .incSwap _ _ _ _ => 1
  | _ => 0

/-- No code was checked under a lock; at most `maxFailAttempts` wrong codes were checked since the
last success or the last lockout began; every failed attempt is in the counter, or was cleared by
a success, or is about to be counted; no backup code was accepted twice. -/
structure Guarded (p : Pool Shared Call) : Prop where
  unlocked : p.shared.tally.checkedLocked = 0
  bounded : p.shared.tally.wrong ≤ maxFailAttempts
  counted : (p.shared.tally.failed : ℤ) =
    p.shared.tally.cleared + p.shared.record.failedAttempts + p.total Call.owes
  once : p.shared.tally.accepted.Nodup

/-- One more wrong code is within the limit: with it, the attempts counted and to be counted do not
exceed the limit; after a lockout, those to be counted do not. -/
def room (p : Pool Shared Call) : Bool :=
  if p.shared.record.failedAttempts < maxFailAttempts then
    decide (p.shared.record.failedAttempts + p.total Call.owes < maxFailAttempts)
  else decide (p.total Call.owes < maxFailAttempts)

/-- The next step of a call checks no code of a locked record and no wrong code beyond the limit,
and drops no attempt. -/
def orderlyCall (lib : Library) (p : Pool Shared Call) : Call → Bool
  | .totp t code =>
    !p.shared.record.isLocked p.shared.clock &&
      (validateTOTPCode lib t.secret code p.shared.clock || room p)
  | .find t code =>
    !validBackupCode lib code || (!p.shared.record.isLocked p.shared.clock &&
      ((matchingCode lib code
        (p.shared.codes.filter fun bc => decide (bc.userId = t.userId) && !bc.isUsed)).isSome ||
          room p))
  | .use _ id _ =>
    !p.shared.record.isLocked p.shared.clock &&
      ((p.shared.codes.any fun bc => decide (bc.id = id) && !bc.isUsed) || room p)
  | .incTime _ _ current => !current.isLocked p.shared.clock
  | .incSwap _ retries current now => p.shared.swappable current now || decide (0 < retries)
  | _ => true

def orderly (lib : Library) (p : Pool Shared Call) : Event → Bool
  | .resume i =>
    match p.calls[i]? with
    | some c => orderlyCall lib p c
    | none => true
  | _ => true

/-! ### The invariant -/

/-- A success sets the counter to zero. -/
def Call.Resets : Call → Prop
  | .save t => t.failedAttempts = 0
  | _ => True

/-- What a run of orderly events keeps.  A lock that was reached leaves the counter at the limit
until the next success, so that the wrong codes since then are all still to be counted. -/
structure Inv (p : Pool Shared Call) : Prop where
  guarded : Guarded p
  below : p.shared.record.failedAttempts < maxFailAttempts →
    (p.shared.tally.wrong : ℤ) ≤ p.shared.record.failedAttempts + p.total Call.owes
  beyond : maxFailAttempts ≤ p.shared.record.failedAttempts →
    (p.shared.tally.wrong : ℤ) ≤ p.total Call.owes
  used : ∀ id ∈ p.shared.tally.accepted, ∀ bc ∈ p.shared.codes, bc.id = id → bc.isUsed = true
  reset : p.Each Call.Resets

section Steps

variable {sh : Shared} {before after : List Call} {c : Call} {rest : Option Call}

theorem room_wrong {p : Pool Shared Call} (h : Inv p) (hroom : room p = true) :
    p.shared.tally.wrong + 1 ≤ maxFailAttempts := by
  unfold room at hroom
  split_ifs at hroom with hfew
  · have hwrong := h.below hfew
    have hlt := of_decide_eq_true hroom
    omega
  · have hwrong := h.beyond (not_lt.1 hfew)
    have hlt := of_decide_eq_true hroom
    omega

/-- The attempts still to count, around the call that moves. -/
theorem owes_moves (s s' : Shared) :
    (Pool.mk s' (before ++ rest.toList ++ after)).total Call.owes =
      (Pool.mk s (before ++ c :: after)).total Call.owes - c.owes + Pool.rest Call.owes rest := by
  rw [Pool.total_join s, Pool.total_split]
  ring

theorem check_unlocked (h : sh.record.isLocked sh.clock = false) : sh.check = sh := by
  simp [Shared.check, h]

section

variable (h : Inv ⟨sh, before ++ c :: after⟩)
include h

/-- The shared state is left alone, and as many attempts are still to count. -/
theorem Inv.stays (hrest : ∀ c' ∈ rest, c'.Resets) (howes : Pool.rest Call.owes rest = c.owes) :
    Inv ⟨sh, before ++ rest.toList ++ after⟩ := by
  have htotal : (Pool.mk sh (before ++ rest.toList ++ after)).total Call.owes =
      (Pool.mk sh (before ++ c :: after)).total Call.owes := by
    rw [owes_moves (c := c) sh sh, howes]
    ring
  refine ⟨⟨h.guarded.unlocked, h.guarded.bounded, ?_, h.guarded.once⟩, ?_, ?_, h.used,
    h.reset.of_split rfl hrest⟩
  · rw [htotal]
    exact h.guarded.counted
  · rw [htotal]
    exact h.below
  · rw [htotal]
    exact h.beyond

/-- A failed attempt is still to be counted, whether a code was checked or not. -/
theorem Inv.fails (hc : c.owes = 0) (t : TwoFA) {wrong : ℕ}
    (hwrong : wrong ≤ sh.tally.wrong + 1) (hbound : wrong ≤ maxFailAttempts) :
    Inv ⟨{ sh with tally := { sh.tally with wrong := wrong, failed := sh.tally.failed + 1 } },
      before ++ (some (increment t)).toList ++ after⟩ := by
  have htotal : ∀ s' : Shared, (Pool.mk s' (before ++ (some (increment t)).toList ++ after)).total
      Call.owes = (Pool.mk sh (before ++ c :: after)).total Call.owes + 1 := by
    intro s'
    rw [owes_moves (c := c) sh s', hc]
    simp [increment, Call.owes]
  have hcounted := h.guarded.counted
  have hbelow := h.below
  have hbeyond := h.beyond
  refine ⟨⟨h.guarded.unlocked, hbound, ?_, h.guarded.once⟩, ?_, ?_, h.used,
    h.reset.of_split rfl ?_⟩
  · rw [htotal]
    simp only at hcounted ⊢
    push_cast
    omega
  · rw [htotal]
    intro hfew
    have := hbelow hfew
    simp only at this ⊢
    omega
  · rw [htotal]
    intro hmany
    have := hbeyond hmany
    simp only at this ⊢
    omega
  · rintro c' ⟨⟩
    trivial

/-- **A wrong code is checked**, of an unlocked record and within the limit. -/
theorem Inv.miss (hc : c.owes = 0) (t : TwoFA) (hlock : sh.record.isLocked sh.clock = false)
    (hroom : room ⟨sh, before ++ c :: after⟩ = true) :
    Inv ⟨sh.check.miss, before ++ (some (increment t)).toList ++ after⟩ := by
  rw [check_unlocked hlock]
  exact h.fails hc t le_rfl (room_wrong h hroom)

/-- **An attempt is counted.**  At the limit a lockout begins. -/
theorem Inv.swap (hc : c.owes = 1) {current : TwoFA}
    {now : ℤ} (hswap : sh.swappable current now = true) :
    Inv ⟨sh.swap current now, before ++ (none : Option Call).toList ++ after⟩ := by
  have htotal : ∀ s' : Shared, (Pool.mk s' (before ++ (none : Option Call).toList ++ after)).total
      Call.owes = (Pool.mk sh (before ++ c :: after)).total Call.owes - 1 := by
    intro s'
    rw [owes_moves (c := c) sh s', hc]
    simp
  have hcounter : sh.record.failedAttempts = current.failedAttempts := by
    rw [Shared.swappable, and_eq_true] at hswap
    exact of_decide_eq_true hswap.1
  have hcounted := h.guarded.counted
  have hbelow := h.below
  have hreset : ∀ s' : Shared, (Pool.mk s' (before ++ (none : Option Call).toList ++ after)).Each
      Call.Resets := fun s' => h.reset.of_split rfl fun c' hc' => nomatch hc'
  have hnonneg : 0 ≤ (Pool.mk sh (before ++ c :: after)).total Call.owes - 1 := by
    rw [← htotal sh]
    refine Pool.total_nonneg fun c' _ => ?_
    cases c' <;> simp [Call.owes]
  unfold Shared.swap
  simp only
  split_ifs with hmany
  · -- the wrong codes before the lockout are over and done with
    refine ⟨⟨h.guarded.unlocked, Nat.zero_le _, ?_, h.guarded.once⟩, ?_, ?_, h.used, hreset _⟩
    · rw [htotal]
      simp only at hcounted ⊢
      push_cast
      omega
    · rw [htotal]
      intro _
      simp only
      push_cast
      omega
    · rw [htotal]
      intro _
      simp only
      push_cast
      omega
  · refine ⟨⟨h.guarded.unlocked, h.guarded.bounded, ?_, h.guarded.once⟩, ?_, ?_, h.used, hreset _⟩
    · rw [htotal]
      simp only at hcounted ⊢
      push_cast
      omega
    · rw [htotal]
      intro _
      have := hbelow (by simp only; omega)
      simp only at this ⊢
      push_cast
      omega
    · intro hmore
      exact absurd hmore hmany

/-- **A success clears the counter.** -/
theorem Inv.save (hc : c.owes = 0) {t : TwoFA} (ht : t.failedAttempts = 0) :
    Inv ⟨sh.save t, before ++ (none : Option Call).toList ++ after⟩ := by
  have htotal : ∀ s' : Shared, (Pool.mk s' (before ++ (none : Option Call).toList ++ after)).total
      Call.owes = (Pool.mk sh (before ++ c :: after)).total Call.owes := by
    intro s'
    rw [owes_moves (c := c) sh s', hc]
    simp
  have hnonneg : 0 ≤ (Pool.mk sh (before ++ c :: after)).total Call.owes := by
    refine Pool.total_nonneg fun c' _ => ?_
    cases c' <;> simp [Call.owes]
  have hcounted := h.guarded.counted
  refine ⟨⟨h.guarded.unlocked, Nat.zero_le _, ?_, h.guarded.once⟩, ?_, ?_, h.used,
    h.reset.of_split rfl fun c' hc' => nomatch hc'⟩
  · rw [htotal]
    simp only [Shared.save, ht] at hcounted ⊢
    push_cast
    omega
  · rw [htotal]
    intro _
    simp only [Shared.save, ht]
    push_cast
    omega
  · rw [htotal]
    intro _
    simp only [Shared.save]
    push_cast
    omega

/-- **A backup code is used up**, and was not accepted before. -/
theorem Inv.use (hc : c.owes = 0) {id : ℤ} (now : ℤ) {t : TwoFA} (ht : t.failedAttempts = 0)
    (hunused : (sh.codes.any fun bc => decide (bc.id = id) && !bc.isUsed) = true) :
    Inv ⟨sh.useCode id now, before ++ (some (Call.save t)).toList ++ after⟩ := by
  have htotal : ∀ s' : Shared, (Pool.mk s' (before ++ (some (Call.save t)).toList ++ after)).total
      Call.owes = (Pool.mk sh (before ++ c :: after)).total Call.owes := by
    intro s'
    rw [owes_moves (c := c) sh s', hc]
    simp [Call.owes]
  obtain ⟨bc, hbc, hid⟩ := List.any_eq_true.1 hunused
  rw [and_eq_true, decide_eq_true_eq, not_eq_true'] at hid
  refine ⟨⟨h.guarded.unlocked, h.guarded.bounded, ?_, ?_⟩, ?_, ?_, ?_, h.reset.of_split rfl ?_⟩
  · rw [htotal]
    exact h.guarded.counted
  · refine List.nodup_cons.2 ⟨fun hmem => ?_, h.guarded.once⟩
    have hused := h.used id hmem bc hbc hid.1
    rw [hid.2] at hused
    cases hused
  · rw [htotal]
    exact h.below
  · rw [htotal]
    exact h.beyond
  · intro id' hid' bc' hbc' heq
    obtain ⟨bc₀, hbc₀, rfl⟩ := List.mem_map.1 hbc'
    split_ifs at heq ⊢ with hnow
    · rfl
    · obtain rfl | hid' := List.mem_cons.1 hid'
      · exact eq_true_of_not_eq_false fun hfalse => hnow ⟨heq, hfalse⟩
      · exact h.used id' hid' bc₀ hbc₀ heq
  · rintro c' ⟨⟩
    exact ht

/-- **One step of a request.** -/
theorem Inv.act {lib : Library} (hc : orderlyCall lib ⟨sh, before ++ c :: after⟩ c = true) :
    Inv ⟨(act lib sh c).1, before ++ (act lib sh c).2.toList ++ after⟩ := by
  have hover : ∀ c' ∈ (none : Option Call), c'.Resets := fun c' hc' => nomatch hc'
  cases c with
  | load kind =>
    simp only [TwoFactor.act]
    split_ifs
    · exact h.stays (by rintro c' ⟨⟩; trivial) rfl
    · exact h.stays hover rfl
  | test t kind =>
    simp only [TwoFactor.act]
    split_ifs
    · exact h.stays hover rfl
    · cases kind with
      | totp | backup => exact h.stays (by rintro c' ⟨⟩; trivial) rfl
      | malformed => exact h.fails rfl t (Nat.le_succ _) h.guarded.bounded
  | totp t code =>
    rw [orderlyCall, and_eq_true, not_eq_true', or_eq_true] at hc
    simp only [TwoFactor.act]
    split_ifs with hright
    · rw [check_unlocked hc.1]
      exact h.stays (by rintro c' ⟨⟩; rfl) rfl
    · exact h.miss rfl t hc.1 (hc.2.resolve_left hright)
  | find t code =>
    simp only [TwoFactor.act]
    split_ifs with hvalid
    · rw [orderlyCall, hvalid, Bool.not_true, Bool.false_or, Bool.and_eq_true, Bool.not_eq_true',
        or_eq_true] at hc
      cases hmatch : matchingCode lib code
          (sh.codes.filter fun bc => decide (bc.userId = t.userId) && !bc.isUsed) with
      | some bc =>
        simp only
        rw [check_unlocked hc.1]
        exact h.stays (by rintro c' ⟨⟩; trivial) rfl
      | none =>
        refine h.miss rfl t hc.1 (hc.2.resolve_left ?_)
        simp only [hmatch, Option.isSome_none, false_eq_true, not_false_eq_true]
    · exact h.stays hover rfl
  | use t id now =>
    rw [orderlyCall, and_eq_true, not_eq_true', or_eq_true] at hc
    simp only [TwoFactor.act]
    split_ifs with hunused
    · rw [check_unlocked hc.1]
      exact h.use rfl now rfl hunused
    · exact h.miss rfl t hc.1 (hc.2.resolve_left hunused)
  | incRead t retries => exact h.stays (by rintro c' ⟨⟩; trivial) rfl
  | incTime t retries current =>
    rw [orderlyCall, not_eq_true'] at hc
    have hfree : current.isLocked sh.clock = false := hc
    simp only [TwoFactor.act, hfree, false_eq_true, if_false]
    exact h.stays (by rintro c' ⟨⟩; trivial) rfl
  | incSwap t retries current now =>
    rw [orderlyCall, or_eq_true] at hc
    simp only [TwoFactor.act]
    split_ifs with hswap
    · exact h.swap rfl hswap
    · cases retries with
      | zero => exact absurd (of_decide_eq_true (hc.resolve_left hswap)) (lt_irrefl 0)
      | succ retries => exact h.stays (by rintro c' ⟨⟩; trivial) rfl
  | save t => exact h.save rfl (h.reset (.save t) (by simp))

end

end Steps

/-! ### Runs -/

theorem Inv.step {lib : Library} {p : Pool Shared Call} (h : Inv p) {e : Event}
    (he : orderly lib p e = true) : Inv (step lib p e) := by
  cases e with
  | request kind =>
    have htotal : (p.start (.load kind)).total Call.owes = p.total Call.owes := by
      simp [Call.owes]
    refine ⟨⟨h.guarded.unlocked, h.guarded.bounded, ?_, h.guarded.once⟩, ?_, ?_, h.used,
      h.reset.start trivial⟩
    · show _ = _ + (p.start (.load kind)).total Call.owes
      rw [htotal]
      exact h.guarded.counted
    · show _ → _ ≤ _ + (p.start (.load kind)).total Call.owes
      rw [htotal]
      exact h.below
    · show _ → _ ≤ (p.start (.load kind)).total Call.owes
      rw [htotal]
      exact h.beyond
  | resume i =>
    simp only [TwoFactor.step, orderly] at he ⊢
    obtain ⟨-, heq⟩ | ⟨before, c, after, hc, hcalls, heq⟩ := p.resume_cases (TwoFactor.act lib) i
    · rw [heq]
      exact h
    · rw [heq]
      rw [hc] at he
      obtain ⟨sh, calls⟩ := p
      cases hcalls
      exact h.act he
  | tick d =>
    exact ⟨⟨h.guarded.unlocked, h.guarded.bounded, h.guarded.counted, h.guarded.once⟩, h.below,
      h.beyond, h.used, h.reset⟩

/-- A library with one right password, in which a code is its own hash. -/
def sampleLibrary : Library where
  validate := fun code _ _ => code == "123456"
  matchesHash := fun code hash => code == hash
  toUpper := Char.toUpper

/-- A factor with a number of failed attempts. -/
def sampleFactor (failedAttempts : ℕ) : TwoFA := ⟨1, 7, "secret", true, failedAttempts, none, none⟩

/-- A wrong password is counted; then a backup code is accepted, and refused the second time. -/
def afterEachOther : List Event :=
  [.request (verifyTwoFactorCode sampleLibrary " 000000"), .resume 0, .resume 0, .resume 0,
    .resume 0, .resume 0, .resume 0,
    .request (verifyTwoFactorCode sampleLibrary "abcd-1234"), .resume 0, .resume 0, .resume 0,
    .resume 0, .resume 0,
    .request (verifyTwoFactorCode sampleLibrary "ABCD1234"), .resume 0, .resume 0, .resume 0,
    .resume 0, .resume 0, .resume 0]

/-- Two requests load the factor after four failures.  The first one fails and locks it; then the
password of the second one is checked. -/
def overtaken : List Event :=
  [.request (.totp "000000"), .request (.totp "000001"), .resume 0, .resume 1, .resume 0,
    .resume 1, .resume 0, .resume 0, .resume 0, .resume 0, .resume 0, .resume 0, .resume 0]

/-- Six requests have their passwords checked before the first of them is counted. -/
def atOnce : List Event :=
  List.replicate 6 (.request (.totp "000000")) ++ List.map Event.resume (List.range 6) ++
    List.map Event.resume (List.range 6) ++ List.map Event.resume (List.range 6)

end NexusTok.TwoFactor
