import Mathlib.Logic.Basic
import Mathlib.Data.Nat.Notation

/-!
# Loops that may not end

`loop c f fuel a` runs `while c a { a = f a }` for at most `fuel` turns and returns the
last state, or `none` if the loop is still running then.  The loop ends when some fuel suffices
(`Ends`).

* `Ends.of_variant` : a natural number that falls in every turn bounds the number of turns, and is
  itself enough fuel (`loop_eq_some_of_variant`).
* `loop_eq_none_of_invariant` : a loop that stays inside its own condition never ends.
-/

namespace NexusTok.Machine

variable {α : Type*} (c : α → Prop) [DecidablePred c] (f : α → α)

/-- At most `fuel` turns of the loop. -/
def loop (fuel : ℕ) (a : α) : Option α :=
  if c a then
    match fuel with
    | 0 => none
    | k + 1 => loop k (f a)
  else some a

/-- The loop ends when started in `a`. -/
def Ends (a : α) : Prop := ∃ fuel b, loop c f fuel a = some b

variable {c f}

theorem loop_of_not {fuel : ℕ} {a : α} (h : ¬ c a) : loop c f fuel a = some a := by
  unfold loop
  rw [if_neg h]

theorem loop_succ {fuel : ℕ} {a : α} (h : c a) : loop c f (fuel + 1) a = loop c f fuel (f a) := by
  rw [loop, if_pos h]

/-- The loop leaves in a state outside its condition. -/
theorem not_cond_of_loop {fuel : ℕ} {a b : α} (h : loop c f fuel a = some b) : ¬ c b := by
  induction fuel generalizing a with
  | zero =>
    unfold loop at h
    split at h
    · cases h
    · simp only [Option.some.injEq] at h
      subst h; assumption
  | succ k ih =>
    by_cases hc : c a
    · rw [loop_succ hc] at h; exact ih h
    · rw [loop_of_not hc, Option.some.injEq] at h
      subst h; exact hc

/-- What every turn keeps holds when the loop leaves. -/
theorem invariant_of_loop {I : α → Prop} (hI : ∀ a, c a → I a → I (f a)) {fuel : ℕ}
    {a b : α} (h₀ : I a) (h : loop c f fuel a = some b) : I b := by
  induction fuel generalizing a with
  | zero =>
    unfold loop at h
    split at h
    · cases h
    · simp only [Option.some.injEq] at h
      subst h; exact h₀
  | succ k ih =>
    by_cases hc : c a
    · rw [loop_succ hc] at h; exact ih (hI a hc h₀) h
    · rw [loop_of_not hc, Option.some.injEq] at h
      subst h; exact h₀

/-- A variant that falls in every turn is enough fuel. -/
theorem loop_eq_some_of_variant {I : α → Prop} (v : α → ℕ)
    (hI : ∀ a, c a → I a → I (f a)) (hv : ∀ a, c a → I a → v (f a) < v a) {a : α}
    (h₀ : I a) {fuel : ℕ} (hf : v a ≤ fuel) : ∃ b, loop c f fuel a = some b := by
  induction fuel generalizing a with
  | zero =>
    by_cases hc : c a
    · have := hv a hc h₀; omega
    · exact ⟨a, loop_of_not hc⟩
  | succ k ih =>
    by_cases hc : c a
    · rw [loop_succ hc]
      have := hv a hc h₀
      exact ih (hI a hc h₀) (by omega)
    · exact ⟨a, loop_of_not hc⟩

theorem Ends.of_variant {I : α → Prop} (v : α → ℕ) (hI : ∀ a, c a → I a → I (f a))
    (hv : ∀ a, c a → I a → v (f a) < v a) {a : α} (h₀ : I a) : Ends c f a :=
  ⟨v a, loop_eq_some_of_variant v hI hv h₀ (Nat.le_refl _)⟩

/-- A loop that stays inside its own condition never ends. -/
theorem loop_eq_none_of_invariant {I : α → Prop} (hc : ∀ a, I a → c a)
    (hI : ∀ a, I a → I (f a)) {a : α} (h₀ : I a) (fuel : ℕ) :
    loop c f fuel a = none := by
  induction fuel generalizing a with
  | zero =>
    unfold loop
    rw [if_pos (hc a h₀)]
  | succ k ih =>
    rw [loop_succ (hc a h₀)]
    exact ih (hI a h₀)

end NexusTok.Machine
