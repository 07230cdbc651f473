import Mathlib.Logic.Basic

/-!
# Transactions

A transaction body reads a state and either fails or proposes a result together with the state it
would leave (`Body`).  `atomically` runs a body against the committed state: a body that fails, or
a commit that fails, leaves the committed state alone.

A transaction opened inside another one, on its own connection, commits independently: it is run
by `atomically` in the middle of the outer body, and what it committed stays when the outer body
fails.  Such a body therefore threads the committed state by hand and is not a `Body`.
-/

namespace NexusTok

/-- What a transaction does: fail, or propose a result and a new state. -/
abbrev Body (σ ε α : Type*) := σ → Except ε (α × σ)

namespace Body

variable {σ ε α : Type*}

/-- Run a transaction against the committed state `s`.  `commitErr` is the error of the final
commit, if it fails. -/
def atomically (commitErr : Option ε) (body : Body σ ε α) (s : σ) : Except ε α × σ :=
  match body s with
  | .error e => (.error e, s)
  | .ok (a, s') =>
    match commitErr with
    | some e => (.error e, s)
    | none => (.ok a, s')

/-- A body that succeeds is committed, when the commit succeeds. -/
theorem atomically_of_ok {body : Body σ ε α} {s s' : σ} {a : α} (h : body s = .ok (a, s')) :
    atomically none body s = (.ok a, s') := by
  rw [atomically, h]

/-- Whatever a transaction does, it either left the state alone or left what its body proposed. -/
theorem atomically_cases (c : Option ε) (body : Body σ ε α) (s : σ) :
    (∃ e, atomically c body s = (.error e, s)) ∨
      ∃ a s', c = none ∧ body s = .ok (a, s') ∧ atomically c body s = (.ok a, s') := by
  unfold atomically
  cases hb : body s with
  | error e => exact .inl ⟨e, rfl⟩
  | ok r =>
    obtain ⟨a, s'⟩ := r
    cases c with
    | some e => exact .inl ⟨e, rfl⟩
    | none => exact .inr ⟨a, s', rfl, rfl, rfl⟩

end Body

end NexusTok
