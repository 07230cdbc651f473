import Mathlib.Algebra.Order.BigOperators.Group.List
import Mathlib.Tactic.Ring
import NexusTok.Machine.Run

/-!
# Calls in flight over a shared state

Concurrent callers are modelled by a *pool*: the shared state and the list of the calls in flight,
each of them at some point of its program.  A call moves by one atomic step, which may change the
shared state, and then stands at another point or has returned.  An interleaving is a run that
resumes the calls in any order.

* `Pool.resume_cases` : resuming a call replaces it in place and touches no other call.
* `Pool.Each.of_split`, `Pool.total_split`, `Pool.total_join` : what that means for a property of
  every call, and for a sum over the calls.
-/

namespace NexusTok

open List

/-- A shared state and the calls in flight. -/
structure Pool (σ κ : Type*) where
  shared : σ
  calls : List κ
  deriving DecidableEq

namespace Pool

variable {σ κ : Type*}

/-- A new call, at the end of the list. -/
def start (p : Pool σ κ) (c : κ) : Pool σ κ := { p with calls := p.calls ++ [c] }

/-- The `i`-th call takes one step.  Nothing happens when there is no such call. -/
def resume (act : σ → κ → σ × Option κ) (p : Pool σ κ) (i : ℕ) : Pool σ κ :=
  match p.calls[i]? with
  | none => p
  | some c =>
    { shared := (act p.shared c).1
      calls := p.calls.take i ++ (act p.shared c).2.toList ++ p.calls.drop (i + 1) }

/-- The shared state changes under the calls. -/
def outside (f : σ → σ) (p : Pool σ κ) : Pool σ κ := { p with shared := f p.shared }

/-- Every call in flight meets `P`. -/
def Each (P : κ → Prop) (p : Pool σ κ) : Prop := ∀ c ∈ p.calls, P c

/-- The sum of a weight over the calls in flight. -/
def total (w : κ → ℤ) (p : Pool σ κ) : ℤ := (p.calls.map w).sum

@[simp] theorem start_shared (p : Pool σ κ) (c : κ) : (p.start c).shared = p.shared := rfl

@[simp] theorem outside_shared (f : σ → σ) (p : Pool σ κ) : (p.outside f).shared = f p.shared := rfl

/-- **Resuming a call.**  Either there is no such call, or it is replaced in place by what its step
leaves of it. -/
theorem resume_cases (act : σ → κ → σ × Option κ) (p : Pool σ κ) (i : ℕ) :
    (p.calls[i]? = none ∧ p.resume act i = p) ∨
      ∃ before c after, p.calls[i]? = some c ∧ p.calls = before ++ c :: after ∧
        p.resume act i = ⟨(act p.shared c).1, before ++ (act p.shared c).2.toList ++ after⟩ := by
  cases hc : p.calls[i]? with
  | none => exact Or.inl ⟨rfl, by simp only [resume, hc]⟩
  | some c =>
    refine Or.inr ⟨p.calls.take i, c, p.calls.drop (i + 1), rfl, ?_, by simp only [resume, hc]⟩
    obtain ⟨hi, rfl⟩ := List.getElem?_eq_some_iff.1 hc
    rw [getElem_cons_drop, take_append_drop]

/-! ### A property of every call -/

theorem Each.imp {P Q : κ → Prop} {p : Pool σ κ} (h : p.Each P) (hPQ : ∀ c, P c → Q c) :
    p.Each Q :=
  fun c hc => hPQ c (h c hc)

theorem Each.start {P : κ → Prop} {p : Pool σ κ} (h : p.Each P) {c : κ} (hc : P c) :
    (p.start c).Each P := by
  intro c' hc'
  rcases mem_append.1 hc' with h' | h'
  · exact h c' h'
  · rw [mem_singleton.1 h']
    exact hc

/-- A property of every call is kept when what the step leaves of the call that moves has it. -/
theorem Each.of_split {P : κ → Prop} {p : Pool σ κ} {s : σ} {before after : List κ} {c : κ}
    {rest : Option κ} (h : p.Each P) (hcalls : p.calls = before ++ c :: after)
    (hrest : ∀ c' ∈ rest, P c') : (Pool.mk s (before ++ rest.toList ++ after)).Each P := by
  intro c' hc'
  rcases mem_append.1 hc' with hc' | hc'
  · rcases mem_append.1 hc' with hc' | hc'
    · exact h c' (by simp [hcalls, hc'])
    · exact hrest c' (Option.mem_toList.1 hc')
  · exact h c' (by simp [hcalls, hc'])

/-! ### Sums over the calls -/

/-- The weight of what a step leaves of a call. -/
def rest (w : κ → ℤ) (c : Option κ) : ℤ := (c.map w).getD 0

@[simp] theorem rest_none (w : κ → ℤ) : rest w none = 0 := rfl

@[simp] theorem rest_some (w : κ → ℤ) (c : κ) : rest w (some c) = w c := rfl

@[simp] theorem total_start (w : κ → ℤ) (p : Pool σ κ) (c : κ) :
    (p.start c).total w = p.total w + w c := by
  simp [total, start]

@[simp] theorem total_outside (w : κ → ℤ) (f : σ → σ) (p : Pool σ κ) :
    (p.outside f).total w = p.total w := rfl

theorem total_nonneg {w : κ → ℤ} {p : Pool σ κ} (h : p.Each fun c => 0 ≤ w c) : 0 ≤ p.total w := by
  refine sum_nonneg fun x hx => ?_
  obtain ⟨c, hc, rfl⟩ := mem_map.1 hx
  exact h c hc

/-- **Sums around the call that moves.**  The sum over the calls is the weight of the call that
moves and what the others contribute, before and after its step. -/
theorem total_split {w : κ → ℤ} {s : σ} {before after : List κ} {c : κ} :
    (Pool.mk s (before ++ c :: after)).total w = w c + (Pool.mk s (before ++ after)).total w := by
  simp only [total, map_append, map_cons, sum_append, sum_cons]
  ring

theorem total_join {w : κ → ℤ} {s : σ} (s' : σ) {before after : List κ} {c : Option κ} :
    (Pool.mk s (before ++ c.toList ++ after)).total w =
      rest w c + (Pool.mk s' (before ++ after)).total w := by
  cases c with
  | none => simp [rest, total]
  | some c =>
    simp only [total, Option.toList_some, map_append, map_cons, map_nil,
      sum_append, sum_cons, sum_nil, rest_some]
    ring

end Pool

end NexusTok
