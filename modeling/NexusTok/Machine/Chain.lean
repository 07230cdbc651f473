import Mathlib.Data.List.Basic
import Mathlib.Order.Basic

/-!
# Walks along a chain

A walk goes from an element to the next one, and remembers which ones it has visited.  It stops where
there is no next element, or where the next one has been visited.

* `chase_isSome` : a walk among finitely many elements stops; their number is enough fuel.
* `Together.place_eq` : two walks that find the same new elements stop at the same one.
* `Parted.place_ne` : where only one of them finds a new element, they do not.
-/

namespace NexusTok.Chain

open List

variable {α : Type*}

/-- How a walk stops. -/
inductive Stop (α : Type*) where
  /-- There is no next element. -/
  | last (a : α)
  /-- The next element has been visited. -/
  | back (a next : α)
  deriving DecidableEq

/-- Where a walk stops. -/
def Stop.place : Stop α → α
  | last a => a
  | back a _ => a

variable [DecidableEq α] (next : α → Option α)

/-- A walk, for at most so many moves. -/
def chase : ℕ → List α → α → Option (Stop α)
  | fuel, visited, a =>
    match next a with
    | none => some (.last a)
    | some b =>
      if b ∈ visited then some (.back a b)
      else
        match fuel with
        | 0 => none
        | fuel + 1 => chase fuel (b :: visited) b

/-- The next element, if it has not been visited. -/
def fresh (visited : List α) (a : α) : Option α :=
  (next a).filter fun b => decide (b ∉ visited)

variable {next} {visited : List α} {a b : α} {fuel : ℕ}

theorem fresh_eq_some : fresh next visited a = some b ↔ next a = some b ∧ b ∉ visited := by
  rw [fresh, Option.filter_eq_some_iff, decide_eq_true_iff]

/-- Where nothing new is found, the walk stops. -/
theorem chase_of_fresh_none (fuel : ℕ) (h : fresh next visited a = none) :
    ∃ s, chase next fuel visited a = some s ∧ s.place = a := by
  unfold chase
  cases hnext : next a with
  | none => exact ⟨.last a, rfl, rfl⟩
  | some b =>
    by_cases hb : b ∈ visited
    · exact ⟨.back a b, if_pos hb, rfl⟩
    · exact absurd (h.symm.trans (fresh_eq_some.2 ⟨hnext, hb⟩)) (Option.some_ne_none b).symm

theorem chase_of_fresh (h : fresh next visited a = some b) :
    chase next (fuel + 1) visited a = chase next fuel (b :: visited) b := by
  obtain ⟨hnext, hb⟩ := fresh_eq_some.1 h
  rw [chase, hnext]
  exact if_neg hb

theorem chase_zero_of_fresh (h : fresh next visited a = some b) :
    chase next 0 visited a = none := by
  obtain ⟨hnext, hb⟩ := fresh_eq_some.1 h
  rw [chase, hnext]
  exact if_neg hb

/-- **A walk among finitely many elements stops.** -/
theorem chase_isSome (elements : List α) (h : ∀ a b, next a = some b → b ∈ elements)
    (hfuel : (elements.filter fun b => decide (b ∉ visited)).length ≤ fuel) :
    ∃ s, chase next fuel visited a = some s := by
  induction fuel generalizing visited a with
  | zero =>
    cases hfresh : fresh next visited a with
    | none =>
      obtain ⟨s, hs, -⟩ := chase_of_fresh_none 0 hfresh
      exact ⟨s, hs⟩
    | some b =>
      obtain ⟨hnext, hb⟩ := fresh_eq_some.1 hfresh
      have hmem : b ∈ elements.filter fun b => decide (b ∉ visited) :=
        mem_filter.2 ⟨h a b hnext, decide_eq_true hb⟩
      rw [length_eq_zero_iff.1 (Nat.le_zero.1 hfuel)] at hmem
      exact absurd hmem not_mem_nil
  | succ fuel ih =>
    cases hfresh : fresh next visited a with
    | none =>
      obtain ⟨s, hs, -⟩ := chase_of_fresh_none (fuel + 1) hfresh
      exact ⟨s, hs⟩
    | some b =>
      obtain ⟨hnext, hb⟩ := fresh_eq_some.1 hfresh
      rw [chase_of_fresh hfresh]
      refine ih (Nat.le_of_lt_succ (Nat.lt_of_lt_of_le ?_ hfuel))
      -- the element that is visited now was not visited before
      have hrest : elements.filter (fun c => decide (c ∉ b :: visited)) =
          (elements.filter fun c => decide (c ∉ visited)).filter fun c => decide (c ≠ b) := by
        rw [filter_filter]
        refine filter_congr fun c _ => ?_
        simp only [mem_cons, not_or, ne_eq, Bool.decide_and]
      rw [hrest]
      refine length_filter_lt_length_iff_exists.2 ⟨b, ?_, by simp⟩
      exact mem_filter.2 ⟨h a b hnext, decide_eq_true hb⟩

/-- A walk stops where it starts, or at an element that had not been visited. -/
theorem place_notMem {s : Stop α} (h : chase next fuel visited a = some s) :
    s.place = a ∨ s.place ∉ visited := by
  induction fuel generalizing visited a with
  | zero =>
    cases hfresh : fresh next visited a with
    | none =>
      obtain ⟨s', hs', hplace⟩ := chase_of_fresh_none 0 hfresh
      rw [Option.some.inj (h.symm.trans hs')]
      exact Or.inl hplace
    | some b =>
      rw [chase_zero_of_fresh hfresh] at h
      cases h
  | succ fuel ih =>
    cases hfresh : fresh next visited a with
    | none =>
      obtain ⟨s', hs', hplace⟩ := chase_of_fresh_none (fuel + 1) hfresh
      rw [Option.some.inj (h.symm.trans hs')]
      exact Or.inl hplace
    | some b =>
      rw [chase_of_fresh hfresh] at h
      rcases ih h with hplace | hplace
      · rw [hplace]
        exact Or.inr (fresh_eq_some.1 hfresh).2
      · exact Or.inr fun hmem => hplace (mem_cons_of_mem b hmem)

/-! ### Two walks -/

/-- At every element, two walks find the same new element, or both find none. -/
inductive Together (next next' : α → Option α) : List α → α → Prop where
  | stop {visited : List α} {a : α} (h : fresh next visited a = none)
      (h' : fresh next' visited a = none) : Together next next' visited a
  | move {visited : List α} {a b : α} (h : fresh next visited a = some b)
      (h' : fresh next' visited a = some b) (rest : Together next next' (b :: visited) b) :
      Together next next' visited a

/-- Two walks find the same new elements until only one of them finds one. -/
inductive Parted (next next' : α → Option α) : List α → α → Prop where
  | left {visited : List α} {a b : α} (h : fresh next visited a = some b)
      (h' : fresh next' visited a = none) : Parted next next' visited a
  | right {visited : List α} {a b : α} (h : fresh next visited a = none)
      (h' : fresh next' visited a = some b) : Parted next next' visited a
  | move {visited : List α} {a b : α} (h : fresh next visited a = some b)
      (h' : fresh next' visited a = some b) (rest : Parted next next' (b :: visited) b) :
      Parted next next' visited a

variable {next' : α → Option α} {fuel' : ℕ} {s s' : Stop α}

/-- A walk that finds a new element goes on from it. -/
theorem chase_move (h : fresh next visited a = some b)
    (hs : chase next fuel visited a = some s) :
    ∃ rest, chase next rest (b :: visited) b = some s := by
  cases fuel with
  | zero =>
    rw [chase_zero_of_fresh h] at hs
    cases hs
  | succ fuel => exact ⟨fuel, (chase_of_fresh h).symm.trans hs⟩

/-- A walk that finds no new element stays. -/
theorem place_of_fresh_none (h : fresh next visited a = none)
    (hs : chase next fuel visited a = some s) : s.place = a := by
  obtain ⟨s', hs', hplace⟩ := chase_of_fresh_none fuel h
  rw [Option.some.inj (hs.symm.trans hs'), hplace]

/-- A walk that finds a new element does not come back. -/
theorem place_ne_of_fresh (h : fresh next visited a = some b) (ha : a ∈ visited)
    (hs : chase next fuel visited a = some s) : s.place ≠ a := by
  obtain ⟨rest, hrest⟩ := chase_move h hs
  rcases place_notMem hrest with hplace | hplace
  · rw [hplace]
    rintro rfl
    exact (fresh_eq_some.1 h).2 ha
  · rintro hback
    rw [hback] at hplace
    exact hplace (mem_cons_of_mem b ha)

/-- **Two walks that stay together stop at the same element.** -/
theorem Together.place_eq (h : Together next next' visited a)
    (hs : chase next fuel visited a = some s) (hs' : chase next' fuel' visited a = some s') :
    s.place = s'.place := by
  induction h generalizing fuel fuel' with
  | stop h h' => rw [place_of_fresh_none h hs, place_of_fresh_none h' hs']
  | move h h' _ ih =>
    obtain ⟨rest, hrest⟩ := chase_move h hs
    obtain ⟨rest', hrest'⟩ := chase_move h' hs'
    exact ih hrest hrest'

/-- **Two walks that part stop at different elements.** -/
theorem Parted.place_ne (h : Parted next next' visited a) (ha : a ∈ visited)
    (hs : chase next fuel visited a = some s) (hs' : chase next' fuel' visited a = some s') :
    s.place ≠ s'.place := by
  induction h generalizing fuel fuel' with
  | left h h' =>
    rw [place_of_fresh_none h' hs']
    exact place_ne_of_fresh h ha hs
  | right h h' =>
    rw [place_of_fresh_none h hs]
    exact (place_ne_of_fresh h' ha hs').symm
  | move h h' _ ih =>
    obtain ⟨rest, hrest⟩ := chase_move h hs
    obtain ⟨rest', hrest'⟩ := chase_move h' hs'
    exact ih mem_cons_self hrest hrest'

end NexusTok.Chain
