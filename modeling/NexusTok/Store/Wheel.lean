import Mathlib.Data.Finset.Interval
import Mathlib.Data.List.TakeDrop
import Mathlib.Order.Interval.Finset.Nat

/-!
# A draw by weight

A wheel whose sectors are the entries of a list, each as wide as its weight.  A number is drawn below
the sum of the weights; a walk along the list subtracts the weights from it, and stops at the entry
that uses it up.

* `walk_eq_some_iff` : where the walk stops, by the weights before it.
* `card_walk` : an entry is stopped at for as many numbers as its weight says.
* `getElem?_eq_some_iff_card` : a place in a list that falls strictly is the number of entries above.
-/

namespace NexusTok

namespace Wheel

open List

variable {α : Type*} (weight : α → ℤ)

/-- The sum of the weights that count. -/
def total : List α → ℤ
  | [] => 0
  | a :: l => (if weight a ≤ 0 then 0 else weight a) + total l

/-- The place where the value is used up. -/
def walk (value : ℤ) : List α → Option ℕ
  | [] => none
  | a :: l => if value - weight a < 0 then some 0 else (walk (value - weight a) l).map (· + 1)

variable {weight}

theorem total_nonneg (weight : α → ℤ) (l : List α) : 0 ≤ total weight l := by
  induction l with
  | nil => exact le_refl 0
  | cons a l ih =>
    rw [total]
    split_ifs <;> omega

theorem total_cons {a : α} (h : 0 ≤ weight a) (l : List α) :
    total weight (a :: l) = weight a + total weight l := by
  rw [total]
  split_ifs <;> omega

variable {l : List α}

theorem total_eq_zero_iff (h : ∀ a ∈ l, 0 ≤ weight a) :
    total weight l = 0 ↔ ∀ a ∈ l, weight a = 0 := by
  induction l with
  | nil => simp [total]
  | cons a l ih =>
    have ha := h a mem_cons_self
    have hl := total_nonneg weight l
    have ih := ih fun b hb => h b (mem_cons_of_mem a hb)
    rw [total_cons ha, forall_mem_cons, ← ih]
    omega

/-- **Where the walk stops**: at the entry whose sector the value is in. -/
theorem walk_eq_some_iff (h : ∀ a ∈ l, 0 ≤ weight a) {value : ℤ} (hv : 0 ≤ value) {k : ℕ} :
    walk weight value l = some k ↔ ∃ a, l[k]? = some a ∧ total weight (l.take k) ≤ value ∧
      value < total weight (l.take k) + weight a := by
  induction l generalizing value k with
  | nil => simp [walk]
  | cons a l ih =>
    have ha : 0 ≤ weight a := h a mem_cons_self
    rw [walk]
    cases k with
    | zero =>
      have hmap : ∀ o : Option ℕ, o.map (· + 1) ≠ some 0 := by
        intro o ho
        cases o <;> simp at ho
      simp only [getElem?_cons_zero, take_zero, total, Option.some.injEq, exists_eq_left']
      split_ifs with hlt
      · simp only [true_iff]
        omega
      · simp only [hmap, false_iff]
        omega
    | succ k =>
      simp only [getElem?_cons_succ, take_succ_cons, total_cons ha]
      split_ifs with hlt
      · -- the value is used up before
        have hbefore := total_nonneg weight (l.take k)
        simp only [Option.some.injEq, Nat.right_eq_add, Nat.add_eq_zero_iff, one_ne_zero, and_false,
          false_iff, not_exists, not_and]
        intro b _ hle
        omega
      · have hrest := ih (fun b hb => h b (mem_cons_of_mem a hb))
          (show 0 ≤ value - weight a by omega) (k := k)
        rw [Option.map_eq_some_iff]
        simp only [Nat.add_right_cancel_iff, exists_eq_right, hrest]
        refine exists_congr fun b => and_congr_right fun _ => ?_
        omega

/-- The walk stops inside the list. -/
theorem lt_length_of_walk {value : ℤ} {k : ℕ} (h : walk weight value l = some k) :
    k < l.length := by
  induction l generalizing value k with
  | nil => cases h
  | cons a l ih =>
    rw [walk] at h
    split_ifs at h with hlt
    · rw [← Option.some.inj h]
      exact Nat.succ_pos _
    · obtain ⟨j, hj, rfl⟩ := Option.map_eq_some_iff.1 h
      exact Nat.succ_lt_succ (ih hj)

/-- A value below the sum is used up. -/
theorem walk_isSome (h : ∀ a ∈ l, 0 ≤ weight a) {value : ℤ} (hv : 0 ≤ value)
    (hlt : value < total weight l) : ∃ k, walk weight value l = some k := by
  induction l generalizing value with
  | nil =>
    rw [total] at hlt
    omega
  | cons a l ih =>
    have ha : 0 ≤ weight a := h a mem_cons_self
    rw [total_cons ha] at hlt
    rw [walk]
    split_ifs with hstop
    · exact ⟨0, rfl⟩
    · obtain ⟨k, hk⟩ := ih (fun b hb => h b (mem_cons_of_mem a hb))
        (show 0 ≤ value - weight a by omega) (by omega)
      exact ⟨k + 1, by rw [hk]; rfl⟩

/-- The sectors up to an entry, and its own, are part of the wheel. -/
theorem total_take_add_le (h : ∀ a ∈ l, 0 ≤ weight a) {k : ℕ} {a : α}
    (hk : l[k]? = some a) : total weight (l.take k) + weight a ≤ total weight l := by
  induction l generalizing k with
  | nil => simp at hk
  | cons b l ih =>
    have hb : 0 ≤ weight b := h b mem_cons_self
    have hl := total_nonneg weight l
    rw [total_cons hb]
    cases k with
    | zero =>
      obtain rfl : b = a := Option.some.inj hk
      rw [take_zero, total]
      omega
    | succ k =>
      have hrest := ih (fun c hc => h c (mem_cons_of_mem b hc)) hk
      rw [take_succ_cons, total_cons hb]
      omega

/-- **An entry is stopped at for as many numbers as its weight says.** -/
theorem card_walk (h : ∀ a ∈ l, 0 ≤ weight a) {k : ℕ} {a : α} (hk : l[k]? = some a) :
    (((Finset.range (total weight l).toNat).filter fun v : ℕ =>
      walk weight v l = some k).card : ℤ) = weight a := by
  have hbefore := total_nonneg weight (l.take k)
  have hwithin := total_take_add_le h hk
  have ha : 0 ≤ weight a := h a (mem_of_getElem? hk)
  -- the sector of the entry
  have hsector : (Finset.range (total weight l).toNat).filter (fun v : ℕ =>
      walk weight v l = some k) = Finset.Ico (total weight (l.take k)).toNat
        (total weight (l.take k) + weight a).toNat := by
    ext v
    have hstop : walk weight v l = some k ↔ total weight (l.take k) ≤ v ∧
        v < total weight (l.take k) + weight a := by
      rw [walk_eq_some_iff h (Int.natCast_nonneg v), hk]
      simp
    rw [Finset.mem_filter, Finset.mem_range, Finset.mem_Ico, hstop]
    omega
  rw [hsector, Nat.card_Ico]
  omega

end Wheel

/-- **A place in a list that falls strictly** is the number of entries above it. -/
theorem getElem?_eq_some_iff_card {β : Type*} [LinearOrder β] {l : List β}
    (hl : l.Pairwise (· > ·)) {r : ℕ} {x : β} :
    l[r]? = some x ↔ x ∈ l ∧ (l.toFinset.filter (x < ·)).card = r := by
  induction l generalizing r with
  | nil => simp
  | cons a l ih =>
    obtain ⟨hhead, htail⟩ := List.pairwise_cons.1 hl
    have hnot : a ∉ l := fun ha => lt_irrefl a (hhead a ha)
    -- the head is above all the others, and nothing is above the head
    have htop : (List.toFinset (a :: l)).filter (a < ·) = ∅ := by
      refine Finset.filter_eq_empty_iff.2 fun y hy => not_lt.2 ?_
      rcases List.mem_cons.1 (List.mem_toFinset.1 hy) with rfl | hy
      · exact le_refl _
      · exact (hhead y hy).le
    have hbelow : x ∈ l → ((List.toFinset (a :: l)).filter (x < ·)).card =
        (l.toFinset.filter (x < ·)).card + 1 := by
      intro hx
      rw [List.toFinset_cons, Finset.filter_insert, if_pos (hhead x hx),
        Finset.card_insert_of_notMem]
      intro ha
      exact hnot (List.mem_toFinset.1 (Finset.mem_filter.1 ha).1)
    cases r with
    | zero =>
      rw [List.getElem?_cons_zero, Option.some.injEq]
      constructor
      · rintro rfl
        exact ⟨List.mem_cons_self, by rw [htop, Finset.card_empty]⟩
      · rintro ⟨hx, hcard⟩
        rcases List.mem_cons.1 hx with rfl | hx
        · rfl
        · rw [hbelow hx] at hcard
          exact absurd hcard (Nat.succ_ne_zero _)
    | succ r =>
      rw [List.getElem?_cons_succ, ih htail, List.mem_cons]
      constructor
      · rintro ⟨hx, hcard⟩
        exact ⟨Or.inr hx, by rw [hbelow hx, hcard]⟩
      · rintro ⟨rfl | hx, hcard⟩
        · rw [htop, Finset.card_empty] at hcard
          exact absurd hcard.symm (Nat.succ_ne_zero _)
        · rw [hbelow hx] at hcard
          exact ⟨hx, Nat.succ.inj hcard⟩

end NexusTok
