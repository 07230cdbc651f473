import NexusTok.Text.Basic

/-!
# Splitting and joining

`strings.Split` at one character and `strings.Join` with it.

* `intercalate_split` : joining what was split gives the text.
* `split_intercalate` : what is joined is split into the pieces of its parts.
-/

namespace NexusTok

open List

theorem not_mem_splitOn (c : Char) (l : List Char) : ∀ part ∈ l.splitOn c, c ∉ part := by
  induction l with
  | nil => simp
  | cons d l ih =>
    rw [splitOn_cons_eq_if_modifyHead]
    by_cases h : d = c
    · simpa [h] using ih
    · rw [if_neg (by simpa using h)]
      cases hs : l.splitOn c with
      | nil => exact absurd hs (splitOn_ne_nil c l)
      | cons x xs =>
        rw [hs] at ih
        obtain ⟨hx, hxs⟩ := forall_mem_cons.mp ih
        rw [modifyHead_cons, forall_mem_cons]
        exact ⟨by simp [Ne.symm h, hx], hxs⟩

theorem not_mem_of_mem_split {c : Char} {s part : String} (h : part ∈ split c s) :
    c ∉ part.toList := by
  obtain ⟨l, hl, rfl⟩ := mem_map.1 h
  rw [String.toList_ofList]
  exact not_mem_splitOn c s.toList l hl

theorem split_ne_nil (c : Char) (s : String) : split c s ≠ [] :=
  mt map_eq_nil_iff.1 (splitOn_ne_nil c s.toList)

theorem split_of_not_mem {c : Char} {s : String} (h : c ∉ s.toList) : split c s = [s] := by
  rw [split, splitOn_eq_singleton h, map_singleton, String.ofList_toList]

theorem flatMap_split {c : Char} {parts : List String} (h : ∀ part ∈ parts, c ∉ part.toList) :
    parts.flatMap (split c) = parts := by
  rw [flatMap_congr fun part hpart => split_of_not_mem (h part hpart)]
  exact flatMap_singleton' parts

theorem intercalate_cons (sep s : String) {parts : List String} (h : parts ≠ []) :
    sep.intercalate (s :: parts) = s ++ sep ++ sep.intercalate parts := by
  rw [← String.toList_inj, String.toList_intercalate, map_cons,
    intercalate_cons_of_ne_nil (by simpa using h), String.toList_append, String.toList_append,
    String.toList_intercalate]

section Separator

variable {c : Char} {sep : String} (hsep : sep.toList = [c])
include hsep

theorem split_append (s t : String) : split c (s ++ sep ++ t) = split c s ++ split c t := by
  have hlist : (s ++ sep ++ t).toList = s.toList ++ c :: t.toList := by
    simp [String.toList_append, hsep]
  rw [split, hlist, splitOn_append_cons_self, map_append]
  rfl

/-- **What is joined** is split into the pieces of its parts. -/
theorem split_intercalate {parts : List String} (h : parts ≠ []) :
    split c (sep.intercalate parts) = parts.flatMap (split c) := by
  induction parts with
  | nil => exact absurd rfl h
  | cons part parts ih =>
    cases parts with
    | nil => rw [String.intercalate_singleton, flatMap_singleton]
    | cons part' parts =>
      rw [intercalate_cons sep part (cons_ne_nil _ _), split_append hsep,
        ih (cons_ne_nil _ _), ← flatMap_cons]

/-- **Joining what was split** gives the text. -/
theorem intercalate_split (s : String) : sep.intercalate (split c s) = s := by
  apply String.toList_inj.1
  have hid : String.toList ∘ String.ofList = id := by
    funext part
    exact String.toList_ofList
  rw [String.toList_intercalate, split, map_map, hid, map_id, hsep]
  exact intercalate_splitOn c

end Separator

end NexusTok
