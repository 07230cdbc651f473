import Mathlib.Algebra.GroupWithZero.Nat
import NexusTok.Text.Affix
import NexusTok.Text.Split

/-!
# Replacing and listing

`strings.ReplaceAll`, and comma lists: what `strings.Split` and `strings.Join` do to a text that is
a list.

* `replaceAll_joinComma` : replacing a text that has no comma works on each member of a list.
* `commaTokens_joinComma` : the tokens of a joined list are the tokens of its members.
* `length_lt_replaceFrom` : a replacement that is longer than what it replaces makes a text longer,
  if it replaces anything.
-/

namespace NexusTok

open List

/-! ### Replacement -/

/-- The loop of `strings.ReplaceAll` for a text that is not empty; the counter says how much of an
occurrence is still to be passed over. -/
def replaceFrom (old new : List Char) : Nat → List Char → List Char
  | _, [] => []
  | n + 1, _ :: cs => replaceFrom old new n cs
  | 0, c :: cs =>
    if old.isPrefixOf (c :: cs) then new ++ replaceFrom old new (old.length - 1) cs
    else c :: replaceFrom old new 0 cs

/-- `strings.ReplaceAll`. -/
def replaceAll (s old new : String) : String :=
  String.ofList (replaceFrom old.toList new.toList 0 s.toList)

/-- Whether a text occurs in another. -/
def occursIn (old : List Char) : List Char → Bool
  | [] => old.isEmpty
  | c :: cs => old.isPrefixOf (c :: cs) || occursIn old cs

/-- `strings.Contains`. -/
def containsText (s old : String) : Bool := occursIn old.toList s.toList

section Replace

variable {old new : List Char} {sep : Char}

theorem isPrefixOf_append_sep (hsep : sep ∉ old) (l r : List Char) :
    old.isPrefixOf (l ++ sep :: r) = old.isPrefixOf l := by
  induction old generalizing l with
  | nil => simp
  | cons o old ih =>
    rw [mem_cons, not_or] at hsep
    cases l with
    | nil => simp [List.isPrefixOf, Ne.symm hsep.1]
    | cons c l => simp [List.isPrefixOf, ih hsep.2 l]

theorem length_le_of_isPrefixOf {l : List Char} (h : old.isPrefixOf l = true) :
    old.length ≤ l.length :=
  ( isPrefixOf_iff_prefix.1 h).length_le

/-- A replacement does not cross a separator that the replaced text does not have. -/
theorem replaceFrom_append_sep (hsep : sep ∉ old) (r : List Char) :
    ∀ (l : List Char) (n : Nat), n ≤ l.length →
      replaceFrom old new n (l ++ sep :: r) =
        replaceFrom old new n l ++ replaceFrom old new 0 (sep :: r) := by
  intro l
  induction l with
  | nil =>
    intro n hn
    obtain rfl : n = 0 := Nat.le_zero.1 hn
    simp [replaceFrom]
  | cons c l ih =>
    intro n hn
    cases n with
    | succ n =>
      simp only [cons_append, replaceFrom]
      exact ih n (Nat.le_of_succ_le_succ hn)
    | zero =>
      have hcross := isPrefixOf_append_sep hsep (c :: l) r
      simp only [cons_append] at hcross ⊢
      simp only [replaceFrom, hcross]
      by_cases hp : old.isPrefixOf (c :: l) = true
      · -- what is passed over ends before the separator
        have hlen : old.length - 1 ≤ l.length := by
          have := length_le_of_isPrefixOf hp
          simp only [length_cons] at this
          omega
        rw [if_pos hp, if_pos hp, ih _ hlen, append_assoc]
        simp [replaceFrom]
      · rw [if_neg hp, if_neg hp, ih 0 (Nat.zero_le _)]
        simp [replaceFrom]

/-- The separator itself stays. -/
theorem replaceFrom_sep (hsep : sep ∉ old) (hne : old ≠ []) (r : List Char) :
    replaceFrom old new 0 (sep :: r) = sep :: replaceFrom old new 0 r := by
  have h : old.isPrefixOf (sep :: r) = false := by
    cases old with
    | nil => exact absurd rfl hne
    | cons o old =>
      rw [mem_cons, not_or] at hsep
      simp [List.isPrefixOf, Ne.symm hsep.1]
  simp [replaceFrom, h]

theorem replaceFrom_of_not_occurs : ∀ {l : List Char}, occursIn old l = false →
    replaceFrom old new 0 l = l
  | [], _ => rfl
  | c :: l, h => by
    simp only [occursIn, Bool.or_eq_false_iff] at h
    simp [replaceFrom, h.1, replaceFrom_of_not_occurs h.2]

/-- A longer replacement never makes a text shorter; `n` of the old text are passed over. -/
theorem length_replaceFrom_le (hlen : old.length < new.length) (hne : old ≠ []) :
    ∀ (l : List Char) (n : Nat), l.length ≤ (replaceFrom old new n l).length + n := by
  intro l
  induction l with
  | nil => intro n; simp
  | cons c l ih =>
    intro n
    cases n with
    | succ n =>
      have := ih n
      simp only [replaceFrom, length_cons]
      omega
    | zero =>
      have hpos : 0 < old.length := length_pos_of_ne_nil hne
      simp only [replaceFrom]
      split_ifs with hp
      · have := ih (old.length - 1)
        simp only [length_append, length_cons]
        omega
      · have := ih 0
        simp only [length_cons]
        omega

/-- A longer replacement makes a text longer where it replaces something. -/
theorem length_lt_replaceFrom (hlen : old.length < new.length) (hne : old ≠ []) :
    ∀ {l : List Char}, occursIn old l = true → l.length + (new.length - old.length) ≤
      (replaceFrom old new 0 l).length
  | [], h => by
    cases old with
    | nil => exact absurd rfl hne
    | cons o old => simp [occursIn] at h
  | c :: l, h => by
    have hpos : 0 < old.length := length_pos_of_ne_nil hne
    simp only [replaceFrom]
    split_ifs with hp
    · have := length_replaceFrom_le hlen hne l (old.length - 1)
      simp only [length_append, length_cons]
      omega
    · simp only [occursIn, Bool.or_eq_true] at h
      have := length_lt_replaceFrom hlen hne (h.resolve_left hp)
      simp only [length_cons]
      omega

end Replace

/-! ### Comma lists -/

/-- `strings.Join` with a comma. -/
def joinComma (items : List String) : String := String.intercalate "," items

/-- The members of a comma list, trimmed, without the empty ones. -/
def commaTokens (raw : String) : List String :=
  (split ',' raw).filterMap fun item =>
    let token := trimSpace item
    if token = "" then none else some token

@[simp] theorem joinComma_singleton (s : String) : joinComma [s] = s := by
  simp [joinComma]

theorem toList_joinComma_cons (s t : String) (items : List String) :
    (joinComma (s :: t :: items)).toList = s.toList ++ ',' :: (joinComma (t :: items)).toList := by
  simp [joinComma, String.toList_intercalate]

theorem commaTokens_joinComma (items : List String) :
    commaTokens (joinComma items) = items.flatMap commaTokens := by
  by_cases h : items = []
  · rw [h]
    decide
  · rw [joinComma, commaTokens, split_intercalate rfl h, filterMap_flatMap]
    rfl

theorem replaceAll_joinComma {old : String} (new : String) (hsep : ',' ∉ old.toList)
    (hne : old.toList ≠ []) (items : List String) :
    replaceAll (joinComma items) old new = joinComma (items.map fun s => replaceAll s old new) := by
  induction items with
  | nil => rfl
  | cons s items ih =>
    cases items with
    | nil => simp
    | cons t items =>
      apply String.toList_inj.1
      rw [map_cons, map_cons, toList_joinComma_cons,
        show (replaceAll t old new :: items.map fun s => replaceAll s old new) =
          (t :: items).map fun s => replaceAll s old new from rfl, ← ih]
      simp only [replaceAll, String.toList_ofList]
      rw [toList_joinComma_cons, replaceFrom_append_sep hsep _ _ _ (Nat.zero_le _),
        replaceFrom_sep hsep hne]

theorem length_joinComma (items : List String) :
    (joinComma items).toList.length =
      (items.map fun s => s.toList.length).sum + (items.length - 1) := by
  induction items with
  | nil => rfl
  | cons s items ih =>
    cases items with
    | nil => simp
    | cons t items =>
      rw [toList_joinComma_cons]
      simp only [length_append, length_cons, ih, map_cons, sum_cons]
      omega

end NexusTok
