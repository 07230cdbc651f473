import Mathlib.Algebra.Group.Int.Defs
import NexusTok.Text.Basic

/-!
# Prefixes, suffixes and words

More of Go's `strings` and `strconv`: what a text starts or ends with, its last marker, its lower
case and the number it spells.
-/

namespace NexusTok

open List

/-- `strings.TrimLeft` of one character. -/
def trimLeft (c : Char) (s : String) : String := String.ofList (s.toList.dropWhile (· == c))

/-- `strings.TrimRight` of one character. -/
def trimRight (c : Char) (s : String) : String := String.ofList (s.toList.rdropWhile (· == c))

variable (s : String)

/-- `strings.HasPrefix`. -/
def hasPrefix (start : String) : Bool := start.toList.isPrefixOf s.toList

/-- `strings.HasSuffix`. -/
def hasSuffix (ending : String) : Bool := ending.toList.isSuffixOf s.toList

/-- `strings.CutPrefix`. -/
def cutPrefix (start : String) : Option String :=
  if hasPrefix s start then some (String.ofList (s.toList.drop start.toList.length)) else none

/-- `strings.CutSuffix`. -/
def cutSuffix (ending : String) : Option String :=
  if hasSuffix s ending then
    some (String.ofList (s.toList.take (s.toList.length - ending.toList.length)))
  else none

/-- `strings.TrimSuffix`. -/
def trimSuffix (ending : String) : String := (cutSuffix s ending).getD s

/-- What stands before and after the last marker in a list. -/
def cutLastList (marker : List Char) : List Char → Option (List Char × List Char)
  | [] => none
  | c :: cs =>
    match cutLastList marker cs with
    | some (before, after) => some (c :: before, after)
    | none => if marker.isPrefixOf (c :: cs) then some ([], (c :: cs).drop marker.length) else none

/-- What stands before and after the last marker: a text cut at `strings.LastIndex`. -/
def cutLast (marker s : String) : Option (String × String) :=
  (cutLastList marker.toList s.toList).map fun p => (String.ofList p.1, String.ofList p.2)

/-- `unicode.ToLower` as far as it gives an ASCII character: besides the capitals of ASCII these
are the dotted capital I and the Kelvin sign.  No other lower case is an ASCII character. -/
def lowerChar (c : Char) : Char :=
  if c.toNat = 0x130 then 'i' else if c.toNat = 0x212A then 'k' else c.toLower

/-- `strings.ToLower`, for text that is compared with ASCII words. -/
def toLower : String := String.ofList (s.toList.map lowerChar)

/-- `unicode.ToUpper` as far as it gives an ASCII character: besides the small letters of ASCII
these are the dotless small i and the long s. -/
def upperChar (c : Char) : Char :=
  if c.toNat = 0x131 then 'I' else if c.toNat = 0x17F then 'S' else c.toUpper

/-- `strings.ToUpper`, for text that is compared with ASCII words. -/
def toUpper : String := String.ofList (s.toList.map upperChar)

/-- The small letter that stands for all characters that fold to each other, as far as one of them
is an ASCII character. -/
def foldChar (c : Char) : Char :=
  if c.toNat = 0x17F then 's' else if c.toNat = 0x212A then 'k' else c.toLower

/-- `strings.EqualFold`, of a text with an ASCII word. -/
def equalFold (word : String) : Bool := s.toList.map foldChar == word.toList.map foldChar

/-- The number that a list of digits spells. -/
def ofDigits (ds : List Char) : Nat := ds.foldl (fun n d => 10 * n + (d.toNat - 48)) 0

/-- `strconv.Atoi`: an optional sign, then digits, of a number in 64 bits. -/
def atoi : Option Int :=
  let (negative, digits) := match s.toList with
    | '-' :: ds => (true, ds)
    | '+' :: ds => (false, ds)
    | ds => (false, ds)
  if digits = [] ∨ !digits.all Char.isDigit then none
  else
    let n : Int := if negative then -(ofDigits digits) else ofDigits digits
    if n < -2 ^ 63 ∨ 2 ^ 63 ≤ n then none else some n

/-! ### Trimmed text -/

/-- Text that starts and ends with no space. -/
def Trimmed (l : List Char) : Prop := (∀ c ∈ l.head?, isSpace c = false) ∧
  ∀ c ∈ l.getLast?, isSpace c = false

theorem trimSpace_of_trimmed {s : String} (h : Trimmed s.toList) : trimSpace s = s := by
  obtain ⟨hhead, hlast⟩ := h
  have hfront : s.toList.dropWhile isSpace = s.toList := by
    cases hs : s.toList with
    | nil => rfl
    | cons c cs => exact dropWhile_cons_of_neg (by simp [hhead c (by simp [hs])])
  have hback : s.toList.rdropWhile isSpace = s.toList := by
    rcases eq_nil_or_concat s.toList with hs | ⟨cs, c, hs⟩
    · rw [hs]
      rfl
    · rw [concat_eq_append] at hs
      rw [hs, rdropWhile_concat_neg _ _ _ (by simp [hlast c (by simp [hs])])]
  unfold trimSpace
  rw [hfront]
  exact (congrArg String.ofList hback).trans String.ofList_toList

theorem trimmed_trimSpace : Trimmed (trimSpace s).toList := by
  have hback : (trimSpace s).toList = (s.toList.dropWhile isSpace).rdropWhile isSpace := by
    unfold trimSpace
    rw [String.toList_ofList]
    rfl
  have hidem := congrArg String.toList (trimSpace_trimSpace s)
  constructor
  · intro c hc
    rw [hback] at hc
    -- what is left starts as the text without its first spaces
    obtain ⟨t, ht⟩ := rdropWhile_prefix isSpace (s.toList.dropWhile isSpace)
    cases hl : (s.toList.dropWhile isSpace).rdropWhile isSpace with
    | nil => simp [hl] at hc
    | cons c' cs =>
      rw [hl] at hc ht
      have hnot := head?_dropWhile_not isSpace s.toList
      simp only [head?_cons, Option.mem_some_iff] at hc
      subst hc
      simpa [← ht] using hnot
  · intro c hc
    rw [hback] at hc
    have hne : (s.toList.dropWhile isSpace).rdropWhile isSpace ≠ [] := by
      rintro hnil
      simp [hnil] at hc
    have hnot := rdropWhile_last_not isSpace (s.toList.dropWhile isSpace) hne
    rw [getLast?_eq_some_getLast hne, Option.mem_some_iff] at hc
    rw [← hc]
    simpa using hnot

theorem Trimmed.append {l l' : List Char} (h : Trimmed l) (hne : l ≠ [])
    (hlast : ∀ c ∈ l'.getLast?, isSpace c = false) : Trimmed (l ++ l') := by
  constructor
  · intro c hc
    rw [head?_append_of_ne_nil _ hne] at hc
    exact h.1 c hc
  · intro c hc
    rcases eq_nil_or_concat l' with rfl | ⟨init, last, rfl⟩
    · rw [append_nil] at hc
      exact h.2 c hc
    · refine hlast c ?_
      rw [concat_eq_append, ← append_assoc, getLast?_concat] at hc
      rw [concat_eq_append, getLast?_concat]
      exact hc

/-! ### Lower case -/

/-- A lower case character is its own lower case. -/
theorem lowerChar_lowerChar (c : Char) : lowerChar (lowerChar c) = lowerChar c := by
  by_cases h : c.toNat = 0x130
  · have hi : lowerChar c = 'i' := if_pos h
    rw [hi]
    decide
  by_cases hk : c.toNat = 0x212A
  · have hi : lowerChar c = 'k' := by rw [lowerChar, if_neg h, if_pos hk]
    rw [hi]
    decide
  have hc : lowerChar c = c.toLower := by rw [lowerChar, if_neg h, if_neg hk]
  rw [hc]
  by_cases hu : c.val ≥ 'A'.val ∧ c.val ≤ 'Z'.val
  · -- the lower case of a capital is neither a capital nor one of the two exceptions
    have hval : c.toLower.toNat = c.toNat + 32 := by
      obtain ⟨hlo, hhi⟩ := hu
      delta Char.toLower
      simp only [Char.toNat]
      grind [UInt32.toNat_add]
    have hle : c.toNat ≤ 90 := hu.2
    have hge : 65 ≤ c.toNat := hu.1
    have hnot : ¬(c.toLower.val ≥ 'A'.val ∧ c.toLower.val ≤ 'Z'.val) := by
      rintro ⟨-, hhi⟩
      have : c.toLower.toNat ≤ 90 := hhi
      omega
    rw [lowerChar, if_neg (by omega), if_neg (by omega)]
    exact dif_neg hnot
  · have hself : c.toLower = c := dif_neg hu
    rw [hself, hc, hself]

example : cutLast "-thinking-" "claude-thinking-x-thinking-12" = some ("claude-thinking-x", "12") := by
  decide

example : atoi "-0042" = some (-42) := by decide

end NexusTok
