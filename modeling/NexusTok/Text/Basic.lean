import Mathlib.Data.List.DropRight

/-!
# Text

The string functions of Go's standard library that the code uses, on strings as lists of
characters.
-/

namespace NexusTok

/-- `unicode.IsSpace`. -/
def isSpace (c : Char) : Bool :=
  let n := c.toNat
  (9 ≤ n && n ≤ 13) || n == 0x20 || n == 0x85 || n == 0xA0 || n == 0x1680 ||
    (0x2000 ≤ n && n ≤ 0x200A) || n == 0x2028 || n == 0x2029 || n == 0x202F || n == 0x205F ||
    n == 0x3000

/-- `strings.TrimSpace`. -/
def trimSpace (s : String) : String :=
  String.ofList (((s.toList.dropWhile isSpace).reverse.dropWhile isSpace).reverse)

/-- `strings.Trim` of one character. -/
def trim (c : Char) (s : String) : String :=
  String.ofList ((s.toList.dropWhile (· == c)).rdropWhile (· == c))

/-- `strings.Split` at one character. -/
def split (sep : Char) (s : String) : List String := (s.toList.splitOn sep).map String.ofList

/-- Trimmed text has nothing left to trim. -/
theorem trimSpace_trimSpace (s : String) : trimSpace (trimSpace s) = trimSpace s := by
  have hr : ∀ l : List Char, (l.reverse.dropWhile isSpace).reverse = l.rdropWhile isSpace :=
    fun _ => rfl
  simp only [trimSpace, hr, String.toList_ofList]
  have hfront : ∀ l : List Char, ((l.dropWhile isSpace).rdropWhile isSpace).dropWhile isSpace =
      (l.dropWhile isSpace).rdropWhile isSpace := by
    intro l
    -- what is left of a text that starts with no space starts with no space
    obtain ⟨t, ht⟩ := List.rdropWhile_prefix isSpace (l.dropWhile isSpace)
    cases hm : (l.dropWhile isSpace).rdropWhile isSpace with
    | nil => rfl
    | cons c cs =>
      rw [hm, List.cons_append] at ht
      have hc : isSpace c = false := by
        have := List.head?_dropWhile_not isSpace l
        simpa [← ht] using this
      rw [List.dropWhile_cons_of_neg (by simp [hc])]
  rw [hfront, List.rdropWhile_idempotent]

example : trimSpace " vip\n" = "vip" := by decide

end NexusTok
