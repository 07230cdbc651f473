import Mathlib.Data.Int.Basic
import Mathlib.Data.List.Basic
import Mathlib.Data.List.TakeWhile

/-!
# Indexes from the end

`processNegativeIndex` replaces the indexes `-n` of a path.  It takes the length from the array that
the text before the first occurrence of the index names, in the path as it was given.

* `resolved` : the path resolved from left to right, each index by the array that is reached.
* `processNegativeIndex_resolves_iff` : the function gives it if and only if no index comes first
  and every array that is named has as many elements as the one that is reached.
-/

namespace NexusTok.Override

open List Option Nat

/-! ### Text -/

/-- What `-\d+` matches at the beginning of a text. -/
def negative? : List Char → Option (List Char)
  | '-' :: rest =>
    if rest.takeWhile Char.isDigit = [] then none else some ('-' :: rest.takeWhile Char.isDigit)
  | _ => none

/-- `FindAllStringSubmatch` of `\.(-\d+)`: the texts of the group. -/
def findAll : List Char → List (List Char)
  | [] => []
  | c :: path => (if c = '.' then (negative? path).toList else []) ++ findAll path

/-- `strings.Replace` of one occurrence. -/
def replaceFirst (old new : List Char) : List Char → List Char
  | [] => []
  | c :: path =>
    if old.isPrefixOf (c :: path) then new ++ (c :: path).drop old.length
    else c :: replaceFirst old new path

/-- The first text of `strings.Split`. -/
def beforeFirst (sep : List Char) : List Char → List Char
  | [] => []
  | c :: path => if sep.isPrefixOf (c :: path) then [] else c :: beforeFirst sep path

/-- A path without a dot at its end. -/
def dropDot (path : List Char) : List Char :=
  if path.getLast? = some '.' then path.dropLast else path

/-- Segments, a dot before each. -/
def dotted (segments : List (List Char)) : List Char := segments.flatMap ('.' :: ·)

/-! ### The replacement -/

/-- `gjson`: the value at a path, and how many elements it has if it is an array. -/
structure Gjson (D : Type) where
  get : D → List Char → Option D
  length : D → Option ℕ

section Definitions

variable {D : Type} (gjson : Gjson D) (data : D) (path : List Char)

/-- The index `-n` in an array. -/
def actualIndex (length : ℕ) (negIndex : List Char) : ℤ :=
  length - Nat.ofDigitChars 10 negIndex.tail 0

/-- An index that an array has. -/
def Has (length : ℕ) (negIndex : List Char) : Prop :=
  0 ≤ actualIndex length negIndex ∧ actualIndex length negIndex < length

instance (length : ℕ) (negIndex : List Char) : Decidable (Has length negIndex) :=
  inferInstanceAs (Decidable (_ ∧ _))

/-- `strconv.Itoa` of an index. -/
def indexText (length : ℕ) (negIndex : List Char) : List Char :=
  Nat.toDigits 10 (actualIndex length negIndex).toNat

/-- The elements of the array named by the text before the first occurrence of an index. -/
def namedLength (negIndex : List Char) : Option ℕ :=
  (gjson.get data (dropDot (beforeFirst negIndex path))).bind gjson.length

/-- One turn of the loop. -/
def replaceIndex (result negIndex : List Char) : List Char :=
  match namedLength gjson data path negIndex with
  | none => result
  | some length =>
    if Has length negIndex then
      replaceFirst ('.' :: negIndex) ('.' :: indexText length negIndex) result
    else result

def processNegativeIndex : List Char :=
  (findAll path).foldl (replaceIndex gjson data path) path

/-! ### From left to right -/

/-- A segment that is an index from the end. -/
def IsNegative (segment : List Char) : Prop := negative? segment = some segment

instance (segment : List Char) : Decidable (IsNegative segment) :=
  inferInstanceAs (Decidable (_ = _))

/-- What a segment stands for at a node. -/
def actual (node : Option D) (segment : List Char) : List Char :=
  match node.bind gjson.length with
  | some length => if IsNegative segment then indexText length segment else segment
  | none => segment

/-- The node that a segment leads to. -/
def next (node : Option D) (segment : List Char) : Option D :=
  node.bind (gjson.get · (actual gjson node segment))

/-- The segments, each resolved at the node that the ones before it lead to. -/
def resolved : Option D → List (List Char) → List (List Char)
  | _, [] => []
  | node, segment :: rest => actual gjson node segment :: resolved (next gjson node segment) rest

/-- Every index from the end is one of the array that is reached. -/
def InRange : Option D → List (List Char) → Prop
  | _, [] => True
  | node, segment :: rest =>
    (IsNegative segment → ∃ length, node.bind gjson.length = some length ∧ Has length segment) ∧
      InRange (next gjson node segment) rest

/-- **The array that is named** for every index has as many elements as the one that is reached. -/
def NamesReached : Option D → List (List Char) → Prop
  | _, [] => True
  | node, segment :: rest =>
    (IsNegative segment → namedLength gjson data path segment = node.bind gjson.length) ∧
      NamesReached (next gjson node segment) rest

/-- A key that the expression does not match, or an index that it matches as a whole. -/
def Plain (segment : List Char) : Prop :=
  findAll segment = [] ∧ (negative? segment = none ∨ IsNegative segment)

instance (segment : List Char) : Decidable (Plain segment) := inferInstanceAs (Decidable (_ ∧ _))

end Definitions

/-! ### What is found -/

/-- A text that is empty or starts with a dot. -/
def Dotted (t : List Char) : Prop := t = [] ∨ ∃ t', t = '.' :: t'

theorem dotted_dotted (segments : List (List Char)) : Dotted (dotted segments) := by
  cases segments with
  | nil => exact .inl rfl
  | cons segment segments => exact .inr ⟨_, rfl⟩

section Text

variable {x t d v : List Char}

theorem takeWhile_append_dotted (ht : Dotted t) :
    (x ++ t).takeWhile Char.isDigit = x.takeWhile Char.isDigit := by
  induction x with
  | nil => obtain rfl | ⟨t, rfl⟩ := ht <;> rfl
  | cons c x ih => rw [cons_append, takeWhile_cons, takeWhile_cons, ih]

theorem negative?_append (ht : Dotted t) : negative? (x ++ t) = negative? x := by
  cases x with
  | nil => obtain rfl | ⟨t, rfl⟩ := ht <;> rfl
  | cons c x =>
    by_cases hc : c = '-'
    · rw [hc, cons_append, negative?, negative?, takeWhile_append_dotted ht]
    · rw [cons_append, negative?.eq_2 _ fun _ h => hc (List.cons.inj h).1,
        negative?.eq_2 _ fun _ h => hc (List.cons.inj h).1]

theorem findAll_append (ht : Dotted t) : findAll (x ++ t) = findAll x ++ findAll t := by
  induction x with
  | nil => rfl
  | cons c x ih =>
    rw [cons_append, findAll, findAll, ih, negative?_append ht, append_assoc]

theorem findAll_of_no_dot (h : '.' ∉ x) : findAll (x ++ t) = findAll t := by
  induction x with
  | nil => rfl
  | cons c x ih =>
    rw [mem_cons, not_or] at h
    rw [cons_append, findAll, if_neg (Ne.symm h.1), nil_append, ih h.2]

/-- Digits hold no match. -/
theorem no_dot_of_digits (h : ∀ e ∈ x, e.isDigit = true) : '.' ∉ x :=
  fun hdot => absurd (h _ hdot) (by decide)

/-- An index is a sign and digits. -/
theorem IsNegative.digits (h : IsNegative d) :
    ∃ c digits, d = '-' :: c :: digits ∧ ∀ e ∈ c :: digits, e.isDigit = true := by
  unfold IsNegative negative? at h
  split at h
  · rename_i rest
    split at h
    · cases h
    · rename_i hne
      have hrest : rest.takeWhile Char.isDigit = rest := (List.cons.inj (some.inj h)).2
      cases rest with
      | nil => exact absurd rfl hne
      | cons c digits => exact ⟨c, digits, rfl, takeWhile_eq_self_iff.1 hrest⟩
  · cases h

theorem isNegative_of_mem_findAll (h : d ∈ findAll t) : IsNegative d := by
  induction t with
  | nil => cases h
  | cons c t ih =>
    rw [findAll, mem_append] at h
    refine h.elim (fun h => ?_) ih
    split at h
    · rw [mem_toList] at h
      unfold negative? at h
      split at h
      · split at h
        · cases h
        · rename_i hne
          rw [← some.inj h]
          simp [IsNegative, negative?, takeWhile_takeWhile, hne]
      · cases h
    · cases h

theorem IsNegative.no_dot (h : IsNegative d) : '.' ∉ d := by
  obtain ⟨c, digits, rfl, hdigits⟩ := h.digits
  exact not_mem_cons_of_ne_of_not_mem (by decide) (no_dot_of_digits hdigits)

/-- A text that starts with an index has one. -/
theorem IsNegative.negative?_append_ne (h : IsNegative d) (z : List Char) :
    negative? (d ++ z) ≠ none := by
  obtain ⟨c, digits, rfl, hdigits⟩ := h.digits
  have hc : c.isDigit = true := hdigits c mem_cons_self
  simp [negative?, hc]

theorem negative?_toDigits (n : ℕ) (z : List Char) : negative? (Nat.toDigits 10 n ++ z) = none := by
  cases hn : Nat.toDigits 10 n with
  | nil => exact absurd hn toDigits_ne_nil
  | cons c digits =>
    have hc := isDigit_of_mem_toDigits (by decide) (by decide) (hn ▸ mem_cons_self)
    refine negative?.eq_2 _ fun rest h => ?_
    rw [(List.cons.inj h).1] at hc
    exact absurd hc (by decide)

theorem toDigits_digits (n : ℕ) : ∀ e ∈ Nat.toDigits 10 n, e.isDigit = true :=
  fun _ he => isDigit_of_mem_toDigits (by decide) (by decide) he

/-- The text of an index from the front holds no match. -/
theorem findAll_toDigits (n : ℕ) : findAll ('.' :: Nat.toDigits 10 n) = [] := by
  have hnone := negative?_toDigits n []
  have hdigits := findAll_of_no_dot (t := []) (no_dot_of_digits (toDigits_digits n))
  rw [append_nil] at hnone hdigits
  rw [findAll, if_pos rfl, hnone, hdigits]
  rfl

/-! ### What is replaced -/

theorem replaceFirst_append (hd : IsNegative d) (hx : findAll x = []) (ht : Dotted t) :
    replaceFirst ('.' :: d) v (x ++ t) = x ++ replaceFirst ('.' :: d) v t := by
  induction x with
  | nil => rfl
  | cons c x ih =>
    rw [findAll, append_eq_nil_iff] at hx
    rw [cons_append, replaceFirst, if_neg, ih hx.2]
    · rfl
    · intro hstart
      obtain ⟨z, hz⟩ := isPrefixOf_iff_prefix.1 hstart
      obtain ⟨hc, hrest⟩ := List.cons.inj hz
      rw [if_pos hc.symm, toList_eq_nil_iff, ← negative?_append ht, ← hrest] at hx
      exact hd.negative?_append_ne z hx.1

theorem replaceFirst_dotted (n : ℕ) (ht : Dotted t) :
    Dotted (replaceFirst ('.' :: d) ('.' :: Nat.toDigits 10 n) t) := by
  obtain rfl | ⟨t, rfl⟩ := ht
  · exact .inl rfl
  · rw [replaceFirst]
    split
    · exact .inr ⟨_, rfl⟩
    · exact .inr ⟨_, rfl⟩

theorem takeWhile_replaceFirst (n : ℕ) (t : List Char) :
    (replaceFirst ('.' :: d) ('.' :: Nat.toDigits 10 n) t).takeWhile Char.isDigit =
      t.takeWhile Char.isDigit := by
  induction t with
  | nil => rfl
  | cons c t ih =>
    rw [replaceFirst]
    split
    · rename_i hstart
      obtain ⟨z, hz⟩ := isPrefixOf_iff_prefix.1 hstart
      cases hz
      rfl
    · rw [takeWhile_cons, takeWhile_cons, ih]

theorem negative?_replaceFirst (n : ℕ) (t : List Char) :
    negative? (replaceFirst ('.' :: d) ('.' :: Nat.toDigits 10 n) t) = negative? t := by
  cases t with
  | nil => rfl
  | cons c t =>
    rw [replaceFirst]
    split
    · rename_i hstart
      obtain ⟨z, hz⟩ := isPrefixOf_iff_prefix.1 hstart
      cases hz
      rfl
    · by_cases hc : c = '-'
      · rw [hc, negative?, negative?, takeWhile_replaceFirst]
      · rw [negative?.eq_2 _ fun _ h => hc (List.cons.inj h).1,
          negative?.eq_2 _ fun _ h => hc (List.cons.inj h).1]

/-- **A replacement takes away one match at most.** -/
theorem length_findAll_replaceFirst (hd : IsNegative d) (n : ℕ) (t : List Char) :
    (findAll t).length ≤
      (findAll (replaceFirst ('.' :: d) ('.' :: Nat.toDigits 10 n) t)).length + 1 := by
  induction t with
  | nil => exact zero_le _
  | cons c t ih =>
    rw [replaceFirst]
    split
    · rename_i hstart
      obtain ⟨z, hz⟩ := isPrefixOf_iff_prefix.1 hstart
      cases hz
      have hrest : ∀ y, '.' ∉ y → findAll (y ++ z) = findAll z := fun y hy => findAll_of_no_dot hy
      rw [length_cons, drop_succ_cons, append_eq, drop_left, cons_append,
        findAll, findAll, if_pos rfl, hrest d hd.no_dot,
        hrest _ (no_dot_of_digits (toDigits_digits n)), if_pos rfl, negative?_toDigits]
      have hone : (negative? (d ++ z)).toList.length ≤ 1 := by
        cases negative? (d ++ z) <;> simp
      rw [length_append]
      simp only [toList_none, nil_append]
      omega
    · rw [findAll, findAll, negative?_replaceFirst, length_append, length_append]
      omega

end Text

/-! ### The loop -/

section Loop

variable {D : Type} {gjson : Gjson D} {data : D} {path x t : List Char}

theorem replaceIndex_cases (gjson : Gjson D) (data : D) (path result negIndex : List Char) :
    replaceIndex gjson data path result negIndex = result ∨
      ∃ n, replaceIndex gjson data path result negIndex =
        replaceFirst ('.' :: negIndex) ('.' :: Nat.toDigits 10 n) result := by
  unfold replaceIndex
  split
  · exact .inl rfl
  · split
    · exact .inr ⟨_, rfl⟩
    · exact .inl rfl

/-- The loop leaves what comes before the first match. -/
theorem foldl_append {ds : List (List Char)} (hds : ∀ d ∈ ds, IsNegative d)
    (hx : findAll x = []) (ht : Dotted t) :
    ds.foldl (replaceIndex gjson data path) (x ++ t) =
      x ++ ds.foldl (replaceIndex gjson data path) t ∧
        Dotted (ds.foldl (replaceIndex gjson data path) t) := by
  induction ds generalizing t with
  | nil => exact ⟨rfl, ht⟩
  | cons d ds ih =>
    have hstep : replaceIndex gjson data path (x ++ t) d =
          x ++ replaceIndex gjson data path t d ∧ Dotted (replaceIndex gjson data path t d) := by
      unfold replaceIndex
      split
      · exact ⟨rfl, ht⟩
      · split
        · exact ⟨replaceFirst_append (hds d mem_cons_self) hx ht, replaceFirst_dotted _ ht⟩
        · exact ⟨rfl, ht⟩
    rw [foldl_cons, hstep.1]
    exact ih (fun d hd => hds d (mem_cons_of_mem _ hd)) hstep.2

/-- **Every match needs a turn.** -/
theorem length_findAll_foldl (gjson : Gjson D) (data : D) (path : List Char)
    {ds : List (List Char)} (hds : ∀ d ∈ ds, IsNegative d) (t : List Char) :
    (findAll t).length ≤
      (findAll (ds.foldl (replaceIndex gjson data path) t)).length + ds.length := by
  induction ds generalizing t with
  | nil => exact le_refl _
  | cons d ds ih =>
    have hrest := ih (fun d hd => hds d (mem_cons_of_mem _ hd))
      (replaceIndex gjson data path t d)
    rw [foldl_cons, length_cons]
    rcases replaceIndex_cases gjson data path t d with h | ⟨n, h⟩
    · rw [h] at hrest ⊢
      omega
    · have hstep := length_findAll_replaceFirst (hds d mem_cons_self) n t
      rw [h] at hrest ⊢
      omega

/-! ### From left to right -/

theorem dotted_cons (segment : List Char) (rest : List (List Char)) :
    dotted (segment :: rest) = ('.' :: segment) ++ dotted rest := flatMap_cons ..

theorem actual_of_negative {node : Option D} {segment : List Char} {length : ℕ}
    (hlength : node.bind gjson.length = some length) (h : IsNegative segment) :
    actual gjson node segment = indexText length segment := by
  simp only [actual, hlength, if_pos h]

theorem actual_of_not_negative (node : Option D) {segment : List Char} (h : ¬IsNegative segment) :
    actual gjson node segment = segment := by
  rw [actual]
  split
  · exact if_neg h
  · rfl

/-- A resolved path has no index from the end. -/
theorem findAll_resolved {segments : List (List Char)} (hplain : ∀ s ∈ segments, Plain s)
    {node : Option D} (hrange : InRange gjson node segments) :
    findAll (dotted (resolved gjson node segments)) = [] := by
  induction segments generalizing node with
  | nil => rfl
  | cons segment rest ih =>
    have hsegment : findAll ('.' :: actual gjson node segment) = [] := by
      by_cases hneg : IsNegative segment
      · obtain ⟨length, hlength, -⟩ := hrange.1 hneg
        rw [actual_of_negative hlength hneg]
        exact findAll_toDigits _
      · obtain ⟨hnone, hkey⟩ := hplain segment mem_cons_self
        rw [actual_of_not_negative node hneg, findAll, if_pos rfl, hkey.resolve_right hneg, hnone]
        rfl
    rw [resolved, dotted_cons, findAll_append (dotted_dotted _), hsegment,
      ih (fun s hs => hplain s (mem_cons_of_mem _ hs)) hrange.2]
    rfl

/-- Digits before a dot are told apart. -/
theorem append_dotted_inj {a b t t' : List Char} (ha : ∀ e ∈ a, e.isDigit = true)
    (hb : ∀ e ∈ b, e.isDigit = true) (ht : Dotted t) (ht' : Dotted t') :
    a ++ t = b ++ t' ↔ a = b ∧ t = t' := by
  constructor
  · intro h
    have hdigits := congrArg (List.takeWhile Char.isDigit) h
    rw [takeWhile_append_dotted ht, takeWhile_append_dotted ht', takeWhile_eq_self_iff.2 ha,
      takeWhile_eq_self_iff.2 hb] at hdigits
    exact ⟨hdigits, append_cancel_left (hdigits ▸ h)⟩
  · rintro ⟨rfl, rfl⟩
    rfl

theorem indexText_inj {m n : ℕ} {d : List Char} (hm : Has m d) (hn : Has n d) :
    indexText m d = indexText n d ↔ m = n := by
  constructor
  · intro h
    have hvalue := congrArg (Nat.ofDigitChars 10 · 0) h
    simp only [indexText, ofDigitChars_ten_toDigits] at hvalue
    unfold Has at hm hn
    unfold actualIndex at hm hn hvalue
    omega
  · rintro rfl
    rfl

/-- **The loop resolves the segments** if and only if every array that is named is long enough. -/
theorem foldl_resolves_iff {segments : List (List Char)} (hplain : ∀ s ∈ segments, Plain s)
    {node : Option D} (hrange : InRange gjson node segments) :
    (findAll (dotted segments)).foldl (replaceIndex gjson data path) (dotted segments) =
        dotted (resolved gjson node segments) ↔
      NamesReached gjson data path node segments := by
  induction segments generalizing node with
  | nil => exact iff_of_true rfl trivial
  | cons segment rest ih =>
    obtain ⟨hnone, hkey⟩ := hplain segment mem_cons_self
    have hrest : ∀ s ∈ rest, Plain s := fun s hs => hplain s (mem_cons_of_mem _ hs)
    have hloop : ∀ y, findAll y = [] →
        (findAll (dotted rest)).foldl (replaceIndex gjson data path) (y ++ dotted rest) =
          y ++ (findAll (dotted rest)).foldl (replaceIndex gjson data path) (dotted rest) :=
      fun y hy => (foldl_append (fun _ => isNegative_of_mem_findAll) hy (dotted_dotted rest)).1
    have hfound : findAll (dotted (segment :: rest)) =
        (negative? segment).toList ++ findAll (dotted rest) := by
      rw [dotted_cons, findAll_append (dotted_dotted _), findAll, if_pos rfl, hnone,
        append_nil]
    rw [hfound, resolved, dotted_cons, dotted_cons, NamesReached]
    by_cases hneg : IsNegative segment
    · obtain ⟨length, hlength, hhas⟩ := hrange.1 hneg
      have hactual := actual_of_negative hlength hneg
      rw [hneg, toList_some, singleton_append, foldl_cons, hactual, hlength]
      have hdigits : ∀ n, ∀ e ∈ indexText n segment, e.isDigit = true := fun n => toDigits_digits _
      by_cases hhit : ∃ n, namedLength gjson data path segment = some n ∧ Has n segment
      · obtain ⟨n, hn, hhas'⟩ := hhit
        have hstep : replaceIndex gjson data path (('.' :: segment) ++ dotted rest) segment =
            ('.' :: indexText n segment) ++ dotted rest := by
          simp [replaceIndex, hn, hhas', replaceFirst]
        rw [hstep, hloop ('.' :: indexText n segment) (findAll_toDigits _), cons_append,
          cons_append, cons_inj_right, append_dotted_inj (hdigits n) (hdigits length)
            (foldl_append (x := []) (fun _ => isNegative_of_mem_findAll) rfl (dotted_dotted rest)).2
            (dotted_dotted _), ih hrest hrange.2, indexText_inj hhas' hhas, hn, Option.some.injEq]
        exact and_congr_left fun _ => ⟨fun h _ => h, fun h => h hneg⟩
      · -- a turn without a replacement leaves more matches than there are turns
        have hstep : replaceIndex gjson data path (('.' :: segment) ++ dotted rest) segment =
            ('.' :: segment) ++ dotted rest := by
          unfold replaceIndex
          split
          · rfl
          · rename_i n hn
            exact if_neg fun hhas' => hhit ⟨n, hn, hhas'⟩
        refine iff_of_false (fun h => ?_) fun h => hhit ⟨length, h.1 hneg, hhas⟩
        have hcount := length_findAll_foldl gjson data path
          (fun _ => isNegative_of_mem_findAll (t := dotted rest)) (('.' :: segment) ++ dotted rest)
        have hresolved := findAll_resolved hplain hrange
        rw [resolved, dotted_cons, hactual] at hresolved
        rw [hstep] at h
        rw [h, hresolved, ← dotted_cons, hfound, hneg] at hcount
        simp only [toList_some, singleton_append, length_cons, length_nil,
          Nat.zero_add] at hcount
        omega
    · have hkey := hkey.resolve_right hneg
      have hactual : actual gjson node segment = segment := actual_of_not_negative node hneg
      have hfree : findAll ('.' :: segment) = [] := by
        rw [findAll, if_pos rfl, hkey, hnone]
        rfl
      rw [hkey, hactual, toList_none, nil_append, hloop _ hfree,
        append_cancel_left_eq, ih hrest hrange.2]
      exact ⟨fun h => ⟨fun h' => absurd h' hneg, h⟩, fun h => h.2⟩

/-- **The path is resolved** if and only if no index comes first and every array that is named is as
long as the one that is reached. -/
theorem processNegativeIndex_resolves_iff (gjson : Gjson D) (data : D) {first : List Char}
    {rest : List (List Char)} (hplain : ∀ s ∈ first :: rest, Plain s)
    (hrange : InRange gjson (some data) (first :: rest)) :
    processNegativeIndex gjson data (first ++ dotted rest) =
        actual gjson (some data) first ++
          dotted (resolved gjson (next gjson (some data) first) rest) ↔
      ¬IsNegative first ∧
        NamesReached gjson data (first ++ dotted rest) (next gjson (some data) first) rest := by
  obtain ⟨hnone, -⟩ := hplain first List.mem_cons_self
  have hrest : ∀ s ∈ rest, Plain s := fun s hs => hplain s (List.mem_cons_of_mem _ hs)
  rw [processNegativeIndex, findAll_append (dotted_dotted _), hnone, List.nil_append,
    (foldl_append (fun _ => isNegative_of_mem_findAll) hnone (dotted_dotted rest)).1]
  by_cases hneg : IsNegative first
  · refine iff_of_false (fun h => ?_) fun h => h.1 hneg
    obtain ⟨length, hlength, -⟩ := hrange.1 hneg
    rw [actual_of_negative hlength hneg] at h
    exact hneg.negative?_append_ne _ ((congrArg negative? h).trans (negative?_toDigits _ _))
  · rw [actual_of_not_negative _ hneg, List.append_cancel_left_eq,
      foldl_resolves_iff hrest hrange.2]
    exact (and_iff_right hneg).symm

end Loop

/-! ### An index twice -/

/-- Objects of one key, arrays and numbers. -/
inductive Tree where
  | number
  | array (items : List Tree)
  | object (key : List Char) (value : Tree)

/-- The value at a segment. -/
def Tree.child : Tree → List Char → Option Tree
  | .number, _ => none
  | .array items, segment =>
    if segment.all Char.isDigit then items[Nat.ofDigitChars 10 segment 0]? else none
  | .object key value, segment => if segment = key then some value else none

/-- `gjson` on these. -/
def treeGjson : Gjson Tree where
  get tree path := (path.splitOn '.').foldlM Tree.child tree
  length tree := match tree with
    | .array items => some items.length
    | _ => none

/-- `{"a": [[0], [0, 0, 0]]}`. -/
def uneven : Tree :=
  .object ['a'] (.array [.array [.number], .array [.number, .number, .number]])

theorem processNegativeIndex_resolves_once :
    processNegativeIndex treeGjson uneven (['a'] ++ dotted [['-', '1']]) =
      actual treeGjson (some uneven) ['a'] ++
        dotted (resolved treeGjson (next treeGjson (some uneven) ['a']) [['-', '1']]) := by
  have hrange : InRange treeGjson (some uneven) [['a'], ['-', '1']] :=
    ⟨fun h => absurd h (by decide), fun _ => ⟨2, rfl, by decide⟩, trivial⟩
  exact (processNegativeIndex_resolves_iff treeGjson uneven (by decide) hrange).2
    ⟨by decide, fun _ => rfl, trivial⟩

/-- **The second index is taken from the first array**: `a.-1.-1` becomes `a.1.1`. -/
theorem processNegativeIndex_repeated :
    InRange treeGjson (some uneven) [['a'], ['-', '1'], ['-', '1']] ∧
      processNegativeIndex treeGjson uneven "a.-1.-1".toList = "a.1.1".toList ∧
        resolved treeGjson (some uneven) [['a'], ['-', '1'], ['-', '1']] = [['a'], ['1'], ['2']] :=
  ⟨⟨fun h => absurd h (by decide), fun _ => ⟨2, rfl, by decide⟩, fun _ => ⟨3, rfl, by decide⟩,
    trivial⟩, by decide, by decide⟩

end NexusTok.Override
