import NexusTok.Text.Affix

/-!
# Namespaces of caches

`Namespace.FullKey` puts the namespace in front of a key that does not have it yet, and
`Namespace.MatchPattern` is the glob of all keys of the namespace.

* `fullKey_fullKey` : a full key stays as it is, in a namespace that is not empty.
* `fullKey_eq_append_iff` : which keys the namespace is put in front of as they are.
-/

namespace NexusTok

open List

/-- `Namespace.prefix`. -/
def namePrefix (ns : String) : String :=
  let ns := trimRight ':' (trimSpace ns)
  if ns = "" then "" else ns ++ ":"

/-- `Namespace.FullKey`. -/
def fullKey (ns key : String) : String :=
  let key := trimSpace key
  if key = "" then ""
  else
    let p := namePrefix ns
    if p = "" then trimLeft ':' key
    else if hasPrefix key p then key
    else p ++ trimLeft ':' key

/-- `Namespace.MatchPattern`. -/
def matchPattern (ns : String) : String :=
  let p := namePrefix ns
  if p = "" then "*" else p ++ "*"

/-! ### Full keys -/

/-- A prefix of a namespace starts and ends with no space. -/
theorem trimmed_namePrefix {ns : String} (hne : namePrefix ns ≠ "") :
    Trimmed (namePrefix ns).toList := by
  unfold namePrefix at hne ⊢
  dsimp only at hne ⊢
  split at hne
  · exact absurd rfl hne
  · rename_i hname
    rw [if_neg hname, String.toList_append]
    have hchars : (trimRight ':' (trimSpace ns)).toList ≠ [] := by
      simpa [String.toList_eq_nil_iff] using hname
    constructor
    · intro c hc
      rw [head?_append_of_ne_nil _ hchars] at hc
      unfold trimRight at hc
      rw [String.toList_ofList] at hc
      obtain ⟨t, ht⟩ := rdropWhile_prefix (· == ':') (trimSpace ns).toList
      refine (trimmed_trimSpace ns).1 c ?_
      cases hl : (trimSpace ns).toList.rdropWhile (· == ':') with
      | nil => simp [hl] at hc
      | cons c' cs =>
        rw [hl] at hc ht
        rw [← ht]
        exact hc
    · intro c hc
      have hcolon : (":" : String).toList = [':'] := rfl
      rw [hcolon, getLast?_concat, Option.mem_some_iff] at hc
      rw [← hc]
      decide

theorem fullKey_append {ns key : String} (hne : namePrefix ns ≠ "")
    (hlast : ∀ c ∈ key.toList.getLast?, isSpace c = false) :
    fullKey ns (namePrefix ns ++ key) = namePrefix ns ++ key := by
  have hchars : (namePrefix ns).toList ≠ [] := mt String.toList_eq_nil_iff.1 hne
  have htrimmed := (trimmed_namePrefix hne).append hchars hlast
  rw [← String.toList_append] at htrimmed
  have hstarts : hasPrefix (namePrefix ns ++ key) (namePrefix ns) = true := by
    rw [hasPrefix, String.toList_append, isPrefixOf_iff_prefix]
    exact prefix_append ..
  have hfull : namePrefix ns ++ key ≠ "" := by
    rw [← String.toList_inj.ne, String.toList_append]
    exact append_ne_nil_of_left_ne_nil hchars _
  unfold fullKey
  dsimp only
  rw [trimSpace_of_trimmed htrimmed, if_neg hfull, if_neg hne, if_pos hstarts]

/-- **A full key stays as it is.** -/
theorem fullKey_fullKey {ns : String} (hne : namePrefix ns ≠ "") (key : String) :
    fullKey ns (fullKey ns key) = fullKey ns key := by
  have hempty : fullKey ns "" = "" := rfl
  by_cases hkey : trimSpace key = ""
  · have hnone : fullKey ns key = "" := if_pos hkey
    rw [hnone, hempty]
  by_cases hp : hasPrefix (trimSpace key) (namePrefix ns) = true
  · have hself : fullKey ns key = trimSpace key := by
      unfold fullKey
      dsimp only
      rw [if_neg hkey, if_neg hne, if_pos hp]
    rw [hself]
    unfold fullKey
    dsimp only
    rw [trimSpace_trimSpace, if_neg hkey, if_neg hne, if_pos hp]
  · have hfull : fullKey ns key = namePrefix ns ++ trimLeft ':' (trimSpace key) := by
      unfold fullKey
      dsimp only
      rw [if_neg hkey, if_neg hne, if_neg hp]
    rw [hfull]
    refine fullKey_append hne fun c hc => ?_
    unfold trimLeft at hc
    rw [String.toList_ofList] at hc
    obtain ⟨t, ht⟩ := dropWhile_suffix (l := (trimSpace key).toList) (· == ':')
    refine (trimmed_trimSpace key).2 c ?_
    rcases eq_nil_or_concat ((trimSpace key).toList.dropWhile (· == ':')) with
      hnil | ⟨init, last, hl⟩
    · simp [hnil] at hc
    · rw [concat_eq_append] at hl
      rw [hl, getLast?_concat] at hc
      rw [← ht, hl, ← append_assoc, getLast?_concat]
      exact hc

theorem fullKey_fullKey_plain : fullKey "a" (fullKey "a" " b") = fullKey "a" " b" :=
  fullKey_fullKey (by decide) " b"

/-- The keys that the namespace is put in front of as they are. -/
theorem fullKey_eq_append_iff {ns s : String} (hne : namePrefix ns ≠ "") (hs : s ≠ "")
    (hlast : ∀ c ∈ s.toList.getLast?, isSpace c = false) :
    fullKey ns s = namePrefix ns ++ s ↔
      (∀ c ∈ s.toList.head?, isSpace c = false ∧ c ≠ ':') ∧
        hasPrefix s (namePrefix ns) = false := by
  have hpart : (trimSpace s).toList.Sublist s.toList := by
    have hback : (trimSpace s).toList = (s.toList.dropWhile isSpace).rdropWhile isSpace := by
      rw [trimSpace, String.toList_ofList]
      rfl
    rw [hback]
    exact ( rdropWhile_prefix isSpace _).sublist.trans (dropWhile_suffix isSpace).sublist
  constructor
  · intro h
    unfold fullKey at h
    dsimp only at h
    split_ifs at h with hkey hp
    · rw [← String.toList_inj, String.toList_append] at h
      have hnil := (append_eq_nil_iff.1 h.symm).2
      exact absurd (String.toList_eq_nil_iff.1 hnil) hs
    · have hlen := congrArg List.length (String.toList_inj.2 h)
      have hpos : 0 < (namePrefix ns).toList.length :=
        length_pos_of_ne_nil (mt String.toList_eq_nil_iff.1 hne)
      have hle := hpart.length_le
      rw [String.toList_append, length_append] at hlen
      omega
    · -- nothing was trimmed
      rw [← String.toList_inj, String.toList_append, String.toList_append,
        append_cancel_left_eq, trimLeft, String.toList_ofList] at h
      have hsuffix := dropWhile_suffix (l := (trimSpace s).toList) (· == ':')
      rw [h] at hsuffix
      have hself : trimSpace s = s :=
        String.toList_inj.1 (hpart.antisymm hsuffix.sublist)
      rw [hself] at h hp
      refine ⟨fun c hc => ⟨?_, ?_⟩, Bool.not_eq_true _ ▸ hp⟩
      · exact (trimmed_trimSpace s).1 c (by rwa [hself])
      · rintro rfl
        cases hl : s.toList with
        | nil => simp [hl] at hc
        | cons d ds =>
          rw [hl, head?_cons, Option.mem_some_iff] at hc
          rw [hl, hc] at h
          have hlen := congrArg List.length h
          have hle := (dropWhile_suffix (l := ds) (· == ':')).length_le
          simp at hlen
          omega
  · rintro ⟨hhead, hp⟩
    have hself : trimSpace s = s := trimSpace_of_trimmed ⟨fun c hc => (hhead c hc).1, hlast⟩
    have hleft : trimLeft ':' s = s := by
      rw [trimLeft]
      cases hl : s.toList with
      | nil => exact absurd (String.toList_eq_nil_iff.1 hl) hs
      | cons d ds =>
        have hd := (hhead d (by rw [hl]; rfl)).2
        rw [dropWhile_cons_of_neg (by simpa using hd), ← hl, String.ofList_toList]
    unfold fullKey
    dsimp only
    rw [hself, if_neg hs, if_neg hne, hp, hleft, if_neg Bool.false_ne_true]

example : fullKey " channel_affinity:v1: " ":user:7 " = "channel_affinity:v1:user:7" := by decide

end NexusTok
