import Mathlib.Data.Finset.Max
import Mathlib.Data.List.Basic
import Mathlib.Logic.Function.Basic

/-!
# Legacy overrides

`applyOperationsLegacy` writes the entries of a map into a JSON object, each through a path of
`sjson`.  `escapeSjsonLiteralKey` makes a path of a key: it escapes the dot, the wildcards and the
backslash.

* `parsePath_escape` : what the path of a key names.
* `applyOperationsLegacy_assigns_iff` : the object gets exactly the entries of the map, in every
  order, if and only if no key is empty, starts with a colon or has one of the characters `|#@`.
-/

namespace NexusTok.Override

open List

/-! ### Paths -/

/-- Characters that make a path complex, unless they are escaped. -/
def complexChars : List Char := ['|', '#', '@', '*', '?']

/-- The component a path starts with, and what follows its dot: nothing, if it is complex.  The
character after a backslash is taken as it is. -/
def component : Bool → List Char → Option (List Char × Option (List Char))
  | _, [] => some ([], none)
  | true, c :: path => (component false path).map fun r => (c :: r.1, r.2)
  | false, c :: path =>
    if c = '\\' then component true path
    else if c = '.' then some ([], some path)
    else if c ∈ complexChars then none
    else (component false path).map fun r => (c :: r.1, r.2)

/-- A text without the colon that forces a component to be a key. -/
def dropColon : List Char → List Char
  | ':' :: path => path
  | path => path

/-- `parsePath` of `sjson`. -/
def parsePath (path : String) : Option (List Char × Option (List Char)) :=
  component false (dropColon path.toList)

/-- What `escapeSjsonLiteralKey` escapes. -/
def escapedChars : List Char := ['.', '*', '?', '\\']

/-- A character of an escaped key. -/
def escapeChar (c : Char) : List Char := if c ∈ escapedChars then ['\\', c] else [c]

def escapeSjsonLiteralKey (key : String) : String :=
  if key.toList.any escapedChars.contains = false then key
  else String.ofList (key.toList.flatMap escapeChar)

/-! ### Objects -/

variable {V E : Type}

/-- A JSON object. -/
abbrev Body (V : Type) := String → Option V

/-- **`sjson.SetBytes` on an object**: a path of one component names a key, an empty path is an
error, and a complex path changes what it finds without adding a key. -/
structure Sjson (V E : Type) where
  set : Body V → String → V → Except E (Body V)
  empty : ∀ body v, ∃ e, set body "" v = .error e
  key : ∀ body path v part, path ≠ "" → parsePath path = some (part, none) →
    set body path v = .ok (Function.update body (String.ofList part) (some v))
  complex : ∀ body path v body', parsePath path = none → set body path v = .ok body' →
    ∀ k, body k = none → body' k = none

/-- A Go map, with its entries in some order. -/
structure GoMap (V : Type) where
  entries : List (String × V)
  nodup : (entries.map Prod.fst).Nodup

/-- One turn of the loop. -/
def setLiteral (sjson : Sjson V E) (result : Body V) (entry : String × V) : Except E (Body V) :=
  sjson.set result (escapeSjsonLiteralKey entry.1) entry.2

/-- `applyOperationsLegacy`, with the entries in the order of the loop. -/
def applyOperationsLegacy (sjson : Sjson V E) (jsonData : Body V)
    (paramOverride : List (String × V)) : Except E (Body V) :=
  if paramOverride.length = 0 then .ok jsonData
  else paramOverride.foldlM (setLiteral sjson) jsonData

/-- **What it is for**: every key has its value, and all else is as before. -/
structure Assigned (jsonData : Body V) (paramOverride : List (String × V)) (result : Body V) :
    Prop where
  value : ∀ key value, (key, value) ∈ paramOverride → result key = some value
  other : ∀ key, key ∉ paramOverride.map Prod.fst → result key = jsonData key

/-- A text without the characters `|#@`. -/
def Simple (key : List Char) : Prop := ∀ c ∈ key, c ∉ ['|', '#', '@']

/-- A key that its path names. -/
def Addressable (key : String) : Prop :=
  key ≠ "" ∧ key.toList.head? ≠ some ':' ∧ Simple key.toList

/-! ### The path of a key -/

theorem component_flatMap_escapeChar (key : List Char) :
    (Simple key → component false (key.flatMap escapeChar) = some (key, none)) ∧
      (¬Simple key → component false (key.flatMap escapeChar) = none) := by
  induction key with
  | nil => exact ⟨fun _ => rfl, fun h => absurd (forall_mem_nil _) h⟩
  | cons c key ih =>
    have hsimple : Simple (c :: key) ↔ c ∉ ['|', '#', '@'] ∧ Simple key := forall_mem_cons
    rw [flatMap_cons, hsimple]
    by_cases hescaped : c ∈ escapedChars
    · have hplain : c ∉ ['|', '#', '@'] := by
        simp only [escapedChars, mem_cons, not_mem_nil, or_false] at hescaped ⊢
        rcases hescaped with rfl | rfl | rfl | rfl <;> decide
      rw [escapeChar, if_pos hescaped, cons_append, cons_append, component, if_pos rfl,
        nil_append, component]
      exact ⟨fun h => by rw [ih.1 h.2]; rfl, fun h => by rw [ih.2 fun hk => h ⟨hplain, hk⟩]; rfl⟩
    · have hchars : c ≠ '\\' ∧ c ≠ '.' ∧ (c ∈ complexChars ↔ c ∈ ['|', '#', '@']) := by
        simp only [escapedChars, complexChars, mem_cons, not_mem_nil, or_false,
          not_or] at hescaped ⊢
        tauto
      rw [escapeChar, if_neg hescaped, cons_append, nil_append, component,
        if_neg hchars.1, if_neg hchars.2.1]
      by_cases hspecial : c ∈ ['|', '#', '@']
      · rw [if_pos (hchars.2.2.2 hspecial)]
        exact ⟨fun h => absurd hspecial h.1, fun _ => rfl⟩
      · rw [if_neg fun h => hspecial (hchars.2.2.1 h)]
        exact ⟨fun h => by rw [ih.1 h.2]; rfl,
          fun h => by rw [ih.2 fun hk => h ⟨hspecial, hk⟩]; rfl⟩

theorem toList_escape (key : String) :
    (escapeSjsonLiteralKey key).toList = key.toList.flatMap escapeChar := by
  rw [escapeSjsonLiteralKey]
  split
  · rename_i h
    have hsame : key.toList.flatMap escapeChar = key.toList.flatMap fun c => [c] :=
      flatMap_congr fun c hc => if_neg fun hmem =>
        any_eq_false.1 h c hc (contains_iff_mem.2 hmem)
    rw [hsame, flatMap_singleton']
  · exact String.toList_ofList

theorem dropColon_flatMap (key : List Char) :
    dropColon (key.flatMap escapeChar) = (dropColon key).flatMap escapeChar := by
  cases key with
  | nil => rfl
  | cons c key =>
    by_cases hcolon : c = ':'
    · rw [hcolon]
      rfl
    · have hkey : dropColon (c :: key) = c :: key := by
        rw [dropColon]
        rintro _ ⟨⟩
        exact hcolon rfl
      rw [hkey, flatMap_cons, escapeChar]
      split
      · rfl
      · rw [cons_append, dropColon]
        rintro _ ⟨⟩
        exact hcolon rfl

/-- **What the path of a key names**: the key without its colon, unless it is complex. -/
theorem parsePath_escape (key : String) :
    (Simple (dropColon key.toList) →
        parsePath (escapeSjsonLiteralKey key) = some (dropColon key.toList, none)) ∧
      (¬Simple (dropColon key.toList) → parsePath (escapeSjsonLiteralKey key) = none) := by
  rw [parsePath, toList_escape, dropColon_flatMap]
  exact component_flatMap_escapeChar _

theorem escape_ne_empty {key : String} (h : key ≠ "") : escapeSjsonLiteralKey key ≠ "" := by
  intro hempty
  have hchars := toList_escape key
  rw [hempty] at hchars
  cases hkey : key.toList with
  | nil => exact h (String.toList_inj.1 hkey)
  | cons c rest =>
    rw [hkey, flatMap_cons, escapeChar] at hchars
    split at hchars <;> cases hchars

theorem dropColon_of_head? {key : List Char} (h : key.head? ≠ some ':') : dropColon key = key := by
  rw [dropColon]
  rintro rest rfl
  exact h rfl

/-! ### Keys that are named -/

variable {sjson : Sjson V E}

theorem setLiteral_addressable {key : String} (h : Addressable key) (result : Body V) (value : V) :
    setLiteral sjson result (key, value) = .ok (Function.update result key (some value)) := by
  obtain ⟨hne, hcolon, hplain⟩ := h
  have hpath := (parsePath_escape key).1
  rw [dropColon_of_head? hcolon] at hpath
  replace hpath := hpath hplain
  have hset := sjson.key result _ value _ (escape_ne_empty hne) hpath
  rwa [String.ofList_toList] at hset

/-- **Writes to keys that are named** assign them. -/
theorem foldlM_setLiteral (sjson : Sjson V E) {entries : List (String × V)}
    (hnodup : (entries.map Prod.fst).Nodup)
    (h : ∀ key ∈ entries.map Prod.fst, Addressable key)
    (jsonData : Body V) : ∃ result, entries.foldlM (setLiteral sjson) jsonData = .ok result ∧
      Assigned jsonData entries result := by
  induction entries generalizing jsonData with
  | nil => exact ⟨jsonData, rfl, by simp, fun _ _ => rfl⟩
  | cons entry entries ih =>
    obtain ⟨key, value⟩ := entry
    rw [map_cons, nodup_cons] at hnodup
    obtain ⟨result, hrun, hassigned⟩ := ih hnodup.2
      (fun key hk => h key (mem_cons_of_mem _ hk)) (Function.update jsonData key (some value))
    refine ⟨result, ?_, fun key' value' hmem => ?_, fun key' hmem => ?_⟩
    · rw [foldlM_cons, setLiteral_addressable (h key mem_cons_self)]
      exact hrun
    · rcases mem_cons.1 hmem with heq | hmem
      · cases heq
        rw [hassigned.other _ hnodup.1, Function.update_self]
      · exact hassigned.value key' value' hmem
    · rw [map_cons, mem_cons, not_or] at hmem
      rw [hassigned.other key' hmem.2, Function.update_of_ne hmem.1]

theorem Assigned.perm {jsonData result : Body V} {entries paramOverride : List (String × V)}
    (h : Assigned jsonData entries result) (hperm : entries.Perm paramOverride) :
    Assigned jsonData paramOverride result :=
  ⟨fun key value hmem => h.value key value (hperm.mem_iff.2 hmem),
    fun key hmem => h.other key fun hk => hmem ((hperm.map Prod.fst).mem_iff.1 hk)⟩

/-! ### Keys that are not -/

/-- The path of one key names another one. -/
def Names (key' key : String) : Prop :=
  key' ≠ "" ∧ Simple (dropColon key'.toList) ∧ dropColon key'.toList = key.toList

/-- **No write adds a key** that no path names. -/
theorem foldlM_absent {key : String} {entries : List (String × V)}
    (h : ∀ e ∈ entries, ¬Names e.1 key) {jsonData result : Body V}
    (hrun : entries.foldlM (setLiteral sjson) jsonData = .ok result)
    (habsent : jsonData key = none) : result key = none := by
  induction entries generalizing jsonData with
  | nil =>
    rcases hrun
    exact habsent
  | cons e entries ih =>
    rw [foldlM_cons] at hrun
    rcases hset : setLiteral sjson jsonData e with _ | next
    · rw [hset] at hrun
      cases hrun
    rw [hset] at hrun
    refine ih (fun e he => h e (mem_cons_of_mem _ he)) hrun ?_
    have hne : e.1 ≠ "" := by
      intro hempty
      obtain ⟨err, herr⟩ := sjson.empty jsonData e.2
      rw [setLiteral, hempty] at hset
      cases herr.symm.trans hset
    obtain ⟨hsimple, hcomplex⟩ := parsePath_escape e.1
    by_cases hplain : Simple (dropColon e.1.toList)
    · rw [setLiteral, sjson.key _ _ _ _ (escape_ne_empty hne) (hsimple hplain)] at hset
      cases hset
      rw [Function.update_of_ne, habsent]
      rintro rfl
      exact h e mem_cons_self ⟨hne, hplain, String.toList_ofList.symm⟩
    · exact sjson.complex _ _ _ _ (hcomplex hplain) hset key habsent

/-- **The entries are assigned if and only if every key is named by its own path**. -/
theorem applyOperationsLegacy_assigns_iff (sjson : Sjson V E) (paramOverride : GoMap V) :
    (∀ entries, entries.Perm paramOverride.entries → ∀ jsonData, ∃ result,
      applyOperationsLegacy sjson jsonData entries = .ok result ∧
        Assigned jsonData paramOverride.entries result) ↔
      ∀ key ∈ paramOverride.entries.map Prod.fst, Addressable key := by
  have hloop : ∀ jsonData entries, applyOperationsLegacy sjson jsonData entries =
      entries.foldlM (setLiteral sjson) jsonData := by
    intro jsonData entries
    cases entries <;> rfl
  constructor
  · intro h
    obtain ⟨result, hrun, hassigned⟩ := h _ (List.Perm.refl _) fun _ => none
    rw [hloop] at hrun
    -- Written into the empty object, a key is there only if the path of some key names it.
    have hnamed : ∀ key ∈ paramOverride.entries.map Prod.fst,
        ∃ key' ∈ paramOverride.entries.map Prod.fst, Names key' key := by
      intro key hkey
      obtain ⟨e, he, rfl⟩ := List.mem_map.1 hkey
      by_contra hnot
      have habsent := foldlM_absent (fun e' he' hnames =>
        hnot ⟨e'.1, List.mem_map_of_mem he', hnames⟩) hrun rfl
      rw [hassigned.value e.1 e.2 he] at habsent
      cases habsent
    -- The longest key with a colon could be named only by a longer one.
    have hcolon : ∀ key ∈ paramOverride.entries.map Prod.fst, key.toList.head? ≠ some ':' := by
      intro key hkey hhead
      obtain ⟨longest, hlongest, hmax⟩ := Finset.exists_max_image
        ((paramOverride.entries.map Prod.fst).toFinset.filter (·.toList.head? = some ':'))
        (·.toList.length) ⟨key, by simpa using ⟨by simpa using hkey, hhead⟩⟩
      simp only [Finset.mem_filter, List.mem_toFinset] at hlongest hmax
      obtain ⟨key', hkey', -, -, hdrop⟩ := hnamed longest hlongest.1
      by_cases hhead' : key'.toList.head? = some ':'
      · have hle := hmax key' ⟨hkey', hhead'⟩
        obtain ⟨rest, hrest⟩ := List.head?_eq_some_iff.1 hhead'
        rw [hrest] at hle hdrop
        rw [← hdrop] at hle
        exact absurd hle (by simp [dropColon])
      · rw [dropColon_of_head? hhead'] at hdrop
        exact hhead' (hdrop ▸ hlongest.2)
    intro key hkey
    obtain ⟨key', hkey', hne, hplain, hdrop⟩ := hnamed key hkey
    have hsame : dropColon key'.toList = key'.toList := dropColon_of_head? (hcolon key' hkey')
    obtain rfl := String.toList_inj.1 (hsame.symm.trans hdrop)
    exact ⟨hne, hcolon _ hkey, hsame ▸ hplain⟩
  · intro h entries hperm jsonData
    obtain ⟨result, hrun, hassigned⟩ := foldlM_setLiteral sjson
      ((hperm.map Prod.fst).nodup_iff.2 paramOverride.nodup)
      (fun key hk => h key ((hperm.map Prod.fst).mem_iff.1 hk)) jsonData
    exact ⟨result, (hloop jsonData entries).trans hrun, hassigned.perm hperm⟩

/-! ### A key with a colon -/

/-- `sjson` where no path is complex and none has a second component. -/
def plainSjson : Sjson ℕ String where
  set body path value :=
    if path = "" then .error "path cannot be empty"
    else match parsePath path with
      | some (part, _) => .ok (Function.update body (String.ofList part) (some value))
      | none => .ok body
  empty _ _ := ⟨_, rfl⟩
  key _ _ _ _ hne hpath := by rw [if_neg hne, hpath]
  complex body path value body' hpath hset k habsent := by
    rw [hpath] at hset
    split at hset <;> cases hset
    exact habsent

/-- **A colon is lost**: `{":a": 1}` sets the key `a`. -/
theorem applyOperationsLegacy_colon :
    ¬∃ result, applyOperationsLegacy plainSjson (fun _ => none) [(":a", 1)] = .ok result ∧
      Assigned (fun _ => none) [(":a", 1)] result := by
  rintro ⟨result, hrun, hassigned⟩
  have hvalue := hassigned.value ":a" 1 List.mem_cons_self
  cases hrun
  exact absurd hvalue (by decide)

end NexusTok.Override
