import Mathlib.Data.List.Forall2
import Mathlib.Data.List.Permutation
import Mathlib.Data.List.TakeDrop
import Mathlib.Logic.Relation
import NexusTok.Reasoning.Billing
import NexusTok.Text.Split

/-!
# Modifiers in another order

The price side says of the modifiers of a name that their order, duplicates and case do not matter.
What a name is priced at depends on the last thinking and the last effort modifier only, and on
which of the two stands behind the other where one turns thinking off and the other gives a level.

* `parse_spelled` : what is read of a base and a chain of modifiers.
* `parseModelModifiers_lossless` : every name is such a base and chain, and is read back.
* `billing_eq` : the intent of a chain, as the fold of its controls.
* `Rearranged` : chains that differ in order, in letter case and in what was given twice.
* `canonicalBillingModelNames_rearranged_iff` : when all of them are priced alike.
-/

namespace NexusTok.Canonical

open List Except

/-! ### Spelling -/

/-- A key of a modifier: a letter, and then letters, digits, underscores and hyphens. -/
def isKey (key : String) : Bool :=
  match key.toList with
  | [] => false
  | c :: cs => isLetter c && cs.all isKeyTail

/-- A modifier as it is spelled. -/
structure Modifier where
  key : String
  value : String
  key_valid : isKey key = true
  no_marker : '@' ∉ value.toList

namespace Modifier

variable (m : Modifier)

/-- The text of the modifier. -/
def segment : String := m.key ++ ":" ++ m.value

def read : ModelModifier := ⟨toLower m.key, m.value⟩

theorem toList_segment : m.segment.toList = m.key.toList ++ ':' :: m.value.toList := by
  simp [segment, String.toList_append]

variable {m}

theorem isKeyTail_ne {c : Char} (h : isKeyTail c = true) : c ≠ ':' ∧ c ≠ '@' := by
  constructor
  · rintro rfl
    revert h
    decide
  · rintro rfl
    revert h
    decide

theorem key_ne {c : Char} (h : c ∈ m.key.toList) : c ≠ ':' ∧ c ≠ '@' := by
  have hkey := m.key_valid
  unfold isKey at hkey
  cases hlist : m.key.toList with
  | nil =>
    rw [hlist] at h
    cases h
  | cons d ds =>
    rw [hlist] at hkey h
    rw [Bool.and_eq_true, all_eq_true] at hkey
    have htail : isKeyTail c = true := by
      rcases mem_cons.1 h with rfl | hc
      · simp [isKeyTail, hkey.1]
      · exact hkey.2 c hc
    exact isKeyTail_ne htail

theorem no_marker_segment : '@' ∉ m.segment.toList := by
  rw [toList_segment, mem_append, mem_cons]
  rintro (h | h | h)
  · exact (key_ne h).2 rfl
  · exact absurd h (by decide)
  · exact m.no_marker h

/-- **The text of a modifier is read as one.** -/
theorem parse_segment (m : Modifier) : parseModelModifierSegment m.segment = some m.read := by
  have hspan : m.segment.toList.span (· != ':') = (m.key.toList, ':' :: m.value.toList) := by
    rw [toList_segment, span_eq_takeWhile_dropWhile,
      takeWhile_append_of_pos fun c hc => by simpa using (key_ne hc).1,
      dropWhile_append_of_pos fun c hc => by simpa using (key_ne hc).1]
    simp
  have hkey := m.key_valid
  unfold isKey at hkey
  unfold parseModelModifierSegment
  rw [hspan]
  cases hlist : m.key.toList with
  | nil =>
    rw [hlist] at hkey
    cases hkey
  | cons c cs =>
    rw [hlist] at hkey
    dsimp only at hkey
    simp only [hkey, if_true]
    rw [← hlist, String.ofList_toList, String.ofList_toList]
    rfl

end Modifier

theorem toList_at : ("@" : String).toList = ['@'] := rfl

/-- A model name that is not empty and does not end in a modifier. -/
structure BaseModel where
  name : String
  name_ne : name ≠ ""
  bare : ∀ segment ∈ (split '@' name).tail.getLast?, parseModelModifierSegment segment = none

/-- The name of a model with modifiers. -/
def BaseModel.spelled (b : BaseModel) (l : List Modifier) : String :=
  l.foldl (fun name m => name ++ "@" ++ m.segment) b.name

theorem split_spelled (name : String) (l : List Modifier) :
    split '@' (l.foldl (fun name m => name ++ "@" ++ m.segment) name) =
      split '@' name ++ l.map (·.segment) := by
  induction l generalizing name with
  | nil => rw [foldl_nil, map_nil, append_nil]
  | cons m l ih =>
    rw [foldl_cons, ih, split_append toList_at, split_of_not_mem m.no_marker_segment, map_cons,
      append_assoc, singleton_append]

section Chain

variable {step : String → List String × List ModelModifier → List String × List ModelModifier}

/-- A part that is no modifier ends the chain, and all parts before it are kept. -/
theorem foldr_rest
    (hrest : ∀ part q rest mods, step part (q :: rest, mods) = (part :: q :: rest, mods))
    (parts : List String) (q : String) (rest : List String) (mods : List ModelModifier) :
    parts.foldr step (q :: rest, mods) = (parts ++ q :: rest, mods) := by
  induction parts with
  | nil => rfl
  | cons part parts ih =>
    rw [foldr_cons, ih]
    cases parts with
    | nil => exact hrest part q rest mods
    | cons part' parts => exact hrest part part' (parts ++ q :: rest) mods

theorem foldr_chain
    (hread : ∀ (m : Modifier) mods, step m.segment ([], mods) = ([], m.read :: mods))
    (hstop : ∀ part mods, parseModelModifierSegment part = none →
      step part ([], mods) = ([part], mods))
    (hrest : ∀ part q rest mods, step part (q :: rest, mods) = (part :: q :: rest, mods))
    {parts : List String} (h : ∀ part ∈ parts.getLast?, parseModelModifierSegment part = none)
    (l : List Modifier) :
    (parts ++ l.map (·.segment)).foldr step ([], []) = (parts, l.map (·.read)) := by
  have hchain : (l.map (·.segment)).foldr step ([], []) = ([], l.map (·.read)) := by
    induction l with
    | nil => rfl
    | cons m l ih => rw [map_cons, foldr_cons, ih, hread, map_cons]
  rw [foldr_append, hchain]
  rcases eq_nil_or_concat parts with rfl | ⟨init, last, rfl⟩
  · rfl
  · rw [concat_eq_append] at h ⊢
    have hlast : parseModelModifierSegment last = none := h last (by simp)
    rw [foldr_append, foldr_cons, foldr_nil, hstop last _ hlast]
    exact foldr_rest hrest init last [] _

end Chain

theorem modifierChain_spelled {name : String}
    (hbare : ∀ segment ∈ (split '@' name).tail.getLast?, parseModelModifierSegment segment = none)
    (l : List Modifier) :
    modifierChain (split '@' name ++ l.map (·.segment)) = (split '@' name, l.map (·.read)) := by
  cases hparts : split '@' name with
  | nil => exact absurd hparts (split_ne_nil '@' name)
  | cons part parts =>
    rw [hparts, tail_cons] at hbare
    simp only [cons_append, modifierChain]
    rw [foldr_chain (fun m mods => ?_) (fun part mods hpart => ?_) (fun part q rest mods => ?_)
      hbare l]
    · simp only [Modifier.parse_segment]
    · simp only [hpart]
    · rfl

/-- **What is read of a base and a chain of modifiers.** -/
theorem parse_spelled (b : BaseModel) (l : List Modifier) :
    (parseModelModifiers (b.spelled l)).base = b.name ∧
      (parseModelModifiers (b.spelled l)).modifiers = l.map (·.read) := by
  have hchain : modifierChain (split '@' (b.spelled l)) = (split '@' b.name, l.map (·.read)) := by
    rw [BaseModel.spelled, split_spelled, modifierChain_spelled b.bare]
  simp only [parseModelModifiers, hchain, intercalate_split toList_at]
  cases l with
  | nil => exact ⟨rfl, rfl⟩
  | cons m l =>
    simp only [map_cons, reduceCtorEq, if_false, if_neg b.name_ne, and_self]

/-! ### Every name -/

/-- Every segment that is read as a modifier is the text of one. -/
theorem Modifier.exists_of_parse {segment : String} {r : ModelModifier}
    (h : parseModelModifierSegment segment = some r) (hno : '@' ∉ segment.toList) :
    ∃ m : Modifier, m.segment = segment := by
  unfold parseModelModifierSegment at h
  rw [span_eq_takeWhile_dropWhile] at h
  have hparts := takeWhile_append_dropWhile (p := (· != ':')) (l := segment.toList)
  split at h
  next c cs value hspan =>
    rw [Prod.mk.injEq] at hspan
    rw [hspan.1, hspan.2] at hparts
    split_ifs at h with hkey
    have hvalue : '@' ∉ value := fun hmem => hno (by rw [← hparts]; simp [hmem])
    refine ⟨⟨String.ofList (c :: cs), String.ofList value, ?_, ?_⟩, ?_⟩
    · rw [isKey, String.toList_ofList]
      exact hkey
    · rwa [String.toList_ofList]
    · rw [← String.toList_inj, Modifier.toList_segment, ← hparts]
      dsimp only
      rw [String.toList_ofList, String.toList_ofList]
  next => cases h

/-- The modifiers at the end of the parts of a name. -/
theorem exists_chain (parts : List String) (hno : ∀ part ∈ parts, '@' ∉ part.toList) :
    ∃ init, ∃ l : List Modifier, parts = init ++ l.map (·.segment) ∧
      ∀ part ∈ init.getLast?, parseModelModifierSegment part = none := by
  induction parts using List.reverseRecOn with
  | nil => exact ⟨[], [], rfl, fun part hpart => by cases hpart⟩
  | append_singleton parts part ih =>
    cases hpart : parseModelModifierSegment part with
    | none =>
      refine ⟨parts ++ [part], [], by rw [map_nil, append_nil], fun q hq => ?_⟩
      rw [getLast?_concat] at hq
      rwa [← Option.some.inj hq]
    | some r =>
      obtain ⟨init, l, hparts, hbare⟩ := ih fun q hq => hno q (mem_append_left _ hq)
      obtain ⟨m, hm⟩ := Modifier.exists_of_parse hpart (hno part (by simp))
      refine ⟨init, l ++ [m], ?_, hbare⟩
      rw [hparts, map_append, map_singleton, hm, append_assoc]

/-- **Every name** is a base and the modifiers behind it. -/
theorem exists_spelled (modelName : String) :
    ∃ base, ∃ l : List Modifier,
      modelName = l.foldl (fun name m => name ++ "@" ++ m.segment) base ∧
        ∀ segment ∈ (split '@' base).tail.getLast?, parseModelModifierSegment segment = none := by
  cases hsplit : split '@' modelName with
  | nil => exact absurd hsplit (split_ne_nil '@' modelName)
  | cons first rest =>
    have hno : ∀ part ∈ first :: rest, '@' ∉ part.toList := by
      rw [← hsplit]
      exact fun part hpart => not_mem_of_mem_split hpart
    obtain ⟨init, l, hrest, hbare⟩ :=
      exists_chain rest fun part hpart => hno part (mem_cons_of_mem _ hpart)
    have hinit : split '@' (String.intercalate "@" (first :: init)) = first :: init := by
      rw [split_intercalate toList_at (cons_ne_nil first init), flatMap_split fun part hpart => ?_]
      refine hno part ?_
      rw [hrest, ← cons_append]
      exact mem_append_left _ hpart
    refine ⟨String.intercalate "@" (first :: init), l, ?_, ?_⟩
    · rw [← intercalate_split toList_at modelName, hsplit, hrest, ← cons_append, ← hinit,
        ← split_spelled, intercalate_split toList_at, hinit]
    · rwa [hinit]

/-- A name that would have an empty base is left whole. -/
theorem parse_of_empty (l : List Modifier) :
    let name := l.foldl (fun name m => name ++ "@" ++ m.segment) ""
    (parseModelModifiers name).base = name ∧ (parseModelModifiers name).modifiers = [] := by
  intro name
  have hempty : split '@' "" = [""] := by decide
  have hchain : modifierChain (split '@' name) = ([""], l.map (·.read)) := by
    have h : modifierChain (split '@' "" ++ l.map (·.segment)) = (split '@' "", l.map (·.read)) :=
      modifierChain_spelled (by rw [hempty]; simp) l
    rwa [← split_spelled, hempty] at h
  have hbase : String.intercalate "@" [""] = "" := by decide
  simp only [parseModelModifiers, hchain, hbase, if_true, ite_self, and_self]

/-- **Reading a name** loses nothing and leaves nothing: the base and the modifiers, with their keys
as they were spelled, make up the name, the base is not empty unless the name is, and no modifiers
are left in it. -/
theorem parseModelModifiers_lossless (modelName : String) :
    (∃ l : List Modifier, l.map (·.read) = (parseModelModifiers modelName).modifiers ∧
      modelName = l.foldl (fun name m => name ++ "@" ++ m.segment)
        (parseModelModifiers modelName).base) ∧
      (modelName ≠ "" → (parseModelModifiers modelName).base ≠ "") ∧
      (parseModelModifiers (parseModelModifiers modelName).base).modifiers = [] := by
  obtain ⟨base, l, hname, hbare⟩ := exists_spelled modelName
  by_cases hbase : base = ""
  · -- nothing stands before the modifiers
    obtain ⟨hwhole, hnone⟩ := parse_of_empty l
    rw [← hbase, ← hname] at hwhole hnone
    rw [hwhole]
    exact ⟨⟨[], hnone.symm, rfl⟩, id, hnone⟩
  · have hread := parse_spelled ⟨base, hbase, hbare⟩ l
    have hagain := parse_spelled ⟨base, hbase, hbare⟩ []
    rw [BaseModel.spelled, ← hname] at hread
    rw [hread.1, hread.2]
    exact ⟨⟨l, rfl, hname⟩, fun _ => hbase, hagain.2⟩

/-! ### Controls -/

/-- The modifiers whose key is not given again behind them. -/
def lastOnes : List ModelModifier → List ModelModifier
  | [] => []
  | m :: l => if m.key ∈ l.map (·.key) then lastOnes l else m :: lastOnes l

/-- What a modifier controls. -/
inductive Control
  | thinking (parsed : Intent)
  | effort (level : Effort)
  deriving DecidableEq

/-- The control that a modifier gives, if it gives one. -/
def control (m : ModelModifier) : Option Control :=
  if m.key = "thinking" then (parseThinkingModifier m.value).map Control.thinking
  else if m.key = "effort" then
    match parseEffort m.value with
    | .error _ => none
    | .ok effort => if effort = .unset then none else some (.effort effort)
  else none

/-- One control, in the loop of `billingIntentFromModifiers`. -/
def Control.turn (acc : Intent × Bool) (c : Control) : Intent × Bool :=
  match c with
  | .thinking parsed =>
    if acc.2 ∧ parsed.mode ≠ .disabled ∧ parsed.budgetTokens = none then
      ({ acc.1 with mode := parsed.mode, source := .suffix }, true)
    else if acc.2 ∧ parsed.mode ≠ .disabled then
      ({ acc.1 with mode := parsed.mode, budgetTokens := parsed.budgetTokens,
                    budgetSource := parsed.budgetSource, source := .suffix }, true)
    else (parsed, true)
  | .effort level =>
    if level = .none then ({ mode := .disabled, effort := .none, source := .suffix }, true)
    else
      let mode := if acc.1.mode = .unset ∨ acc.1.mode = .disabled then .enabled else acc.1.mode
      ({ acc.1 with mode := mode, effort := level, source := .suffix }, true)

/-- **The controls of a chain**: those of the last modifiers of their keys. -/
def controls (l : List ModelModifier) : List Control := (lastOnes l).filterMap control

/-- The map `last`, from an index on. -/
def lastFrom (n : ℕ) (l : List ModelModifier) (last : String → ℕ) : String → ℕ :=
  (l.zipIdx n).foldl (fun last m => fun key => if key = m.1.key then m.2 else last key) last

theorem lastFrom_cons (n : ℕ) (m : ModelModifier) (l : List ModelModifier) (last : String → ℕ) :
    lastFrom n (m :: l) last =
      lastFrom (n + 1) l fun key => if key = m.key then n else last key := by
  rw [lastFrom, zipIdx_cons, foldl_cons]
  rfl

theorem lastFrom_of_not_mem {n : ℕ} {l : List ModelModifier} {last : String → ℕ} {key : String}
    (h : key ∉ l.map (·.key)) : lastFrom n l last key = last key := by
  induction l generalizing n last with
  | nil => rfl
  | cons m l ih =>
    rw [map_cons, mem_cons, not_or] at h
    rw [lastFrom_cons, ih h.2, if_neg h.1]

theorem le_lastFrom {l : List ModelModifier} {key : String} (h : key ∈ l.map (·.key)) (n : ℕ)
    (last : String → ℕ) : n ≤ lastFrom n l last key := by
  induction l generalizing n last with
  | nil => cases h
  | cons m l ih =>
    rw [lastFrom_cons]
    by_cases hl : key ∈ l.map (·.key)
    · exact Nat.le_of_succ_le (ih hl (n + 1) _)
    · rw [map_cons, mem_cons, or_iff_left hl] at h
      rw [lastFrom_of_not_mem hl, if_pos h]

theorem lastFrom_head_iff (n : ℕ) (m : ModelModifier) (l : List ModelModifier)
    (last : String → ℕ) : lastFrom n (m :: l) last m.key = n ↔ m.key ∉ l.map (·.key) := by
  rw [lastFrom_cons]
  by_cases hl : m.key ∈ l.map (·.key)
  · have hle := le_lastFrom hl (n + 1) fun key => if key = m.key then n else last key
    exact ⟨fun h => absurd hle (by omega), fun h => absurd hl h⟩
  · rw [lastFrom_of_not_mem hl, if_pos rfl]
    exact ⟨fun _ => hl, fun _ => rfl⟩

theorem billingTurn_of_last {last : String → ℕ} {m : ModelModifier} {n : ℕ} (h : last m.key = n)
    (acc : Intent × Bool) :
    billingTurn last acc (m, n) = (control m).toList.foldl Control.turn acc := by
  obtain ⟨intent, hasThinking⟩ := acc
  simp only [billingTurn, if_neg (not_not.2 h), control]
  by_cases hthinking : m.key = "thinking"
  · rw [if_pos hthinking, if_pos hthinking]
    cases parseThinkingModifier m.value <;> rfl
  · rw [if_neg hthinking, if_neg hthinking]
    by_cases heffort : m.key = "effort"
    · rw [if_pos heffort, if_pos heffort]
      cases parseEffort m.value with
      | error e => rfl
      | ok level =>
        dsimp only
        by_cases hunset : level = .unset
        · rw [if_pos hunset, if_pos hunset]
          rfl
        · rw [if_neg hunset, if_neg hunset]
          rfl
    · rw [if_neg heffort, if_neg heffort]
      rfl

theorem foldl_billingTurn (l : List ModelModifier) (n : ℕ) (last : String → ℕ)
    (acc : Intent × Bool) :
    (l.zipIdx n).foldl (billingTurn (lastFrom n l last)) acc =
      (controls l).foldl Control.turn acc := by
  induction l generalizing n last acc with
  | nil => rfl
  | cons m l ih =>
    rw [zipIdx_cons, foldl_cons, lastFrom_cons]
    have hhead := lastFrom_head_iff n m l last
    rw [lastFrom_cons] at hhead
    rw [ih]
    by_cases hm : m.key ∈ l.map (·.key)
    · have hne := mt hhead.1 (not_not.2 hm)
      have hskip : billingTurn (lastFrom (n + 1) l fun key => if key = m.key then n else last key)
          acc (m, n) = acc := by
        simp only [billingTurn, if_pos hne]
      rw [hskip, controls, controls, lastOnes, if_pos hm]
    · rw [billingTurn_of_last (hhead.2 hm), controls, controls, lastOnes, if_neg hm,
        ← foldl_append]
      cases hcontrol : control m with
      | none => rw [filterMap_cons_none hcontrol]; rfl
      | some c => rw [filterMap_cons_some hcontrol]; rfl

/-- **The intent of a chain** is the fold of its controls. -/
theorem billing_eq (spec : ModelModifierSpec) :
    billingIntentFromModifiers spec = (controls spec.modifiers).foldl Control.turn ({}, false) :=
  foldl_billingTurn spec.modifiers 0 (fun _ => 0) ({}, false)

/-! ### Both controls -/

def Control.key : Control → String
  | .thinking _ => "thinking"
  | .effort _ => "effort"

/-- A control that a modifier can give. -/
def Control.Readable (c : Control) : Prop := ∃ m, control m = some c

theorem key_control {m : ModelModifier} {c : Control} (h : control m = some c) : c.key = m.key := by
  unfold control at h
  split_ifs at h with hthinking heffort
  · obtain ⟨parsed, -, rfl⟩ := Option.map_eq_some_iff.1 h
    exact hthinking.symm
  · rcases hparse : parseEffort m.value with _ | effort
    · rw [hparse] at h; cases h
    rw [hparse] at h
    dsimp only at h
    split_ifs at h
    cases h
    exact heffort.symm

theorem lastOnes_sublist (l : List ModelModifier) : (lastOnes l).Sublist l := by
  induction l with
  | nil => exact .slnil
  | cons m l ih =>
    rw [lastOnes]
    split_ifs
    · exact ih.cons m
    · exact ih.cons_cons m

theorem nodup_lastOnes (l : List ModelModifier) : ((lastOnes l).map (·.key)).Nodup := by
  induction l with
  | nil => exact nodup_nil
  | cons m l ih =>
    rw [lastOnes]
    split_ifs with hm
    · exact ih
    · rw [map_cons, nodup_cons]
      exact ⟨fun h => hm (((lastOnes_sublist l).map (·.key)).subset h), ih⟩

theorem filterMap_key_sublist (l : List ModelModifier) :
    ((l.filterMap control).map (·.key)).Sublist (l.map (·.key)) := by
  induction l with
  | nil => exact .slnil
  | cons m l ih =>
    cases hcontrol : control m with
    | none =>
      rw [filterMap_cons_none hcontrol, map_cons]
      exact ih.cons m.key
    | some c =>
      rw [filterMap_cons_some hcontrol, map_cons, map_cons, key_control hcontrol]
      exact ih.cons_cons m.key

theorem nodup_controls (l : List ModelModifier) : ((controls l).map (·.key)).Nodup :=
  (nodup_lastOnes l).sublist (filterMap_key_sublist (lastOnes l))

/-! ### Letter case -/

/-- Two characters with one lower case.  Either that is an ASCII character, which `lowerChar` gives
for both, or neither has one. -/
def CaseVariant (c c' : Char) : Prop :=
  isSpace c = isSpace c' ∧
    (lowerChar c = lowerChar c' ∨ 128 ≤ (lowerChar c).toNat ∧ 128 ≤ (lowerChar c').toNat)

/-- Two texts that differ in letter case only. -/
def CaseVariants (s s' : String) : Prop := List.Forall₂ CaseVariant s.toList s'.toList

theorem forall₂_dropWhile {α : Type} {R : α → α → Prop} {p : α → Bool} {l l' : List α}
    (hp : ∀ a b, R a b → p a = p b) (h : List.Forall₂ R l l') :
    List.Forall₂ R (l.dropWhile p) (l'.dropWhile p) := by
  induction h with
  | nil => exact .nil
  | @cons a b l l' hab hl ih =>
    cases ha : p a with
    | true =>
      rw [dropWhile_cons_of_pos ha, dropWhile_cons_of_pos ((hp a b hab).symm.trans ha)]
      exact ih
    | false =>
      have hb : p b = false := (hp a b hab).symm.trans ha
      rw [dropWhile_cons_of_neg (by simp [ha]), dropWhile_cons_of_neg (by simp [hb])]
      exact .cons hab hl

variable {s s' value base effort modelName start : String}

theorem CaseVariants.trimSpace (h : CaseVariants s s') :
    CaseVariants (trimSpace s) (trimSpace s') := by
  have hspace : ∀ a b, CaseVariant a b → isSpace a = isSpace b := fun a b hab => hab.1
  unfold CaseVariants NexusTok.trimSpace
  rw [String.toList_ofList, String.toList_ofList, forall₂_reverse_iff]
  exact forall₂_dropWhile hspace (forall₂_reverse_iff.2 (forall₂_dropWhile hspace h))

/-- A character that is none of ASCII. -/
def HasForeign (s : String) : Prop := ∃ c ∈ s.toList, 128 ≤ c.toNat

theorem map_lowerChar_caseVariants {l l' : List Char} (h : List.Forall₂ CaseVariant l l') :
    l.map lowerChar = l'.map lowerChar ∨
      (∃ c ∈ l.map lowerChar, 128 ≤ c.toNat) ∧ ∃ c ∈ l'.map lowerChar, 128 ≤ c.toNat := by
  induction h with
  | nil => exact .inl rfl
  | @cons c c' l l' hc _ ih =>
    rcases hc.2 with heq | hforeign
    · rcases ih with ih | ⟨⟨d, hd, hfar⟩, d', hd', hfar'⟩
      · exact .inl (by rw [map_cons, map_cons, heq, ih])
      · exact .inr ⟨⟨d, mem_cons_of_mem _ hd, hfar⟩, d', mem_cons_of_mem _ hd', hfar'⟩
    · exact .inr ⟨⟨_, mem_cons_self, hforeign.1⟩, _, mem_cons_self, hforeign.2⟩

theorem CaseVariants.toLower (h : CaseVariants s s') :
    toLower s = toLower s' ∨ HasForeign (toLower s) ∧ HasForeign (toLower s') := by
  unfold HasForeign NexusTok.toLower
  simp only [String.toList_ofList, String.ofList_inj]
  exact map_lowerChar_caseVariants h

theorem HasForeign.ne {word : String} (h : HasForeign s)
    (hword : word.toList.all (fun c => c.toNat < 128) = true) : s ≠ word := by
  rintro rfl
  obtain ⟨c, hc, hfar⟩ := h
  exact absurd (of_decide_eq_true (all_eq_true.1 hword c hc)) (Nat.not_lt.2 hfar)

/-- A text with a foreign character spells no number. -/
theorem HasForeign.atoi (h : HasForeign s) : atoi s = none := by
  obtain ⟨c, hc, hfar⟩ := h
  have hdigit : c.isDigit = false := by
    rw [Char.isDigit, Bool.and_eq_false_iff, decide_eq_false_iff_not, decide_eq_false_iff_not]
    right
    intro hle
    have hle' : c.toNat ≤ 57 := hle
    omega
  have hall : ∀ digits : List Char, c ∈ digits → (!digits.all Char.isDigit) = true := by
    intro digits hmem
    rw [Bool.not_eq_true', all_eq_false]
    exact ⟨c, hmem, by simp [hdigit]⟩
  unfold NexusTok.atoi
  split
  next negative digits hsign =>
    have hmem : c ∈ digits := by
      split at hsign
      · next ds hs =>
        rw [hs] at hc
        cases hsign
        rcases mem_cons.1 hc with rfl | hc
        · exact absurd hfar (by decide)
        · exact hc
      · next ds hs =>
        rw [hs] at hc
        cases hsign
        rcases mem_cons.1 hc with rfl | hc
        · exact absurd hfar (by decide)
        · exact hc
      · cases hsign
        exact hc
    rw [if_pos (.inr (hall digits hmem))]

/-- A foreign character makes a value unreadable. -/
theorem control_of_foreign {key : String} (h : HasForeign (toLower (trimSpace value))) :
    control ⟨key, value⟩ = none := by
  have hne : ∀ word : String, word.toList.all (fun c => c.toNat < 128) = true →
      toLower (trimSpace value) ≠ word := fun word => h.ne
  unfold control
  split_ifs
  · simp only [parseThinkingModifier, if_neg (hne "on" (by rfl)),
      if_neg (hne "adaptive" (by rfl)), if_neg (hne "off" (by rfl)), h.atoi, Option.map_none]
  · simp only [parseEffort, if_neg (hne "" (by rfl)), if_neg (hne "none" (by rfl)),
      if_neg (hne "minimal" (by rfl)), if_neg (hne "low" (by rfl)),
      if_neg (hne "medium" (by rfl)), if_neg (hne "high" (by rfl)),
      if_neg (hne "xhigh" (by rfl)), if_neg (hne "max" (by rfl))]
  · rfl

/-- **Letter case does not matter** to a control. -/
theorem control_of_caseVariants {key value' : String} (h : CaseVariants value value') :
    control ⟨key, value⟩ = control ⟨key, value'⟩ := by
  rcases h.trimSpace.toLower with heq | ⟨hforeign, hforeign'⟩
  · unfold control
    dsimp only
    by_cases hthinking : key = "thinking"
    · rw [if_pos hthinking, if_pos hthinking, parseThinkingModifier, parseThinkingModifier, heq]
    · rw [if_neg hthinking, if_neg hthinking]
      by_cases heffort : key = "effort"
      · rw [if_pos heffort, if_pos heffort, parseEffort, parseEffort, heq]
        split_ifs <;> rfl
      · rw [if_neg heffort, if_neg heffort]
  · rw [control_of_foreign hforeign, control_of_foreign hforeign']

/-! ### Rearranged chains -/

/-- One rearrangement of a chain. -/
inductive Rearrangement : List Modifier → List Modifier → Prop
  | reorder (l l' : List Modifier) {m n : Modifier} : toLower m.key ≠ toLower n.key →
      Rearrangement (l ++ m :: n :: l') (l ++ n :: m :: l')
  | recase (l l' : List Modifier) {m n : Modifier} : toLower m.key = toLower n.key →
      CaseVariants m.value n.value → Rearrangement (l ++ m :: l') (l ++ n :: l')
  | drop (l l' : List Modifier) {m : Modifier} : (∃ n ∈ l', toLower n.key = toLower m.key) →
      Rearrangement (l ++ m :: l') (l ++ l')

/-- **Chains that differ** in the order of modifiers with different keys, in letter case and in
earlier modifiers of a key that is given again. -/
def Rearranged (l l' : List Modifier) : Prop := Relation.EqvGen Rearrangement l l'

section LastOnes

variable {l l' r r' : List ModelModifier} {m n : ModelModifier}

/-- The last modifiers of two chains in a row. -/
theorem lastOnes_append (l r : List ModelModifier) :
    lastOnes (l ++ r) = (lastOnes l).filter (fun m => m.key ∉ r.map (·.key)) ++ lastOnes r := by
  induction l with
  | nil => rfl
  | cons m l ih =>
    have hmem : m.key ∈ (l ++ r).map (·.key) ↔ m.key ∈ l.map (·.key) ∨ m.key ∈ r.map (·.key) := by
      rw [map_append, mem_append]
    rw [cons_append, lastOnes, lastOnes]
    by_cases hl : m.key ∈ l.map (·.key)
    · rw [if_pos (hmem.2 (.inl hl)), if_pos hl, ih]
    · rw [if_neg hl]
      by_cases hr : m.key ∈ r.map (·.key)
      · rw [if_pos (hmem.2 (.inr hr)), filter_cons_of_neg (by simpa using hr), ih]
      · rw [if_neg (mt hmem.1 (not_or.2 ⟨hl, hr⟩)), filter_cons_of_pos (by simpa using hr),
          ih, cons_append]

/-- What stands behind a chain counts only with its keys and its last modifiers. -/
theorem controls_append_perm (l : List ModelModifier)
    (hkeys : ∀ key, key ∈ r.map (·.key) ↔ key ∈ r'.map (·.key))
    (h : (controls r).Perm (controls r')) : (controls (l ++ r)).Perm (controls (l ++ r')) := by
  have hfilter : (lastOnes l).filter (fun m => m.key ∉ r.map (·.key)) =
      (lastOnes l).filter fun m => m.key ∉ r'.map (·.key) :=
    filter_congr fun m _ => by simp only [hkeys]
  unfold controls at h ⊢
  rw [lastOnes_append, lastOnes_append, filterMap_append, filterMap_append, hfilter]
  exact h.append_left _

theorem controls_cons_of_mem (h : m.key ∈ r.map (·.key)) : controls (m :: r) = controls r := by
  rw [controls, lastOnes, if_pos h, controls]

theorem controls_cons_of_not_mem (h : m.key ∉ r.map (·.key)) :
    controls (m :: r) = (control m).toList ++ controls r := by
  rw [controls, lastOnes, if_neg h]
  cases hcontrol : control m with
  | none => rw [filterMap_cons_none hcontrol]; rfl
  | some c => rw [filterMap_cons_some hcontrol]; rfl

/-- Two modifiers of different keys, in either order. -/
theorem controls_swap (h : m.key ≠ n.key) :
    (controls (m :: n :: r)).Perm (controls (n :: m :: r)) := by
  have hswap : (m.key ∈ (n :: r).map (·.key) ↔ m.key ∈ r.map (·.key)) ∧
      (n.key ∈ (m :: r).map (·.key) ↔ n.key ∈ r.map (·.key)) := by
    simp only [map_cons, mem_cons, h, h.symm, false_or, and_self]
  by_cases hm : m.key ∈ r.map (·.key)
  · rw [controls_cons_of_mem (hswap.1.2 hm)]
    by_cases hn : n.key ∈ r.map (·.key)
    · rw [controls_cons_of_mem hn, controls_cons_of_mem (hswap.2.2 hn), controls_cons_of_mem hm]
    · rw [controls_cons_of_not_mem hn, controls_cons_of_not_mem (mt hswap.2.1 hn),
        controls_cons_of_mem hm]
  · rw [controls_cons_of_not_mem (mt hswap.1.1 hm)]
    by_cases hn : n.key ∈ r.map (·.key)
    · rw [controls_cons_of_mem hn, controls_cons_of_mem (hswap.2.2 hn), controls_cons_of_not_mem hm]
    · rw [controls_cons_of_not_mem hn, controls_cons_of_not_mem (mt hswap.2.1 hn),
        controls_cons_of_not_mem hm, ← append_assoc, ← append_assoc]
      exact perm_append_comm.append_right _

end LastOnes

/-- The controls of a chain as it is spelled. -/
def given (l : List Modifier) : List Control := controls (l.map (·.read))

variable {l l' : List Modifier}

theorem given_perm_of_rearrangement (h : Rearrangement l l') : (given l).Perm (given l') := by
  unfold given
  cases h with
  | @reorder l r m n hkey =>
    simp only [map_append, map_cons]
    refine controls_append_perm _ (fun key => ?_) (controls_swap hkey)
    simp only [map_cons, mem_cons]
    exact or_left_comm
  | @recase l r m n hkey hvalue =>
    simp only [map_append, map_cons]
    have hread : m.read.key = n.read.key := hkey
    refine controls_append_perm _ (fun key => ?_) (List.Perm.of_eq ?_)
    · simp only [map_cons, mem_cons, hread]
    · have hcontrol : control m.read = control n.read := by
        rw [Modifier.read, hkey]
        exact control_of_caseVariants hvalue
      by_cases hm : m.read.key ∈ (r.map (·.read)).map (·.key)
      · rw [controls_cons_of_mem hm, controls_cons_of_mem (hread ▸ hm)]
      · rw [controls_cons_of_not_mem hm, controls_cons_of_not_mem (hread ▸ hm), hcontrol]
  | @drop l r m hdrop =>
    simp only [map_append, map_cons]
    obtain ⟨n, hn, hkey⟩ := hdrop
    have hmem : m.read.key ∈ (r.map (·.read)).map (·.key) := by
      rw [map_map]
      exact mem_map.2 ⟨n, hn, hkey⟩
    refine controls_append_perm _ (fun key => ?_) (List.Perm.of_eq (controls_cons_of_mem hmem))
    rw [map_cons, mem_cons]
    exact or_iff_right_of_imp fun heq => heq ▸ hmem

/-- **Rearranged chains give the same controls**, in some order. -/
theorem Rearranged.given_perm (h : Rearranged l l') : (given l).Perm (given l') := by
  induction h with
  | rel l l' h => exact given_perm_of_rearrangement h
  | refl l => exact .refl _
  | symm l l' _ ih => exact ih.symm
  | trans l l' l'' _ _ ih ih' => exact ih.trans ih'

/-! ### Verdicts -/

/-- What a chain of controls is priced at. -/
def verdict (l : List Control) : Option (String × String) :=
  normalizeBillingThinking (l.foldl Control.turn ({}, false)).1

/-- A thinking modifier turns thinking off or sets no effort, and no effort modifier is empty. -/
def Control.Sound : Control → Prop
  | .thinking t => t.budgetTokens ≠ some 0 ∧ (t.mode = .disabled ∧ t.effort = .none ∨
      (t.mode = .enabled ∨ t.mode = .adaptive) ∧ t.effort = .unset)
  | .effort level => level ≠ .unset

/-- Thinking is turned off, and an effort asks for it. -/
def Contradicting (l : List Control) : Prop :=
  ∃ t level, Control.thinking t ∈ l ∧ Control.effort level ∈ l ∧ t.mode = .disabled ∧ level ≠ .none

variable {t intent : Intent}

theorem sound_thinking (h : parseThinkingModifier value = some t) : (Control.thinking t).Sound := by
  unfold parseThinkingModifier at h
  dsimp only at h
  split_ifs at h
  · cases h
    exact ⟨fun h => (by cases h), .inr ⟨.inl rfl, rfl⟩⟩
  · cases h
    exact ⟨fun h => (by cases h), .inr ⟨.inr rfl, rfl⟩⟩
  · cases h
    exact ⟨fun h => (by cases h), .inl ⟨rfl, rfl⟩⟩
  · rcases hbudget : atoi (toLower (trimSpace value)) with _ | budget
    · rw [hbudget] at h
      cases h
    rw [hbudget] at h
    dsimp only at h
    split_ifs at h with hsmall hzero
    · cases h
      exact ⟨fun h => (by cases h), .inl ⟨rfl, rfl⟩⟩
    · cases h
      exact ⟨fun h => hzero (Option.some.inj h), .inr ⟨.inl rfl, rfl⟩⟩

theorem sound_control {m : ModelModifier} {c : Control} (h : control m = some c) : c.Sound := by
  unfold control at h
  split_ifs at h
  · obtain ⟨t, ht, rfl⟩ := Option.map_eq_some_iff.1 h
    exact sound_thinking ht
  · rcases hparse : parseEffort m.value with _ | level
    · rw [hparse] at h
      cases h
    rw [hparse] at h
    dsimp only at h
    split_ifs at h with hunset
    cases h
    exact hunset

theorem sound_of_mem {l : List ModelModifier} {c : Control} (h : c ∈ controls l) : c.Sound := by
  obtain ⟨m, -, hm⟩ := mem_filterMap.1 h
  exact sound_control hm

theorem verdict_thinking_effort {level : Effort} (ht : (Control.thinking t).Sound)
    (hlevel : (Control.effort level).Sound) :
    verdict [.thinking t, .effort level] =
      if level = .none then some ("off", "") else some ("on", toLower level.word) := by
  have hunset : level ≠ .unset := hlevel
  have hfirst : Control.turn ({}, false) (.thinking t) = (t, true) := by
    simp only [Control.turn, Bool.false_eq_true, false_and, if_false]
  rw [verdict, foldl_cons, hfirst, foldl_cons, foldl_nil]
  by_cases hnone : level = .none
  · rw [if_pos hnone]
    simp only [Control.turn, if_pos hnone, normalizeBillingThinking, true_or, if_true]
  · rw [if_neg hnone]
    have hmode : (if t.mode = .unset ∨ t.mode = .disabled then ReasoningMode.enabled
        else t.mode) ≠ .disabled := by
      split_ifs with h
      · decide
      · exact fun hdisabled => h (.inr hdisabled)
    have hbudget : t.budgetTokens ≠ some 0 := ht.1
    simp only [Control.turn, normalizeBillingThinking, hnone, hmode, or_self,
      if_false, hbudget, hunset, ne_eq, not_false_eq_true, and_self, if_true]

theorem verdict_effort_thinking {level : Effort} (ht : (Control.thinking t).Sound)
    (hlevel : (Control.effort level).Sound) :
    verdict [.effort level, .thinking t] =
      if t.mode = .disabled ∨ level = .none then some ("off", "")
      else some ("on", toLower level.word) := by
  have hunset : level ≠ .unset := hlevel
  rw [verdict, foldl_cons, foldl_cons, foldl_nil]
  generalize hfirst : Control.turn ({}, false) (.effort level) = acc
  have hacc : acc.2 = true ∧ acc.1.effort = level ∧ acc.1.budgetTokens = none := by
    rw [← hfirst]
    simp only [Control.turn]
    split_ifs with hnone
    · exact ⟨rfl, hnone.symm, rfl⟩
    · exact ⟨rfl, rfl, rfl⟩
    · exact ⟨rfl, rfl, rfl⟩
  obtain ⟨hbudget, hoff | hon⟩ := ht
  · -- thinking is turned off, whatever was asked for
    rw [if_pos (.inl hoff.1)]
    simp only [Control.turn, hoff.1, ne_eq, not_true, false_and, and_false, if_false,
      normalizeBillingThinking, or_true, if_true]
  · have hmode : t.mode ≠ .disabled := by
      rcases hon.1 with h | h <;> rw [h] <;> decide
    have hturn : (Control.turn acc (.thinking t)).1.effort = level ∧
        (Control.turn acc (.thinking t)).1.mode = t.mode ∧
          (Control.turn acc (.thinking t)).1.budgetTokens = t.budgetTokens := by
      simp only [Control.turn, hacc.1, hmode, ne_eq, not_false_eq_true, true_and, and_true, if_true]
      split_ifs with hnone
      · exact ⟨hacc.2.1, rfl, hacc.2.2.trans hnone.symm⟩
      · exact ⟨hacc.2.1, rfl, rfl⟩
    simp only [normalizeBillingThinking, hturn.1, hturn.2.1, hturn.2.2, hmode, or_false, false_or,
      hbudget, if_false]
    by_cases hnone : level = .none
    · rw [if_pos hnone, if_pos hnone]
    · rw [if_neg hnone, if_neg hnone, if_pos ⟨hunset, hnone⟩]

theorem controls_cases {l : List Control} (h : (l.map (·.key)).Nodup) :
    l = [] ∨ (∃ c, l = [c]) ∨ (∃ t level, l = [.thinking t, .effort level]) ∨
      ∃ level t, l = [.effort level, .thinking t] := by
  cases l with
  | nil => exact .inl rfl
  | cons a l =>
    cases l with
    | nil => exact .inr (.inl ⟨a, rfl⟩)
    | cons b l =>
      cases l with
      | nil =>
        cases a with
        | thinking t =>
          cases b with
          | thinking t' => exact absurd h (by simp [Control.key])
          | effort level => exact .inr (.inr (.inl ⟨t, level, rfl⟩))
        | effort level =>
          cases b with
          | thinking t => exact .inr (.inr (.inr ⟨level, t, rfl⟩))
          | effort level' => exact absurd h (by simp [Control.key])
      | cons c l =>
        -- there are two keys only
        exfalso
        simp only [map_cons, nodup_cons, mem_cons, not_or] at h
        obtain ⟨⟨hab, hac, -⟩, ⟨hbc, -⟩, -⟩ := h
        cases a <;> cases b <;> cases c <;> simp [Control.key] at hab hac hbc

theorem verdict_swap {level : Effort} (ht : (Control.thinking t).Sound)
    (hlevel : (Control.effort level).Sound) (h : ¬(t.mode = .disabled ∧ level ≠ .none)) :
    verdict [.thinking t, .effort level] = verdict [.effort level, .thinking t] := by
  rw [verdict_thinking_effort ht hlevel, verdict_effort_thinking ht hlevel]
  by_cases hnone : level = .none
  · rw [if_pos hnone, if_pos (.inr hnone)]
  · have hmode : t.mode ≠ .disabled := fun hmode => h ⟨hmode, hnone⟩
    rw [if_neg hnone, if_neg (not_or.2 ⟨hmode, hnone⟩)]

/-- **The order does not matter** where nothing is contradicted. -/
theorem verdict_perm {l l' : List Control} (hperm : l.Perm l') (hnodup : (l.map (·.key)).Nodup)
    (hsound : ∀ c ∈ l, c.Sound) (h : ¬Contradicting l) : verdict l = verdict l' := by
  rcases controls_cases hnodup with rfl | ⟨c, rfl⟩ | ⟨t, level, rfl⟩ | ⟨level, t, rfl⟩
  · rw [hperm.nil_eq]
  · rw [singleton_perm.1 hperm]
  · have hswap := verdict_swap (hsound (.thinking t) (by simp)) (hsound (.effort level) (by simp))
      fun hoff => h ⟨t, level, by simp, by simp, hoff⟩
    rcases pair_perm.1 hperm with rfl | rfl
    · rfl
    · exact hswap
  · have hswap := verdict_swap (hsound (.thinking t) (by simp)) (hsound (.effort level) (by simp))
      fun hoff => h ⟨t, level, by simp, by simp, hoff⟩
    rcases pair_perm.1 hperm with rfl | rfl
    · rfl
    · exact hswap.symm

/-! ### Names -/

/-- What `CanonicalBillingModelNames` picks the names from, for a base with modifiers that is not
exempt. -/
def readIntent (s : ReasoningSettings) (base : String) (modifiers : List ModelModifier) :
    String × Intent × Bool :=
  let acc := (controls modifiers).foldl Control.turn ({}, false)
  if s.shouldPreserveThinkingSuffix base then (base, acc)
  else
    match parseLegacyModelSuffix s base s.claudeThinkingAdapterEnabled
        s.geminiThinkingAdapterEnabled with
    | .ok (some (legacyBase, legacyIntent)) =>
      if acc.2 then (legacyBase, acc.1, true) else (legacyBase, legacyIntent, true)
    | _ => (base, acc)

/-- The names for a reading. -/
def namesOf (r : String × Intent × Bool) : List String :=
  if r.2.2 then canonicalNamesFromIntent r.1 r.2.1 else []

theorem canonical_spelled (s : ReasoningSettings) (b : BaseModel) (l : List Modifier) :
    canonicalBillingModelNames s (b.spelled l) =
      if s.shouldPreserveThinkingSuffix (b.spelled l) = true then []
      else namesOf (readIntent s b.name (l.map (·.read))) := by
  obtain ⟨hbase, hmodifiers⟩ := parse_spelled b l
  have hbilling := billing_eq (parseModelModifiers (b.spelled l))
  rw [hmodifiers] at hbilling
  unfold canonicalBillingModelNames billedIntent
  by_cases hkeep : s.shouldPreserveThinkingSuffix (b.spelled l) = true
  · simp only [if_pos hkeep, Bool.false_eq_true, if_false]
  · simp only [if_neg hkeep, hbilling, hbase, readIntent]
    by_cases hbaseKeep : s.shouldPreserveThinkingSuffix b.name = true
    · simp only [if_pos hbaseKeep]
      rfl
    · simp only [if_neg hbaseKeep]
      cases parseLegacyModelSuffix s b.name s.claudeThinkingAdapterEnabled
          s.geminiThinkingAdapterEnabled with
      | error e => rfl
      | ok found =>
        cases found with
        | none => rfl
        | some legacy =>
          -- a modifier outranks the suffix
          cases hthinking : ((controls (l.map (·.read))).foldl Control.turn ({}, false)).2 with
          | true | false => rfl

/-- `canonicalNamesFromIntent`, by what the intent is priced at. -/
def namesAt (base : String) (priced : Option (String × String)) : List String :=
  match priced with
  | none => []
  | some (thinking, effort) =>
    if base = "" then []
    else
      let withEffort :=
        if effort ≠ "" then [base ++ "@effort:" ++ effort ++ "@thinking:" ++ thinking] else []
      let thinkingForm := base ++ "@thinking:" ++ thinking
      let names := withEffort ++ if thinkingForm ≠ base then [thinkingForm] else []
      names.foldl
        (fun out name => if name = "" ∨ name = base ∨ name ∈ out then out else out ++ [name]) []

theorem canonicalNamesFromIntent_eq (base : String) (intent : Intent) :
    canonicalNamesFromIntent base intent = namesAt base (normalizeBillingThinking intent) := rfl

theorem append_ne_self {t : String} (h : t ≠ "") : base ++ t ≠ base := by
  intro heq
  have hlist := congrArg String.toList heq
  rw [String.toList_append] at hlist
  have hnil := append_cancel_left (hlist.trans (append_nil _).symm)
  exact h (String.toList_eq_nil_iff.1 hnil)

theorem namesAt_off (h : base ≠ "") :
    namesAt base (some ("off", "")) = [base ++ "@thinking:" ++ "off"] := by
  have hbase : base ++ "@thinking:" ++ "off" ≠ base := by
    rw [String.append_assoc]
    exact append_ne_self (by decide)
  have hempty : base ++ "@thinking:" ++ "off" ≠ "" := by
    rw [String.append_assoc]
    exact fun heq => h (String.append_eq_empty_iff.1 heq).1
  simp only [namesAt, if_neg h, ne_eq, not_true, if_false, nil_append, if_pos hbase,
    foldl_cons, foldl_nil, not_mem_nil, or_false]
  rw [if_neg (not_or.2 ⟨hempty, hbase⟩)]

theorem mem_foldl_names {x : String} (hempty : x ≠ "") (hbase : x ≠ base)
    (names out : List String) (h : x ∈ out ∨ x ∈ names) :
    x ∈ names.foldl
      (fun out name => if name = "" ∨ name = base ∨ name ∈ out then out else out ++ [name])
      out := by
  induction names generalizing out with
  | nil => exact h.resolve_right not_mem_nil
  | cons name names ih =>
    rw [foldl_cons]
    refine ih _ ?_
    rcases h with h | h
    · left
      split_ifs
      · exact h
      · exact mem_append_left _ h
    · rcases mem_cons.1 h with rfl | h
      · left
        split_ifs with hskip
        · exact (hskip.resolve_left hempty).resolve_left hbase
        · exact mem_append_right _ mem_cons_self
      · exact .inr h

theorem mem_namesAt_effort (h : base ≠ "") (heffort : effort ≠ "") :
    base ++ "@effort:" ++ effort ++ "@thinking:" ++ "on" ∈ namesAt base (some ("on", effort)) := by
  have hassoc : base ++ "@effort:" ++ effort ++ "@thinking:" ++ "on" =
      base ++ ("@effort:" ++ (effort ++ ("@thinking:" ++ "on"))) := by
    simp only [String.append_assoc]
  have hbase : base ++ "@effort:" ++ effort ++ "@thinking:" ++ "on" ≠ base := by
    rw [hassoc]
    exact append_ne_self fun heq => absurd (String.append_eq_empty_iff.1 heq).1 (by decide)
  have hempty : base ++ "@effort:" ++ effort ++ "@thinking:" ++ "on" ≠ "" := by
    rw [hassoc]
    exact fun heq => h (String.append_eq_empty_iff.1 heq).1
  simp only [namesAt, if_neg h, ne_eq, heffort, not_false_eq_true, if_true]
  exact mem_foldl_names hempty hbase _ _ (.inr (mem_append_left _ mem_cons_self))

theorem namesAt_ne_nil {priced : Option (String × String)} (h : base ≠ "")
    (hpriced : priced ≠ none) : namesAt base priced ≠ [] := by
  obtain ⟨⟨thinking, effort⟩, rfl⟩ := Option.ne_none_iff_exists'.1 hpriced
  have hbase : base ++ "@thinking:" ++ thinking ≠ base := by
    rw [String.append_assoc]
    exact append_ne_self fun heq => absurd (String.append_eq_empty_iff.1 heq).1 (by decide)
  have hempty : base ++ "@thinking:" ++ thinking ≠ "" := by
    rw [String.append_assoc]
    exact fun heq => h (String.append_eq_empty_iff.1 heq).1
  have hmem : base ++ "@thinking:" ++ thinking ∈ namesAt base (some (thinking, effort)) := by
    simp only [namesAt, if_neg h, if_pos hbase]
    exact mem_foldl_names hempty hbase _ _ (.inr (mem_append_right _ mem_cons_self))
  exact ne_nil_of_mem hmem

/-- **Off and an effort are priced apart.** -/
theorem namesAt_off_ne (h : base ≠ "") (heffort : effort ≠ "") :
    namesAt base (some ("off", "")) ≠ namesAt base (some ("on", effort)) := by
  intro heq
  have hmem := mem_namesAt_effort h heffort
  rw [← heq, namesAt_off h, mem_singleton] at hmem
  have hlist := congrArg String.toList hmem
  simp only [String.toList_append, append_assoc, append_cancel_left_eq] at hlist
  have heffortKey : "@effort:".toList = '@' :: 'e' :: "ffort:".toList := by decide
  have hthinkingKey : "@thinking:".toList = '@' :: 't' :: "hinking:".toList := by decide
  rw [heffortKey, hthinkingKey] at hlist
  simp only [cons_append, List.cons.injEq] at hlist
  exact absurd hlist.2.1 (by decide)

/-- The old suffix of a base that is not exempt, with its intent. -/
def legacyOf (s : ReasoningSettings) (base : String) : Option (String × Intent) :=
  if s.shouldPreserveThinkingSuffix base then none
  else
    match parseLegacyModelSuffix s base s.claudeThinkingAdapterEnabled
        s.geminiThinkingAdapterEnabled with
    | .ok found => found
    | .error _ => none

/-- Neither a modifier nor the base says anything about thinking. -/
def Silent (s : ReasoningSettings) (base : String) (l : List Control) : Prop :=
  l = [] ∧ legacyOf s base = none

theorem hasThinking_turn (acc : Intent × Bool) (c : Control) : (c.turn acc).2 = true := by
  cases c with
  | thinking | effort =>
    simp only [Control.turn]
    split_ifs <;> rfl

theorem hasThinking_foldl (l : List Control) (acc : Intent × Bool) :
    (l.foldl Control.turn acc).2 = (acc.2 || !l.isEmpty) := by
  induction l generalizing acc with
  | nil => exact (Bool.or_false _).symm
  | cons c l ih =>
    rw [foldl_cons, ih, hasThinking_turn, Bool.true_or]
    exact (Bool.or_true _).symm

theorem readIntent_eq (s : ReasoningSettings) (base : String) (modifiers : List ModelModifier) :
    readIntent s base modifiers =
      (legacyOf s base).elim (base, (controls modifiers).foldl Control.turn ({}, false))
        fun legacy =>
          if ((controls modifiers).foldl Control.turn ({}, false)).2 then
            (legacy.1, ((controls modifiers).foldl Control.turn ({}, false)).1, true)
          else (legacy.1, legacy.2, true) := by
  simp only [readIntent, legacyOf]
  by_cases hkeep : s.shouldPreserveThinkingSuffix base = true
  · simp only [if_pos hkeep, Option.elim_none]
  · simp only [if_neg hkeep]
    cases parseLegacyModelSuffix s base s.claudeThinkingAdapterEnabled
        s.geminiThinkingAdapterEnabled with
    | error e => rfl
    | ok found =>
      cases found with
      | none | some => rfl

/-- **The names of a reading**: those of the controls if there are any, and else those of the old
suffix. -/
theorem namesOf_readIntent (s : ReasoningSettings) (base : String)
    (modifiers : List ModelModifier) :
    namesOf (readIntent s base modifiers) =
      if controls modifiers = [] then
        ((legacyOf s base).map fun legacy => canonicalNamesFromIntent legacy.1 legacy.2).getD []
      else namesAt (((legacyOf s base).map (·.1)).getD base) (verdict (controls modifiers)) := by
  have hthinking := hasThinking_foldl (controls modifiers) ({}, false)
  rw [Bool.false_or] at hthinking
  rw [readIntent_eq, verdict, ← canonicalNamesFromIntent_eq]
  generalize hacc : (controls modifiers).foldl Control.turn ({}, false) = acc at hthinking
  by_cases hnone : controls modifiers = []
  · rw [hnone, isEmpty_nil, Bool.not_true] at hthinking
    rw [if_pos hnone]
    cases legacyOf s base with
    | none =>
      simp only [Option.elim_none, namesOf, hthinking, Bool.false_eq_true, if_false,
        Option.map_none, Option.getD_none]
    | some legacy =>
      simp only [Option.elim_some, namesOf, hthinking, Bool.false_eq_true, if_false, if_true,
        Option.map_some, Option.getD_some]
  · have htrue : acc.2 = true := by
      rw [hthinking, Bool.not_eq_true', isEmpty_eq_false_iff]
      exact hnone
    rw [if_neg hnone]
    cases legacyOf s base with
    | none =>
      simp only [Option.elim_none, namesOf, htrue, if_true, Option.map_none, Option.getD_none]
    | some legacy =>
      simp only [Option.elim_some, namesOf, htrue, if_true, Option.map_some, Option.getD_some]

/-- What an old suffix says is not nothing. -/
def Decided (intent : Intent) : Prop := intent.mode ≠ .unset ∨ intent.budgetTokens.isSome = true

theorem Decided.priced (h : Decided intent) : normalizeBillingThinking intent ≠ none := by
  unfold normalizeBillingThinking
  split_ifs with hoff hzero heffort hon
  · exact Option.some_ne_none _
  · exact Option.some_ne_none _
  · exact Option.some_ne_none _
  · exact Option.some_ne_none _
  · rw [not_or] at hoff hon
    rw [not_or] at hon
    rcases h with hmode | hbudget
    · cases hintent : intent.mode with
      | unset => exact absurd hintent hmode
      | enabled => exact absurd hintent hon.1
      | adaptive => exact absurd hintent hon.2.1
      | disabled => exact absurd hintent hoff.2
    · exact absurd hbudget hon.2.2

theorem decided_parseProviderEffort {thoughts : Bool}
    (h : parseProviderEffort modelName start thoughts = .ok (some (base, intent))) :
    Decided intent := by
  unfold parseProviderEffort at h
  rcases htrim : trimEffortSuffixWithSuffixes modelName effortSuffixes with _ | found
  · simp [htrim] at h
  simp only [htrim] at h
  by_cases hstart : (!hasPrefix found.1 start) = true
  · rw [if_pos hstart] at h
    rcases h
  · rw [if_neg hstart] at h
    rcases hparse : parseEffort found.2 with _ | level
    · simp [hparse] at h
    simp only [hparse] at h
    by_cases hnone : level = .none
    · rw [if_pos hnone] at h
      obtain ⟨-, rfl⟩ := Prod.mk.inj (Option.some.inj (ok.inj h))
      exact .inl fun hmode => (by cases hmode)
    · rw [if_neg hnone] at h
      obtain ⟨-, rfl⟩ := Prod.mk.inj (Option.some.inj (ok.inj h))
      exact .inl fun hmode => (by cases hmode)

theorem decided_parseProvider {allow thoughts : Bool}
    (h : parseProviderModelSuffix modelName start allow thoughts = .ok (some (base, intent))) :
    Decided intent := by
  unfold parseProviderModelSuffix at h
  dsimp only at h
  by_cases hallow : allow = true
  · rw [if_pos hallow] at h
    cases hcut : cutLast "-thinking-" modelName with
    | some found =>
      simp only [hcut] at h
      by_cases hstart : (!hasPrefix found.1 start) = true
      · rw [if_pos hstart] at h
        rcases h
      · rw [if_neg hstart] at h
        rcases hbudget : atoi found.2 with _ | budget
        · simp [hbudget] at h
        simp only [hbudget] at h
        obtain ⟨-, rfl⟩ := Prod.mk.inj (Option.some.inj (ok.inj h))
        exact .inr rfl
    | none =>
      simp only [hcut] at h
      cases hno : cutSuffix modelName "-nothinking" with
      | some name =>
        simp only [hno] at h
        obtain ⟨-, rfl⟩ := Prod.mk.inj (Option.some.inj (ok.inj h))
        exact .inl fun hmode => (by cases hmode)
      | none =>
        simp only [hno] at h
        cases hthinking : cutSuffix modelName "-thinking" with
        | some name =>
          simp only [hthinking] at h
          obtain ⟨-, rfl⟩ := Prod.mk.inj (Option.some.inj (ok.inj h))
          exact .inl fun hmode => (by cases hmode)
        | none =>
          simp only [hthinking] at h
          exact decided_parseProviderEffort h
  · rw [if_neg hallow] at h
    exact decided_parseProviderEffort h

theorem decided_parseFamily {pattern : String → Bool} {allow : Bool}
    (h : parseFamilySuffix start pattern modelName allow = .ok (some (base, intent))) :
    Decided intent := by
  unfold parseFamilySuffix at h
  dsimp only at h
  by_cases hstart : (!hasPrefix (splitModelNamespace modelName).2 start) = true
  · rw [if_pos hstart] at h
    cases h
  · rw [if_neg hstart] at h
    cases hparse : parseProviderModelSuffix (splitModelNamespace modelName).2 start allow true with
    | error e => simp [hparse] at h
    | ok found =>
      rcases found with _ | found
      · simp [hparse] at h
      simp only [hparse] at h
      by_cases hpattern : pattern found.1 = true
      · rw [if_pos hpattern] at h
        obtain ⟨-, rfl⟩ := Prod.mk.inj (Option.some.inj (ok.inj h))
        exact decided_parseProvider hparse
      · rw [if_neg hpattern] at h
        cases h

theorem decided_parseLegacy {s : ReasoningSettings} {claude gemini : Bool}
    (h : parseLegacyModelSuffix s modelName claude gemini = .ok (some (base, intent))) :
    Decided intent := by
  simp only [parseLegacyModelSuffix] at h
  split at h
  · cases h
  · cases h
  · next base' intent' hfound =>
    obtain ⟨-, rfl⟩ := Prod.mk.inj (Option.some.inj (ok.inj h))
    split_ifs at hfound with hclaude hgemini heffort
    · exact decided_parseFamily hfound
    · exact decided_parseFamily hfound
    · cases hfound
    · split at hfound
      · cases hfound
      · obtain ⟨-, rfl⟩ := Prod.mk.inj (Option.some.inj (ok.inj hfound))
        refine .inl ?_
        dsimp only
        split_ifs
        · exact fun hmode => (by cases hmode)
        · exact fun hmode => (by cases hmode)

/-- An old suffix leaves a base, and says something. -/
theorem legacyOf_some {s : ReasoningSettings} {legacy : String × Intent}
    (h : legacyOf s base = some legacy) : legacy.1 ≠ "" ∧ Decided legacy.2 := by
  unfold legacyOf at h
  split_ifs at h
  rcases hparse : parseLegacyModelSuffix s base s.claudeThinkingAdapterEnabled
      s.geminiThinkingAdapterEnabled with _ | found
  · simp [hparse] at h
  simp only [hparse] at h
  rw [h] at hparse
  exact ⟨parseLegacyModelSuffix_base hparse, decided_parseLegacy hparse⟩

theorem toLower_word_ne {level : Effort} (h : level ≠ .unset) : toLower level.word ≠ "" := by
  cases level with
  | unset => exact absurd rfl h
  | _ => decide

/-- Controls are priced. -/
theorem verdict_ne_none {l : List Control} (hnodup : (l.map (·.key)).Nodup)
    (hsound : ∀ c ∈ l, c.Sound) (h : l ≠ []) : verdict l ≠ none := by
  rcases controls_cases hnodup with rfl | ⟨c, rfl⟩ | ⟨t, level, rfl⟩ | ⟨level, t, rfl⟩
  · exact absurd rfl h
  · cases c with
    | thinking t =>
      have hfirst : Control.turn ({}, false) (.thinking t) = (t, true) := by
        simp only [Control.turn, Bool.false_eq_true, false_and, if_false]
      rw [verdict, foldl_cons, foldl_nil, hfirst]
      refine Decided.priced (.inl fun hmode => ?_)
      rcases (hsound (.thinking t) mem_cons_self).2 with hoff | hon
      · rw [hoff.1] at hmode
        cases hmode
      · rcases hon.1 with h | h <;> (rw [h] at hmode; cases hmode)
    | effort level =>
      rw [verdict, foldl_cons, foldl_nil]
      refine Decided.priced (.inl fun hmode => ?_)
      simp only [Control.turn] at hmode
      split_ifs at hmode with hnone hunset
      exact hunset (.inl trivial)
  · rw [verdict_thinking_effort (hsound _ (by simp)) (hsound _ (by simp))]
    split_ifs <;> exact Option.some_ne_none _
  · rw [verdict_effort_thinking (hsound _ (by simp)) (hsound _ (by simp))]
    split_ifs <;> exact Option.some_ne_none _

/-! ### The other order -/

theorem Rearrangement.cons (h : Rearrangement l l') (m : Modifier) :
    Rearrangement (m :: l) (m :: l') := by
  cases h with
  | reorder l r hkey => exact .reorder (m :: l) r hkey
  | recase l r hkey hvalue => exact .recase (m :: l) r hkey hvalue
  | drop l r hdrop => exact .drop (m :: l) r hdrop

theorem Rearranged.cons (h : Rearranged l l') (m : Modifier) : Rearranged (m :: l) (m :: l') := by
  induction h with
  | rel l l' h => exact .rel _ _ (h.cons m)
  | refl l => exact .refl _
  | symm l l' _ ih => exact .symm _ _ ih
  | trans l l' l'' _ _ ih ih' => exact .trans _ _ _ ih ih'

/-- The modifiers whose key is not given again behind them. -/
def lasts : List Modifier → List Modifier
  | [] => []
  | m :: l => if m.read.key ∈ (l.map (·.read)).map (·.key) then lasts l else m :: lasts l

theorem map_lasts (l : List Modifier) : (lasts l).map (·.read) = lastOnes (l.map (·.read)) := by
  induction l with
  | nil => rfl
  | cons m l ih =>
    rw [lasts, map_cons, lastOnes]
    by_cases h : m.read.key ∈ (l.map (·.read)).map (·.key)
    · rw [if_pos h, if_pos h, ih]
    · rw [if_neg h, if_neg h, map_cons, ih]

theorem rearranged_lasts (l : List Modifier) : Rearranged l (lasts l) := by
  induction l with
  | nil => exact .refl []
  | cons m l ih =>
    rw [lasts]
    split_ifs with h
    · rw [map_map] at h
      obtain ⟨n, hn, hkey⟩ := mem_map.1 h
      exact .trans _ _ _ (.rel _ _ (.drop [] l ⟨n, hn, hkey⟩)) ih
    · exact ih.cons m

/-- Modifiers with different keys may stand in any order. -/
theorem rearranged_of_perm (h : l.Perm l')
    (hnodup : ((l.map (·.read)).map (·.key)).Nodup) : Rearranged l l' := by
  induction h with
  | nil => exact .refl []
  | cons m _ ih =>
    rw [map_cons, map_cons, nodup_cons] at hnodup
    exact (ih hnodup.2).cons m
  | swap m n l =>
    refine .rel _ _ (.reorder [] l fun hkey => ?_)
    simp only [map_cons, nodup_cons, mem_cons, not_or] at hnodup
    exact hnodup.1.1 hkey
  | trans hfirst _ ih ih' =>
    exact .trans _ _ _ (ih hnodup)
      (ih' (((hfirst.map (·.read)).map (·.key)).nodup_iff.1 hnodup))

theorem lastOnes_of_nodup {l : List ModelModifier} (h : (l.map (·.key)).Nodup) :
    lastOnes l = l := by
  induction l with
  | nil => rfl
  | cons m l ih =>
    rw [map_cons, nodup_cons] at h
    rw [lastOnes, if_neg h.1, ih h.2]

/-- **A chain can be rearranged** so that its controls come in the other order. -/
theorem exists_reversed (l : List Modifier) :
    ∃ l', Rearranged l l' ∧ given l' = (given l).reverse := by
  have hnodup : (((lasts l).map (·.read)).map (·.key)).Nodup := by
    rw [map_lasts]
    exact nodup_lastOnes _
  have hreverse : ((((lasts l).reverse).map (·.read)).map (·.key)).Nodup := by
    rw [map_reverse, map_reverse]
    exact nodup_reverse.2 hnodup
  refine ⟨(lasts l).reverse, .trans _ _ _ (rearranged_lasts l)
    (rearranged_of_perm (reverse_perm _).symm hnodup), ?_⟩
  rw [given, controls, lastOnes_of_nodup hreverse, map_reverse, map_lasts,
    filterMap_reverse]
  rfl

/-! ### What rearranged chains are priced at -/

section Priced

variable {s : ReasoningSettings} {b : BaseModel} {l l' : List Modifier}

theorem nodup_given (l : List Modifier) : ((given l).map (·.key)).Nodup := by
  rw [given]
  exact nodup_controls _

theorem sound_given {c : Control} (h : c ∈ given l) : c.Sound := by
  rw [given] at h
  exact sound_of_mem h

theorem legacy_base_ne (s : ReasoningSettings) (b : BaseModel) :
    ((legacyOf s b.name).map (·.1)).getD b.name ≠ "" := by
  cases h : legacyOf s b.name with
  | none => exact b.name_ne
  | some legacy => exact (legacyOf_some h).1

/-- The names of a chain that is not exempt. -/
theorem names_given (s : ReasoningSettings) (b : BaseModel) (l : List Modifier) :
    namesOf (readIntent s b.name (l.map (·.read))) =
      if given l = [] then
        ((legacyOf s b.name).map fun legacy => canonicalNamesFromIntent legacy.1 legacy.2).getD []
      else namesAt (((legacyOf s b.name).map (·.1)).getD b.name) (verdict (given l)) := by
  unfold given
  exact namesOf_readIntent s b.name _

theorem names_of_silent (h : Silent s b.name (given l)) :
    namesOf (readIntent s b.name (l.map (·.read))) = [] := by
  rw [names_given, if_pos h.1, h.2]
  rfl

theorem names_of_not_silent (h : ¬Silent s b.name (given l)) :
    namesOf (readIntent s b.name (l.map (·.read))) ≠ [] := by
  rw [names_given]
  split_ifs with hnone
  · rcases hlegacy : legacyOf s b.name with _ | legacy
    · exact absurd ⟨hnone, hlegacy⟩ h
    obtain ⟨hbase, hdecided⟩ := legacyOf_some hlegacy
    exact namesAt_ne_nil hbase hdecided.priced
  · exact namesAt_ne_nil (legacy_base_ne s b)
      (verdict_ne_none (nodup_given l) (fun c hc => sound_given hc) hnone)

theorem Rearranged.silent_iff (h : Rearranged l l') :
    Silent s b.name (given l') ↔ Silent s b.name (given l) := by
  have hnil : given l' = [] ↔ given l = [] :=
    ⟨fun hl' => (hl' ▸ h.given_perm).eq_nil, fun hl => (hl ▸ h.given_perm).symm.eq_nil⟩
  exact and_congr_left fun _ => hnil

/-- **Chains that contradict nothing** are read alike in any order. -/
theorem Rearranged.names_eq (h : Rearranged l l') (hl : ¬Contradicting (given l)) :
    namesOf (readIntent s b.name (l'.map (·.read))) =
      namesOf (readIntent s b.name (l.map (·.read))) := by
  have hnil : given l' = [] ↔ given l = [] :=
    ⟨fun hl' => (hl' ▸ h.given_perm).eq_nil, fun hl => (hl ▸ h.given_perm).symm.eq_nil⟩
  have hverdict := verdict_perm h.given_perm (nodup_given l) (fun c hc => sound_given hc) hl
  rw [names_given, names_given, hverdict]
  by_cases hnone : given l = []
  · rw [if_pos hnone, if_pos (hnil.2 hnone)]
  · rw [if_neg hnone, if_neg (mt hnil.1 hnone)]

/-- **Chains that contradict themselves** are read apart in the other order. -/
theorem names_ne_of_contradicting (hl : Contradicting (given l))
    (hreversed : given l' = (given l).reverse) :
    namesOf (readIntent s b.name (l'.map (·.read))) ≠
      namesOf (readIntent s b.name (l.map (·.read))) := by
  obtain ⟨t, level, ht, hlevel, hoff, hnone⟩ := hl
  have hst := sound_given ht
  have hsl := sound_given hlevel
  have hbase := legacy_base_ne s b
  have hword := toLower_word_ne (show level ≠ .unset from hsl)
  have honOff : verdict [.thinking t, .effort level] = some ("on", toLower level.word) ∧
      verdict [.effort level, .thinking t] = some ("off", "") := by
    rw [verdict_thinking_effort hst hsl, verdict_effort_thinking hst hsl, if_neg hnone,
      if_pos (.inl hoff)]
    exact ⟨rfl, rfl⟩
  have hfirst : given l ≠ [] := ne_nil_of_mem ht
  have hsecond : given l' ≠ [] := by
    rw [hreversed]
    exact mt reverse_eq_nil_iff.1 hfirst
  rw [names_given, names_given, if_neg hfirst, if_neg hsecond, hreversed]
  rcases controls_cases (nodup_given l) with h | ⟨c, h⟩ | ⟨t', level', h⟩ | ⟨level', t', h⟩
  · exact absurd h hfirst
  · rw [h, mem_singleton] at ht hlevel
    rw [← ht] at hlevel
    cases hlevel
  · rw [h] at ht hlevel
    obtain ⟨rfl, rfl⟩ : t = t' ∧ level = level' := by simpa using And.intro ht hlevel
    rw [h, reverse_cons, reverse_singleton, singleton_append, honOff.1, honOff.2]
    exact namesAt_off_ne hbase hword
  · rw [h] at ht hlevel
    obtain ⟨rfl, rfl⟩ : t = t' ∧ level = level' := by simpa using And.intro ht hlevel
    rw [h, reverse_cons, reverse_singleton, singleton_append, honOff.1, honOff.2]
    exact (namesAt_off_ne hbase hword).symm

end Priced

/-- **Rearranged chains are priced alike** iff all of their names are exempt, or nothing in them is
about thinking, or none of their names is exempt and no effort is asked for where thinking is turned
off. -/
theorem canonicalBillingModelNames_rearranged_iff (s : ReasoningSettings) (b : BaseModel)
    (l : List Modifier) :
    (∀ l', Rearranged l l' → canonicalBillingModelNames s (b.spelled l') =
        canonicalBillingModelNames s (b.spelled l)) ↔
      (∀ l', Rearranged l l' → s.shouldPreserveThinkingSuffix (b.spelled l') = true) ∨
      Silent s b.name (given l) ∨
      ((∀ l', Rearranged l l' → s.shouldPreserveThinkingSuffix (b.spelled l') = false) ∧
        ¬Contradicting (given l)) := by
  have hself : Rearranged l l := .refl l
  constructor
  · intro h
    by_cases hall : ∀ l', Rearranged l l' → s.shouldPreserveThinkingSuffix (b.spelled l') = true
    · exact .inl hall
    by_cases hsilent : Silent s b.name (given l)
    · exact .inr (.inl hsilent)
    simp only [not_forall, Bool.not_eq_true] at hall
    obtain ⟨l₁, hl₁, hread⟩ := hall
    have hnot : canonicalBillingModelNames s (b.spelled l) ≠ [] := by
      rw [← h l₁ hl₁, canonical_spelled, hread, if_neg Bool.false_ne_true]
      exact names_of_not_silent fun hs => hsilent (hl₁.silent_iff.1 hs)
    have hnone : ∀ l', Rearranged l l' → s.shouldPreserveThinkingSuffix (b.spelled l') = false := by
      intro l' hl'
      by_contra hkeep
      rw [Bool.not_eq_false] at hkeep
      refine hnot ?_
      rw [← h l' hl', canonical_spelled, if_pos hkeep]
    refine .inr (.inr ⟨hnone, fun hcontradicting => ?_⟩)
    obtain ⟨l', hl', hreversed⟩ := exists_reversed l
    have heq := h l' hl'
    rw [canonical_spelled, canonical_spelled, hnone l' hl', hnone l hself,
      if_neg Bool.false_ne_true, if_neg Bool.false_ne_true] at heq
    exact names_ne_of_contradicting hcontradicting hreversed heq
  · rintro (hall | hsilent | ⟨hnone, hl⟩) l' hl'
    · rw [canonical_spelled, canonical_spelled, if_pos (hall l' hl'), if_pos (hall l hself)]
    · have hempty : ∀ r, Silent s b.name (given r) →
          canonicalBillingModelNames s (b.spelled r) = [] := by
        intro r hr
        rw [canonical_spelled, names_of_silent hr, ite_self]
      rw [hempty l' (hl'.silent_iff.2 hsilent), hempty l hsilent]
    · rw [canonical_spelled, canonical_spelled, hnone l' hl', hnone l hself,
        if_neg Bool.false_ne_true, if_neg Bool.false_ne_true]
      exact hl'.names_eq hl

/-- **An effort after thinking off** is priced as that effort, and before it as off. -/
theorem off_before_effort :
    canonicalBillingModelNames {} "qwen3-max@thinking:off@effort:high" =
        ["qwen3-max@effort:high@thinking:on", "qwen3-max@thinking:on"] ∧
      canonicalBillingModelNames {} "qwen3-max@effort:high@thinking:off" =
        ["qwen3-max@thinking:off"] := by
  decide +kernel

end NexusTok.Canonical
