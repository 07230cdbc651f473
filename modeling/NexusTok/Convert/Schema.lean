import Mathlib.Logic.Function.Basic
import NexusTok.Text.Affix

/-!
# Schemas of Gemini's tools

The parameters of a tool are any JSON.  Gemini takes a part of the OpenAPI schema, with types in
capitals and at most one of them, so what is sent to it is cleaned.

* `Node` and `Walked` : the schemas of a value, and those that the cleaning comes to.
* `node_clean_iff` : the schemas of a cleaned value are those that it came to, each one cleaned.
* `clean_clean_iff` : when cleaning once more changes nothing.
-/

namespace NexusTok.Convert.Schema

open List Function Nat

/-- JSON.  An object is what it holds under each name, as in a `map[string]any`; numbers are left
as they are spelled. -/
inductive Json
  | null
  | bool (b : Bool)
  | number (spelling : String)
  | string (s : String)
  | array (l : List Json)
  | object (fields : String → Option Json)

/-- What an object holds under each name. -/
abbrev Fields := String → Option Json

def geminiOpenAPISchemaAllowedFields : List String :=
  ["anyOf", "default", "description", "enum", "example", "format", "items", "maxItems",
    "maxLength", "maxProperties", "maximum", "minItems", "minLength", "minProperties", "minimum",
    "nullable", "pattern", "properties", "propertyOrdering", "required", "title", "type"]

def geminiFunctionSchemaMaxDepth : ℕ := 64

/-! ### Types -/

/-- `normalize` in `normalizeGeminiSchemaTypeAndNullable`: the type in capitals, or none for the
null type. -/
def normalize (t : String) : Option String :=
  match toLower (trimSpace t) with
  | "object" => some "OBJECT"
  | "array" => some "ARRAY"
  | "string" => some "STRING"
  | "integer" => some "INTEGER"
  | "number" => some "NUMBER"
  | "boolean" => some "BOOLEAN"
  | "null" => none
  | _ => some t

/-- The state of the loop over a list of types. -/
structure TypeChoice where
  nullable : Bool := false
  chosen : String := ""

/-- One item of a list of types. -/
def TypeChoice.step (c : TypeChoice) (item : Json) : TypeChoice :=
  match item with
  | .string value =>
    match normalize value with
    | none => { c with nullable := true }
    | some normalized => if c.chosen = "" then { c with chosen := normalized } else c
  | _ => c

def normalizeGeminiSchemaTypeAndNullable (schema : Fields) : Fields :=
  match schema "type" with
  | some (.string typed) =>
    match normalize typed with
    | none => Function.update (Function.update schema "nullable" (some (.bool true))) "type" none
    | some normalized => Function.update schema "type" (some (.string normalized))
  | some (.array typed) =>
    let c := typed.foldl TypeChoice.step {}
    let schema :=
      if c.nullable then Function.update schema "nullable" (some (.bool true)) else schema
    if c.chosen ≠ "" then Function.update schema "type" (some (.string c.chosen))
    else Function.update schema "type" none
  | _ => schema

/-! ### The walk -/

def allowed (fields : Fields) : Fields := fun key =>
  if key ∈ geminiOpenAPISchemaAllowedFields then fields key else none

/-- `cleanGeminiFunctionParametersShallow`, of an object. -/
def shallowFields (fields : Fields) : Fields :=
  let cleaned := normalizeGeminiSchemaTypeAndNullable (allowed fields)
  Function.update (Function.update (Function.update cleaned "properties" none) "items" none)
    "anyOf" none

def cleanGeminiFunctionParametersShallow (params : Json) : Json :=
  match params with
  | .object fields => .object (shallowFields fields)
  | .array _ => .array []
  | params => params

section Walk

variable (clean : Json → Json)

/-- The properties cleaned, where they are an object. -/
def cleanProperties (properties : Json) : Json :=
  match properties with
  | .object props => .object fun name => (props name).map clean
  | properties => properties

/-- The items cleaned.  A list is replaced by its first item; an object that was cleaned is none. -/
def cleanItems (items : Json) : Json :=
  match items with
  | .object items => clean (.object items)
  | .array (first :: _) => clean first
  | items => items

/-- The alternatives cleaned, where they are a list. -/
def cleanAnyOf (anyOf : Json) : Json :=
  match anyOf with
  | .array nested => .array (nested.map clean)
  | anyOf => anyOf

/-- A field with another value, where there is one. -/
def updateField (fields : Fields) (key : String) (f : Json → Json) : Fields :=
  Function.update fields key ((fields key).map f)

/-- `cleanGeminiFunctionParametersWithDepth`, of an object. -/
def cleanFields (fields : Fields) : Fields :=
  let cleaned := normalizeGeminiSchemaTypeAndNullable (allowed fields)
  let cleaned := updateField cleaned "properties" (cleanProperties clean)
  let cleaned := updateField cleaned "items" (cleanItems clean)
  updateField cleaned "anyOf" (cleanAnyOf clean)

end Walk

/-- `cleanGeminiFunctionParametersWithDepth`, by the levels that remain to the limit. -/
def cleanGeminiFunctionParametersWithDepth : ℕ → Json → Json
  | 0, params => cleanGeminiFunctionParametersShallow params
  | remaining + 1, params =>
    match params with
    | .object fields =>
      .object (cleanFields (cleanGeminiFunctionParametersWithDepth remaining) fields)
    | .array l => .array (l.map (cleanGeminiFunctionParametersWithDepth remaining))
    | params => params

def cleanFunctionParameters (params : Json) : Json :=
  cleanGeminiFunctionParametersWithDepth geminiFunctionSchemaMaxDepth params

/-- A schema cleaned, by the levels that remain. -/
def cleanNode (remaining : ℕ) (fields : Fields) : Fields :=
  match remaining with
  | 0 => shallowFields fields
  | remaining + 1 => cleanFields (cleanGeminiFunctionParametersWithDepth remaining) fields

/-! ### Schemas -/

/-- **The schemas of a value**, with their depth: itself, and those in its properties, its items and
its alternatives, also where they stand in lists. -/
inductive Node : Json → ℕ → Fields → Prop
  | here (fields : Fields) : Node (.object fields) 0 fields
  | element {l : List Json} {value : Json} {depth : ℕ} {node : Fields} :
      value ∈ l → Node value depth node → Node (.array l) (depth + 1) node
  | property {fields props : Fields} {name : String} {value : Json} {depth : ℕ} {node : Fields} :
      fields "properties" = some (.object props) → props name = some value →
        Node value depth node → Node (.object fields) (depth + 1) node
  | items {fields : Fields} {value : Json} {depth : ℕ} {node : Fields} :
      fields "items" = some value → Node value depth node → Node (.object fields) (depth + 1) node
  | anyOf {fields : Fields} {l : List Json} {value : Json} {depth : ℕ} {node : Fields} :
      fields "anyOf" = some (.array l) → value ∈ l → Node value depth node →
        Node (.object fields) (depth + 1) node

/-- **The schemas that the cleaning comes to.**  Of a list of items it is the first one. -/
inductive Walked : Json → ℕ → Fields → Prop
  | here (fields : Fields) : Walked (.object fields) 0 fields
  | element {l : List Json} {value : Json} {depth : ℕ} {node : Fields} :
      value ∈ l → Walked value depth node → Walked (.array l) (depth + 1) node
  | property {fields props : Fields} {name : String} {value : Json} {depth : ℕ} {node : Fields} :
      fields "properties" = some (.object props) → props name = some value →
        Walked value depth node → Walked (.object fields) (depth + 1) node
  | items {fields items : Fields} {depth : ℕ} {node : Fields} :
      fields "items" = some (.object items) → Walked (.object items) depth node →
        Walked (.object fields) (depth + 1) node
  | firstItem {fields : Fields} {first : Json} {rest : List Json} {depth : ℕ} {node : Fields} :
      fields "items" = some (.array (first :: rest)) → Walked first depth node →
        Walked (.object fields) (depth + 1) node
  | anyOf {fields : Fields} {l : List Json} {value : Json} {depth : ℕ} {node : Fields} :
      fields "anyOf" = some (.array l) → value ∈ l → Walked value depth node →
        Walked (.object fields) (depth + 1) node

/-- The null type, alone or in a list. -/
def NullTyped (source : Fields) : Prop :=
  (∃ t, source "type" = some (.string t) ∧ normalize t = none) ∨
    ∃ l t, source "type" = some (.array l) ∧ Json.string t ∈ l ∧ normalize t = none

/-- **A schema that was cleaned**: its fields are allowed, its type is no list and not null, and it
is nullable where it came from the null type. -/
structure Cleaned (source node : Fields) : Prop where
  allowed : ∀ key, (node key).isSome = true → key ∈ geminiOpenAPISchemaAllowedFields
  noList : ∀ l, node "type" ≠ some (.array l)
  normalized : ∀ t, node "type" = some (.string t) → normalize t = some t
  nullable : NullTyped source → node "nullable" = some (.bool true)
  kept : ¬NullTyped source → node "nullable" = source "nullable"

/-! ### Types that are normalized -/

/-- A type that is no list, and that is spelled as Gemini wants it. -/
structure SettledType (type : Option Json) : Prop where
  noList : ∀ l, type ≠ some (.array l)
  normalized : ∀ t, type = some (.string t) → normalize t = some t

theorem normalize_again {t normalized : String} (h : normalize t = some normalized) :
    normalize normalized = some normalized := by
  have hcopy := h
  unfold normalize at h
  split at h
  case h_7 => cases h
  case h_8 =>
    cases h
    exact hcopy
  all_goals
    cases h
    decide

theorem settledType_none : SettledType none :=
  ⟨fun _ h => (by cases h), fun _ h => (by cases h)⟩

theorem settledType_string {t : String} (h : normalize t = some t) :
    SettledType (some (.string t)) where
  noList l h := by cases h
  normalized t' ht := by
    obtain rfl := Json.string.inj (Option.some.inj ht)
    exact h

/-- What a loop over types has chosen is nothing or normalized. -/
def TypeChoice.Normalized (c : TypeChoice) : Prop :=
  c.chosen = "" ∨ normalize c.chosen = some c.chosen

theorem TypeChoice.Normalized.step {c : TypeChoice} (h : c.Normalized) (item : Json) :
    (c.step item).Normalized ∧ ((c.step item).nullable = true ↔
      c.nullable = true ∨ ∃ t, item = .string t ∧ normalize t = none) := by
  cases item with
  | string value =>
    cases hvalue : normalize value with
    | none =>
      have hstep : c.step (.string value) = { c with nullable := true } := by
        simp only [TypeChoice.step, hvalue]
      rw [hstep]
      exact ⟨h, fun _ => .inr ⟨value, rfl, hvalue⟩, fun _ => rfl⟩
    | some normalized =>
      have hnot : ¬∃ t, Json.string value = .string t ∧ normalize t = none := by
        rintro ⟨t, ht, hnull⟩
        obtain rfl := Json.string.inj ht
        rw [hnull] at hvalue
        cases hvalue
      simp only [TypeChoice.step, hvalue]
      split_ifs
      · exact ⟨.inr (normalize_again hvalue), (or_iff_left hnot).symm⟩
      · exact ⟨h, (or_iff_left hnot).symm⟩
  | _ =>
    refine ⟨h, (or_iff_left ?_).symm⟩
    rintro ⟨t, ht, -⟩
    cases ht

/-- The loop over a list of types: what it chooses is normalized, and it has met the null type iff
that is in the list. -/
theorem TypeChoice.Normalized.foldl {c : TypeChoice} (h : c.Normalized) (l : List Json) :
    (l.foldl TypeChoice.step c).Normalized ∧ ((l.foldl TypeChoice.step c).nullable = true ↔
      c.nullable = true ∨ ∃ t, Json.string t ∈ l ∧ normalize t = none) := by
  induction l generalizing c with
  | nil => exact ⟨h, by simp⟩
  | cons item l ih =>
    obtain ⟨hstep, hnullable⟩ := h.step item
    obtain ⟨hfold, hfoldNullable⟩ := ih hstep
    refine ⟨hfold, ?_⟩
    rw [foldl_cons, hfoldNullable, hnullable, or_assoc]
    simp only [mem_cons, or_and_right, exists_or, eq_comm]

/-- **A schema is normalized** in its type, and is nullable if the null type was one of its
types. -/
theorem normalizeSchema_spec (schema : Fields) :
    ∃ type, SettledType type ∧
      ((NullTyped schema ∧ normalizeGeminiSchemaTypeAndNullable schema =
          Function.update (Function.update schema "nullable" (some (.bool true))) "type" type) ∨
        (¬NullTyped schema ∧ normalizeGeminiSchemaTypeAndNullable schema =
          Function.update schema "type" type)) := by
  have hother (type : Json) (hschema : schema "type" = some type)
      (hnormalized : normalizeGeminiSchemaTypeAndNullable schema = schema)
      (hstring : ∀ t, type ≠ .string t) (hlist : ∀ l, type ≠ .array l) :
      ∃ type, SettledType type ∧
        ((NullTyped schema ∧ normalizeGeminiSchemaTypeAndNullable schema =
            Function.update (Function.update schema "nullable" (some (.bool true))) "type" type) ∨
          (¬NullTyped schema ∧ normalizeGeminiSchemaTypeAndNullable schema =
            Function.update schema "type" type)) := by
    refine ⟨some type, ⟨fun l h => hlist l (Option.some.inj h),
      fun t h => absurd (Option.some.inj h) (hstring t)⟩, .inr ⟨?_, ?_⟩⟩
    · rintro (⟨t, ht, -⟩ | ⟨l, t, hl, -⟩)
      · exact hstring t (Option.some.inj (hschema.symm.trans ht))
      · exact hlist l (Option.some.inj (hschema.symm.trans hl))
    · rw [hnormalized, ← hschema, update_eq_self]
  cases hschema : schema "type" with
  | none =>
    refine ⟨none, settledType_none, .inr ⟨?_, ?_⟩⟩
    · rintro (⟨t, ht, -⟩ | ⟨l, t, hl, -⟩)
      · rw [hschema] at ht
        cases ht
      · rw [hschema] at hl
        cases hl
    · rw [← hschema, update_eq_self]
      simp only [normalizeGeminiSchemaTypeAndNullable, hschema]
  | some type =>
    cases type with
    | string typed =>
      cases htyped : normalize typed with
      | none =>
        refine ⟨none, settledType_none, .inl ⟨.inl ⟨typed, hschema, htyped⟩, ?_⟩⟩
        simp only [normalizeGeminiSchemaTypeAndNullable, hschema, htyped]
      | some normalized =>
        refine ⟨some (.string normalized), settledType_string (normalize_again htyped),
          .inr ⟨?_, ?_⟩⟩
        · rintro (⟨t, ht, hnull⟩ | ⟨l, t, hl, -⟩)
          · obtain rfl := Json.string.inj (Option.some.inj (hschema.symm.trans ht))
            rw [hnull] at htyped
            cases htyped
          · rw [hschema] at hl
            cases hl
        · simp only [normalizeGeminiSchemaTypeAndNullable, hschema, htyped]
    | array typed =>
      obtain ⟨hchosen, hnullable⟩ := TypeChoice.Normalized.foldl (c := {}) (.inl rfl) typed
      generalize hc : typed.foldl TypeChoice.step {} = c at hchosen hnullable
      have hnull : c.nullable = true ↔ NullTyped schema := by
        rw [hnullable]
        constructor
        · rintro (h | ⟨t, ht, hnull⟩)
          · cases h
          · exact .inr ⟨typed, t, hschema, ht, hnull⟩
        · rintro (⟨t, ht, -⟩ | ⟨l, t, hl, ht, hnull⟩)
          · rw [hschema] at ht
            cases ht
          · obtain rfl := Json.array.inj (Option.some.inj (hschema.symm.trans hl))
            exact .inr ⟨t, ht, hnull⟩
      refine ⟨if c.chosen ≠ "" then some (.string c.chosen) else none, ?_, ?_⟩
      · split_ifs with hempty
        · exact settledType_string (hchosen.resolve_left hempty)
        · exact settledType_none
      · by_cases h : c.nullable = true
        · refine .inl ⟨hnull.1 h, ?_⟩
          simp only [normalizeGeminiSchemaTypeAndNullable, hschema, hc, if_pos h]
          split_ifs <;> rfl
        · refine .inr ⟨fun hn => h (hnull.2 hn), ?_⟩
          simp only [normalizeGeminiSchemaTypeAndNullable, hschema, hc, if_neg h]
          split_ifs <;> rfl
    | _ =>
      refine hother _ hschema ?_ (fun t h => (by cases h)) fun l h => (by cases h)
      simp only [normalizeGeminiSchemaTypeAndNullable, hschema]

/-! ### Cleaned schemas -/

section Cleaned

variable {fields schema : Fields} {key : String} {clean : Json → Json}

theorem normalizeSchema_of_ne (htype : key ≠ "type") (hnullable : key ≠ "nullable") :
    normalizeGeminiSchemaTypeAndNullable schema key = schema key := by
  obtain ⟨type, -, h | h⟩ := normalizeSchema_spec schema
  · rw [h.2, update_of_ne htype, update_of_ne hnullable]
  · rw [h.2, update_of_ne htype]

theorem allowed_of_mem (h : key ∈ geminiOpenAPISchemaAllowedFields) :
    allowed fields key = fields key := if_pos h

theorem allowed_isSome (h : (allowed fields key).isSome = true) :
    key ∈ geminiOpenAPISchemaAllowedFields := by
  by_contra hkey
  rw [allowed, if_neg hkey] at h
  cases h

theorem nullTyped_allowed : NullTyped (allowed fields) ↔ NullTyped fields := by
  unfold NullTyped
  rw [allowed_of_mem (by decide)]

theorem cleaned_normalize (fields : Fields) :
    Cleaned fields (normalizeGeminiSchemaTypeAndNullable (allowed fields)) := by
  obtain ⟨type, htype, h⟩ := normalizeSchema_spec (allowed fields)
  rw [nullTyped_allowed] at h
  have hatType : normalizeGeminiSchemaTypeAndNullable (allowed fields) "type" = type := by
    rcases h with h | h
    · rw [h.2, update_self]
    · rw [h.2, update_self]
  refine ⟨fun key hkey => ?_, hatType ▸ htype.noList, hatType ▸ htype.normalized, fun hnull => ?_,
    fun hnull => ?_⟩
  · by_cases hkeyType : key = "type"
    · rw [hkeyType]
      decide
    · by_cases hkeyNullable : key = "nullable"
      · rw [hkeyNullable]
        decide
      · rw [normalizeSchema_of_ne hkeyType hkeyNullable] at hkey
        exact allowed_isSome hkey
  · rcases h with h | h
    · rw [h.2, update_of_ne (by decide), update_self]
    · exact absurd hnull h.1
  · rcases h with h | h
    · exact absurd h.1 hnull
    · rw [h.2, update_of_ne (by decide), allowed_of_mem (by decide)]

/-- The fields that hold other schemas. -/
def Nested (key : String) : Prop := key = "properties" ∨ key = "items" ∨ key = "anyOf"

theorem normalizeSchema_nested (h : Nested key) :
    normalizeGeminiSchemaTypeAndNullable (allowed fields) key = fields key := by
  obtain rfl | rfl | rfl := h <;>
    exact (normalizeSchema_of_ne (by decide) (by decide)).trans (allowed_of_mem (by decide))

@[simp] theorem cleanFields_properties : cleanFields clean fields "properties" =
    (fields "properties").map (cleanProperties clean) := by
  simp only [cleanFields, updateField]
  rw [update_of_ne (by decide), update_of_ne (by decide), update_self,
    normalizeSchema_nested (.inl rfl)]

@[simp] theorem cleanFields_items : cleanFields clean fields "items" =
    (fields "items").map (cleanItems clean) := by
  simp only [cleanFields, updateField]
  rw [update_of_ne (by decide), update_self, update_of_ne (by decide),
    normalizeSchema_nested (.inr (.inl rfl))]

@[simp] theorem cleanFields_anyOf : cleanFields clean fields "anyOf" =
    (fields "anyOf").map (cleanAnyOf clean) := by
  simp only [cleanFields, updateField]
  rw [update_self, update_of_ne (by decide), update_of_ne (by decide),
    normalizeSchema_nested (.inr (.inr rfl))]

theorem cleanFields_of_not_nested (h : ¬Nested key) : cleanFields clean fields key =
    normalizeGeminiSchemaTypeAndNullable (allowed fields) key := by
  simp only [Nested, not_or] at h
  simp only [cleanFields, updateField]
  rw [update_of_ne h.2.2, update_of_ne h.2.1, update_of_ne h.1]

theorem shallowFields_nested (h : Nested key) : shallowFields fields key = none := by
  obtain rfl | rfl | rfl := h
  · simp only [shallowFields]
    rw [update_of_ne (by decide), update_of_ne (by decide), update_self]
  · simp only [shallowFields]
    rw [update_of_ne (by decide), update_self]
  · simp only [shallowFields]
    rw [update_self]

theorem shallowFields_of_not_nested (h : ¬Nested key) : shallowFields fields key =
    normalizeGeminiSchemaTypeAndNullable (allowed fields) key := by
  simp only [Nested, not_or] at h
  simp only [shallowFields]
  rw [update_of_ne h.2.2, update_of_ne h.2.1, update_of_ne h.1]

theorem cleanNode_of_not_nested (remaining : ℕ) (h : ¬Nested key) : cleanNode remaining fields key =
    normalizeGeminiSchemaTypeAndNullable (allowed fields) key := by
  cases remaining with
  | zero => exact shallowFields_of_not_nested h
  | succ remaining => exact cleanFields_of_not_nested h

/-- **A schema is cleaned**, at any depth. -/
theorem cleaned_cleanNode (remaining : ℕ) (fields : Fields) :
    Cleaned fields (cleanNode remaining fields) := by
  have h := cleaned_normalize fields
  have htype : cleanNode remaining fields "type" =
      normalizeGeminiSchemaTypeAndNullable (allowed fields) "type" :=
    cleanNode_of_not_nested remaining (by unfold Nested; decide)
  have hnullable : cleanNode remaining fields "nullable" =
      normalizeGeminiSchemaTypeAndNullable (allowed fields) "nullable" :=
    cleanNode_of_not_nested remaining (by unfold Nested; decide)
  refine ⟨fun key hkey => ?_, htype ▸ h.noList, htype ▸ h.normalized, hnullable ▸ h.nullable,
    hnullable ▸ h.kept⟩
  by_cases hnested : Nested key
  · obtain rfl | rfl | rfl := hnested <;> decide
  · rw [cleanNode_of_not_nested remaining hnested] at hkey
    exact h.allowed key hkey

end Cleaned

/-! ### The schemas that are reached -/

section Reached

variable {fields node : Fields} {value : Json} {depth remaining : ℕ}

theorem Node.walked (h : Node (cleanGeminiFunctionParametersWithDepth remaining value) depth node) :
    ∃ source, Walked value depth source ∧ depth ≤ remaining ∧
      node = cleanNode (remaining - depth) source := by
  induction remaining generalizing value depth node with
  | zero =>
    cases value with
    | object fields =>
      cases h with
      | here => exact ⟨fields, .here fields, le_refl 0, rfl⟩
      | property hprops _ _ =>
        rw [shallowFields_nested (.inl rfl)] at hprops
        cases hprops
      | items hitems _ =>
        rw [shallowFields_nested (.inr (.inl rfl))] at hitems
        cases hitems
      | anyOf hanyOf _ _ =>
        rw [shallowFields_nested (.inr (.inr rfl))] at hanyOf
        cases hanyOf
    | array l =>
      cases h with
      | element hvalue _ => cases hvalue
    | _ => cases h
  | succ remaining ih =>
    cases value with
    | object fields =>
      cases h with
      | here => exact ⟨fields, .here fields, zero_le _, rfl⟩
      | property hprops hname hnode =>
        rw [cleanFields_properties, Option.map_eq_some_iff] at hprops
        obtain ⟨properties, hfields, hclean⟩ := hprops
        cases properties with
        | object props =>
          obtain rfl := Json.object.inj hclean
          obtain ⟨value, hvalue, rfl⟩ := Option.map_eq_some_iff.1 hname
          obtain ⟨source, hwalked, hle, rfl⟩ := ih hnode
          refine ⟨source, .property hfields hvalue hwalked, succ_le_succ hle, ?_⟩
          rw [succ_sub_succ]
        | _ => cases hclean
      | items hitems hnode =>
        rw [cleanFields_items, Option.map_eq_some_iff] at hitems
        obtain ⟨items, hfields, rfl⟩ := hitems
        cases items with
        | object items =>
          obtain ⟨source, hwalked, hle, rfl⟩ := ih hnode
          refine ⟨source, .items hfields hwalked, succ_le_succ hle, ?_⟩
          rw [succ_sub_succ]
        | array l =>
          cases l with
          | nil =>
            cases hnode with
            | element hvalue _ => cases hvalue
          | cons first rest =>
            obtain ⟨source, hwalked, hle, rfl⟩ := ih hnode
            refine ⟨source, .firstItem hfields hwalked, succ_le_succ hle, ?_⟩
            rw [succ_sub_succ]
        | _ => cases hnode
      | anyOf hanyOf hvalue hnode =>
        rw [cleanFields_anyOf, Option.map_eq_some_iff] at hanyOf
        obtain ⟨anyOf, hfields, hclean⟩ := hanyOf
        cases anyOf with
        | array l =>
          obtain rfl := Json.array.inj hclean
          obtain ⟨value, hmem, rfl⟩ := mem_map.1 hvalue
          obtain ⟨source, hwalked, hle, rfl⟩ := ih hnode
          refine ⟨source, .anyOf hfields hmem hwalked, succ_le_succ hle, ?_⟩
          rw [succ_sub_succ]
        | _ => cases hclean
    | array l =>
      cases h with
      | element hvalue hnode =>
        obtain ⟨value, hmem, rfl⟩ := mem_map.1 hvalue
        obtain ⟨source, hwalked, hle, rfl⟩ := ih hnode
        refine ⟨source, .element hmem hwalked, succ_le_succ hle, ?_⟩
        rw [succ_sub_succ]
    | _ => cases h

theorem Walked.reached (h : Walked value depth node) (hle : depth ≤ remaining) :
    Node (cleanGeminiFunctionParametersWithDepth remaining value) depth
      (cleanNode (remaining - depth) node) := by
  induction h generalizing remaining with
  | here fields =>
    cases remaining with
    | zero => exact .here (shallowFields fields)
    | succ remaining => exact .here (cleanFields _ fields)
  | @element l value depth node hvalue _ ih =>
    cases remaining with
    | zero => cases hle
    | succ remaining =>
      rw [succ_sub_succ]
      exact .element (mem_map_of_mem hvalue) (ih (le_of_succ_le_succ hle))
  | @property fields props name value depth node hprops hname _ ih =>
    cases remaining with
    | zero => cases hle
    | succ remaining =>
      rw [succ_sub_succ]
      have hclean : cleanFields (cleanGeminiFunctionParametersWithDepth remaining) fields
          "properties" = some (.object fun name =>
            (props name).map (cleanGeminiFunctionParametersWithDepth remaining)) := by
        rw [cleanFields_properties, hprops]
        rfl
      have hvalue : (props name).map (cleanGeminiFunctionParametersWithDepth remaining) =
          some (cleanGeminiFunctionParametersWithDepth remaining value) := by
        rw [hname]
        rfl
      exact .property hclean hvalue (ih (le_of_succ_le_succ hle))
  | @items fields items depth node hitems _ ih =>
    cases remaining with
    | zero => cases hle
    | succ remaining =>
      rw [succ_sub_succ]
      refine .items ?_ (ih (le_of_succ_le_succ hle))
      rw [cleanFields_items, hitems]
      rfl
  | @firstItem fields first rest depth node hitems _ ih =>
    cases remaining with
    | zero => cases hle
    | succ remaining =>
      rw [succ_sub_succ]
      refine .items ?_ (ih (le_of_succ_le_succ hle))
      rw [cleanFields_items, hitems]
      rfl
  | @anyOf fields l value depth node hanyOf hvalue _ ih =>
    cases remaining with
    | zero => cases hle
    | succ remaining =>
      rw [succ_sub_succ]
      refine .anyOf ?_ (mem_map_of_mem hvalue) (ih (le_of_succ_le_succ hle))
      rw [cleanFields_anyOf, hanyOf]
      rfl

end Reached

/-! ### Cleaning once more -/

/-- No list of items that the cleaning comes to starts with a list that holds something, as far as
the limit lets the cleaning into that one. -/
def Steady (remaining : ℕ) (value : Json) : Prop :=
  ∀ depth source, Walked value depth source → depth + 2 ≤ remaining → ∀ first rest others,
    source "items" ≠ some (.array (.array (first :: rest) :: others))

section Again

variable {source node fields : Fields} {value : Json} {remaining : ℕ}

theorem Cleaned.normalize_eq (h : Cleaned source node) :
    normalizeGeminiSchemaTypeAndNullable (Schema.allowed node) = node := by
  have hallowed : Schema.allowed node = node := by
    funext key
    by_cases hkey : key ∈ geminiOpenAPISchemaAllowedFields
    · exact allowed_of_mem hkey
    · have hnone : ¬(node key).isSome = true := fun hsome => hkey (h.allowed key hsome)
      rw [Schema.allowed, if_neg hkey, Option.not_isSome_iff_eq_none.1 hnone]
  rw [hallowed]
  cases htype : node "type" with
  | none => simp only [normalizeGeminiSchemaTypeAndNullable, htype]
  | some type =>
    cases type with
    | string t =>
      simp only [normalizeGeminiSchemaTypeAndNullable, htype, h.normalized t htype]
      rw [← htype, update_eq_self]
    | array l => exact absurd htype (h.noList l)
    | _ => simp only [normalizeGeminiSchemaTypeAndNullable, htype]

theorem clean_ne_cons (remaining : ℕ) (value : Json) (rest : List Json) :
    cleanGeminiFunctionParametersWithDepth remaining value ≠ .array (value :: rest) := by
  induction remaining generalizing value rest with
  | zero =>
    intro h
    cases value with
    | array | _ => cases h
  | succ remaining ih =>
    intro h
    cases value with
    | array l =>
      cases l with
      | nil => cases h
      | cons first others =>
        have hhead := (List.cons.inj (Json.array.inj h)).1
        exact ih first others hhead
    | _ => cases h

/-- Cleaning the value once more changes nothing. -/
def Settled (clean : Json → Json) (value : Json) : Prop := clean (clean value) = clean value

theorem cleanItems_clean_first_iff (first : Json) :
    cleanItems (cleanGeminiFunctionParametersWithDepth remaining)
        (cleanGeminiFunctionParametersWithDepth remaining first) =
        cleanGeminiFunctionParametersWithDepth remaining first ↔
      (1 ≤ remaining → ∀ inner rest, first ≠ .array (inner :: rest)) ∧
        Settled (cleanGeminiFunctionParametersWithDepth remaining) first := by
  cases remaining with
  | zero =>
    have hnot : ¬1 ≤ 0 := by decide
    cases first with
    | array l => exact ⟨fun _ => ⟨fun h => absurd h hnot, rfl⟩, fun _ => rfl⟩
    | _ => exact ⟨fun h => ⟨fun h => absurd h hnot, h⟩, fun h => h.2⟩
  | succ remaining =>
    cases first with
    | array l =>
      cases l with
      | nil => exact ⟨fun _ => ⟨fun _ inner rest h => (by cases h), rfl⟩, fun _ => rfl⟩
      | cons inner rest =>
        constructor
        · intro h
          exact absurd h (clean_ne_cons (remaining + 1) _ _)
        · intro h
          exact absurd rfl (h.1 (succ_le_succ (zero_le remaining)) inner rest)
    | object fields =>
      exact ⟨fun h => ⟨fun _ inner rest h => (by cases h), h⟩, fun h => h.2⟩
    | _ => exact ⟨fun h => ⟨fun _ inner rest h => (by cases h), rfl⟩, fun h => rfl⟩

theorem map_again_iff {α : Type} (o : Option α) (f : α → α) :
    (o.map f).map f = o.map f ↔ ∀ a, o = some a → f (f a) = f a := by
  cases o with
  | none => exact ⟨fun _ a h => (by cases h), fun _ => rfl⟩
  | some a =>
    rw [Option.map_some, Option.map_some, Option.some.injEq]
    exact ⟨fun h b hb => Option.some.inj hb ▸ h, fun h => h a rfl⟩

theorem settled_properties_iff (clean : Json → Json) (properties : Json) :
    Settled (cleanProperties clean) properties ↔
      ∀ props name value, properties = .object props → props name = some value →
        Settled clean value := by
  unfold Settled
  cases properties with
  | object props =>
    rw [cleanProperties, cleanProperties, Json.object.injEq, funext_iff]
    simp only [map_again_iff]
    constructor
    · intro h props' name value heq hvalue
      obtain rfl := Json.object.inj heq
      exact h name value hvalue
    · intro h name value hvalue
      exact h props name value rfl hvalue
  | _ => exact ⟨fun _ props name value h => (by cases h), fun _ => rfl⟩

theorem settled_anyOf_iff (clean : Json → Json) (anyOf : Json) :
    Settled (cleanAnyOf clean) anyOf ↔
      ∀ l value, anyOf = .array l → value ∈ l → Settled clean value := by
  unfold Settled
  cases anyOf with
  | array l =>
    simp only [cleanAnyOf, Json.array.injEq, map_map, map_inj_left, comp_apply]
    constructor
    · rintro h l' value rfl hvalue
      exact h value hvalue
    · intro h value hvalue
      exact h l value rfl hvalue
  | _ => exact ⟨fun _ l value h => (by cases h), fun _ => rfl⟩

theorem settled_items_iff (items : Json) :
    Settled (cleanItems (cleanGeminiFunctionParametersWithDepth remaining)) items ↔
      (∀ fields, items = .object fields →
        Settled (cleanGeminiFunctionParametersWithDepth remaining) (.object fields)) ∧
      ∀ first others, items = .array (first :: others) →
        (1 ≤ remaining → ∀ inner rest, first ≠ .array (inner :: rest)) ∧
          Settled (cleanGeminiFunctionParametersWithDepth remaining) first := by
  cases items with
  | object fields =>
    have hobject : Settled (cleanItems (cleanGeminiFunctionParametersWithDepth remaining))
        (.object fields) ↔
          Settled (cleanGeminiFunctionParametersWithDepth remaining) (.object fields) := by
      cases remaining <;> rfl
    rw [hobject]
    constructor
    · intro h
      refine ⟨fun fields' heq => ?_, fun first others heq => (by cases heq)⟩
      obtain rfl := Json.object.inj heq
      exact h
    · intro h
      exact h.1 fields rfl
  | array l =>
    cases l with
    | nil =>
      exact ⟨fun _ => ⟨fun fields h => (by cases h), fun first others h => (by cases h)⟩,
        fun _ => rfl⟩
    | cons first others =>
      rw [Settled, cleanItems, cleanItems_clean_first_iff]
      constructor
      · intro h
        refine ⟨fun fields heq => (by cases heq), fun first' others' heq => ?_⟩
        obtain ⟨rfl, rfl⟩ := List.cons.inj (Json.array.inj heq)
        exact h
      · intro h
        exact h.2 first others rfl
  | _ =>
    exact ⟨fun _ => ⟨fun fields h => (by cases h), fun first others h => (by cases h)⟩,
      fun _ => rfl⟩

/-- Cleaning an object once more changes nothing iff that changes nothing in its nested fields. -/
theorem cleanFields_again_iff (remaining : ℕ) (fields : Fields) :
    cleanNode (remaining + 1) (cleanNode (remaining + 1) fields) =
        cleanNode (remaining + 1) fields ↔
      (∀ properties, fields "properties" = some properties →
        Settled (cleanProperties (cleanGeminiFunctionParametersWithDepth remaining)) properties) ∧
      (∀ items, fields "items" = some items →
        Settled (cleanItems (cleanGeminiFunctionParametersWithDepth remaining)) items) ∧
      ∀ anyOf, fields "anyOf" = some anyOf →
        Settled (cleanAnyOf (cleanGeminiFunctionParametersWithDepth remaining)) anyOf := by
  simp only [Settled, ← map_again_iff]
  constructor
  · intro h
    refine ⟨?_, ?_, ?_⟩
    · simpa only [cleanNode, cleanFields_properties] using congrFun h "properties"
    · simpa only [cleanNode, cleanFields_items] using congrFun h "items"
    · simpa only [cleanNode, cleanFields_anyOf] using congrFun h "anyOf"
  · rintro ⟨hproperties, hitems, hanyOf⟩
    funext key
    by_cases hkey : Nested key
    · obtain rfl | rfl | rfl := hkey
      · simpa only [cleanNode, cleanFields_properties] using hproperties
      · simpa only [cleanNode, cleanFields_items] using hitems
      · simpa only [cleanNode, cleanFields_anyOf] using hanyOf
    · rw [cleanNode_of_not_nested (remaining + 1) hkey,
        (cleaned_cleanNode (remaining + 1) fields).normalize_eq]

theorem steady_element_iff (l : List Json) :
    Steady (remaining + 1) (.array l) ↔ ∀ value ∈ l, Steady remaining value := by
  constructor
  · intro h value hvalue depth source hwalked hle
    exact h (depth + 1) source (.element hvalue hwalked) (by omega)
  · intro h depth source hwalked hle
    cases hwalked with
    | element hvalue hwalked => exact h _ hvalue _ source hwalked (by omega)

theorem steady_object_iff (fields : Fields) :
    Steady (remaining + 1) (.object fields) ↔
      (∀ props name value, fields "properties" = some (.object props) → props name = some value →
        Steady remaining value) ∧
      ((∀ items, fields "items" = some (.object items) → Steady remaining (.object items)) ∧
        ∀ first others, fields "items" = some (.array (first :: others)) →
          (1 ≤ remaining → ∀ inner rest, first ≠ .array (inner :: rest)) ∧ Steady remaining first) ∧
      ∀ l value, fields "anyOf" = some (.array l) → value ∈ l → Steady remaining value := by
  constructor
  · intro h
    refine ⟨fun props name value hprops hname depth source hwalked hle => ?_,
      ⟨fun items hitems depth source hwalked hle => ?_,
        fun first others hitems => ⟨fun hle inner rest heq => ?_,
          fun depth source hwalked hle => ?_⟩⟩,
      fun l value hanyOf hvalue depth source hwalked hle => ?_⟩
    · exact h (depth + 1) source (.property hprops hname hwalked) (by omega)
    · exact h (depth + 1) source (.items hitems hwalked) (by omega)
    · obtain rfl := heq
      exact h 0 fields (.here fields) (by omega) inner rest others hitems
    · exact h (depth + 1) source (.firstItem hitems hwalked) (by omega)
    · exact h (depth + 1) source (.anyOf hanyOf hvalue hwalked) (by omega)
  · rintro ⟨hproperties, ⟨hitems, hfirst⟩, hanyOf⟩ depth source hwalked hle
    cases hwalked with
    | here =>
      intro inner rest others heq
      exact (hfirst _ others heq).1 (by omega) inner rest rfl
    | property hprops hname hwalked =>
      exact hproperties _ _ _ hprops hname _ source hwalked (by omega)
    | items hobject hwalked => exact hitems _ hobject _ source hwalked (by omega)
    | firstItem hlist hwalked => exact (hfirst _ _ hlist).2 _ source hwalked (by omega)
    | anyOf hlist hvalue hwalked => exact hanyOf _ _ hlist hvalue _ source hwalked (by omega)

/-- **Cleaning once more changes nothing iff no list of items starts with a list.** -/
theorem clean_clean_iff (remaining : ℕ) (value : Json) :
    Settled (cleanGeminiFunctionParametersWithDepth remaining) value ↔ Steady remaining value := by
  induction remaining generalizing value with
  | zero =>
    refine ⟨fun _ depth source _ hle => absurd hle (by omega), fun _ => ?_⟩
    cases value with
    | object fields =>
      refine congrArg Json.object (funext fun key => ?_)
      by_cases hkey : Nested key
      · rw [shallowFields_nested hkey, shallowFields_nested hkey]
      · have hcleaned := cleaned_cleanNode 0 fields
        rw [shallowFields_of_not_nested hkey]
        exact congrFun hcleaned.normalize_eq key
    | _ => rfl
  | succ remaining ih =>
    cases value with
    | object fields =>
      have hobject : Settled (cleanGeminiFunctionParametersWithDepth (remaining + 1))
          (.object fields) ↔ cleanNode (remaining + 1) (cleanNode (remaining + 1) fields) =
            cleanNode (remaining + 1) fields :=
        ⟨Json.object.inj, congrArg Json.object⟩
      rw [hobject, cleanFields_again_iff, steady_object_iff]
      simp only [settled_properties_iff, settled_items_iff, settled_anyOf_iff, ih]
      refine and_congr ?_ (and_congr ?_ ?_)
      · exact ⟨fun h props name value hprops hname => h _ hprops props name value rfl hname,
          fun h _ hprops props name value heq hname => h props name value (heq ▸ hprops) hname⟩
      · exact ⟨fun h => ⟨fun items hitems => (h _ hitems).1 items rfl,
            fun first others hitems => (h _ hitems).2 first others rfl⟩,
          fun h _ hitems => ⟨fun items heq => h.1 items (heq ▸ hitems),
            fun first others heq => h.2 first others (heq ▸ hitems)⟩⟩
      · exact ⟨fun h l value hanyOf hvalue => h _ hanyOf l value rfl hvalue,
          fun h _ hanyOf l value heq hvalue => h l value (heq ▸ hanyOf) hvalue⟩
    | array l =>
      rw [steady_element_iff]
      simp only [← ih, Settled, cleanGeminiFunctionParametersWithDepth, Json.array.injEq,
        map_map, map_inj_left, comp_apply]
    | _ =>
      refine ⟨fun _ depth source hwalked => ?_, fun _ => rfl⟩
      cases hwalked

/-- **Parameters of a tool, cleaned.**  The schemas of the result are the ones that the cleaning
comes to within the limit, each one cleaned; and cleaning once more changes nothing iff no list of
items that it comes to starts with a list that holds something. -/
theorem cleanFunctionParameters_spec (params : Json) :
    (∀ depth node, Node (cleanFunctionParameters params) depth node →
      depth ≤ geminiFunctionSchemaMaxDepth ∧
        ∃ source, Walked params depth source ∧ Cleaned source node) ∧
    (∀ depth source, Walked params depth source → depth ≤ geminiFunctionSchemaMaxDepth →
      ∃ node, Node (cleanFunctionParameters params) depth node ∧ Cleaned source node) ∧
    (cleanFunctionParameters (cleanFunctionParameters params) = cleanFunctionParameters params ↔
      Steady geminiFunctionSchemaMaxDepth params) := by
  refine ⟨fun depth node h => ?_, fun depth source h hle => ?_,
    clean_clean_iff geminiFunctionSchemaMaxDepth params⟩
  · obtain ⟨source, hwalked, hle, rfl⟩ := Node.walked h
    exact ⟨hle, source, hwalked, cleaned_cleanNode _ source⟩
  · exact ⟨_, h.reached hle, cleaned_cleanNode _ source⟩

/-- A schema with a type. -/
def typed (type : Json) : Json := .object fun key => if key = "type" then some type else none

/-- Items that are a list in a list. -/
def nestedItems : Json :=
  .object fun key =>
    if key = "items" then some (.array [ .array [typed (.string "string")]]) else none

/-- **Of a list in a list** the first cleaning leaves a list, and the next one its item. -/
theorem nestedItems_cleaned_twice :
    cleanFunctionParameters (cleanFunctionParameters nestedItems) ≠
      cleanFunctionParameters nestedItems := by
  intro h
  have hsteady := (clean_clean_iff geminiFunctionSchemaMaxDepth nestedItems).1 h
  exact hsteady 0 _ (.here _) (by decide) (typed (.string "string")) [] [] rfl

end Again

end NexusTok.Convert.Schema
