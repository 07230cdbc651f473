import NexusTok.Reasoning.Suffix

/-!
# Reasoning in the price and in the request

Two implementations read the reasoning intent off a requested model name.  The price side
(`CanonicalBillingModelNames`) passes over the modifiers it does not know or cannot read; the
request side (`parseRequestModelName`) refuses the name for them.

* `follows_foldlM` : a loop that refuses and a loop that passes over agree where the first accepts.
* `billed_as_applied` : a name that the request side accepts is billed at the intent and the base
  that the request side applies.
-/

namespace NexusTok

open Except

/-! ### Loops that refuse -/

section Loops

variable {α σ τ ε : Type} {R : σ → τ → Prop} {strict : σ → α → Except ε σ} {lenient : τ → α → τ}

/-- **A loop that stops at the first error and a loop that has none**: where each accepted turn of
the first is followed by the second, an accepted run is. -/
theorem follows_foldlM {l : List α}
    (hturn : ∀ a ∈ l, ∀ s t s', R s t → strict s a = .ok s' → R s' (lenient t a)) {s s' : σ} {t : τ}
    (hR : R s t) (h : l.foldlM strict s = .ok s') : R s' (l.foldl lenient t) := by
  induction l generalizing s t with
  | nil =>
    obtain rfl : s = s' := by simpa [pure, Except.pure] using h
    exact hR
  | cons a l ih =>
    rw [List.foldlM_cons] at h
    rcases hs : strict s a with _ | mid
    · simp [hs, bind, Except.bind] at h
    simp only [hs, bind, Except.bind] at h
    exact ih (fun b hb => hturn b (List.mem_cons_of_mem a hb))
      (hturn a List.mem_cons_self s t mid hR hs) h

end Loops

/-! ### Modifiers -/

/-- The map `last`: where the last modifier of each key stands. -/
def lastIndex (modifiers : List ModelModifier) : String → Nat :=
  modifiers.zipIdx.foldl (fun last m => fun key => if key = m.1.key then m.2 else last key) fun _ => 0

/-! ### The price -/

/-- One turn of the loop of `billingIntentFromModifiers`: the intent and `hasThinking`. -/
def billingTurn (last : String → Nat) (acc : Intent × Bool) (m : ModelModifier × Nat) :
    Intent × Bool :=
  let (intent, hasThinking) := acc
  if last m.1.key ≠ m.2 then acc
  else if m.1.key = "thinking" then
    match parseThinkingModifier m.1.value with
    | none => acc
    | some parsed =>
      if hasThinking ∧ parsed.mode ≠ .disabled ∧ parsed.budgetTokens = none then
        ({ intent with mode := parsed.mode, source := .suffix }, true)
      else if hasThinking ∧ parsed.mode ≠ .disabled then
        ({ intent with mode := parsed.mode, budgetTokens := parsed.budgetTokens,
                       budgetSource := parsed.budgetSource, source := .suffix }, true)
      else (parsed, true)
  else if m.1.key = "effort" then
    match parseEffort m.1.value with
    | .error _ => acc
    | .ok effort =>
      if effort = .unset then acc
      else if effort = .none then
        ({ mode := .disabled, effort := .none, source := .suffix }, true)
      else
        let mode := if intent.mode = .unset ∨ intent.mode = .disabled then .enabled else intent.mode
        ({ intent with mode := mode, effort := effort, source := .suffix }, true)
  else acc

def billingIntentFromModifiers (spec : ModelModifierSpec) : Intent × Bool :=
  spec.modifiers.zipIdx.foldl (billingTurn (lastIndex spec.modifiers)) ({}, false)

def normalizeBillingThinking (intent : Intent) : Option (String × String) :=
  if intent.effort = .none ∨ intent.mode = .disabled then some ("off", "")
  else if intent.budgetTokens = some 0 then some ("off", "")
  else if intent.effort ≠ .unset ∧ intent.effort ≠ .none then
    some ("on", toLower intent.effort.word)
  else if intent.mode = .enabled ∨ intent.mode = .adaptive ∨ intent.budgetTokens.isSome then
    some ("on", "")
  else none

def canonicalNamesFromIntent (base : String) (intent : Intent) : List String :=
  match normalizeBillingThinking intent with
  | none => []
  | some (thinking, effort) =>
    if base = "" then []
    else
      let withEffort :=
        if effort ≠ "" then [base ++ "@effort:" ++ effort ++ "@thinking:" ++ thinking] else []
      let thinkingForm := base ++ "@thinking:" ++ thinking
      let names := withEffort ++ if thinkingForm ≠ base then [thinkingForm] else []
      names.foldl
        (fun out name => if name = "" ∨ name = base ∨ name ∈ out then out else out ++ [name]) []

/-- What `CanonicalBillingModelNames` picks the names from: the base, the intent and whether there
is one. -/
def billedIntent (s : ReasoningSettings) (modelName : String) : String × Intent × Bool :=
  if s.shouldPreserveThinkingSuffix modelName then (modelName, {}, false)
  else
    let spec := parseModelModifiers modelName
    let base := spec.base
    let (intent, hasThinking) := billingIntentFromModifiers spec
    if s.shouldPreserveThinkingSuffix base then (base, intent, hasThinking)
    else
      match parseLegacyModelSuffix s base s.claudeThinkingAdapterEnabled
          s.geminiThinkingAdapterEnabled with
      | .ok (some (legacyBase, legacyIntent)) =>
        if hasThinking then (legacyBase, intent, true) else (legacyBase, legacyIntent, true)
      | _ => (base, intent, hasThinking)

def canonicalBillingModelNames (s : ReasoningSettings) (modelName : String) : List String :=
  let (base, intent, hasThinking) := billedIntent s modelName
  if hasThinking then canonicalNamesFromIntent base intent else []

/-! ### The request -/

/-- The part of `convmeta.Options` that the request side reads. -/
structure ConvOptions where
  claudeThinkingAdapterEnabled : Bool
  geminiThinkingAdapterEnabled : Bool
  preserveThinkingSuffix : String → Bool

/-- `RelayInfo.ConvOptions`. -/
def convOptions (s : ReasoningSettings) : ConvOptions where
  claudeThinkingAdapterEnabled := s.claudeThinkingAdapterEnabled
  geminiThinkingAdapterEnabled := s.geminiThinkingAdapterEnabled
  preserveThinkingSuffix := s.shouldPreserveThinkingSuffix

/-- The diagnostic of a repeated modifier: its code, its path and its message. -/
structure ModifierDiagnostic where
  code : String
  path : String
  message : String
  deriving Repr, DecidableEq

def modelModifierDiagnostic (code key message : String) : ModifierDiagnostic :=
  ⟨code, "model.@" ++ key, message⟩

/-- `parsedModelModifiers`, over the type of finite numbers. -/
structure ParsedModelModifiers (F : Type) where
  base : String := ""
  hasSyntax : Bool := false
  intent : Intent := {}
  hasThinking : Bool := false
  temperature : Option F := none
  topP : Option F := none
  hasTemperature : Bool := false
  hasTopP : Bool := false
  diagnostics : List ModifierDiagnostic := []
  deriving Repr, DecidableEq

section Request

variable {F : Type} (parseFiniteFloat : String → Option F)

/-- The loop over the modifiers that fills `last`: a diagnostic for each modifier whose key was
there before. -/
def duplicateDiagnostics : List String → List ModelModifier → List ModifierDiagnostic
  | _, [] => []
  | seen, m :: modifiers =>
    let rest := duplicateDiagnostics (m.key :: seen) modifiers
    if m.key ∈ seen then
      modelModifierDiagnostic "duplicate_model_modifier" m.key
        ("model modifier \"" ++ m.key ++ "\" is repeated; the rightmost value is used") :: rest
    else rest

/-- One turn of the second loop of `parseExplicitModelModifiers`. -/
def explicitTurn (last : String → Nat) (parsed : ParsedModelModifiers F) (m : ModelModifier × Nat) :
    Except ControlError (ParsedModelModifiers F) :=
  if last m.1.key ≠ m.2 then .ok parsed
  else if m.1.key = "thinking" then
    match parseThinkingModifier m.1.value with
    | none => .error (.thinkingModifier m.1.value)
    | some intent =>
      if parsed.hasThinking ∧ intent.mode ≠ .disabled ∧ intent.budgetTokens = none then
        .ok { parsed with intent := { parsed.intent with mode := intent.mode, source := .suffix }
                          hasThinking := true }
      else if parsed.hasThinking ∧ intent.mode ≠ .disabled then
        .ok { parsed with intent := { parsed.intent with
                                        mode := intent.mode, budgetTokens := intent.budgetTokens,
                                        budgetSource := intent.budgetSource, source := .suffix }
                          hasThinking := true }
      else .ok { parsed with intent := intent, hasThinking := true }
  else if m.1.key = "effort" then
    match parseEffort m.1.value with
    | .error _ => .error (.effortModifier m.1.value)
    | .ok effort =>
      if effort = .unset then .error (.effortModifier m.1.value)
      else if effort = .none then
        .ok { parsed with intent := { mode := .disabled, effort := .none, source := .suffix }
                          hasThinking := true }
      else
        let mode := if parsed.intent.mode = .unset ∨ parsed.intent.mode = .disabled then .enabled
          else parsed.intent.mode
        .ok { parsed with intent := { parsed.intent with mode := mode, effort := effort,
                                                         source := .suffix }
                          hasThinking := true }
  else if m.1.key = "temperature" then
    match parseFiniteFloat m.1.value with
    | none => .error (.temperatureModifier m.1.value)
    | some value => .ok { parsed with temperature := some value, hasTemperature := true }
  else if m.1.key = "topp" then
    match parseFiniteFloat m.1.value with
    | none => .error (.toppModifier m.1.value)
    | some value => .ok { parsed with topP := some value, hasTopP := true }
  else .error (.unsupportedModifier m.1.key)

def parseExplicitModelModifiers (modelName : String) :
    Except ControlError (ParsedModelModifiers F) :=
  let spec := parseModelModifiers modelName
  spec.modifiers.zipIdx.foldlM (explicitTurn parseFiniteFloat (lastIndex spec.modifiers))
    { base := spec.base, hasSyntax := spec.hasModifiers,
      diagnostics := duplicateDiagnostics [] spec.modifiers }

def parseHostModelSuffix (s : ReasoningSettings) (name : String) (opts : ConvOptions) :
    Except ControlError (Option (String × Intent)) :=
  if name = "" then .ok none
  else parseLegacyModelSuffix s name opts.claudeThinkingAdapterEnabled
    opts.geminiThinkingAdapterEnabled

def parseRequestModelName (s : ReasoningSettings) (name : String) (opts : ConvOptions) :
    Except ControlError (ParsedModelModifiers F) :=
  if opts.preserveThinkingSuffix name then .ok { base := name }
  else
    match parseExplicitModelModifiers parseFiniteFloat name with
    | .error e => .error e
    | .ok parsed =>
      if opts.preserveThinkingSuffix parsed.base then .ok parsed
      else
        match parseHostModelSuffix s parsed.base opts with
        | .error e => .error e
        | .ok none => .ok parsed
        | .ok (some (legacyBase, legacyIntent)) =>
          if parsed.hasThinking then .ok { parsed with base := legacyBase }
          else .ok { parsed with base := legacyBase, intent := legacyIntent, hasThinking := true }

end Request

/-! ### Both sides -/

section Agreement

variable {F : Type} {parseFiniteFloat : String → Option F}

/-- What the request side has read so far is what the price side has. -/
def ReadAlike (base : String) (parsed : ParsedModelModifiers F) (billed : Intent × Bool) : Prop :=
  parsed.base = base ∧ (parsed.intent, parsed.hasThinking) = billed

/-- A turn that the request side accepts reads alike. -/
theorem ReadAlike.turn {base : String} {parsed parsed' : ParsedModelModifiers F}
    {billed : Intent × Bool} {last : String → Nat} {m : ModelModifier × Nat}
    (hR : ReadAlike base parsed billed)
    (h : explicitTurn parseFiniteFloat last parsed m = .ok parsed') :
    ReadAlike base parsed' (billingTurn last billed m) := by
  obtain ⟨rfl, rfl⟩ := hR
  by_cases hlast : last m.1.key ≠ m.2
  · -- a later modifier of the key follows
    simp only [explicitTurn, billingTurn, if_pos hlast] at h ⊢
    obtain rfl := ok.inj h
    exact ⟨rfl, rfl⟩
  by_cases hthinking : m.1.key = "thinking"
  · simp only [explicitTurn, billingTurn, if_neg hlast, if_pos hthinking] at h ⊢
    rcases hp : parseThinkingModifier m.1.value with _ | intent
    · simp [hp] at h
    simp only [hp] at h ⊢
    split_ifs at h ⊢ <;> obtain rfl := ok.inj h <;> exact ⟨rfl, rfl⟩
  by_cases heffort : m.1.key = "effort"
  · simp only [explicitTurn, billingTurn, if_neg hlast, if_neg hthinking, if_pos heffort] at h ⊢
    rcases hp : parseEffort m.1.value with _ | effort
    · simp [hp] at h
    simp only [hp] at h ⊢
    by_cases hunset : effort = .unset
    · simp [hunset] at h
    · simp only [if_neg hunset] at h ⊢
      split_ifs at h ⊢ <;> obtain rfl := ok.inj h <;> exact ⟨rfl, rfl⟩
  -- the other keys leave the intent
  simp only [explicitTurn, billingTurn, if_neg hlast, if_neg hthinking, if_neg heffort] at h ⊢
  split_ifs at h
  · rcases hp : parseFiniteFloat m.1.value with _ | value
    · simp [hp] at h
    simp only [hp] at h
    obtain rfl := ok.inj h
    exact ⟨rfl, rfl⟩
  · rcases hp : parseFiniteFloat m.1.value with _ | value
    · simp [hp] at h
    simp only [hp] at h
    obtain rfl := ok.inj h
    exact ⟨rfl, rfl⟩

theorem readAlike_explicit {modelName : String} {parsed : ParsedModelModifiers F}
    (h : parseExplicitModelModifiers parseFiniteFloat modelName = .ok parsed) :
    ReadAlike (parseModelModifiers modelName).base parsed
      (billingIntentFromModifiers (parseModelModifiers modelName)) :=
  follows_foldlM (fun _ _ _ _ _ hR hs => hR.turn hs) ⟨rfl, rfl⟩ h

theorem parseHostModelSuffix_eq (s : ReasoningSettings) (name : String) :
    parseHostModelSuffix s name (convOptions s) =
      parseLegacyModelSuffix s name s.claudeThinkingAdapterEnabled
        s.geminiThinkingAdapterEnabled := by
  unfold parseHostModelSuffix
  split_ifs with hempty
  · -- the empty name has no alias
    rw [hempty]
    symm
    unfold parseLegacyModelSuffix
    have hsplit : splitModelNamespace "" = ("", "") := by decide
    have hkeep : parseOpenAIReasoningEffortFromModelSuffix "" s.shouldPreserveEffortTail =
        ("", "") := by
      unfold parseOpenAIReasoningEffortFromModelSuffix
      split_ifs
      · rfl
      · decide
    have hclaude : hasPrefix "" "claude-" = false := by decide
    have hgemini : hasPrefix "" "gemini-" = false := by decide
    simp [hsplit, hkeep, hclaude, hgemini]
  · rfl

theorem parseRequestModelName_eq (s : ReasoningSettings) (name : String) :
    parseRequestModelName parseFiniteFloat s name (convOptions s) =
      if s.shouldPreserveThinkingSuffix name = true then .ok { base := name }
      else
        match parseExplicitModelModifiers parseFiniteFloat name with
        | .error e => .error e
        | .ok parsed =>
          if s.shouldPreserveThinkingSuffix parsed.base = true then .ok parsed
          else
            match parseHostModelSuffix s parsed.base (convOptions s) with
            | .error e => .error e
            | .ok none => .ok parsed
            | .ok (some (legacyBase, legacyIntent)) =>
              if parsed.hasThinking then .ok { parsed with base := legacyBase }
              else .ok { parsed with base := legacyBase, intent := legacyIntent,
                                     hasThinking := true } :=
  rfl

/-- **Billed as applied.**  A model name that the request side accepts is billed at the base and the
reasoning intent that the request side applies, and at no intent where it applies none. -/
theorem billed_as_applied (s : ReasoningSettings) (parseFiniteFloat : String → Option F)
    {modelName : String} {parsed : ParsedModelModifiers F}
    (h : parseRequestModelName parseFiniteFloat s modelName (convOptions s) = .ok parsed) :
    billedIntent s modelName = (parsed.base, parsed.intent, parsed.hasThinking) ∧
      baseModelName s modelName = parsed.base ∧
      canonicalBillingModelNames s modelName =
        if parsed.hasThinking then canonicalNamesFromIntent parsed.base parsed.intent else [] := by
  have key : billedIntent s modelName = (parsed.base, parsed.intent, parsed.hasThinking) ∧
      baseModelName s modelName = parsed.base := by
    rw [parseRequestModelName_eq] at h
    by_cases hname : s.shouldPreserveThinkingSuffix modelName = true
    · rw [if_pos hname] at h
      obtain rfl := Except.ok.inj h
      exact ⟨by simp only [billedIntent, if_pos hname], baseModelName_of_preserved hname⟩
    rw [if_neg hname] at h
    rcases he : parseExplicitModelModifiers parseFiniteFloat modelName with _ | explicit
    · simp [he] at h
    obtain ⟨hbase, hbilled⟩ := readAlike_explicit he
    simp only [he, parseHostModelSuffix_eq] at h
    simp only [billedIntent, baseModelName, if_neg hname, ← hbilled, ← hbase]
    by_cases hkeep : s.shouldPreserveThinkingSuffix explicit.base = true
    · simp only [if_pos hkeep] at h ⊢
      obtain rfl := Except.ok.inj h
      exact ⟨rfl, rfl⟩
    simp only [if_neg hkeep] at h ⊢
    rcases hl : parseLegacyModelSuffix s explicit.base s.claudeThinkingAdapterEnabled
        s.geminiThinkingAdapterEnabled with _ | found
    · simp [hl] at h
    cases found with
    | none =>
      simp only [hl] at h ⊢
      obtain rfl := Except.ok.inj h
      exact ⟨rfl, rfl⟩
    | some legacy =>
      -- a modifier outranks the suffix on both sides
      simp only [hl] at h ⊢
      by_cases ht : explicit.hasThinking = true
      · simp only [if_pos ht] at h ⊢
        obtain rfl := Except.ok.inj h
        exact ⟨by rw [ht], rfl⟩
      · simp only [if_neg ht] at h ⊢
        obtain rfl := Except.ok.inj h
        exact ⟨rfl, rfl⟩
  refine ⟨key.1, key.2, ?_⟩
  simp only [canonicalBillingModelNames, key.1]

/-- An effort modifier that outranks the suffix of the name. -/
theorem billed_as_applied_override :
    billedIntent {} "gpt-5-low@topp:1@effort:HIGH" =
      ("gpt-5", { mode := .enabled, effort := .high, source := .suffix }, true) := by
  have hr : parseRequestModelName atoi {} "gpt-5-low@topp:1@effort:HIGH" (convOptions {}) =
      .ok { base := "gpt-5", hasSyntax := true, hasThinking := true, topP := some 1,
            hasTopP := true,
            intent := { mode := .enabled, effort := .high, source := .suffix } } := by
    decide +kernel
  exact (billed_as_applied {} atoi hr).1

end Agreement

end NexusTok
