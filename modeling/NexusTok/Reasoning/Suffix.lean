import NexusTok.Reasoning.Intent

/-!
# Suffixes of model names

The old aliases: `ParseLegacyModelSuffix` reads one only off a name of the GPT and o-series, Claude
and Gemini families, and keeps what stands before the last `/` of the name as it is.  Two lists of
the settings exempt names: the blacklist of names that no suffix is read from, with regular
expressions, and the model IDs that end in the word of an effort.

* `baseModelName_of_preserved` : a name on the blacklist is its own base.
-/

namespace NexusTok

/-! ### Settings -/

/-- What the settings say about reasoning in model names.  The regular expressions of the blacklist
are compiled by the standard library. -/
structure ReasoningSettings where
  thinkingModelBlacklist : List String := []
  compile : String → Option (String → Bool) := fun _ => none
  effortTailModelIDs : List String := []
  claudeThinkingAdapterEnabled : Bool := false
  geminiThinkingAdapterEnabled : Bool := false

variable (modelName : String)

namespace ReasoningSettings

variable (s : ReasoningSettings)

/-- One entry of `compiledThinkingBlacklist`, as what it matches. -/
def blacklistEntry (entry : String) : String → Bool :=
  let entry := trimSpace entry
  if entry = "" then fun _ => false
  else
    match cutPrefix entry "re:" with
    | some pattern => if pattern = "" then fun _ => false else (s.compile pattern).getD fun _ => false
    | none => fun target => entry == target

def shouldPreserveThinkingSuffix (modelName : String) : Bool :=
  let target := trimSpace modelName
  target != "" && s.thinkingModelBlacklist.any fun entry => s.blacklistEntry entry target

def shouldPreserveEffortTail (modelName : String) : Bool :=
  let target := trimSpace modelName
  let bare := ((cutLast "/" target).map (·.2)).getD target
  target != "" && s.effortTailModelIDs.any fun entry =>
    let entry := trimSpace entry
    entry != "" && (entry == target || entry == bare)

end ReasoningSettings

/-! ### Families -/

/-- `[a-z0-9]` -/
def isLowerOrDigit (c : Char) : Bool := ('a' ≤ c && c ≤ 'z') || ('0' ≤ c && c ≤ '9')

/-- `[a-z0-9._-]` -/
def isNameChar (c : Char) : Bool := isLowerOrDigit c || c == '.' || c == '_' || c == '-'

/-- A text that is the given start, one character of a class and then characters of names. -/
def matchesFamily (start : String) (first : Char → Bool) (s : String) : Bool :=
  match cutPrefix s start with
  | none => false
  | some rest =>
    match rest.toList with
    | [] => false
    | c :: cs => first c && cs.all isNameChar

def legacyOpenAIModelPattern (s : String) : Bool :=
  matchesFamily "gpt-" isLowerOrDigit s || matchesFamily "o" (fun c => '1' ≤ c && c ≤ '9') s

def legacyClaudeModelPattern (s : String) : Bool := matchesFamily "claude-" isLowerOrDigit s

def legacyGeminiModelPattern (s : String) : Bool := matchesFamily "gemini-" isLowerOrDigit s

def splitModelNamespace : String × String :=
  match cutLast "/" modelName with
  | some (before, after) => (before ++ "/", after)
  | none => ("", modelName)

def lastModelPathSegment : String := (splitModelNamespace modelName).2

/-! ### Aliases -/

/-- `OpenAIEffortSuffixes`, also those of the other two families. -/
def effortSuffixes : List String :=
  ["-max", "-xhigh", "-high", "-medium", "-low", "-minimal", "-none"]

/-- `TrimEffortSuffixWithSuffixes`: the name without its suffix and the word of the suffix. -/
def trimEffortSuffixWithSuffixes (suffixes : List String) : Option (String × String) :=
  (suffixes.find? fun s => hasSuffix modelName s).map fun s =>
    (trimSuffix modelName s, (cutPrefix s "-").getD s)

/-- `ParseOpenAIReasoningEffortFromModelSuffix`: the effort, if any, and the base. -/
def parseOpenAIReasoningEffortFromModelSuffix
    (preserveEffortTail : String → Bool) : String × String :=
  if preserveEffortTail modelName then ("", modelName)
  else
    match trimEffortSuffixWithSuffixes modelName effortSuffixes with
    | none => ("", modelName)
    | some (baseModel, effort) =>
      if legacyOpenAIModelPattern (lastModelPathSegment baseModel) then (effort, baseModel)
      else ("", modelName)

/-- The end of `parseProviderModelSuffix`: an effort after the name. -/
def parseProviderEffort (requiredPrefix : String) (includeThoughts : Bool) :
    Except ControlError (Option (String × Intent)) :=
  match trimEffortSuffixWithSuffixes modelName effortSuffixes with
  | none => .ok none
  | some (baseModel, rawEffort) =>
    if !hasPrefix baseModel requiredPrefix then .ok none
    else
      match parseEffort rawEffort with
      | .error e => .error e
      | .ok effort =>
        if effort = .none then
          .ok (some (baseModel, { effort := effort, mode := .disabled, source := .suffix }))
        else
          .ok (some (baseModel, { effort := effort, mode := .enabled, source := .suffix,
                                  includeThoughts := if includeThoughts then some true else none }))

def parseProviderModelSuffix (requiredPrefix : String)
    (allowThinkingAlias includeThoughts : Bool) : Except ControlError (Option (String × Intent)) :=
  let thoughts := if includeThoughts then some true else none
  if allowThinkingAlias then
    match cutLast "-thinking-" modelName with
    | some (baseModel, budget) =>
      if !hasPrefix baseModel requiredPrefix then .ok none
      else
        match atoi budget with
        | none => .error (.thinkingBudget modelName)
        | some budget =>
          .ok (some (baseModel, { budgetTokens := some budget, source := .suffix,
                                  budgetSource := .suffix, includeThoughts := thoughts }))
    | none =>
      match cutSuffix modelName "-nothinking" with
      | some baseModel =>
        .ok (some (baseModel, { mode := .disabled, effort := .none, source := .suffix }))
      | none =>
        match cutSuffix modelName "-thinking" with
        | some baseModel =>
          .ok (some (baseModel, { mode := .enabled, source := .suffix,
                                  includeThoughts := thoughts }))
        | none => parseProviderEffort modelName requiredPrefix includeThoughts
  else parseProviderEffort modelName requiredPrefix includeThoughts

/-- What `ParseClaudeModelSuffix` and `ParseGeminiModelSuffix` share: they read an alias off the
last path segment of a name of the family. -/
def parseFamilySuffix (start : String) (pattern : String → Bool) (modelName : String)
    (allowThinkingAlias : Bool) : Except ControlError (Option (String × Intent)) :=
  let (namespacePath, bare) := splitModelNamespace modelName
  if !hasPrefix bare start then .ok none
  else
    match parseProviderModelSuffix bare start allowThinkingAlias true with
    | .error e => .error e
    | .ok none => .ok none
    | .ok (some (base, intent)) =>
      if pattern base then .ok (some (namespacePath ++ base, intent)) else .ok none

def parseClaudeModelSuffix (allowThinkingAlias : Bool) :
    Except ControlError (Option (String × Intent)) :=
  parseFamilySuffix "claude-" legacyClaudeModelPattern modelName allowThinkingAlias

def parseGeminiModelSuffix (allowThinkingAlias : Bool) :
    Except ControlError (Option (String × Intent)) :=
  parseFamilySuffix "gemini-" legacyGeminiModelPattern modelName allowThinkingAlias

/-- `ParseLegacyModelSuffix`: the base and the intent, if an alias was found. -/
def parseLegacyModelSuffix (s : ReasoningSettings) (modelName : String)
    (allowClaudeThinkingAlias allowGeminiThinkingAlias : Bool) :
    Except ControlError (Option (String × Intent)) :=
  let (namespacePath, bare) := splitModelNamespace modelName
  let found : Except ControlError (Option (String × Intent)) :=
    if hasPrefix bare "claude-" then parseClaudeModelSuffix bare allowClaudeThinkingAlias
    else if hasPrefix bare "gemini-" then parseGeminiModelSuffix bare allowGeminiThinkingAlias
    else
      let (effort, openAIBase) :=
        parseOpenAIReasoningEffortFromModelSuffix bare s.shouldPreserveEffortTail
      if effort = "" then .ok none
      else
        match parseEffort effort with
        | .error e => .error e
        | .ok parsed =>
          .ok (some (openAIBase, { mode := if parsed = .none then .disabled else .enabled,
                                   effort := parsed, source := .suffix }))
  match found with
  | .error e => .error e
  | .ok none => .ok none
  | .ok (some (base, intent)) => .ok (some (namespacePath ++ base, intent))

def baseModelName (s : ReasoningSettings) (modelName : String) : String :=
  if s.shouldPreserveThinkingSuffix modelName then modelName
  else
    let base := (parseModelModifiers modelName).base
    if s.shouldPreserveThinkingSuffix base then base
    else
      match parseLegacyModelSuffix s base s.claudeThinkingAdapterEnabled
          s.geminiThinkingAdapterEnabled with
      | .error _ => base
      | .ok (some (legacyBase, _)) => legacyBase
      | .ok none => base

theorem baseModelName_of_preserved {s : ReasoningSettings} {modelName : String}
    (h : s.shouldPreserveThinkingSuffix modelName = true) : baseModelName s modelName = modelName := by
  simp only [baseModelName, h, if_true]

/-! ### Bases -/

theorem matchesFamily_ne_empty {start : String} {first : Char → Bool} {s : String}
    (h : matchesFamily start first s = true) : s ≠ "" := by
  rintro rfl
  have hnone : (cutPrefix "" start).getD "" = "" := by
    unfold cutPrefix
    split_ifs
    · simp
    · rfl
  unfold matchesFamily at h
  rcases hc : cutPrefix "" start with _ | rest
  · simp [hc] at h
  rw [hc, Option.getD_some] at hnone
  simp [hc, hnone] at h

theorem parseOpenAIReasoningEffort_base {modelName : String} {keep : String → Bool}
    (h : (parseOpenAIReasoningEffortFromModelSuffix modelName keep).1 ≠ "") :
    (parseOpenAIReasoningEffortFromModelSuffix modelName keep).2 ≠ "" := by
  simp only [parseOpenAIReasoningEffortFromModelSuffix] at h ⊢
  split_ifs at h ⊢ with hkeep
  · exact absurd rfl h
  · rcases ht : trimEffortSuffixWithSuffixes modelName effortSuffixes with _ | p
    · simp [ht] at h
    simp only [ht] at h ⊢
    split_ifs at h ⊢ with hp
    · -- the last segment of an empty name is empty, and no family has it
      intro hb
      simp only at hb
      rw [hb] at hp
      revert hp
      decide
    · exact absurd rfl h

theorem parseFamilySuffix_base {start : String} {pattern : String → Bool} {modelName base : String}
    {allow : Bool} {intent : Intent} (hp : ∀ s, pattern s = true → s ≠ "")
    (h : parseFamilySuffix start pattern modelName allow = .ok (some (base, intent))) :
    base ≠ "" := by
  simp only [parseFamilySuffix] at h
  split_ifs at h with hs
  · simp at h
  split at h
  · simp at h
  · simp at h
  · rename_i base' intent' hfound
    split_ifs at h with hpat
    · obtain ⟨rfl, rfl⟩ : (splitModelNamespace modelName).1 ++ base' = base ∧ intent' = intent := by
        simpa using h
      simp [hp _ hpat]
    · simp at h

/-- What an alias leaves of a name is not empty. -/
theorem parseLegacyModelSuffix_base {s : ReasoningSettings} {modelName base : String}
    {claude gemini : Bool} {intent : Intent}
    (h : parseLegacyModelSuffix s modelName claude gemini = .ok (some (base, intent))) :
    base ≠ "" := by
  simp only [parseLegacyModelSuffix] at h
  split at h
  · simp at h
  · simp at h
  · rename_i base' intent' hfound
    obtain ⟨rfl, rfl⟩ : (splitModelNamespace modelName).1 ++ base' = base ∧ intent' = intent := by
      simpa using h
    have hbase : base' ≠ "" := by
      split_ifs at hfound with hc hg he
      · exact parseFamilySuffix_base (fun _ => matchesFamily_ne_empty) hfound
      · exact parseFamilySuffix_base (fun _ => matchesFamily_ne_empty) hfound
      · simp at hfound
      · split at hfound
        · simp at hfound
        · obtain ⟨hb, -⟩ := Prod.mk.inj (Option.some.inj (Except.ok.inj hfound))
          exact hb ▸ parseOpenAIReasoningEffort_base he
    simp [hbase]

example : parseLegacyModelSuffix {} "a/gpt-5-high" false false =
    .ok (some ("a/gpt-5", { mode := .enabled, effort := .high, source := .suffix })) := by
  decide +kernel

example : parseLegacyModelSuffix {} "claude-x-thinking-1024" true false =
    .ok (some ("claude-x", { budgetTokens := some 1024, source := .suffix, budgetSource := .suffix,
                             includeThoughts := some true })) := by
  decide +kernel

end NexusTok
