import Mathlib.Algebra.Ring.Int.Defs
import NexusTok.Text.Affix

/-!
# Token usage and its billing snapshot

The token usage of a response in the three dialects (`dto.Usage`, `dto.ClaudeUsage`,
`dto.GeminiUsageMetadata`), each of which may carry a `BillingUsage`: a copy of what the provider
itself reported, for settlement.

* `clone` : `CloneBillingUsage`.  A copy has no snapshots inside its payloads.
* `canonicalUsage` : `CanonicalUsage`, the snapshot in the shared accounting shape.
* `canonicalUsage_clone`, `clone_clone` : a copy is worth as much as the original, and copying a
  copy changes nothing.

A snapshot holds usages that may hold snapshots again, so the types of usages take the type of
snapshots as a parameter, and `BillingUsage` closes the knot.
-/

namespace NexusTok.Tokens

/-! ### Usage in three dialects -/

/-- `dto.InputTokenDetails`. -/
structure InputTokenDetails where
  cachedTokens : Int := 0
  cachedCreationTokens : Int := 0
  cacheWriteTokens : Int := 0
  textTokens : Int := 0
  audioTokens : Int := 0
  imageTokens : Int := 0
deriving DecidableEq, Repr

def InputTokenDetails.cacheCreationTokensTotal (d : InputTokenDetails) : Int :=
  max (max d.cacheWriteTokens d.cachedCreationTokens) 0

/-- `dto.OutputTokenDetails`. -/
structure OutputTokenDetails where
  textTokens : Int := 0
  audioTokens : Int := 0
  imageTokens : Int := 0
  reasoningTokens : Int := 0
deriving DecidableEq, Repr

/-- `dto.Usage`, with snapshots of type `B`.  `cost` is the JSON of the cost that some providers
report. -/
structure UsageOf (B : Type) where
  promptTokens : Int := 0
  completionTokens : Int := 0
  totalTokens : Int := 0
  promptCacheHitTokens : Int := 0
  usageSemantic : String := ""
  usageSource : String := ""
  billingUsage : Option B := none
  promptTokensDetails : InputTokenDetails := {}
  completionTokenDetails : OutputTokenDetails := {}
  inputTokens : Int := 0
  outputTokens : Int := 0
  inputTokensDetails : Option InputTokenDetails := none
  claudeCacheCreation5mTokens : Int := 0
  claudeCacheCreation1hTokens : Int := 0
  cost : Option String := none

/-- `dto.ClaudeCacheCreationUsage`. -/
structure ClaudeCacheCreationUsage where
  ephemeral5mInputTokens : Int := 0
  ephemeral1hInputTokens : Int := 0
deriving DecidableEq, Repr

/-- `dto.ClaudeServerToolUse`. -/
structure ClaudeServerToolUse where
  webSearchRequests : Int := 0
  webFetchRequests : Int := 0
  codeExecutionRequests : Int := 0
  toolSearchRequests : Int := 0
deriving DecidableEq, Repr

/-- `dto.ClaudeUsage`, with snapshots of type `B`. -/
structure ClaudeUsageOf (B : Type) where
  inputTokens : Int := 0
  cacheCreationInputTokens : Int := 0
  cacheReadInputTokens : Int := 0
  outputTokens : Int := 0
  cacheCreation : Option ClaudeCacheCreationUsage := none
  claudeCacheCreation5mTokens : Int := 0
  claudeCacheCreation1hTokens : Int := 0
  serverToolUse : Option ClaudeServerToolUse := none
  billingUsage : Option B := none

/-- `dto.GeminiPromptTokensDetails`. -/
structure GeminiPromptTokensDetails where
  modality : String
  tokenCount : Int
deriving DecidableEq, Repr

/-- `dto.GeminiUsageMetadata`, with snapshots of type `B`. -/
structure GeminiUsageMetadataOf (B : Type) where
  promptTokenCount : Int := 0
  toolUsePromptTokenCount : Int := 0
  candidatesTokenCount : Int := 0
  totalTokenCount : Int := 0
  thoughtsTokenCount : Int := 0
  cachedContentTokenCount : Int := 0
  promptTokensDetails : List GeminiPromptTokensDetails := []
  toolUsePromptTokensDetails : List GeminiPromptTokensDetails := []
  candidatesTokensDetails : List GeminiPromptTokensDetails := []
  billingUsage : Option B := none

/-- `dto.BillingUsage`. -/
structure BillingUsage where
  source : String := ""
  semantic : String := ""
  estimated : Bool := false
  openAIUsage : Option (UsageOf BillingUsage) := none
  claudeUsage : Option (ClaudeUsageOf BillingUsage) := none
  geminiUsageMetadata : Option (GeminiUsageMetadataOf BillingUsage) := none

abbrev Usage := UsageOf BillingUsage
abbrev ClaudeUsage := ClaudeUsageOf BillingUsage
abbrev GeminiUsageMetadata := GeminiUsageMetadataOf BillingUsage

def billingUsageSourceClaudeMessages : String := "claude_messages"
def billingUsageSourceGeminiChat : String := "gemini_chat"
def billingUsageSourceOAIChat : String := "oai_chat"
def billingUsageSourceOAIResponses : String := "oai_responses"
def billingUsageSemanticAnthropic : String := "anthropic"
def billingUsageSemanticGemini : String := "gemini"
def billingUsageSemanticOpenAI : String := "openai"

/-! ### Tokens at all -/

/-- Some count of the input is not zero. -/
def InputTokenDetails.hasTokens (d : InputTokenDetails) : Bool :=
  d.cachedTokens != 0 || d.cachedCreationTokens != 0 || d.cacheWriteTokens != 0 ||
    d.textTokens != 0 || d.imageTokens != 0 || d.audioTokens != 0

/-- Some count of the output is not zero. -/
def OutputTokenDetails.hasTokens (d : OutputTokenDetails) : Bool :=
  d.reasoningTokens != 0 || d.textTokens != 0 || d.imageTokens != 0 || d.audioTokens != 0

def hasOpenAIUsageTokens (u : Usage) : Bool :=
  u.promptTokens != 0 || u.completionTokens != 0 || u.totalTokens != 0 || u.inputTokens != 0 ||
    u.outputTokens != 0 || u.promptCacheHitTokens != 0 || u.claudeCacheCreation5mTokens != 0 ||
    u.claudeCacheCreation1hTokens != 0 || u.promptTokensDetails.hasTokens ||
    u.completionTokenDetails.hasTokens || u.inputTokensDetails.any (·.hasTokens)

def hasClaudeUsageTokens (u : ClaudeUsage) : Bool :=
  u.inputTokens != 0 || u.outputTokens != 0 || u.cacheCreationInputTokens != 0 ||
    u.cacheReadInputTokens != 0 || u.claudeCacheCreation5mTokens != 0 ||
    u.claudeCacheCreation1hTokens != 0 ||
    u.cacheCreation.any fun c => c.ephemeral5mInputTokens != 0 || c.ephemeral1hInputTokens != 0

variable (m : GeminiUsageMetadata)

def hasGeminiUsageMetadataTokens : Bool :=
  m.promptTokenCount != 0 || m.toolUsePromptTokenCount != 0 || m.candidatesTokenCount != 0 ||
    m.totalTokenCount != 0 || m.thoughtsTokenCount != 0 || m.cachedContentTokenCount != 0 ||
    m.promptTokensDetails.any (·.tokenCount != 0) ||
    m.toolUsePromptTokensDetails.any (·.tokenCount != 0) ||
    m.candidatesTokensDetails.any (·.tokenCount != 0)

/-! ### Copies -/

def cloneOpenAIUsage (u : Usage) : Usage := { u with billingUsage := none }

def cloneClaudeUsage (u : ClaudeUsage) : ClaudeUsage := { u with billingUsage := none }

def cloneGeminiUsageMetadata : GeminiUsageMetadata :=
  { m with billingUsage := none }

variable (b : BillingUsage)

/-- `CloneBillingUsage`. -/
def BillingUsage.clone : BillingUsage :=
  { b with
    openAIUsage := b.openAIUsage.map cloneOpenAIUsage
    claudeUsage := b.claudeUsage.map cloneClaudeUsage
    geminiUsageMetadata := b.geminiUsageMetadata.map cloneGeminiUsageMetadata }

def newOpenAIBillingUsage (source : String) (u : Usage) : Option BillingUsage :=
  if hasOpenAIUsageTokens u then
    some { source := source, semantic := billingUsageSemanticOpenAI
           openAIUsage := some (cloneOpenAIUsage u) }
  else none

def newOpenAIChatBillingUsage (u : Usage) : Option BillingUsage :=
  newOpenAIBillingUsage billingUsageSourceOAIChat u

def newOpenAIResponsesBillingUsage (u : Usage) : Option BillingUsage :=
  newOpenAIBillingUsage billingUsageSourceOAIResponses u

def newClaudeMessagesBillingUsage (u : ClaudeUsage) : Option BillingUsage :=
  if hasClaudeUsageTokens u then
    some { source := billingUsageSourceClaudeMessages, semantic := billingUsageSemanticAnthropic
           claudeUsage := some (cloneClaudeUsage u) }
  else none

def newGeminiChatBillingUsage : Option BillingUsage :=
  if hasGeminiUsageMetadataTokens m then
    some { source := billingUsageSourceGeminiChat, semantic := billingUsageSemanticGemini
           geminiUsageMetadata := some (cloneGeminiUsageMetadata m) }
  else none

/-! ### The shared accounting shape -/

/-- A count, or another one if it is zero. -/
def orCount (n other : Int) : Int := if n = 0 then other else n

/-- A count that was reported, over another one. -/
def overCount (reported n : Int) : Int := if reported > 0 then reported else n

def mergeInputTokenDetails (current incoming : InputTokenDetails) : InputTokenDetails where
  cachedTokens := overCount incoming.cachedTokens current.cachedTokens
  cachedCreationTokens := overCount incoming.cachedCreationTokens current.cachedCreationTokens
  cacheWriteTokens := overCount incoming.cacheWriteTokens current.cacheWriteTokens
  textTokens := overCount incoming.textTokens current.textTokens
  audioTokens := overCount incoming.audioTokens current.audioTokens
  imageTokens := overCount incoming.imageTokens current.imageTokens

/-- `canonicalOpenAIUsage`, of the payload `u`. -/
def BillingUsage.canonicalOpenAIUsage (u : Usage) : Usage :=
  let canonical := cloneOpenAIUsage u
  let details := match canonical.inputTokensDetails with
    | some filled => mergeInputTokenDetails filled canonical.promptTokensDetails
    | none => canonical.promptTokensDetails
  let cachedTokens :=
    if details.cachedTokens = 0 ∧ canonical.promptCacheHitTokens > 0 then
      canonical.promptCacheHitTokens
    else details.cachedTokens
  let promptTokens :=
    if canonical.promptTokens = 0 ∧ canonical.inputTokens > 0 then canonical.inputTokens
    else canonical.promptTokens
  let completionTokens :=
    if canonical.completionTokens = 0 ∧ canonical.outputTokens > 0 then canonical.outputTokens
    else canonical.completionTokens
  { canonical with
    promptTokensDetails := { details with cachedTokens := cachedTokens }
    promptTokens := promptTokens
    completionTokens := completionTokens
    inputTokens :=
      if canonical.inputTokens = 0 ∧ promptTokens > 0 then promptTokens else canonical.inputTokens
    outputTokens :=
      if canonical.outputTokens = 0 ∧ completionTokens > 0 then completionTokens
      else canonical.outputTokens
    totalTokens := orCount canonical.totalTokens (promptTokens + completionTokens)
    usageSemantic := billingUsageSemanticOpenAI
    usageSource := b.source
    billingUsage := some b.clone }

def getCacheCreation5mTokens (u : ClaudeUsage) : Int :=
  (u.cacheCreation.map (·.ephemeral5mInputTokens)).getD 0

def getCacheCreation1hTokens (u : ClaudeUsage) : Int :=
  (u.cacheCreation.map (·.ephemeral1hInputTokens)).getD 0

/-- `canonicalClaudeUsage`, of the payload `u`. -/
def BillingUsage.canonicalClaudeUsage (b : BillingUsage) (u : ClaudeUsage) : Usage where
  promptTokens := u.inputTokens
  completionTokens := u.outputTokens
  totalTokens := u.inputTokens + u.outputTokens
  inputTokens := u.inputTokens + u.cacheReadInputTokens + u.cacheCreationInputTokens
  outputTokens := u.outputTokens
  usageSemantic := billingUsageSemanticAnthropic
  usageSource := billingUsageSourceClaudeMessages
  billingUsage := some b.clone
  -- the flat fields count only where there is no sub-object, not where it is all zero
  claudeCacheCreation5mTokens :=
    if u.cacheCreation.isSome then getCacheCreation5mTokens u else u.claudeCacheCreation5mTokens
  claudeCacheCreation1hTokens :=
    if u.cacheCreation.isSome then getCacheCreation1hTokens u else u.claudeCacheCreation1hTokens
  promptTokensDetails :=
    { cachedTokens := u.cacheReadInputTokens, cachedCreationTokens := u.cacheCreationInputTokens }

def normalizeGeminiModality (modality : String) : String := toUpper (trimSpace modality)

/-- The tokens of one modality, where `name` is how a modality is read. -/
def tokensOf (name : String → String) (modality : String)
    (details : List GeminiPromptTokensDetails) : Int :=
  ((details.filter fun d => name d.modality == modality).map (·.tokenCount)).sum

/-- `addGeminiInputTokenDetail`, over all details of prompts and tool use. -/
def geminiInputTokenDetails (name : String → String) (m : GeminiUsageMetadata) :
    InputTokenDetails :=
  let details := m.promptTokensDetails ++ m.toolUsePromptTokensDetails
  { cachedTokens := m.cachedContentTokenCount
    audioTokens := tokensOf name "AUDIO" details
    imageTokens := tokensOf name "IMAGE" details
    textTokens := tokensOf name "TEXT" details }

/-- The details of the candidates, and the thoughts. -/
def geminiOutputTokenDetails (name : String → String) (m : GeminiUsageMetadata) :
    OutputTokenDetails where
  reasoningTokens := m.thoughtsTokenCount
  imageTokens := tokensOf name "IMAGE" m.candidatesTokensDetails
  audioTokens := tokensOf name "AUDIO" m.candidatesTokensDetails
  textTokens := tokensOf name "TEXT" m.candidatesTokensDetails

/-- A prompt whose text and audio were not counted is all text. -/
def InputTokenDetails.orAllText (d : InputTokenDetails) (promptTokens : Int) : InputTokenDetails :=
  if promptTokens > 0 ∧ d.textTokens = 0 ∧ d.audioTokens = 0 then
    { d with textTokens := promptTokens }
  else d

/-- `canonicalGeminiUsage`, of the payload `m`. -/
def BillingUsage.canonicalGeminiUsage (b : BillingUsage) (m : GeminiUsageMetadata) : Usage :=
  let promptTokens := m.promptTokenCount + m.toolUsePromptTokenCount
  let completionTokens := m.candidatesTokenCount + m.thoughtsTokenCount
  { promptTokens := promptTokens
    completionTokens :=
      if m.totalTokenCount ≠ 0 ∧ completionTokens ≤ 0 then
        max (m.totalTokenCount - promptTokens) 0
      else completionTokens
    totalTokens := orCount m.totalTokenCount (promptTokens + completionTokens)
    usageSemantic := billingUsageSemanticGemini
    usageSource := billingUsageSourceGeminiChat
    billingUsage := some b.clone
    completionTokenDetails := geminiOutputTokenDetails normalizeGeminiModality m
    promptTokensDetails :=
      (geminiInputTokenDetails normalizeGeminiModality m).orAllText promptTokens }

/-- The snapshot names a dialect, by its source or by its semantic. -/
def BillingUsage.names (sources : List String) (semantic : String) : Bool :=
  sources.any (equalFold (trimSpace b.source)) || equalFold (trimSpace b.semantic) semantic

def BillingUsage.canonicalUsage : Option Usage :=
  let openAI := b.openAIUsage.filter fun u => hasOpenAIUsageTokens u &&
    b.names [billingUsageSourceOAIChat, billingUsageSourceOAIResponses] billingUsageSemanticOpenAI
  let claude := b.claudeUsage.filter fun u => hasClaudeUsageTokens u &&
    b.names [ billingUsageSourceClaudeMessages] billingUsageSemanticAnthropic
  let gemini := b.geminiUsageMetadata.filter fun m => hasGeminiUsageMetadataTokens m &&
    b.names [ billingUsageSourceGeminiChat] billingUsageSemanticGemini
  match openAI, claude, gemini with
  | some u, _, _ => some (b.canonicalOpenAIUsage u)
  | none, some u, _ => some (b.canonicalClaudeUsage u)
  | none, none, some m => some (b.canonicalGeminiUsage m)
  | none, none, none => none

/-- The token counts of a usage: all of it but the labels and the snapshot. -/
def UsageOf.counts (u : Usage) : Usage :=
  { u with usageSemantic := "", usageSource := "", billingUsage := none }

/-! ### What copies keep -/

@[simp] theorem hasOpenAIUsageTokens_clone (u : Usage) :
    hasOpenAIUsageTokens (cloneOpenAIUsage u) = hasOpenAIUsageTokens u := rfl

@[simp] theorem hasGeminiUsageMetadataTokens_clone :
    hasGeminiUsageMetadataTokens (cloneGeminiUsageMetadata m) = hasGeminiUsageMetadataTokens m :=
  rfl

/-- What passes a test that a copy passes as well. -/
theorem filter_map_of_kept {α : Type} (x : Option α) (f : α → α) (p : α → Bool)
    (h : ∀ a, p (f a) = p a) : (x.map f).filter p = (x.filter p).map f := by
  cases x with
  | none => rfl
  | some a =>
    have ha := h a
    cases hp : p a <;> simp [Option.filter, ha, hp]

namespace BillingUsage

@[simp] theorem clone_source : b.clone.source = b.source := rfl

@[simp] theorem clone_semantic : b.clone.semantic = b.semantic := rfl

@[simp] theorem clone_estimated : b.clone.estimated = b.estimated := rfl

@[simp] theorem names_clone (sources : List String) (semantic : String) :
    b.clone.names sources semantic = b.names sources semantic := rfl

/-- **Copying a copy changes nothing.** -/
@[simp] theorem clone_clone : b.clone.clone = b.clone := by
  simp only [clone, Option.map_map]
  rfl

/-- **A copy is worth as much as the original.** -/
@[simp] theorem canonicalUsage_clone : b.clone.canonicalUsage = b.canonicalUsage := by
  have hopenAI (u : Usage) :
      b.clone.canonicalOpenAIUsage (cloneOpenAIUsage u) = b.canonicalOpenAIUsage u := by
    simp only [canonicalOpenAIUsage, clone_clone, clone_source]
    rfl
  have hclaude (u : ClaudeUsage) :
      b.clone.canonicalClaudeUsage (cloneClaudeUsage u) = b.canonicalClaudeUsage u := by
    simp only [canonicalClaudeUsage, clone_clone]
    rfl
  have hgemini (m : GeminiUsageMetadata) :
      b.clone.canonicalGeminiUsage (cloneGeminiUsageMetadata m) = b.canonicalGeminiUsage m := by
    simp only [canonicalGeminiUsage, clone_clone]
    rfl
  simp only [canonicalUsage, names_clone]
  -- the copy has a payload of a dialect where the original has one
  rw [show b.clone.openAIUsage = b.openAIUsage.map cloneOpenAIUsage from rfl,
    show b.clone.claudeUsage = b.claudeUsage.map cloneClaudeUsage from rfl,
    show b.clone.geminiUsageMetadata = b.geminiUsageMetadata.map cloneGeminiUsageMetadata from rfl,
    filter_map_of_kept _ cloneOpenAIUsage _ fun _ => rfl,
    filter_map_of_kept _ cloneClaudeUsage _ fun _ => rfl,
    filter_map_of_kept _ cloneGeminiUsageMetadata _ fun _ => rfl]
  cases b.openAIUsage.filter _ with
  | some u => exact congrArg some (hopenAI u)
  | none =>
    cases b.claudeUsage.filter _ with
    | some u => exact congrArg some (hclaude u)
    | none =>
      cases b.geminiUsageMetadata.filter _ with
      | some m => exact congrArg some (hgemini m)
      | none => rfl

end BillingUsage

end NexusTok.Tokens
