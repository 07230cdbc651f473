import NexusTok.Tokens.Usage

/-!
# Usage snapshots merged

A stream reports its usage in several snapshots, and each is merged into what was reported before.
A count that is not zero takes the place of the count before it; each dialect has rules of its own
on top of that.

* `mergeUsageNonZero`, `mergeClaudeUsageNonZero`, `mergeGeminiUsageMetadataNonZero` : the dialects.
* `mergeBillingUsageNonZero` : billing snapshots.  One in another dialect takes the place of the
  one before it.
* `mergeGeminiTokenDetails` : the counts of modalities, which are added up.

The nested snapshots of Gemini's metadata are merged in turn, so the last two are recursive in the
incoming snapshot.
-/

namespace NexusTok.Tokens

/-! ### Overlays -/

/-- A text that was reported, over another one. -/
def overText (reported text : String) : String := if reported ≠ "" then reported else text

/-- A total that is at least a sum. -/
def raiseTo (sum total : Int) : Int := if sum > total then sum else total

/-- `reflect.Value.IsZero` of a cost, as JSON: the number zero, the empty text or `false`. -/
def isZeroCost (cost : String) : Bool := cost = "0" || cost = "\"\"" || cost = "false"

/-- Some count of the details is positive. -/
def InputTokenDetails.reports (d : InputTokenDetails) : Bool :=
  d.cachedTokens > 0 || d.cachedCreationTokens > 0 || d.cacheWriteTokens > 0 || d.textTokens > 0 ||
    d.audioTokens > 0 || d.imageTokens > 0

/-- The merge of `CompletionTokenDetails` in `MergeUsageNonZero`. -/
def mergeOutputTokenDetails (current incoming : OutputTokenDetails) : OutputTokenDetails where
  textTokens := overCount incoming.textTokens current.textTokens
  audioTokens := overCount incoming.audioTokens current.audioTokens
  imageTokens := overCount incoming.imageTokens current.imageTokens
  reasoningTokens := overCount incoming.reasoningTokens current.reasoningTokens

/-- The merge of `InputTokensDetails` in `MergeUsageNonZero`. -/
def mergeInputTokensDetails (current incoming : Option InputTokenDetails) :
    Option InputTokenDetails :=
  match incoming with
  | none => current
  | some details =>
    if details.reports then some (mergeInputTokenDetails (current.getD {}) details) else current

/-- The merge of `Cost` in `MergeUsageNonZero`. -/
def mergeCost (current incoming : Option String) : Option String :=
  match incoming with
  | none => current
  | some cost => if isZeroCost cost then current else some cost

/-- `MergeUsageNonZero`, but for the snapshots. -/
def mergeUsageCounts (current incoming : Usage) : Usage :=
  let promptTokens := overCount incoming.promptTokens current.promptTokens
  let completionTokens := overCount incoming.completionTokens current.completionTokens
  let inputTokens := overCount incoming.inputTokens current.inputTokens
  let outputTokens := overCount incoming.outputTokens current.outputTokens
  { promptTokens := promptTokens
    completionTokens := completionTokens
    totalTokens := raiseTo (inputTokens + outputTokens)
      (raiseTo (promptTokens + completionTokens)
        (overCount incoming.totalTokens current.totalTokens))
    promptCacheHitTokens := overCount incoming.promptCacheHitTokens current.promptCacheHitTokens
    usageSemantic := overText incoming.usageSemantic current.usageSemantic
    usageSource := overText incoming.usageSource current.usageSource
    billingUsage := current.billingUsage
    promptTokensDetails :=
      mergeInputTokenDetails current.promptTokensDetails incoming.promptTokensDetails
    completionTokenDetails :=
      mergeOutputTokenDetails current.completionTokenDetails incoming.completionTokenDetails
    inputTokens := inputTokens
    outputTokens := outputTokens
    inputTokensDetails :=
      mergeInputTokensDetails current.inputTokensDetails incoming.inputTokensDetails
    claudeCacheCreation5mTokens :=
      overCount incoming.claudeCacheCreation5mTokens current.claudeCacheCreation5mTokens
    claudeCacheCreation1hTokens :=
      overCount incoming.claudeCacheCreation1hTokens current.claudeCacheCreation1hTokens
    cost := mergeCost current.cost incoming.cost }

/-- The merge of `ServerToolUse` in `MergeClaudeUsageNonZero`. -/
def mergeServerToolUse (current incoming : Option ClaudeServerToolUse) :
    Option ClaudeServerToolUse :=
  match incoming with
  | none => current
  | some use =>
    let merged := current.getD {}
    some
      { webSearchRequests := overCount use.webSearchRequests merged.webSearchRequests
        webFetchRequests := overCount use.webFetchRequests merged.webFetchRequests
        codeExecutionRequests :=
          overCount use.codeExecutionRequests merged.codeExecutionRequests
        toolSearchRequests := overCount use.toolSearchRequests merged.toolSearchRequests }

/-- A flat count of the cache split: that of the sub-object of the incoming usage, if it has
one. -/
def flatSplit (ofObject : ClaudeCacheCreationUsage → Int) (object : Option ClaudeCacheCreationUsage)
    (reported flat : Int) : Int :=
  match object with
  | some split => ofObject split
  | none => overCount reported flat

def mergeClaudeUsageNonZero (current incoming : Option ClaudeUsage) : ClaudeUsage :=
  let merged := (current.map cloneClaudeUsage).getD {}
  let sidecar := (current.bind (·.billingUsage)).map (·.clone)
  match incoming with
  | none => { merged with billingUsage := sidecar }
  | some incoming =>
    { inputTokens := overCount incoming.inputTokens merged.inputTokens
      cacheCreationInputTokens :=
        overCount incoming.cacheCreationInputTokens merged.cacheCreationInputTokens
      cacheReadInputTokens := overCount incoming.cacheReadInputTokens merged.cacheReadInputTokens
      outputTokens := overCount incoming.outputTokens merged.outputTokens
      cacheCreation := incoming.cacheCreation.or merged.cacheCreation
      claudeCacheCreation5mTokens := flatSplit (·.ephemeral5mInputTokens) incoming.cacheCreation
        incoming.claudeCacheCreation5mTokens merged.claudeCacheCreation5mTokens
      claudeCacheCreation1hTokens := flatSplit (·.ephemeral1hInputTokens) incoming.cacheCreation
        incoming.claudeCacheCreation1hTokens merged.claudeCacheCreation1hTokens
      serverToolUse := mergeServerToolUse merged.serverToolUse incoming.serverToolUse
      billingUsage := (incoming.billingUsage.map (·.clone)).or sidecar }

/-! ### Modalities -/

/-- The state of the loop in `mergeGeminiTokenDetails`. -/
structure DetailsMerge where
  merged : List GeminiPromptTokensDetails
  indexes : String → Option ℕ

/-- The indexes of the details by modality: of two with one modality, that of the later. -/
def indexesOf (details : List GeminiPromptTokensDetails) : String → Option ℕ :=
  details.zipIdx.foldl (fun indexes p =>
    Function.update indexes (normalizeGeminiModality p.1.modality) (some p.2)) fun _ => none

/-- One incoming detail. -/
def DetailsMerge.step (s : DetailsMerge) (detail : GeminiPromptTokensDetails) : DetailsMerge :=
  if detail.tokenCount ≤ 0 then s
  else
    let key := normalizeGeminiModality detail.modality
    match s.indexes key with
    | some index =>
      { s with
        merged := s.merged.modify index fun d =>
          { d with tokenCount := d.tokenCount + detail.tokenCount } }
    | none =>
      { merged := s.merged ++ [detail]
        indexes := Function.update s.indexes key (some s.merged.length) }

def mergeGeminiTokenDetails (current incoming : List GeminiPromptTokensDetails) :
    List GeminiPromptTokensDetails :=
  (incoming.foldl DetailsMerge.step { merged := current, indexes := indexesOf current }).merged

/-- `MergeGeminiUsageMetadataNonZero` of two usages, but for the snapshots. -/
def mergeGeminiCounts (current incoming : GeminiUsageMetadata) : GeminiUsageMetadata :=
  let promptTokenCount := overCount incoming.promptTokenCount current.promptTokenCount
  let toolUsePromptTokenCount :=
    overCount incoming.toolUsePromptTokenCount current.toolUsePromptTokenCount
  let candidatesTokenCount := overCount incoming.candidatesTokenCount current.candidatesTokenCount
  -- candidates and thoughts are replaced as a pair
  let thoughtsTokenCount :=
    if incoming.candidatesTokenCount > 0 then incoming.thoughtsTokenCount
    else overCount incoming.thoughtsTokenCount current.thoughtsTokenCount
  { promptTokenCount := promptTokenCount
    toolUsePromptTokenCount := toolUsePromptTokenCount
    candidatesTokenCount := candidatesTokenCount
    totalTokenCount := raiseTo
      (promptTokenCount + toolUsePromptTokenCount + candidatesTokenCount + thoughtsTokenCount)
      (overCount incoming.totalTokenCount current.totalTokenCount)
    thoughtsTokenCount := thoughtsTokenCount
    cachedContentTokenCount :=
      overCount incoming.cachedContentTokenCount current.cachedContentTokenCount
    promptTokensDetails :=
      mergeGeminiTokenDetails current.promptTokensDetails incoming.promptTokensDetails
    toolUsePromptTokensDetails :=
      mergeGeminiTokenDetails current.toolUsePromptTokensDetails
        incoming.toolUsePromptTokensDetails
    candidatesTokensDetails :=
      mergeGeminiTokenDetails current.candidatesTokensDetails incoming.candidatesTokensDetails }

/-! ### Snapshots -/

/-- `strings.EqualFold`, where characters with one `fold` fold to each other. -/
def foldEqual (fold : Char → Char) (s t : String) : Bool := s.toList.map fold == t.toList.map fold

def sameBillingUsageDialect (fold : Char → Char) (current incoming : BillingUsage) : Bool :=
  if current.source ≠ "" ∧ incoming.source ≠ "" ∧
      ¬foldEqual fold current.source incoming.source then
    false
  else if current.semantic ≠ "" ∧ incoming.semantic ≠ "" ∧
      ¬foldEqual fold current.semantic incoming.semantic then false
  else
    current.openAIUsage.isSome && incoming.openAIUsage.isSome ||
      current.claudeUsage.isSome && incoming.claudeUsage.isSome ||
      current.geminiUsageMetadata.isSome && incoming.geminiUsageMetadata.isSome

/-- The copy of `current` with the labels of both. -/
def mergeLabels (current incoming : BillingUsage) : BillingUsage :=
  { current.clone with
    source := overText incoming.source current.source
    semantic := overText incoming.semantic current.semantic
    estimated := current.estimated || incoming.estimated }

variable (fold : Char → Char)

mutual

/-- `MergeBillingUsageNonZero`, of an incoming snapshot. -/
def mergeBillingUsageNonZero (current : Option BillingUsage) : BillingUsage → BillingUsage
  | ⟨source, semantic, estimated, openAIUsage, claudeUsage, geminiUsageMetadata⟩ =>
    let incoming : BillingUsage :=
      ⟨source, semantic, estimated, openAIUsage, claudeUsage, geminiUsageMetadata⟩
    match current with
    | none => incoming.clone
    | some current =>
      if sameBillingUsageDialect fold current incoming then
        let merged := mergeLabels current incoming
        match current.openAIUsage, openAIUsage with
        | some u, some u' =>
          { merged with
            openAIUsage := some (mergeUsageCounts (cloneOpenAIUsage u) (cloneOpenAIUsage u')) }
        | _, _ =>
          match current.claudeUsage, claudeUsage with
          | some u, some u' =>
            { merged with claudeUsage := some (mergeClaudeUsageNonZero (some u) (some u')) }
          | _, _ =>
            { merged with
              geminiUsageMetadata :=
                mergeGeminiPayload current.geminiUsageMetadata geminiUsageMetadata }
      else { incoming.clone with estimated := current.estimated || estimated }
termination_by structural incoming => incoming

/-- The merge of `GeminiUsageMetadata` in `MergeBillingUsageNonZero`. -/
def mergeGeminiPayload (current : Option GeminiUsageMetadata) :
    Option (GeminiUsageMetadataOf BillingUsage) → Option GeminiUsageMetadata
  | none => current.map cloneGeminiUsageMetadata
  | some incoming =>
    match current with
    | none => none
    | some current => some (mergeGeminiMetadata current incoming)
termination_by structural incoming => incoming

/-- `MergeGeminiUsageMetadataNonZero` of two usages. -/
def mergeGeminiMetadata (current : GeminiUsageMetadata) :
    GeminiUsageMetadataOf BillingUsage → GeminiUsageMetadata
  | ⟨prompt, toolUse, candidates, total, thoughts, cached, promptDetails, toolUseDetails,
      candidatesDetails, billingUsage⟩ =>
    { mergeGeminiCounts current ⟨prompt, toolUse, candidates, total, thoughts, cached,
        promptDetails, toolUseDetails, candidatesDetails, none⟩ with
      billingUsage := mergeSidecar (current.billingUsage.map (·.clone)) billingUsage }
termination_by structural incoming => incoming

/-- The merge of `BillingUsage` in the other merges. -/
def mergeSidecar (current : Option BillingUsage) : Option BillingUsage → Option BillingUsage
  | none => current
  | some incoming => some (mergeBillingUsageNonZero current incoming)
termination_by structural incoming => incoming

end

def mergeGeminiUsageMetadataNonZero (current incoming : Option GeminiUsageMetadata) :
    Option GeminiUsageMetadata :=
  match current, incoming with
  | none, none => none
  | none, some m => some { cloneGeminiUsageMetadata m with
      billingUsage := m.billingUsage.map (·.clone) }
  | some m, none => some { cloneGeminiUsageMetadata m with
      billingUsage := m.billingUsage.map (·.clone) }
  | some current, some incoming => some (mergeGeminiMetadata fold current incoming)

def mergeUsageNonZero (current incoming : Option Usage) : Usage :=
  let current := current.getD {}
  match incoming with
  | none => current
  | some incoming =>
    { mergeUsageCounts current incoming with
      billingUsage := mergeSidecar fold current.billingUsage incoming.billingUsage }

/-! ### How snapshots merge -/

variable {fold} {c b : BillingUsage}

theorem mergeBilling_none (b : BillingUsage) : mergeBillingUsageNonZero fold none b = b.clone := by
  cases b
  rw [mergeBillingUsageNonZero]

/-- A snapshot in another dialect takes the place of the one before it. -/
theorem mergeBilling_replaced (h : sameBillingUsageDialect fold c b = false) :
    mergeBillingUsageNonZero fold (some c) b =
      { b.clone with estimated := c.estimated || b.estimated } := by
  cases b
  rw [mergeBillingUsageNonZero]
  simp only [h, Bool.false_eq_true, if_false]

section

variable (h : sameBillingUsageDialect fold c b = true)
include h

theorem mergeBilling_openAI {u u' : Usage}
    (hc : c.openAIUsage = some u) (hb : b.openAIUsage = some u') :
    mergeBillingUsageNonZero fold (some c) b =
      { mergeLabels c b with
        openAIUsage := some (mergeUsageCounts (cloneOpenAIUsage u) (cloneOpenAIUsage u')) } := by
  cases b
  obtain rfl : _ = some u' := hb
  rw [mergeBillingUsageNonZero]
  simp only [h, if_true, hc]

theorem mergeBilling_claude
    (hopenAI : c.openAIUsage = none ∨ b.openAIUsage = none) {u u' : ClaudeUsage}
    (hc : c.claudeUsage = some u) (hb : b.claudeUsage = some u') :
    mergeBillingUsageNonZero fold (some c) b =
      { mergeLabels c b with
        claudeUsage := some (mergeClaudeUsageNonZero (some u) (some u')) } := by
  cases b
  obtain rfl : _ = some u' := hb
  rw [mergeBillingUsageNonZero]
  simp only [h, if_true, hc]
  rcases hopenAI with hnone | hnone
  · rw [hnone]
  · obtain rfl := hnone
    cases c.openAIUsage <;> rfl

theorem mergeBilling_gemini (hopenAI : c.openAIUsage = none ∨ b.openAIUsage = none)
    (hclaude : c.claudeUsage = none ∨ b.claudeUsage = none) :
    mergeBillingUsageNonZero fold (some c) b =
      { mergeLabels c b with
        geminiUsageMetadata :=
          mergeGeminiPayload fold c.geminiUsageMetadata b.geminiUsageMetadata } := by
  cases b
  rw [mergeBillingUsageNonZero]
  simp only [h, if_true]
  rcases hopenAI with hnone | hnone <;> rcases hclaude with hnone' | hnone'
  · rw [hnone, hnone']
  · obtain rfl := hnone'
    rw [hnone]
    cases c.claudeUsage <;> rfl
  · obtain rfl := hnone
    rw [hnone']
    cases c.openAIUsage <;> rfl
  · obtain rfl := hnone
    obtain rfl := hnone'
    cases c.openAIUsage <;> cases c.claudeUsage <;> rfl

end

theorem mergeGeminiMetadata_eq (current incoming : GeminiUsageMetadata) :
    mergeGeminiMetadata fold current incoming =
      { mergeGeminiCounts current incoming with
        billingUsage :=
          mergeSidecar fold (current.billingUsage.map (·.clone)) incoming.billingUsage } := by
  cases incoming
  rw [mergeGeminiMetadata]
  rfl

@[simp] theorem mergeSidecar_none (current : Option BillingUsage) :
    mergeSidecar fold current none = current := by rw [mergeSidecar]

@[simp] theorem mergeSidecar_some (current : Option BillingUsage) (b : BillingUsage) :
    mergeSidecar fold current (some b) = some (mergeBillingUsageNonZero fold current b) := by
  rw [mergeSidecar]

/-- **An estimate stays one**, in either dialect. -/
theorem estimated_merge (c b : BillingUsage) :
    (mergeBillingUsageNonZero fold (some c) b).estimated = (c.estimated || b.estimated) := by
  cases hsame : sameBillingUsageDialect fold c b with
  | false => rw [mergeBilling_replaced hsame]
  | true =>
    cases b
    rw [mergeBillingUsageNonZero]
    simp only [hsame, if_true]
    split
    · rfl
    · split <;> rfl

end NexusTok.Tokens
