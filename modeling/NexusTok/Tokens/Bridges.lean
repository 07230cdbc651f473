import NexusTok.Tokens.Usage

/-!
# Usage across protocols

A response that crosses from one protocol to another takes its token usage with it, and the
snapshot in it.  Each bridge copies, restores or makes the snapshot under conditions of its own.

* `Bridge`, `Chain` : bridges from one dialect to another, and all ways of joining them.
* `Bridge.snapshot_run` : one bridge hands a snapshot on as a copy.
* `Bridge.snapshot_created` : one bridge makes a snapshot of a usage that has none, unless it is
  `NormalizeResponsesUsage`, which makes none.
* `snapshot_kept` : over a whole chain.

Settlement reads the snapshot with `CanonicalUsage`, so what is charged is what the first bridge
saw.
-/

namespace NexusTok.Tokens

open Option

/-! ### The bridges -/

variable (u : Usage)

/-- `usage.TotalTokens`, or the sum of both sides if it is zero. -/
def totalOr (input output : Int) : Int := orCount u.totalTokens (input + output)

def usageFromChatUsage (src : Usage) : Usage where
  usageSemantic := src.usageSemantic
  usageSource := src.usageSource
  billingUsage := (src.billingUsage.map (·.clone)).or (newOpenAIChatBillingUsage src)
  cost := src.cost
  promptTokens := src.promptTokens
  inputTokens := src.promptTokens
  completionTokens := src.completionTokens
  outputTokens := src.completionTokens
  totalTokens := totalOr src src.promptTokens src.completionTokens
  inputTokensDetails :=
    if src.promptTokensDetails.hasTokens then some src.promptTokensDetails else none
  completionTokenDetails :=
    if src.completionTokenDetails.hasTokens then src.completionTokenDetails else {}
  claudeCacheCreation5mTokens := src.claudeCacheCreation5mTokens
  claudeCacheCreation1hTokens := src.claudeCacheCreation1hTokens

/-- `usageFromResponsesUsage`. -/
def usageOfResponsesUsage (src : Usage) (createBillingSnapshot : Bool) : Usage where
  usageSemantic := src.usageSemantic
  usageSource := src.usageSource
  billingUsage := (src.billingUsage.map (·.clone)).or
    (if createBillingSnapshot then newOpenAIResponsesBillingUsage src else none)
  cost := src.cost
  promptTokens := src.inputTokens
  inputTokens := src.inputTokens
  completionTokens := src.outputTokens
  outputTokens := src.outputTokens
  totalTokens := totalOr src src.inputTokens src.outputTokens
  promptTokensDetails := src.inputTokensDetails.getD {}
  completionTokenDetails :=
    if src.completionTokenDetails.hasTokens then src.completionTokenDetails else {}
  claudeCacheCreation5mTokens := src.claudeCacheCreation5mTokens
  claudeCacheCreation1hTokens := src.claudeCacheCreation1hTokens

def usageFromResponsesUsage (src : Usage) : Usage := usageOfResponsesUsage src true

def normalizeResponsesUsage (src : Usage) : Usage := usageOfResponsesUsage src false

def normalizeCacheCreationSplit (totalTokens tokens5m tokens1h : Int) : Int × Int :=
  (tokens5m + max (totalTokens - tokens5m - tokens1h) 0, tokens1h)

/-- The sub-object for a split that is not zero. -/
def cacheCreationOf (split : Int × Int) : Option ClaudeCacheCreationUsage :=
  if split.1 > 0 ∨ split.2 > 0 then some ⟨split.1, split.2⟩ else none

/-- The native payload of a Claude snapshot. -/
def BillingUsage.claudePayload (b : BillingUsage) : Option ClaudeUsage :=
  if b.source = billingUsageSourceClaudeMessages ∨ b.semantic = billingUsageSemanticAnthropic then
    b.claudeUsage
  else none

def openAIBillingUsageFromUsage : Option BillingUsage :=
  (u.billingUsage.map (·.clone)).or (newOpenAIChatBillingUsage u)

/-- `UsageFromOpenAI` of the Claude converters. -/
def usageFromOpenAI : ClaudeUsage :=
  match (u.billingUsage.map (·.clone)).bind (·.claudePayload) with
  | some result => { result with billingUsage := u.billingUsage.map (·.clone) }
  | none =>
    let cacheCreationTokens := u.promptTokensDetails.cacheCreationTokensTotal
    { inputTokens :=
        if u.usageSemantic ≠ billingUsageSemanticAnthropic then
          max (u.promptTokens - u.promptTokensDetails.cachedTokens - cacheCreationTokens) 0
        else u.promptTokens
      outputTokens := u.completionTokens
      cacheCreationInputTokens := cacheCreationTokens
      cacheReadInputTokens := u.promptTokensDetails.cachedTokens
      billingUsage := openAIBillingUsageFromUsage u
      cacheCreation := cacheCreationOf (normalizeCacheCreationSplit
        u.promptTokensDetails.cachedCreationTokens u.claudeCacheCreation5mTokens
        u.claudeCacheCreation1hTokens) }

def cacheCreationTokensForOpenAIUsage : Int :=
  let split := u.claudeCacheCreation5mTokens + u.claudeCacheCreation1hTokens
  let cached := u.promptTokensDetails.cachedCreationTokens
  if split = 0 ∨ cached > split then cached else split

def buildOpenAIStyleUsageFromClaudeUsage : Usage :=
  let split := normalizeCacheCreationSplit u.promptTokensDetails.cachedCreationTokens
    u.claudeCacheCreation5mTokens u.claudeCacheCreation1hTokens
  let cacheCreationTokens := cacheCreationTokensForOpenAIUsage u
  let totalInputTokens :=
    u.promptTokens + u.promptTokensDetails.cachedTokens + cacheCreationTokens
  { u with
    billingUsage := u.billingUsage.map (·.clone)
    claudeCacheCreation5mTokens := split.1
    claudeCacheCreation1hTokens := split.2
    promptTokensDetails := { u.promptTokensDetails with cacheWriteTokens := cacheCreationTokens }
    promptTokens := totalInputTokens
    inputTokens := totalInputTokens
    totalTokens := totalInputTokens + u.completionTokens
    usageSemantic := "openai"
    usageSource := "anthropic" }

def usageFromClaudeAPIUsage (u : ClaudeUsage) : Usage :=
  buildOpenAIStyleUsageFromClaudeUsage
    { promptTokens := u.inputTokens
      completionTokens := u.outputTokens
      usageSemantic := "anthropic"
      usageSource := "anthropic"
      billingUsage := (u.billingUsage.map (·.clone)).or (newClaudeMessagesBillingUsage u)
      promptTokensDetails :=
        { cachedTokens := u.cacheReadInputTokens
          cachedCreationTokens := u.cacheCreationInputTokens }
      claudeCacheCreation5mTokens := getCacheCreation5mTokens u
      claudeCacheCreation1hTokens := getCacheCreation1hTokens u }

def geminiBillingMetadataFromOpenAIUsage : Option GeminiUsageMetadata :=
  match u.billingUsage with
  | none => none
  | some b =>
    if b.source ≠ billingUsageSourceGeminiChat ∧ b.semantic ≠ billingUsageSemanticGemini then none
    else b.clone.geminiUsageMetadata.map fun m => { m with billingUsage := some b.clone }

/-- The metadata that `newGeminiStreamResponse` fills in, with the tokens that the prompt is
estimated to have. -/
def geminiStreamMetadata (estimatePromptTokens : Int) : Option Usage → GeminiUsageMetadata
  | none => { promptTokenCount := estimatePromptTokens, totalTokenCount := estimatePromptTokens }
  | some u =>
    (geminiBillingMetadataFromOpenAIUsage u).getD
      { promptTokenCount := u.promptTokens
        candidatesTokenCount := u.completionTokens
        totalTokenCount := u.totalTokens
        billingUsage := openAIBillingUsageFromUsage u }

/-- The metadata that `ResponseOpenAI2Gemini` fills in. -/
def geminiResponseMetadata : GeminiUsageMetadata :=
  (geminiBillingMetadataFromOpenAIUsage u).getD
    { promptTokenCount := u.promptTokens
      candidatesTokenCount := u.completionTokens
      totalTokenCount := totalOr u u.promptTokens u.completionTokens
      billingUsage := openAIBillingUsageFromUsage u }

def usageFromGeminiMetadata (m : GeminiUsageMetadata) (fallbackPromptTokens : Int) : Usage :=
  let reported := m.promptTokenCount + m.toolUsePromptTokenCount
  let promptTokens :=
    if reported ≤ 0 ∧ fallbackPromptTokens > 0 then fallbackPromptTokens else reported
  let completionTokens := m.candidatesTokenCount + m.thoughtsTokenCount
  { promptTokens := promptTokens
    completionTokens :=
      if m.totalTokenCount > 0 ∧ completionTokens ≤ 0 then m.totalTokenCount - promptTokens
      else completionTokens
    totalTokens := m.totalTokenCount
    billingUsage := (m.billingUsage.map (·.clone)).or (newGeminiChatBillingUsage m)
    completionTokenDetails := geminiOutputTokenDetails id m
    promptTokensDetails := (geminiInputTokenDetails id m).orAllText promptTokens }

/-! ### Chains of bridges -/

inductive Dialect
  | openAI
  | claude
  | gemini

/-- A usage in a dialect. -/
abbrev Dialect.Value : Dialect → Type
  | .openAI => Usage
  | .claude => ClaudeUsage
  | .gemini => GeminiUsageMetadata

def snapshot : {d : Dialect} → d.Value → Option BillingUsage
  | .openAI, u => UsageOf.billingUsage u
  | .claude, u => ClaudeUsageOf.billingUsage u
  | .gemini, m => GeminiUsageMetadataOf.billingUsage m

/-- The bridges, with what they are given besides the usage. -/
inductive Bridge : Dialect → Dialect → Type
  | usageFromChatUsage : Bridge .openAI .openAI
  | usageFromResponsesUsage : Bridge .openAI .openAI
  | normalizeResponsesUsage : Bridge .openAI .openAI
  | usageFromOpenAI : Bridge .openAI .claude
  | usageFromClaudeAPIUsage : Bridge .claude .openAI
  | newGeminiStreamResponse (estimatePromptTokens : Int) : Bridge .openAI .gemini
  | responseOpenAI2Gemini : Bridge .openAI .gemini
  | usageFromGeminiMetadata (fallbackPromptTokens : Int) : Bridge .gemini .openAI

/-- What a bridge makes of a usage. -/
def Bridge.run : {d d' : Dialect} → Bridge d d' → d.Value → d'.Value
  | _, _, .usageFromChatUsage, u => Tokens.usageFromChatUsage u
  | _, _, .usageFromResponsesUsage, u => Tokens.usageFromResponsesUsage u
  | _, _, .normalizeResponsesUsage, u => Tokens.normalizeResponsesUsage u
  | _, _, .usageFromOpenAI, u => Tokens.usageFromOpenAI u
  | _, _, .usageFromClaudeAPIUsage, u => Tokens.usageFromClaudeAPIUsage u
  | _, _, .newGeminiStreamResponse estimate, u => geminiStreamMetadata estimate (some u)
  | _, _, .responseOpenAI2Gemini, u => geminiResponseMetadata u
  | _, _, .usageFromGeminiMetadata fallback, m => Tokens.usageFromGeminiMetadata m fallback

/-- The bridge makes a snapshot where there is none. -/
def Bridge.creates : {d d' : Dialect} → Bridge d d' → Bool
  | _, _, .normalizeResponsesUsage => false
  | _, _, _ => true

/-- A chain of bridges from one dialect to another. -/
inductive Chain : Dialect → Dialect → Type
  | nil {d : Dialect} : Chain d d
  | cons {d d' d'' : Dialect} : Bridge d d' → Chain d' d'' → Chain d d''

/-- What a chain makes of a usage. -/
def Chain.run : {d d' : Dialect} → Chain d d' → d.Value → d'.Value
  | _, _, .nil, x => x
  | _, _, .cons f c, x => c.run (f.run x)

/-! ### What a bridge does to the snapshot -/

theorem billingUsage_restored {u : Usage} {b : BillingUsage} {m : GeminiUsageMetadata}
    (hb : u.billingUsage = some b) (h : geminiBillingMetadataFromOpenAIUsage u = some m) :
    m.billingUsage = some b.clone := by
  simp only [geminiBillingMetadataFromOpenAIUsage, hb] at h
  split at h
  · cases h
  · obtain ⟨m', -, rfl⟩ := map_eq_some_iff.1 h
    rfl

theorem geminiBillingMetadata_of_none {u : Usage} (h : u.billingUsage = none) :
    geminiBillingMetadataFromOpenAIUsage u = none := by
  simp only [geminiBillingMetadataFromOpenAIUsage, h]

theorem openAIBillingUsage_of_some {u : Usage} {b : BillingUsage} (h : u.billingUsage = some b) :
    openAIBillingUsageFromUsage u = some b.clone := by
  simp only [openAIBillingUsageFromUsage, h, map_some, some_or]

/-- Gemini metadata carry the snapshot, restored or not. -/
theorem billingUsage_getD {u : Usage} {b : BillingUsage} {m : GeminiUsageMetadata}
    (hb : u.billingUsage = some b) (hm : m.billingUsage = openAIBillingUsageFromUsage u) :
    ((geminiBillingMetadataFromOpenAIUsage u).getD m).billingUsage = some b.clone := by
  cases hr : geminiBillingMetadataFromOpenAIUsage u with
  | none => exact hm.trans (openAIBillingUsage_of_some hb)
  | some m' => exact billingUsage_restored hb hr

/-- **A bridge hands a snapshot on as a copy.** -/
theorem Bridge.snapshot_run {d d' : Dialect} (f : Bridge d d') {x : d.Value} {b : BillingUsage}
    (h : snapshot x = some b) : snapshot (f.run x) = some b.clone := by
  cases f with
  | usageFromChatUsage | usageFromResponsesUsage | normalizeResponsesUsage =>
    change (Option.map _ (UsageOf.billingUsage x)).or _ = _
    rw [show UsageOf.billingUsage x = some b from h]
    rfl
  | usageFromOpenAI =>
    have hb : UsageOf.billingUsage x = some b := h
    change ClaudeUsageOf.billingUsage (Tokens.usageFromOpenAI x) = _
    unfold Tokens.usageFromOpenAI
    split
    · simp only [hb, map_some]
    · exact openAIBillingUsage_of_some hb
  | usageFromClaudeAPIUsage =>
    change Option.map _ ((Option.map _ (ClaudeUsageOf.billingUsage x)).or _) = _
    rw [show ClaudeUsageOf.billingUsage x = some b from h]
    exact congrArg some b.clone_clone
  | newGeminiStreamResponse | responseOpenAI2Gemini => exact billingUsage_getD h rfl
  | usageFromGeminiMetadata fallback =>
    change (Option.map _ (GeminiUsageMetadataOf.billingUsage x)).or _ = _
    rw [show GeminiUsageMetadataOf.billingUsage x = some b from h]
    rfl

/-- The snapshot that is made of a usage. -/
def madeFrom (source : String) (u : Usage) : BillingUsage :=
  { source := source, semantic := billingUsageSemanticOpenAI
    openAIUsage := some (cloneOpenAIUsage u) }

theorem newOpenAIBillingUsage_of_tokens {u : Usage} (source : String)
    (h : hasOpenAIUsageTokens u = true) :
    newOpenAIBillingUsage source u = some (madeFrom source u) := if_pos h

/-- **A bridge makes a snapshot of a usage that has none.** -/
theorem Bridge.snapshot_created {d : Dialect} (f : Bridge .openAI d) {u : Usage}
    (hu : u.billingUsage = none) (ht : hasOpenAIUsageTokens u = true) (hf : f.creates = true) :
    ∃ source, snapshot (f.run u) = some (madeFrom source u) := by
  have hcreated : openAIBillingUsageFromUsage u = some (madeFrom billingUsageSourceOAIChat u) := by
    rw [openAIBillingUsageFromUsage, hu]
    exact newOpenAIBillingUsage_of_tokens _ ht
  cases f with
  | usageFromChatUsage => exact ⟨_, hcreated⟩
  | usageFromResponsesUsage =>
    refine ⟨billingUsageSourceOAIResponses, ?_⟩
    change (Option.map _ u.billingUsage).or _ = _
    rw [hu]
    exact newOpenAIBillingUsage_of_tokens _ ht
  | normalizeResponsesUsage => cases hf
  | usageFromOpenAI =>
    refine ⟨billingUsageSourceOAIChat, ?_⟩
    change ClaudeUsageOf.billingUsage (Tokens.usageFromOpenAI u) = _
    rw [Tokens.usageFromOpenAI, hu]
    exact hcreated
  | newGeminiStreamResponse estimate =>
    refine ⟨billingUsageSourceOAIChat, ?_⟩
    change GeminiUsageMetadataOf.billingUsage (geminiStreamMetadata estimate (some u)) = _
    rw [geminiStreamMetadata, geminiBillingMetadata_of_none hu]
    exact hcreated
  | responseOpenAI2Gemini =>
    refine ⟨billingUsageSourceOAIChat, ?_⟩
    change GeminiUsageMetadataOf.billingUsage (geminiResponseMetadata u) = _
    rw [geminiResponseMetadata, geminiBillingMetadata_of_none hu]
    exact hcreated

/-! ### Metadata that carry a usage -/

/-- **The metadata of a response carry a usage**: its counts and its snapshot, or the native
metadata of a Gemini snapshot.  A total that was not reported may be filled in. -/
def Carries (m : GeminiUsageMetadata) (u : Usage) : Prop :=
  m = geminiStreamMetadata 0 (some u) ∨ u.totalTokens = 0 ∧
    m = { geminiStreamMetadata 0 (some u) with
          totalTokenCount := u.promptTokens + u.completionTokens }

theorem carries_self (estimate : Int) (u : Usage) :
    Carries (geminiStreamMetadata estimate (some u)) u := .inl rfl

theorem hasOpenAIUsageTokens_usageFromChatUsage {u : Usage} (h : hasOpenAIUsageTokens u = false) :
    hasOpenAIUsageTokens (usageFromChatUsage u) = false := by
  simp only [hasOpenAIUsageTokens, Bool.or_eq_false_iff, bne_eq_false_iff_eq] at h ⊢
  obtain ⟨⟨⟨⟨⟨⟨⟨⟨⟨⟨hprompt, hcompletion⟩, htotal⟩, -⟩, -⟩, -⟩, h5m⟩, h1h⟩, hinput⟩, houtput⟩, -⟩ := h
  simp [usageFromChatUsage, totalOr, orCount, hprompt, hcompletion, htotal, h5m, h1h, hinput,
    houtput]
  decide

/-- The snapshot that `newGeminiStreamResponse` takes is the same before and after
`UsageFromChatUsage`. -/
theorem openAIBillingUsage_usageFromChatUsage :
    openAIBillingUsageFromUsage (usageFromChatUsage u) = openAIBillingUsageFromUsage u := by
  cases hb : u.billingUsage with
  | some b =>
    have hafter : (usageFromChatUsage u).billingUsage = some b.clone :=
      Bridge.usageFromChatUsage.snapshot_run hb
    rw [openAIBillingUsage_of_some hafter, openAIBillingUsage_of_some hb, b.clone_clone]
  | none =>
    cases ht : hasOpenAIUsageTokens u with
    | true =>
      have hmade := newOpenAIBillingUsage_of_tokens billingUsageSourceOAIChat ht
      have hafter : (usageFromChatUsage u).billingUsage =
          some (madeFrom billingUsageSourceOAIChat u) := by
        change (Option.map _ u.billingUsage).or _ = _
        rw [hb]
        exact hmade
      rw [openAIBillingUsage_of_some hafter, openAIBillingUsageFromUsage, hb]
      exact hmade.symm
    | false =>
      have hnone : newOpenAIChatBillingUsage u = none := if_neg (by simp [ht])
      have hafter : (usageFromChatUsage u).billingUsage = none := by
        change (Option.map _ u.billingUsage).or _ = _
        rw [hb]
        exact hnone
      rw [openAIBillingUsageFromUsage, hafter, openAIBillingUsageFromUsage, hb, map_none,
        none_or, none_or, hnone]
      exact if_neg (by simp [hasOpenAIUsageTokens_usageFromChatUsage ht])

/-- The native metadata that `newGeminiStreamResponse` restores are the same before and after
`UsageFromChatUsage`. -/
theorem geminiBillingMetadata_usageFromChatUsage :
    geminiBillingMetadataFromOpenAIUsage (usageFromChatUsage u) =
      geminiBillingMetadataFromOpenAIUsage u := by
  cases hb : u.billingUsage with
  | some b =>
    have hafter : (usageFromChatUsage u).billingUsage = some b.clone :=
      Bridge.usageFromChatUsage.snapshot_run hb
    simp only [geminiBillingMetadataFromOpenAIUsage, hafter, hb, BillingUsage.clone_clone,
      BillingUsage.clone_source, BillingUsage.clone_semantic]
  | none =>
    rw [geminiBillingMetadata_of_none hb]
    -- a snapshot made on the way is of the OpenAI dialect
    have hafter : (usageFromChatUsage u).billingUsage = newOpenAIChatBillingUsage u := by
      change (Option.map _ u.billingUsage).or _ = _
      rw [hb]
      rfl
    by_cases ht : hasOpenAIUsageTokens u = true
    · rw [newOpenAIChatBillingUsage, newOpenAIBillingUsage_of_tokens _ ht] at hafter
      simp only [geminiBillingMetadataFromOpenAIUsage, hafter]
      refine if_pos ⟨?_, ?_⟩
      · exact show billingUsageSourceOAIChat ≠ billingUsageSourceGeminiChat by decide
      · exact show billingUsageSemanticOpenAI ≠ billingUsageSemanticGemini by decide
    · exact geminiBillingMetadata_of_none (hafter.trans (if_neg ht))

/-- **The usage that is remembered is carried like the one that was reported.** -/
theorem carries_usageFromChatUsage (estimate : Int) (u : Usage) :
    Carries (geminiStreamMetadata estimate (some (usageFromChatUsage u))) u := by
  unfold Carries
  simp only [geminiStreamMetadata, geminiBillingMetadata_usageFromChatUsage,
    openAIBillingUsage_usageFromChatUsage]
  cases geminiBillingMetadataFromOpenAIUsage u with
  | some m => exact .inl rfl
  | none =>
    by_cases ht : u.totalTokens = 0
    · exact .inr ⟨ht, by simp [usageFromChatUsage, totalOr, orCount, ht]⟩
    · exact .inl (by simp [usageFromChatUsage, totalOr, orCount, ht])

/-! ### What a chain does to the snapshot -/

/-- **A chain hands a snapshot on**, as it is or as a copy. -/
theorem Chain.snapshot_run {d d' : Dialect} (c : Chain d d') :
    ∀ {x : d.Value} {b : BillingUsage}, snapshot x = some b →
      snapshot (c.run x) = some b ∨ snapshot (c.run x) = some b.clone := by
  induction c with
  | nil => exact fun h => .inl h
  | cons f c ih =>
    intro x b h
    -- after the first bridge there are only copies, and these stay the same
    rcases ih (f.snapshot_run h) with hc | hc
    · exact .inr hc
    · exact .inr (b.clone_clone ▸ hc)

/-- A made snapshot is its own copy. -/
@[simp] theorem clone_madeFrom (source : String) (u : Usage) :
    (madeFrom source u).clone = madeFrom source u := rfl

/-- A made snapshot is worth the same whatever its source is called. -/
theorem canonicalUsage_madeFrom (source : String) {u : Usage} (h : hasOpenAIUsageTokens u = true) :
    (madeFrom source u).canonicalUsage =
      some ((madeFrom source u).canonicalOpenAIUsage (cloneOpenAIUsage u)) := by
  have hnames : (madeFrom source u).names [billingUsageSourceOAIChat,
      billingUsageSourceOAIResponses] billingUsageSemanticOpenAI = true := by
    have hsemantic : equalFold (trimSpace (madeFrom source u).semantic)
        billingUsageSemanticOpenAI = true := by
      change equalFold (trimSpace "openai") "openai" = true
      decide
    simp only [BillingUsage.names, hsemantic, Bool.or_true]
  have hfilter : (madeFrom source u).openAIUsage.filter (fun u' => hasOpenAIUsageTokens u' &&
      (madeFrom source u).names [billingUsageSourceOAIChat, billingUsageSourceOAIResponses]
        billingUsageSemanticOpenAI) = some (cloneOpenAIUsage u) := by
    refine filter_eq_some_iff.2 ⟨rfl, ?_⟩
    rw [hasOpenAIUsageTokens_clone, h, hnames]
    rfl
  simp only [BillingUsage.canonicalUsage, hfilter]

/-- **What is settled does not depend on the protocols crossed.**  Over any chain of bridges a
snapshot is worth the same and keeps its mark of an estimate.  A usage with tokens and without a
snapshot gets one at the first bridge, unless that is `NormalizeResponsesUsage`; every chain from
there on keeps it as it is, and its counts are the same for every first bridge. -/
theorem snapshot_kept :
    (∀ (u : Usage) (b : BillingUsage), u.billingUsage = some b → b.canonicalUsage.isSome = true →
      ∀ {d : Dialect} (c : Chain .openAI d), ∃ b', snapshot (c.run u) = some b' ∧
        b'.canonicalUsage = b.canonicalUsage ∧ b'.estimated = b.estimated) ∧
    ∀ u : Usage, u.billingUsage = none → hasOpenAIUsageTokens u = true →
      ∃ counts : Usage, ∀ {d : Dialect} (f : Bridge .openAI d), f.creates = true →
        ∃ b, snapshot (f.run u) = some b ∧ b.canonicalUsage.map (·.counts) = some counts ∧
          ∀ {d' : Dialect} (c : Chain d d'), snapshot (c.run (f.run u)) = some b := by
  constructor
  · intro u b hb _ d c
    rcases c.snapshot_run (x := u) hb with hc | hc
    · exact ⟨b, hc, rfl, rfl⟩
    · exact ⟨b.clone, hc, b.canonicalUsage_clone, b.clone_estimated⟩
  · intro u hu ht
    refine ⟨((madeFrom "" u).canonicalOpenAIUsage (cloneOpenAIUsage u)).counts, ?_⟩
    intro d f hf
    obtain ⟨source, hsource⟩ := f.snapshot_created hu ht hf
    refine ⟨madeFrom source u, hsource, ?_, fun {d'} c => ?_⟩
    · rw [canonicalUsage_madeFrom source ht]
      rfl
    · rcases c.snapshot_run hsource with hc | hc
      · exact hc
      · rwa [clone_madeFrom] at hc

/-- The snapshot of an estimated Claude usage. -/
def estimatedClaude : BillingUsage where
  semantic := "anthropic"
  estimated := true
  claudeUsage := some { inputTokens := 3 }

theorem snapshot_kept_claude_and_chat :
    (∃ b', snapshot ((Chain.cons (.newGeminiStreamResponse 7)
          (.cons (.usageFromGeminiMetadata 0) (.cons .usageFromOpenAI .nil))).run
        ({ billingUsage := some estimatedClaude } : Usage)) = some b' ∧
      b'.canonicalUsage = estimatedClaude.canonicalUsage ∧ b'.estimated = true) ∧
    ∃ counts : Usage, ∃ b,
      snapshot (Bridge.usageFromChatUsage.run ({ promptTokens := 10 } : Usage)) = some b ∧
        b.canonicalUsage.map (·.counts) = some counts ∧
        snapshot ((Chain.cons .usageFromOpenAI .nil).run
          (Bridge.usageFromChatUsage.run ({ promptTokens := 10 } : Usage))) = some b := by
  refine ⟨snapshot_kept.1 _ _ rfl (by decide) _, ?_⟩
  obtain ⟨counts, hcounts⟩ := snapshot_kept.2 { promptTokens := 10 } rfl (by decide)
  obtain ⟨b, hb, hworth, hkept⟩ := hcounts .usageFromChatUsage rfl
  exact ⟨counts, b, hb, hworth, hkept (.cons .usageFromOpenAI .nil)⟩

/-- A chat usage whose first bridge is `NormalizeResponsesUsage` gets no snapshot there, and has no
tokens left for the next bridge to make one of. -/
theorem normalizedFirst_lost :
    ¬∀ u : Usage, u.billingUsage = none → hasOpenAIUsageTokens u = true →
      ∀ {d : Dialect} (f : Bridge .openAI d),
        ∃ b, snapshot (f.run u) = some b ∧
          ∀ {d' : Dialect} (c : Chain d d'), snapshot (c.run (f.run u)) = some b := by
  intro h
  obtain ⟨b, hb, -⟩ := h { promptTokens := 10 } rfl (by decide) .normalizeResponsesUsage
  have hnone : snapshot (Bridge.normalizeResponsesUsage.run ({ promptTokens := 10 } : Usage)) =
      none := rfl
  rw [hnone] at hb
  cases hb

example : hasOpenAIUsageTokens (normalizeResponsesUsage { promptTokens := 10 }) = false := by
  decide

end NexusTok.Tokens
