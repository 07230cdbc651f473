import Mathlib.Algebra.Order.BigOperators.Group.List
import Mathlib.Algebra.Order.Ring.Int
import NexusTok.Tokens.Bridges

/-!
# Two readings of Gemini's usage

`UsageFromGeminiMetadata` reads the metadata for the client, and `CanonicalUsage` reads the snapshot
of the same metadata for settlement.

* `ShownAsSettled` : both readings give the same counts, and none is negative.
* `shownAsSettled_iff` : **when they do**.  The client's reading compares modalities as they are
  spelled and takes the prompt off the total without a bound; the other one trims and capitalises
  them, and stops at zero.
-/

namespace NexusTok.Tokens

open List

/-! ### Counts of both readings -/

/-- The counts of a usage that are shown and settled. -/
structure ModalCounts where
  prompt : Int
  completion : Int
  reasoning : Int
  cached : Int
  promptText : Int
  promptImage : Int
  promptAudio : Int
  completionText : Int
  completionImage : Int
  completionAudio : Int
deriving DecidableEq

/-- The counts of a usage by modality. -/
def UsageOf.modalCounts (u : Usage) : ModalCounts where
  prompt := u.promptTokens
  completion := u.completionTokens
  reasoning := u.completionTokenDetails.reasoningTokens
  cached := u.promptTokensDetails.cachedTokens
  promptText := u.promptTokensDetails.textTokens
  promptImage := u.promptTokensDetails.imageTokens
  promptAudio := u.promptTokensDetails.audioTokens
  completionText := u.completionTokenDetails.textTokens
  completionImage := u.completionTokenDetails.imageTokens
  completionAudio := u.completionTokenDetails.audioTokens

/-- No count is negative. -/
structure ModalCounts.NonNegative (c : ModalCounts) : Prop where
  prompt : 0 ≤ c.prompt
  completion : 0 ≤ c.completion
  reasoning : 0 ≤ c.reasoning
  cached : 0 ≤ c.cached
  promptText : 0 ≤ c.promptText
  promptImage : 0 ≤ c.promptImage
  promptAudio : 0 ≤ c.promptAudio
  completionText : 0 ≤ c.completionText
  completionImage : 0 ≤ c.completionImage
  completionAudio : 0 ≤ c.completionAudio

/-- No detail has a negative count. -/
def NonNegativeDetails (details : List GeminiPromptTokensDetails) : Prop :=
  ∀ d ∈ details, 0 ≤ d.tokenCount

instance (details : List GeminiPromptTokensDetails) : Decidable (NonNegativeDetails details) :=
  inferInstanceAs (Decidable (∀ d ∈ details, 0 ≤ d.tokenCount))

/-- No count of the metadata is negative. -/
structure GeminiUsageMetadataOf.NonNegative (m : GeminiUsageMetadata) : Prop where
  prompt : 0 ≤ m.promptTokenCount
  toolUse : 0 ≤ m.toolUsePromptTokenCount
  candidates : 0 ≤ m.candidatesTokenCount
  total : 0 ≤ m.totalTokenCount
  thoughts : 0 ≤ m.thoughtsTokenCount
  cached : 0 ≤ m.cachedContentTokenCount
  promptDetails : NonNegativeDetails m.promptTokensDetails
  toolUseDetails : NonNegativeDetails m.toolUsePromptTokensDetails
  candidatesDetails : NonNegativeDetails m.candidatesTokensDetails

/-- What the client is shown is what is settled, where anything is, and no count is negative. -/
def ShownAsSettled (m : GeminiUsageMetadata) : Prop :=
  (usageFromGeminiMetadata m 0).modalCounts.NonNegative ∧
    ∀ settled, (newGeminiChatBillingUsage m).bind (·.canonicalUsage) = some settled →
      (usageFromGeminiMetadata m 0).modalCounts = settled.modalCounts ∧
        settled.modalCounts.NonNegative

/-! ### When they agree -/

/-- What counts for a modality is spelled as the modality. -/
def Spelled (modality : String) (details : List GeminiPromptTokensDetails) : Prop :=
  ∀ d ∈ details, normalizeGeminiModality d.modality = modality →
    d.modality = modality ∨ d.tokenCount = 0

instance (modality : String) (details : List GeminiPromptTokensDetails) :
    Decidable (Spelled modality details) :=
  inferInstanceAs (Decidable (∀ d ∈ details, _ → _))

/-- The details of the prompt, tool use included. -/
def GeminiUsageMetadataOf.inputDetails (m : GeminiUsageMetadata) :
    List GeminiPromptTokensDetails :=
  m.promptTokensDetails ++ m.toolUsePromptTokensDetails

/-- The tokens of the prompt, tool use included. -/
def GeminiUsageMetadataOf.inputTokens (m : GeminiUsageMetadata) : Int :=
  m.promptTokenCount + m.toolUsePromptTokenCount

/-- **When the readings agree.**  Where nothing was generated, the total is not below the prompt,
and modalities are spelled in capitals without spaces, except that the texts of a prompt may be
spelled in another way if they come to the whole prompt: that is what is shown of a prompt without
text and audio. -/
structure Agreeable (m : GeminiUsageMetadata) : Prop where
  total : m.candidatesTokenCount + m.thoughtsTokenCount = 0 → 0 < m.totalTokenCount →
    m.inputTokens ≤ m.totalTokenCount
  candidates : ∀ modality ∈ ["TEXT", "IMAGE", "AUDIO"], Spelled modality m.candidatesTokensDetails
  image : Spelled "IMAGE" m.inputDetails
  audio : Spelled "AUDIO" m.inputDetails
  text : Spelled "TEXT" m.inputDetails ∨
    tokensOf id "TEXT" m.inputDetails = 0 ∧ tokensOf id "AUDIO" m.inputDetails = 0 ∧
      tokensOf normalizeGeminiModality "TEXT" m.inputDetails = m.inputTokens

variable {modality : String} {details : List GeminiPromptTokensDetails}

theorem tokensOf_nil (name : String → String) (modality : String) :
    tokensOf name modality [] = 0 := sum_nil

theorem tokensOf_cons (name : String → String) (modality : String) (d : GeminiPromptTokensDetails)
    (details : List GeminiPromptTokensDetails) :
    tokensOf name modality (d :: details) =
      (if name d.modality = modality then d.tokenCount else 0) +
        tokensOf name modality details := by
  unfold tokensOf
  by_cases hd : name d.modality = modality
  · rw [filter_cons_of_pos (by simpa using hd), if_pos hd, map_cons, sum_cons]
  · rw [filter_cons_of_neg (by simpa using hd), if_neg hd, zero_add]

theorem tokensOf_nonneg (name : String → String) (modality : String)
    (h : NonNegativeDetails details) : 0 ≤ tokensOf name modality details := by
  refine sum_nonneg fun n hn => ?_
  obtain ⟨d, hd, rfl⟩ := mem_map.1 hn
  exact h d (mem_of_mem_filter hd)

/-- Fewer details are spelled as the modality than count for it. -/
theorem tokensOf_le (hname : normalizeGeminiModality modality = modality)
    (h : NonNegativeDetails details) :
    tokensOf id modality details ≤ tokensOf normalizeGeminiModality modality details := by
  induction details with
  | nil => rw [tokensOf_nil, tokensOf_nil]
  | cons d details ih =>
    have hd := h d mem_cons_self
    have ih := ih fun e he => h e (mem_cons_of_mem d he)
    rw [tokensOf_cons, tokensOf_cons, id]
    by_cases hexact : d.modality = modality
    · rw [if_pos hexact, if_pos (by rw [hexact, hname])]
      omega
    · rw [if_neg hexact]
      by_cases hnormal : normalizeGeminiModality d.modality = modality
      · rw [if_pos hnormal]
        omega
      · rw [if_neg hnormal]
        omega

/-- **Both readings count the same for a modality iff it is spelled.** -/
theorem tokensOf_eq_iff (hname : normalizeGeminiModality modality = modality)
    (h : NonNegativeDetails details) :
    tokensOf id modality details = tokensOf normalizeGeminiModality modality details ↔
      Spelled modality details := by
  induction details with
  | nil =>
    refine ⟨fun _ d hd => absurd hd not_mem_nil, fun _ => ?_⟩
    rw [tokensOf_nil, tokensOf_nil]
  | cons d details ih =>
    have hd := h d mem_cons_self
    have htail : NonNegativeDetails details := fun e he => h e (mem_cons_of_mem d he)
    have ih := ih htail
    have hle := tokensOf_le hname htail
    rw [tokensOf_cons, tokensOf_cons, id, Spelled, forall_mem_cons]
    change _ ↔ _ ∧ Spelled modality details
    rw [← ih]
    by_cases hexact : d.modality = modality
    · rw [if_pos hexact, if_pos (by rw [hexact, hname])]
      constructor
      · intro heq
        exact ⟨fun _ => .inl hexact, by omega⟩
      · rintro ⟨-, heq⟩
        rw [heq]
    · rw [if_neg hexact]
      by_cases hnormal : normalizeGeminiModality d.modality = modality
      · rw [if_pos hnormal]
        constructor
        · intro heq
          exact ⟨fun _ => .inr (by omega), by omega⟩
        · rintro ⟨hzero, heq⟩
          have hzero := (hzero hnormal).resolve_left hexact
          omega
      · rw [if_neg hnormal]
        constructor
        · intro heq
          exact ⟨fun hc => absurd hc hnormal, by omega⟩
        · rintro ⟨-, heq⟩
          rw [heq]

theorem NonNegativeDetails.append {details' : List GeminiPromptTokensDetails}
    (h : NonNegativeDetails details) (h' : NonNegativeDetails details') :
    NonNegativeDetails (details ++ details') := by
  intro d hd
  exact (mem_append.1 hd).elim (h d) (h' d)

/-- **A prompt's text is read alike** iff its texts are spelled, or come to the whole prompt, which
is what stands for a prompt without text and audio. -/
theorem orAllText_eq_iff {shown settled prompt : Int} (audio : Int) (hprompt : 0 ≤ prompt)
    (hshown : 0 ≤ shown) (hle : shown ≤ settled) :
    (if prompt > 0 ∧ shown = 0 ∧ audio = 0 then prompt else shown) =
        (if prompt > 0 ∧ settled = 0 ∧ audio = 0 then prompt else settled) ↔
      shown = settled ∨ shown = 0 ∧ audio = 0 ∧ settled = prompt := by
  by_cases hs : prompt > 0 ∧ shown = 0 ∧ audio = 0
  · rw [if_pos hs]
    by_cases hs' : prompt > 0 ∧ settled = 0 ∧ audio = 0
    · rw [if_pos hs']
      omega
    · rw [if_neg hs']
      omega
  · rw [if_neg hs]
    by_cases hs' : prompt > 0 ∧ settled = 0 ∧ audio = 0
    · omega
    · rw [if_neg hs']
      omega

/-- The counts of a reading that takes modalities by `name` and the completion as `completion`. -/
def countsBy (name : String → String) (completion : Int) (m : GeminiUsageMetadata) :
    ModalCounts where
  prompt := m.inputTokens
  completion := completion
  reasoning := m.thoughtsTokenCount
  cached := m.cachedContentTokenCount
  promptText :=
    if m.inputTokens > 0 ∧ tokensOf name "TEXT" m.inputDetails = 0 ∧
      tokensOf name "AUDIO" m.inputDetails = 0 then m.inputTokens
    else tokensOf name "TEXT" m.inputDetails
  promptImage := tokensOf name "IMAGE" m.inputDetails
  promptAudio := tokensOf name "AUDIO" m.inputDetails
  completionText := tokensOf name "TEXT" m.candidatesTokensDetails
  completionImage := tokensOf name "IMAGE" m.candidatesTokensDetails
  completionAudio := tokensOf name "AUDIO" m.candidatesTokensDetails

/-- The completion that the client is shown. -/
def shownCompletion (m : GeminiUsageMetadata) : Int :=
  if m.totalTokenCount > 0 ∧ m.candidatesTokenCount + m.thoughtsTokenCount ≤ 0 then
    m.totalTokenCount - m.inputTokens
  else m.candidatesTokenCount + m.thoughtsTokenCount

def settledCompletion (m : GeminiUsageMetadata) : Int :=
  if m.totalTokenCount ≠ 0 ∧ m.candidatesTokenCount + m.thoughtsTokenCount ≤ 0 then
    max (m.totalTokenCount - m.inputTokens) 0
  else m.candidatesTokenCount + m.thoughtsTokenCount

theorem orAllText_details (name : String → String) (m : GeminiUsageMetadata) (prompt : Int) :
    (geminiInputTokenDetails name m).orAllText prompt =
      { cachedTokens := m.cachedContentTokenCount
        audioTokens := tokensOf name "AUDIO" m.inputDetails
        imageTokens := tokensOf name "IMAGE" m.inputDetails
        textTokens :=
          if prompt > 0 ∧ tokensOf name "TEXT" m.inputDetails = 0 ∧
            tokensOf name "AUDIO" m.inputDetails = 0 then prompt
          else tokensOf name "TEXT" m.inputDetails } := by
  unfold InputTokenDetails.orAllText geminiInputTokenDetails GeminiUsageMetadataOf.inputDetails
  dsimp only
  by_cases htext : prompt > 0 ∧
      tokensOf name "TEXT" (m.promptTokensDetails ++ m.toolUsePromptTokensDetails) = 0 ∧
        tokensOf name "AUDIO" (m.promptTokensDetails ++ m.toolUsePromptTokensDetails) = 0
  · rw [if_pos htext, if_pos htext]
  · rw [if_neg htext, if_neg htext]

/-- **What the client is shown.** -/
theorem usageFromGeminiMetadata_counts (m : GeminiUsageMetadata) :
    (usageFromGeminiMetadata m 0).modalCounts = countsBy id (shownCompletion m) m := by
  have hprompt : (if m.promptTokenCount + m.toolUsePromptTokenCount ≤ 0 ∧ (0 : Int) > 0 then 0
      else m.promptTokenCount + m.toolUsePromptTokenCount) = m.inputTokens :=
    if_neg fun h => absurd h.2 (lt_irrefl 0)
  unfold usageFromGeminiMetadata UsageOf.modalCounts
  simp only [hprompt, orAllText_details]
  rfl

def geminiSnapshot (m : GeminiUsageMetadata) : BillingUsage where
  source := billingUsageSourceGeminiChat
  semantic := billingUsageSemanticGemini
  geminiUsageMetadata := some (cloneGeminiUsageMetadata m)

variable {m : GeminiUsageMetadata}

theorem canonicalUsage_geminiSnapshot (h : hasGeminiUsageMetadataTokens m = true) :
    (geminiSnapshot m).canonicalUsage =
      some ((geminiSnapshot m).canonicalGeminiUsage (cloneGeminiUsageMetadata m)) := by
  have hnames : (geminiSnapshot m).names [billingUsageSourceGeminiChat]
      billingUsageSemanticGemini = true := by
    have hsemantic : equalFold (trimSpace (geminiSnapshot m).semantic)
        billingUsageSemanticGemini = true := by
      change equalFold (trimSpace "gemini") "gemini" = true
      decide
    simp only [BillingUsage.names, hsemantic, Bool.or_true]
  have hfilter : (geminiSnapshot m).geminiUsageMetadata.filter (fun m' =>
      hasGeminiUsageMetadataTokens m' && (geminiSnapshot m).names [billingUsageSourceGeminiChat]
        billingUsageSemanticGemini) = some (cloneGeminiUsageMetadata m) := by
    refine Option.filter_eq_some_iff.2 ⟨rfl, ?_⟩
    rw [hasGeminiUsageMetadataTokens_clone, h, hnames]
    rfl
  unfold BillingUsage.canonicalUsage
  rw [show (geminiSnapshot m).openAIUsage = none from rfl,
    show (geminiSnapshot m).claudeUsage = none from rfl]
  simp only [hfilter, Option.filter_none]

theorem geminiSnapshot_counts (m : GeminiUsageMetadata) :
    ((geminiSnapshot m).canonicalGeminiUsage (cloneGeminiUsageMetadata m)).modalCounts =
      countsBy normalizeGeminiModality (settledCompletion m) m := by
  unfold BillingUsage.canonicalGeminiUsage UsageOf.modalCounts
  simp only [orAllText_details]
  rfl

/-- **What is settled**, where there are any tokens. -/
theorem canonicalUsage_counts (h : hasGeminiUsageMetadataTokens m = true) :
    ∃ settled, (newGeminiChatBillingUsage m).bind (·.canonicalUsage) = some settled ∧
      settled.modalCounts = countsBy normalizeGeminiModality (settledCompletion m) m := by
  refine ⟨_, ?_, geminiSnapshot_counts m⟩
  rw [newGeminiChatBillingUsage, if_pos h]
  exact canonicalUsage_geminiSnapshot h

theorem countsBy_nonneg (h : m.NonNegative) (name : String → String)
    {completion : Int} (hcompletion : 0 ≤ completion) :
    (countsBy name completion m).NonNegative := by
  have hinput : NonNegativeDetails m.inputDetails := h.promptDetails.append h.toolUseDetails
  have hprompt : 0 ≤ m.inputTokens := Int.add_nonneg h.prompt h.toolUse
  have htext := tokensOf_nonneg name "TEXT" hinput
  refine ⟨hprompt, hcompletion, h.thoughts, h.cached, ?_, tokensOf_nonneg name _ hinput,
    tokensOf_nonneg name _ hinput, tokensOf_nonneg name _ h.candidatesDetails,
    tokensOf_nonneg name _ h.candidatesDetails, tokensOf_nonneg name _ h.candidatesDetails⟩
  unfold countsBy
  dsimp only
  split_ifs
  · exact hprompt
  · exact htext

/-- **The completions agree and are not negative** iff the total is not below the prompt where
nothing was generated. -/
theorem completion_iff (h : m.NonNegative) :
    (0 ≤ shownCompletion m ∧ shownCompletion m = settledCompletion m) ↔
      (m.candidatesTokenCount + m.thoughtsTokenCount = 0 → 0 < m.totalTokenCount →
        m.inputTokens ≤ m.totalTokenCount) := by
  have hcandidates := h.candidates
  have hthoughts := h.thoughts
  have htotal := h.total
  unfold shownCompletion settledCompletion
  split_ifs <;> omega

theorem normalize_text : normalizeGeminiModality "TEXT" = "TEXT" := by decide

theorem normalize_image : normalizeGeminiModality "IMAGE" = "IMAGE" := by decide

theorem normalize_audio : normalizeGeminiModality "AUDIO" = "AUDIO" := by decide

/-- **The modalities agree** iff they are spelled, apart from the texts that are the whole
prompt. -/
theorem countsBy_eq_iff (h : m.NonNegative) (shown settled : Int) :
    countsBy id shown m = countsBy normalizeGeminiModality settled m ↔
      shown = settled ∧
        (∀ modality ∈ ["TEXT", "IMAGE", "AUDIO"], Spelled modality m.candidatesTokensDetails) ∧
        Spelled "IMAGE" m.inputDetails ∧ Spelled "AUDIO" m.inputDetails ∧
        (Spelled "TEXT" m.inputDetails ∨
          tokensOf id "TEXT" m.inputDetails = 0 ∧ tokensOf id "AUDIO" m.inputDetails = 0 ∧
            tokensOf normalizeGeminiModality "TEXT" m.inputDetails = m.inputTokens) := by
  have hinput : NonNegativeDetails m.inputDetails := h.promptDetails.append h.toolUseDetails
  have hprompt : 0 ≤ m.inputTokens := Int.add_nonneg h.prompt h.toolUse
  have hcandidates := h.candidatesDetails
  simp only [forall_mem_cons, not_mem_nil, false_imp_iff, implies_true, and_true,
    ← tokensOf_eq_iff normalize_text hcandidates, ← tokensOf_eq_iff normalize_image hcandidates,
    ← tokensOf_eq_iff normalize_audio hcandidates, ← tokensOf_eq_iff normalize_image hinput,
    ← tokensOf_eq_iff normalize_audio hinput, ← tokensOf_eq_iff normalize_text hinput]
  have htext := orAllText_eq_iff (tokensOf id "AUDIO" m.inputDetails) hprompt
    (tokensOf_nonneg id "TEXT" hinput) (tokensOf_le normalize_text hinput)
  constructor
  · intro heq
    have haudio := congrArg ModalCounts.promptAudio heq
    have htext' := congrArg ModalCounts.promptText heq
    change tokensOf id "AUDIO" _ = tokensOf normalizeGeminiModality "AUDIO" _ at haudio
    unfold countsBy at htext'
    dsimp only at htext'
    rw [← haudio] at htext'
    exact ⟨congrArg ModalCounts.completion heq,
      ⟨congrArg ModalCounts.completionText heq, congrArg ModalCounts.completionImage heq,
        congrArg ModalCounts.completionAudio heq⟩,
      congrArg ModalCounts.promptImage heq, haudio, htext.1 htext'⟩
  · rintro ⟨rfl, ⟨hct, hci, hca⟩, himage, haudio, htexts⟩
    have htext' := htext.2 htexts
    unfold countsBy
    rw [htext', hct, hci, hca, himage, haudio]

theorem agreeable_of_no_tokens (h : hasGeminiUsageMetadataTokens m = false) : Agreeable m := by
  simp only [hasGeminiUsageMetadataTokens, Bool.or_eq_false_iff, bne_eq_false_iff_eq,
    any_eq_false, bne_iff_ne, ne_eq, not_not] at h
  obtain ⟨⟨⟨⟨⟨⟨⟨⟨-, -⟩, -⟩, htotal⟩, -⟩, -⟩, hprompt⟩, htoolUse⟩, hcandidates⟩ := h
  have hinput : ∀ d ∈ m.inputDetails, d.tokenCount = 0 := fun d hd =>
    (mem_append.1 hd).elim (hprompt d) (htoolUse d)
  exact
    { total := fun _ hpos => absurd htotal hpos.ne'
      candidates := fun _ _ d hd _ => .inr (hcandidates d hd)
      image := fun d hd _ => .inr (hinput d hd)
      audio := fun d hd _ => .inr (hinput d hd)
      text := .inl fun d hd _ => .inr (hinput d hd) }

/-- **The client is shown what is settled iff the metadata is agreeable.** -/
theorem shownAsSettled_iff {m : GeminiUsageMetadata} (h : m.NonNegative) :
    ShownAsSettled m ↔ Agreeable m := by
  have hcompletion := completion_iff h
  have hcounts := countsBy_eq_iff h (shownCompletion m) (settledCompletion m)
  cases htokens : hasGeminiUsageMetadataTokens m with
  | false =>
    have hagreeable := agreeable_of_no_tokens htokens
    refine ⟨fun _ => hagreeable, fun _ => ⟨?_, fun settled hsettled => ?_⟩⟩
    · rw [usageFromGeminiMetadata_counts]
      exact countsBy_nonneg h id (hcompletion.2 hagreeable.total).1
    · rw [newGeminiChatBillingUsage, if_neg (by rw [htokens]; exact Bool.false_ne_true)] at hsettled
      cases hsettled
  | true =>
    obtain ⟨settled, hsettled, hsettledCounts⟩ := canonicalUsage_counts htokens
    unfold ShownAsSettled
    rw [usageFromGeminiMetadata_counts]
    constructor
    · rintro ⟨hnonneg, hagree⟩
      have heq := (hagree settled hsettled).1
      rw [hsettledCounts] at heq
      obtain ⟨hshown, hcandidates, himage, haudio, htext⟩ := hcounts.1 heq
      exact ⟨hcompletion.1 ⟨hnonneg.completion, hshown⟩, hcandidates, himage, haudio, htext⟩
    · intro hagreeable
      obtain ⟨hpos, hshown⟩ := hcompletion.2 hagreeable.total
      have heq := hcounts.2 ⟨hshown, hagreeable.candidates, hagreeable.image, hagreeable.audio,
        hagreeable.text⟩
      have hnonneg := countsBy_nonneg h id hpos
      refine ⟨hnonneg, fun settled' hsettled' => ?_⟩
      obtain rfl : settled = settled' := Option.some.inj (hsettled.symm.trans hsettled')
      rw [hsettledCounts]
      exact ⟨heq, heq ▸ hnonneg⟩

/-- A prompt with an audio part, in capitals. -/
def spelledMetadata : GeminiUsageMetadata where
  promptTokenCount := 10
  totalTokenCount := 12
  promptTokensDetails := [⟨"AUDIO", 4⟩, ⟨"TEXT", 6⟩]

theorem shownAsSettled_iff_spelled : ShownAsSettled spelledMetadata :=
  (shownAsSettled_iff (by constructor <;> decide)).2
    { total := by decide
      candidates := by decide
      image := by decide
      audio := by decide
      text := .inl (by decide) }

/-- A prompt whose audio is spelled in small letters is shown without it, and a total below the
prompt is shown as a negative completion. -/
theorem smallLetters_not_shown :
    ¬ShownAsSettled
      { promptTokenCount := 10
        candidatesTokenCount := 1
        promptTokensDetails := [⟨"audio", 4⟩, ⟨"TEXT", 6⟩] } ∧
    ¬ShownAsSettled { promptTokenCount := 10, totalTokenCount := 5 } := by
  constructor
  · intro h
    have haudio := congrArg ModalCounts.promptAudio (h.2 _ rfl).1
    revert haudio
    decide
  · intro h
    have hcompletion := h.1.completion
    revert hcompletion
    decide

end NexusTok.Tokens
