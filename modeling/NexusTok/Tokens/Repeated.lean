import Mathlib.Algebra.Order.BigOperators.Group.List
import Mathlib.Algebra.Order.Ring.Int
import NexusTok.Tokens.Decoders
import NexusTok.Tokens.Merge

/-!
# Snapshots that repeat

Gemini's snapshots are cumulative: each one counts all tokens up to it.  The counts of a merged
snapshot are those of the last one, but the counts of modalities are added up.

* `merge_again_iff` : when a second merge of the same snapshot changes nothing.
* `streamed_concat` : the counts and the tokens of modalities of a merged stream.
* `mergeGeminiUsageMetadataNonZero_cumulative` : when repeated snapshots stay stable, and when the
  modalities of a stream stay within what the last snapshot reports.
-/

namespace NexusTok.Tokens

open List Option Int

/-! ### Counts -/

theorem overCount_self (n : Int) : overCount n n = n := by
  unfold overCount
  split_ifs <;> rfl

theorem overCount_again (reported n : Int) :
    overCount reported (overCount reported n) = overCount reported n := by
  unfold overCount
  split_ifs <;> rfl

theorem raiseTo_eq_iff (sum total : Int) : raiseTo sum total = total ↔ sum ≤ total := by
  unfold raiseTo
  split_ifs <;> omega

theorem raiseTo_again (sum reported total : Int) :
    raiseTo sum (overCount reported (raiseTo sum (overCount reported total))) =
      raiseTo sum (overCount reported total) := by
  unfold raiseTo overCount
  split_ifs <;> omega

/-! ### Modalities -/

/-- The tokens of the details whose modality passes a test. -/
def tokensWhere (p : String → Bool) (details : List GeminiPromptTokensDetails) : Int :=
  ((details.filter fun d => p (normalizeGeminiModality d.modality)).map (·.tokenCount)).sum

def tokensIn (details : List GeminiPromptTokensDetails) : Int := tokensWhere (fun _ => true) details

/-- No detail counts anything. -/
def Uncounted (details : List GeminiPromptTokensDetails) : Prop :=
  ∀ d ∈ details, d.tokenCount ≤ 0

instance (details : List GeminiPromptTokensDetails) : Decidable (Uncounted details) :=
  inferInstanceAs (Decidable (∀ d ∈ details, d.tokenCount ≤ 0))

/-- What a merge adds of a detail. -/
def added (p : String → Bool) (d : GeminiPromptTokensDetails) : Int :=
  if 0 < d.tokenCount ∧ p (normalizeGeminiModality d.modality) = true then d.tokenCount else 0

variable {p : String → Bool}

theorem tokensOf_eq_tokensWhere (modality : String) (details : List GeminiPromptTokensDetails) :
    tokensOf normalizeGeminiModality modality details =
      tokensWhere (fun name => name == modality) details := by
  unfold tokensOf tokensWhere
  rfl

theorem tokensWhere_nil (p : String → Bool) : tokensWhere p [] = 0 := sum_nil

theorem tokensWhere_cons (p : String → Bool) (d : GeminiPromptTokensDetails)
    (details : List GeminiPromptTokensDetails) :
    tokensWhere p (d :: details) =
      (if p (normalizeGeminiModality d.modality) = true then d.tokenCount else 0) +
        tokensWhere p details := by
  unfold tokensWhere
  by_cases hd : p (normalizeGeminiModality d.modality) = true
  · rw [filter_cons, if_pos hd, if_pos hd, map_cons, sum_cons]
  · rw [filter_cons, if_neg hd, if_neg hd, zero_add]

theorem tokensWhere_append (p : String → Bool) (details details' : List GeminiPromptTokensDetails) :
    tokensWhere p (details ++ details') = tokensWhere p details + tokensWhere p details' := by
  unfold tokensWhere
  rw [filter_append, map_append, sum_append]

theorem tokensWhere_nonneg {details : List GeminiPromptTokensDetails}
    (h : NonNegativeDetails details) : 0 ≤ tokensWhere p details := by
  refine sum_nonneg fun n hn => ?_
  obtain ⟨d, hd, rfl⟩ := mem_map.1 hn
  exact h d (mem_of_mem_filter hd)

theorem tokensWhere_modify {details : List GeminiPromptTokensDetails} {index : ℕ}
    {d : GeminiPromptTokensDetails} (h : details[index]? = some d) (n : Int) :
    tokensWhere p (details.modify index fun d => { d with tokenCount := d.tokenCount + n }) =
      tokensWhere p details + if p (normalizeGeminiModality d.modality) = true then n else 0 := by
  induction details generalizing index with
  | nil => cases h
  | cons e details ih =>
    cases index with
    | zero =>
      obtain rfl : e = d := some.inj h
      rw [modify_zero_cons, tokensWhere_cons, tokensWhere_cons]
      dsimp only
      split_ifs <;> omega
    | succ index =>
      rw [modify_succ_cons, tokensWhere_cons, tokensWhere_cons, ih h, add_assoc]

/-- The indexes lead to details of their modality. -/
def DetailsMerge.Indexed (s : DetailsMerge) : Prop :=
  ∀ key index, s.indexes key = some index →
    ∃ d, s.merged[index]? = some d ∧ normalizeGeminiModality d.modality = key

theorem indexes_foldl (entries : List (GeminiPromptTokensDetails × ℕ)) {indexes : String → Option ℕ}
    {key : String} {index : ℕ}
    (h : entries.foldl (fun indexes e =>
      Function.update indexes (normalizeGeminiModality e.1.modality) (some e.2)) indexes key =
        some index) :
    indexes key = some index ∨
      ∃ e ∈ entries, e.2 = index ∧ normalizeGeminiModality e.1.modality = key := by
  induction entries generalizing indexes with
  | nil => exact .inl h
  | cons e entries ih =>
    rw [foldl_cons] at h
    rcases ih h with hupdate | ⟨e', he', hindex, hkey⟩
    · by_cases hkey : key = normalizeGeminiModality e.1.modality
      · rw [hkey, Function.update_self] at hupdate
        exact .inr ⟨e, mem_cons_self, some.inj hupdate, hkey.symm⟩
      · rw [Function.update_of_ne hkey] at hupdate
        exact .inl hupdate
    · exact .inr ⟨e', mem_cons_of_mem e he', hindex, hkey⟩

theorem indexed_start (details : List GeminiPromptTokensDetails) :
    DetailsMerge.Indexed { merged := details, indexes := indexesOf details } := by
  intro key index h
  rcases indexes_foldl _ h with hnone | ⟨e, he, rfl, hkey⟩
  · cases hnone
  · exact ⟨e.1, mem_zipIdx_iff_getElem?.1 he, hkey⟩

/-- **A step adds the tokens of its detail.** -/
theorem DetailsMerge.Indexed.step {s : DetailsMerge} (h : s.Indexed)
    (d : GeminiPromptTokensDetails) :
    (s.step d).Indexed ∧ tokensWhere p (s.step d).merged = tokensWhere p s.merged + added p d := by
  unfold DetailsMerge.step added
  by_cases hcount : d.tokenCount ≤ 0
  · rw [if_pos hcount, if_neg fun h => absurd h.1 (not_lt.2 hcount), add_zero]
    exact ⟨h, rfl⟩
  · have hpos : 0 < d.tokenCount := not_le.1 hcount
    rw [if_neg hcount]
    dsimp only
    cases hindex : s.indexes (normalizeGeminiModality d.modality) with
    | some index =>
      dsimp only
      obtain ⟨e, he, hkey⟩ := h _ _ hindex
      constructor
      · intro key index' hindex'
        obtain ⟨e', he', hkey'⟩ := h key index' hindex'
        rw [getElem?_modify, he']
        refine ⟨_, rfl, ?_⟩
        dsimp only
        by_cases hsame : index = index'
        · rw [if_pos hsame]
          exact hkey'
        · rw [if_neg hsame]
          exact hkey'
      · rw [tokensWhere_modify he, hkey]
        by_cases hp : p (normalizeGeminiModality d.modality) = true
        · rw [if_pos hp, if_pos ⟨hpos, hp⟩]
        · rw [if_neg hp, if_neg fun h => hp h.2]
    | none =>
      dsimp only
      constructor
      · intro key index' hindex'
        dsimp only at hindex'
        by_cases hkey : key = normalizeGeminiModality d.modality
        · rw [hkey, Function.update_self] at hindex'
          obtain rfl := some.inj hindex'
          exact ⟨d, getElem?_concat_length, hkey.symm⟩
        · rw [Function.update_of_ne hkey] at hindex'
          obtain ⟨e', he', hkey'⟩ := h key index' hindex'
          exact ⟨e', List.getElem?_append_left (List.getElem?_eq_some_iff.1 he').1 ▸ he', hkey'⟩
      · rw [tokensWhere_append, tokensWhere_cons, tokensWhere_nil, add_zero]
        by_cases hp : p (normalizeGeminiModality d.modality) = true
        · rw [if_pos hp, if_pos ⟨hpos, hp⟩]
        · rw [if_neg hp, if_neg fun h => hp h.2]

theorem tokensWhere_foldl (incoming : List GeminiPromptTokensDetails) {s : DetailsMerge}
    (h : s.Indexed) : tokensWhere p (incoming.foldl DetailsMerge.step s).merged =
      tokensWhere p s.merged + (incoming.map (added p)).sum := by
  induction incoming generalizing s with
  | nil => exact (add_zero _).symm
  | cons d incoming ih =>
    obtain ⟨hindexed, hstep⟩ := h.step d (p := p)
    rw [foldl_cons, ih hindexed, hstep, map_cons, sum_cons, add_assoc]

/-- **A merge adds up the tokens of modalities.** -/
theorem tokensWhere_merge (p : String → Bool) (current incoming : List GeminiPromptTokensDetails) :
    tokensWhere p (mergeGeminiTokenDetails current incoming) =
      tokensWhere p current + (incoming.map (added p)).sum :=
  tokensWhere_foldl incoming (indexed_start current)

theorem sum_added {details : List GeminiPromptTokensDetails} (h : NonNegativeDetails details) :
    (details.map (added p)).sum = tokensWhere p details := by
  induction details with
  | nil => rfl
  | cons d details ih =>
    have hd := h d mem_cons_self
    rw [map_cons, sum_cons, ih fun e he => h e (mem_cons_of_mem d he),
      tokensWhere_cons, added]
    by_cases hp : p (normalizeGeminiModality d.modality) = true
    · rw [if_pos hp]
      by_cases hpos : 0 < d.tokenCount
      · rw [if_pos ⟨hpos, hp⟩]
      · rw [if_neg fun h => hpos h.1]
        omega
    · rw [if_neg hp, if_neg fun h => hp h.2]

theorem merge_uncounted {current incoming : List GeminiPromptTokensDetails}
    (h : Uncounted incoming) : mergeGeminiTokenDetails current incoming = current := by
  unfold mergeGeminiTokenDetails
  generalize hs : ({ merged := current, indexes := indexesOf current } : DetailsMerge) = s
  have hfold : incoming.foldl DetailsMerge.step s = s := by
    clear hs
    induction incoming with
    | nil => rfl
    | cons d incoming ih =>
      rw [foldl_cons, DetailsMerge.step, if_pos (h d mem_cons_self)]
      exact ih fun e he => h e (mem_cons_of_mem d he)
  rw [hfold, ← hs]

/-- **A merge leaves the details iff the incoming ones count nothing.** -/
theorem merge_eq_self_iff {current incoming : List GeminiPromptTokensDetails} :
    mergeGeminiTokenDetails current incoming = current ↔ Uncounted incoming := by
  refine ⟨fun h d hd => ?_, merge_uncounted⟩
  have hsum := tokensWhere_merge (fun _ => true) current incoming
  rw [h] at hsum
  by_contra hpos
  have hnonneg : ∀ n ∈ incoming.map (added fun _ => true), 0 ≤ n := by
    intro n hn
    obtain ⟨e, -, rfl⟩ := mem_map.1 hn
    unfold added
    split_ifs <;> omega
  have hle := single_le_sum hnonneg _ (mem_map_of_mem hd)
  rw [added, if_pos ⟨by omega, rfl⟩] at hle
  omega

/-! ### The same snapshot again -/

/-- No detail of the metadata counts anything. -/
structure GeminiUsageMetadataOf.WithoutDetails (m : GeminiUsageMetadata) : Prop where
  prompt : Uncounted m.promptTokensDetails
  toolUse : Uncounted m.toolUsePromptTokensDetails
  candidates : Uncounted m.candidatesTokensDetails

/-- The total is at least the sum of the parts. -/
def GeminiUsageMetadataOf.Totalled (m : GeminiUsageMetadata) : Prop :=
  m.promptTokenCount + m.toolUsePromptTokenCount + m.candidatesTokenCount + m.thoughtsTokenCount ≤
    m.totalTokenCount

/-- The totals of the usage are at least the sums of its parts. -/
def UsageOf.Totalled (u : Usage) : Prop :=
  u.promptTokens + u.completionTokens ≤ u.totalTokens ∧
    u.inputTokens + u.outputTokens ≤ u.totalTokens

/-- The flat counts of the cache split are those of the sub-object, if there is one. -/
def ClaudeUsageOf.InStep (u : ClaudeUsage) : Prop :=
  ∀ split ∈ u.cacheCreation, u.claudeCacheCreation5mTokens = split.ephemeral5mInputTokens ∧
    u.claudeCacheCreation1hTokens = split.ephemeral1hInputTokens

/-- **A copy of the snapshot is what a merge into the copy leaves.**  Which payload is merged is
decided in this order. -/
def BillingUsage.Settled (b : BillingUsage) : Prop :=
  match b.openAIUsage, b.claudeUsage, b.geminiUsageMetadata with
  | some u, _, _ => u.Totalled
  | none, some u, _ => u.billingUsage = none ∧ u.InStep
  | none, none, some m => m.billingUsage = none ∧ m.Totalled ∧ m.WithoutDetails
  | none, none, none => True

/-- The payload that is merged into another snapshot is not one of modalities that count. -/
def BillingUsage.PlainInto (b c : BillingUsage) : Prop :=
  (c.openAIUsage.isSome = true ∧ b.openAIUsage.isSome = true) ∨
    (c.claudeUsage.isSome = true ∧ b.claudeUsage.isSome = true) ∨
      ∀ m ∈ b.geminiUsageMetadata, GeminiUsageMetadataOf.WithoutDetails m

variable (fold : Char → Char)

/-- What a second merge of a nested snapshot needs. -/
def RepeatsSidecar (current : Option BillingUsage) (b : BillingUsage) : Prop :=
  match current with
  | none => b.Settled
  | some c => if sameBillingUsageDialect fold c b = true then b.PlainInto c else b.Settled

/-- **When a second merge of a snapshot changes nothing**: no modality counts anything, the total of
a first snapshot is not below its parts, and a nested snapshot repeats. -/
structure Repeats (current : Option GeminiUsageMetadata) (incoming : GeminiUsageMetadata) :
    Prop where
  details : incoming.WithoutDetails
  total : current = none → incoming.Totalled
  sidecar : ∀ b ∈ incoming.billingUsage,
    RepeatsSidecar fold (current.bind (·.billingUsage)) b

variable {fold}

theorem mergeGeminiCounts_again_iff (current incoming : GeminiUsageMetadata) :
    mergeGeminiCounts (mergeGeminiCounts current incoming) incoming =
      mergeGeminiCounts current incoming ↔ incoming.WithoutDetails := by
  constructor
  · intro h
    exact ⟨merge_eq_self_iff.1 (congrArg GeminiUsageMetadataOf.promptTokensDetails h),
      merge_eq_self_iff.1 (congrArg GeminiUsageMetadataOf.toolUsePromptTokensDetails h),
      merge_eq_self_iff.1 (congrArg GeminiUsageMetadataOf.candidatesTokensDetails h)⟩
  · intro h
    have hthoughts : (if incoming.candidatesTokenCount > 0 then incoming.thoughtsTokenCount
        else overCount incoming.thoughtsTokenCount (if incoming.candidatesTokenCount > 0 then
          incoming.thoughtsTokenCount
        else overCount incoming.thoughtsTokenCount current.thoughtsTokenCount)) =
        if incoming.candidatesTokenCount > 0 then incoming.thoughtsTokenCount
        else overCount incoming.thoughtsTokenCount current.thoughtsTokenCount := by
      by_cases hcandidates : incoming.candidatesTokenCount > 0
      · simp only [if_pos hcandidates]
      · simp only [if_neg hcandidates, overCount_again]
    simp only [mergeGeminiCounts, overCount_again, hthoughts, raiseTo_again,
      merge_uncounted h.prompt, merge_uncounted h.toolUse, merge_uncounted h.candidates]

/-- A copy merged with what it is a copy of. -/
theorem mergeGeminiCounts_self_iff (m : GeminiUsageMetadata) :
    mergeGeminiCounts (cloneGeminiUsageMetadata m) m = cloneGeminiUsageMetadata m ↔
      m.Totalled ∧ m.WithoutDetails := by
  constructor
  · intro h
    have htotal := congrArg GeminiUsageMetadataOf.totalTokenCount h
    refine ⟨?_, merge_eq_self_iff.1 (congrArg GeminiUsageMetadataOf.promptTokensDetails h),
      merge_eq_self_iff.1 (congrArg GeminiUsageMetadataOf.toolUsePromptTokensDetails h),
      merge_eq_self_iff.1 (congrArg GeminiUsageMetadataOf.candidatesTokensDetails h)⟩
    simp only [mergeGeminiCounts, cloneGeminiUsageMetadata, overCount_self, ite_self,
      raiseTo_eq_iff] at htotal
    exact htotal
  · rintro ⟨htotal, h⟩
    have hraise := (raiseTo_eq_iff _ _).2 htotal
    simp only [mergeGeminiCounts, cloneGeminiUsageMetadata, overCount_self, ite_self, hraise,
      merge_uncounted h.prompt, merge_uncounted h.toolUse, merge_uncounted h.candidates]

theorem overText_self (text : String) : overText text text = text := by
  unfold overText
  split_ifs <;> rfl

theorem overText_again (reported text : String) :
    overText reported (overText reported text) = overText reported text := by
  unfold overText
  split_ifs <;> rfl

theorem mergeInputTokenDetails_self (d : InputTokenDetails) : mergeInputTokenDetails d d = d := by
  simp only [mergeInputTokenDetails, overCount_self]

theorem mergeInputTokenDetails_again (current incoming : InputTokenDetails) :
    mergeInputTokenDetails (mergeInputTokenDetails current incoming) incoming =
      mergeInputTokenDetails current incoming := by
  simp only [mergeInputTokenDetails, overCount_again]

theorem mergeInputTokensDetails_self (d : Option InputTokenDetails) :
    mergeInputTokensDetails d d = d := by
  cases d with
  | none => rfl
  | some d =>
    rw [mergeInputTokensDetails, getD_some, mergeInputTokenDetails_self, ite_self]

theorem mergeInputTokensDetails_again (current incoming : Option InputTokenDetails) :
    mergeInputTokensDetails (mergeInputTokensDetails current incoming) incoming =
      mergeInputTokensDetails current incoming := by
  cases incoming with
  | none => rfl
  | some d =>
    simp only [mergeInputTokensDetails]
    cases d.reports with
    | false => rfl
    | true => simp only [if_true, getD_some, mergeInputTokenDetails_again]

theorem mergeCost_self (cost : Option String) : mergeCost cost cost = cost := by
  cases cost with
  | none => rfl
  | some cost => rw [mergeCost, ite_self]

theorem mergeCost_again (current incoming : Option String) :
    mergeCost (mergeCost current incoming) incoming = mergeCost current incoming := by
  cases incoming with
  | none => rfl
  | some cost =>
    simp only [mergeCost]
    cases isZeroCost cost <;> rfl

theorem mergeOutputTokenDetails_self (d : OutputTokenDetails) :
    mergeOutputTokenDetails d d = d := by
  simp only [mergeOutputTokenDetails, overCount_self]

theorem mergeOutputTokenDetails_again (current incoming : OutputTokenDetails) :
    mergeOutputTokenDetails (mergeOutputTokenDetails current incoming) incoming =
      mergeOutputTokenDetails current incoming := by
  simp only [mergeOutputTokenDetails, overCount_again]

theorem raiseTo_twice_again (sum sum' reported total : Int) :
    raiseTo sum (raiseTo sum' (overCount reported
        (raiseTo sum (raiseTo sum' (overCount reported total))))) =
      raiseTo sum (raiseTo sum' (overCount reported total)) := by
  unfold raiseTo overCount
  split_ifs <;> omega

/-- **A second merge of a usage changes nothing.** -/
theorem mergeUsageCounts_again (current incoming : Usage) :
    mergeUsageCounts (mergeUsageCounts current incoming) incoming =
      mergeUsageCounts current incoming := by
  simp only [mergeUsageCounts, overCount_again, overText_again, raiseTo_twice_again,
    mergeInputTokenDetails_again, mergeOutputTokenDetails_again, mergeInputTokensDetails_again,
    mergeCost_again]

theorem mergeUsageCounts_self_iff (u : Usage) : mergeUsageCounts u u = u ↔ u.Totalled := by
  have htotal : raiseTo (u.inputTokens + u.outputTokens)
      (raiseTo (u.promptTokens + u.completionTokens) u.totalTokens) = u.totalTokens ↔
        u.Totalled := by
    unfold raiseTo UsageOf.Totalled
    split_ifs <;> omega
  rw [← htotal]
  simp only [mergeUsageCounts, overCount_self, overText_self, mergeInputTokenDetails_self,
    mergeOutputTokenDetails_self, mergeInputTokensDetails_self, mergeCost_self]
  exact ⟨congrArg UsageOf.totalTokens, fun h => by rw [h]⟩

theorem mergeServerToolUse_self (use : Option ClaudeServerToolUse) :
    mergeServerToolUse use use = use := by
  cases use with
  | none => rfl
  | some use => simp only [mergeServerToolUse, getD_some, overCount_self]

theorem mergeServerToolUse_again (current incoming : Option ClaudeServerToolUse) :
    mergeServerToolUse (mergeServerToolUse current incoming) incoming =
      mergeServerToolUse current incoming := by
  cases incoming with
  | none => rfl
  | some use => simp only [mergeServerToolUse, getD_some, overCount_again]

theorem flatSplit_again (ofObject : ClaudeCacheCreationUsage → Int)
    (object : Option ClaudeCacheCreationUsage) (reported flat : Int) :
    flatSplit ofObject object reported (flatSplit ofObject object reported flat) =
      flatSplit ofObject object reported flat := by
  cases object with
  | none => exact overCount_again reported flat
  | some split => rfl

/-- **So does one of a usage of Claude's**, where the copy has lost its nested snapshot. -/
theorem mergeClaude_again {current : ClaudeUsage} (h : current.billingUsage = none)
    (incoming : ClaudeUsage) :
    mergeClaudeUsageNonZero
        (some (cloneClaudeUsage (mergeClaudeUsageNonZero (some current) (some incoming))))
        (some incoming) =
      mergeClaudeUsageNonZero (some current) (some incoming) := by
  have hor : incoming.cacheCreation.or
      (incoming.cacheCreation.or current.cacheCreation) =
        incoming.cacheCreation.or current.cacheCreation := by
    cases incoming.cacheCreation <;> rfl
  simp only [mergeClaudeUsageNonZero, cloneClaudeUsage, map_some, getD_some,
    bind_some, overCount_again, mergeServerToolUse_again, flatSplit_again, hor, h,
    map_none]

theorem flatSplit_self_iff (ofObject : ClaudeCacheCreationUsage → Int)
    (object : Option ClaudeCacheCreationUsage) (flat : Int) :
    flatSplit ofObject object flat flat = flat ↔ ∀ split ∈ object, flat = ofObject split := by
  cases object with
  | none =>
    exact ⟨fun _ split h => absurd h (not_mem_none split), fun _ => overCount_self flat⟩
  | some split =>
    constructor
    · intro h split' hsplit'
      obtain rfl : split = split' := some.inj hsplit'
      exact h.symm
    · intro h
      exact (h split rfl).symm

theorem mergeClaude_self_iff (u : ClaudeUsage) :
    mergeClaudeUsageNonZero (some (cloneClaudeUsage u)) (some u) = cloneClaudeUsage u ↔
      u.billingUsage = none ∧ u.InStep := by
  have hor : u.cacheCreation.or u.cacheCreation = u.cacheCreation := by
    cases u.cacheCreation <;> rfl
  have h5m := flatSplit_self_iff (·.ephemeral5mInputTokens) u.cacheCreation
    u.claudeCacheCreation5mTokens
  have h1h := flatSplit_self_iff (·.ephemeral1hInputTokens) u.cacheCreation
    u.claudeCacheCreation1hTokens
  simp only [mergeClaudeUsageNonZero, cloneClaudeUsage, map_some, getD_some,
    bind_some, overCount_self, mergeServerToolUse_self, hor, map_none,
    or_none]
  constructor
  · intro h
    have hsidecar : u.billingUsage.map (·.clone) = none :=
      congrArg ClaudeUsageOf.billingUsage h
    have hflat5m := h5m.1 (congrArg ClaudeUsageOf.claudeCacheCreation5mTokens h)
    have hflat1h := h1h.1 (congrArg ClaudeUsageOf.claudeCacheCreation1hTokens h)
    exact ⟨map_eq_none_iff.1 hsidecar,
      fun split hsplit => ⟨hflat5m split hsplit, hflat1h split hsplit⟩⟩
  · rintro ⟨hsidecar, hstep⟩
    rw [hsidecar, h5m.2 fun split hsplit => (hstep split hsplit).1,
      h1h.2 fun split hsplit => (hstep split hsplit).2]
    rfl

/-! ### Nested snapshots again -/

variable {b c : BillingUsage}

theorem foldEqual_self (s : String) : foldEqual fold s s = true := beq_self_eq_true _

/-- Whether the dialect is the same is decided by labels and payloads. -/
theorem same_congr (c c' : BillingUsage) (hsource : c'.source = c.source)
    (hsemantic : c'.semantic = c.semantic)
    (hopenAI : c'.openAIUsage.isSome = c.openAIUsage.isSome)
    (hclaude : c'.claudeUsage.isSome = c.claudeUsage.isSome)
    (hgemini : c'.geminiUsageMetadata.isSome = c.geminiUsageMetadata.isSome) (b : BillingUsage) :
    sameBillingUsageDialect fold c' b = sameBillingUsageDialect fold c b := by
  unfold sameBillingUsageDialect
  rw [hsource, hsemantic, hopenAI, hclaude, hgemini]

theorem same_clone (c b : BillingUsage) :
    sameBillingUsageDialect fold c.clone b = sameBillingUsageDialect fold c b :=
  same_congr c c.clone rfl rfl (isSome_map ..) (isSome_map ..)
    (isSome_map ..) b

/-- A snapshot with the labels of the incoming one has its dialect, if that has a payload. -/
theorem same_self (hpayload : b.openAIUsage.isSome = true ∨ b.claudeUsage.isSome = true ∨
    b.geminiUsageMetadata.isSome = true) : sameBillingUsageDialect fold b b = true := by
  unfold sameBillingUsageDialect
  rw [if_neg fun h => h.2.2 (foldEqual_self _), if_neg fun h => h.2.2 (foldEqual_self _)]
  rcases hpayload with h | h | h <;> simp [h]

theorem same_none (hopenAI : b.openAIUsage = none) (hclaude : b.claudeUsage = none)
    (hgemini : b.geminiUsageMetadata = none) (c : BillingUsage) :
    sameBillingUsageDialect fold c b = false := by
  unfold sameBillingUsageDialect
  split_ifs <;> simp [hopenAI, hclaude, hgemini]

/-- The copy that takes the place of a snapshot. -/
def replacing (estimated : Bool) (b : BillingUsage) : BillingUsage :=
  { b.clone with estimated := estimated || b.estimated }

theorem replacing_labels (estimated : Bool) (b : BillingUsage) :
    mergeLabels (replacing estimated b) b = replacing estimated b := by
  have hcopy : (replacing estimated b).clone = replacing estimated b := by
    unfold replacing BillingUsage.clone
    simp only [Option.map_map]
    rfl
  unfold mergeLabels
  rw [hcopy]
  simp only [replacing, BillingUsage.clone_source, BillingUsage.clone_semantic, overText_self,
    Bool.or_assoc, Bool.or_self]

theorem same_replacing (estimated : Bool) (b : BillingUsage) :
    sameBillingUsageDialect fold (replacing estimated b) b = sameBillingUsageDialect fold b b :=
  same_congr b (replacing estimated b) rfl rfl (isSome_map ..) (isSome_map ..)
    (isSome_map ..) b

/-- **A copy merged with its snapshot stays iff the snapshot is settled.** -/
theorem merge_replacing_iff (fold : Char → Char) (estimated : Bool) (b : BillingUsage) :
    mergeBillingUsageNonZero fold (some (replacing estimated b)) b = replacing estimated b ↔
      b.Settled := by
  have hsame : sameBillingUsageDialect fold (replacing estimated b) b =
    sameBillingUsageDialect fold b b := same_replacing estimated b
  have hopenAI : (replacing estimated b).openAIUsage = b.openAIUsage.map cloneOpenAIUsage := rfl
  have hclaude : (replacing estimated b).claudeUsage = b.claudeUsage.map cloneClaudeUsage := rfl
  have hgemini : (replacing estimated b).geminiUsageMetadata =
    b.geminiUsageMetadata.map cloneGeminiUsageMetadata := rfl
  unfold BillingUsage.Settled
  cases hu : b.openAIUsage with
  | some u =>
    rw [same_self (.inl (by rw [hu]; rfl))] at hsame
    rw [hu, map_some] at hopenAI
    rw [mergeBilling_openAI hsame hopenAI hu, replacing_labels]
    have hself := mergeUsageCounts_self_iff (cloneOpenAIUsage u)
    change _ ↔ (cloneOpenAIUsage u).Totalled
    rw [← hself]
    constructor
    · intro h
      have hpayload := congrArg BillingUsage.openAIUsage h
      rw [hopenAI] at hpayload
      exact some.inj hpayload
    · intro h
      have hcopy : cloneOpenAIUsage (cloneOpenAIUsage u) = cloneOpenAIUsage u := rfl
      rw [hcopy, h, ← hopenAI]
      rfl
  | none =>
    rw [hu, map_none] at hopenAI
    cases hv : b.claudeUsage with
    | some v =>
      rw [same_self (.inr (.inl (by rw [hv]; rfl)))] at hsame
      rw [hv, map_some] at hclaude
      rw [mergeBilling_claude hsame (.inr hu) hclaude hv, replacing_labels]
      have hself := mergeClaude_self_iff v
      change _ ↔ v.billingUsage = none ∧ v.InStep
      rw [← hself]
      constructor
      · intro h
        have hpayload := congrArg BillingUsage.claudeUsage h
        rw [hclaude] at hpayload
        exact some.inj hpayload
      · intro h
        rw [h, ← hclaude]
        rfl
    | none =>
      rw [hv, map_none] at hclaude
      cases hm : b.geminiUsageMetadata with
      | none =>
        rw [mergeBilling_replaced (same_none hu hv hm (replacing estimated b))]
        refine ⟨fun _ => trivial, fun _ => ?_⟩
        simp only [replacing, Bool.or_assoc, Bool.or_self]
      | some m =>
        rw [same_self (.inr (.inr (by rw [hm]; rfl)))] at hsame
        rw [hm, map_some] at hgemini
        rw [mergeBilling_gemini hsame (.inr hu) (.inr hv), replacing_labels, hgemini, hm]
        have hself := mergeGeminiCounts_self_iff m
        change _ ↔ m.billingUsage = none ∧ m.Totalled ∧ m.WithoutDetails
        rw [← hself, mergeGeminiPayload, mergeGeminiMetadata_eq]
        have hnone : (cloneGeminiUsageMetadata m).billingUsage.map (·.clone) = none := rfl
        rw [hnone]
        constructor
        · intro h
          have hpayload := congrArg BillingUsage.geminiUsageMetadata h
          rw [hgemini] at hpayload
          have hcopy := some.inj hpayload
          have hsidecar := congrArg GeminiUsageMetadataOf.billingUsage hcopy
          change mergeSidecar fold none m.billingUsage = none at hsidecar
          cases hnested : m.billingUsage with
          | some nested =>
            rw [hnested, mergeSidecar_some] at hsidecar
            cases hsidecar
          | none =>
            rw [hnested, mergeSidecar_none] at hcopy
            exact ⟨rfl, hcopy⟩
        · rintro ⟨hnested, hcounts⟩
          rw [hnested, mergeSidecar_none, hcounts]
          change ({ replacing estimated b with
            geminiUsageMetadata := some (cloneGeminiUsageMetadata m) } : BillingUsage) = _
          rw [← hgemini]
          rfl

/-- The merged snapshot has the payloads of the one before it, and its labels are those of the
incoming one where that has any. -/
theorem same_merged {merged : BillingUsage} (h : sameBillingUsageDialect fold c b = true)
    (hsource : merged.source = overText b.source c.source)
    (hsemantic : merged.semantic = overText b.semantic c.semantic)
    (hopenAI : merged.openAIUsage.isSome = c.openAIUsage.isSome)
    (hclaude : merged.claudeUsage.isSome = c.claudeUsage.isSome)
    (hgemini : merged.geminiUsageMetadata.isSome = c.geminiUsageMetadata.isSome) :
    sameBillingUsageDialect fold merged b = true := by
  have hlabel : ∀ reported text : String, ¬(overText reported text ≠ "" ∧ reported ≠ "" ∧
      ¬foldEqual fold (overText reported text) reported = true) := by
    rintro reported text ⟨-, hreported, hdiffers⟩
    rw [overText, if_pos hreported] at hdiffers
    exact hdiffers (foldEqual_self reported)
  unfold sameBillingUsageDialect at h ⊢
  rw [hsource, hsemantic, hopenAI, hclaude, hgemini, if_neg (hlabel _ _), if_neg (hlabel _ _)]
  split_ifs at h
  exact h

theorem mergeLabels_again {merged : BillingUsage} (hcopy : merged.clone = merged)
    (hsource : merged.source = overText b.source c.source)
    (hsemantic : merged.semantic = overText b.semantic c.semantic)
    (hestimated : merged.estimated = (c.estimated || b.estimated)) :
    mergeLabels merged b = merged := by
  unfold mergeLabels
  rw [hcopy, hsource, overText_again, hsemantic, overText_again, hestimated, Bool.or_assoc,
    Bool.or_self, ← hsource, ← hsemantic, ← hestimated]
  cases merged
  rfl

theorem map_clone_clone (u : Option Usage) :
    (u.map cloneOpenAIUsage).map cloneOpenAIUsage = u.map cloneOpenAIUsage := by
  cases u <;> rfl

theorem map_cloneClaude_clone (u : Option ClaudeUsage) :
    (u.map cloneClaudeUsage).map cloneClaudeUsage = u.map cloneClaudeUsage := by
  cases u <;> rfl

theorem map_cloneGemini_clone (m : Option GeminiUsageMetadata) :
    (m.map cloneGeminiUsageMetadata).map cloneGeminiUsageMetadata =
      m.map cloneGeminiUsageMetadata := by
  cases m <;> rfl

/-- A merge keeps the payloads that are not merged, and the labels merge again. -/
structure MergedCopy (fold : Char → Char) (c b merged : BillingUsage) : Prop where
  same : sameBillingUsageDialect fold merged.clone b = true
  labels : mergeLabels merged.clone b = merged.clone

theorem mergedCopy {merged : BillingUsage} (h : sameBillingUsageDialect fold c b = true)
    (hsource : merged.source = overText b.source c.source)
    (hsemantic : merged.semantic = overText b.semantic c.semantic)
    (hestimated : merged.estimated = (c.estimated || b.estimated))
    (hopenAI : merged.openAIUsage.isSome = c.openAIUsage.isSome)
    (hclaude : merged.claudeUsage.isSome = c.claudeUsage.isSome)
    (hgemini : merged.geminiUsageMetadata.isSome = c.geminiUsageMetadata.isSome) :
    MergedCopy fold c b merged where
  same := (same_clone merged b).trans
    (same_merged h hsource hsemantic hopenAI hclaude hgemini)
  labels := mergeLabels_again merged.clone_clone hsource hsemantic hestimated

/-- A copy of a copy has a payload where the original has one. -/
theorem isSome_map_map {α : Type} (f : α → α) (x : Option α) :
    ((x.map f).map f).isSome = x.isSome :=
  (isSome_map ..).trans (isSome_map ..)

section

variable (h : sameBillingUsageDialect fold c b = true)
include h

/-- **A copy merged twice with a usage of OpenAI's is what it is merged once.** -/
theorem merge_twice_openAI {u u' : Usage}
    (hc : c.openAIUsage = some u) (hb : b.openAIUsage = some u') :
    mergeBillingUsageNonZero fold (some (mergeBillingUsageNonZero fold (some c.clone) b).clone) b =
      mergeBillingUsageNonZero fold (some c.clone) b := by
  have hcopy : c.clone.openAIUsage = some (cloneOpenAIUsage u) := by
    rw [BillingUsage.clone, hc]
    rfl
  have hfirst := mergeBilling_openAI ((same_clone c b).trans h) hcopy hb
  have hmerged : MergedCopy fold c b (mergeBillingUsageNonZero fold (some c.clone) b) := by
    rw [hfirst]
    refine mergedCopy h rfl rfl rfl ?_ (isSome_map_map ..) (isSome_map_map ..)
    rw [hc]
    rfl
  have hpayload : (mergeBillingUsageNonZero fold (some c.clone) b).clone.openAIUsage =
      some (mergeUsageCounts (cloneOpenAIUsage u) (cloneOpenAIUsage u')) := by
    rw [hfirst]
    rfl
  have hagain : mergeUsageCounts (cloneOpenAIUsage (mergeUsageCounts (cloneOpenAIUsage u)
      (cloneOpenAIUsage u'))) (cloneOpenAIUsage u') =
        mergeUsageCounts (cloneOpenAIUsage u) (cloneOpenAIUsage u') :=
    mergeUsageCounts_again (cloneOpenAIUsage u) (cloneOpenAIUsage u')
  rw [mergeBilling_openAI hmerged.same hpayload hb, hmerged.labels, hagain, hfirst]
  simp only [BillingUsage.clone, mergeLabels, map_clone_clone, map_cloneClaude_clone,
    map_cloneGemini_clone]
  rfl

/-- **So is one merged twice with a usage of Claude's.** -/
theorem merge_twice_claude
    (hopenAI : c.openAIUsage = none ∨ b.openAIUsage = none) {v v' : ClaudeUsage}
    (hc : c.claudeUsage = some v) (hb : b.claudeUsage = some v') :
    mergeBillingUsageNonZero fold (some (mergeBillingUsageNonZero fold (some c.clone) b).clone) b =
      mergeBillingUsageNonZero fold (some c.clone) b := by
  have hcopy : c.clone.claudeUsage = some (cloneClaudeUsage v) := by
    rw [BillingUsage.clone, hc]
    rfl
  have hnone : c.clone.openAIUsage = none ∨ b.openAIUsage = none :=
    hopenAI.imp_left map_eq_none_iff.2
  have hfirst := mergeBilling_claude ((same_clone c b).trans h) hnone hcopy hb
  have hmerged : MergedCopy fold c b (mergeBillingUsageNonZero fold (some c.clone) b) := by
    rw [hfirst]
    refine mergedCopy h rfl rfl rfl (isSome_map_map ..) ?_ (isSome_map_map ..)
    rw [hc]
    rfl
  have hpayload : (mergeBillingUsageNonZero fold (some c.clone) b).clone.claudeUsage =
      some (cloneClaudeUsage (mergeClaudeUsageNonZero (some (cloneClaudeUsage v)) (some v'))) := by
    rw [hfirst]
    rfl
  have hnone' : (mergeBillingUsageNonZero fold (some c.clone) b).clone.openAIUsage = none ∨
      b.openAIUsage = none := by
    rw [hfirst]
    exact hopenAI.imp_left fun hc => by simp [BillingUsage.clone, mergeLabels, hc]
  rw [mergeBilling_claude hmerged.same hnone' hpayload hb, hmerged.labels,
    mergeClaude_again rfl, hfirst]
  simp only [BillingUsage.clone, mergeLabels, map_clone_clone, map_cloneClaude_clone,
    map_cloneGemini_clone]

/-- **One merged twice with a usage of Gemini's is so iff that counts no modality.** -/
theorem merge_twice_gemini_iff (hopenAI : c.openAIUsage = none ∨ b.openAIUsage = none)
    (hclaude : c.claudeUsage = none ∨ b.claudeUsage = none) {m m' : GeminiUsageMetadata}
    (hc : c.geminiUsageMetadata = some m) (hb : b.geminiUsageMetadata = some m') :
    mergeBillingUsageNonZero fold (some (mergeBillingUsageNonZero fold (some c.clone) b).clone) b =
      mergeBillingUsageNonZero fold (some c.clone) b ↔ m'.WithoutDetails := by
  have hcopy : c.clone.geminiUsageMetadata = some (cloneGeminiUsageMetadata m) := by
    rw [BillingUsage.clone, hc]
    rfl
  have hnone : c.clone.openAIUsage = none ∨ b.openAIUsage = none :=
    hopenAI.imp_left map_eq_none_iff.2
  have hnoClaude : c.clone.claudeUsage = none ∨ b.claudeUsage = none :=
    hclaude.imp_left map_eq_none_iff.2
  have hfirst := mergeBilling_gemini ((same_clone c b).trans h) hnone hnoClaude
  rw [hcopy, hb, mergeGeminiPayload, mergeGeminiMetadata_eq] at hfirst
  dsimp only at hfirst
  have hmerged : MergedCopy fold c b (mergeBillingUsageNonZero fold (some c.clone) b) := by
    rw [hfirst]
    refine mergedCopy h rfl rfl rfl (isSome_map_map ..) (isSome_map_map ..) ?_
    rw [hc]
    rfl
  have hnone' : (mergeBillingUsageNonZero fold (some c.clone) b).clone.openAIUsage = none ∨
      b.openAIUsage = none := by
    rw [hfirst]
    exact hopenAI.imp_left fun hc => by simp [BillingUsage.clone, mergeLabels, hc]
  have hnoClaude' : (mergeBillingUsageNonZero fold (some c.clone) b).clone.claudeUsage = none ∨
      b.claudeUsage = none := by
    rw [hfirst]
    exact hclaude.imp_left fun hc => by simp [BillingUsage.clone, mergeLabels, hc]
  have hpayload : (mergeBillingUsageNonZero fold (some c.clone) b).clone.geminiUsageMetadata =
      some (mergeGeminiCounts (cloneGeminiUsageMetadata m) m') := by
    rw [hfirst]
    rfl
  rw [mergeBilling_gemini hmerged.same hnone' hnoClaude', hmerged.labels, hpayload, hb,
    mergeGeminiPayload, mergeGeminiMetadata_eq, ← mergeGeminiCounts_again_iff
      (cloneGeminiUsageMetadata m) m']
  dsimp only
  constructor
  · intro hagain
    have hgemini := congrArg BillingUsage.geminiUsageMetadata hagain
    rw [hfirst] at hgemini
    -- the counts are the copies of both sides
    exact congrArg cloneGeminiUsageMetadata (some.inj hgemini)
  · intro hagain
    rw [hagain, hfirst]
    simp only [BillingUsage.clone, mergeLabels, map_clone_clone, map_cloneClaude_clone]
    rfl

end

/-- **A second merge of a nested snapshot changes nothing iff it repeats.** -/
theorem mergeSidecar_again_iff (current : Option BillingUsage) (b : BillingUsage) :
    mergeSidecar fold ((mergeSidecar fold (current.map (·.clone)) (some b)).map (·.clone))
        (some b) = mergeSidecar fold (current.map (·.clone)) (some b) ↔
      RepeatsSidecar fold current b := by
  simp only [mergeSidecar_some, map_some, Option.some.injEq]
  cases current with
  | none =>
    have hcopy : replacing false b = b.clone := by
      simp only [replacing, Bool.false_or]
      rfl
    have hreplacing := merge_replacing_iff fold false b
    rw [hcopy] at hreplacing
    rw [map_none, mergeBilling_none, BillingUsage.clone_clone]
    exact hreplacing
  | some c =>
    rw [map_some]
    simp only [RepeatsSidecar]
    cases hsame : sameBillingUsageDialect fold c b with
    | false =>
      have hcopy : (replacing c.estimated b).clone = replacing c.estimated b := by
        simp only [replacing, BillingUsage.clone, map_clone_clone, map_cloneClaude_clone,
          map_cloneGemini_clone]
      have hfirst : mergeBillingUsageNonZero fold (some c.clone) b = replacing c.estimated b :=
        mergeBilling_replaced ((same_clone c b).trans hsame)
      rw [hfirst, hcopy, if_neg Bool.false_ne_true]
      exact merge_replacing_iff fold c.estimated b
    | true =>
      rw [if_pos rfl]
      by_cases hopenAI : c.openAIUsage.isSome = true ∧ b.openAIUsage.isSome = true
      · obtain ⟨u, hu⟩ := isSome_iff_exists.1 hopenAI.1
        obtain ⟨u', hu'⟩ := isSome_iff_exists.1 hopenAI.2
        exact ⟨fun _ => .inl hopenAI, fun _ => merge_twice_openAI hsame hu hu'⟩
      · have hnone : c.openAIUsage = none ∨ b.openAIUsage = none := by
          simpa only [← not_isSome_iff_eq_none, ← not_and_or] using hopenAI
        by_cases hclaude : c.claudeUsage.isSome = true ∧ b.claudeUsage.isSome = true
        · obtain ⟨v, hv⟩ := isSome_iff_exists.1 hclaude.1
          obtain ⟨v', hv'⟩ := isSome_iff_exists.1 hclaude.2
          exact ⟨fun _ => .inr (.inl hclaude), fun _ => merge_twice_claude hsame hnone hv hv'⟩
        · have hnoClaude : c.claudeUsage = none ∨ b.claudeUsage = none := by
            simpa only [← not_isSome_iff_eq_none, ← not_and_or] using hclaude
          obtain ⟨hm, hm'⟩ : c.geminiUsageMetadata.isSome = true ∧
              b.geminiUsageMetadata.isSome = true := by
            unfold sameBillingUsageDialect at hsame
            split_ifs at hsame
            simpa only [Bool.or_eq_true, Bool.and_eq_true, hopenAI, hclaude, false_or] using hsame
          obtain ⟨m, hm⟩ := isSome_iff_exists.1 hm
          obtain ⟨m', hm'⟩ := isSome_iff_exists.1 hm'
          rw [merge_twice_gemini_iff hsame hnone hnoClaude hm hm']
          unfold BillingUsage.PlainInto
          rw [hm']
          constructor
          · intro h
            refine .inr (.inr fun m'' hm'' => ?_)
            obtain rfl : m' = m'' := some.inj hm''
            exact h
          · rintro (h | h | h)
            · exact absurd h hopenAI
            · exact absurd h hclaude
            · exact h m' rfl

/-! ### A metadata again -/

/-- Metadata with a nested snapshot. -/
def withSidecar (m : GeminiUsageMetadata) (sidecar : Option BillingUsage) : GeminiUsageMetadata :=
  { m with billingUsage := sidecar }

theorem withSidecar_inj (m m' : GeminiUsageMetadata) (hm : m.billingUsage = none)
    (hm' : m'.billingUsage = none) (sidecar sidecar' : Option BillingUsage) :
    withSidecar m sidecar = withSidecar m' sidecar' ↔ m = m' ∧ sidecar = sidecar' := by
  constructor
  · intro h
    have hcounts := congrArg cloneGeminiUsageMetadata h
    have hsidecar : sidecar = sidecar' := congrArg GeminiUsageMetadataOf.billingUsage h
    refine ⟨?_, hsidecar⟩
    have hclone : ∀ (m : GeminiUsageMetadata) sidecar, m.billingUsage = none →
        cloneGeminiUsageMetadata (withSidecar m sidecar) = m := by
      intro m sidecar hm
      rw [withSidecar, cloneGeminiUsageMetadata, ← hm]
    rwa [hclone m sidecar hm, hclone m' sidecar' hm'] at hcounts
  · rintro ⟨rfl, rfl⟩
    rfl

theorem map_clone_map (sidecar : Option BillingUsage) :
    (sidecar.map (·.clone)).map (·.clone) = sidecar.map (·.clone) := by
  cases sidecar with
  | none => rfl
  | some b => simp only [map_some, BillingUsage.clone_clone]

/-- What a second merge of the nested snapshot needs, if there is any. -/
theorem mergeSidecar_again_iff_forall (fold : Char → Char)
    (current incoming : Option BillingUsage) :
    mergeSidecar fold ((mergeSidecar fold (current.map (·.clone)) incoming).map (·.clone))
        incoming = mergeSidecar fold (current.map (·.clone)) incoming ↔
      ∀ b ∈ incoming, RepeatsSidecar fold current b := by
  cases incoming with
  | none =>
    rw [mergeSidecar_none, mergeSidecar_none, map_clone_map]
    exact ⟨fun _ b hb => absurd hb (not_mem_none b), fun _ => rfl⟩
  | some b =>
    rw [mergeSidecar_again_iff]
    exact ⟨fun h b' hb' => some.inj hb' ▸ h, fun h => h b rfl⟩

/-- **A second merge of a snapshot changes nothing iff it repeats.** -/
theorem merge_again_iff (fold : Char → Char) (current : Option GeminiUsageMetadata)
    (incoming : GeminiUsageMetadata) :
    mergeGeminiUsageMetadataNonZero fold
        (mergeGeminiUsageMetadataNonZero fold current (some incoming)) (some incoming) =
      mergeGeminiUsageMetadataNonZero fold current (some incoming) ↔
        Repeats fold current incoming := by
  have hsidecar := mergeSidecar_again_iff_forall fold
    (current.bind (·.billingUsage)) incoming.billingUsage
  cases current with
  | none =>
    have hnested : mergeSidecar fold none incoming.billingUsage =
        incoming.billingUsage.map (·.clone) := by
      cases incoming.billingUsage with
      | none => exact mergeSidecar_none none
      | some b => rw [mergeSidecar_some, mergeBilling_none, map_some]
    rw [bind_none, map_none, hnested, map_clone_map] at hsidecar
    simp only [mergeGeminiUsageMetadataNonZero, mergeGeminiMetadata_eq, map_clone_map]
    rw [Option.some.injEq]
    refine (withSidecar_inj (mergeGeminiCounts (cloneGeminiUsageMetadata incoming) incoming)
      (cloneGeminiUsageMetadata incoming) rfl rfl _ _).trans ?_
    rw [mergeGeminiCounts_self_iff, hsidecar]
    exact ⟨fun h => ⟨h.1.2, fun _ => h.1.1, h.2⟩, fun h => ⟨⟨h.total rfl, h.details⟩, h.sidecar⟩⟩
  | some c =>
    simp only [mergeGeminiUsageMetadataNonZero, mergeGeminiMetadata_eq]
    rw [Option.some.injEq]
    refine (withSidecar_inj (mergeGeminiCounts (mergeGeminiCounts c incoming) incoming)
      (mergeGeminiCounts c incoming) rfl rfl _ _).trans ?_
    rw [mergeGeminiCounts_again_iff]
    rw [bind_some] at hsidecar
    rw [hsidecar]
    exact ⟨fun h => ⟨h.1, fun h => (by cases h), h.2⟩, fun h => ⟨h.details, h.sidecar⟩⟩

/-! ### Streams -/

/-- The parts of the usage whose tokens are counted by modality. -/
inductive Side
  | prompt
  | toolUse
  | candidates

def Side.count : Side → GeminiUsageMetadata → Int
  | .prompt, m => m.promptTokenCount
  | .toolUse, m => m.toolUsePromptTokenCount
  | .candidates, m => m.candidatesTokenCount

def Side.details : Side → GeminiUsageMetadata → List GeminiPromptTokensDetails
  | .prompt, m => m.promptTokensDetails
  | .toolUse, m => m.toolUsePromptTokensDetails
  | .candidates, m => m.candidatesTokensDetails

/-- The snapshots of a stream merged. -/
def streamed (fold : Char → Char) (snapshots : List GeminiUsageMetadata) :
    Option GeminiUsageMetadata :=
  snapshots.foldl (fun merged m => mergeGeminiUsageMetadataNonZero fold merged (some m)) none

/-- The counts of the snapshots are not negative, and that of the part does not fall. -/
structure Cumulative (side : Side) (snapshots : List GeminiUsageMetadata) : Prop where
  nonNegative : ∀ m ∈ snapshots, m.NonNegative
  rising : snapshots.Pairwise fun m m' => side.count m ≤ side.count m'

variable {side : Side}

theorem NonNegative.count {m : GeminiUsageMetadata} (h : m.NonNegative) (side : Side) :
    0 ≤ side.count m := by
  cases side with
  | prompt => exact h.prompt
  | toolUse => exact h.toolUse
  | candidates => exact h.candidates

theorem NonNegative.details {m : GeminiUsageMetadata} (h : m.NonNegative) (side : Side) :
    NonNegativeDetails (side.details m) := by
  cases side with
  | prompt => exact h.promptDetails
  | toolUse => exact h.toolUseDetails
  | candidates => exact h.candidatesDetails

theorem count_merge (side : Side) (current incoming : GeminiUsageMetadata) :
    side.count (mergeGeminiMetadata fold current incoming) =
      overCount (side.count incoming) (side.count current) := by
  rw [mergeGeminiMetadata_eq]
  cases side <;> rfl

theorem details_merge (side : Side) (current incoming : GeminiUsageMetadata) :
    side.details (mergeGeminiMetadata fold current incoming) =
      mergeGeminiTokenDetails (side.details current) (side.details incoming) := by
  rw [mergeGeminiMetadata_eq]
  cases side <;> rfl

/-- **A merged stream**: its count is that of the last snapshot, and the tokens of modalities are
those of all snapshots together. -/
theorem streamed_concat (fold : Char → Char) {earlier : List GeminiUsageMetadata}
    {last : GeminiUsageMetadata} (h : Cumulative side (earlier ++ [last])) :
    ∃ merged, streamed fold (earlier ++ [last]) = some merged ∧
      side.count merged = side.count last ∧
      ∀ p, tokensWhere p (side.details merged) =
        ((earlier ++ [last]).map fun m => tokensWhere p (side.details m)).sum := by
  induction earlier using List.reverseRecOn generalizing last with
  | nil =>
    refine ⟨{ cloneGeminiUsageMetadata last with
      billingUsage := last.billingUsage.map (·.clone) }, rfl, ?_, fun p => ?_⟩
    · cases side <;> rfl
    · rw [nil_append, map_singleton, sum_singleton]
      cases side <;> rfl
  | append_singleton earlier previous ih =>
    have hearlier : Cumulative side (earlier ++ [previous]) :=
      ⟨fun m hm => h.nonNegative m (mem_append_left _ hm),
        (pairwise_append.1 h.rising).1⟩
    obtain ⟨merged, hmerged, hcount, htokens⟩ := ih hearlier
    have hlast : last.NonNegative :=
      h.nonNegative last (mem_append_right _ mem_cons_self)
    have hprevious : 0 ≤ side.count previous :=
      NonNegative.count (hearlier.nonNegative previous
        (mem_append_right _ mem_cons_self)) side
    have hrise : side.count previous ≤ side.count last :=
      (pairwise_append.1 h.rising).2.2 previous
        (mem_append_right _ mem_cons_self) last mem_cons_self
    refine ⟨mergeGeminiMetadata fold merged last, ?_, ?_, fun p => ?_⟩
    · -- the last snapshot is merged into what the earlier ones leave
      unfold streamed at hmerged ⊢
      rw [foldl_append, hmerged]
      rfl
    · rw [count_merge, hcount]
      unfold overCount
      split_ifs <;> omega
    · rw [details_merge, tokensWhere_merge, htokens p, sum_added (NonNegative.details hlast side)]
      simp only [map_append, sum_append, map_singleton, sum_singleton]

theorem sum_eq_zero_iff {snapshots : List GeminiUsageMetadata}
    (h : ∀ m ∈ snapshots, m.NonNegative) :
    (snapshots.map fun m => tokensWhere p (side.details m)).sum ≤ 0 ↔
      ∀ m ∈ snapshots, tokensWhere p (side.details m) = 0 := by
  have hnonneg : ∀ n ∈ snapshots.map fun m => tokensWhere p (side.details m), 0 ≤ n := by
    intro n hn
    obtain ⟨m, hm, rfl⟩ := mem_map.1 hn
    exact tokensWhere_nonneg (NonNegative.details (h m hm) side)
  constructor
  · intro hsum m hm
    have hle := single_le_sum hnonneg _ (mem_map_of_mem hm)
    have hpos := tokensWhere_nonneg (p := p) (NonNegative.details (h m hm) side)
    omega
  · intro hzero
    refine le_of_eq (sum_eq_zero fun n hn => ?_)
    obtain ⟨m, hm, rfl⟩ := mem_map.1 hn
    exact hzero m hm

/-- **Cumulative snapshots, merged.**  The same snapshot merged again changes nothing iff it
repeats; the modalities of a merged stream add up to no more than its count iff those of all
snapshots together do; and a modality has no more tokens than the last snapshot reports iff no
earlier snapshot counts it. -/
theorem mergeGeminiUsageMetadataNonZero_cumulative (fold : Char → Char) :
    (∀ current incoming, mergeGeminiUsageMetadataNonZero fold
        (mergeGeminiUsageMetadataNonZero fold current (some incoming)) (some incoming) =
      mergeGeminiUsageMetadataNonZero fold current (some incoming) ↔
        Repeats fold current incoming) ∧
    ∀ side earlier last, Cumulative side (earlier ++ [last]) →
      ∃ merged, streamed fold (earlier ++ [last]) = some merged ∧
        (tokensIn (side.details merged) ≤ side.count merged ↔
          ((earlier ++ [last]).map fun m => tokensIn (side.details m)).sum ≤ side.count last) ∧
        ∀ modality, tokensOf normalizeGeminiModality modality (side.details merged) ≤
            tokensOf normalizeGeminiModality modality (side.details last) ↔
          ∀ m ∈ earlier, tokensOf normalizeGeminiModality modality (side.details m) = 0 := by
  refine ⟨merge_again_iff fold, fun side earlier last h => ?_⟩
  obtain ⟨merged, hmerged, hcount, htokens⟩ := streamed_concat fold h
  refine ⟨merged, hmerged, ?_, fun modality => ?_⟩
  · rw [tokensIn, htokens, hcount]
    rfl
  · have hearlier : ∀ m ∈ earlier, m.NonNegative := fun m hm =>
      h.nonNegative m (List.mem_append_left _ hm)
    have htotal := htokens fun name => name == modality
    rw [List.map_append, List.sum_append, List.map_singleton, List.sum_singleton] at htotal
    simp only [tokensOf_eq_tokensWhere]
    rw [htotal, add_le_iff_nonpos_left]
    exact sum_eq_zero_iff hearlier

/-- Ten tokens of text. -/
def textSnapshot : GeminiUsageMetadata where
  promptTokenCount := 10
  totalTokenCount := 10
  promptTokensDetails := [⟨"TEXT", 10⟩]

/-- A stream whose first snapshot counts the prompt without its modalities. -/
theorem mergeGeminiUsageMetadataNonZero_cumulative_textSnapshot :
    (∀ current incoming, mergeGeminiUsageMetadataNonZero foldChar
        (mergeGeminiUsageMetadataNonZero foldChar current (some incoming)) (some incoming) =
      mergeGeminiUsageMetadataNonZero foldChar current (some incoming) ↔
        Repeats foldChar current incoming) ∧
    ∃ merged, streamed foldChar [{ promptTokenCount := 4 }, textSnapshot] = some merged ∧
      (tokensIn merged.promptTokensDetails ≤ merged.promptTokenCount ↔ (10 : Int) ≤ 10) := by
  obtain ⟨hagain, hstream⟩ := mergeGeminiUsageMetadataNonZero_cumulative foldChar
  obtain ⟨merged, hmerged, hbounded, -⟩ :=
    hstream .prompt [{ promptTokenCount := 4 }] textSnapshot
      { nonNegative := fun m hm => by
          rcases List.mem_cons.1 hm with rfl | hm
          · constructor <;> decide
          · obtain rfl := List.mem_singleton.1 hm
            constructor <;> decide
        rising := by decide }
  exact ⟨hagain, merged, hmerged, hbounded⟩

/-- **A snapshot that is sent twice** has its ten tokens of text billed as twenty. -/
theorem textSnapshot_twice :
    textSnapshot.NonNegative ∧ Cumulative .prompt [textSnapshot, textSnapshot] ∧
      tokensIn (Side.prompt.details textSnapshot) ≤ Side.prompt.count textSnapshot ∧
      mergeGeminiUsageMetadataNonZero foldChar
          (mergeGeminiUsageMetadataNonZero foldChar none (some textSnapshot))
          (some textSnapshot) ≠
        mergeGeminiUsageMetadataNonZero foldChar none (some textSnapshot) ∧
      (streamed foldChar [textSnapshot, textSnapshot]).map (fun m =>
        (m.promptTokenCount, tokensOf normalizeGeminiModality "TEXT" m.promptTokensDetails)) =
          some (10, 20) := by
  have hnonneg : textSnapshot.NonNegative := by constructor <;> decide
  refine ⟨hnonneg, ⟨fun m hm => ?_, by decide⟩, by decide, fun h => ?_, by decide⟩
  · obtain rfl : m = textSnapshot := by simpa using hm
    exact hnonneg
  · have huncounted := ((merge_again_iff foldChar none textSnapshot).1 h).details.prompt
    revert huncounted
    decide

end NexusTok.Tokens
