import Mathlib.Data.List.Induction
import NexusTok.Tokens.Merge

/-!
# What a list of snapshots leaves

A usage is built up from the snapshots of a stream.  A zero in a snapshot stands for a count that it
does not report, so each count is the last one that is not zero.

* `lastNonZero` : the last count that was reported.
* `Payloads` : the usages of providers that went into a billing snapshot since it was last replaced.
* `MergedUsages` : what the merge of a list leaves, and `mergeUsages_spec` : that it does.
-/

namespace NexusTok.Tokens

open List

/-! ### The last count -/

/-- The last count that is not zero, or zero. -/
def lastNonZero (counts : List Int) : Int := (counts.filter (· ≠ 0)).getLastD 0

theorem lastNonZero_singleton (n : Int) : lastNonZero [n] = n := by
  unfold lastNonZero
  by_cases h : n = 0
  · rw [h]
    rfl
  · rw [filter_cons_of_pos (by simpa using h)]
    rfl

/-- **One more count** is an overlay. -/
theorem lastNonZero_concat (counts : List Int) {n : Int} (h : 0 ≤ n) :
    lastNonZero (counts ++ [n]) = overCount n (lastNonZero counts) := by
  unfold lastNonZero overCount
  rw [filter_append]
  by_cases hzero : n = 0
  · rw [if_neg (by omega), hzero]
    exact congrArg (List.getLastD · 0) (append_nil _)
  · rw [if_pos (by omega), filter_cons_of_pos (by simpa using hzero), filter_nil,
      getLastD_concat]

/-! ### Counts of a usage -/

/-- The counts of `InputTokenDetails`. -/
def inputDetailCounts : List (InputTokenDetails → Int) :=
  [InputTokenDetails.cachedTokens, InputTokenDetails.cachedCreationTokens,
    InputTokenDetails.cacheWriteTokens, InputTokenDetails.textTokens,
    InputTokenDetails.audioTokens, InputTokenDetails.imageTokens]

/-- The counts of `OutputTokenDetails`. -/
def outputDetailCounts : List (OutputTokenDetails → Int) :=
  [OutputTokenDetails.textTokens, OutputTokenDetails.audioTokens, OutputTokenDetails.imageTokens,
    OutputTokenDetails.reasoningTokens]

/-- The counts of a usage itself, but for the total. -/
def ownCounts : List (Usage → Int) :=
  [UsageOf.promptTokens, UsageOf.completionTokens, UsageOf.promptCacheHitTokens,
    UsageOf.inputTokens, UsageOf.outputTokens, UsageOf.claudeCacheCreation5mTokens,
    UsageOf.claudeCacheCreation1hTokens]

/-- **The counts of a usage**, but for the total, which is raised to the sums. -/
def usageCounts : List (Usage → Int) :=
  ownCounts ++ inputDetailCounts.map (fun f u => f u.promptTokensDetails) ++
    inputDetailCounts.map (fun f u => f (u.inputTokensDetails.getD {})) ++
      outputDetailCounts.map fun f u => f u.completionTokenDetails

/-- A count that a merge overlays, and that is none of the snapshot's. -/
structure IsOverlaid (f : Usage → Int) : Prop where
  merge : ∀ current incoming,
    f (mergeUsageCounts current incoming) = overCount (f incoming) (f current)
  sidecar : ∀ (u : Usage) (b : Option BillingUsage), f { u with billingUsage := b } = f u
  empty : f {} = 0

theorem forall_inputDetailCounts {p : (InputTokenDetails → Int) → Prop}
    (h : p InputTokenDetails.cachedTokens ∧ p InputTokenDetails.cachedCreationTokens ∧
      p InputTokenDetails.cacheWriteTokens ∧ p InputTokenDetails.textTokens ∧
        p InputTokenDetails.audioTokens ∧ p InputTokenDetails.imageTokens) :
    ∀ f ∈ inputDetailCounts, p f := by
  simpa only [inputDetailCounts, forall_mem_cons, not_mem_nil, false_imp_iff,
    implies_true, and_true] using h

theorem merge_inputDetailCounts (current incoming : InputTokenDetails) :
    ∀ f ∈ inputDetailCounts,
      f (mergeInputTokenDetails current incoming) = overCount (f incoming) (f current) :=
  forall_inputDetailCounts ⟨rfl, rfl, rfl, rfl, rfl, rfl⟩

theorem inputDetailCounts_empty : ∀ f ∈ inputDetailCounts, f {} = 0 :=
  forall_inputDetailCounts ⟨rfl, rfl, rfl, rfl, rfl, rfl⟩

theorem reports_false {d : InputTokenDetails} (h : d.reports = false) :
    ∀ f ∈ inputDetailCounts, ¬0 < f d := by
  simp only [InputTokenDetails.reports, Bool.or_eq_false_iff, decide_eq_false_iff_not] at h
  obtain ⟨⟨⟨⟨⟨hcached, hcreation⟩, hwrite⟩, htext⟩, haudio⟩, himage⟩ := h
  exact forall_inputDetailCounts ⟨hcached, hcreation, hwrite, htext, haudio, himage⟩

theorem merge_inputTokensDetails (current incoming : Option InputTokenDetails) :
    ∀ f ∈ inputDetailCounts, f ((mergeInputTokensDetails current incoming).getD {}) =
      overCount (f (incoming.getD {})) (f (current.getD {})) := by
  intro f hf
  cases incoming with
  | none =>
    rw [mergeInputTokensDetails, Option.getD_none, inputDetailCounts_empty f hf]
    rfl
  | some details =>
    rw [mergeInputTokensDetails, Option.getD_some]
    cases hreports : details.reports with
    | false =>
      rw [if_neg Bool.false_ne_true, overCount, if_neg (reports_false hreports f hf)]
    | true =>
      rw [if_pos rfl, Option.getD_some, merge_inputDetailCounts _ _ f hf]

theorem merge_outputDetailCounts (current incoming : OutputTokenDetails) :
    ∀ f ∈ outputDetailCounts,
      f (mergeOutputTokenDetails current incoming) = overCount (f incoming) (f current) := by
  simp only [outputDetailCounts, forall_mem_cons, not_mem_nil, false_imp_iff,
    implies_true, and_true]
  exact ⟨rfl, rfl, rfl, rfl⟩

theorem outputDetailCounts_empty : ∀ f ∈ outputDetailCounts, f {} = 0 := by
  simp only [outputDetailCounts, forall_mem_cons, not_mem_nil, false_imp_iff,
    implies_true, and_true]

/-- **Each count of a usage is overlaid.** -/
theorem usageCounts_overlaid : ∀ f ∈ usageCounts, IsOverlaid f := by
  have hown : ∀ f ∈ ownCounts, IsOverlaid f := by
    simp only [ownCounts, forall_mem_cons, not_mem_nil, false_imp_iff, implies_true,
      and_true]
    refine ⟨?_, ?_, ?_, ?_, ?_, ?_, ?_⟩ <;>
      exact ⟨fun _ _ => rfl, fun _ _ => rfl, rfl⟩
  intro f hf
  simp only [usageCounts, mem_append, mem_map] at hf
  rcases hf with ((hf | ⟨g, hg, rfl⟩) | ⟨g, hg, rfl⟩) | ⟨g, hg, rfl⟩
  · exact hown f hf
  · exact ⟨fun c i => merge_inputDetailCounts c.promptTokensDetails i.promptTokensDetails g hg,
      fun _ _ => rfl, inputDetailCounts_empty g hg⟩
  · exact ⟨fun c i => merge_inputTokensDetails c.inputTokensDetails i.inputTokensDetails g hg,
      fun _ _ => rfl, inputDetailCounts_empty g hg⟩
  · exact ⟨fun c i => merge_outputDetailCounts c.completionTokenDetails i.completionTokenDetails
      g hg, fun _ _ => rfl, outputDetailCounts_empty g hg⟩

/-- No count of the usage is negative. -/
structure UsageOf.NonNegative (u : Usage) : Prop where
  counts : ∀ f ∈ usageCounts, 0 ≤ f u
  total : 0 ≤ u.totalTokens

instance (u : Usage) : Decidable u.NonNegative :=
  decidable_of_iff ((∀ f ∈ usageCounts, 0 ≤ f u) ∧ 0 ≤ u.totalTokens)
    ⟨fun h => ⟨h.1, h.2⟩, fun h => ⟨h.counts, h.total⟩⟩

/-! ### Overlays of usages -/

/-- The prompt and the completion that a list of snapshots leaves, or the input and the output. -/
def sumsOf (us : List Usage) : List Int :=
  [lastNonZero (us.map (·.promptTokens)) + lastNonZero (us.map (·.completionTokens)),
    lastNonZero (us.map (·.inputTokens)) + lastNonZero (us.map (·.outputTokens))]

/-- **The total of snapshots**: the last one that was reported, or a larger sum that the counts had
at that time or later. -/
structure RaisedTotal (us : List Usage) (total : Int) : Prop where
  reported : lastNonZero (us.map (·.totalTokens)) ≤ total
  attained : total = lastNonZero (us.map (·.totalTokens)) ∨
    ∃ earlier later, us = earlier ++ later ∧ (∀ u ∈ later, u.totalTokens = 0) ∧
      total ∈ sumsOf earlier

/-- **What snapshots leave** of the counts of a usage. -/
structure OverlayOf (us : List Usage) (merged : Usage) : Prop where
  counts : ∀ f ∈ usageCounts, f merged = lastNonZero (us.map f)
  total : RaisedTotal us merged.totalTokens

/-- The total is at least both sums. -/
def Usage.Raised (u : Usage) : Prop :=
  u.promptTokens + u.completionTokens ≤ u.totalTokens ∧
    u.inputTokens + u.outputTokens ≤ u.totalTokens

variable {us : List Usage} {merged u : Usage}

theorem raised_merge (current incoming : Usage) : (mergeUsageCounts current incoming).Raised := by
  simp only [Usage.Raised, mergeUsageCounts, raiseTo]
  constructor <;> split_ifs <;> omega

theorem raiseTo_cases (sum total : Int) :
    total ≤ raiseTo sum total ∧ (raiseTo sum total = total ∨ raiseTo sum total = sum) := by
  unfold raiseTo
  split_ifs with h
  · exact ⟨Int.le_of_lt h, .inr rfl⟩
  · exact ⟨Int.le_refl total, .inl rfl⟩

theorem RaisedTotal.step {total sum sum' : Int} (h : RaisedTotal us total)
    (hu : 0 ≤ u.totalTokens) (hsum : sum ∈ sumsOf (us ++ [u])) (hsum' : sum' ∈ sumsOf (us ++ [u])) :
    RaisedTotal (us ++ [u]) (raiseTo sum' (raiseTo sum (overCount u.totalTokens total))) := by
  obtain ⟨hle, hcases⟩ := raiseTo_cases sum (overCount u.totalTokens total)
  obtain ⟨hle', hcases'⟩ := raiseTo_cases sum' (raiseTo sum (overCount u.totalTokens total))
  have hlast : lastNonZero ((us ++ [u]).map (·.totalTokens)) =
      overCount u.totalTokens (lastNonZero (us.map (·.totalTokens))) := by
    rw [map_append, map_singleton, lastNonZero_concat _ hu]
  constructor
  · have hreported := h.reported
    rw [hlast]
    refine Int.le_trans ?_ (Int.le_trans hle hle')
    unfold overCount
    split_ifs
    · exact Int.le_refl _
    · exact hreported
  · -- a raised total is the sum that the counts have now
    rcases hcases' with heq' | heq'
    · rw [heq']
      rcases hcases with heq | heq
      · rw [heq]
        by_cases hzero : u.totalTokens = 0
        · have hkeep (n : Int) : overCount u.totalTokens n = n := by
            rw [overCount, if_neg (by omega)]
          rw [hlast, hkeep, hkeep]
          rcases h.attained with hattained | ⟨earlier, later, hus, hlater, htotal⟩
          · exact .inl hattained
          · refine .inr ⟨earlier, later ++ [u], by rw [hus, append_assoc], ?_, htotal⟩
            intro v hv
            rcases mem_append.1 hv with hv | hv
            · exact hlater v hv
            · rw [mem_singleton.1 hv, hzero]
        · left
          rw [hlast, overCount, overCount, if_pos (by omega), if_pos (by omega)]
      · rw [heq]
        exact .inr ⟨us ++ [u], [], (append_nil _).symm, fun v hv => (by cases hv), hsum⟩
    · rw [heq']
      exact .inr ⟨us ++ [u], [], (append_nil _).symm, fun v hv => (by cases hv), hsum'⟩

namespace OverlayOf

theorem empty : OverlayOf [] {} where
  counts f hf := (usageCounts_overlaid f hf).empty
  total := ⟨Int.le_refl 0, .inl rfl⟩

theorem single (u : Usage) : OverlayOf [u] u where
  counts f _ := (lastNonZero_singleton (f u)).symm
  total := by
    have hlast := lastNonZero_singleton u.totalTokens
    exact ⟨Int.le_of_eq hlast, .inl hlast.symm⟩

/-- The nested snapshot is none of the counts. -/
theorem sidecar (h : OverlayOf us merged) (b : Option BillingUsage) :
    OverlayOf us { merged with billingUsage := b } where
  counts f hf := ((usageCounts_overlaid f hf).sidecar merged b).trans (h.counts f hf)
  total := h.total

/-- **One more snapshot.** -/
theorem step (h : OverlayOf us merged) (hu : u.NonNegative) :
    OverlayOf (us ++ [u]) (mergeUsageCounts merged u) := by
  have hcounts : ∀ f ∈ usageCounts,
      f (mergeUsageCounts merged u) = lastNonZero ((us ++ [u]).map f) := by
    intro f hf
    rw [map_append, map_singleton, lastNonZero_concat _ (hu.counts f hf),
      (usageCounts_overlaid f hf).merge, h.counts f hf]
  refine ⟨hcounts, h.total.step hu.total ?_ ?_⟩
  · have hprompt := hcounts UsageOf.promptTokens (by simp [usageCounts, ownCounts])
    have hcompletion := hcounts UsageOf.completionTokens (by simp [usageCounts, ownCounts])
    exact mem_cons.2 (.inl (congrArg₂ (· + ·) hprompt hcompletion))
  · have hinput := hcounts UsageOf.inputTokens (by simp [usageCounts, ownCounts])
    have houtput := hcounts UsageOf.outputTokens (by simp [usageCounts, ownCounts])
    exact mem_cons_of_mem _ (mem_singleton.2 (congrArg₂ (· + ·) hinput houtput))

end OverlayOf

/-! ### Overlays of Claude's usages -/

/-- The counts of `ClaudeServerToolUse`. -/
def toolUseCounts : List (ClaudeServerToolUse → Int) :=
  [ClaudeServerToolUse.webSearchRequests, ClaudeServerToolUse.webFetchRequests,
    ClaudeServerToolUse.codeExecutionRequests, ClaudeServerToolUse.toolSearchRequests]

/-- The counts of a usage of Claude's itself, but for the cache split. -/
def ownClaudeCounts : List (ClaudeUsage → Int) :=
  [ClaudeUsageOf.inputTokens, ClaudeUsageOf.cacheCreationInputTokens,
    ClaudeUsageOf.cacheReadInputTokens, ClaudeUsageOf.outputTokens]

/-- **The counts of a usage of Claude's**, but for the cache split. -/
def claudeCounts : List (ClaudeUsage → Int) :=
  ownClaudeCounts ++ toolUseCounts.map fun f u => f (u.serverToolUse.getD {})

/-- No count of the usage is negative. -/
structure ClaudeUsageOf.NonNegative (u : ClaudeUsage) : Prop where
  counts : ∀ f ∈ claudeCounts, 0 ≤ f u
  flat5m : 0 ≤ u.claudeCacheCreation5mTokens
  flat1h : 0 ≤ u.claudeCacheCreation1hTokens

instance (u : ClaudeUsage) : Decidable u.NonNegative :=
  decidable_of_iff ((∀ f ∈ claudeCounts, 0 ≤ f u) ∧
      0 ≤ u.claudeCacheCreation5mTokens ∧ 0 ≤ u.claudeCacheCreation1hTokens)
    ⟨fun h => ⟨h.1, h.2.1, h.2.2⟩, fun h => ⟨h.counts, h.flat5m, h.flat1h⟩⟩

/-- The last sub-object with a cache split. -/
def lastSplit (us : List ClaudeUsage) : Option ClaudeCacheCreationUsage :=
  (us.filterMap (·.cacheCreation)).getLast?

/-- **The cache split of snapshots**: that of the last sub-object, or the last flat counts where no
snapshot had a sub-object. -/
def splitOf (us : List ClaudeUsage) : Int × Int :=
  match lastSplit us with
  | some split => (split.ephemeral5mInputTokens, split.ephemeral1hInputTokens)
  | none => (lastNonZero (us.map (·.claudeCacheCreation5mTokens)),
      lastNonZero (us.map (·.claudeCacheCreation1hTokens)))

section Flat

variable (ofObject : ClaudeCacheCreationUsage → Int) (flat : ClaudeUsage → Int)

/-- What is reported of a flat count after one more snapshot.  A sub-object makes it start anew. -/
def flatStep (reports : List Int) (u : ClaudeUsage) : List Int :=
  match u.cacheCreation with
  | some split => [ofObject split]
  | none => reports ++ [flat u]

/-- What snapshots report of a flat count since the last sub-object. -/
def flatReports : List ClaudeUsage → List Int
  | [] => []
  | first :: rest => rest.foldl (flatStep ofObject flat) [flat first]

variable {ofObject flat} {us : List ClaudeUsage} {u : ClaudeUsage}

theorem flatReports_concat (h : us ≠ []) :
    flatReports ofObject flat (us ++ [u]) =
      flatStep ofObject flat (flatReports ofObject flat us) u := by
  cases us with
  | nil => exact absurd rfl h
  | cons first rest =>
    rw [cons_append, flatReports, flatReports, foldl_append]
    rfl

theorem lastNonZero_flatStep {reports : List Int} (h : 0 ≤ flat u) :
    lastNonZero (flatStep ofObject flat reports u) =
      flatSplit ofObject u.cacheCreation (flat u) (lastNonZero reports) := by
  unfold flatStep flatSplit
  cases u.cacheCreation with
  | some split => exact lastNonZero_singleton (ofObject split)
  | none => exact lastNonZero_concat reports h

theorem foldl_flatStep (h : ∀ u ∈ us, u.cacheCreation = none) (reports : List Int) :
    us.foldl (flatStep ofObject flat) reports = reports ++ us.map flat := by
  induction us generalizing reports with
  | nil => exact (append_nil reports).symm
  | cons u us ih =>
    have hstep : flatStep ofObject flat reports u = reports ++ [flat u] := by
      rw [flatStep, h u mem_cons_self]
    rw [foldl_cons, hstep, ih fun v hv => h v (mem_cons_of_mem u hv), map_cons,
      append_assoc, singleton_append]

theorem flatReports_of_no_split (h : us.filterMap (·.cacheCreation) = []) :
    flatReports ofObject flat us = us.map flat := by
  cases us with
  | nil => rfl
  | cons first rest =>
    have hrest : ∀ u ∈ rest, u.cacheCreation = none := fun u hu =>
      filterMap_eq_nil_iff.1 h u (mem_cons_of_mem first hu)
    rw [flatReports, foldl_flatStep hrest, map_cons, singleton_append]

end Flat

/-- **What snapshots leave** of a usage of Claude's. -/
structure ClaudeOverlayOf (us : List ClaudeUsage) (merged : ClaudeUsage) : Prop where
  counts : ∀ f ∈ claudeCounts, f merged = lastNonZero (us.map f)
  split : merged.cacheCreation = lastSplit us
  flat5m : merged.claudeCacheCreation5mTokens =
    lastNonZero (flatReports (·.ephemeral5mInputTokens) (·.claudeCacheCreation5mTokens) us)
  flat1h : merged.claudeCacheCreation1hTokens =
    lastNonZero (flatReports (·.ephemeral1hInputTokens) (·.claudeCacheCreation1hTokens) us)

theorem merge_serverToolUse (current incoming : Option ClaudeServerToolUse) :
    ∀ f ∈ toolUseCounts, f ((mergeServerToolUse current incoming).getD {}) =
      overCount (f (incoming.getD {})) (f (current.getD {})) := by
  cases incoming with
  | none | some =>
    simp only [toolUseCounts, forall_mem_cons, not_mem_nil, false_imp_iff, implies_true,
      and_true]
    exact ⟨rfl, rfl, rfl, rfl⟩

theorem merge_claudeCounts (current incoming : ClaudeUsage) :
    ∀ f ∈ claudeCounts, f (mergeClaudeUsageNonZero (some current) (some incoming)) =
      overCount (f incoming) (f current) := by
  intro f hf
  simp only [claudeCounts, mem_append, mem_map] at hf
  rcases hf with hf | ⟨g, hg, rfl⟩
  · revert f
    simp only [ownClaudeCounts, forall_mem_cons, not_mem_nil, false_imp_iff,
      implies_true, and_true]
    exact ⟨rfl, rfl, rfl, rfl⟩
  · exact merge_serverToolUse current.serverToolUse incoming.serverToolUse g hg

theorem claudeCounts_sidecar (u : ClaudeUsage) (b : Option BillingUsage) :
    ∀ f ∈ claudeCounts, f { u with billingUsage := b } = f u := by
  simp only [claudeCounts, ownClaudeCounts, toolUseCounts, map_cons, map_nil,
    cons_append, nil_append, forall_mem_cons, not_mem_nil, false_imp_iff,
    implies_true, and_true]

namespace ClaudeOverlayOf

variable {us : List ClaudeUsage} {merged u : ClaudeUsage}

theorem single (u : ClaudeUsage) : ClaudeOverlayOf [u] u where
  counts f _ := (lastNonZero_singleton (f u)).symm
  split := by
    rw [lastSplit]
    cases hsplit : u.cacheCreation with
    | none => rw [filterMap_cons_none hsplit]; rfl
    | some split => rw [filterMap_cons_some hsplit]; rfl
  flat5m := (lastNonZero_singleton _).symm
  flat1h := (lastNonZero_singleton _).symm

/-- The nested snapshot is none of the counts. -/
theorem sidecar (h : ClaudeOverlayOf us merged) (b : Option BillingUsage) :
    ClaudeOverlayOf us { merged with billingUsage := b } where
  counts f hf := (claudeCounts_sidecar merged b f hf).trans (h.counts f hf)
  split := h.split
  flat5m := h.flat5m
  flat1h := h.flat1h

/-- **One more snapshot.** -/
theorem step (h : ClaudeOverlayOf us merged) (hne : us ≠ []) (hu : u.NonNegative) :
    ClaudeOverlayOf (us ++ [u]) (mergeClaudeUsageNonZero (some merged) (some u)) where
  counts f hf := by
    rw [map_append, map_singleton, lastNonZero_concat _ (hu.counts f hf),
      merge_claudeCounts merged u f hf, h.counts f hf]
  split := by
    have hmerged : (mergeClaudeUsageNonZero (some merged) (some u)).cacheCreation =
        u.cacheCreation.or merged.cacheCreation := rfl
    rw [hmerged, h.split, lastSplit, lastSplit, filterMap_append, getLast?_append]
    cases hsplit : u.cacheCreation with
    | none => rw [filterMap_cons_none hsplit]; rfl
    | some split => rw [filterMap_cons_some hsplit]; rfl
  flat5m := by
    rw [flatReports_concat hne, lastNonZero_flatStep hu.flat5m, ← h.flat5m]
    rfl
  flat1h := by
    rw [flatReports_concat hne, lastNonZero_flatStep hu.flat1h, ← h.flat1h]
    rfl

/-- **The cache split that is settled** is that of the snapshots. -/
theorem settled (h : ClaudeOverlayOf us merged) (b : BillingUsage) :
    ((b.canonicalClaudeUsage merged).claudeCacheCreation5mTokens,
      (b.canonicalClaudeUsage merged).claudeCacheCreation1hTokens) = splitOf us := by
  have hsplit := h.split
  simp only [BillingUsage.canonicalClaudeUsage, getCacheCreation5mTokens,
    getCacheCreation1hTokens, splitOf]
  rw [hsplit]
  cases hlast : lastSplit us with
  | some split => rfl
  | none =>
    have hnone := getLast?_eq_none_iff.1 hlast
    have h5m := h.flat5m
    have h1h := h.flat1h
    rw [flatReports_of_no_split hnone] at h5m h1h
    rw [h5m, h1h]
    rfl

end ClaudeOverlayOf

/-! ### Billing snapshots -/

/-- The usages of providers that went into a billing snapshot since it was last replaced. -/
structure Payloads where
  openAI : List Usage := []
  claude : List ClaudeUsage := []

/-- The usages of one snapshot. -/
def BillingUsage.payloads (b : BillingUsage) : Payloads where
  openAI := b.openAIUsage.toList
  claude := b.claudeUsage.toList

variable (fold : Char → Char)

/-- One more snapshot: in another dialect it starts anew, else it is merged into the first usage
that both have. -/
def Payloads.step (p : Payloads) (merged : Option BillingUsage) (b : BillingUsage) : Payloads :=
  if merged.any (sameBillingUsageDialect fold · b) then
    if (merged.bind (·.openAIUsage)).isSome && b.openAIUsage.isSome then
      { p with openAI := p.openAI ++ b.openAIUsage.toList }
    else if (merged.bind (·.claudeUsage)).isSome && b.claudeUsage.isSome then
      { p with claude := p.claude ++ b.claudeUsage.toList }
    else p
  else b.payloads

/-- The snapshots merged, with the usages that went into them. -/
def mergeBillings (bs : List BillingUsage) : Option BillingUsage × Payloads :=
  bs.foldl (fun s b => (some (mergeBillingUsageNonZero fold s.1 b), s.2.step fold s.1 b)) (none, {})

/-- `MergeUsageNonZero`, from left to right. -/
def mergeUsages (us : List Usage) : Usage :=
  us.foldl (fun merged u => mergeUsageNonZero fold (some merged) (some u)) {}

/-- **What a billing snapshot holds** of the usages that went into it. -/
structure Payloads.Overlaid (p : Payloads) (c : BillingUsage) : Prop where
  openAI_iff : c.openAIUsage.isSome = true ↔ p.openAI ≠ []
  openAI : ∀ u ∈ c.openAIUsage, OverlayOf p.openAI u
  claude_iff : c.claudeUsage.isSome = true ↔ p.claude ≠ []
  claude : ∀ u ∈ c.claudeUsage, ClaudeOverlayOf p.claude u

/-- No count of the snapshot's usages is negative. -/
structure BillingUsage.NonNegative (b : BillingUsage) : Prop where
  openAI : ∀ u ∈ b.openAIUsage, UsageOf.NonNegative u
  claude : ∀ u ∈ b.claudeUsage, ClaudeUsageOf.NonNegative u

instance (b : BillingUsage) : Decidable b.NonNegative :=
  decidable_of_iff ((∀ u ∈ b.openAIUsage, UsageOf.NonNegative u) ∧
      ∀ u ∈ b.claudeUsage, ClaudeUsageOf.NonNegative u)
    ⟨fun h => ⟨h.1, h.2⟩, fun h => ⟨h.openAI, h.claude⟩⟩

variable {fold} {p : Payloads} {c b : BillingUsage} {bs : List BillingUsage}

theorem mergeBillings_concat (fold : Char → Char) (bs : List BillingUsage) (b : BillingUsage) :
    mergeBillings fold (bs ++ [b]) =
      (some (mergeBillingUsageNonZero fold (mergeBillings fold bs).1 b),
        (mergeBillings fold bs).2.step fold (mergeBillings fold bs).1 b) := by
  unfold mergeBillings
  rw [foldl_append]
  rfl

theorem mergeUsages_concat (fold : Char → Char) (us : List Usage) (u : Usage) :
    mergeUsages fold (us ++ [u]) =
      { mergeUsageCounts (mergeUsages fold us) u with
        billingUsage := mergeSidecar fold (mergeUsages fold us).billingUsage u.billingUsage } := by
  unfold mergeUsages
  rw [foldl_append]
  rfl

namespace Payloads

/-- A payload of a copy is the copy of one. -/
theorem mem_map_clone {u : Usage} {o : Option Usage} (h : u ∈ o.map cloneOpenAIUsage) :
    ∃ v ∈ o, u = cloneOpenAIUsage v := by
  obtain ⟨v, hv, rfl⟩ := Option.map_eq_some_iff.1 h
  exact ⟨v, hv, rfl⟩

theorem mem_map_cloneClaude {u : ClaudeUsage} {o : Option ClaudeUsage}
    (h : u ∈ o.map cloneClaudeUsage) : ∃ v ∈ o, u = cloneClaudeUsage v := by
  obtain ⟨v, hv, rfl⟩ := Option.map_eq_some_iff.1 h
  exact ⟨v, hv, rfl⟩

/-- **A copy holds the same.** -/
theorem Overlaid.of_clone (h : p.Overlaid c) {d : BillingUsage}
    (hopenAI : d.openAIUsage = c.openAIUsage.map cloneOpenAIUsage)
    (hclaude : d.claudeUsage = c.claudeUsage.map cloneClaudeUsage) : p.Overlaid d where
  openAI_iff := by rw [hopenAI, Option.isSome_map]; exact h.openAI_iff
  openAI u hu := by
    rw [hopenAI] at hu
    obtain ⟨v, hv, rfl⟩ := mem_map_clone hu
    exact (h.openAI v hv).sidecar none
  claude_iff := by rw [hclaude, Option.isSome_map]; exact h.claude_iff
  claude u hu := by
    rw [hclaude] at hu
    obtain ⟨v, hv, rfl⟩ := mem_map_cloneClaude hu
    exact (h.claude v hv).sidecar none

/-- A snapshot holds its own usages. -/
theorem overlaid_payloads (b : BillingUsage) : b.payloads.Overlaid b where
  openAI_iff := by cases h : b.openAIUsage <;> simp [BillingUsage.payloads, h]
  openAI u hu := by
    rw [BillingUsage.payloads, Option.mem_def.1 hu]
    exact .single u
  claude_iff := by cases h : b.claudeUsage <;> simp [BillingUsage.payloads, h]
  claude u hu := by
    rw [BillingUsage.payloads, Option.mem_def.1 hu]
    exact .single u

/-- A snapshot in another dialect starts anew. -/
theorem overlaid_replaced (h : sameBillingUsageDialect fold c b = false) :
    (p.step fold (some c) b).Overlaid (mergeBillingUsageNonZero fold (some c) b) := by
  have hstep : p.step fold (some c) b = b.payloads := by
    rw [step, Option.any_some, h, if_neg Bool.false_ne_true]
  rw [hstep, mergeBilling_replaced h]
  exact (overlaid_payloads b).of_clone rfl rfl

/-- **One more snapshot.** -/
theorem Overlaid.step (h : p.Overlaid c) (hb : b.NonNegative) :
    (p.step fold (some c) b).Overlaid (mergeBillingUsageNonZero fold (some c) b) := by
  cases hsame : sameBillingUsageDialect fold c b with
  | false => exact overlaid_replaced hsame
  | true =>
    have hopen : p.step fold (some c) b =
        if c.openAIUsage.isSome && b.openAIUsage.isSome then
          { p with openAI := p.openAI ++ b.openAIUsage.toList }
        else if c.claudeUsage.isSome && b.claudeUsage.isSome then
          { p with claude := p.claude ++ b.claudeUsage.toList }
        else p := by
      rw [Payloads.step, Option.any_some, hsame, if_pos rfl]
      rfl
    have hcopy : p.Overlaid (mergeLabels c b) := h.of_clone rfl rfl
    by_cases hopenAI : c.openAIUsage.isSome = true ∧ b.openAIUsage.isSome = true
    · -- both have a usage of OpenAI's
      obtain ⟨u, hu⟩ := Option.isSome_iff_exists.1 hopenAI.1
      obtain ⟨u', hu'⟩ := Option.isSome_iff_exists.1 hopenAI.2
      rw [hopen, hu, hu', mergeBilling_openAI hsame hu hu']
      refine ⟨?_, fun v hv => ?_, hcopy.claude_iff, hcopy.claude⟩
      · exact ⟨fun _ => append_ne_nil_of_right_ne_nil _ (cons_ne_nil u' []), fun _ => rfl⟩
      · cases hv
        have hstep := ((h.openAI u hu).sidecar none).step (hb.openAI u' hu')
        exact hstep
    · have hnone : c.openAIUsage = none ∨ b.openAIUsage = none := by
        simpa only [← Option.not_isSome_iff_eq_none, ← not_and_or] using hopenAI
      rw [← Bool.and_eq_true] at hopenAI
      rw [hopen, if_neg hopenAI]
      by_cases hclaude : c.claudeUsage.isSome = true ∧ b.claudeUsage.isSome = true
      · -- both have a usage of Claude's
        obtain ⟨u, hu⟩ := Option.isSome_iff_exists.1 hclaude.1
        obtain ⟨u', hu'⟩ := Option.isSome_iff_exists.1 hclaude.2
        have hne : p.claude ≠ [] := h.claude_iff.1 hclaude.1
        rw [hu, hu', mergeBilling_claude hsame hnone hu hu']
        refine ⟨hcopy.openAI_iff, hcopy.openAI, ?_, fun v hv => ?_⟩
        · exact ⟨fun _ => append_ne_nil_of_right_ne_nil _ (cons_ne_nil u' []),
            fun _ => rfl⟩
        · cases hv
          exact (h.claude u hu).step hne (hb.claude u' hu')
      · have hnoClaude : c.claudeUsage = none ∨ b.claudeUsage = none := by
          simpa only [← Option.not_isSome_iff_eq_none, ← not_and_or] using hclaude
        rw [← Bool.and_eq_true] at hclaude
        rw [if_neg hclaude, mergeBilling_gemini hsame hnone hnoClaude]
        exact ⟨hcopy.openAI_iff, hcopy.openAI, hcopy.claude_iff, hcopy.claude⟩

end Payloads

/-- **A list of snapshots** leaves what went into the last run of one dialect. -/
theorem overlaid_mergeBillings (h : ∀ b ∈ bs, b.NonNegative) :
    ∀ c ∈ (mergeBillings fold bs).1, (mergeBillings fold bs).2.Overlaid c := by
  induction bs using List.reverseRecOn with
  | nil => exact fun c hc => absurd hc (Option.not_mem_none c)
  | append_singleton bs b ih =>
    have hb := h b (mem_append_right _ mem_cons_self)
    have hbs := ih fun b' hb' => h b' (mem_append_left _ hb')
    rw [mergeBillings_concat]
    intro c hc
    cases hc
    cases hmerged : (mergeBillings fold bs).1 with
    | none =>
      dsimp only
      rw [mergeBilling_none]
      exact (Payloads.overlaid_payloads b).of_clone rfl rfl
    | some c =>
      exact (hbs c hmerged).step hb

theorem estimated_mergeBillings (bs : List BillingUsage) :
    (mergeBillings fold bs).1.any (·.estimated) = bs.any (·.estimated) := by
  induction bs using List.reverseRecOn with
  | nil => rfl
  | append_singleton bs b ih =>
    rw [mergeBillings_concat, any_append, ← ih, Option.any_some, any_cons, any_nil,
      Bool.or_false]
    cases (mergeBillings fold bs).1 with
    | none =>
      rw [mergeBilling_none, Option.any_none, Bool.false_or]
      rfl
    | some c => exact estimated_merge c b

/-! ### Snapshots of one dialect -/

theorem same_iff : sameBillingUsageDialect fold c b = true ↔
    (c.source ≠ "" → b.source ≠ "" → foldEqual fold c.source b.source = true) ∧
      (c.semantic ≠ "" → b.semantic ≠ "" → foldEqual fold c.semantic b.semantic = true) ∧
        (c.openAIUsage.isSome = true ∧ b.openAIUsage.isSome = true ∨
          c.claudeUsage.isSome = true ∧ b.claudeUsage.isSome = true ∨
            c.geminiUsageMetadata.isSome = true ∧ b.geminiUsageMetadata.isSome = true) := by
  unfold sameBillingUsageDialect
  split_ifs with hsource hsemantic
  · exact ⟨False.elim, fun h => absurd (h.1 hsource.1 hsource.2.1) hsource.2.2⟩
  · exact ⟨False.elim, fun h => absurd (h.2.1 hsemantic.1 hsemantic.2.1) hsemantic.2.2⟩
  · have hsource' : c.source ≠ "" → b.source ≠ "" → foldEqual fold c.source b.source = true :=
      fun hc hb => by_contra fun h => hsource ⟨hc, hb, h⟩
    have hsemantic' :
        c.semantic ≠ "" → b.semantic ≠ "" → foldEqual fold c.semantic b.semantic = true :=
      fun hc hb => by_contra fun h => hsemantic ⟨hc, hb, h⟩
    simp only [Bool.or_eq_true, Bool.and_eq_true, or_assoc]
    exact ⟨fun h => ⟨hsource', hsemantic', h⟩, fun h => h.2.2⟩

theorem overText_cases (reported text : String) :
    overText reported text = reported ∨ overText reported text = text := by
  unfold overText
  split_ifs
  · exact .inl rfl
  · exact .inr rfl

theorem labels_merge (fold : Char → Char) (c b : BillingUsage) :
    ((mergeBillingUsageNonZero fold (some c) b).source = b.source ∨
        (mergeBillingUsageNonZero fold (some c) b).source = c.source) ∧
      ((mergeBillingUsageNonZero fold (some c) b).semantic = b.semantic ∨
        (mergeBillingUsageNonZero fold (some c) b).semantic = c.semantic) := by
  cases hsame : sameBillingUsageDialect fold c b with
  | false =>
    rw [mergeBilling_replaced hsame]
    exact ⟨.inl rfl, .inl rfl⟩
  | true =>
    have hlabels : (mergeBillingUsageNonZero fold (some c) b).source =
          overText b.source c.source ∧
        (mergeBillingUsageNonZero fold (some c) b).semantic = overText b.semantic c.semantic := by
      cases b
      rw [mergeBillingUsageNonZero]
      simp only [hsame, if_true]
      split
      · exact ⟨rfl, rfl⟩
      · split <;> exact ⟨rfl, rfl⟩
    rw [hlabels.1, hlabels.2]
    exact ⟨overText_cases _ _, overText_cases _ _⟩

theorem labels_mergeBillings (bs : List BillingUsage) :
    ∀ c ∈ (mergeBillings fold bs).1,
      (∃ b ∈ bs, b.source = c.source) ∧ ∃ b ∈ bs, b.semantic = c.semantic := by
  induction bs using List.reverseRecOn with
  | nil => exact fun c hc => absurd hc (Option.not_mem_none c)
  | append_singleton bs b ih =>
    have hlast : b ∈ bs ++ [b] := mem_append_right _ mem_cons_self
    rw [mergeBillings_concat]
    intro c hc
    cases hc
    cases hmerged : (mergeBillings fold bs).1 with
    | none =>
      rw [mergeBilling_none]
      exact ⟨⟨b, hlast, rfl⟩, b, hlast, rfl⟩
    | some c =>
      obtain ⟨⟨d, hd, hsource⟩, e, he, hsemantic⟩ := ih c hmerged
      have hlabels := labels_merge fold c b
      constructor
      · rcases hlabels.1 with h | h
        · exact ⟨b, hlast, h.symm⟩
        · exact ⟨d, mem_append_left _ hd, hsource.trans h.symm⟩
      · rcases hlabels.2 with h | h
        · exact ⟨b, hlast, h.symm⟩
        · exact ⟨e, mem_append_left _ he, hsemantic.trans h.symm⟩

/-- Snapshots of one dialect: in pairs, they are in the same one. -/
def OneDialect (fold : Char → Char) (bs : List BillingUsage) : Prop :=
  bs.Pairwise fun b b' => sameBillingUsageDialect fold b b' = true

/-- What snapshots leave is in the dialect of the next one, if it has a usage in common with it. -/
theorem OneDialect.same (h : OneDialect fold (bs ++ [b])) (hc : c ∈ (mergeBillings fold bs).1)
    (hcommon : c.openAIUsage.isSome = true ∧ b.openAIUsage.isSome = true ∨
      c.claudeUsage.isSome = true ∧ b.claudeUsage.isSome = true) :
    sameBillingUsageDialect fold c b = true := by
  have hpairs : ∀ d ∈ bs, sameBillingUsageDialect fold d b = true := fun d hd =>
    (pairwise_append.1 h).2.2 d hd b mem_cons_self
  obtain ⟨⟨d, hd, hsource⟩, e, he, hsemantic⟩ := labels_mergeBillings bs c hc
  refine same_iff.2 ⟨?_, ?_, hcommon.imp_right .inl⟩
  · rw [← hsource]
    exact (same_iff.1 (hpairs d hd)).1
  · rw [← hsemantic]
    exact (same_iff.1 (hpairs e he)).2.1

theorem OneDialect.of_append (h : OneDialect fold (bs ++ [b])) : OneDialect fold bs :=
  (pairwise_append.1 h).1

theorem mergeBillings_eq_none (h : (mergeBillings fold bs).1 = none) : bs = [] := by
  cases bs using List.reverseRecOn with
  | nil => rfl
  | append_singleton bs b =>
    rw [mergeBillings_concat] at h
    cases h

theorem filterMap_concat {α β : Type} (f : α → Option β) (l : List α) (a : α) :
    (l ++ [a]).filterMap f = l.filterMap f ++ (f a).toList := by
  rw [filterMap_append]
  cases h : f a with
  | none => rw [filterMap_cons_none h]; rfl
  | some b => rw [filterMap_cons_some h]; rfl

/-- **In one dialect of OpenAI's every usage goes in.** -/
theorem OneDialect.payloads_openAI (h : OneDialect fold bs)
    (hopenAI : ∀ b ∈ bs, b.openAIUsage.isSome = true) :
    (mergeBillings fold bs).2.openAI = bs.filterMap (·.openAIUsage) ∧
      ∀ c ∈ (mergeBillings fold bs).1, c.openAIUsage.isSome = true := by
  induction bs using List.reverseRecOn with
  | nil => exact ⟨rfl, fun c hc => absurd hc (Option.not_mem_none c)⟩
  | append_singleton bs b ih =>
    obtain ⟨hpayloads, hsome⟩ := ih h.of_append fun d hd => hopenAI d (mem_append_left _ hd)
    have hb := hopenAI b (mem_append_right _ mem_cons_self)
    rw [mergeBillings_concat, filterMap_concat]
    dsimp only
    cases hmerged : (mergeBillings fold bs).1 with
    | none =>
      obtain rfl := mergeBillings_eq_none hmerged
      refine ⟨rfl, fun c hc => ?_⟩
      cases hc
      rw [mergeBilling_none]
      exact (Option.isSome_map ..).trans hb
    | some c =>
      have hc := hsome c hmerged
      have hsame := h.same hmerged (.inl ⟨hc, hb⟩)
      obtain ⟨u, hu⟩ := Option.isSome_iff_exists.1 hc
      obtain ⟨u', hu'⟩ := Option.isSome_iff_exists.1 hb
      constructor
      · rw [Payloads.step, Option.any_some, hsame, if_pos rfl, Option.bind_some, hc, hb,
          Bool.and_self, if_pos rfl, hpayloads]
      · intro d hd
        cases hd
        rw [mergeBilling_openAI hsame hu hu']
        rfl

/-- **In one dialect of Claude's every usage goes in.** -/
theorem OneDialect.payloads_claude (h : OneDialect fold bs)
    (hclaude : ∀ b ∈ bs, b.openAIUsage = none ∧ b.claudeUsage.isSome = true) :
    (mergeBillings fold bs).2.claude = bs.filterMap (·.claudeUsage) ∧
      ∀ c ∈ (mergeBillings fold bs).1, c.openAIUsage = none ∧ c.claudeUsage.isSome = true := by
  induction bs using List.reverseRecOn with
  | nil => exact ⟨rfl, fun c hc => absurd hc (Option.not_mem_none c)⟩
  | append_singleton bs b ih =>
    obtain ⟨hpayloads, hsome⟩ := ih h.of_append fun d hd => hclaude d (mem_append_left _ hd)
    obtain ⟨hnone, hb⟩ := hclaude b (mem_append_right _ mem_cons_self)
    rw [mergeBillings_concat, filterMap_concat]
    dsimp only
    cases hmerged : (mergeBillings fold bs).1 with
    | none =>
      obtain rfl := mergeBillings_eq_none hmerged
      refine ⟨rfl, fun c hc => ?_⟩
      cases hc
      rw [mergeBilling_none]
      exact ⟨congrArg (Option.map cloneOpenAIUsage) hnone, (Option.isSome_map ..).trans hb⟩
    | some c =>
      obtain ⟨hcnone, hc⟩ := hsome c hmerged
      have hsame := h.same hmerged (.inr ⟨hc, hb⟩)
      obtain ⟨u, hu⟩ := Option.isSome_iff_exists.1 hc
      obtain ⟨u', hu'⟩ := Option.isSome_iff_exists.1 hb
      constructor
      · rw [Payloads.step, Option.any_some, hsame, if_pos rfl, Option.bind_some, Option.bind_some,
          hcnone, Option.isSome_none, Bool.false_and, if_neg Bool.false_ne_true, hc, hb,
          Bool.and_self, if_pos rfl, hpayloads]
      · intro d hd
        cases hd
        rw [mergeBilling_claude hsame (.inl hcnone) hu hu']
        exact ⟨congrArg (Option.map cloneOpenAIUsage) hcnone, rfl⟩

/-! ### A list of usages -/

theorem mergeUsages_sidecar (fold : Char → Char) (us : List Usage) :
    (mergeUsages fold us).billingUsage =
      (mergeBillings fold (us.filterMap (·.billingUsage))).1 := by
  induction us using List.reverseRecOn with
  | nil => rfl
  | append_singleton us u ih =>
    rw [mergeUsages_concat, filterMap_concat, ih]
    dsimp only
    cases u.billingUsage with
    | none => rw [mergeSidecar_none, Option.toList_none, append_nil]
    | some b => rw [mergeSidecar_some, Option.toList_some, mergeBillings_concat]

theorem mergeUsages_overlay {us : List Usage} (h : ∀ u ∈ us, u.NonNegative) :
    OverlayOf us (mergeUsages fold us) := by
  induction us using List.reverseRecOn with
  | nil => exact .empty
  | append_singleton us u ih =>
    rw [mergeUsages_concat]
    have hus := ih fun v hv => h v (mem_append_left _ hv)
    exact (hus.step (h u (mem_append_right _ mem_cons_self))).sidecar _

theorem raised_mergeUsages (fold : Char → Char) (us : List Usage) :
    (mergeUsages fold us).Raised := by
  cases us using List.reverseRecOn with
  | nil => exact ⟨Int.le_refl 0, Int.le_refl 0⟩
  | append_singleton us u =>
    rw [mergeUsages_concat]
    exact raised_merge (mergeUsages fold us) u

theorem canonicalUsage_anthropic {settled : Usage} (h : b.canonicalUsage = some settled)
    (hsemantic : settled.usageSemantic = billingUsageSemanticAnthropic) :
    ∃ u ∈ b.claudeUsage, settled = b.canonicalClaudeUsage u := by
  have hopenAI : billingUsageSemanticOpenAI ≠ billingUsageSemanticAnthropic := by decide
  have hgemini : billingUsageSemanticGemini ≠ billingUsageSemanticAnthropic := by decide
  unfold BillingUsage.canonicalUsage at h
  dsimp only at h
  split at h
  · cases h
    exact absurd hsemantic hopenAI
  · next u _ hu => exact ⟨u, (Option.mem_filter_iff.1 hu).1, (Option.some.inj h).symm⟩
  · cases h
    exact absurd hsemantic hgemini
  · cases h

theorem any_sidecars (p : BillingUsage → Bool) (us : List Usage) :
    (us.filterMap (·.billingUsage)).any p = us.any fun u => u.billingUsage.any p := by
  induction us with
  | nil => rfl
  | cons u us ih =>
    rw [any_cons, ← ih]
    cases hsidecar : u.billingUsage with
    | none => rw [filterMap_cons_none hsidecar]; rfl
    | some b => rw [filterMap_cons_some hsidecar]; rfl

/-- **What the merge of a list of snapshots leaves.** -/
structure MergedUsages (fold : Char → Char) (us : List Usage) (merged : Usage) : Prop where
  /-- Each count is the last that is not zero, and the total is raised to the sums. -/
  counts : OverlayOf us merged
  raised : merged.Raised
  estimated : merged.billingUsage.any (·.estimated) =
    us.any fun u => u.billingUsage.any (·.estimated)
  /-- So it is with the usages of providers, since the last change of dialect. -/
  payloads : ∀ b ∈ merged.billingUsage,
    (mergeBillings fold (us.filterMap (·.billingUsage))).2.Overlaid b
  /-- The cache split of Claude's usages is settled. -/
  split : ∀ settled ∈ merged.billingUsage.bind (·.canonicalUsage),
    settled.usageSemantic = billingUsageSemanticAnthropic →
      (settled.claudeCacheCreation5mTokens, settled.claudeCacheCreation1hTokens) =
        splitOf (mergeBillings fold (us.filterMap (·.billingUsage))).2.claude
  openAI : OneDialect fold (us.filterMap (·.billingUsage)) →
    (∀ b ∈ us.filterMap (·.billingUsage), b.openAIUsage.isSome = true) →
      (mergeBillings fold (us.filterMap (·.billingUsage))).2.openAI =
        (us.filterMap (·.billingUsage)).filterMap (·.openAIUsage)
  claude : OneDialect fold (us.filterMap (·.billingUsage)) →
    (∀ b ∈ us.filterMap (·.billingUsage),
      b.openAIUsage = none ∧ b.claudeUsage.isSome = true) →
      (mergeBillings fold (us.filterMap (·.billingUsage))).2.claude =
        (us.filterMap (·.billingUsage)).filterMap (·.claudeUsage)

/-- **The merge of snapshots, from left to right.** -/
theorem mergeUsages_spec (fold : Char → Char) (us : List Usage)
    (h : ∀ u ∈ us, u.NonNegative ∧ ∀ b ∈ u.billingUsage, b.NonNegative) :
    MergedUsages fold us (mergeUsages fold us) := by
  have hpayloads : ∀ b ∈ (mergeUsages fold us).billingUsage,
      (mergeBillings fold (us.filterMap (·.billingUsage))).2.Overlaid b := by
    rw [mergeUsages_sidecar]
    refine overlaid_mergeBillings fun b hb => ?_
    obtain ⟨u, hu, hub⟩ := List.mem_filterMap.1 hb
    exact (h u hu).2 b hub
  exact
    { counts := mergeUsages_overlay fun u hu => (h u hu).1
      raised := raised_mergeUsages fold us
      estimated := by
        rw [mergeUsages_sidecar, estimated_mergeBillings, any_sidecars]
      payloads := hpayloads
      split := by
        intro settled hsettled hsemantic
        obtain ⟨b, hb, hcanonical⟩ := Option.bind_eq_some_iff.1 hsettled
        obtain ⟨u, hu, rfl⟩ := canonicalUsage_anthropic hcanonical hsemantic
        exact ((hpayloads b hb).claude u hu).settled b
      openAI := fun hone hopenAI => (hone.payloads_openAI hopenAI).1
      claude := fun hone hclaude => (hone.payloads_claude hclaude).1 }

/-- A snapshot of a stream of Claude's. -/
def claudeSnapshot (u : ClaudeUsage) : Usage where
  promptTokens := u.inputTokens
  billingUsage := newClaudeMessagesBillingUsage u

/-- A stream that reports its cache split as a sub-object and then as a flat count. -/
def splitStream : List Usage :=
  [ claudeSnapshot
      { inputTokens := 5
        cacheCreation := some { ephemeral1hInputTokens := 1000 } },
    claudeSnapshot { claudeCacheCreation5mTokens := 100 }]

theorem splitStream_merged : MergedUsages foldChar splitStream (mergeUsages foldChar splitStream) :=
  mergeUsages_spec foldChar splitStream (by decide)

/-- **A prompt of five tokens** has a total that no snapshot reported, and of the two forms of the
cache split the later one, which is flat, is not the one that is settled. -/
theorem splitStream_total_and_split :
    (mergeUsages foldChar splitStream).totalTokens = 5 ∧
      lastNonZero (splitStream.map (·.totalTokens)) = 0 ∧
      ((mergeUsages foldChar splitStream).billingUsage.bind (·.canonicalUsage)).map (fun settled =>
        (settled.claudeCacheCreation5mTokens, settled.claudeCacheCreation1hTokens)) =
          some (0, 1000) := by
  decide

end NexusTok.Tokens
