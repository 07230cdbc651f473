import Mathlib.Algebra.Order.Field.Rat
import Mathlib.Tactic.Linarith
import NexusTok.Tokens.Usage

/-!
# Token counts for a billing expression

`buildTieredTokenParams` : what the variables of a billing expression stand for.  Where a prompt is
reported with everything in it, a category that the expression prices by itself is taken out of
`p` or `c`; where it is reported as text only, nothing is.

* `Partitions` : no token is priced twice and none is left out.
* `partitions_iff` : when this holds.  The tokens that were written to a cache are counted in one
  field or in two, and the labels of a usage decide which are read.

Counts are whole numbers; a `float64` holds each of them exactly.
-/

namespace NexusTok.Tokens

/-- `billingexpr.TokenParams`. -/
structure TokenParams where
  p : ℚ
  c : ℚ
  len : ℚ
  cr : ℚ
  cc : ℚ
  cc1h : ℚ
  img : ℚ
  imgO : ℚ
  ai : ℚ
  ao : ℚ
deriving DecidableEq

/-- `cacheWriteTokensTotal`, of the counts of a usage. -/
def UsageOf.cacheWriteTokensTotal (u : Usage) : Int :=
  if u.claudeCacheCreation5mTokens > 0 ∨ u.claudeCacheCreation1hTokens > 0 then
    max u.promptTokensDetails.cacheCreationTokensTotal
      (u.claudeCacheCreation5mTokens + u.claudeCacheCreation1hTokens)
  else u.promptTokensDetails.cacheCreationTokensTotal

/-- A count without a category that is priced by itself. -/
def less (usedVars : String → Bool) (name : String) (category n : ℚ) : ℚ :=
  if usedVars name then n - category else n

def buildTieredTokenParams (usage : Usage) (isClaudeUsageSemantic : Bool)
    (usedVars : String → Bool) : TokenParams :=
  let p : ℚ := usage.promptTokens
  let c : ℚ := usage.completionTokens
  let cr : ℚ := usage.promptTokensDetails.cachedTokens
  let cc5m : ℚ :=
    if usage.usageSemantic = billingUsageSemanticAnthropic then usage.claudeCacheCreation5mTokens
    else usage.promptTokensDetails.cacheCreationTokensTotal
  let cc1h : ℚ :=
    if usage.usageSemantic = billingUsageSemanticAnthropic then usage.claudeCacheCreation1hTokens
    else 0
  let img : ℚ := usage.promptTokensDetails.imageTokens
  let ai : ℚ := usage.promptTokensDetails.audioTokens
  let imgO : ℚ := usage.completionTokenDetails.imageTokens
  let ao : ℚ := usage.completionTokenDetails.audioTokens
  let inputLen := if isClaudeUsageSemantic then p + cr + cc5m + cc1h else p
  let restP :=
    if isClaudeUsageSemantic then p
    else less usedVars "ai" ai (less usedVars "img" img (less usedVars "cc1h" cc1h
      (less usedVars "cc" cc5m (less usedVars "cr" cr p))))
  let restC :=
    if isClaudeUsageSemantic then c else less usedVars "ao" ao (less usedVars "img_o" imgO c)
  { p := if restP < 0 then 0 else restP
    c := if restC < 0 then 0 else restC
    len := inputLen
    cr := cr, cc := cc5m, cc1h := cc1h, img := img, imgO := imgO, ai := ai, ao := ao }

/-! ### Every token once -/

/-- A category, if the expression prices it by itself. -/
def used (usedVars : String → Bool) (name : String) (category : ℚ) : ℚ :=
  if usedVars name then category else 0

namespace TokenParams

variable (t : TokenParams) (usedVars : String → Bool)

/-- The tokens of a prompt that the expression prices by itself. -/
def usedInput : ℚ :=
  used usedVars "cr" t.cr + used usedVars "cc" t.cc + used usedVars "cc1h" t.cc1h +
    used usedVars "img" t.img + used usedVars "ai" t.ai

/-- The tokens of a completion that the expression prices by itself. -/
def usedOutput : ℚ := used usedVars "img_o" t.imgO + used usedVars "ao" t.ao

end TokenParams

/-- Every token of a usage is priced once: in `p` or `c`, or in a category. -/
structure Partitions (u : Usage) (isClaudeUsageSemantic : Bool) (usedVars : String → Bool)
    (t : TokenParams) : Prop where
  prompt : isClaudeUsageSemantic = false →
    t.p + t.usedInput usedVars = max (u.promptTokens : ℚ) (t.usedInput usedVars)
  completion : isClaudeUsageSemantic = false →
    t.c + t.usedOutput usedVars = max (u.completionTokens : ℚ) (t.usedOutput usedVars)
  len : isClaudeUsageSemantic = false → t.len = u.promptTokens
  claudePrompt : isClaudeUsageSemantic = true → t.p = u.promptTokens
  claudeCompletion : isClaudeUsageSemantic = true → t.c = u.completionTokens
  claudeLen : isClaudeUsageSemantic = true →
    t.len = u.promptTokens + u.promptTokensDetails.cachedTokens + u.cacheWriteTokensTotal

/-- No count is negative. -/
structure UsageOf.Counted (u : Usage) : Prop where
  prompt : 0 ≤ u.promptTokens
  completion : 0 ≤ u.completionTokens
  cached : 0 ≤ u.promptTokensDetails.cachedTokens
  cachedCreation : 0 ≤ u.promptTokensDetails.cachedCreationTokens
  cacheWrite : 0 ≤ u.promptTokensDetails.cacheWriteTokens
  image : 0 ≤ u.promptTokensDetails.imageTokens
  audio : 0 ≤ u.promptTokensDetails.audioTokens
  imageOutput : 0 ≤ u.completionTokenDetails.imageTokens
  audioOutput : 0 ≤ u.completionTokenDetails.audioTokens
  cache5m : 0 ≤ u.claudeCacheCreation5mTokens
  cache1h : 0 ≤ u.claudeCacheCreation1hTokens

/-- The field that the labels of a usage point to counts all tokens written to a cache. -/
def UsageOf.CacheWritesRead (u : Usage) : Prop :=
  if u.usageSemantic = billingUsageSemanticAnthropic then
    u.promptTokensDetails.cacheCreationTokensTotal ≤
      u.claudeCacheCreation5mTokens + u.claudeCacheCreation1hTokens
  else
    u.claudeCacheCreation5mTokens + u.claudeCacheCreation1hTokens ≤
      u.promptTokensDetails.cacheCreationTokensTotal

theorem less_eq (usedVars : String → Bool) (name : String) (category n : ℚ) :
    less usedVars name category n = n - used usedVars name category := by
  unfold less used
  split
  · rfl
  · rw [sub_zero]

/-- What is left of a count, together with what was taken out of it. -/
theorem clamp_add (n taken : ℚ) :
    (if n - taken < 0 then 0 else n - taken) + taken = max n taken := by
  split_ifs with h
  · rw [zero_add, max_eq_right (by linarith)]
  · rw [sub_add_cancel, max_eq_left (by linarith)]

theorem cacheWriteTokensTotal_eq {u : Usage} (hu : u.Counted) :
    u.cacheWriteTokensTotal = max u.promptTokensDetails.cacheCreationTokensTotal
      (u.claudeCacheCreation5mTokens + u.claudeCacheCreation1hTokens) := by
  have h5m := hu.cache5m
  have h1h := hu.cache1h
  have htotal : 0 ≤ u.promptTokensDetails.cacheCreationTokensTotal := le_max_right _ _
  unfold UsageOf.cacheWriteTokensTotal
  split_ifs with h
  · rfl
  · rw [max_eq_left (by omega)]

section Partition

variable (u : Usage) (usedVars : String → Bool)

theorem prompt_partition :
    (buildTieredTokenParams u false usedVars).p +
        (buildTieredTokenParams u false usedVars).usedInput usedVars =
      max (u.promptTokens : ℚ) ((buildTieredTokenParams u false usedVars).usedInput usedVars) := by
  rw [← clamp_add]
  congr 1
  simp only [buildTieredTokenParams, less_eq, TokenParams.usedInput, Bool.false_eq_true, if_false]
  simp only [← sub_sub]

theorem completion_partition :
    (buildTieredTokenParams u false usedVars).c +
        (buildTieredTokenParams u false usedVars).usedOutput usedVars =
      max (u.completionTokens : ℚ)
        ((buildTieredTokenParams u false usedVars).usedOutput usedVars) := by
  rw [← clamp_add]
  congr 1
  simp only [buildTieredTokenParams, less_eq, TokenParams.usedOutput, Bool.false_eq_true, if_false]
  simp only [← sub_sub]

variable {u}

theorem claude_prompt (hu : u.Counted) :
    (buildTieredTokenParams u true usedVars).p = u.promptTokens := by
  have h : ¬ ((u.promptTokens : ℚ) < 0) := not_lt.2 (by exact_mod_cast hu.prompt)
  simp only [buildTieredTokenParams, if_true, if_neg h]

theorem claude_completion (hu : u.Counted) :
    (buildTieredTokenParams u true usedVars).c = u.completionTokens := by
  have h : ¬ ((u.completionTokens : ℚ) < 0) := not_lt.2 (by exact_mod_cast hu.completion)
  simp only [buildTieredTokenParams, if_true, if_neg h]

/-- The length of a context is right if the tokens written to a cache were all read. -/
theorem claude_len_iff (hu : u.Counted) :
    (buildTieredTokenParams u true usedVars).len =
        u.promptTokens + u.promptTokensDetails.cachedTokens + u.cacheWriteTokensTotal ↔
      u.CacheWritesRead := by
  rw [cacheWriteTokensTotal_eq hu]
  simp only [buildTieredTokenParams, if_true, UsageOf.CacheWritesRead]
  split_ifs with h
  · rw [add_assoc, add_right_inj, ← Int.cast_add, Int.cast_inj, eq_comm, max_eq_right_iff]
  · rw [add_zero, add_right_inj, Int.cast_inj, eq_comm, max_eq_left_iff]

/-- **Which usages are priced token by token**: with a prompt reported as a whole, all of them;
with a prompt of text only, those whose tokens written to a cache are all in the field that is
read. -/
theorem partitions_iff (u : Usage) (isClaudeUsageSemantic : Bool) (usedVars : String → Bool)
    (hu : u.Counted) :
    Partitions u isClaudeUsageSemantic usedVars
        (buildTieredTokenParams u isClaudeUsageSemantic usedVars) ↔
      (isClaudeUsageSemantic = true → u.CacheWritesRead) := by
  cases isClaudeUsageSemantic with
  | false =>
    refine ⟨fun _ h => Bool.noConfusion h, fun _ => ?_⟩
    exact {
      prompt := fun _ => prompt_partition u usedVars
      completion := fun _ => completion_partition u usedVars
      len := fun _ => rfl
      claudePrompt := fun h => Bool.noConfusion h
      claudeCompletion := fun h => Bool.noConfusion h
      claudeLen := fun h => Bool.noConfusion h }
  | true =>
    refine ⟨fun h _ => (claude_len_iff usedVars hu).1 (h.claudeLen rfl), fun h => ?_⟩
    exact {
      prompt := fun h => Bool.noConfusion h
      completion := fun h => Bool.noConfusion h
      len := fun h => Bool.noConfusion h
      claudePrompt := fun _ => claude_prompt usedVars hu
      claudeCompletion := fun _ => claude_completion usedVars hu
      claudeLen := fun _ => (claude_len_iff usedVars hu).2 (h rfl) }

end Partition

/-- What an Anthropic upstream reports that does not split its cache writes by lifetime. -/
def unsplitClaudeUsage : ClaudeUsage :=
  { inputTokens := 1000, cacheCreationInputTokens := 500, outputTokens := 10 }

/-- The usage that is billed for it. -/
def unsplitUsage : Usage :=
  BillingUsage.canonicalClaudeUsage
    { source := billingUsageSourceClaudeMessages, semantic := billingUsageSemanticAnthropic
      claudeUsage := some unsplitClaudeUsage } unsplitClaudeUsage

theorem partitions_iff_unsplit :
    Partitions unsplitUsage false (fun _ => true)
        (buildTieredTokenParams unsplitUsage false fun _ => true) ↔
      (false = true → unsplitUsage.CacheWritesRead) :=
  partitions_iff unsplitUsage false _ (by constructor <;> decide)

/-- Its 500 tokens written to the cache are priced nowhere. -/
theorem unsplit_dropped :
    ¬ Partitions unsplitUsage true (fun _ => true)
        (buildTieredTokenParams unsplitUsage true fun _ => true) ∧
      (buildTieredTokenParams unsplitUsage true fun _ => true).cc = 0 ∧
      (buildTieredTokenParams unsplitUsage true fun _ => true).len = 1000 := by
  have hlen : (buildTieredTokenParams unsplitUsage true fun _ => true).len = 1000 := by
    decide +kernel
  refine ⟨fun h => ?_, by decide +kernel, hlen⟩
  have h := h.claudeLen rfl
  rw [hlen] at h
  revert h
  decide +kernel

end NexusTok.Tokens
