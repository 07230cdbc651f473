import Mathlib.Algebra.Order.Round
import Mathlib.Data.Rat.Floor
import Mathlib.Tactic.Linarith
import Mathlib.Tactic.Positivity
import NexusTok.Tokens.Tiered

/-!
# The quota of a text request

`calculateTextQuotaSummary`: what a request costs by ratios or by a price, with tool calls on top.
Amounts are exact decimal numbers; `divDecimal` rounds to sixteen places as the library does.

* `quota_nonneg` : no request is a credit, except that a negative count of audio tokens is one
  where the model itself is free.
* `quota_eq_zero`, `one_le_quota` : what is not billable is free, and what is costs something
  unless its ratio is zero.
* `quota_mono` : more completion tokens never cost less, unless the tokens that were written to a
  cache are worked out from a reported cost (`InfersCacheCreation`).

Counts are integers without bound.  The name of the token and the time the request took, which are
only logged, are left out.
-/

namespace NexusTok.TextQuota

open Tokens List

/-! ### Amounts -/

/-- To the nearest whole number, halves away from zero. -/
def roundAway (x : ℚ) : ℤ := if 0 ≤ x then ⌊x + 1 / 2⌋ else -⌊-x + 1 / 2⌋

/-- `Decimal.Div`. -/
def divDecimal (a b : ℚ) : ℚ := roundAway (a / b * 10 ^ 16) / 10 ^ 16

def maxQuota : ℤ := 2147483647
def minQuota : ℤ := -2147483648

/-- `QuotaFromDecimalChecked`, `QuotaRoundChecked` of a number: the quota, and whether it had to be
clamped. -/
def quotaChecked (x : ℚ) : ℤ × Bool :=
  let n := roundAway x
  if n > maxQuota then (maxQuota, true)
  else if n < minQuota then (minQuota, true)
  else (n, false)

def quotaFromDecimal (x : ℚ) : ℤ := (quotaChecked x).1

/-! ### What a request is priced by -/

/-- `types.PriceData`, as far as text requests read it.  The other ratios stand in the order of an
iteration of their map. -/
structure PriceData where
  modelPrice : ℚ := 0
  modelRatio : ℚ := 0
  completionRatio : ℚ := 0
  cacheRatio : ℚ := 0
  cacheCreationRatio : ℚ := 0
  cacheCreation5mRatio : ℚ := 0
  cacheCreation1hRatio : ℚ := 0
  imageRatio : ℚ := 0
  groupRatio : ℚ := 0
  otherRatios : List ℚ := []
  usePrice : Bool := false

def PriceData.applyOtherRatiosToDecimal (pd : PriceData) (value : ℚ) : ℚ :=
  pd.otherRatios.foldl (fun value ratio => if 0 < ratio ∧ ratio ≠ 1 then value * ratio else value)
    value

/-- The settings that prices depend on. -/
structure Settings where
  quotaPerUnit : ℚ
  /-- `GetToolPriceForModel` of a tool and a model. -/
  toolPriceForModel : String → String → ℚ
  /-- `GetDefaultModelRatioMap`. -/
  defaultModelRatio : String → Option ℚ
  /-- The number that a JSON value is, if it is one. -/
  jsonNumber : String → Option ℚ

/-- `relaycommon.RelayInfo` and the `gin.Context`, as far as text requests are priced by them. -/
structure RelayInfo where
  billingModelName : String := ""
  finalRequestRelayFormat : String := ""
  /-- `ChannelMeta.ChannelType`, if there is a channel. -/
  channelType : Option ℤ := none
  isResponsesMode : Bool := false
  estimatePromptTokens : ℤ := 0
  /-- `ResponsesUsageInfo.BuiltInTools` with the counts of their calls, in the order of an
  iteration; a nil tool has none. -/
  builtInTools : List (String × Option ℤ) := []
  claudeWebSearchRequests : ℤ := 0
  geminiGoogleSearchCall : Bool := false
  priceData : PriceData := {}

def relayFormatClaude : String := "claude"

def channelTypeOpenRouter : ℤ := 20

/-! ### Tool calls -/

structure ToolSurchargeItem where
  name : String
  count : ℤ
  price : ℚ
deriving DecidableEq

/-- `collectToolSurchargeItem`.  Prices are finite. -/
def collectToolSurchargeItem (st : Settings) (modelName : String) (items : List ToolSurchargeItem)
    (name : String) (count : ℤ) : List ToolSurchargeItem :=
  if count ≤ 0 then items
  else
    let price := st.toolPriceForModel name modelName
    if price ≤ 0 then items else items ++ [⟨name, count, price⟩]

def maxInt : ℤ := 9223372036854775807

/-- The order of `mergeToolSurchargeItems`. -/
def ToolSurchargeItem.le (a b : ToolSurchargeItem) : Bool :=
  if a.name = b.name then decide (a.price ≤ b.price) else decide (a.name ≤ b.name)

/-- One turn of the loop of `mergeToolSurchargeItems`. -/
def mergeItem (merged : List ToolSurchargeItem) (item : ToolSurchargeItem) :
    List ToolSurchargeItem :=
  match merged.getLast? with
  | some last =>
    if last.name = item.name ∧ last.price = item.price then
      merged.dropLast ++ [{ last with
        count := if item.count > maxInt - last.count then maxInt else last.count + item.count }]
    else merged ++ [item]
  | none => [item]

def mergeToolSurchargeItems (items : List ToolSurchargeItem) : List ToolSurchargeItem :=
  (items.mergeSort ToolSurchargeItem.le).foldl mergeItem []

/-- The tool calls of a request. -/
def toolItems (st : Settings) (info : RelayInfo) : List ToolSurchargeItem :=
  let collect := collectToolSurchargeItem st info.billingModelName
  let items := info.builtInTools.foldl (fun items tool =>
    match tool.2 with
    | some callCount => collect items tool.1 callCount
    | none => items) []
  let items :=
    if !info.isResponsesMode && hasSuffix info.billingModelName "search-preview" then
      collect items "web_search_preview" 1
    else items
  let items := collect items "web_search" info.claudeWebSearchRequests
  if info.geminiGoogleSearchCall then collect items "google_search" 1 else items

def ToolSurchargeItem.surcharge (st : Settings) (groupRatio : ℚ) (item : ToolSurchargeItem) : ℚ :=
  divDecimal (item.price * item.count) 1000 * groupRatio * st.quotaPerUnit

/-- `calculateTextToolCallSurcharge`: the items and their sum. -/
def calculateTextToolCallSurcharge (st : Settings) (info : RelayInfo) :
    List ToolSurchargeItem × ℚ :=
  let items := mergeToolSurchargeItems (toolItems st info)
  (items, (items.map (·.surcharge st info.priceData.groupRatio)).sum)

/-! ### Counts -/

/-- `textQuotaSummary`: the counts of a request, and what they amount to.  Its ratios are those of
the price data. -/
structure TextQuotaSummary where
  modelName : String
  usageSemantic : String
  promptTokens : ℤ
  completionTokens : ℤ
  totalTokens : ℤ
  cacheTokens : ℤ
  cacheCreationTokens : ℤ
  cacheCreationTokens5m : ℤ
  cacheCreationTokens1h : ℤ
  imageTokens : ℤ
  audioTokens : ℤ
  audioInputPrice : ℚ := 0
  toolSurchargeItems : List ToolSurchargeItem := []
  toolCallSurchargeQuota : ℚ := 0
  fixedPriceBilling : Bool := false
  quota : ℤ := 0

def TextQuotaSummary.isClaudeUsageSemantic (s : TextQuotaSummary) : Bool :=
  s.usageSemantic == "anthropic"

def TextQuotaSummary.hasBillableUsage (s : TextQuotaSummary) : Bool :=
  s.fixedPriceBilling || decide (s.totalTokens > 0) || decide (s.toolCallSurchargeQuota ≠ 0)

def usageSemanticFromUsage (info : RelayInfo) (usage : Option Usage) : String :=
  match usage.filter fun u => u.usageSemantic ≠ "" with
  | some u => u.usageSemantic
  | none => if info.finalRequestRelayFormat = relayFormatClaude then "anthropic" else "openai"

def isLegacyClaudeDerivedOpenAIUsage (info : RelayInfo) (usage : Usage) : Bool :=
  info.finalRequestRelayFormat ≠ relayFormatClaude && usage.usageSource == "" &&
    usage.usageSemantic == "" &&
    (decide (usage.claudeCacheCreation5mTokens > 0) ||
      decide (usage.claudeCacheCreation1hTokens > 0))

def hasCustomModelRatio (st : Settings) (modelName : String) (currentRatio : ℚ) : Bool :=
  match st.defaultModelRatio modelName with
  | none => true
  | some defaultRatio => decide (currentRatio ≠ defaultRatio)

/-- `CalcOpenRouterCacheCreateTokens`.  A quotient that is no number is clamped as well. -/
def calcOpenRouterCacheCreateTokens (st : Settings) (usage : Usage) (pd : PriceData) : ℤ :=
  if pd.cacheCreationRatio = 1 then 0
  else
    let quotaPrice := pd.modelRatio / st.quotaPerUnit
    let promptCacheCreatePrice := quotaPrice * pd.cacheCreationRatio
    let promptCacheReadPrice := quotaPrice * pd.cacheRatio
    let completionPrice := quotaPrice * pd.completionRatio
    let cost := (usage.cost.bind st.jsonNumber).getD 0
    let value := (cost - usage.promptTokens * quotaPrice +
        usage.promptTokensDetails.cachedTokens * (quotaPrice - promptCacheReadPrice) -
        usage.completionTokens * completionPrice) / (promptCacheCreatePrice - quotaPrice)
    if st.quotaPerUnit = 0 ∨ promptCacheCreatePrice - quotaPrice = 0 then -1
    else
      match quotaChecked value with
      | (_, true) => -1
      | (quota, false) => quota

/-- The counts of a usage as they were reported. -/
def reported (info : RelayInfo) (usageSemantic : String) (usage : Usage) : TextQuotaSummary where
  modelName := info.billingModelName
  usageSemantic := usageSemantic
  promptTokens := usage.promptTokens
  completionTokens := usage.completionTokens
  totalTokens := usage.promptTokens + usage.completionTokens
  cacheTokens := usage.promptTokensDetails.cachedTokens
  cacheCreationTokens := usage.promptTokensDetails.cacheCreationTokensTotal
  cacheCreationTokens5m := usage.claudeCacheCreation5mTokens
  cacheCreationTokens1h := usage.claudeCacheCreation1hTokens
  imageTokens := usage.promptTokensDetails.imageTokens
  audioTokens := usage.promptTokensDetails.audioTokens

/-- The tokens written to a cache are worked out from the reported cost.  The cost itself is
compared with an integer, which no JSON value equals. -/
def infersCacheCreation (st : Settings) (info : RelayInfo) (s : TextQuotaSummary) : Bool :=
  decide (s.cacheCreationTokens = 0) && decide (info.priceData.cacheCreationRatio ≠ 1) &&
    !(info.priceData.usePrice ||
      hasCustomModelRatio st s.modelName info.priceData.modelRatio)

/-- A Claude model behind OpenRouter. -/
def isOpenRouterClaudeBilling (info : RelayInfo) (s : TextQuotaSummary) : Bool :=
  info.channelType == some channelTypeOpenRouter && s.isClaudeUsageSemantic

/-- The counts of a usage as they are billed: OpenRouter reports prompts as a whole. -/
def openRouterCounts (st : Settings) (info : RelayInfo) (usage : Usage) (s : TextQuotaSummary) :
    TextQuotaSummary :=
  if isOpenRouterClaudeBilling info s then
    let prompt := s.promptTokens - s.cacheTokens
    let maybeCacheCreationTokens := calcOpenRouterCacheCreateTokens st usage info.priceData
    let created :=
      if infersCacheCreation st info s ∧ maybeCacheCreationTokens ≥ 0 ∧
          prompt ≥ maybeCacheCreationTokens then maybeCacheCreationTokens
      else s.cacheCreationTokens
    { s with promptTokens := prompt - created, cacheCreationTokens := created }
  else s

/-! ### The quota -/

def getGeminiInputAudioPricePerMillionTokens (modelName : String) : ℚ :=
  if hasPrefix modelName "gemini-2.5-flash-preview-native-audio" then 3
  else if hasPrefix modelName "gemini-2.5-flash-preview-lite" then 1 / 2
  else if hasPrefix modelName "gemini-2.5-flash-preview" then 1
  else if hasPrefix modelName "gemini-2.5-flash" then 1
  else if hasPrefix modelName "gemini-2.0-flash" then 7 / 10
  else if hasPrefix modelName "gemini-robotics-er-1.5" then 1
  else 0

section Ratios

variable (pd : PriceData) (s : TextQuotaSummary) (legacyClaudeDerived : Bool)

/-- The prompt of the usage holds text only. -/
def textOnly : Bool := s.isClaudeUsageSemantic || legacyClaudeDerived

def cachedCreationTokensWithRatio : ℚ :=
  if s.cacheCreationTokens ≠ 0 ∨ s.cacheCreationTokens5m > 0 ∨ s.cacheCreationTokens1h > 0 then
    if textOnly s legacyClaudeDerived then
      let remaining :=
        max (s.cacheCreationTokens - s.cacheCreationTokens5m - s.cacheCreationTokens1h) 0
      remaining * pd.cacheCreationRatio + s.cacheCreationTokens5m * pd.cacheCreation5mRatio +
        s.cacheCreationTokens1h * pd.cacheCreation1hRatio
    else s.cacheCreationTokens * pd.cacheCreationRatio
  else 0

def audioInputPrice : ℚ :=
  if s.audioTokens = 0 then 0 else getGeminiInputAudioPricePerMillionTokens s.modelName

/-- `baseTokens`: what is left of the prompt, which is never negative. -/
def baseTokens : ℚ :=
  let base : ℚ := s.promptTokens
  let base := if textOnly s legacyClaudeDerived then base else base - s.cacheTokens
  let base := if textOnly s legacyClaudeDerived then base else base - s.cacheCreationTokens
  let base := base - s.imageTokens
  let base := if audioInputPrice s > 0 then base - s.audioTokens else base
  if base < 0 then 0 else base

def promptQuota : ℚ :=
  baseTokens s legacyClaudeDerived + s.cacheTokens * pd.cacheRatio +
    s.imageTokens * pd.imageRatio + cachedCreationTokensWithRatio pd s legacyClaudeDerived

def audioInputQuota (st : Settings) : ℚ :=
  if audioInputPrice s > 0 then
    divDecimal (audioInputPrice s) 1000000 * s.audioTokens * pd.groupRatio * st.quotaPerUnit
  else 0

def PriceData.ratio : ℚ := pd.modelRatio * pd.groupRatio

/-- What the tokens of a request cost by ratios. -/
def ratioAmount (st : Settings) : ℚ :=
  pd.applyOtherRatiosToDecimal
    ((promptQuota pd s legacyClaudeDerived + s.completionTokens * pd.completionRatio) * pd.ratio +
      audioInputQuota pd s st)

/-- What a request costs by its price. -/
def priceAmount (st : Settings) : ℚ :=
  pd.applyOtherRatiosToDecimal (pd.modelPrice * st.quotaPerUnit * pd.groupRatio)

end Ratios

/-- An amount by ratios, which is at least one unit where the ratio is not zero. -/
def atLeastOne (ratio amount : ℚ) : ℚ := if ratio ≠ 0 ∧ amount ≤ 0 then 1 else amount

/-- The quota before the check for billable usage. -/
def rawQuota (st : Settings) (pd : PriceData) (s : TextQuotaSummary)
    (legacyClaudeDerived : Bool) : ℤ :=
  if pd.usePrice then quotaFromDecimal (priceAmount pd st + s.toolCallSurchargeQuota)
  else quotaFromDecimal (atLeastOne pd.ratio
    (ratioAmount pd s legacyClaudeDerived st + s.toolCallSurchargeQuota))

/-- The quota after it. -/
def billedQuota (ratio : ℚ) (billable : Bool) (quota : ℤ) : ℤ :=
  if !billable then 0 else if ratio ≠ 0 ∧ quota = 0 then 1 else quota

/-- The usage that stands in for none. -/
def estimatedUsage (info : RelayInfo) : Usage :=
  { promptTokens := info.estimatePromptTokens, totalTokens := info.estimatePromptTokens }

/-- The counts and the tool calls of a request, before it is priced. -/
def counted (st : Settings) (info : RelayInfo) (usage : Option Usage) : TextQuotaSummary :=
  let u := usage.getD (estimatedUsage info)
  let s := openRouterCounts st info u (reported info (usageSemanticFromUsage info usage) u)
  let tools := calculateTextToolCallSurcharge st info
  { s with
    toolSurchargeItems := tools.1
    toolCallSurchargeQuota := tools.2
    audioInputPrice := if info.priceData.usePrice then 0 else audioInputPrice s }

def calculateTextQuotaSummary (st : Settings) (info : RelayInfo) (usage : Option Usage) :
    TextQuotaSummary :=
  let s := counted st info usage
  let legacyClaudeDerived :=
    isLegacyClaudeDerivedOpenAIUsage info (usage.getD (estimatedUsage info))
  { s with
    quota := billedQuota info.priceData.ratio s.hasBillableUsage
      (rawQuota st info.priceData s legacyClaudeDerived) }

/-! ### Rounding and scaling -/

theorem roundAway_nonneg {x : ℚ} (h : 0 ≤ x) : 0 ≤ roundAway x := by
  rw [roundAway, if_pos h]
  exact Int.floor_nonneg.2 (by linarith)

theorem roundAway_mono {x y : ℚ} (h : x ≤ y) : roundAway x ≤ roundAway y := by
  unfold roundAway
  split_ifs with hx hy hy
  · exact Int.floor_le_floor (by linarith)
  · exact absurd (hx.trans h) hy
  · -- the two lie on both sides of zero
    have hneg : 0 ≤ ⌊-x + 1 / 2⌋ := Int.floor_nonneg.2 (by linarith)
    have hpos : 0 ≤ ⌊y + 1 / 2⌋ := Int.floor_nonneg.2 (by linarith)
    omega
  · have hfloor : ⌊-y + 1 / 2⌋ ≤ ⌊-x + 1 / 2⌋ := Int.floor_le_floor (by linarith)
    omega

theorem quotaFromDecimal_eq (x : ℚ) :
    quotaFromDecimal x = max minQuota (min maxQuota (roundAway x)) := by
  unfold quotaFromDecimal quotaChecked maxQuota minQuota
  dsimp only
  split_ifs <;> simp only <;> omega

theorem quotaFromDecimal_nonneg {x : ℚ} (h : 0 ≤ x) : 0 ≤ quotaFromDecimal x := by
  have hround := roundAway_nonneg h
  rw [quotaFromDecimal_eq]
  unfold maxQuota
  exact le_max_of_le_right (le_min (by norm_num) hround)

theorem quotaFromDecimal_mono {x y : ℚ} (h : x ≤ y) : quotaFromDecimal x ≤ quotaFromDecimal y := by
  rw [quotaFromDecimal_eq, quotaFromDecimal_eq]
  exact max_le_max_left _ (min_le_min_left _ (roundAway_mono h))

theorem divDecimal_nonneg {a b : ℚ} (ha : 0 ≤ a) (hb : 0 ≤ b) : 0 ≤ divDecimal a b := by
  have h : 0 ≤ roundAway (a / b * 10 ^ 16) := roundAway_nonneg (by positivity)
  unfold divDecimal
  have h' : (0 : ℚ) ≤ roundAway (a / b * 10 ^ 16) := by exact_mod_cast h
  positivity

/-- The other ratios multiply an amount by one positive factor. -/
theorem applyOtherRatios_eq (pd : PriceData) :
    ∃ k : ℚ, 0 < k ∧ ∀ value, pd.applyOtherRatiosToDecimal value = value * k := by
  unfold PriceData.applyOtherRatiosToDecimal
  induction pd.otherRatios with
  | nil => exact ⟨1, one_pos, fun value => (mul_one value).symm⟩
  | cons ratio rest ih =>
    obtain ⟨k, hk, hfold⟩ := ih
    by_cases h : 0 < ratio ∧ ratio ≠ 1
    · refine ⟨ratio * k, mul_pos h.1 hk, fun value => ?_⟩
      rw [foldl_cons, if_pos h, hfold, mul_assoc]
    · refine ⟨k, hk, fun value => ?_⟩
      rw [foldl_cons, if_neg h, hfold]

theorem applyOtherRatios_nonneg (pd : PriceData) {value : ℚ} (h : 0 ≤ value) :
    0 ≤ pd.applyOtherRatiosToDecimal value := by
  obtain ⟨k, hk, heq⟩ := applyOtherRatios_eq pd
  rw [heq]
  positivity

theorem applyOtherRatios_mono (pd : PriceData) {v w : ℚ} (h : v ≤ w) :
    pd.applyOtherRatiosToDecimal v ≤ pd.applyOtherRatiosToDecimal w := by
  obtain ⟨k, hk, heq⟩ := applyOtherRatios_eq pd
  rw [heq, heq]
  exact mul_le_mul_of_nonneg_right h hk.le

/-! ### Tool calls cost something -/

/-- A tool with a price was called. -/
def ToolSurchargeItem.Billed (item : ToolSurchargeItem) : Prop := 0 < item.count ∧ 0 < item.price

theorem collect_billed (st : Settings) (modelName : String) {items : List ToolSurchargeItem}
    (name : String) (count : ℤ) (h : ∀ item ∈ items, item.Billed) :
    ∀ item ∈ collectToolSurchargeItem st modelName items name count, item.Billed := by
  unfold collectToolSurchargeItem
  dsimp only
  split_ifs with hcount hprice
  · exact h
  · exact h
  · intro item hitem
    rcases mem_append.1 hitem with hold | hnew
    · exact h item hold
    · rw [mem_singleton.1 hnew]
      exact ⟨not_le.1 hcount, not_le.1 hprice⟩

theorem toolItems_billed (st : Settings) (info : RelayInfo) :
    ∀ item ∈ toolItems st info, item.Billed := by
  -- the loop over the tools of the platform
  have htools : ∀ (tools : List (String × Option ℤ)) (items : List ToolSurchargeItem),
      (∀ item ∈ items, item.Billed) →
        ∀ item ∈ tools.foldl (fun items tool =>
          match tool.2 with
          | some callCount =>
            collectToolSurchargeItem st info.billingModelName items tool.1 callCount
          | none => items) items, item.Billed := by
    intro tools
    induction tools with
    | nil => exact fun _ h => h
    | cons tool rest ih =>
      intro items h
      rw [foldl_cons]
      refine ih _ ?_
      cases tool.2 with
      | none => exact h
      | some callCount => exact collect_billed st _ _ _ h
  have hbuiltIn := htools info.builtInTools [] (fun _ h => absurd h not_mem_nil)
  unfold toolItems
  dsimp only
  split_ifs
  · exact collect_billed st _ _ _ (collect_billed st _ _ _ (collect_billed st _ _ _ hbuiltIn))
  · exact collect_billed st _ _ _ (collect_billed st _ _ _ hbuiltIn)
  · exact collect_billed st _ _ _ (collect_billed st _ _ _ hbuiltIn)
  · exact collect_billed st _ _ _ hbuiltIn

theorem mergeItem_billed {merged : List ToolSurchargeItem} {item : ToolSurchargeItem}
    (hmerged : ∀ i ∈ merged, i.Billed) (hitem : item.Billed) :
    ∀ i ∈ mergeItem merged item, i.Billed := by
  unfold mergeItem
  cases hlast : merged.getLast? with
  | none => exact fun i hi => mem_singleton.1 hi ▸ hitem
  | some last =>
    have hbilled := hmerged last (mem_of_getLast? hlast)
    dsimp only
    split_ifs with hsame hover
    · intro i hi
      rcases mem_append.1 hi with hold | hnew
      · exact hmerged i (dropLast_subset _ hold)
      · rw [mem_singleton.1 hnew]
        exact ⟨by unfold maxInt; norm_num, hbilled.2⟩
    · intro i hi
      rcases mem_append.1 hi with hold | hnew
      · exact hmerged i (dropLast_subset _ hold)
      · rw [mem_singleton.1 hnew]
        exact ⟨add_pos hbilled.1 hitem.1, hbilled.2⟩
    · intro i hi
      rcases mem_append.1 hi with hold | hnew
      · exact hmerged i hold
      · exact mem_singleton.1 hnew ▸ hitem

theorem merge_billed {items : List ToolSurchargeItem} (h : ∀ item ∈ items, item.Billed) :
    ∀ item ∈ mergeToolSurchargeItems items, item.Billed := by
  have hfold : ∀ (items merged : List ToolSurchargeItem), (∀ item ∈ items, item.Billed) →
      (∀ item ∈ merged, item.Billed) → ∀ item ∈ items.foldl mergeItem merged, item.Billed := by
    intro items
    induction items with
    | nil => exact fun _ _ h => h
    | cons item rest ih =>
      intro merged hitems hmerged
      rw [foldl_cons]
      exact ih _ (fun i hi => hitems i (mem_cons_of_mem _ hi))
        (mergeItem_billed hmerged (hitems item mem_cons_self))
  refine hfold _ _ (fun item hitem => h item ?_) (fun _ h => absurd h not_mem_nil)
  exact (mergeSort_perm _ _).mem_iff.1 hitem

/-- The prices of a request are not negative. -/
structure PriceData.Nonneg (pd : PriceData) : Prop where
  modelPrice : 0 ≤ pd.modelPrice
  modelRatio : 0 ≤ pd.modelRatio
  completionRatio : 0 ≤ pd.completionRatio
  cacheRatio : 0 ≤ pd.cacheRatio
  cacheCreationRatio : 0 ≤ pd.cacheCreationRatio
  cacheCreation5mRatio : 0 ≤ pd.cacheCreation5mRatio
  cacheCreation1hRatio : 0 ≤ pd.cacheCreation1hRatio
  imageRatio : 0 ≤ pd.imageRatio
  groupRatio : 0 ≤ pd.groupRatio

section Charges

variable {st : Settings} {info : RelayInfo}

theorem surcharge_nonneg (hq : 0 ≤ st.quotaPerUnit) (hgroup : 0 ≤ info.priceData.groupRatio) :
    0 ≤ (calculateTextToolCallSurcharge st info).2 := by
  unfold calculateTextToolCallSurcharge
  refine sum_nonneg fun x hx => ?_
  obtain ⟨item, hitem, rfl⟩ := mem_map.1 hx
  obtain ⟨hcount, hprice⟩ := merge_billed (toolItems_billed st info) item hitem
  have hcost : (0 : ℚ) ≤ item.price * item.count :=
    mul_nonneg hprice.le (by exact_mod_cast hcount.le)
  have hdiv := divDecimal_nonneg hcost (by norm_num : (0 : ℚ) ≤ 1000)
  unfold ToolSurchargeItem.surcharge
  positivity

/-! ### No request is a credit -/

/-- The audio tokens of a request that is free otherwise are priced by themselves, and are counted
below zero. -/
def CreditsAudio (info : RelayInfo) (usage : Option Usage) : Prop :=
  info.priceData.usePrice = false ∧ info.priceData.modelRatio = 0 ∧
    0 < getGeminiInputAudioPricePerMillionTokens info.billingModelName ∧
    (usage.getD (estimatedUsage info)).promptTokensDetails.audioTokens < 0

@[simp] theorem openRouterCounts_frame (u : Usage) (s : TextQuotaSummary) :
    (openRouterCounts st info u s).modelName = s.modelName ∧
      (openRouterCounts st info u s).audioTokens = s.audioTokens ∧
      (openRouterCounts st info u s).completionTokens = s.completionTokens ∧
      (openRouterCounts st info u s).totalTokens = s.totalTokens := by
  unfold openRouterCounts
  dsimp only
  split <;> exact ⟨rfl, rfl, rfl, rfl⟩

theorem counted_modelName (usage : Option Usage) :
    (counted st info usage).modelName = info.billingModelName :=
  (openRouterCounts_frame _ _).1

theorem counted_audioTokens (usage : Option Usage) :
    (counted st info usage).audioTokens =
      (usage.getD (estimatedUsage info)).promptTokensDetails.audioTokens :=
  (openRouterCounts_frame _ _).2.1

theorem counted_totalTokens (usage : Option Usage) :
    (counted st info usage).totalTokens =
      (usage.getD (estimatedUsage info)).promptTokens +
        (usage.getD (estimatedUsage info)).completionTokens :=
  (openRouterCounts_frame _ _).2.2.2

theorem audioInputQuota_nonneg (hpd : info.priceData.Nonneg) (hq : 0 ≤ st.quotaPerUnit)
    {s : TextQuotaSummary} (h : 0 < audioInputPrice s → 0 ≤ s.audioTokens) :
    0 ≤ audioInputQuota info.priceData s st := by
  have hgroup := hpd.groupRatio
  unfold audioInputQuota
  split_ifs with hprice
  · have htokens : (0 : ℚ) ≤ s.audioTokens := by exact_mod_cast h hprice
    have hdiv := divDecimal_nonneg hprice.le (by norm_num : (0 : ℚ) ≤ 1000000)
    positivity
  · exact le_refl 0

theorem audioInputPrice_le (s : TextQuotaSummary) (h : 0 < audioInputPrice s) :
    0 < getGeminiInputAudioPricePerMillionTokens s.modelName := by
  unfold audioInputPrice at h
  split_ifs at h
  · exact absurd h (lt_irrefl 0)
  · exact h

/-- The quota before the check for billable usage is never negative. -/
theorem rawQuota_nonneg (hpd : info.priceData.Nonneg) (hq : 0 ≤ st.quotaPerUnit)
    {usage : Option Usage} (hcredit : ¬ CreditsAudio info usage) (legacyClaudeDerived : Bool) :
    0 ≤ rawQuota st info.priceData (counted st info usage) legacyClaudeDerived := by
  have htools : 0 ≤ (counted st info usage).toolCallSurchargeQuota :=
    surcharge_nonneg hq hpd.groupRatio
  have hprice := hpd.modelPrice
  have hgroup := hpd.groupRatio
  unfold rawQuota
  split_ifs with huse
  · refine quotaFromDecimal_nonneg (add_nonneg ?_ htools)
    exact applyOtherRatios_nonneg _ (by positivity)
  · refine quotaFromDecimal_nonneg ?_
    unfold atLeastOne
    split_ifs with hfloor
    · exact zero_le_one
    · rcases not_and_or.1 hfloor with hratio | hamount
      · -- the model is free: what is left are audio tokens and tool calls
        rw [not_not] at hratio
        refine add_nonneg (applyOtherRatios_nonneg _ ?_) htools
        rw [hratio, mul_zero, zero_add]
        rcases mul_eq_zero.1 (show _ * _ = (0 : ℚ) from hratio) with hmodel | hzero
        · refine audioInputQuota_nonneg hpd hq fun haudio => ?_
          by_contra hneg
          refine hcredit ⟨by simpa using huse, hmodel, ?_, ?_⟩
          · rw [← @counted_modelName st info usage]
            exact audioInputPrice_le _ haudio
          · rw [← @counted_audioTokens st info usage]
            exact not_le.1 hneg
        · unfold audioInputQuota
          rw [hzero, mul_zero, zero_mul, ite_self]
      · exact (not_le.1 hamount).le

theorem quota_nonneg (hpd : info.priceData.Nonneg) (hq : 0 ≤ st.quotaPerUnit)
    {usage : Option Usage} (hcredit : ¬ CreditsAudio info usage) :
    0 ≤ (calculateTextQuotaSummary st info usage).quota := by
  have hraw := rawQuota_nonneg hpd hq hcredit
    (isLegacyClaudeDerivedOpenAIUsage info (usage.getD (estimatedUsage info)))
  unfold calculateTextQuotaSummary billedQuota
  dsimp only
  split_ifs
  · exact le_refl 0
  · exact zero_le_one
  · exact hraw

/-- What is not billable is free. -/
theorem quota_eq_zero {usage : Option Usage}
    (h : (calculateTextQuotaSummary st info usage).hasBillableUsage = false) :
    (calculateTextQuotaSummary st info usage).quota = 0 := by
  have hcounted : (counted st info usage).hasBillableUsage = false := h
  unfold calculateTextQuotaSummary billedQuota
  simp [hcounted]

/-- What is billable costs something, unless its ratio is zero. -/
theorem one_le_quota (hpd : info.priceData.Nonneg) (hq : 0 ≤ st.quotaPerUnit)
    {usage : Option Usage}
    (h : (calculateTextQuotaSummary st info usage).hasBillableUsage = true)
    (hratio : info.priceData.ratio ≠ 0) :
    1 ≤ (calculateTextQuotaSummary st info usage).quota := by
  have hcounted : (counted st info usage).hasBillableUsage = true := h
  have hcredit : ¬ CreditsAudio info usage := fun hc => hratio (by
    rw [PriceData.ratio, hc.2.1, zero_mul])
  have hraw := rawQuota_nonneg hpd hq hcredit
    (isLegacyClaudeDerivedOpenAIUsage info (usage.getD (estimatedUsage info)))
  unfold calculateTextQuotaSummary billedQuota
  simp only [hcounted, Bool.not_true, Bool.false_eq_true, if_false]
  split_ifs with hzero
  · exact le_refl 1
  · exact lt_of_le_of_ne hraw fun hq => hzero ⟨hratio, hq.symm⟩

/-! ### More completion tokens -/

/-- The tokens that a request wrote to a cache are worked out from its reported cost. -/
def InfersCacheCreation (st : Settings) (info : RelayInfo) (u : Usage) : Prop :=
  let s := reported info (usageSemanticFromUsage info (some u)) u
  isOpenRouterClaudeBilling info s = true ∧ infersCacheCreation st info s = true

/-- The same usage with another count of completion tokens. -/
def withCompletion (u : Usage) (n : ℤ) : Usage := { u with completionTokens := n }

theorem counted_withCompletion {u : Usage} (n : ℤ) (h : ¬ InfersCacheCreation st info u) :
    counted st info (some (withCompletion u n)) =
      { counted st info (some u) with
        completionTokens := n, totalTokens := u.promptTokens + n } := by
  have hsemantic : usageSemanticFromUsage info (some (withCompletion u n)) =
      usageSemanticFromUsage info (some u) := by
    unfold usageSemanticFromUsage withCompletion
    by_cases hs : u.usageSemantic = "" <;> simp [Option.filter, hs]
  set s := reported info (usageSemanticFromUsage info (some u)) u with hs
  have hreported : reported info (usageSemanticFromUsage info (some u)) (withCompletion u n) =
      { s with completionTokens := n, totalTokens := u.promptTokens + n } := rfl
  have hcounts : openRouterCounts st info (withCompletion u n)
        { s with completionTokens := n, totalTokens := u.promptTokens + n } =
      { openRouterCounts st info u s with
        completionTokens := n, totalTokens := u.promptTokens + n } := by
    have hopen : isOpenRouterClaudeBilling info
        { s with completionTokens := n, totalTokens := u.promptTokens + n } =
        isOpenRouterClaudeBilling info s := rfl
    have hinfer : infersCacheCreation st info
        { s with completionTokens := n, totalTokens := u.promptTokens + n } =
        infersCacheCreation st info s := rfl
    unfold openRouterCounts
    rw [hopen, hinfer]
    by_cases ho : isOpenRouterClaudeBilling info s = true
    · have hi : ¬ infersCacheCreation st info s = true := fun hi => h ⟨ho, hi⟩
      simp only [ho, hi, if_true, false_and, if_false, Bool.false_eq_true]
    · simp only [ho, if_false, Bool.false_eq_true]
  simp only [counted, Option.getD_some, hsemantic, hreported, hcounts]
  rfl

theorem atLeastOne_mono {ratio x y : ℚ} (h : x ≤ y) :
    quotaFromDecimal (atLeastOne ratio x) ≤ quotaFromDecimal (atLeastOne ratio y) ∨
      ratio ≠ 0 ∧ quotaFromDecimal (atLeastOne ratio x) = 1 := by
  unfold atLeastOne
  split_ifs with hx hy hy
  · exact .inl (le_refl _)
  · exact .inr ⟨hx.1, by decide +kernel⟩
  · exact absurd ⟨hy.1, h.trans hy.2⟩ hx
  · exact .inl (quotaFromDecimal_mono h)

theorem ratioAmount_mono (hpd : info.priceData.Nonneg) (s : TextQuotaSummary)
    (legacyClaudeDerived : Bool) {n : ℤ} (totalTokens : ℤ) (h : s.completionTokens ≤ n) :
    ratioAmount info.priceData s legacyClaudeDerived st ≤
      ratioAmount info.priceData { s with completionTokens := n, totalTokens := totalTokens }
        legacyClaudeDerived st := by
  have hratio : 0 ≤ info.priceData.ratio := mul_nonneg hpd.modelRatio hpd.groupRatio
  have htokens : (s.completionTokens : ℚ) ≤ n := by exact_mod_cast h
  unfold ratioAmount
  refine applyOtherRatios_mono _ (add_le_add_left (mul_le_mul_of_nonneg_right ?_ hratio) _)
  exact add_le_add_right (mul_le_mul_of_nonneg_right htokens hpd.completionRatio) _

/-- A quota that does not fall stays so after the check for billable usage. -/
theorem billedQuota_mono {ratio : ℚ} {billable billable' : Bool} {q q' : ℤ}
    (hb : billable = true → billable' = true) (hnonneg : 0 ≤ q')
    (h : q ≤ q' ∨ ratio ≠ 0 ∧ q = 1) :
    billedQuota ratio billable q ≤ billedQuota ratio billable' q' := by
  unfold billedQuota
  cases billable with
  | false => simp only [Bool.not_false, if_true]; split_ifs <;> omega
  | true =>
    rw [hb rfl]
    simp only [Bool.not_true, Bool.false_eq_true, if_false]
    by_cases hr : ratio = 0
    · have hle : q ≤ q' := h.resolve_right fun h => h.1 hr
      simpa [hr] using hle
    · simp only [ne_eq, hr, not_false_eq_true, true_and] at h ⊢
      split_ifs <;> omega

/-- **More completion tokens never cost less.** -/
theorem quota_mono (hpd : info.priceData.Nonneg) (hq : 0 ≤ st.quotaPerUnit) {u : Usage}
    (hcredit : ¬ CreditsAudio info (some u)) (huse : info.priceData.usePrice = false)
    (hinfer : ¬ InfersCacheCreation st info u) {n : ℤ} (hn : u.completionTokens ≤ n) :
    (calculateTextQuotaSummary st info (some u)).quota ≤
      (calculateTextQuotaSummary st info (some (withCompletion u n))).quota := by
  have hraw := @rawQuota_nonneg st info hpd hq (some (withCompletion u n)) hcredit
    (isLegacyClaudeDerivedOpenAIUsage info u)
  have hcompletion : (counted st info (some u)).completionTokens = u.completionTokens :=
    (openRouterCounts_frame _ _).2.2.1
  have htotal := @counted_totalTokens st info (some u)
  rw [Option.getD_some] at htotal
  change billedQuota _ (counted st info (some u)).hasBillableUsage
      (rawQuota st _ (counted st info (some u)) (isLegacyClaudeDerivedOpenAIUsage info u)) ≤
    billedQuota _ (counted st info (some (withCompletion u n))).hasBillableUsage
      (rawQuota st _ (counted st info (some (withCompletion u n)))
        (isLegacyClaudeDerivedOpenAIUsage info u))
  rw [counted_withCompletion n hinfer] at hraw ⊢
  set s := counted st info (some u)
  refine billedQuota_mono ?_ hraw ?_
  · simp only [TextQuotaSummary.hasBillableUsage, Bool.or_eq_true, decide_eq_true_eq, htotal]
    rintro ((hfixed | htokens) | htools)
    · exact .inl (.inl hfixed)
    · exact .inl (.inr (by omega))
    · exact .inr htools
  · simp only [rawQuota, huse, Bool.false_eq_true, if_false]
    exact atLeastOne_mono (add_le_add_left
      (ratioAmount_mono hpd s _ _ (by rw [hcompletion]; exact hn)) _)

end Charges

/-! ### Two requests -/

/-- The prices of a model that is free but for its audio input. -/
def freeInfo : RelayInfo :=
  { billingModelName := "gemini-2.5-flash", priceData := { groupRatio := 1, completionRatio := 4 } }

/-- The prices of a Claude model behind OpenRouter. -/
def claudeInfo : RelayInfo :=
  { billingModelName := "claude", channelType := some channelTypeOpenRouter
    priceData :=
      { modelRatio := 3 / 2, groupRatio := 1, completionRatio := 5, cacheRatio := 1 / 10
        cacheCreationRatio := 5 / 4, imageRatio := 1 } }

/-- Half a million units a dollar, free tools, and the default ratio of that model. -/
def someSettings : Settings where
  quotaPerUnit := 500000
  toolPriceForModel _ _ := 0
  defaultModelRatio _ := some (3 / 2)
  jsonNumber text := if text = "0.00675" then some (27 / 4000) else none

/-- A report of fewer than no audio tokens. -/
def negativeAudio : Usage :=
  { promptTokens := 10, completionTokens := 5
    promptTokensDetails := { audioTokens := -1000000 } }

/-- A report of images and a cost. -/
def costReport : Usage :=
  { promptTokens := 2000, usageSemantic := "anthropic", cost := some "0.00675"
    promptTokensDetails := { imageTokens := 2000 } }

end NexusTok.TextQuota
