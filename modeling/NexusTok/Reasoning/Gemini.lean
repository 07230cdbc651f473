import NexusTok.Reasoning.Pivot
import NexusTok.Text.Replace
import Mathlib.Data.Rat.Defs

/-!
# Rendering for Gemini

A Gemini model takes a thinking budget (the 2.5 family, each member with a range of its own), a
thinking level (the 3 family, which thinks always), or no setting at all.  `RenderGemini` writes an
intent in the model's own terms, `ValidateGeminiThinkingConfig` checks a config that a client wrote
in them, and `FromGemini` reads one.

* `renderGemini_validates` : a rendered config passes the check, with the effort it was rendered
  for.
* `renderGemini_fromGemini` : read back and rendered again it is the same, unless it is empty.
* `renderGemini_spec` : both, and that thinking that is turned on gets no budget of zero.
-/

namespace NexusTok

inductive GeminiThinkingKind where
  | unknown | notConfigurable | budget | level
  deriving Repr, DecidableEq

structure GeminiCapabilities where
  kind : GeminiThinkingKind := .unknown
  supportsDisable : Bool := false
  supportsIncludeThoughts : Bool := false
  minBudget : Int := 0
  maxBudget : Int := 0
  deriving Repr, DecidableEq

def geminiCapabilitiesFor (model : String) : GeminiCapabilities :=
  let model := toLower model
  if hasPrefix model "gemini-2.5-flash-native-audio" ∨
      hasPrefix model "gemini-live-2.5-flash-preview-native-audio" then
    { kind := .budget, supportsDisable := true, maxBudget := 24576 }
  else if hasPrefix model "gemini-2.5-flash-image" ∨ containsText model "-tts" ∨
      containsText model "-native-audio" ∨ containsText model "-live" then
    { kind := .notConfigurable }
  else if hasPrefix model "gemini-3-pro-image" ∨ hasPrefix model "nano-banana-pro" then
    { kind := .notConfigurable, supportsIncludeThoughts := true }
  else if model = "gemini-flash-latest" ∨ model = "gemini-flash-lite-latest" then
    { kind := .level }
  else if model = "gemini-pro-latest" then { kind := .level }
  else if hasPrefix model "gemini-2.5-pro" then
    { kind := .budget, minBudget := 128, maxBudget := 32768 }
  else if hasPrefix model "gemini-2.5-flash-lite" then
    { kind := .budget, supportsDisable := true, minBudget := 512, maxBudget := 24576 }
  else if hasPrefix model "gemini-2.5-" then
    { kind := .budget, supportsDisable := true, maxBudget := 24576 }
  else if hasPrefix model "gemini-3" then { kind := .level }
  else {}

structure GeminiThinkingConfig where
  includeThoughts : Option Bool := none
  thinkingBudget : Option Int := none
  thinkingLevel : String := ""
  deriving Repr, DecidableEq

structure GeminiRender where
  config : Option GeminiThinkingConfig := none
  effectiveEffort : Effort := .unset
  deriving Repr, DecidableEq

/-- What the Gemini controls are refused for. -/
inductive GeminiError where
  | intent (e : IntentError)
  /-- `model "model" does not support configurable thinking` -/
  | notConfigurable (model : String)
  /-- `model "model" does not have a known Gemini thinking configuration` -/
  | unknownThinking (model : String)
  /-- `thinking cannot be disabled for model "model"` -/
  | thinkingNotDisabled (model : String)
  /-- `max_output_tokens is too large for a thinking budget` -/
  | maxOutputTokens
  /-- `thinking budget … is outside the supported range […,…] for model "model"` -/
  | budgetRange (budget : Int) (minBudget maxBudget : Int) (model : String)
  /-- `unsupported reasoning effort "effort" for model "model"` -/
  | unsupportedEffort (effort : Effort) (model : String)
  /-- `reasoning settings conflict: Gemini thinkingBudget and thinkingLevel cannot both be set` -/
  | bothSet
  /-- `Gemini 2.5 model "model" requires thinkingBudget, not thinkingLevel` -/
  | requiresBudget (model : String)
  /-- `Gemini 3 model "model" requires thinkingLevel, not thinkingBudget` -/
  | requiresLevel (model : String)
  /-- `thinkingLevel "level" is not supported by model "model"` -/
  | unsupportedLevel (level model : String)
  deriving Repr, DecidableEq

/-- An error of an intent, as one of the Gemini controls. -/
def liftIntent {α : Type} : Except IntentError α → Except GeminiError α
  | .ok a => .ok a
  | .error e => .error (.intent e)

/-! ### Budgets and levels -/

def gemini25BudgetForEffort : Effort → Int
  | .minimal | .low => 1024
  | .medium => 8192
  | .high | .xhigh | .max => 24576
  | _ => 0

def geminiDefaultEffort (model : String) : Effort :=
  let model := toLower model
  if model = "gemini-flash-latest" ∨
      (hasPrefix model "gemini-3.5-flash" ∧ ¬ hasPrefix model "gemini-3.5-flash-lite") ∨
      hasPrefix model "gemini-3.6-flash" then
    .medium
  else if model = "gemini-flash-lite-latest" ∨ hasPrefix model "gemini-3.5-flash-lite" ∨
      hasPrefix model "gemini-3.1-flash-lite" then
    .minimal
  else if model = "gemini-pro-latest" ∨ hasPrefix model "gemini-3.1-pro" ∨
      hasPrefix model "gemini-3-pro" ∨ hasPrefix model "gemini-3-flash" then
    .high
  else .unset

/-- The levels of `geminiLevelForEffort` that all other models have. -/
def geminiPlainLevel (model : String) (effort : Effort) : Except GeminiError Effort :=
  match effort with
  | .minimal | .low | .medium | .high => .ok effort
  | .xhigh | .max => .ok .high
  | .none => .error (.thinkingNotDisabled model)
  | .unset => .error (.unsupportedEffort effort model)

/-- `geminiLevelForEffort`; the word of the effort is the level. -/
def geminiLevelForEffort (model : String) (effort : Effort) : Except GeminiError Effort :=
  let model := toLower model
  if hasPrefix model "gemini-3.1-flash-image" ∨ hasPrefix model "gemini-3.1-flash-lite-image" then
    .ok (if effort = .minimal ∨ effort = .low then .minimal else .high)
  else if hasPrefix model "gemini-3-pro" ∧ ¬ hasPrefix model "gemini-3.1-pro" then
    .ok (if effort = .minimal ∨ effort = .low then .low else .high)
  else if (hasPrefix model "gemini-3.1-pro" ∨ model = "gemini-pro-latest") ∧ effort = .minimal then
    .ok .low
  else geminiPlainLevel model effort

def validateGeminiBudget (model : String) (budget : Int) (c : GeminiCapabilities) :
    Except GeminiError Unit :=
  if budget = -1 then .ok ()
  else if budget = 0 then
    if c.supportsDisable then .ok () else .error (.thinkingNotDisabled model)
  else if budget < c.minBudget ∨ c.maxBudget < budget then
    .error (.budgetRange budget c.minBudget c.maxBudget model)
  else .ok ()

def clampGeminiBudget (budget : Int) (c : GeminiCapabilities) : Int :=
  if budget < c.minBudget then c.minBudget
  else if c.maxBudget < budget then c.maxBudget
  else budget

/-! ### The reader and the check -/

/-- The intent of a config, as `FromGemini` reads it off the fields. -/
def GeminiThinkingConfig.intent (config : GeminiThinkingConfig) : Except GeminiError Intent :=
  let intent : Intent :=
    { budgetTokens := config.thinkingBudget
      includeThoughts := config.includeThoughts
      source := .native
      budgetSource := .native }
  if config.thinkingLevel = "" then .ok intent
  else
    match readEffort config.thinkingLevel with
    | .error e => .error (.intent e)
    | .ok effort => .ok { intent with mode := .enabled, effort := effort }

/-- `FromGemini`, of the config of a request. -/
def fromGemini (config : Option GeminiThinkingConfig) : Except GeminiError Intent :=
  match config with
  | none => .ok {}
  | some config =>
    if config.thinkingBudget ≠ none ∧ config.thinkingLevel ≠ "" then .error .bothSet
    else do
      let intent ← config.intent
      liftIntent (normalizeIntent intent.raw)

def validateGeminiThinkingConfig (model : String) (config : Option GeminiThinkingConfig) :
    Except GeminiError Effort :=
  match config with
  | none => .ok .unset
  | some config => do
    let intent ← fromGemini (some config)
    let c := geminiCapabilitiesFor model
    match c.kind with
    | .notConfigurable =>
      if ¬ intent.HasStrength ∧ c.supportsIncludeThoughts then .ok .high
      else .error (.notConfigurable model)
    | .unknown => .ok (effectiveEffort intent.raw)
    | .budget =>
      if config.thinkingLevel ≠ "" then .error (.requiresBudget model)
      else do
        match config.thinkingBudget with
        | some budget => validateGeminiBudget model budget c
        | none => pure ()
        return effectiveEffort intent.raw
    | .level =>
      if config.thinkingBudget ≠ none then .error (.requiresLevel model)
      else if config.thinkingLevel ≠ "" then do
        let level ← geminiLevelForEffort model intent.effort
        if level.word ≠ config.thinkingLevel then
          .error (.unsupportedLevel config.thinkingLevel model)
        else .ok level
      else .ok .unset

/-! ### The renderer -/

section Render

variable (scaled : ℕ → ℚ → ℤ) (c : GeminiCapabilities) (model : String) (intent : Intent)
  (maxOutputTokens : Option ℕ) (percentage : ℚ)

/-- The `percentage` of an adapter, or the default where it is not set. -/
def geminiPercentage : ℚ :=
  if percentage ≤ 0 then 3 / 5 else if 1 < percentage then 1 else percentage

/-- The budget that a model of the 2.5 family is given for thinking that is on; `scaled n p` is
`int(math.Round(float64(n) * p))`. -/
def geminiBudget : Except GeminiError (Option Int) :=
  match intent.budgetTokens with
  | some budget =>
    .ok (some (if intent.budgetSource ≠ .native ∧ budget ≠ -1 then clampGeminiBudget budget c
      else budget))
  | none =>
    if intent.effort ≠ .unset then .ok (some (gemini25BudgetForEffort intent.effort))
    else
      match maxOutputTokens with
      | some m =>
        if intent.mode ≠ .unset ∧ 0 < m then
          if 2 ^ 63 - 1 < m then .error .maxOutputTokens
          else .ok (some (clampGeminiBudget (scaled m (geminiPercentage percentage)) c))
        else .ok none
      | none => .ok none

/-- The render for a model with a budget. -/
def renderGeminiBudget : Except GeminiError GeminiRender :=
  if intent.Off then
    if ¬ c.supportsDisable then .error (.thinkingNotDisabled model)
    else .ok
      { config := some { includeThoughts := intent.includeThoughts, thinkingBudget := some 0 }
        effectiveEffort := .none }
  else do
    let budget ← geminiBudget scaled c intent maxOutputTokens percentage
    match budget with
    | some budget =>
      validateGeminiBudget model budget c
      return {
        config := some
          { includeThoughts := intent.includeThoughts, thinkingBudget := some budget }
        effectiveEffort := effortFromBudget budget }
    | none =>
      return {
        config := some { includeThoughts := intent.includeThoughts }
        effectiveEffort :=
          if intent.mode = .enabled ∨ intent.mode = .adaptive then geminiDefaultEffort model
          else intent.effort }

/-- The effort that a level is found for. -/
def geminiEffort : Effort :=
  if intent.effort = .unset then intent.budgetTokens.elim .unset effortFromBudget
  else intent.effort

/-- The render for a model with levels. -/
def renderGeminiLevel : Except GeminiError GeminiRender :=
  if intent.Off then .error (.thinkingNotDisabled model)
  else if geminiEffort intent ≠ .unset then do
    let level ← geminiLevelForEffort model (geminiEffort intent)
    return {
      config := some
        { includeThoughts := intent.includeThoughts, thinkingLevel := level.word }
      effectiveEffort := level }
  else .ok
    { config := some { includeThoughts := intent.includeThoughts }
      effectiveEffort :=
        if intent.mode = .enabled ∨ intent.mode = .adaptive then geminiDefaultEffort model
        else .unset }

/-- `RenderGemini` of a normal intent. -/
def renderGeminiIntent : Except GeminiError GeminiRender :=
  if intent.IsEmpty then .ok {}
  else
    match c.kind with
    | .notConfigurable =>
      if ¬ intent.HasStrength ∧ c.supportsIncludeThoughts then .ok
        { config := some { includeThoughts := intent.includeThoughts }
          effectiveEffort := .high }
      else .error (.notConfigurable model)
    | .unknown =>
      if intent.HasStrength then .error (.unknownThinking model)
      else .ok { config := some { includeThoughts := intent.includeThoughts } }
    | .budget => renderGeminiBudget scaled c model intent maxOutputTokens percentage
    | .level => renderGeminiLevel model intent

end Render

def renderGemini (scaled : ℕ → ℚ → ℤ) (model : String) (intent : RawIntent)
    (maxOutputTokens : Option ℕ) (percentage : ℚ) : Except GeminiError GeminiRender := do
  let intent ← liftIntent (normalizeIntent intent)
  renderGeminiIntent scaled (geminiCapabilitiesFor model) model intent maxOutputTokens percentage

/-! ### Facts of the table -/

/-- A budget range of the table starts at zero or above, and has room. -/
theorem geminiCapabilitiesFor_range (model : String) :
    0 ≤ (geminiCapabilitiesFor model).minBudget ∧
      ((geminiCapabilitiesFor model).kind = .budget →
        0 < (geminiCapabilitiesFor model).maxBudget) := by
  unfold geminiCapabilitiesFor
  dsimp only
  split_ifs <;> simp

variable {level : Effort}

theorem geminiLevelForEffort_level {model : String} {effort : Effort}
    (h : geminiLevelForEffort model effort = .ok level) :
    geminiLevelForEffort model level = .ok level ∧ level ≠ .unset ∧ level ≠ .none := by
  unfold geminiLevelForEffort at h ⊢
  dsimp only at h ⊢
  by_cases himage : hasPrefix (toLower model) "gemini-3.1-flash-image" ∨
      hasPrefix (toLower model) "gemini-3.1-flash-lite-image"
  · rw [if_pos himage] at h ⊢
    cases h
    by_cases he : effort = .minimal ∨ effort = .low <;> simp [he]
  rw [if_neg himage] at h ⊢
  by_cases hpro : hasPrefix (toLower model) "gemini-3-pro" ∧
      ¬ hasPrefix (toLower model) "gemini-3.1-pro"
  · rw [if_pos hpro] at h ⊢
    cases h
    by_cases he : effort = .minimal ∨ effort = .low <;> simp [he]
  rw [if_neg hpro] at h ⊢
  by_cases hp : hasPrefix (toLower model) "gemini-3.1-pro" ∨ toLower model = "gemini-pro-latest"
  · by_cases he : effort = .minimal
    · rw [if_pos ⟨hp, he⟩] at h
      cases h
      simp [geminiPlainLevel]
    · rw [if_neg fun h => he h.2] at h
      cases effort <;> simp_all [geminiPlainLevel] <;> subst h <;> simp
  · rw [if_neg fun h => hp h.1] at h ⊢
    cases effort <;> simp_all [geminiPlainLevel] <;> subst h <;> simp

/-! ### Reading a config -/

/-- What a config without a budget or a level says. -/
def bareIntent (t : Option Bool) : Intent where
  includeThoughts := t
  source := .native
  budgetSource := .native

/-- What a config with a budget says. -/
def budgetIntent (t : Option Bool) (b : Int) : Intent where
  mode := if b = 0 then .disabled else .enabled
  effort := if b = 0 then .none else .unset
  budgetTokens := some b
  includeThoughts := t
  source := .native
  budgetSource := .native

/-- What a config with a level says. -/
def levelIntent (t : Option Bool) (level : Effort) : Intent where
  mode := .enabled
  effort := level
  includeThoughts := t
  source := .native
  budgetSource := .native

theorem settled_budgetIntent (t : Option Bool) {b : Int} (h : -1 ≤ b) :
    (budgetIntent t b).Settled := by
  constructor
  · intro c hc
    cases hc
    exact h
  · intro h0
    have : b = 0 := by simpa [budgetIntent] using h0
    simp [budgetIntent, this]
  · intro c hc hne
    cases hc
    simp [budgetIntent, hne]
  · intro he
    by_cases h0 : b = 0 <;> simp_all [budgetIntent]

theorem settled_levelIntent (t : Option Bool) (h : level ≠ .none) : (levelIntent t level).Settled :=
  ⟨by simp [levelIntent], by simp [levelIntent], by simp [levelIntent], fun he => absurd he h⟩

theorem fromGemini_bare (t : Option Bool) :
    fromGemini (some { includeThoughts := t }) = .ok (bareIntent t) := by
  have settled : (bareIntent t).Settled := Intent.settled_of_weak rfl rfl
  have read : GeminiThinkingConfig.intent { includeThoughts := t } = .ok (bareIntent t) := rfl
  simp [fromGemini, read, settled.normalizeIntent_raw, liftIntent, bind, Except.bind]

theorem fromGemini_budget (t : Option Bool) {b : Int} (h : -1 ≤ b) :
    fromGemini (some { includeThoughts := t, thinkingBudget := some b }) =
      .ok (budgetIntent t b) := by
  have steps : Intent.settleBudget
      { budgetTokens := some b
        includeThoughts := t
        source := .native
        budgetSource := .native } = .ok (budgetIntent t b) := by
    by_cases h0 : b = 0
    · simp [Intent.settleBudget, budgetIntent, h0]
    · have : ¬ b < -1 := by omega
      simp [Intent.settleBudget, budgetIntent, h0, this]
  have settle : (budgetIntent t b).settleEffort = .ok (budgetIntent t b) := by
    by_cases h0 : b = 0 <;> simp [Intent.settleEffort, budgetIntent, h0]
  simp [fromGemini, GeminiThinkingConfig.intent, normalizeIntent_raw, bind, Except.bind, steps,
    settle, liftIntent]

theorem fromGemini_level (t : Option Bool) (hu : level ≠ .unset) (hn : level ≠ .none) :
    fromGemini (some { includeThoughts := t, thinkingLevel := level.word }) =
      .ok (levelIntent t level) := by
  have read : GeminiThinkingConfig.intent { includeThoughts := t, thinkingLevel := level.word } =
      .ok (levelIntent t level) := by
    rw [GeminiThinkingConfig.intent, if_neg (by simpa using hu), readEffort_word]
    rfl
  have normal := (settled_levelIntent t hn).normalizeIntent_raw
  simp [fromGemini, read, normal, liftIntent, bind, Except.bind]

/-! ### What a render is -/

section Rendered

variable {scaled : ℕ → ℚ → ℤ} {model : String} {i : Intent} {maxOutputTokens : Option ℕ}
  {percentage : ℚ} {r : GeminiRender}

/-- The budget of the intent comes from the output limit: it has a mode, and nothing else. -/
def DerivedBudget (i : Intent) (maxOutputTokens : Option ℕ) (m : ℕ) : Prop :=
  i.budgetTokens = none ∧ i.effort = .unset ∧ i.mode ≠ .unset ∧ maxOutputTokens = some m ∧ 0 < m

/-- A budget that passes the check of a model of the table is dynamic, or not negative. -/
theorem validateGeminiBudget_range {b : Int} {u : Unit}
    (h : validateGeminiBudget model b (geminiCapabilitiesFor model) = .ok u) : -1 ≤ b := by
  have := (geminiCapabilitiesFor_range model).1
  unfold validateGeminiBudget at h
  split_ifs at h <;> omega

theorem geminiBudget_ne_zero (hi : i.Settled) (hoff : ¬ i.Off) {b : Int}
    (hkind : (geminiCapabilitiesFor model).kind = .budget)
    (h : geminiBudget scaled (geminiCapabilitiesFor model) i maxOutputTokens percentage =
      .ok (some b)) (h0 : b = 0) :
    ∃ m, DerivedBudget i maxOutputTokens m ∧ scaled m (geminiPercentage percentage) ≤ 0 ∧
      (geminiCapabilitiesFor model).minBudget = 0 := by
  obtain ⟨hmin, hmax⟩ := geminiCapabilitiesFor_range model
  have hmax := hmax hkind
  unfold geminiBudget at h
  cases hb : i.budgetTokens with
  | some budget =>
    have hr := hi.budget_range budget hb
    have hz : budget ≠ 0 := by
      rintro rfl
      exact hoff (.inl (hi.off_of_zero hb).1)
    rw [hb] at h
    have hb' := Option.some.inj (Except.ok.inj h)
    by_cases hs : i.budgetSource ≠ .native ∧ budget ≠ -1
    · rw [if_pos hs] at hb'
      have : 0 < budget := by omega
      unfold clampGeminiBudget at hb'
      split_ifs at hb' <;> omega
    · rw [if_neg hs] at hb'
      omega
  | none =>
    rw [hb] at h
    dsimp only at h
    by_cases he : i.effort = .unset
    · rw [if_neg (not_not.mpr he)] at h
      rcases hm : maxOutputTokens with _ | m
      · rw [hm] at h; cases h
      rw [hm] at h
      dsimp only at h
      split_ifs at h with hmode hlarge
      · have hb' := Option.some.inj (Except.ok.inj h)
        refine ⟨m, ⟨hb, he, hmode.1, rfl, hmode.2⟩, ?_⟩
        unfold clampGeminiBudget at hb'
        split_ifs at hb' <;> omega
      · cases h
    · rw [if_pos he] at h
      have hb' := Option.some.inj (Except.ok.inj h)
      have hn : i.effort ≠ .none := fun hn => hoff (.inr hn)
      cases he' : i.effort <;> simp_all [gemini25BudgetForEffort]

theorem renderGeminiIntent_cases (hi : i.Settled)
    (h : renderGeminiIntent scaled (geminiCapabilitiesFor model) model i maxOutputTokens
      percentage = .ok r) :
    (i.IsEmpty ∧ r = {}) ∨
    (¬ i.IsEmpty ∧ r.config = some { includeThoughts := i.includeThoughts } ∧
      ((geminiCapabilitiesFor model).kind = .notConfigurable →
        ¬ i.HasStrength ∧ (geminiCapabilitiesFor model).supportsIncludeThoughts)) ∨
    ((geminiCapabilitiesFor model).kind = .budget ∧ ∃ b, -1 ≤ b ∧
      r =
        { config := some { includeThoughts := i.includeThoughts, thinkingBudget := some b }
          effectiveEffort := effortFromBudget b } ∧
      validateGeminiBudget model b (geminiCapabilitiesFor model) = .ok () ∧
      (b = 0 → i.Off ∨ ∃ m, DerivedBudget i maxOutputTokens m ∧
        scaled m (geminiPercentage percentage) ≤ 0 ∧
        (geminiCapabilitiesFor model).minBudget = 0)) ∨
    ((geminiCapabilitiesFor model).kind = .level ∧ ∃ effort level,
      geminiLevelForEffort model effort = .ok level ∧
      r =
        { config := some { includeThoughts := i.includeThoughts, thinkingLevel := level.word }
          effectiveEffort := level }) := by
  unfold renderGeminiIntent at h
  by_cases hempty : i.IsEmpty
  · rw [if_pos hempty] at h
    exact .inl ⟨hempty, (Except.ok.inj h).symm⟩
  rw [if_neg hempty] at h
  right
  cases hk : (geminiCapabilitiesFor model).kind with
  | notConfigurable =>
    simp only [hk] at h
    split_ifs at h with hs
    cases h
    exact .inl ⟨hempty, rfl, fun _ => hs⟩
  | unknown =>
    simp only [hk] at h
    split_ifs at h with hs
    cases h
    exact .inl ⟨hempty, rfl, fun h => by cases h⟩
  | budget =>
    simp only [hk] at h
    unfold renderGeminiBudget at h
    by_cases hoff : i.Off
    · rw [if_pos hoff] at h
      split_ifs at h with hd
      cases h
      refine .inr (.inl ⟨rfl, 0, by omega, rfl, ?_, fun _ => .inl hoff⟩)
      simp [validateGeminiBudget, hd]
    · rw [if_neg hoff] at h
      cases hg : geminiBudget scaled (geminiCapabilitiesFor model) i maxOutputTokens percentage with
      | error e => simp [hg, bind, Except.bind] at h
      | ok budget =>
        cases budget with
        | none =>
          simp only [hg, bind, Except.bind, pure, Except.pure] at h
          rcases h
          exact .inl ⟨hempty, rfl, fun h => by cases h⟩
        | some b =>
          simp only [hg, bind, Except.bind, pure, Except.pure] at h
          rcases hv : validateGeminiBudget model b (geminiCapabilitiesFor model) with _ | u
          · simp [hv] at h
          simp only [hv] at h
          cases h
          exact .inr (.inl ⟨rfl, b, validateGeminiBudget_range hv, rfl, hv,
            fun h0 => .inr (geminiBudget_ne_zero hi hoff hk hg h0)⟩)
  | level =>
    simp only [hk] at h
    unfold renderGeminiLevel at h
    by_cases hoff : i.Off
    · rw [if_pos hoff] at h
      cases h
    rw [if_neg hoff] at h
    by_cases he : geminiEffort i = .unset
    · rw [if_neg (not_not.mpr he)] at h
      rcases h
      exact .inl ⟨hempty, rfl, fun h => by cases h⟩
    · rw [if_pos he] at h
      rcases hl : geminiLevelForEffort model (geminiEffort i) with _ | level
      · simp [hl, bind, Except.bind] at h
      simp only [hl, bind, Except.bind, pure, Except.pure] at h
      cases h
      exact .inr (.inr ⟨rfl, _, level, hl, rfl⟩)

end Rendered

/-! ### Checking and reading a render -/

section Reread

variable {model : String} {t : Option Bool}

theorem not_hasStrength_bareIntent (t : Option Bool) : ¬ (bareIntent t).HasStrength := by
  simp [bareIntent, Intent.HasStrength]

theorem validate_bare
    (h : (geminiCapabilitiesFor model).kind = .notConfigurable →
      (geminiCapabilitiesFor model).supportsIncludeThoughts) :
    ∃ e, validateGeminiThinkingConfig model (some { includeThoughts := t }) = .ok e := by
  cases hk : (geminiCapabilitiesFor model).kind with
  | unknown =>
    refine ⟨effectiveEffort (bareIntent t).raw, ?_⟩
    simp only [validateGeminiThinkingConfig, fromGemini_bare, hk, bind, Except.bind]
  | notConfigurable =>
    refine ⟨.high, ?_⟩
    simp only [validateGeminiThinkingConfig, fromGemini_bare, hk, bind, Except.bind]
    rw [if_pos ⟨not_hasStrength_bareIntent t, h hk⟩]
  | budget =>
    refine ⟨effectiveEffort (bareIntent t).raw, ?_⟩
    simp [validateGeminiThinkingConfig, fromGemini_bare, hk, bind, Except.bind, pure, Except.pure]
  | level =>
    refine ⟨.unset, ?_⟩
    simp [validateGeminiThinkingConfig, fromGemini_bare, hk, bind, Except.bind]

theorem validate_budget {b : Int} (hb : -1 ≤ b)
    (hk : (geminiCapabilitiesFor model).kind = .budget)
    (hv : validateGeminiBudget model b (geminiCapabilitiesFor model) = .ok ()) :
    validateGeminiThinkingConfig model
      (some { includeThoughts := t, thinkingBudget := some b }) = .ok (effortFromBudget b) := by
  have effort : effectiveEffort (budgetIntent t b).raw = effortFromBudget b := by
    rw [(settled_budgetIntent t hb).effectiveEffort_raw]
    by_cases h0 : b = 0 <;> simp [Intent.effective, budgetIntent, effortFromBudget, h0]
  simp [validateGeminiThinkingConfig, fromGemini_budget t hb, hk, hv, effort, bind, Except.bind,
    pure, Except.pure]

theorem validate_level (hl : geminiLevelForEffort model level = .ok level)
    (hu : level ≠ .unset) (hn : level ≠ .none) (hk : (geminiCapabilitiesFor model).kind = .level) :
    validateGeminiThinkingConfig model
      (some { includeThoughts := t, thinkingLevel := level.word }) = .ok level := by
  have effort : (levelIntent t level).effort = level := rfl
  simp [validateGeminiThinkingConfig, fromGemini_level t hu hn, hk, hl, hu, effort, bind,
    Except.bind]

variable {scaled : ℕ → ℚ → ℤ} {maxOutputTokens : Option ℕ} {percentage : ℚ}

theorem renderGemini_raw {i : Intent} (hi : i.Settled) :
    renderGemini scaled model i.raw maxOutputTokens percentage =
      renderGeminiIntent scaled (geminiCapabilitiesFor model) model i maxOutputTokens
        percentage := by
  simp only [renderGemini, hi.normalizeIntent_raw, liftIntent, bind, Except.bind]

theorem render_bare (ht : t ≠ none)
    (h : (geminiCapabilitiesFor model).kind = .notConfigurable →
      (geminiCapabilitiesFor model).supportsIncludeThoughts) :
    ∃ e, renderGeminiIntent scaled (geminiCapabilitiesFor model) model (bareIntent t)
      maxOutputTokens percentage =
        .ok { config := some { includeThoughts := t }, effectiveEffort := e } := by
  have weak := not_hasStrength_bareIntent t
  have hempty : ¬ (bareIntent t).IsEmpty := fun h => ht h.2
  have hoff : ¬ (bareIntent t).Off := by simp [bareIntent, Intent.Off]
  unfold renderGeminiIntent
  rw [if_neg hempty]
  cases hk : (geminiCapabilitiesFor model).kind with
  | unknown => exact ⟨_, if_neg weak⟩
  | notConfigurable => exact ⟨_, if_pos ⟨weak, h hk⟩⟩
  | budget =>
    have budget : geminiBudget scaled (geminiCapabilitiesFor model) (bareIntent t) maxOutputTokens
        percentage = .ok none := by
      cases maxOutputTokens <;> simp [geminiBudget, bareIntent]
    refine ⟨.unset, ?_⟩
    simp only [renderGeminiBudget, if_neg hoff, budget, bind, Except.bind]
    rfl
  | level =>
    refine ⟨.unset, ?_⟩
    simp only [renderGeminiLevel, if_neg hoff]
    exact if_neg (by simp [geminiEffort, bareIntent])

theorem render_budget {b : Int}
    (hk : (geminiCapabilitiesFor model).kind = .budget)
    (hv : validateGeminiBudget model b (geminiCapabilitiesFor model) = .ok ()) :
    renderGeminiIntent scaled (geminiCapabilitiesFor model) model (budgetIntent t b)
      maxOutputTokens percentage =
        .ok { config := some { includeThoughts := t, thinkingBudget := some b }
              effectiveEffort := effortFromBudget b } := by
  have hempty : ¬ (budgetIntent t b).IsEmpty := by
    simp [Intent.IsEmpty, Intent.HasStrength, budgetIntent]
  unfold renderGeminiIntent
  rw [if_neg hempty, hk]
  dsimp only
  unfold renderGeminiBudget
  by_cases h0 : b = 0
  · have hd : (geminiCapabilitiesFor model).supportsDisable := by
      by_contra hd
      simp [validateGeminiBudget, h0, hd] at hv
    rw [if_pos (.inl (by simp [budgetIntent, h0])), if_neg (not_not.mpr hd), h0]
    rfl
  · have hoff : ¬ (budgetIntent t b).Off := by simp [budgetIntent, Intent.Off, h0]
    have budget : geminiBudget scaled (geminiCapabilitiesFor model) (budgetIntent t b)
        maxOutputTokens percentage = .ok (some b) := by
      simp [geminiBudget, budgetIntent]
    simp only [if_neg hoff, budget, hv, bind, Except.bind]
    rfl

theorem render_level (hl : geminiLevelForEffort model level = .ok level)
    (hu : level ≠ .unset) (hn : level ≠ .none) (hk : (geminiCapabilitiesFor model).kind = .level) :
    renderGeminiIntent scaled (geminiCapabilitiesFor model) model (levelIntent t level)
      maxOutputTokens percentage =
        .ok { config := some { includeThoughts := t, thinkingLevel := level.word }
              effectiveEffort := level } := by
  have hempty : ¬ (levelIntent t level).IsEmpty := by
    simp [Intent.IsEmpty, Intent.HasStrength, levelIntent]
  have hoff : ¬ (levelIntent t level).Off := by simp [levelIntent, Intent.Off, hn]
  have effort : geminiEffort (levelIntent t level) = level := by
    simp [geminiEffort, levelIntent, hu]
  unfold renderGeminiIntent
  rw [if_neg hempty, hk]
  dsimp only
  rw [renderGeminiLevel, if_neg hoff, effort, if_pos hu, hl]
  rfl

end Reread

/-! ### Rendered configs -/

section Spec

variable {scaled : ℕ → ℚ → ℤ} {model : String} {intent : RawIntent} {i : Intent}
  {maxOutputTokens : Option ℕ} {percentage : ℚ} {r : GeminiRender}

section

variable (hi : normalizeIntent intent = .ok i)
include hi

theorem renderGemini_eq :
    renderGemini scaled model intent maxOutputTokens percentage =
      renderGeminiIntent scaled (geminiCapabilitiesFor model) model i maxOutputTokens
        percentage := by
  simp only [renderGemini, hi, liftIntent, bind, Except.bind]

/-- A rendered config passes the check, with the effort it was rendered for where it has a budget
or a level. -/
theorem renderGemini_validates
    (h : renderGemini scaled model intent maxOutputTokens percentage = .ok r) :
    ∃ e, validateGeminiThinkingConfig model r.config = .ok e ∧
      ∀ config, r.config = some config →
        config.thinkingBudget ≠ none ∨ config.thinkingLevel ≠ "" → e = r.effectiveEffort := by
  rw [renderGemini_eq hi] at h
  obtain ⟨-, rfl⟩ | ⟨-, hc, hk⟩ | ⟨hk, b, hb, rfl, hv, -⟩ | ⟨hk, e, level, hl, rfl⟩ :=
    renderGeminiIntent_cases (normalizeIntent_settled hi) h
  · exact ⟨.unset, rfl, fun _ h => by cases h⟩
  · obtain ⟨e, he⟩ := validate_bare (t := i.includeThoughts) fun h => (hk h).2
    refine ⟨e, hc ▸ he, fun config hconfig hset => ?_⟩
    rw [hc] at hconfig
    cases hconfig
    simp at hset
  · exact ⟨_, validate_budget hb hk hv, fun _ _ _ => rfl⟩
  · obtain ⟨hll, hu, hn⟩ := geminiLevelForEffort_level hl
    exact ⟨_, validate_level hll hu hn hk, fun _ _ _ => rfl⟩

/-- Read back and rendered again, a config is the same, except that an empty one is read as an
empty intent, which is rendered as none. -/
theorem renderGemini_fromGemini
    (h : renderGemini scaled model intent maxOutputTokens percentage = .ok r) :
    ∃ j r', fromGemini r.config = .ok j ∧
      renderGemini scaled model j.raw maxOutputTokens percentage = .ok r' ∧
      (r'.config = r.config ∨ r.config = some {} ∧ r'.config = none) := by
  rw [renderGemini_eq hi] at h
  obtain ⟨-, rfl⟩ | ⟨-, hc, hk⟩ | ⟨hk, b, hb, rfl, hv, -⟩ | ⟨hk, e, level, hl, rfl⟩ :=
    renderGeminiIntent_cases (normalizeIntent_settled hi) h
  · refine ⟨{}, {}, rfl, ?_, .inl rfl⟩
    rw [renderGemini_raw (Intent.settled_of_weak rfl rfl)]
    exact if_pos (by decide)
  · refine ⟨bareIntent i.includeThoughts, ?_⟩
    rw [hc, renderGemini_raw (Intent.settled_of_weak rfl rfl)]
    by_cases ht : i.includeThoughts = none
    · refine ⟨{}, fromGemini_bare _, if_pos ⟨not_hasStrength_bareIntent _, ht⟩, .inr ⟨?_, rfl⟩⟩
      rw [ht]
    · obtain ⟨e, he⟩ := render_bare ht fun h => (hk h).2
      exact ⟨_, fromGemini_bare _, he, .inl rfl⟩
  · refine ⟨budgetIntent i.includeThoughts b, _, fromGemini_budget _ hb, ?_, .inl rfl⟩
    rw [renderGemini_raw (settled_budgetIntent _ hb)]
    exact render_budget hk hv
  · obtain ⟨hll, hu, hn⟩ := geminiLevelForEffort_level hl
    refine ⟨levelIntent i.includeThoughts level, _, fromGemini_level _ hu hn, ?_, .inl rfl⟩
    rw [renderGemini_raw (settled_levelIntent _ hn)]
    exact render_level hll hu hn hk

/-- Thinking that is on gets no budget of zero, unless it comes from an output limit so small that
its share rounds to zero. -/
theorem renderGemini_on (on : ¬ i.Off) (share : ∀ m, DerivedBudget i maxOutputTokens m →
      0 < scaled m (geminiPercentage percentage) ∨ 0 < (geminiCapabilitiesFor model).minBudget)
    (h : renderGemini scaled model intent maxOutputTokens percentage = .ok r)
    {config : GeminiThinkingConfig} (hc : r.config = some config) :
    config.thinkingBudget ≠ some 0 := by
  rw [renderGemini_eq hi] at h
  obtain ⟨-, rfl⟩ | ⟨-, hc', -⟩ | ⟨-, b, -, rfl, -, hzero⟩ | ⟨-, _, _, -, rfl⟩ :=
    renderGeminiIntent_cases (normalizeIntent_settled hi) h
  · cases hc
  · rw [hc'] at hc
    cases hc
    simp
  · cases hc
    intro h0
    obtain hoff | ⟨m, hm, hs, hmin⟩ := hzero (Option.some.inj h0)
    · exact on hoff
    · obtain hpos | hpos := share m hm
      · omega
      · omega
  · cases hc
    simp

end

/-- **A rendered Gemini config** passes the model's check with the effort it stands for, survives
being read and rendered again (an empty config as none), and does not turn off thinking that the
intent turns on by an effort or a budget, or by a share of the output limit above zero. -/
theorem renderGemini_spec (hi : normalizeIntent intent = .ok i)
    (h : renderGemini scaled model intent maxOutputTokens percentage = .ok r) :
    (∃ e, validateGeminiThinkingConfig model r.config = .ok e ∧
      ∀ config, r.config = some config →
        config.thinkingBudget ≠ none ∨ config.thinkingLevel ≠ "" → e = r.effectiveEffort) ∧
    (∃ j r', fromGemini r.config = .ok j ∧
      renderGemini scaled model j.raw maxOutputTokens percentage = .ok r' ∧
      (r'.config = r.config ∨ r.config = some {} ∧ r'.config = none)) ∧
    (¬ i.Off →
      (∀ m, DerivedBudget i maxOutputTokens m →
        0 < scaled m (geminiPercentage percentage) ∨ 0 < (geminiCapabilitiesFor model).minBudget) →
      ∀ config, r.config = some config → config.thinkingBudget ≠ some 0) :=
  ⟨renderGemini_validates hi h, renderGemini_fromGemini hi h,
    fun on share _ hc => renderGemini_on hi on share h hc⟩

/-- A share whose product is exact. -/
def exactShare (n : ℕ) (p : ℚ) : ℤ := (n * p + 1 / 2).floor

/-- Thinking turned on, with a budget from the output limit. -/
theorem renderGemini_spec_share :
    (∃ e, validateGeminiThinkingConfig "gemini-2.5-pro" (some { thinkingBudget := some 600 }) =
        .ok e ∧
      ∀ config : GeminiThinkingConfig, some { thinkingBudget := some 600 } = some config →
        config.thinkingBudget ≠ none ∨ config.thinkingLevel ≠ "" → e = .low) ∧
    (∃ j r', fromGemini (some { thinkingBudget := some 600 }) = .ok j ∧
      renderGemini exactShare "gemini-2.5-pro" j.raw (some 1000) 0 = .ok r' ∧
      (r'.config = some { thinkingBudget := some 600 } ∨
        some { thinkingBudget := some 600 } = some ({} : GeminiThinkingConfig) ∧
          r'.config = none)) := by
  have accepted : normalizeIntent { mode := "adaptive" } = .ok { mode := .adaptive } := by
    decide +kernel
  have rendered : renderGemini exactShare "gemini-2.5-pro" { mode := "adaptive" } (some 1000) 0 =
      .ok { config := some { thinkingBudget := some 600 }, effectiveEffort := .low } := by
    decide +kernel
  have spec := renderGemini_spec accepted rendered
  exact ⟨spec.1, spec.2.1⟩

/-- Three tenths of a limit of one token round to a budget of zero, which turns thinking off where
the intent turns it on; and an intent that only turns thinking on is rendered as an empty config
for a model with levels, which is read as an empty intent and rendered as none. -/
theorem renderGemini_zero :
    renderGemini exactShare "gemini-2.5-flash" { mode := "enabled" } (some 1) (3 / 10) =
        .ok { config := some { thinkingBudget := some 0 }, effectiveEffort := .none } ∧
      renderGemini exactShare "gemini-3-pro" { mode := "enabled" } none 0 =
        .ok { config := some {}, effectiveEffort := .high } ∧
      fromGemini (some {}) = .ok { source := .native, budgetSource := .native } ∧
      renderGemini exactShare "gemini-3-pro"
        (Intent.raw { source := .native, budgetSource := .native }) none 0 = .ok {} := by
  decide +kernel

end Spec

end NexusTok
