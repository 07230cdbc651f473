import Mathlib.Algebra.Group.Nat.Defs
import NexusTok.Reasoning.Pivot
import Mathlib.Tactic.SplitIfs

/-!
# Rendering for Claude

A table by the beginning of the model's name says what a Claude model takes: thinking that adapts
or a manual budget, whether thinking can be turned off, which levels of effort there are.
`RenderClaude` finds the controls that come closest to an intent.  Manual thinking needs a budget
of at least 1024 tokens that is less than `max_tokens`; where none is asked for it is a percentage
of `max_tokens`, whose product may wrap.

* `manualBudget_bounds` : the budget is in its range, also where the product wraps.
* `renderClaude_legal_iff` : every render is legal for its model, except where the model takes no
  adaptive thinking and the intent is an effort alone that the model does not have.
-/

namespace NexusTok

structure ClaudeCapabilities where
  adaptive : Bool := false
  supportsManual : Bool := true
  defaultThinking : Bool := false
  supportsDisable : Bool := true
  supportsEffort : Bool := false
  supportsXHigh : Bool := false
  supportsMax : Bool := false
  strictSampling : Bool := false
  deriving Repr, DecidableEq

def claudeCapabilitiesFor (model : String) : ClaudeCapabilities :=
  let model := toLower model
  if hasPrefix model "claude-fable-5" ∨ hasPrefix model "claude-mythos-5" then
    { adaptive := true
      supportsManual := false
      defaultThinking := true
      supportsDisable := false
      supportsXHigh := true
      supportsMax := true
      strictSampling := true }
  else if hasPrefix model "claude-mythos-preview" then
    { adaptive := true
      defaultThinking := true
      supportsDisable := false
      supportsMax := true
      strictSampling := true }
  else if hasPrefix model "claude-opus-5" ∨ hasPrefix model "claude-sonnet-5" ∨
      hasPrefix model "claude-opus-4-8" ∨ hasPrefix model "claude-opus-4-7" then
    { adaptive := true
      supportsManual := false
      defaultThinking := hasPrefix model "claude-opus-5" || hasPrefix model "claude-sonnet-5"
      supportsEffort := true
      supportsXHigh := true
      supportsMax := true
      strictSampling := true }
  else if hasPrefix model "claude-opus-4-6" ∨ hasPrefix model "claude-sonnet-4-6" then
    { adaptive := true
      supportsEffort := true
      supportsMax := true }
  else if hasPrefix model "claude-opus-4-5" then { supportsEffort := true }
  else {}

/-- `dto.Thinking`. -/
structure ClaudeThinking where
  type : String
  budgetTokens : Option Int := none
  display : String := ""
  deriving Repr, DecidableEq

/-- A `claudeReasoningDiagnostic`, by its code; all have the path `thinking`. -/
inductive ClaudeDiagnostic where
  /-- `claude_disabled_effort_ignored`: `model … cannot apply effort … while thinking is disabled;
  the effort was ignored` -/
  | disabledEffortIgnored (model : String) (effort : Effort)
  /-- `claude_thinking_disable_unsupported`: `model … cannot disable thinking; using the lowest
  representable thinking mode` -/
  | thinkingDisableUnsupported (model : String)
  /-- `claude_budget_to_adaptive`: `model … uses adaptive thinking; budget_tokens was converted to
  an effort level` -/
  | budgetToAdaptive (model : String)
  /-- `claude_effort_adjusted`: `model … does not support effort …; using …` -/
  | effortAdjusted (model : String) (effort normalized : Effort)
  /-- `claude_adaptive_to_manual`: `model … does not support adaptive thinking; using manual
  thinking` -/
  | adaptiveToManual (model : String)
  /-- `claude_budget_adjusted`: `model … requires 1024 <= budget_tokens < max_tokens; adjusted …
  to …` -/
  | budgetAdjusted (model : String) (requested budget : Int)
  /-- `claude_dynamic_budget_converted`: `model … does not support a dynamic budget; derived a
  manual budget from reasoning effort` -/
  | dynamicBudgetConverted (model : String)
  deriving Repr, DecidableEq

structure ClaudeRender where
  thinking : Option ClaudeThinking := none
  outputEffort : Effort := .unset
  effectiveEffort : Effort := .unset
  clearSampling : Bool := false
  constrainThinkingSampling : Bool := false
  diagnostics : List ClaudeDiagnostic := []
  deriving Repr, DecidableEq

/-- What `RenderClaude` fails with. -/
inductive ClaudeError where
  | intent (e : IntentError)
  /-- `max_tokens is required for manual Claude thinking` -/
  | maxTokensRequired
  /-- `max_tokens must be greater than 1024 for manual Claude thinking` -/
  | maxTokensTooSmall
  /-- `max_tokens is too large for a thinking budget` -/
  | maxTokensTooLarge
  deriving Repr, DecidableEq

def normalizeClaudeEffort (effort : Effort) (c : ClaudeCapabilities) : Effort :=
  match effort with
  | .minimal => .low
  | .xhigh => if c.supportsXHigh then .xhigh else if c.supportsMax then .max else .high
  | .max => if ¬ c.supportsMax then .high else .max
  | effort => effort

/-- `effortPercentage`; `adapter` is the percentage of the settings, `int(math.Round(p * 100))`. -/
def effortPercentage (effort : Effort) (adapter : Int) : Int :=
  match effort with
  | .minimal => 5
  | .low => 20
  | .medium => 50
  | .high => 80
  | .xhigh | .max => 95
  | _ => if adapter ≤ 0 then 80 else if 100 ≤ adapter then 99 else adapter

/-- The `Display` of an intent's thoughts. -/
def claudeDisplay (includeThoughts : Option Bool) : String :=
  includeThoughts.elim "" fun shown => if shown then "summarized" else "omitted"

/-! ### The cases of a render -/

section Render

variable (c : ClaudeCapabilities) (model : String) (intent : Intent)

/-- The render of an intent without strength. -/
def renderClaudeDefault : ClaudeRender :=
  if intent.includeThoughts ≠ none ∧ c.adaptive ∧ c.defaultThinking then
    { thinking := some { type := "adaptive", display := claudeDisplay intent.includeThoughts }
      effectiveEffort := .high
      clearSampling := c.strictSampling }
  else if c.defaultThinking then
    { effectiveEffort := .high, clearSampling := c.strictSampling }
  else { clearSampling := c.strictSampling }

/-- The render of an intent that turns thinking off. -/
def renderClaudeDisabled (diagnostics : List ClaudeDiagnostic) : ClaudeRender :=
  if ¬ c.supportsDisable then
    let diagnostics := diagnostics ++ [.thinkingDisableUnsupported model]
    if c.adaptive then
      { thinking := some { type := "adaptive", display := claudeDisplay intent.includeThoughts }
        outputEffort := if c.supportsEffort then .low else .unset
        effectiveEffort := if c.supportsEffort then .low else .high
        clearSampling := c.strictSampling
        diagnostics := diagnostics }
    else { diagnostics := diagnostics }
  else
    { thinking := some { type := "disabled" }
      effectiveEffort := .none
      clearSampling := c.strictSampling
      diagnostics := diagnostics }

/-- The effort that adaptive thinking is asked for, before the model's levels are looked at. -/
def adaptiveEffort : Effort :=
  if intent.effort ≠ .unset then intent.effort
  else
    let effort := intent.budgetTokens.elim .unset effortFromBudget
    if effort = .unset ∧ intent.mode = .enabled then .high else effort

/-- The render as adaptive thinking; a mere effort leaves thinking as it is. -/
def renderClaudeAdaptive (diagnostics : List ClaudeDiagnostic) : ClaudeRender :=
  let effort := adaptiveEffort intent
  let normalized := normalizeClaudeEffort effort c
  let diagnostics :=
    if effort ≠ .unset ∧ normalized ≠ effort then
      diagnostics ++ [.effortAdjusted model effort normalized]
    else diagnostics
  let effective :=
    if normalized = .unset ∧ intent.mode = .adaptive then .high else normalized
  if intent.mode = .unset then
    { outputEffort := normalized
      effectiveEffort := effective
      clearSampling := c.strictSampling
      diagnostics := diagnostics }
  else
    { thinking := some { type := "adaptive", display := claudeDisplay intent.includeThoughts }
      outputEffort := normalized
      effectiveEffort := effective
      clearSampling := c.strictSampling
      constrainThinkingSampling := !c.strictSampling
      diagnostics := diagnostics }

/-- A product of Go's `int`, which wraps. -/
def mulInt (a b : Int) : Int := Int.bmod (a * b) (2 ^ 64)

/-- `if uint(budget) >= *maxTokens { budget = int(*maxTokens) - 1 }` -/
def capBudget (budget : Int) (maxTokens : Nat) : Int :=
  if maxTokens ≤ budget.toNat then maxTokens - 1 else budget

/-- A budget that is asked for and not dynamic. -/
def requestedBudget : Option Int := intent.budgetTokens.filter fun budget => 0 ≤ budget

/-- The budget of manual thinking. -/
def manualBudget (maxTokens : Nat) (adapter : Int) : Int :=
  match requestedBudget intent with
  | some requested => capBudget (max requested 1024) maxTokens
  | none =>
    let percentage := effortPercentage intent.effort adapter
    capBudget (max ((mulInt maxTokens percentage).tdiv 100) 1024) maxTokens

/-- What is reported about the budget of manual thinking. -/
def manualDiagnostics (budget : Int) : List ClaudeDiagnostic :=
  match requestedBudget intent with
  | some requested =>
    if budget ≠ requested then [.budgetAdjusted model requested budget] else []
  | none => if intent.budgetTokens ≠ none then [.dynamicBudgetConverted model] else []

/-- The render as manual thinking, of an intent with a mode. -/
def renderClaudeManual (diagnostics : List ClaudeDiagnostic) (maxTokens : Option Nat)
    (adapter : Int) : Except ClaudeError ClaudeRender :=
  match maxTokens with
  | none => .error .maxTokensRequired
  | some maxTokens =>
    if maxTokens ≤ 1024 then .error .maxTokensTooSmall
    else if 2 ^ 63 - 1 < maxTokens then .error .maxTokensTooLarge
    else
      let budget := manualBudget intent maxTokens adapter
      let effective :=
        if intent.budgetTokens ≠ none ∧ ¬ c.supportsEffort then effortFromBudget budget
        else if intent.effort = .unset then effortFromBudget budget
        else intent.effort
      let output :=
        if c.supportsEffort ∧ intent.effort ≠ .unset then normalizeClaudeEffort intent.effort c
        else .unset
      .ok
        { thinking := some
            { type := "enabled"
              budgetTokens := some budget
              display := claudeDisplay intent.includeThoughts }
          outputEffort := output
          effectiveEffort :=
            if c.supportsEffort ∧ intent.effort ≠ .unset then output else effective
          constrainThinkingSampling := true
          diagnostics := diagnostics ++ manualDiagnostics model intent budget }

end Render

/-- The intent that `RenderClaude` works on, and whether its effort is ignored. -/
def claudeIntent (intent : RawIntent) : Except ClaudeError (Intent × Bool) :=
  if intent.mode = "disabled" ∧ intent.effort ≠ "" ∧ intent.effort ≠ "none" then
    match readEffort intent.effort with
    | .error e => .error (.intent e)
    | .ok effort =>
      .ok ({ mode := .disabled, effort
             budgetTokens := intent.budgetTokens
             includeThoughts := intent.includeThoughts
             source := intent.source
             budgetSource := intent.budgetSource }, true)
  else
    match normalizeIntent intent with
    | .error e => .error (.intent e)
    | .ok i => .ok (i, false)

/-- `RenderClaude` of an intent that is read. -/
def renderClaudeIntent (c : ClaudeCapabilities) (model : String) (intent : Intent)
    (diagnostics : List ClaudeDiagnostic) (maxTokens : Option Nat) (adapter : Int) :
    Except ClaudeError ClaudeRender :=
  if ¬ intent.HasStrength then .ok (renderClaudeDefault c intent)
  else if intent.Off then .ok (renderClaudeDisabled c model intent diagnostics)
  else
    let preferManual :=
      c.supportsManual ∧ intent.budgetTokens ≠ none ∧ intent.mode ≠ .adaptive
    let diagnostics :=
      if ¬ c.supportsManual ∧ intent.budgetTokens ≠ none ∧ intent.mode = .enabled then
        diagnostics ++ [.budgetToAdaptive model]
      else diagnostics
    if c.adaptive ∧ ¬ preferManual then
      .ok (renderClaudeAdaptive c model intent diagnostics)
    else if intent.mode = .adaptive then
      renderClaudeManual c model
        { intent with
          mode := .enabled
          effort := if intent.effort = .unset then .high else intent.effort }
        (diagnostics ++ [.adaptiveToManual model]) maxTokens adapter
    else if intent.mode = .unset then
      -- the diagnostics are dropped here
      .ok { outputEffort := intent.effort, effectiveEffort := intent.effort }
    else renderClaudeManual c model intent diagnostics maxTokens adapter

/-- `RenderClaude`; `adapter` is `int(math.Round(adapterBudgetPercentage * 100))`. -/
def renderClaude (model : String) (intent : RawIntent) (maxTokens : Option Nat) (adapter : Int) :
    Except ClaudeError ClaudeRender := do
  let (intent, disabledWithEffort) ← claudeIntent intent
  let diagnostics :=
    if disabledWithEffort then [.disabledEffortIgnored model intent.effort] else []
  renderClaudeIntent (claudeCapabilitiesFor model) model intent diagnostics maxTokens adapter

/-! ### Legal renders -/

/-- What a model accepts: a manual budget in its range, thinking turned off only where it can be,
and a level of effort that it has. -/
structure ClaudeRender.Legal (c : ClaudeCapabilities) (maxTokens : Option Nat)
    (r : ClaudeRender) : Prop where
  budget : ∀ t b, r.thinking = some t → t.budgetTokens = some b →
    ∃ m, maxTokens = some m ∧ 1024 ≤ b ∧ b < m
  disabled : ∀ t, r.thinking = some t → t.type = "disabled" → c.supportsDisable
  not_minimal : r.outputEffort ≠ .minimal
  xhigh : r.outputEffort = .xhigh → c.supportsXHigh
  max : r.outputEffort = .max → c.supportsMax

/-- A level of effort that a model has. -/
def ClaudeCapabilities.Takes (c : ClaudeCapabilities) (e : Effort) : Prop :=
  e ≠ .minimal ∧ (e = .xhigh → c.supportsXHigh) ∧ (e = .max → c.supportsMax)

/-- A model of the table without adaptive thinking has neither of the two top levels. -/
theorem claudeCapabilitiesFor_top {model : String}
    (h : (claudeCapabilitiesFor model).adaptive = false) :
    (claudeCapabilitiesFor model).supportsXHigh = false ∧
      (claudeCapabilitiesFor model).supportsMax = false := by
  revert h
  unfold claudeCapabilitiesFor
  dsimp only
  split_ifs <;> simp

theorem takes_normalizeClaudeEffort (effort : Effort) (c : ClaudeCapabilities) :
    c.Takes (normalizeClaudeEffort effort c) := by
  cases effort <;> simp [normalizeClaudeEffort, ClaudeCapabilities.Takes] <;> split_ifs <;>
    simp_all

theorem capBudget_bounds {budget : Int} {maxTokens : Nat} (h : 1024 ≤ budget)
    (hm : 1024 < maxTokens) :
    1024 ≤ capBudget budget maxTokens ∧ capBudget budget maxTokens < maxTokens := by
  unfold capBudget
  split_ifs <;> omega

/-- The budget of manual thinking is in its range, whatever the product comes to. -/
theorem manualBudget_bounds (intent : Intent) {maxTokens : Nat} (hm : 1024 < maxTokens)
    (adapter : Int) :
    1024 ≤ manualBudget intent maxTokens adapter ∧
      manualBudget intent maxTokens adapter < maxTokens := by
  unfold manualBudget
  cases requestedBudget intent with
  | some | none => exact capBudget_bounds (Int.le_max_right _ _) hm

section Legal

variable {c : ClaudeCapabilities} {maxTokens : Option Nat}

theorem ClaudeRender.Legal.of_takes {r : ClaudeRender} (h : c.Takes r.outputEffort)
    (hb : ∀ t, r.thinking = some t → t.budgetTokens = none)
    (hd : ∀ t, r.thinking = some t → t.type = "disabled" → c.supportsDisable) :
    r.Legal c maxTokens where
  budget t b ht hb' := by simp [hb t ht] at hb'
  disabled := hd
  not_minimal := h.1
  xhigh := h.2.1
  max := h.2.2

theorem takes_unset : c.Takes .unset := by simp [ClaudeCapabilities.Takes]

theorem legal_renderClaudeDefault (intent : Intent) :
    (renderClaudeDefault c intent).Legal c maxTokens := by
  unfold renderClaudeDefault
  split_ifs
  · exact .of_takes takes_unset (by simp) (by simp)
  · exact .of_takes takes_unset (by simp) (by simp)
  · exact .of_takes takes_unset (by simp) (by simp)

theorem legal_renderClaudeDisabled (model : String) (intent : Intent)
    (diagnostics : List ClaudeDiagnostic) :
    (renderClaudeDisabled c model intent diagnostics).Legal c maxTokens := by
  unfold renderClaudeDisabled
  by_cases hd : c.supportsDisable
  · rw [if_neg (not_not.mpr hd)]
    exact .of_takes takes_unset (by simp) fun _ _ _ => hd
  · rw [if_pos hd]
    dsimp only
    by_cases ha : c.adaptive
    · rw [if_pos ha]
      refine .of_takes ?_ (by simp) (by simp)
      by_cases he : c.supportsEffort <;> simp [he, ClaudeCapabilities.Takes]
    · rw [if_neg ha]
      exact .of_takes takes_unset (by simp) (by simp)

theorem legal_renderClaudeAdaptive (model : String) (intent : Intent)
    (diagnostics : List ClaudeDiagnostic) :
    (renderClaudeAdaptive c model intent diagnostics).Legal c maxTokens := by
  have takes := takes_normalizeClaudeEffort (adaptiveEffort intent) c
  unfold renderClaudeAdaptive
  dsimp only
  by_cases hm : intent.mode = .unset
  · rw [if_pos hm]
    exact .of_takes takes (by simp) (by simp)
  · rw [if_neg hm]
    exact .of_takes takes (by simp) (by simp)

theorem legal_renderClaudeManual {model : String} {intent : Intent}
    {diagnostics : List ClaudeDiagnostic} {adapter : Int} {r : ClaudeRender}
    (h : renderClaudeManual c model intent diagnostics maxTokens adapter = .ok r) :
    r.Legal c maxTokens := by
  unfold renderClaudeManual at h
  rcases maxTokens with _ | m
  · cases h
  dsimp only at h
  by_cases hs : m ≤ 1024
  · rw [if_pos hs] at h; cases h
  by_cases hl : 2 ^ 63 - 1 < m
  · rw [if_neg hs, if_pos hl] at h; cases h
  rw [if_neg hs, if_neg hl] at h
  obtain ⟨low, high⟩ := manualBudget_bounds intent (not_le.mp hs) adapter
  have takes : c.Takes
      (if c.supportsEffort ∧ intent.effort ≠ .unset then normalizeClaudeEffort intent.effort c
        else .unset) := by
    by_cases he : c.supportsEffort ∧ intent.effort ≠ .unset
    · rw [if_pos he]; exact takes_normalizeClaudeEffort _ _
    · rw [if_neg he]; exact takes_unset
  cases h
  refine ⟨fun t b ht hb => ?_, by simp, takes.1, takes.2.1, takes.2.2⟩
  cases ht
  cases hb
  exact ⟨m, rfl, low, high⟩

/-- An effort alone, on a model without adaptive thinking, is written as it is. -/
theorem renderClaudeIntent_effort {intent : Intent} (hs : intent.HasStrength)
    (hoff : ¬ intent.Off) (ha : c.adaptive = false) (hm : intent.mode = .unset) (model : String)
    (diagnostics : List ClaudeDiagnostic) (adapter : Int) :
    renderClaudeIntent c model intent diagnostics maxTokens adapter =
      .ok { outputEffort := intent.effort, effectiveEffort := intent.effort } := by
  unfold renderClaudeIntent
  rw [if_neg (not_not.mpr hs), if_neg hoff]
  simp [ha, hm]

theorem legal_renderClaudeIntent {model : String} {intent : Intent}
    {diagnostics : List ClaudeDiagnostic} {adapter : Int} {r : ClaudeRender}
    (hbudget : intent.mode = .unset → intent.budgetTokens = none)
    (hcond : intent.mode = .unset → c.adaptive = false → c.Takes intent.effort)
    (h : renderClaudeIntent c model intent diagnostics maxTokens adapter = .ok r) :
    r.Legal c maxTokens := by
  by_cases hs : intent.HasStrength
  · by_cases hoff : intent.Off
    · rw [renderClaudeIntent, if_neg (not_not.mpr hs), if_pos hoff] at h
      cases h
      exact legal_renderClaudeDisabled ..
    · rw [renderClaudeIntent, if_neg (not_not.mpr hs), if_neg hoff] at h
      dsimp only at h
      by_cases hp : c.adaptive ∧ ¬ (c.supportsManual ∧ intent.budgetTokens ≠ none ∧
          intent.mode ≠ .adaptive)
      · rw [if_pos hp] at h
        cases h
        exact legal_renderClaudeAdaptive ..
      rw [if_neg hp] at h
      by_cases ha : intent.mode = .adaptive
      · rw [if_pos ha] at h
        exact legal_renderClaudeManual h
      rw [if_neg ha] at h
      by_cases hu : intent.mode = .unset
      · rw [if_pos hu] at h
        cases h
        have plain : c.adaptive = false := by
          by_contra hne
          exact hp ⟨by simpa using hne, fun hman => hman.2.1 (hbudget hu)⟩
        exact .of_takes (hcond hu plain) (by simp) (by simp)
      · rw [if_neg hu] at h
        exact legal_renderClaudeManual h
  · rw [renderClaudeIntent, if_pos hs] at h
    cases h
    exact legal_renderClaudeDefault _

end Legal

/-- The intent that a render works on is normal, or turns thinking off. -/
theorem claudeIntent_cases {intent : RawIntent} {i : Intent} {d : Bool}
    (h : claudeIntent intent = .ok (i, d)) :
    i.mode = .disabled ∨ normalizeIntent intent = .ok i := by
  unfold claudeIntent at h
  split_ifs at h with hd
  · cases he : readEffort intent.effort with
    | error e => rw [he] at h; cases h
    | ok effort => rw [he] at h; cases h; exact .inl rfl
  · cases hn : normalizeIntent intent with
    | error e => rw [hn] at h; cases h
    | ok j => rw [hn] at h; cases h; exact .inr rfl

theorem claudeIntent_normal {intent : RawIntent} {i : Intent}
    (h : normalizeIntent intent = .ok i) (hm : i.mode = .unset) :
    claudeIntent intent = .ok (i, false) := by
  have : intent.mode ≠ "disabled" := fun hd => by
    simp [normalizeIntent_disabled h hd] at hm
  rw [claudeIntent, if_neg fun hd => this hd.1, h]

/-- **A render is legal for its model** exactly where the intent is not an effort alone, without a
mode, that is `minimal`, `xhigh` or `max`, for a model that takes no adaptive thinking: there the
effort is written as it is. -/
theorem renderClaude_legal_iff (model : String) (intent : RawIntent) (maxTokens : Option Nat)
    (adapter : Int) :
    (∀ r, renderClaude model intent maxTokens adapter = .ok r →
      r.Legal (claudeCapabilitiesFor model) maxTokens) ↔
    ¬ ((claudeCapabilitiesFor model).adaptive = false ∧
      ∃ i, normalizeIntent intent = .ok i ∧ i.mode = .unset ∧
        (i.effort = .minimal ∨ i.effort = .xhigh ∨ i.effort = .max)) := by
  constructor
  · rintro legal ⟨ha, i, hi, hm, he⟩
    have hs : i.HasStrength := .inr (.inl (by rintro hu; simp [hu] at he))
    have hoff : ¬ i.Off := by
      rintro (hd | hn)
      · simp [hd] at hm
      · simp [hn] at he
    have r := legal { outputEffort := i.effort, effectiveEffort := i.effort } (by
      simp only [renderClaude, claudeIntent_normal hi hm, bind, Except.bind]
      exact renderClaudeIntent_effort hs hoff ha hm ..)
    obtain ⟨noXHigh, noMax⟩ := claudeCapabilitiesFor_top ha
    obtain he | he | he := he
    · exact r.not_minimal he
    · simpa [noXHigh] using r.xhigh he
    · simpa [noMax] using r.max he
  · intro cond r hr
    rcases hc : claudeIntent intent with _ | p
    · simp [renderClaude, hc, bind, Except.bind] at hr
    obtain ⟨i, d⟩ := p
    simp only [renderClaude, hc, bind, Except.bind] at hr
    refine legal_renderClaudeIntent (fun hu => ?_) (fun hu ha => ?_) hr
    · obtain hd | hn := claudeIntent_cases hc
      · simp [hd] at hu
      · have settled := normalizeIntent_settled hn
        by_contra hb
        obtain ⟨b, hb⟩ := Option.ne_none_iff_exists'.mp hb
        by_cases h0 : b = 0
        · have := (settled.off_of_zero (by rw [hb, h0])).1
          simp [hu] at this
        · exact (settled.on_of_budget b hb h0).2.1 hu
    · obtain hd | hn := claudeIntent_cases hc
      · simp [hd] at hu
      · refine ⟨fun he => cond ⟨ha, i, hn, hu, .inl he⟩, fun he => ?_, fun he => ?_⟩
        · exact absurd ⟨ha, i, hn, hu, .inr (.inl he)⟩ cond
        · exact absurd ⟨ha, i, hn, hu, .inr (.inr he)⟩ cond

/-- A native request for minimal effort, with no word about thinking, on a model that has effort
but takes no adaptive thinking. -/
theorem renderClaude_minimal :
    renderClaude "claude-opus-4-5" { effort := "minimal" } (some 4096) 80 =
        .ok { outputEffort := .minimal, effectiveEffort := .minimal } ∧
      ¬ ClaudeRender.Legal (claudeCapabilitiesFor "claude-opus-4-5") (some 4096)
        { outputEffort := .minimal, effectiveEffort := .minimal } :=
  ⟨by decide +kernel, fun h => h.not_minimal rfl⟩

end NexusTok
