import NexusTok.Reasoning.Merging

/-!
# The OpenAI pivot

A conversion between two protocols goes through an OpenAI request.  Its own field for the effort
holds only a level, so an intent travels twice: as the level that comes closest to it, for whoever
reads the request as OpenAI would, and whole in a state that is never written to the wire.  A
reader that finds the level it would have derived from the state takes the state's word.

* `fromOpenAIChat_applyToOpenAIChat`, `fromOpenAIResponses_applyToOpenAIResponses` : what is
  applied to a request without reasoning fields is read back.
-/

namespace NexusTok

/-! ### The level that stands for an intent -/

def effortFromBudget (budget : Int) : Effort :=
  if budget = 0 then .none
  else if budget < 0 then .high
  else if budget ≤ 1024 then .low
  else if budget ≤ 8192 then .medium
  else .high

/-- `EffectiveEffort` of a normal intent. -/
def Intent.effective (i : Intent) : Effort :=
  if i.mode = .disabled then .none
  else if i.effort ≠ .unset then i.effort
  else
    match i.budgetTokens with
    | some budget => effortFromBudget budget
    | none => if i.mode = .enabled ∨ i.mode = .adaptive then .high else .unset

def effectiveEffort (intent : RawIntent) : Effort :=
  match normalizeIntent intent with
  | .ok i => i.effective
  | .error _ => .unset

/-! ### Requests -/

structure ReasoningConversionState where
  mode : String := ""
  effort : String := ""
  budgetTokens : Option Int := none
  includeThoughts : Option Bool := none
  deriving Repr, DecidableEq

/-- The reasoning fields of a `GeneralOpenAIRequest`; `reasoning` is raw JSON. -/
structure ChatReasoning where
  model : String := ""
  reasoningEffort : String := ""
  reasoning : String := ""
  reasoningConversion : Option ReasoningConversionState := none
  deriving Repr, DecidableEq

/-- `dto.Reasoning`. -/
structure ResponsesReasoning where
  effort : String := ""
  summary : String := ""
  deriving Repr, DecidableEq

/-- The reasoning fields of an `OpenAIResponsesRequest`. -/
structure ResponsesControls where
  model : String := ""
  reasoning : Option ResponsesReasoning := none
  reasoningConversion : Option ReasoningConversionState := none
  deriving Repr, DecidableEq

structure OpenRouterReasoning where
  enabled : Option Bool := none
  effort : String := ""
  maxTokens : Option Int := none
  exclude : Option Bool := none
  deriving Repr, DecidableEq

/-- The state that both writers leave in a request. -/
def Intent.state (i : Intent) : ReasoningConversionState where
  mode := i.mode.word
  effort := i.effort.word
  budgetTokens := i.budgetTokens
  includeThoughts := i.includeThoughts

/-- The `pivot` that both readers find in a request. -/
def ReasoningConversionState.pivot (s : ReasoningConversionState) : RawIntent where
  mode := s.mode
  effort := s.effort
  budgetTokens := s.budgetTokens
  includeThoughts := s.includeThoughts
  source := .pivot
  budgetSource := .pivot

/-! ### Readers -/

/-- The intent of a level. -/
def effortIntent (value : String) (intent : Intent) : Except IntentError Intent :=
  if value = "" then .ok intent
  else do
    let effort ← readEffort value
    return { intent with
      mode := if effort = .none then .disabled else .enabled
      effort := effort }

/-- The end of both readers: the intent of the request's own fields, whose level is `effort`, is
merged with the state. -/
def mergePivot (intent : Intent) (effort : String) (state : Option ReasoningConversionState)
    (model : String) : Except IntentError Intent :=
  match state with
  | none => normalizeIntent intent.raw
  | some state =>
    -- a level that the state stands for as well says nothing of its own
    let intent :=
      if effort ≠ "" ∧ effort = (effectiveEffort state.pivot).word then
        { intent with mode := .unset, effort := .unset }
      else intent
    mergeExplicit intent.raw state.pivot model

/-- The `nested` intent of `FromOpenAIChat`. -/
def OpenRouterReasoning.nested (r : OpenRouterReasoning) : Except IntentError Intent := do
  let nested : Intent :=
    { mode := r.enabled.elim .unset fun on => if on then .enabled else .disabled
      effort := r.enabled.elim .unset fun on => if on then .unset else .none
      budgetTokens := r.maxTokens
      source := .explicit
      budgetSource := .explicit }
  let nested ←
    if r.effort ≠ "" then do
      let effort ← readEffort r.effort
      pure { nested with
        effort := effort
        mode :=
          if effort = .none then .disabled
          else if nested.mode = .unset then .enabled
          else nested.mode }
    else pure nested
  return { nested with includeThoughts := r.exclude.map (!·) }

/-- `FromOpenAIChat`; `unmarshal` decodes the `reasoning` object. -/
def fromOpenAIChat (unmarshal : String → Except IntentError OpenRouterReasoning)
    (req : ChatReasoning) : Except IntentError Intent := do
  let intent ← effortIntent req.reasoningEffort { source := .explicit }
  let intent ←
    if req.reasoning ≠ "" then do
      let raw ← unmarshal req.reasoning
      let nested ← raw.nested
      mergeExplicit intent.raw nested.raw req.model
    else pure intent
  mergePivot intent req.reasoningEffort req.reasoningConversion req.model

def fromOpenAIResponses (req : ResponsesControls) : Except IntentError Intent := do
  match req.reasoning with
  | none => mergePivot {} "" req.reasoningConversion req.model
  | some reasoning =>
    let intent ← effortIntent reasoning.effort { source := .explicit }
    let intent :=
      if reasoning.summary ≠ "" then { intent with includeThoughts := some true } else intent
    mergePivot intent reasoning.effort req.reasoningConversion req.model

/-! ### Writers -/

def applyToOpenAIChat (req : ChatReasoning) (intent : RawIntent) :
    Except IntentError ChatReasoning := do
  let intent ← normalizeIntent intent
  let effort := effectiveEffort intent.raw
  let req := if effort ≠ .unset then { req with reasoningEffort := effort.word } else req
  if intent.IsEmpty then return req
  return { req with reasoningConversion := some intent.state }

def applyToOpenAIResponses (req : ResponsesControls) (intent : RawIntent) :
    Except IntentError ResponsesControls := do
  let intent ← normalizeIntent intent
  let effort := effectiveEffort intent.raw
  let summary :=
    if effort = .none ∨ intent.includeThoughts = some false then "" else "detailed"
  let req :=
    if effort ≠ .unset then { req with reasoning := some { effort := effort.word, summary } }
    else req
  if intent.IsEmpty then return req
  return { req with reasoningConversion := some intent.state }

/-! ### Reading back -/

/-- `j` says what `i` says, and shows what `i` shows where `i` decides that. -/
structure Intent.SameAs (i j : Intent) : Prop where
  mode : j.mode = i.mode
  effort : j.effort = i.effort
  budget : j.budgetTokens = i.budgetTokens
  thoughts : i.includeThoughts ≠ none → j.includeThoughts = i.includeThoughts

namespace Intent.Settled

variable {i : Intent}

theorem congr {j : Intent} (h : i.Settled) (hm : j.mode = i.mode) (he : j.effort = i.effort)
    (hb : j.budgetTokens = i.budgetTokens) : j.Settled := by
  constructor
  · rw [hb]; exact h.budget_range
  · rw [hb, hm, he]; exact h.off_of_zero
  · rw [hb, hm, he]; exact h.on_of_budget
  · rw [hm, he]; exact h.off_of_none

theorem normalizeIntent_pivot (h : i.Settled) :
    normalizeIntent i.state.pivot = .ok { i with source := .pivot, budgetSource := .pivot } :=
  Intent.Settled.normalizeIntent_raw
    (i := { i with source := .pivot, budgetSource := .pivot }) (h.congr rfl rfl rfl)

theorem effectiveEffort_raw (h : i.Settled) : effectiveEffort i.raw = i.effective := by
  simp [effectiveEffort, h.normalizeIntent_raw]

theorem effectiveEffort_pivot (h : i.Settled) : effectiveEffort i.state.pivot = i.effective := by
  simp only [effectiveEffort, h.normalizeIntent_pivot]
  rfl

end Intent.Settled

@[simp] theorem Effort.word_eq_empty (e : Effort) : e.word = "" ↔ e = .unset := by
  cases e <;> decide

/-- An intent that says nothing but what is shown of the thoughts is merged with a normal one by
deciding that for it. -/
theorem joinExplicit_thoughts {e p : Intent} (hp : p.Settled) (hmode : e.mode = .unset)
    (heffort : e.effort = .unset) (hbudget : e.budgetTokens = none) (hne : ¬ p.IsEmpty)
    (model : String) :
    ∃ j, joinExplicit e p model = .ok j ∧ j.mode = p.mode ∧ j.effort = p.effort ∧
      j.budgetTokens = p.budgetTokens ∧
      j.includeThoughts =
        if e.includeThoughts ≠ none then e.includeThoughts else p.includeThoughts := by
  have weak : ¬ e.HasStrength := by simp [Intent.HasStrength, hmode, heffort, hbudget]
  unfold joinExplicit
  by_cases he : e.IsEmpty
  · rw [if_pos he]
    exact ⟨p, rfl, rfl, rfl, rfl, by rw [if_neg (not_not.mpr he.2)]⟩
  · rw [if_neg he, if_neg hne, if_neg fun h => weak h.1, if_neg fun h => h.1 heffort, hbudget]
    have mode : (e.overlay p).mode = p.mode := by simp [Intent.overlay, hmode]
    have effort : (e.overlay p).effort = p.effort := by simp [Intent.overlay, heffort]
    have budget : (e.overlay p).budgetTokens = p.budgetTokens := by simp [Intent.overlay, hbudget]
    have settled : (e.overlay p).Settled := hp.congr mode effort budget
    exact ⟨e.overlay p, settled.normalizeIntent_raw, mode, effort, budget, rfl⟩

/-- An intent that says nothing about thinking is its own normal form. -/
theorem Intent.settled_of_weak {e : Intent} (heffort : e.effort = .unset)
    (hbudget : e.budgetTokens = none) : e.Settled := by
  constructor <;> simp [heffort, hbudget]

/-- What is merged with the state of a settled intent, where the request says nothing but the
level of the intent and at most that thoughts are shown, is the intent. -/
theorem mergePivot_state {i e : Intent} (h : i.Settled) (hne : ¬ i.IsEmpty)
    (weak : i.effective = .unset → e.mode = .unset ∧ e.effort = .unset)
    (hbudget : e.budgetTokens = none)
    (thoughts : e.includeThoughts = none ∨
      e.includeThoughts = some true ∧ i.includeThoughts ≠ some false) (model : String) :
    ∃ j, mergePivot e i.effective.word (some i.state) model = .ok j ∧ i.SameAs j := by
  -- the level is the state's, so what is left of `e` is at most what it shows
  obtain ⟨e', he', hmode, heffort, hbudget, hthoughts⟩ : ∃ e' : Intent,
      mergePivot e i.effective.word (some i.state) model =
        mergeExplicit e'.raw i.state.pivot model ∧
      e'.mode = .unset ∧ e'.effort = .unset ∧ e'.budgetTokens = none ∧
      e'.includeThoughts = e.includeThoughts := by
    by_cases hu : i.effective = .unset
    · obtain ⟨hm, he⟩ := weak hu
      exact ⟨e, by simp [mergePivot, hu], hm, he, hbudget, rfl⟩
    · exact ⟨{ e with mode := .unset, effort := .unset },
        by simp [mergePivot, hu, h.effectiveEffort_pivot], rfl, rfl, hbudget, rfl⟩
  obtain ⟨j, hj, mode, effort, budget, shown⟩ :=
    joinExplicit_thoughts (e := e') (p := { i with source := .pivot, budgetSource := .pivot })
      (h.congr rfl rfl rfl) hmode heffort hbudget hne model
  refine ⟨j, ?_, mode, effort, budget, fun hset => ?_⟩
  · rw [he', mergeExplicit, (Intent.settled_of_weak heffort hbudget).normalizeIntent_raw,
      h.normalizeIntent_pivot]
    exact hj
  · rw [shown, hthoughts]
    obtain hn | ⟨ht, hf⟩ := thoughts
    · simp [hn]
    · cases hi : i.includeThoughts with
      | none => exact absurd hi hset
      | some b => cases b <;> simp_all

/-- A level that is written is read again, and nothing else of the intent changes. -/
theorem effortIntent_word (effort : Effort) (e : Intent) :
    ∃ e', effortIntent effort.word e = .ok e' ∧ (effort = .unset → e' = e) ∧
      e'.budgetTokens = e.budgetTokens ∧ e'.includeThoughts = e.includeThoughts := by
  unfold effortIntent
  by_cases hu : effort = .unset
  · exact ⟨e, by simp [hu], fun _ => rfl, rfl, rfl⟩
  · rw [if_neg (by simpa using hu), readEffort_word]
    exact ⟨_, rfl, fun h => absurd h hu, rfl, rfl⟩

section Applied

variable {r : RawIntent} {i : Intent}

theorem isEmpty_iff : i.IsEmpty ↔ i.mode = .unset ∧ i.effort = .unset ∧ i.budgetTokens = none ∧
    i.includeThoughts = none := by
  simp [Intent.IsEmpty, Intent.HasStrength, and_assoc]

/-- No level stands for the empty intent. -/
theorem effective_of_isEmpty (h : i.IsEmpty) : i.effective = .unset := by
  obtain ⟨hm, he, hb, -⟩ := isEmpty_iff.mp h
  simp [Intent.effective, hm, he, hb]

/-- Written to a chat request without reasoning fields, an intent is read back. -/
theorem fromOpenAIChat_applied (h : normalizeIntent r = .ok i)
    (unmarshal : String → Except IntentError OpenRouterReasoning) {req : ChatReasoning}
    (hlevel : req.reasoningEffort = "") (hnested : req.reasoning = "")
    (hstate : req.reasoningConversion = none) :
    ∃ req' j, applyToOpenAIChat req r = .ok req' ∧ fromOpenAIChat unmarshal req' = .ok j ∧
      i.SameAs j := by
  have settled := normalizeIntent_settled h
  by_cases hempty : i.IsEmpty
  · obtain ⟨hm, he, hb, ht⟩ := isEmpty_iff.mp hempty
    have applied : applyToOpenAIChat req r = .ok req := by
      simp [applyToOpenAIChat, h, bind, Except.bind, settled.effectiveEffort_raw,
        effective_of_isEmpty hempty, hempty,
        pure, Except.pure]
    refine ⟨req, { source := .explicit }, applied, ?_, hm.symm, he.symm, hb.symm,
      fun h => absurd ht h⟩
    simp only [fromOpenAIChat, hlevel, hnested, hstate, effortIntent, mergePivot, bind,
      Except.bind, pure, Except.pure]
    exact (Intent.settled_of_weak rfl rfl).normalizeIntent_raw
  · have applied : applyToOpenAIChat req r = .ok
        { req with
          reasoningEffort := i.effective.word
          reasoningConversion := some i.state } := by
      by_cases hu : i.effective = .unset
      · simp [applyToOpenAIChat, h, bind, Except.bind, settled.effectiveEffort_raw, hu, hempty,
          pure, Except.pure, ← hlevel, Effort.word]
      · simp [applyToOpenAIChat, h, bind, Except.bind, settled.effectiveEffort_raw, hu, hempty,
          pure, Except.pure]
    obtain ⟨e, he, hweak, hb, ht⟩ := effortIntent_word i.effective { source := .explicit }
    obtain ⟨j, hj, same⟩ := mergePivot_state settled hempty
      (fun hu => by rw [hweak hu]; exact ⟨rfl, rfl⟩) hb (.inl ht) req.model
    refine ⟨_, j, applied, ?_, same⟩
    simp only [fromOpenAIChat, he, hnested, bind, Except.bind, pure, Except.pure]
    exact hj

/-- Written to a Responses request without reasoning fields, an intent is read back; a level is
written with a demand for a summary, which decides what is shown where the intent does not. -/
theorem fromOpenAIResponses_applied (h : normalizeIntent r = .ok i) {req : ResponsesControls}
    (hreasoning : req.reasoning = none) (hstate : req.reasoningConversion = none) :
    ∃ req' j, applyToOpenAIResponses req r = .ok req' ∧ fromOpenAIResponses req' = .ok j ∧
      i.SameAs j := by
  have settled := normalizeIntent_settled h
  by_cases hempty : i.IsEmpty
  · obtain ⟨hm, he, hb, ht⟩ := isEmpty_iff.mp hempty
    have applied : applyToOpenAIResponses req r = .ok req := by
      simp [applyToOpenAIResponses, h, bind, Except.bind, settled.effectiveEffort_raw,
        effective_of_isEmpty hempty, hempty, pure, Except.pure]
    refine ⟨req, {}, applied, ?_, hm.symm, he.symm, hb.symm, fun h => absurd ht h⟩
    simp only [fromOpenAIResponses, hreasoning, hstate, mergePivot]
    exact (Intent.settled_of_weak rfl rfl).normalizeIntent_raw
  by_cases hu : i.effective = .unset
  · have applied : applyToOpenAIResponses req r = .ok
        { req with reasoningConversion := some i.state } := by
      simp [applyToOpenAIResponses, h, bind, Except.bind, settled.effectiveEffort_raw, hu, hempty,
        pure, Except.pure]
    obtain ⟨j, hj, same⟩ := mergePivot_state (e := {}) settled hempty
      (fun _ => ⟨rfl, rfl⟩) rfl (.inl rfl) req.model
    refine ⟨_, j, applied, ?_, same⟩
    rw [hu] at hj
    simp only [fromOpenAIResponses, hreasoning]
    exact hj
  · obtain ⟨summary, hsummary, applied⟩ : ∃ summary : String,
        (summary ≠ "" → i.includeThoughts ≠ some false) ∧
        applyToOpenAIResponses req r = .ok
          { req with
            reasoning := some { effort := i.effective.word, summary }
            reasoningConversion := some i.state } := by
      refine ⟨if i.effective = .none ∨ i.includeThoughts = some false then "" else "detailed",
        fun hs hf => hs (if_pos (.inr hf)), ?_⟩
      simp [applyToOpenAIResponses, h, bind, Except.bind, settled.effectiveEffort_raw, hu, hempty,
        pure, Except.pure]
    obtain ⟨e, he, hweak, hb, ht⟩ := effortIntent_word i.effective { source := .explicit }
    -- the summary is read as a demand to show the thoughts
    obtain ⟨e', he', hb', thoughts⟩ : ∃ e' : Intent,
        (if summary ≠ "" then { e with includeThoughts := some true } else e) = e' ∧
        e'.budgetTokens = none ∧ (e'.includeThoughts = none ∨
          e'.includeThoughts = some true ∧ i.includeThoughts ≠ some false) := by
      by_cases hs : summary = ""
      · exact ⟨e, by simp [hs], hb, .inl ht⟩
      · exact ⟨_, if_pos hs, hb, .inr ⟨rfl, hsummary hs⟩⟩
    obtain ⟨j, hj, same⟩ := mergePivot_state settled hempty
      (fun hu' => absurd hu' hu) hb' thoughts req.model
    refine ⟨_, j, applied, ?_, same⟩
    simp only [fromOpenAIResponses, he, he', bind, Except.bind]
    exact hj

/-- **The pivot loses nothing**: applied to a request that has no other reasoning fields and read
back, an intent that `normalizeIntent` accepts keeps its mode, its effort, its budget and, where
it sets it, what is shown of the thoughts. -/
theorem fromOpenAI_applied (h : normalizeIntent r = .ok i) :
    (∀ (unmarshal : String → Except IntentError OpenRouterReasoning) (req : ChatReasoning),
      req.reasoningEffort = "" → req.reasoning = "" → req.reasoningConversion = none →
      ∃ req' j, applyToOpenAIChat req r = .ok req' ∧ fromOpenAIChat unmarshal req' = .ok j ∧
        i.SameAs j) ∧
    ∀ req : ResponsesControls, req.reasoning = none → req.reasoningConversion = none →
      ∃ req' j, applyToOpenAIResponses req r = .ok req' ∧ fromOpenAIResponses req' = .ok j ∧
        i.SameAs j :=
  ⟨fun unmarshal _ hlevel hnested hstate =>
      fromOpenAIChat_applied h unmarshal hlevel hnested hstate,
    fun _ hreasoning hstate => fromOpenAIResponses_applied h hreasoning hstate⟩

/-- An exact budget with an effort of its own, whose thoughts are hidden. -/
theorem fromOpenAI_applied_max :
    ∃ req' j,
      applyToOpenAIResponses { model := "m" }
        { effort := "MAX", budgetTokens := some 16384, includeThoughts := some false } = .ok req' ∧
      fromOpenAIResponses req' = .ok j ∧
      Intent.SameAs
        { mode := .enabled
          effort := .max
          budgetTokens := some 16384
          includeThoughts := some false } j := by
  have accepted : normalizeIntent
      { effort := "MAX", budgetTokens := some 16384, includeThoughts := some false } =
        .ok { mode := .enabled
              effort := .max
              budgetTokens := some 16384
              includeThoughts := some false } := by
    decide +kernel
  exact (fromOpenAI_applied accepted).2 { model := "m" } rfl rfl

end Applied

end NexusTok
