import NexusTok.Reasoning.Intent

/-!
# Normal intents

A request body, a model name and the state of a conversion all carry an intent as text, and the
same demand can be written in several ways: a budget of zero, the effort `none` and the mode
`disabled` each turn thinking off.  `normalizeIntent` refuses the combinations that say both and
spells the others in one way; every reader, writer and merge goes through it.

* `Intent.Settled` : what a normal intent satisfies, and all that the callers rely on.
* `normalizeIntent_settled`, `Intent.Settled.normalizeIntent_raw` : a result is settled, and a
  settled intent is its own normal form.
* `mergeExplicitAndSuffix_agrees` : a merge of a body and a suffix drops nothing that either says.
-/

namespace NexusTok

open Except

/-- `reasoning.Intent` as it is carried: mode and effort are text that nothing has checked. -/
structure RawIntent where
  mode : String := ""
  effort : String := ""
  budgetTokens : Option Int := none
  includeThoughts : Option Bool := none
  source : IntentSource := .unset
  budgetSource : IntentSource := .unset
  deriving Repr, DecidableEq

/-- What an intent, or a pair of intents, is refused for. -/
inductive IntentError where
  /-- The error of `ParseEffort`. -/
  | control (e : ControlError)
  /-- `unsupported reasoning mode "mode"` -/
  | unsupportedMode (mode : String)
  /-- `thinking budget must be -1 or non-negative, got …` -/
  | budgetRange (budget : Int)
  /-- `reasoning settings conflict: zero budget disables thinking` -/
  | zeroBudget
  /-- `reasoning settings conflict: a non-zero budget enables thinking` -/
  | nonZeroBudget
  /-- `reasoning settings conflict: effort none disables thinking` -/
  | effortNone
  /-- `… for model "model": explicit fields and model suffix disagree about whether thinking is
  enabled`, or `explicit fields disagree …` -/
  | disagree (model : String)
  /-- `… for model "model": explicit effort … differs from suffix effort …`, or `explicit efforts …
  differ` -/
  | efforts (model : String) (left right : Effort)
  /-- `… for model "model": explicit budget … differs from suffix budget …`, or `explicit budgets …
  differ` -/
  | budgets (model : String) (left right : Int)
  /-- `… for model "model": effort and an exact suffix budget cannot both select reasoning
  strength` -/
  | effortAndBudget (model : String)
  deriving Repr, DecidableEq

def ReasoningMode.word : ReasoningMode → String
  | .unset => "" | .enabled => "enabled" | .adaptive => "adaptive" | .disabled => "disabled"

/-- The modes that `normalizeIntent` knows. -/
def parseMode (mode : String) : Except IntentError ReasoningMode :=
  if mode = "" then .ok .unset
  else if mode = "enabled" then .ok .enabled
  else if mode = "adaptive" then .ok .adaptive
  else if mode = "disabled" then .ok .disabled
  else .error (.unsupportedMode mode)

/-- `ParseEffort`, with its error among those of an intent. -/
def readEffort (value : String) : Except IntentError Effort :=
  match parseEffort value with
  | .ok effort => .ok effort
  | .error e => .error (.control e)

namespace Intent

def HasStrength (i : Intent) : Prop :=
  i.mode ≠ .unset ∨ i.effort ≠ .unset ∨ i.budgetTokens ≠ none

def IsEmpty (i : Intent) : Prop := ¬ i.HasStrength ∧ i.includeThoughts = none

instance (i : Intent) : Decidable i.HasStrength :=
  inferInstanceAs (Decidable (_ ∨ _ ∨ _))

instance (i : Intent) : Decidable i.IsEmpty :=
  inferInstanceAs (Decidable (_ ∧ _))

/-- An intent as text. -/
def raw (i : Intent) : RawIntent where
  mode := i.mode.word
  effort := i.effort.word
  budgetTokens := i.budgetTokens
  includeThoughts := i.includeThoughts
  source := i.source
  budgetSource := i.budgetSource

/-- The part of `normalizeIntent` about the budget. -/
def settleBudget (i : Intent) : Except IntentError Intent :=
  match i.budgetTokens with
  | none => .ok i
  | some budget =>
    if budget < -1 then .error (.budgetRange budget)
    else if budget = 0 then
      if i.mode = .enabled ∨ i.mode = .adaptive ∨ (i.effort ≠ .unset ∧ i.effort ≠ .none) then
        .error .zeroBudget
      else .ok { i with mode := .disabled, effort := .none }
    else if i.mode = .disabled ∨ i.effort = .none then .error .nonZeroBudget
    else if i.mode = .unset then .ok { i with mode := .enabled }
    else .ok i

/-- The part of `normalizeIntent` about the effort `none`. -/
def settleEffort (i : Intent) : Except IntentError Intent :=
  if i.effort = .none then
    if i.mode = .enabled ∨ i.mode = .adaptive then .error .effortNone
    else .ok { i with mode := .disabled }
  else .ok i

end Intent

def normalizeIntent (intent : RawIntent) : Except IntentError Intent := do
  let effort ← readEffort intent.effort
  let mode ← parseMode intent.mode
  let settled ← Intent.settleBudget
    { mode, effort
      budgetTokens := intent.budgetTokens
      includeThoughts := intent.includeThoughts
      source := intent.source
      budgetSource := intent.budgetSource }
  settled.settleEffort

/-! ### Settled intents -/

/-- What `normalizeIntent` makes true: a budget of zero is spelt out as thinking turned off, every
other budget as thinking turned on, and the effort `none` goes with the mode `disabled`. -/
structure Intent.Settled (i : Intent) : Prop where
  budget_range : ∀ b, i.budgetTokens = some b → -1 ≤ b
  off_of_zero : i.budgetTokens = some 0 → i.mode = .disabled ∧ i.effort = .none
  on_of_budget : ∀ b, i.budgetTokens = some b → b ≠ 0 →
    i.mode ≠ .disabled ∧ i.mode ≠ .unset ∧ i.effort ≠ .none
  off_of_none : i.effort = .none → i.mode = .disabled

@[simp] theorem parseMode_word (m : ReasoningMode) : parseMode m.word = .ok m := by
  cases m <;> rfl

@[simp] theorem parseEffort_word (e : Effort) : parseEffort e.word = .ok e := by
  cases e <;> decide +kernel

@[simp] theorem readEffort_word (e : Effort) : readEffort e.word = .ok e := by
  simp [readEffort]

/-- Of an intent that is spelt canonically only the two settling steps are left. -/
theorem normalizeIntent_raw (i : Intent) :
    normalizeIntent i.raw = i.settleBudget >>= Intent.settleEffort := by
  simp [normalizeIntent, Intent.raw, bind, Except.bind]

variable {i j : Intent}

namespace Intent

theorem settleBudget_cases (h : i.settleBudget = .ok j) :
    (i.budgetTokens = none ∧ j = i) ∨
    (i.budgetTokens = some 0 ∧ (i.mode = .unset ∨ i.mode = .disabled) ∧
      j = { i with mode := .disabled, effort := .none }) ∨
    (∃ b, i.budgetTokens = some b ∧ -1 ≤ b ∧ b ≠ 0 ∧ i.mode ≠ .disabled ∧ i.effort ≠ .none ∧
      j = { i with mode := if i.mode = .unset then .enabled else i.mode }) := by
  unfold settleBudget at h
  cases hb : i.budgetTokens with
  | none => rw [hb] at h; exact .inl ⟨rfl, (ok.inj h).symm⟩
  | some b =>
    rw [hb] at h
    dsimp only at h
    split_ifs at h with h₁ h₂ h₃ h₄ h₅
    · refine .inr (.inl ⟨by rw [h₂], ?_, (ok.inj h).symm⟩)
      cases hm : i.mode <;> simp_all
    · refine .inr (.inr ⟨b, rfl, by omega, h₂, by tauto, by tauto, ?_⟩)
      rw [← ok.inj h, if_pos h₅]
    · refine .inr (.inr ⟨b, rfl, by omega, h₂, by tauto, by tauto, ?_⟩)
      rw [← ok.inj h, if_neg h₅, ← hb]

theorem settleEffort_cases (h : i.settleEffort = .ok j) :
    (i.effort ≠ .none ∧ j = i) ∨ (i.effort = .none ∧ i.mode ≠ .enabled ∧ i.mode ≠ .adaptive ∧
      j = { i with mode := .disabled }) := by
  unfold settleEffort at h
  split_ifs at h with h₁ h₂
  · exact .inr ⟨h₁, by tauto, by tauto, (ok.inj h).symm⟩
  · exact .inl ⟨h₁, (ok.inj h).symm⟩

theorem settled_of_steps {k : Intent} (hj : i.settleBudget = .ok j)
    (hk : j.settleEffort = .ok k) : k.Settled := by
  obtain ⟨hb, rfl⟩ | ⟨hb, -, rfl⟩ | ⟨b, hb, hr, h0, hm, he, rfl⟩ := settleBudget_cases hj
  · obtain ⟨he, rfl⟩ | ⟨he, -, -, rfl⟩ := settleEffort_cases hk
    · exact ⟨by simp [hb], by simp [hb], by simp [hb], fun h => absurd h he⟩
    · exact ⟨by simp [hb], by simp [hb], by simp [hb], fun _ => rfl⟩
  · obtain ⟨he, rfl⟩ | ⟨-, -, -, rfl⟩ := settleEffort_cases hk
    · exact absurd rfl he
    · exact ⟨by simp [hb], by simp, by simp [hb], by simp⟩
  · obtain ⟨-, rfl⟩ | ⟨he', -⟩ := settleEffort_cases hk
    · refine ⟨fun c hc => ?_, fun h => ?_, fun c _ _ => ⟨?_, ?_, he⟩, fun h => absurd h he⟩
      · rw [hb] at hc
        exact Option.some.inj hc ▸ hr
      · rw [hb] at h
        exact absurd (Option.some.inj h) h0
      · by_cases hu : i.mode = .unset <;> simp [hu, hm]
      · by_cases hu : i.mode = .unset <;> simp [hu]
    · exact absurd he' he

theorem Settled.steps (h : i.Settled) : (i.settleBudget >>= settleEffort) = .ok i := by
  have effort : i.settleEffort = .ok i := by
    unfold settleEffort
    by_cases he : i.effort = .none
    · have hm := h.off_of_none he
      rw [if_pos he, if_neg (by simp [hm]), ← hm]
    · rw [if_neg he]
  have budget : i.settleBudget = .ok i := by
    unfold settleBudget
    cases hb : i.budgetTokens with
    | none => rfl
    | some b =>
      have hr := h.budget_range b hb
      by_cases h0 : b = 0
      · obtain ⟨hm, he⟩ := h.off_of_zero (by rw [hb, h0])
        dsimp only
        rw [if_neg (by omega), if_pos h0, if_neg (by simp [hm, he]), ← hm, ← he, ← hb]
      · obtain ⟨hd, hu, he⟩ := h.on_of_budget b hb h0
        dsimp only
        rw [if_neg (by omega), if_neg h0, if_neg (by tauto), if_neg hu]
  rw [budget]
  exact effort

theorem Settled.normalizeIntent_raw (h : i.Settled) : normalizeIntent i.raw = .ok i := by
  rw [NexusTok.normalizeIntent_raw, h.steps]

end Intent

theorem normalizeIntent_cases {r : RawIntent} (h : normalizeIntent r = .ok i) :
    ∃ effort mode j, readEffort r.effort = .ok effort ∧ parseMode r.mode = .ok mode ∧
      Intent.settleBudget
        { mode, effort
          budgetTokens := r.budgetTokens
          includeThoughts := r.includeThoughts
          source := r.source
          budgetSource := r.budgetSource } = .ok j ∧
      j.settleEffort = .ok i := by
  unfold normalizeIntent at h
  rcases he : readEffort r.effort with _ | effort
  · simp [he, bind, Except.bind] at h
  rcases hm : parseMode r.mode with _ | mode
  · simp [he, hm, bind, Except.bind] at h
  simp only [he, hm, bind, Except.bind] at h
  split at h
  · cases h
  · rename_i j hj
    exact ⟨effort, mode, j, rfl, rfl, hj, h⟩

theorem normalizeIntent_settled {r : RawIntent} (h : normalizeIntent r = .ok i) : i.Settled := by
  obtain ⟨_, _, _, -, -, hj, hi⟩ := normalizeIntent_cases h
  exact Intent.settled_of_steps hj hi

/-- A mode that turns thinking off stays. -/
theorem normalizeIntent_disabled {r : RawIntent} (h : normalizeIntent r = .ok i)
    (hr : r.mode = "disabled") : i.mode = .disabled := by
  obtain ⟨_, mode, j, -, hmode, hj, hi⟩ := normalizeIntent_cases h
  have hmode : mode = .disabled := by
    rw [hr] at hmode
    exact (ok.inj hmode).symm
  have : j.mode = .disabled := by
    obtain ⟨-, rfl⟩ | ⟨-, -, rfl⟩ | ⟨_, -, -, -, hne, -⟩ := Intent.settleBudget_cases hj
    · exact hmode
    · rfl
    · exact absurd hmode hne
  obtain ⟨-, rfl⟩ | ⟨-, -, -, rfl⟩ := Intent.settleEffort_cases hi
  · exact this
  · rfl

end NexusTok
