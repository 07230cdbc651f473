import NexusTok.Reasoning.Normalize

/-!
# Merging intents

Two representations of one request are merged into one intent.  `MergeExplicitAndSuffix` joins the
fields of a body with the alias of a model name and refuses whatever the two disagree about, since
the alias may be billed under a name of its own; `MergeExplicit` joins two structured forms of the
same body, which may hold an effort and a budget side by side.

* `Intent.on` : whether an intent says that thinking is on, and which.
* `Intent.Settled.overlay` : where the two agree about that, one laid over the other is settled.
* `mergeExplicitAndSuffix_agrees` : a merge drops nothing that either side says, and fails where
  the two contradict each other.
-/

namespace NexusTok

namespace Intent

/-- `explicitDisabled`, `suffixDisabled`, `primaryDisabled`, `secondaryDisabled`. -/
def Off (i : Intent) : Prop := i.mode = .disabled ∨ i.effort = .none

instance (i : Intent) : Decidable i.Off := inferInstanceAs (Decidable (_ ∨ _))

/-- `primary` laid over `secondary`, field by field. -/
def overlay (primary secondary : Intent) : Intent where
  mode := if primary.mode ≠ .unset then primary.mode else secondary.mode
  effort := if primary.effort ≠ .unset then primary.effort else secondary.effort
  budgetTokens :=
    if primary.budgetTokens ≠ none then primary.budgetTokens else secondary.budgetTokens
  includeThoughts :=
    if primary.includeThoughts ≠ none then primary.includeThoughts else secondary.includeThoughts
  source := secondary.source
  budgetSource :=
    if primary.budgetTokens ≠ none then primary.budgetSource else secondary.budgetSource

end Intent

/-- Two budgets that are both set and differ. -/
def budgetConflict : Option Int → Option Int → Option (Int × Int)
  | some a, some b => if a ≠ b then some (a, b) else none
  | _, _ => none

/-- `MergeExplicitAndSuffix` after both sides are normalised. -/
def joinExplicitAndSuffix (explicit suffix : Intent) (model : String) :
    Except IntentError Intent :=
  if ¬ explicit.HasStrength then
    .ok { suffix with
      includeThoughts :=
        if explicit.includeThoughts ≠ none then explicit.includeThoughts
        else suffix.includeThoughts }
  else if ¬ suffix.HasStrength then
    .ok { explicit with
      includeThoughts :=
        if explicit.includeThoughts = none then suffix.includeThoughts
        else explicit.includeThoughts }
  else if ¬ (explicit.Off ↔ suffix.Off) then .error (.disagree model)
  else if ¬ explicit.Off ∧ explicit.effort ≠ .unset ∧ suffix.effort ≠ .unset ∧
      explicit.effort ≠ suffix.effort then
    .error (.efforts model explicit.effort suffix.effort)
  else
    match budgetConflict explicit.budgetTokens suffix.budgetTokens with
    | some (a, b) => .error (.budgets model a b)
    | none =>
      if (explicit.effort ≠ .unset ∧ explicit.effort ≠ .none ∧ suffix.budgetTokens ≠ none) ∨
          (explicit.budgetTokens ≠ none ∧ suffix.effort ≠ .unset ∧ suffix.effort ≠ .none) then
        .error (.effortAndBudget model)
      else normalizeIntent (explicit.overlay suffix).raw

def mergeExplicitAndSuffix (explicit suffix : RawIntent) (model : String) :
    Except IntentError Intent := do
  let explicit ← normalizeIntent explicit
  let suffix ← normalizeIntent suffix
  joinExplicitAndSuffix explicit suffix model

/-- `MergeExplicit` after both sides are normalised. -/
def joinExplicit (primary secondary : Intent) (model : String) : Except IntentError Intent :=
  if primary.IsEmpty then .ok secondary
  else if secondary.IsEmpty then .ok primary
  else if primary.HasStrength ∧ secondary.HasStrength ∧ ¬ (primary.Off ↔ secondary.Off) then
    .error (.disagree model)
  else if primary.effort ≠ .unset ∧ secondary.effort ≠ .unset ∧
      primary.effort ≠ secondary.effort then
    .error (.efforts model primary.effort secondary.effort)
  else
    match budgetConflict primary.budgetTokens secondary.budgetTokens with
    | some (a, b) => .error (.budgets model a b)
    | none => normalizeIntent (primary.overlay secondary).raw

def mergeExplicit (primary secondary : RawIntent) (model : String) : Except IntentError Intent := do
  let primary ← normalizeIntent primary
  let secondary ← normalizeIntent secondary
  joinExplicit primary secondary model

/-! ### What an intent says -/

namespace Intent

/-- Whether an intent says that thinking is on: a mode decides, and without one an effort does.
On settled intents a budget has a mode with it. -/
def on (i : Intent) : Option Bool :=
  match i.mode with
  | .disabled => some false
  | .enabled | .adaptive => some true
  | .unset => if i.effort = .unset then none else some (i.effort ≠ .none)

/-- Nothing that `i` says is missing from `m`: whether thinking is on, and, where it is on, the
effort and the budget. -/
structure KeptIn (i m : Intent) : Prop where
  on : ∀ b, i.on = some b → m.on = some b
  effort : m.on = some true → i.effort ≠ .unset → m.effort = i.effort
  budget : m.on = some true → i.budgetTokens ≠ none → m.budgetTokens = i.budgetTokens

/-- Two intents that no intent can follow both of. -/
inductive Contradict (i j : Intent) : Prop where
  | on (b : Bool) (hi : i.on = some b) (hj : j.on = some !b)
  | effort (on : i.on = some true) (hi : i.effort ≠ .unset) (hj : j.effort ≠ .unset)
      (ne : i.effort ≠ j.effort)
  | budget (on : i.on = some true) (hi : i.budgetTokens ≠ none) (hj : j.budgetTokens ≠ none)
      (ne : i.budgetTokens ≠ j.budgetTokens)

/-- What is kept together is not contradictory. -/
theorem KeptIn.not_contradict {i j m : Intent} (hi : i.KeptIn m) (hj : j.KeptIn m) :
    ¬ i.Contradict j := by
  intro h
  cases h with
  | on b hb hb' =>
    have := (hi.on b hb).symm.trans (hj.on _ hb')
    cases b <;> simp at this
  | effort on he he' ne =>
    have := hi.on _ on
    exact ne ((hi.effort this he).symm.trans (hj.effort this he'))
  | budget on hb hb' ne =>
    have := hi.on _ on
    exact ne ((hi.budget this hb).symm.trans (hj.budget this hb'))

theorem KeptIn.of_not_hasStrength {i m : Intent} (h : ¬ i.HasStrength) : i.KeptIn m := by
  simp only [HasStrength, not_or, not_not] at h
  obtain ⟨hm, he, hb⟩ := h
  refine ⟨fun b hon => ?_, fun _ h => absurd he h, fun _ h => absurd hb h⟩
  simp [Intent.on, hm, he] at hon

/-- What is shown of the thoughts is not part of what an intent says about thinking. -/
theorem KeptIn.includeThoughts (i : Intent) (t : Option Bool) :
    i.KeptIn { i with includeThoughts := t } :=
  ⟨fun _ h => h, fun _ _ => rfl, fun _ _ => rfl⟩

namespace Settled

variable {i j : Intent}

/-- A settled intent that turns thinking off has the mode that says so. -/
theorem off_iff (h : i.Settled) : i.Off ↔ i.mode = .disabled :=
  ⟨fun hoff => hoff.elim id h.off_of_none, .inl⟩

/-- Where two settled intents with strength agree about thinking, and an effort of one does not
meet a budget of the other, the first laid over the second is settled. -/
theorem overlay (hi : i.Settled) (hj : j.Settled) (off : i.Off ↔ j.Off)
    (left : j.budgetTokens ≠ none → i.effort = .unset ∨ i.effort = .none) :
    (i.overlay j).Settled := by
  rw [hi.off_iff, hj.off_iff] at off
  have mode_off (h : j.mode = .disabled) : (i.overlay j).mode = .disabled := by
    simp [Intent.overlay, off.mpr h]
  constructor
  · intro b hb
    by_cases h : i.budgetTokens = none
    · exact hj.budget_range b (by simpa [Intent.overlay, h] using hb)
    · exact hi.budget_range b (by simpa [Intent.overlay, h] using hb)
  · intro hb
    by_cases h : i.budgetTokens = none
    · have hb : j.budgetTokens = some 0 := by simpa [Intent.overlay, h] using hb
      obtain ⟨hm, he⟩ := hj.off_of_zero hb
      refine ⟨mode_off hm, ?_⟩
      obtain hu | hn := left (by simp [hb])
      · simp [Intent.overlay, hu, he]
      · simp [Intent.overlay, hn]
    · obtain ⟨hm, he⟩ := hi.off_of_zero (by simpa [Intent.overlay, h] using hb)
      exact ⟨by simp [Intent.overlay, hm], by simp [Intent.overlay, he]⟩
  · intro b hb h0
    -- neither side is off, since the one that the budget comes from is not
    have main : i.mode ≠ .disabled ∧ (i.overlay j).mode ≠ .unset := by
      by_cases h : i.budgetTokens = none
      · obtain ⟨hd, hu, -⟩ := hj.on_of_budget b (by simpa [Intent.overlay, h] using hb) h0
        refine ⟨fun hm => hd (off.mp hm), ?_⟩
        by_cases hm : i.mode = .unset <;> simp [Intent.overlay, hm, hu]
      · obtain ⟨hd, hu, -⟩ := hi.on_of_budget b (by simpa [Intent.overlay, h] using hb) h0
        exact ⟨hd, by simp [Intent.overlay, hu]⟩
    have hd := mt off.mpr main.1
    refine ⟨?_, main.2, ?_⟩
    · by_cases hm : i.mode = .unset
      · simp [Intent.overlay, hm, hd]
      · simp [Intent.overlay, hm, main.1]
    · by_cases he : i.effort = .unset
      · simpa [Intent.overlay, he] using mt hj.off_of_none hd
      · simpa [Intent.overlay, he] using mt hi.off_of_none main.1
  · intro he
    by_cases h : i.effort = .unset
    · exact mode_off (hj.off_of_none (by simpa [Intent.overlay, h] using he))
    · have := hi.off_of_none (by simpa [Intent.overlay, h] using he)
      simp [Intent.overlay, this]

/-- A settled intent says that thinking is on where it is not off and has any strength. -/
theorem on_eq (h : i.Settled) (hs : i.HasStrength) : i.on = some (decide (i.mode ≠ .disabled)) := by
  unfold on
  cases hm : i.mode with
  | unset =>
    have he : i.effort ≠ .unset := by
      intro he
      rcases hb : i.budgetTokens with _ | b
      · simp [HasStrength, hm, he, hb] at hs
      by_cases h0 : b = 0
      · have := (h.off_of_zero (by rw [hb, h0])).1
        simp [hm] at this
      · exact (h.on_of_budget b hb h0).2.1 hm
    have hn : i.effort ≠ .none := fun hn => by simp [h.off_of_none hn] at hm
    simp [he, hn]
  | enabled | adaptive | disabled => rfl

end Settled

end Intent

/-! ### A body and a suffix -/

/-- What a merge of two normal intents with strength comes to. -/
theorem joinExplicitAndSuffix_over {e s m : Intent} {model : String} (he : e.Settled)
    (hs : s.Settled) (hse : e.HasStrength) (hss : s.HasStrength)
    (h : joinExplicitAndSuffix e s model = .ok m) :
    m = e.overlay s ∧ m.Settled ∧ (e.Off ↔ s.Off) ∧
      (¬ e.Off → e.effort ≠ .unset → s.effort ≠ .unset → e.effort = s.effort) ∧
      budgetConflict e.budgetTokens s.budgetTokens = none := by
  unfold joinExplicitAndSuffix at h
  rw [if_neg (not_not.mpr hse), if_neg (not_not.mpr hss)] at h
  by_cases hoff : e.Off ↔ s.Off
  · rw [if_neg (not_not.mpr hoff)] at h
    by_cases heff : ¬ e.Off ∧ e.effort ≠ .unset ∧ s.effort ≠ .unset ∧ e.effort ≠ s.effort
    · rw [if_pos heff] at h
      cases h
    · rw [if_neg heff] at h
      cases hb : budgetConflict e.budgetTokens s.budgetTokens with
      | some p => rw [hb] at h; cases h
      | none =>
        rw [hb] at h
        dsimp only at h
        split_ifs at h with hex
        have settled : (e.overlay s).Settled := he.overlay hs hoff fun hb =>
          by_contra fun hne => hex (.inl ⟨mt .inl hne, mt .inr hne, hb⟩)
        rw [settled.normalizeIntent_raw] at h
        cases h
        exact ⟨rfl, settled, hoff,
          fun h₁ h₂ h₃ => by_contra fun h₄ => heff ⟨h₁, h₂, h₃, h₄⟩, rfl⟩
  · rw [if_pos hoff] at h
    cases h

theorem eq_of_budgetConflict {a b : Option Int} (h : budgetConflict a b = none) (ha : a ≠ none)
    (hb : b ≠ none) : a = b := by
  obtain ⟨x, rfl⟩ := Option.ne_none_iff_exists'.mp ha
  obtain ⟨y, rfl⟩ := Option.ne_none_iff_exists'.mp hb
  by_contra hne
  have : x ≠ y := fun h => hne (by rw [h])
  simp [budgetConflict, this] at h

/-- The first of two intents with strength laid over the second keeps both, where they agree. -/
theorem keptIn_over {e s : Intent} (he : e.Settled) (hs : s.Settled) (hse : e.HasStrength)
    (hss : s.HasStrength) (hm : (e.overlay s).Settled) (off : e.Off ↔ s.Off)
    (eff : ¬ e.Off → e.effort ≠ .unset → s.effort ≠ .unset → e.effort = s.effort)
    (bud : budgetConflict e.budgetTokens s.budgetTokens = none) :
    e.KeptIn (e.overlay s) ∧ s.KeptIn (e.overlay s) := by
  have strength : (e.overlay s).HasStrength := by
    obtain h | h | h := hse
    · exact .inl (by simp [Intent.overlay, h])
    · exact .inr (.inl (by simp [Intent.overlay, h]))
    · exact .inr (.inr (by simp [Intent.overlay, h]))
  have off' := he.off_iff.symm.trans (off.trans hs.off_iff)
  have mode : (e.overlay s).mode = .disabled ↔ e.mode = .disabled := by
    by_cases h : e.mode = .unset
    · simp [Intent.overlay, h, ← off']
    · simp [Intent.overlay, h]
  have on_e : e.on = (e.overlay s).on := by
    rw [he.on_eq hse, hm.on_eq strength]
    simp only [ne_eq, mode]
  have on_s : s.on = (e.overlay s).on := by
    rw [hs.on_eq hss, hm.on_eq strength]
    simp only [ne_eq, mode, off']
  have not_off (h : (e.overlay s).on = some true) : ¬ e.Off := by
    rw [← on_e, he.on_eq hse] at h
    rw [he.off_iff]
    simpa using h
  refine ⟨⟨fun b h => on_e ▸ h, fun _ h => by simp [Intent.overlay, h],
    fun _ h => by simp [Intent.overlay, h]⟩, fun b h => on_s ▸ h, fun hon h => ?_, fun _ h => ?_⟩
  · by_cases hu : e.effort = .unset
    · simp [Intent.overlay, hu]
    · simpa [Intent.overlay, hu] using eff (not_off hon) hu h
  · by_cases hn : e.budgetTokens = none
    · simp [Intent.overlay, hn]
    · simpa [Intent.overlay, hn] using eq_of_budgetConflict bud hn h

/-- A merge of two normal intents keeps both. -/
theorem joinExplicitAndSuffix_keeps {e s m : Intent} {model : String} (he : e.Settled)
    (hs : s.Settled) (h : joinExplicitAndSuffix e s model = .ok m) : e.KeptIn m ∧ s.KeptIn m := by
  by_cases hse : e.HasStrength
  · by_cases hss : s.HasStrength
    · obtain ⟨rfl, settled, off, eff, bud⟩ := joinExplicitAndSuffix_over he hs hse hss h
      exact keptIn_over he hs hse hss settled off eff bud
    · rw [joinExplicitAndSuffix, if_neg (not_not.mpr hse), if_pos hss] at h
      cases h
      exact ⟨.includeThoughts e _, .of_not_hasStrength hss⟩
  · rw [joinExplicitAndSuffix, if_pos hse] at h
    cases h
    exact ⟨.of_not_hasStrength hse, .includeThoughts s _⟩

/-- **A merge drops nothing**: of two intents that `normalizeIntent` accepts, a merge that succeeds
keeps whether thinking is on, and where it is, every effort and every budget that either sets.  Two
that contradict each other are not merged. -/
theorem mergeExplicitAndSuffix_agrees {explicit suffix : RawIntent} {e s : Intent}
    (he : normalizeIntent explicit = .ok e) (hs : normalizeIntent suffix = .ok s)
    (model : String) :
    (∀ m, mergeExplicitAndSuffix explicit suffix model = .ok m → e.KeptIn m ∧ s.KeptIn m) ∧
      (e.Contradict s → ∃ err, mergeExplicitAndSuffix explicit suffix model = .error err) := by
  have join : mergeExplicitAndSuffix explicit suffix model = joinExplicitAndSuffix e s model := by
    simp only [mergeExplicitAndSuffix, he, hs, bind, Except.bind]
  have kept (m : Intent) (h : joinExplicitAndSuffix e s model = .ok m) :
      e.KeptIn m ∧ s.KeptIn m :=
    joinExplicitAndSuffix_keeps (normalizeIntent_settled he) (normalizeIntent_settled hs) h
  rw [join]
  refine ⟨kept, fun hc => ?_⟩
  cases h : joinExplicitAndSuffix e s model with
  | error err => exact ⟨err, rfl⟩
  | ok m => exact absurd hc ((kept m h).1.not_contradict (kept m h).2)

/-- A body that asks for high effort, and a suffix that asks for adaptive thinking. -/
theorem mergeExplicitAndSuffix_agrees_adaptive :
    mergeExplicitAndSuffix { effort := " High" } { mode := "adaptive", source := .suffix } "m" =
        .ok { mode := .adaptive, effort := .high, source := .suffix } ∧
      Intent.KeptIn { effort := .high }
        { mode := .adaptive, effort := .high, source := .suffix } ∧
      Intent.KeptIn { mode := .adaptive, source := .suffix }
        { mode := .adaptive, effort := .high, source := .suffix } := by
  have body : normalizeIntent { effort := " High" } = .ok { effort := .high } := by
    decide +kernel
  have suffix : normalizeIntent { mode := "adaptive", source := .suffix } =
      .ok { mode := .adaptive, source := .suffix } := by
    decide +kernel
  have merged : mergeExplicitAndSuffix { effort := " High" }
      { mode := "adaptive", source := .suffix } "m" =
        .ok { mode := .adaptive, effort := .high, source := .suffix } := by
    decide +kernel
  exact ⟨merged, (mergeExplicitAndSuffix_agrees body suffix "m").1 _ merged⟩

end NexusTok
