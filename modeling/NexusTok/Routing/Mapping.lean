import Mathlib.Data.List.Nodup
import NexusTok.Machine.Chain
import NexusTok.Text.Basic

/-!
# The model mapping of a channel

A channel may rename models: its mapping is a JSON object of texts, and a name it leads to may be
renamed again.  The mapping is walked along twice.  `resolveChannelUpstreamModelName` looks for the
model a key has to serve, before one is selected; `ModelMappedHelper` sets the model that is sent.
Both fall back to the base of a name, its modifiers taken off.

The first walks along the mapping with its names trimmed, and stops where the walk would close; the
second along the mapping as it is, and fails there.

* `resolve_place`, `modelMappedHelper_place` : both are walks of `Chain`.
* `modelMappedHelper_sends` : both end, and when they agree on the model.
-/

namespace NexusTok.Mapping

open Chain List Nat

/-- Reading a mapping: the entries, in the order in which they are gone through.  This order is
arbitrary. -/
structure Codec where
  unmarshal : String → Option (List (String × String))
  distinct : ∀ {text entries}, unmarshal text = some entries → (entries.map Prod.fst).Nodup

/-- The name that the current one is mapped to.  A name mapped to nothing is looked up by its base,
as one that is not mapped. -/
def nextModel (baseModelName : String → String) (modelMap : List (String × String))
    (currentModel : String) : Option String :=
  let mapped := modelMap.lookup currentModel
  let baseModel := baseModelName currentModel
  let mapped :=
    if (mapped = none ∨ mapped = some "") ∧ baseModel ≠ currentModel then
      modelMap.lookup baseModel
    else mapped
  mapped.filter fun mappedModel => decide (mappedModel ≠ "")

/-! ### Routing -/

/-- The loop body of `parseChannelModelMappingForRouting`.  An entry replaces an earlier one. -/
def normalizeEntry (normalized : List (String × String)) (e : String × String) :
    List (String × String) :=
  let source := trimSpace e.1
  let target := trimSpace e.2
  if source ≠ "" ∧ target ≠ "" then (source, target) :: normalized else normalized

variable (codec : Codec)

def parseChannelModelMappingForRouting (modelMapping : String) : List (String × String) :=
  if trimSpace modelMapping = "" ∨ modelMapping = "{}" then []
  else
    match codec.unmarshal modelMapping with
    | none => []
    | some parsed => parsed.foldl normalizeEntry []

/-- The loop of `resolveChannelUpstreamModelName`; `none` when it is still running. -/
def resolveLoop (baseModelName : String → String) (modelMap : List (String × String)) :
    ℕ → List String → String → Option String
  | fuel, visitedModels, currentModel =>
    match nextModel baseModelName modelMap currentModel with
    | none => some currentModel
    | some mappedModel =>
      if mappedModel ∈ visitedModels then some currentModel
      else
        match fuel with
        | 0 => none
        | fuel + 1 =>
          resolveLoop baseModelName modelMap fuel (mappedModel :: visitedModels) mappedModel

def resolveChannelUpstreamModelName (baseModelName : String → String) (fuel : ℕ)
    (modelMapping modelName : String) : Option String :=
  let modelMap := parseChannelModelMappingForRouting codec modelMapping
  if modelMap = [] ∨ trimSpace modelName = "" then some modelName
  else resolveLoop baseModelName modelMap fuel [modelName] modelName

/-! ### Relaying -/

/-- `ChannelMeta`, as far as the mapping goes. -/
structure ChannelMeta where
  upstreamModelName : String := ""
  isModelMapped : Bool := false
  deriving DecidableEq

/-- `RelayInfo`, as far as the mapping goes. -/
structure RelayInfo where
  originModelName : String
  channelMeta : Option ChannelMeta
  deriving DecidableEq

/-- How the loop of `ModelMappedHelper` is left. -/
inductive Left where
  /-- By `break`, with the current model and whether a model has been mapped. -/
  | done (currentModel : String) (isModelMapped : Bool)
  /-- By `return nil`. -/
  | unmapped
  /-- By `return` of an error. -/
  | cycle
  deriving DecidableEq

/-- The loop of `ModelMappedHelper`; `none` when it is still running. -/
def mappedLoop (baseModelName : String → String) (modelMap : List (String × String))
    (originModelName : String) : ℕ → List String → String → Bool → Option Left
  | fuel, visitedModels, currentModel, isModelMapped =>
    match nextModel baseModelName modelMap currentModel with
    | none => some (.done currentModel isModelMapped)
    | some mappedModel =>
      if mappedModel ∈ visitedModels then
        if mappedModel = currentModel then
          if currentModel = originModelName then some .unmapped
          else some (.done currentModel true)
        else some .cycle
      else
        match fuel with
        | 0 => none
        | fuel + 1 =>
          mappedLoop baseModelName modelMap originModelName fuel (mappedModel :: visitedModels)
            mappedModel true

/-- `ModelMappedHelper`, with the mapping of the context and the model name of the request; `none`
when its loop is still running. -/
def modelMappedHelper (baseModelName : String → String) (fuel : ℕ)
    (modelMapping : String) (info : RelayInfo) (request : Option String) :
    Option (Except String (ChannelMeta × Option String)) :=
  let channelMeta := info.channelMeta.getD {}
  let send := fun channelMeta : ChannelMeta =>
    some (Except.ok (channelMeta, request.map fun _ => channelMeta.upstreamModelName))
  if modelMapping ≠ "" ∧ modelMapping ≠ "{}" then
    match codec.unmarshal modelMapping with
    | none => some (.error "unmarshal_model_mapping_failed")
    | some modelMap =>
      match mappedLoop baseModelName modelMap info.originModelName fuel [info.originModelName]
          info.originModelName channelMeta.isModelMapped with
      | none => none
      | some .cycle => some (.error "model_mapping_contains_cycle")
      | some .unmapped => some (.ok ({ channelMeta with isModelMapped := false }, request))
      | some (.done currentModel isModelMapped) =>
        send
          { upstreamModelName :=
              if isModelMapped then currentModel else channelMeta.upstreamModelName
            isModelMapped := isModelMapped }
  else send channelMeta

/-! ### Both loops are walks -/

variable {mapped currentModel mappedModel modelMapping : String}

section Walks

variable {baseModelName : String → String} {modelMap : List (String × String)}
  {visited : List String} {current origin : String} {fuel : ℕ} {isModelMapped : Bool}

theorem resolveLoop_chase : resolveLoop baseModelName modelMap fuel visited current =
    (chase (nextModel baseModelName modelMap) fuel visited current).map Stop.place := by
  induction fuel generalizing visited current with
  | zero =>
    unfold resolveLoop chase
    cases nextModel baseModelName modelMap current with
    | none => rfl
    | some mapped => by_cases hv : mapped ∈ visited <;> simp [hv, Stop.place]
  | succ fuel ih =>
    unfold resolveLoop chase
    cases nextModel baseModelName modelMap current with
    | none => rfl
    | some mapped =>
      by_cases hv : mapped ∈ visited
      · simp [hv, Stop.place]
      · simp only [hv, if_false]
        exact ih

/-- How the loop is left, by where it starts and where the walk stops. -/
def Left.Fits (origin current : String) (isModelMapped : Bool) (s : Stop String) : Left → Prop
  | .done place mapped =>
    place = s.place ∧ (mapped = false → isModelMapped = false ∧ s.place = current)
  | .unmapped => s.place = origin
  | .cycle => True

theorem mappedLoop_of_fresh_none (origin : String) (fuel : ℕ) (isModelMapped : Bool)
    (h : fresh (nextModel baseModelName modelMap) visited current = none) :
    ∃ left, mappedLoop baseModelName modelMap origin fuel visited current isModelMapped =
      some left ∧ ∀ s : Stop String, s.place = current →
        left.Fits origin current isModelMapped s := by
  unfold mappedLoop
  cases hnext : nextModel baseModelName modelMap current with
  | none => exact ⟨_, rfl, fun s hs => ⟨hs.symm, fun hmapped => ⟨hmapped, hs⟩⟩⟩
  | some mapped =>
    by_cases hv : mapped ∈ visited
    · simp only [if_pos hv]
      by_cases hself : mapped = current
      · rw [if_pos hself]
        by_cases horigin : current = origin
        · rw [if_pos horigin]
          exact ⟨_, rfl, fun s hs => hs.trans horigin⟩
        · rw [if_neg horigin]
          exact ⟨_, rfl, fun s hs => ⟨hs.symm, fun hmapped => by cases hmapped⟩⟩
      · rw [if_neg hself]
        exact ⟨_, rfl, fun s _ => trivial⟩
    · exact absurd (h.symm.trans (fresh_eq_some.2 ⟨hnext, hv⟩)) (Option.some_ne_none _).symm

section

variable (h : fresh (nextModel baseModelName modelMap) visited current = some mapped)
include h

theorem mappedLoop_of_fresh :
    mappedLoop baseModelName modelMap origin (fuel + 1) visited current isModelMapped =
      mappedLoop baseModelName modelMap origin fuel (mapped :: visited) mapped true := by
  obtain ⟨hnext, hv⟩ := fresh_eq_some.1 h
  rw [mappedLoop, hnext]
  exact if_neg hv

theorem mappedLoop_zero_of_fresh :
    mappedLoop baseModelName modelMap origin 0 visited current isModelMapped = none := by
  obtain ⟨hnext, hv⟩ := fresh_eq_some.1 h
  rw [mappedLoop, hnext]
  exact if_neg hv

end

/-- The loop and the walk are both over, at the same place, or both still running. -/
def Matched (baseModelName : String → String) (modelMap : List (String × String))
    (origin : String) (fuel : ℕ) (visited : List String) (current : String)
    (isModelMapped : Bool) : Prop :=
  (chase (nextModel baseModelName modelMap) fuel visited current = none →
    mappedLoop baseModelName modelMap origin fuel visited current isModelMapped = none) ∧
  ∀ s, chase (nextModel baseModelName modelMap) fuel visited current = some s →
    ∃ left, mappedLoop baseModelName modelMap origin fuel visited current isModelMapped =
      some left ∧ left.Fits origin current isModelMapped s

theorem matched_of_fresh_none
    (h : fresh (nextModel baseModelName modelMap) visited current = none) :
    Matched baseModelName modelMap origin fuel visited current isModelMapped := by
  refine ⟨fun hnone => ?_, fun s hs => ?_⟩
  · obtain ⟨s, hs, -⟩ := chase_of_fresh_none fuel h
    rw [hnone] at hs
    cases hs
  · obtain ⟨left, hleft, hfits⟩ := mappedLoop_of_fresh_none origin fuel isModelMapped h
    exact ⟨left, hleft, hfits s (place_of_fresh_none h hs)⟩

/-- **The loop of `ModelMappedHelper` is left where the walk stops**, and runs as long. -/
theorem mappedLoop_matched (baseModelName : String → String)
    (modelMap : List (String × String)) (origin : String) (fuel : ℕ) (visited : List String)
    (current : String) (isModelMapped : Bool) :
    Matched baseModelName modelMap origin fuel visited current isModelMapped := by
  induction fuel generalizing visited current isModelMapped with
  | zero =>
    cases hfresh : fresh (nextModel baseModelName modelMap) visited current with
    | none => exact matched_of_fresh_none hfresh
    | some mapped =>
      rw [Matched, chase_zero_of_fresh hfresh, mappedLoop_zero_of_fresh hfresh]
      exact ⟨fun _ => rfl, fun s hs => by cases hs⟩
  | succ fuel ih =>
    cases hfresh : fresh (nextModel baseModelName modelMap) visited current with
    | none => exact matched_of_fresh_none hfresh
    | some mapped =>
      obtain ⟨hnone, hsome⟩ := ih (mapped :: visited) mapped true
      rw [Matched, chase_of_fresh hfresh, mappedLoop_of_fresh hfresh]
      refine ⟨hnone, fun s hs => ?_⟩
      obtain ⟨left, hleft, hfits⟩ := hsome s hs
      refine ⟨left, hleft, ?_⟩
      cases left with
      | done place moved => exact ⟨hfits.1, fun hmoved => by cases (hfits.2 hmoved).1⟩
      | unmapped => exact hfits
      | cycle => trivial

end Walks

/-! ### The two names -/

/-- The mapping that `ModelMappedHelper` walks along. -/
def sentMap (modelMapping : String) : List (String × String) :=
  if modelMapping ≠ "" ∧ modelMapping ≠ "{}" then (codec.unmarshal modelMapping).getD [] else []

/-- The mapping that `resolveChannelUpstreamModelName` walks along for a model. -/
def routedMap (modelMapping modelName : String) : List (String × String) :=
  if trimSpace modelName = "" then []
  else parseChannelModelMappingForRouting codec modelMapping

variable {modelMap : List (String × String)}

/-- What a name is mapped to: by its own entry or, where this has nothing, by that of its base. -/
theorem nextModel_eq_some_iff {baseModelName : String → String} :
    nextModel baseModelName modelMap currentModel = some mappedModel ↔ mappedModel ≠ "" ∧
      (modelMap.lookup currentModel = some mappedModel ∨
        (modelMap.lookup currentModel = none ∨ modelMap.lookup currentModel = some "") ∧
          baseModelName currentModel ≠ currentModel ∧
          modelMap.lookup (baseModelName currentModel) = some mappedModel) := by
  unfold nextModel
  rw [Option.filter_eq_some_iff, decide_eq_true_iff, and_comm]
  refine and_congr_right fun hne => ?_
  split_ifs with hbase
  · have hown : modelMap.lookup currentModel ≠ some mappedModel := by
      rintro hsome
      rcases hbase.1 with hnone | hempty
      · rw [hnone] at hsome
        cases hsome
      · rw [hempty] at hsome
        exact hne (Option.some.inj hsome).symm
    simp only [hown, false_or, hbase.1, hbase.2, ne_eq, not_false_eq_true, true_and]
  · constructor
    · exact Or.inl
    · rintro (hsome | ⟨hmissing, hdiffers, -⟩)
      · exact hsome
      · exact absurd ⟨hmissing, hdiffers⟩ hbase

theorem nextModel_nil (baseModelName : String → String) (currentModel : String) :
    nextModel baseModelName [] currentModel = none := by
  rw [Option.eq_none_iff_forall_ne_some]
  intro mappedModel h
  rcases (nextModel_eq_some_iff.1 h).2 with hsome | ⟨-, -, hsome⟩ <;> cases hsome

/-- Along an empty mapping, a walk stays. -/
theorem chase_nil (baseModelName : String → String) (fuel : ℕ) (name : String) :
    ∃ s, chase (nextModel baseModelName []) fuel [name] name = some s ∧ s.place = name :=
  chase_of_fresh_none fuel (by rw [fresh, nextModel_nil]; rfl)

theorem lookup_mem {name : String}
    (h : modelMap.lookup name = some mappedModel) : (name, mappedModel) ∈ modelMap := by
  induction modelMap with
  | nil => cases h
  | cons e modelMap ih =>
    rw [lookup_cons] at h
    by_cases hname : name = e.1
    · rw [hname, beq_self_eq_true] at h
      rw [hname, ← Option.some.inj h]
      exact mem_cons_self
    · rw [beq_eq_false_iff_ne.2 hname] at h
      exact mem_cons_of_mem e (ih h)

theorem nextModel_mem {baseModelName : String → String}
    (h : nextModel baseModelName modelMap currentModel = some mappedModel) :
    mappedModel ∈ modelMap.map Prod.snd := by
  rcases (nextModel_eq_some_iff.1 h).2 with hsome | ⟨-, -, hsome⟩
  · exact mem_map.2 ⟨_, lookup_mem hsome, rfl⟩
  · exact mem_map.2 ⟨_, lookup_mem hsome, rfl⟩

/-- **Routing walks along the mapping with its names trimmed.** -/
theorem resolve_place (baseModelName : String → String) (fuel : ℕ)
    (modelMapping modelName : String) :
    resolveChannelUpstreamModelName codec baseModelName fuel modelMapping modelName =
      (chase (nextModel baseModelName (routedMap codec modelMapping modelName)) fuel [modelName]
        modelName).map Stop.place := by
  unfold resolveChannelUpstreamModelName routedMap
  by_cases hblank : trimSpace modelName = ""
  · obtain ⟨s, hs, hplace⟩ := chase_nil baseModelName fuel modelName
    simp only [hblank, or_true, if_true, hs, Option.map_some, hplace]
  · by_cases hnil : parseChannelModelMappingForRouting codec modelMapping = []
    · obtain ⟨s, hs, hplace⟩ := chase_nil baseModelName fuel modelName
      simp only [hblank, hnil, true_or, if_true, if_false, hs, Option.map_some, hplace]
    · simp only [hblank, hnil, or_self, if_false]
      exact resolveLoop_chase

/-- **`ModelMappedHelper` walks along the mapping as it is**, and what it sends is where it stops. -/
theorem modelMappedHelper_place (baseModelName : String → String) (fuel : ℕ)
    (modelMapping origin : String) (request : Option String) {channelMeta : ChannelMeta}
    {request' : Option String} (h : modelMappedHelper codec baseModelName fuel modelMapping
      ⟨origin, some ⟨origin, false⟩⟩ request = some (.ok (channelMeta, request'))) :
    (∃ s, chase (nextModel baseModelName (sentMap codec modelMapping)) fuel [origin] origin =
      some s ∧ channelMeta.upstreamModelName = s.place) ∧ ((∀ name ∈ request, name = origin) →
      request' = request.map fun _ => channelMeta.upstreamModelName) := by
  have hrequest : (∀ name ∈ request, name = origin) → request = request.map fun _ => origin := by
    intro hname
    cases request with
    | none => rfl
    | some name => rw [hname name rfl]; rfl
  simp only [modelMappedHelper, Option.getD_some] at h
  unfold sentMap
  by_cases hmapping : modelMapping ≠ "" ∧ modelMapping ≠ "{}"
  · rw [if_pos hmapping] at h ⊢
    rcases hentries : codec.unmarshal modelMapping with _ | modelMap
    · rw [hentries] at h
      cases h
    simp only [hentries, Option.getD_some] at h ⊢
    obtain ⟨hnone, hsome⟩ := mappedLoop_matched baseModelName modelMap origin fuel [origin] origin
      false
    rcases hchase : chase (nextModel baseModelName modelMap) fuel [origin] origin with _ | s
    · rw [hnone hchase] at h
      cases h
    obtain ⟨left, hleft, hfits⟩ := hsome s hchase
    rw [hleft] at h
    cases left with
    | done place mapped =>
      obtain ⟨hplace, hunmapped⟩ := hfits
      have hmeta := Except.ok.inj (Option.some.inj h)
      rw [← (Prod.mk.inj hmeta).1, ← (Prod.mk.inj hmeta).2]
      refine ⟨⟨s, rfl, ?_⟩, fun _ => rfl⟩
      cases mapped with
      | false => exact (hunmapped rfl).2.symm
      | true => exact hplace
    | unmapped =>
      have hmeta := Except.ok.inj (Option.some.inj h)
      rw [← (Prod.mk.inj hmeta).1, ← (Prod.mk.inj hmeta).2]
      exact ⟨⟨s, rfl, hfits.symm⟩, hrequest⟩
    | cycle => cases h
  · rw [if_neg hmapping] at h ⊢
    have hmeta := Except.ok.inj (Option.some.inj h)
    rw [← (Prod.mk.inj hmeta).1, ← (Prod.mk.inj hmeta).2]
    obtain ⟨s, hs, hplace⟩ := chase_nil baseModelName fuel origin
    exact ⟨⟨s, hs, hplace.symm⟩, fun _ => rfl⟩

/-! ### The walks end -/

theorem length_normalize (parsed normalized : List (String × String)) :
    (parsed.foldl normalizeEntry normalized).length ≤ normalized.length + parsed.length := by
  induction parsed generalizing normalized with
  | nil => exact le_refl _
  | cons e parsed ih =>
    rw [foldl_cons, length_cons]
    have hentry : (normalizeEntry normalized e).length ≤ normalized.length + 1 := by
      simp only [normalizeEntry]
      split_ifs
      · exact le_refl _
      · exact le_succ _
    have hrest := ih (normalizeEntry normalized e)
    omega

/-- How many entries the mapping has. -/
def entryCount (modelMapping : String) : ℕ :=
  ((codec.unmarshal modelMapping).getD []).length

theorem length_routedMap (modelMapping modelName : String) :
    (routedMap codec modelMapping modelName).length ≤ entryCount codec modelMapping := by
  unfold routedMap parseChannelModelMappingForRouting entryCount
  split_ifs
  · exact zero_le _
  · exact zero_le _
  · cases codec.unmarshal modelMapping with
    | none => exact zero_le _
    | some parsed =>
      have hlength := length_normalize parsed []
      rwa [length_nil, Nat.zero_add] at hlength

/-- A walk along a mapping ends. -/
theorem chase_mapping_isSome {fuel : ℕ}
    (h : modelMap.length ≤ fuel) (baseModelName : String → String) (visited : List String)
    (currentModel : String) :
    ∃ s, chase (nextModel baseModelName modelMap) fuel visited currentModel = some s := by
  refine chase_isSome (modelMap.map Prod.snd) (fun _ _ => nextModel_mem) ?_
  refine (length_filter_le _ _).trans ?_
  rwa [length_map]

theorem resolve_isSome {codec : Codec} {fuel : ℕ}
    (h : entryCount codec modelMapping ≤ fuel) (baseModelName : String → String)
    (modelName : String) :
    ∃ m, resolveChannelUpstreamModelName codec baseModelName fuel modelMapping modelName =
      some m := by
  obtain ⟨s, hs⟩ := chase_mapping_isSome
    ((length_routedMap codec modelMapping modelName).trans h) baseModelName [modelName] modelName
  exact ⟨s.place, by rw [resolve_place, hs]; rfl⟩

theorem modelMappedHelper_isSome {codec : Codec} {fuel : ℕ}
    (h : entryCount codec modelMapping ≤ fuel) (baseModelName : String → String)
    (info : RelayInfo) (request : Option String) :
    ∃ r, modelMappedHelper codec baseModelName fuel modelMapping info request = some r := by
  unfold modelMappedHelper
  by_cases hmapping : modelMapping ≠ "" ∧ modelMapping ≠ "{}"
  · simp only [if_pos hmapping]
    cases hentries : codec.unmarshal modelMapping with
    | none => exact ⟨_, rfl⟩
    | some modelMap =>
      have hlength : modelMap.length ≤ fuel := by
        rwa [entryCount, hentries] at h
      obtain ⟨s, hs⟩ := chase_mapping_isSome hlength baseModelName [info.originModelName]
        info.originModelName
      obtain ⟨left, hleft, -⟩ := (mappedLoop_matched baseModelName modelMap info.originModelName
        fuel [info.originModelName] info.originModelName
        (info.channelMeta.getD {}).isModelMapped).2 s hs
      simp only [hleft]
      cases left with
      | done | unmapped | cycle => exact ⟨_, rfl⟩
  · simp only [if_neg hmapping]
    exact ⟨_, rfl⟩

/-! ### When they agree -/

/-- **The model that is sent and the model that is routed by.**  Both loops end, within as many
moves as the mapping has entries.  When `ModelMappedHelper` succeeds, the two models are the same if
the mapping and the trimmed mapping lead on to the same new names from the requested one, and are not
if only one of them leads on, where they first differ. -/
theorem modelMappedHelper_sends (codec : Codec) (baseModelName : String → String)
    (modelMapping origin : String) :
    (∀ fuel info request, entryCount codec modelMapping ≤ fuel →
      (∃ r, modelMappedHelper codec baseModelName fuel modelMapping info request = some r) ∧
        ∃ m, resolveChannelUpstreamModelName codec baseModelName fuel modelMapping origin =
          some m) ∧
    ∀ fuel fuel' request channelMeta request' m,
      modelMappedHelper codec baseModelName fuel modelMapping ⟨origin, some ⟨origin, false⟩⟩
        request = some (.ok (channelMeta, request')) →
      resolveChannelUpstreamModelName codec baseModelName fuel' modelMapping origin = some m →
      (Together (nextModel baseModelName (sentMap codec modelMapping))
        (nextModel baseModelName (routedMap codec modelMapping origin)) [origin] origin →
          channelMeta.upstreamModelName = m) ∧
      (Parted (nextModel baseModelName (sentMap codec modelMapping))
        (nextModel baseModelName (routedMap codec modelMapping origin)) [origin] origin →
          channelMeta.upstreamModelName ≠ m) := by
  refine ⟨fun fuel info request hfuel =>
    ⟨modelMappedHelper_isSome hfuel baseModelName info request,
      resolve_isSome hfuel baseModelName origin⟩, ?_⟩
  intro fuel fuel' request channelMeta request' m hhelper hresolve
  obtain ⟨⟨s, hs, hsent⟩, -⟩ := modelMappedHelper_place codec baseModelName fuel modelMapping
    origin request hhelper
  rw [resolve_place, Option.map_eq_some_iff] at hresolve
  obtain ⟨s', hs', hrouted⟩ := hresolve
  rw [hsent, ← hrouted]
  exact ⟨fun h => h.place_eq hs hs', fun h => h.place_ne List.mem_cons_self hs hs'⟩

/-- A mapping of one entry. -/
def oneEntry (text source target : String) : Codec where
  unmarshal t := if t = text then some [(source, target)] else none
  distinct := by
    intro t entries h
    split_ifs at h
    rw [← Option.some.inj h]
    exact nodup_singleton source

theorem modelMappedHelper_sends_plain :
    ∀ channelMeta request', modelMappedHelper (oneEntry "m" "gpt-4o" "gpt-5") id 1 "m"
        ⟨"gpt-4o", some ⟨"gpt-4o", false⟩⟩ (some "gpt-4o") = some (.ok (channelMeta, request')) →
      channelMeta.upstreamModelName = "gpt-5" := by
  intro channelMeta request' h
  have hresolve : resolveChannelUpstreamModelName (oneEntry "m" "gpt-4o" "gpt-5") id 1 "m"
      "gpt-4o" = some "gpt-5" := by decide
  refine ((modelMappedHelper_sends (oneEntry "m" "gpt-4o" "gpt-5") id "m" "gpt-4o").2 1 1 _ _ _ _
    h hresolve).1 ?_
  exact .move (b := "gpt-5") (by decide) (by decide) (.stop (by decide) (by decide))

/-- A space before a name is sent, but not routed by. -/
theorem padded_target_routed :
    ¬ ∀ (codec : Codec) (baseModelName : String → String) (modelMapping origin : String)
      (fuel : ℕ) (channelMeta : ChannelMeta) (request' : Option String) (m : String),
      modelMappedHelper codec baseModelName fuel modelMapping ⟨origin, some ⟨origin, false⟩⟩
        (some origin) = some (.ok (channelMeta, request')) →
      resolveChannelUpstreamModelName codec baseModelName fuel modelMapping origin = some m →
      channelMeta.upstreamModelName = m := by
  intro h
  have hsame := h (oneEntry "m" "gpt-4o" " gpt-5") id "m" "gpt-4o" 1 ⟨" gpt-5", true⟩
    (some " gpt-5") "gpt-5" (by decide) (by decide)
  exact absurd hsame (by decide)

end NexusTok.Mapping
