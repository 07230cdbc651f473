import Mathlib.Data.Prod.Lex
import NexusTok.Routing.Candidates
import NexusTok.Store.Wheel

/-!
# Levels and draws

A channel has a priority, and so has each of its keys, between 0 and 99; the two are packed into one
number, the *effective* priority of the key.  The retry count of a request is a place among the
effective priorities, from the highest down; among the keys of this level one is drawn by weight.

The keys are those that `loadRoutableChannelKeys` and `loadRoutableUpstreamKeys` let through for the
group and the model, whichever they are.

* `effectivePriority_lt_iff` : the packed numbers are ordered as the pairs are.
* `selectChannelByRoutingKey_drawn` : the level that is drawn from, and the draw.
* `selectChannelByRoutingKey_candidate` : the selection of `Select`, with all that goes with a key.
-/

namespace NexusTok.Routing.Draw

open List

/-! ### Weights -/

/-- What the selection takes from elsewhere. -/
structure Env where
  /-- What the floating point number `1000 + (1 - ratio) / 0.001` is rounded to. -/
  rounded : ℚ → ℤ
  maskTokenKey : String → String

variable (env : Env)

/-- A weight, cut to `MinUpstreamKeyWeight` and `MaxUpstreamKeyWeight`. -/
def clampWeight (weight : ℤ) : ℤ := max 0 (min 2000 weight)

/-- `CalculateUpstreamKeyWeight`.  A conversion ratio that is no finite number is none. -/
def calculateUpstreamKeyWeight (conversionRatio : Option ℚ) : Option ℤ :=
  match conversionRatio with
  | none => none
  | some ratio =>
    if ratio < 0 ∨ ratio > 1000 then none
    else if ratio ≥ 2 then some 0
    else
      let weight := env.rounded ratio
      if weight < 0 then some 0 else if weight > 2000 then some 2000 else some weight

structure ChannelKey where
  id : ℕ
  routingKeyId : ℕ
  keyIndex : ℤ
  keyPriority : ℤ
  conversionRatio : Option ℚ
  weight : ℤ
  weightOverride : Option ℤ
  secret : String
  deriving DecidableEq

def ChannelKey.autoWeight (key : ChannelKey) : ℤ :=
  if key.conversionRatio = some 0 then 2000
  else (calculateUpstreamKeyWeight env key.conversionRatio).getD 0

def ChannelKey.effectiveWeight (key : ChannelKey) : ℤ :=
  if key.conversionRatio = some 0 then 2000
  else
    match key.weightOverride with
    | some weight => clampWeight weight
    | none => if key.weight > 0 then clampWeight key.weight else key.autoWeight env

structure UpstreamKey where
  id : ℕ
  routingKeyId : ℕ
  channelId : ℤ
  name : String
  secret : String
  keyPriority : ℤ
  conversionRatio : Option ℚ
  weight : ℤ
  weightOverride : Option ℤ
  deriving DecidableEq

/-- `AutoWeight` of a key of a platform site. -/
def UpstreamKey.autoWeight (key : UpstreamKey) : ℤ :=
  (calculateUpstreamKeyWeight env key.conversionRatio).getD 0

/-- `EffectiveWeight` of a key of a platform site. -/
def UpstreamKey.effectiveWeight (key : UpstreamKey) : ℤ :=
  if key.conversionRatio = some 0 then 2000
  else
    match key.weightOverride with
    | some weight => clampWeight weight
    | none => clampWeight (key.autoWeight env)

/-! ### Candidates -/

structure RoutingKeySelection where
  keyId : ℕ
  channelId : ℤ
  source : Source
  sourceRefId : ℕ
  secret : String
  name : String
  keyPriority : ℤ
  effectivePriority : ℤ
  weight : ℤ
  autoWeight : ℤ
  conversionRatio : Option ℚ
  channelKeyId : ℕ
  upstreamKeyId : ℕ
  multiKeyIndex : ℤ
  deriving DecidableEq

/-- `channel.GetPriority() * 100 + priority`, in 64 bits. -/
def effectivePriority (channel : Channel) (priority : ℤ) : ℤ :=
  (channel.priority * 100 + priority).bmod (2 ^ 64)

def channelKeySelection (channel : Channel) (key : ChannelKey) : RoutingKeySelection :=
  let priority := normalizeRoutingKeyPriority key.keyPriority
  { keyId := key.routingKeyId
    channelId := channel.id
    source := .keyChannel
    sourceRefId := key.id
    secret := key.secret
    name := env.maskTokenKey key.secret
    keyPriority := priority
    effectivePriority := effectivePriority channel priority
    weight := key.effectiveWeight env
    autoWeight := key.autoWeight env
    conversionRatio := key.conversionRatio
    channelKeyId := key.id
    upstreamKeyId := 0
    multiKeyIndex := key.keyIndex }

def upstreamKeySelection (channel : Channel) (key : UpstreamKey) : RoutingKeySelection :=
  let priority := normalizeRoutingKeyPriority key.keyPriority
  { keyId := key.routingKeyId
    channelId := channel.id
    source := .platformSite
    sourceRefId := key.id
    secret := key.secret
    name := key.name
    keyPriority := priority
    effectivePriority := effectivePriority channel priority
    weight := key.effectiveWeight env
    autoWeight := key.autoWeight env
    conversionRatio := key.conversionRatio
    channelKeyId := 0
    upstreamKeyId := key.id
    multiKeyIndex := 0 }

/-- The keys that can be routed to, by the channel, the group and the model. -/
structure Routable where
  /-- The keys `loadRoutableChannelKeys` makes its selections from. -/
  channelKeys : Channel → String → String → List ChannelKey
  /-- `loadRoutableUpstreamKeys`. -/
  upstreamKeys : Channel → String → String → List UpstreamKey

structure RoutingKeyRouteCandidate where
  channel : Channel
  key : RoutingKeySelection
  deriving DecidableEq

variable (routable : Routable)

def selections (channel : Channel) (group modelName : String) : List RoutingKeySelection :=
  match channel.upstreamKind with
  | .platformSite =>
    (routable.upstreamKeys channel group modelName).map (upstreamKeySelection env channel)
  | .keyChannel =>
    (routable.channelKeys channel group modelName).map (channelKeySelection env channel)

/-- `routingCandidatesForChannels`.  A channel may be nil. -/
def routingCandidatesForChannels (channels : List (Option Channel)) (group modelName : String) :
    List RoutingKeyRouteCandidate :=
  channels.flatMap fun channel =>
    match channel with
    | none => []
    | some channel =>
      ((selections env routable channel group modelName).filter fun key => key.keyId ≠ 0).map
        fun key => ⟨channel, key⟩

def sortedUniqueEffectivePriorities (candidates : List RoutingKeyRouteCandidate) : List ℤ :=
  (candidates.map fun c => c.key.effectivePriority).dedup.insertionSort (· ≥ ·)

/-! ### The selection -/

def RoutingKeyRouteCandidate.weight (c : RoutingKeyRouteCandidate) : ℤ := c.key.weight

def totalWeight (filtered : List RoutingKeyRouteCandidate) : ℤ :=
  Wheel.total RoutingKeyRouteCandidate.weight filtered

/-- The place of `selected` in `filtered`: drawn evenly, and again by weight when a weight counts. -/
def drawn (roll : Roll) (filtered : List RoutingKeyRouteCandidate) : ℕ :=
  let even := roll.intn % filtered.length
  if 0 < totalWeight filtered then
    (Wheel.walk RoutingKeyRouteCandidate.weight (roll.int63n % totalWeight filtered)
      filtered).getD even
  else even

/-- The copy of a channel with the key that has been selected. -/
structure ChannelCopy where
  channel : Channel
  selectedRoutingKey : RoutingKeySelection
  selectedUpstreamKey : Option UpstreamKey
  deriving DecidableEq

def RoutingKeyRouteCandidate.channelCopy (selected : RoutingKeyRouteCandidate) : ChannelCopy where
  channel := selected.channel
  selectedRoutingKey := selected.key
  selectedUpstreamKey :=
    if selected.key.source = .platformSite ∧ selected.key.upstreamKeyId ≠ 0 then
      some
        { id := selected.key.upstreamKeyId
          routingKeyId := selected.key.keyId
          channelId := selected.key.channelId
          name := selected.key.name
          secret := selected.key.secret
          keyPriority := selected.key.keyPriority
          conversionRatio := selected.key.conversionRatio
          weight := selected.key.weight
          weightOverride := none }
    else none

/-- `selectChannelByRoutingKey`, with the random numbers of its two draws. -/
def selectChannelByRoutingKey (roll : Roll) (channels : List (Option Channel))
    (group modelName : String) (retry : ℤ) : Option ChannelCopy :=
  let candidates := routingCandidatesForChannels env routable channels group modelName
  if candidates = [] then none
  else
    let priorities := sortedUniqueEffectivePriorities candidates
    let retry := if retry < 0 then 0 else retry
    if retry ≥ priorities.length then none
    else
      match priorities[retry.toNat]? with
      | none => none
      | some targetPriority =>
        let filtered := candidates.filter fun c => c.key.effectivePriority = targetPriority
        (filtered[drawn roll filtered]?).map RoutingKeyRouteCandidate.channelCopy

/-! ### What a candidate is -/

variable {env : Env} {routable : Routable}

/-- **How the numbers of a candidate are made.** -/
structure RoutingKeyRouteCandidate.Made (c : RoutingKeyRouteCandidate) : Prop where
  priority_nonneg : 0 ≤ c.key.keyPriority
  priority_le : c.key.keyPriority ≤ 99
  effective : c.key.effectivePriority = effectivePriority c.channel c.key.keyPriority
  weight_nonneg : 0 ≤ c.weight

theorem clampWeight_nonneg (weight : ℤ) : 0 ≤ clampWeight weight := le_max_left _ _

theorem calculateUpstreamKeyWeight_nonneg (ratio : Option ℚ) :
    0 ≤ (calculateUpstreamKeyWeight env ratio).getD 0 := by
  unfold calculateUpstreamKeyWeight
  cases ratio with
  | none => exact le_refl 0
  | some ratio =>
    simp only
    split_ifs with hrange htwo hneg hbig
    · exact le_refl 0
    · exact le_refl 0
    · exact le_refl 0
    · exact Int.le.intro_sub 2000 rfl
    · exact not_lt.1 hneg

theorem ChannelKey.effectiveWeight_nonneg (key : ChannelKey) : 0 ≤ key.effectiveWeight env := by
  unfold ChannelKey.effectiveWeight ChannelKey.autoWeight
  by_cases hzero : key.conversionRatio = some 0
  · rw [if_pos hzero]
    exact Int.le.intro_sub 2000 rfl
  · rw [if_neg hzero, if_neg hzero]
    cases key.weightOverride with
    | some weight => exact clampWeight_nonneg weight
    | none =>
      by_cases hweight : key.weight > 0
      · simp only [if_pos hweight]
        exact clampWeight_nonneg _
      · simp only [if_neg hweight]
        exact calculateUpstreamKeyWeight_nonneg _

theorem UpstreamKey.effectiveWeight_nonneg (key : UpstreamKey) : 0 ≤ key.effectiveWeight env := by
  unfold UpstreamKey.effectiveWeight
  split_ifs with hzero
  · exact Int.le.intro_sub 2000 rfl
  · cases key.weightOverride <;> exact clampWeight_nonneg _

theorem normalizeRoutingKeyPriority_mem (priority : ℤ) :
    0 ≤ normalizeRoutingKeyPriority priority ∧ normalizeRoutingKeyPriority priority ≤ 99 := by
  unfold normalizeRoutingKeyPriority
  omega

theorem made_of_mem_selections {channel : Channel} {group modelName : String}
    {key : RoutingKeySelection} (h : key ∈ selections env routable channel group modelName) :
    RoutingKeyRouteCandidate.Made ⟨channel, key⟩ := by
  unfold selections at h
  cases hkind : channel.upstreamKind with
  | platformSite | keyChannel =>
    rw [hkind] at h
    obtain ⟨k, -, rfl⟩ := mem_map.1 h
    have hpriority := normalizeRoutingKeyPriority_mem k.keyPriority
    exact ⟨hpriority.1, hpriority.2, rfl, k.effectiveWeight_nonneg⟩

variable {channels : List (Option Channel)} {group modelName : String}

variable {c c' : RoutingKeyRouteCandidate}

theorem mem_candidates :
    c ∈ routingCandidatesForChannels env routable channels group modelName ↔
      some c.channel ∈ channels ∧ c.key ∈ selections env routable c.channel group modelName ∧
        c.key.keyId ≠ 0 := by
  unfold routingCandidatesForChannels
  rw [mem_flatMap]
  constructor
  · rintro ⟨channel, hchannel, hc⟩
    rcases channel with _ | channel
    · exact absurd hc not_mem_nil
    obtain ⟨key, hkey, rfl⟩ := mem_map.1 hc
    obtain ⟨hkey, hid⟩ := mem_filter.1 hkey
    exact ⟨hchannel, hkey, of_decide_eq_true hid⟩
  · rintro ⟨hchannel, hkey, hid⟩
    refine ⟨some c.channel, hchannel, mem_map.2 ⟨c.key, ?_, rfl⟩⟩
    exact mem_filter.2 ⟨hkey, decide_eq_true hid⟩

theorem made_of_mem
    (h : c ∈ routingCandidatesForChannels env routable channels group modelName) : c.Made :=
  made_of_mem_selections (mem_candidates.1 h).2.1

/-! ### Levels -/

/-- The priority of the channel and, below it, that of the key. -/
def RoutingKeyRouteCandidate.level (c : RoutingKeyRouteCandidate) : ℤ ×ₗ ℤ :=
  toLex (c.channel.priority, c.key.keyPriority)

/-- The packed priorities of the keys of a channel fit 64 bits. -/
def Fits (channel : Channel) : Prop :=
  -(2 ^ 63) ≤ channel.priority * 100 ∧ channel.priority * 100 + 99 < 2 ^ 63

instance (channel : Channel) : Decidable (Fits channel) := inferInstanceAs (Decidable (_ ∧ _))

theorem effectivePriority_eq {channel : Channel} (h : Fits channel) {priority : ℤ}
    (hnonneg : 0 ≤ priority) (hle : priority ≤ 99) :
    effectivePriority channel priority = channel.priority * 100 + priority := by
  obtain ⟨hlow, hhigh⟩ := h
  exact Int.bmod_eq_of_le (by omega) (by omega)

/-- **The packed numbers are ordered as the pairs are.** -/
theorem effectivePriority_lt_iff (hc : c.Made) (hc' : c'.Made)
    (h : Fits c.channel) (h' : Fits c'.channel) :
    c.key.effectivePriority < c'.key.effectivePriority ↔ c.level < c'.level := by
  have hlow := hc.priority_nonneg
  have hhigh := hc.priority_le
  have hlow' := hc'.priority_nonneg
  have hhigh' := hc'.priority_le
  rw [hc.effective, hc'.effective, effectivePriority_eq h hlow hhigh,
    effectivePriority_eq h' hlow' hhigh', RoutingKeyRouteCandidate.level,
    RoutingKeyRouteCandidate.level, Prod.Lex.toLex_lt_toLex]
  constructor
  · intro hlt
    by_cases hsame : c.channel.priority = c'.channel.priority
    · exact Or.inr ⟨hsame, by omega⟩
    · exact Or.inl (by omega)
  · rintro (hlt | ⟨hsame, hlt⟩) <;> simp only at * <;> omega

theorem effectivePriority_eq_iff (hc : c.Made) (hc' : c'.Made)
    (h : Fits c.channel) (h' : Fits c'.channel) :
    c.key.effectivePriority = c'.key.effectivePriority ↔ c.level = c'.level := by
  have hlt := effectivePriority_lt_iff hc hc' h h'
  have hgt := effectivePriority_lt_iff hc' hc h' h
  constructor
  · intro heq
    refine le_antisymm (not_lt.1 fun h => ?_) (not_lt.1 fun h => ?_)
    · exact absurd (hgt.2 h) (heq ▸ lt_irrefl _)
    · exact absurd (hlt.2 h) (heq ▸ lt_irrefl _)
  · intro heq
    refine le_antisymm (not_lt.1 fun h => ?_) (not_lt.1 fun h => ?_)
    · exact absurd (hgt.1 h) (heq ▸ lt_irrefl _)
    · exact absurd (hlt.1 h) (heq ▸ lt_irrefl _)

/-- A pair has so many pairs above it, among those of the candidates. -/
def IsLevel (candidates : List RoutingKeyRouteCandidate) (place : ℕ) (l : ℤ ×ₗ ℤ) : Prop :=
  l ∈ candidates.map RoutingKeyRouteCandidate.level ∧
    ((candidates.map RoutingKeyRouteCandidate.level).toFinset.filter (l < ·)).card = place

/-- The effective priority of a pair. -/
def packed (l : ℤ ×ₗ ℤ) : ℤ := (ofLex l).1 * 100 + (ofLex l).2

theorem packed_level (hc : c.Made) (h : Fits c.channel) :
    packed c.level = c.key.effectivePriority := by
  rw [hc.effective, effectivePriority_eq h hc.priority_nonneg hc.priority_le]
  rfl

section Candidates

variable {candidates : List RoutingKeyRouteCandidate}
  (hmade : ∀ c ∈ candidates, c.Made ∧ Fits c.channel)

include hmade

theorem card_above (hc : c ∈ candidates) :
    ((candidates.map RoutingKeyRouteCandidate.level).toFinset.filter (c.level < ·)).card =
      ((candidates.map fun c => c.key.effectivePriority).toFinset.filter
        (c.key.effectivePriority < ·)).card := by
  have hlevel : ∀ l : ℤ ×ₗ ℤ,
      l ∈ (candidates.map RoutingKeyRouteCandidate.level).toFinset.filter (c.level < ·) →
        ∃ c' ∈ candidates, c'.level = l ∧ c.level < l := by
    intro l hl
    obtain ⟨hmem, hlt⟩ := Finset.mem_filter.1 hl
    obtain ⟨c', hc', heq⟩ := mem_map.1 (mem_toFinset.1 hmem)
    exact ⟨c', hc', heq, hlt⟩
  refine Finset.card_bij (fun l _ => packed l) ?_ ?_ ?_
  · intro l hl
    obtain ⟨c', hc', rfl, hlt⟩ := hlevel l hl
    rw [packed_level (hmade c' hc').1 (hmade c' hc').2, Finset.mem_filter, mem_toFinset]
    refine ⟨mem_map.2 ⟨c', hc', rfl⟩, ?_⟩
    exact (effectivePriority_lt_iff (hmade c hc).1 (hmade c' hc').1 (hmade c hc).2
      (hmade c' hc').2).2 hlt
  · intro l hl l' hl' heq
    obtain ⟨c₁, h₁, rfl, -⟩ := hlevel l hl
    obtain ⟨c₂, h₂, rfl, -⟩ := hlevel l' hl'
    rw [packed_level (hmade c₁ h₁).1 (hmade c₁ h₁).2,
      packed_level (hmade c₂ h₂).1 (hmade c₂ h₂).2] at heq
    exact (effectivePriority_eq_iff (hmade c₁ h₁).1 (hmade c₂ h₂).1 (hmade c₁ h₁).2
      (hmade c₂ h₂).2).1 heq
  · intro priority hpriority
    obtain ⟨hmem, hlt⟩ := Finset.mem_filter.1 hpriority
    obtain ⟨c', hc', rfl⟩ := mem_map.1 (mem_toFinset.1 hmem)
    refine ⟨c'.level, ?_, packed_level (hmade c' hc').1 (hmade c' hc').2⟩
    rw [Finset.mem_filter, mem_toFinset]
    refine ⟨mem_map.2 ⟨c', hc', rfl⟩, ?_⟩
    exact (effectivePriority_lt_iff (hmade c hc).1 (hmade c' hc').1 (hmade c hc).2
      (hmade c' hc').2).1 hlt

end Candidates

theorem priorities_pairwise (candidates : List RoutingKeyRouteCandidate) :
    (sortedUniqueEffectivePriorities candidates).Pairwise (· > ·) := by
  have hsorted : (sortedUniqueEffectivePriorities candidates).Pairwise (· ≥ ·) :=
    pairwise_insertionSort _ _
  have hnodup : (sortedUniqueEffectivePriorities candidates).Nodup :=
    (perm_insertionSort _ _).nodup_iff.2 (nodup_dedup _)
  refine (hsorted.and hnodup).imp ?_
  rintro a b ⟨hge, hne⟩
  exact lt_of_le_of_ne hge hne.symm

theorem toFinset_priorities (candidates : List RoutingKeyRouteCandidate) :
    (sortedUniqueEffectivePriorities candidates).toFinset =
      (candidates.map fun c => c.key.effectivePriority).toFinset := by
  ext priority
  rw [mem_toFinset, mem_toFinset, sortedUniqueEffectivePriorities,
    mem_insertionSort, mem_dedup]

theorem length_priorities (candidates : List RoutingKeyRouteCandidate) :
    (sortedUniqueEffectivePriorities candidates).length =
      (candidates.map fun c => c.key.effectivePriority).toFinset.card := by
  rw [← toFinset_priorities, toFinset_card_of_nodup]
  exact (priorities_pairwise candidates).imp ne_of_gt

/-! ### The draw -/

section Drawn

variable {filtered : List RoutingKeyRouteCandidate} (hmade : ∀ c ∈ filtered, c.Made)

theorem totalWeight_nonneg (filtered : List RoutingKeyRouteCandidate) :
    0 ≤ totalWeight filtered := Wheel.total_nonneg _ filtered

include hmade

theorem totalWeight_pos_iff : 0 < totalWeight filtered ↔ ∃ c ∈ filtered, 0 < c.weight := by
  have hzero := Wheel.total_eq_zero_iff fun c hc => (hmade c hc).weight_nonneg
  constructor
  · intro hpos
    by_contra hnone
    refine hpos.ne' (hzero.2 fun c hc => ?_)
    refine le_antisymm (not_lt.1 fun hlt => hnone ⟨c, hc, hlt⟩) (hmade c hc).weight_nonneg
  · rintro ⟨c, hc, hweight⟩
    refine lt_of_le_of_ne (totalWeight_nonneg filtered) fun heq => ?_
    exact hweight.ne' (hzero.1 heq.symm c hc)

/-- A walk along the candidates stops at one of them. -/
theorem drawn_eq_iff (hpos : 0 < totalWeight filtered) (roll : Roll) (k : ℕ) :
    drawn roll filtered = k ↔ Wheel.walk RoutingKeyRouteCandidate.weight
      (roll.int63n % totalWeight filtered) filtered = some k := by
  obtain ⟨stop, hstop⟩ := Wheel.walk_isSome (fun c hc => (hmade c hc).weight_nonneg)
    (Int.emod_nonneg roll.int63n hpos.ne') (Int.emod_lt_of_pos roll.int63n hpos)
  simp only [drawn, if_pos hpos, hstop, Option.getD_some, Option.some.injEq]

theorem drawn_lt (hne : filtered ≠ []) (roll : Roll) : drawn roll filtered < filtered.length := by
  by_cases hpos : 0 < totalWeight filtered
  · exact Wheel.lt_length_of_walk ((drawn_eq_iff hmade hpos roll _).1 rfl)
  · simp only [drawn, if_neg hpos]
    exact Nat.mod_lt _ (length_pos_of_ne_nil hne)

/-- **A candidate is drawn by as many of the numbers as its weight says.** -/
theorem card_drawn (hpos : 0 < totalWeight filtered) {k : ℕ} (hk : filtered[k]? = some c) (i : ℕ) :
    (((Finset.range (totalWeight filtered).toNat).filter fun v : ℕ =>
      drawn ⟨i, v⟩ filtered = k).card : ℤ) = c.weight := by
  rw [← Wheel.card_walk (fun c hc => (hmade c hc).weight_nonneg) hk]
  congr 2
  refine Finset.filter_congr fun v hv => ?_
  have hlt : (v : ℤ) < totalWeight filtered := by
    have := Finset.mem_range.1 hv
    omega
  rw [drawn_eq_iff hmade hpos, Int.emod_eq_of_lt (Int.natCast_nonneg v) hlt]

end Drawn

theorem card_drawn_even {filtered : List RoutingKeyRouteCandidate}
    (hzero : ¬ 0 < totalWeight filtered) {k : ℕ} (hk : k < filtered.length) (v : ℕ) :
    ((Finset.range filtered.length).filter fun i => drawn ⟨i, v⟩ filtered = k).card = 1 := by
  rw [Finset.card_eq_one]
  refine ⟨k, ?_⟩
  ext i
  simp only [Finset.mem_filter, Finset.mem_range, Finset.mem_singleton, drawn, if_neg hzero]
  constructor
  · rintro ⟨hi, heq⟩
    rwa [Nat.mod_eq_of_lt hi] at heq
  · rintro rfl
    exact ⟨hk, Nat.mod_eq_of_lt hk⟩

/-! ### The selection -/

theorem selectChannelByRoutingKey_at {retry : ℤ} {target : ℤ} (roll : Roll)
    (h : (sortedUniqueEffectivePriorities
      (routingCandidatesForChannels env routable channels group modelName))[(max retry 0).toNat]? =
        some target) :
    selectChannelByRoutingKey env routable roll channels group modelName retry =
      let filtered := (routingCandidatesForChannels env routable channels group modelName).filter
        fun c => c.key.effectivePriority = target
      (filtered[drawn roll filtered]?).map RoutingKeyRouteCandidate.channelCopy := by
  have hne : routingCandidatesForChannels env routable channels group modelName ≠ [] := by
    intro heq
    rw [heq] at h
    simp [sortedUniqueEffectivePriorities] at h
  have hlt := (List.getElem?_eq_some_iff.1 h).1
  have hretry : (if retry < 0 then 0 else retry) = max retry 0 := by omega
  simp only [selectChannelByRoutingKey, if_neg hne, hretry, h]
  rw [if_neg (by omega)]

theorem selectChannelByRoutingKey_past {retry : ℤ} (roll : Roll)
    (h : (sortedUniqueEffectivePriorities
      (routingCandidatesForChannels env routable channels group modelName)).length ≤
        (max retry 0).toNat) :
    selectChannelByRoutingKey env routable roll channels group modelName retry = none := by
  have hretry : (if retry < 0 then 0 else retry) = max retry 0 := by omega
  simp only [selectChannelByRoutingKey, hretry]
  split_ifs with hnil hpast
  · rfl
  · rfl
  · omega

/-- **Levels and draws.**  Nothing is selected exactly when there is no candidate or the place is
past the last level.  Otherwise the place has a level, the pair of a channel priority and a key
priority with so many distinct pairs above; what is selected is the candidate of this level that is
drawn: each by as many of the equally likely numbers as its weight says, or evenly when no weight
counts. -/
theorem selectChannelByRoutingKey_drawn (env : Env) (routable : Routable)
    (channels : List (Option Channel)) (group modelName : String) (retry : ℤ)
    (hfits : ∀ channel, some channel ∈ channels → Fits channel) :
    let candidates := routingCandidatesForChannels env routable channels group modelName
    let place := (max retry 0).toNat
    let distinct := (candidates.map fun c => c.key.effectivePriority).toFinset.card
    (∀ roll, selectChannelByRoutingKey env routable roll channels group modelName retry = none ↔
      candidates = [] ∨ distinct ≤ place) ∧
    (candidates ≠ [] → place < distinct → ∃ l, IsLevel candidates place l ∧
      let filtered := candidates.filter fun c => c.level = l
      (∀ roll, ∃ c, filtered[drawn roll filtered]? = some c ∧
        selectChannelByRoutingKey env routable roll channels group modelName retry =
          some c.channelCopy) ∧
      ∀ k c, filtered[k]? = some c → 0 ≤ c.weight ∧
        (0 < c.weight → ∀ i, (((Finset.range (totalWeight filtered).toNat).filter fun v : ℕ =>
          drawn ⟨i, v⟩ filtered = k).card : ℤ) = c.weight) ∧
        (c.weight = 0 → (∃ c' ∈ filtered, 0 < c'.weight) → ∀ roll, drawn roll filtered ≠ k) ∧
        ((∀ c' ∈ filtered, c'.weight = 0) → ∀ v, ((Finset.range filtered.length).filter fun i =>
          drawn ⟨i, v⟩ filtered = k).card = 1)) := by
  intro candidates place distinct
  have hmade : ∀ c ∈ candidates, c.Made ∧ Fits c.channel :=
    fun c hc => ⟨made_of_mem hc, hfits _ (mem_candidates.1 hc).1⟩
  have hlength : (sortedUniqueEffectivePriorities candidates).length = distinct :=
    length_priorities candidates
  -- the level of a place that is not past the last
  have hselected : place < distinct → ∃ l, IsLevel candidates place l ∧
      let filtered := candidates.filter fun c => c.level = l
      filtered ≠ [] ∧ ∀ roll,
        selectChannelByRoutingKey env routable roll channels group modelName retry =
          (filtered[drawn roll filtered]?).map RoutingKeyRouteCandidate.channelCopy := by
    intro hlt
    have htarget := List.getElem?_eq_getElem (hlength.symm ▸ hlt)
    obtain ⟨hmem, hcard⟩ :=
      (getElem?_eq_some_iff_card (priorities_pairwise candidates)).1 htarget
    rw [← List.mem_toFinset, toFinset_priorities, List.mem_toFinset] at hmem
    obtain ⟨c, hc, heq⟩ := List.mem_map.1 hmem
    rw [toFinset_priorities, ← heq, ← card_above hmade hc] at hcard
    have hsame : (candidates.filter fun c' => c'.key.effectivePriority =
        c.key.effectivePriority) = candidates.filter fun c' => c'.level = c.level := by
      refine List.filter_congr fun c' hc' => decide_eq_decide.2 ?_
      exact effectivePriority_eq_iff (hmade c' hc').1 (hmade c hc).1 (hmade c' hc').2 (hmade c hc).2
    refine ⟨c.level, ⟨List.mem_map.2 ⟨c, hc, rfl⟩, hcard⟩, ?_, fun roll => ?_⟩
    · exact List.ne_nil_of_mem (List.mem_filter.2 ⟨hc, decide_eq_true rfl⟩)
    · rw [selectChannelByRoutingKey_at roll htarget, ← heq, hsame]
  have hfiltered : ∀ l, ∀ c ∈ candidates.filter fun c => c.level = l, c.Made :=
    fun l c hc => (hmade c (List.mem_filter.1 hc).1).1
  refine ⟨fun roll => ?_, fun _ hlt => ?_⟩
  · constructor
    · intro hnone
      by_contra hsome
      obtain ⟨-, hlt⟩ := not_or.1 hsome
      obtain ⟨l, -, hne, hselect⟩ := hselected (not_le.1 hlt)
      rw [hselect, List.getElem?_eq_getElem (drawn_lt (hfiltered l) hne roll)] at hnone
      exact Option.some_ne_none _ hnone
    · rintro (hnil | hpast)
      · have hzero : distinct = 0 := by
          simp only [distinct, hnil, List.map_nil, List.toFinset_nil, Finset.card_empty]
        exact selectChannelByRoutingKey_past roll (hlength.trans_le (hzero.trans_le (Nat.zero_le _)))
      · exact selectChannelByRoutingKey_past roll (hlength.trans_le hpast)
  · obtain ⟨l, hl, hne, hselect⟩ := hselected hlt
    refine ⟨l, hl, fun roll => ?_, fun k c hk => ?_⟩
    · have hget := List.getElem?_eq_getElem (drawn_lt (hfiltered l) hne roll)
      exact ⟨_, hget, by rw [hselect, hget]; rfl⟩
    · refine ⟨(hfiltered l c (List.mem_of_getElem? hk)).weight_nonneg, ?_, ?_, ?_⟩
      · intro hweight i
        refine card_drawn (hfiltered l) ?_ hk i
        exact (totalWeight_pos_iff (hfiltered l)).2 ⟨c, List.mem_of_getElem? hk, hweight⟩
      · intro hzero hsome roll hdrawn
        have hpos := (totalWeight_pos_iff (hfiltered l)).2 hsome
        -- the sector of a weight that is zero is empty
        obtain ⟨c', hc', hle, hltw⟩ := (Wheel.walk_eq_some_iff
          (fun c hc => (hfiltered l c hc).weight_nonneg)
          (Int.emod_nonneg roll.int63n hpos.ne')).1
            ((drawn_eq_iff (hfiltered l) hpos roll k).1 hdrawn)
        obtain rfl : c = c' := Option.some.inj (hk.symm.trans hc')
        omega
      · intro hzero v
        refine card_drawn_even ?_ (List.getElem?_eq_some_iff.1 hk).1 v
        rw [totalWeight_pos_iff (hfiltered l)]
        rintro ⟨c', hc', hpos⟩
        exact hpos.ne' (hzero c' hc')

/-- Two keys of one level: one too dear to have a weight, one with the weight 7. -/
def twoKeys : Routable where
  channelKeys _ _ _ :=
    [⟨1, 11, 0, 5, some 3, 0, none, "sk-first"⟩, ⟨2, 12, 1, 5, some 1, 7, none, "sk-second"⟩]
  upstreamKeys _ _ _ := []

theorem selectChannelByRoutingKey_drawn_twoKeys :
    (selectChannelByRoutingKey ⟨fun _ => 1000, id⟩ twoKeys ·
      [none, some ⟨3, .keyChannel, .enabled, -2, true⟩] "vip" "gpt-5" 1) = fun _ => none := by
  funext roll
  have hfits : ∀ channel, some channel ∈
      [none, some ⟨3, .keyChannel, .enabled, -2, true⟩] → Fits channel := by
    intro channel hchannel
    obtain rfl : channel = ⟨3, .keyChannel, .enabled, -2, true⟩ := by simpa using hchannel
    decide
  have hspec := selectChannelByRoutingKey_drawn ⟨fun _ => 1000, id⟩ twoKeys
    [none, some ⟨3, .keyChannel, .enabled, -2, true⟩] "vip" "gpt-5" 1 hfits
  exact (hspec.1 roll).2 (Or.inr (by decide))

/-! ### The candidates of `Select` -/

/-- What the retries of a request look at. -/
def RoutingKeyRouteCandidate.toCandidate (c : RoutingKeyRouteCandidate) : Candidate :=
  ⟨c.channel.id, c.key.keyId, c.key.effectivePriority, c.key.weight⟩

/-- The same of a channel that has been selected. -/
def ChannelCopy.toCandidate (s : ChannelCopy) : Candidate :=
  ⟨s.channel.id, s.selectedRoutingKey.keyId, s.selectedRoutingKey.effectivePriority,
    s.selectedRoutingKey.weight⟩

theorem walkWeights_toCandidate (value : ℤ) (filtered : List RoutingKeyRouteCandidate) :
    walkWeights value (filtered.map RoutingKeyRouteCandidate.toCandidate) =
      ((Wheel.walk RoutingKeyRouteCandidate.weight value filtered).bind (filtered[·]?)).map
        RoutingKeyRouteCandidate.toCandidate := by
  induction filtered generalizing value with
  | nil => rfl
  | cons c cs ih =>
    have hweight : c.toCandidate.weight = c.weight := rfl
    rw [map_cons, walkWeights, Wheel.walk, hweight]
    split_ifs with hlt
    · rfl
    · rw [ih]
      cases Wheel.walk RoutingKeyRouteCandidate.weight (value - c.weight) cs <;> rfl

theorem totalWeight_toCandidate (filtered : List RoutingKeyRouteCandidate) :
    NexusTok.totalWeight (filtered.map RoutingKeyRouteCandidate.toCandidate) =
      totalWeight filtered := by
  induction filtered with
  | nil => rfl
  | cons c cs ih =>
    have hcons : NexusTok.totalWeight ((c :: cs).map RoutingKeyRouteCandidate.toCandidate) =
        (if c.weight ≤ 0 then 0 else c.weight) +
          NexusTok.totalWeight (cs.map RoutingKeyRouteCandidate.toCandidate) :=
      sum_cons
    rw [hcons, ih]
    rfl

theorem drawCandidate_toCandidate (roll : Roll) (filtered : List RoutingKeyRouteCandidate) :
    drawCandidate roll (filtered.map RoutingKeyRouteCandidate.toCandidate) =
      (filtered[drawn roll filtered]?).map RoutingKeyRouteCandidate.toCandidate := by
  simp only [drawCandidate, drawn, totalWeight_toCandidate, walkWeights_toCandidate,
    length_map, getElem?_map]
  split_ifs with hpos
  · cases hwalk : Wheel.walk RoutingKeyRouteCandidate.weight
      (roll.int63n % totalWeight filtered) filtered with
    | none => rfl
    | some k =>
      have hk := getElem?_eq_getElem (Wheel.lt_length_of_walk hwalk)
      simp only [Option.bind_some, Option.getD_some, hk, Option.map_some]
  · rfl

/-- **The selection of `Select`**, with all that goes with a key. -/
theorem selectChannelByRoutingKey_candidate (env : Env) (routable : Routable) (roll : Roll)
    (channels : List (Option Channel)) (group modelName : String) (retry : ℤ) :
    (selectChannelByRoutingKey env routable roll channels group modelName retry).map
        ChannelCopy.toCandidate =
      NexusTok.selectChannelByRoutingKey roll
        ((routingCandidatesForChannels env routable channels group modelName).map
          RoutingKeyRouteCandidate.toCandidate) retry := by
  have hlevels : NexusTok.sortedUniqueEffectivePriorities
      ((routingCandidatesForChannels env routable channels group modelName).map
        RoutingKeyRouteCandidate.toCandidate) = sortedUniqueEffectivePriorities
          (routingCandidatesForChannels env routable channels group modelName) := by
    rw [NexusTok.sortedUniqueEffectivePriorities, map_map]
    rfl
  by_cases hlt : (max retry 0).toNat < (sortedUniqueEffectivePriorities
      (routingCandidatesForChannels env routable channels group modelName)).length
  · have htarget := getElem?_eq_getElem hlt
    have hne : routingCandidatesForChannels env routable channels group modelName ≠ [] := by
      intro hnil
      rw [hnil] at hlt
      exact absurd hlt (Nat.not_lt_zero _)
    rw [selectChannelByRoutingKey_at roll htarget, NexusTok.selectChannelByRoutingKey,
      if_neg (map_eq_nil_iff.not.2 hne), hlevels]
    simp only [htarget, filter_map]
    exact (Option.map_map _ _ _).trans (drawCandidate_toCandidate roll _).symm
  · have hpast := not_lt.1 hlt
    rw [selectChannelByRoutingKey_past roll hpast, NexusTok.selectChannelByRoutingKey, hlevels,
      getElem?_eq_none hpast]
    split_ifs <;> rfl

end NexusTok.Routing.Draw
