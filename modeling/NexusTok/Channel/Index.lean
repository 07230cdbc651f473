import NexusTok.Channel.Mirrored
import NexusTok.Routing.Mapping

/-!
# The index of channels

`InitChannelCache` builds an index of the enabled channels by group and model.  First it makes a map
for each group: those of the rows of `abilities`, and those of the enabled channels, trimmed.  Then
it goes through the items of the group text of each channel as they are, and writes the channel into
the map of the item, for each of its models.  There may be no such map, and a write to it panics.

Key channels have a row of `abilities` for each item, as it is, so they have their maps; platform
sites have no rows.

* `grouped_run` : after any operations, the items of a key channel with a model have rows.
* `initChannelCache_eq_some_iff`, `initChannelCache_mem` : when the index is built, and what is in it.
* `initChannelCache_indexes` : when every channel is found under each of its groups.
-/

namespace NexusTok.Channels

open List Function Table

open Routing (Source)

/-! ### The index -/

/-- What the index depends on beside `channels` and `abilities`. -/
structure Surroundings where
  codec : Mapping.Codec
  baseModelName : String → String
  routingMatchModelName : String → String
  /-- `GetModelMapping`, by the id of a channel. -/
  modelMapping : ℤ → String
  /-- The channel has an account whose snapshot is usable. -/
  usable : ℤ → Bool

def uniqueModelNames (models : List String) : List String :=
  firsts id [] ((models.map trimSpace).filter fun modelName => decide (modelName ≠ ""))

variable (sur : Surroundings)

/-- `resolveChannelUpstreamModelName` of a channel, with as many moves as it takes. -/
def Surroundings.resolve (channelId : ℤ) (modelName : String) : String :=
  (Mapping.resolveChannelUpstreamModelName sur.codec sur.baseModelName
    (Mapping.entryCount sur.codec (sur.modelMapping channelId)) (sur.modelMapping channelId)
    modelName).getD modelName

/-- `platformSiteRoutingModels` of a platform site: its models, and the names mapped to one. -/
def platformSiteRoutingModels (channel : Channel) : List String :=
  let models := uniqueModelNames channel.getModels
  let sources := (Mapping.parseChannelModelMappingForRouting sur.codec
    (sur.modelMapping channel.id)).map Prod.fst
  let mapped := sources.filter fun source =>
    let target := sur.resolve channel.id source
    decide (target ∈ models ∨
      sur.routingMatchModelName target ∈ models.map sur.routingMatchModelName)
  uniqueModelNames (models ++ mapped)

def indexedModels (channel : Channel) : List String :=
  if channel.upstreamKind = .platformSite then platformSiteRoutingModels sur channel
  else channel.getModels

/-- The channel is enabled, and active if it is a platform site. -/
def Live (channel : Channel) : Prop :=
  channel.status = enabled ∧ (channel.upstreamKind = .platformSite → sur.usable channel.id = true)

instance (channel : Channel) : Decidable (Live sur channel) := inferInstanceAs (Decidable (_ ∧ _))

/-- The items of the group text of a channel. -/
def Channel.items (channel : Channel) : List String := split ',' channel.group

/-- The keys of `groups`. -/
def groupNames (st : Store) : List String :=
  (st.abilities.map fun a => a.group) ++
    (st.channels.filter fun ch => decide (Live sur ch)).flatMap fun ch =>
      (ch.items.map trimSpace).filter fun group => decide (group ≠ "")

/-- `newGroup2model2channels`: a map for some groups, with channels by model. -/
abbrev Index := String → Option (String → List ℤ)

/-- Append a channel; `none` when there is no map, and the write panics. -/
def Index.write (index : Index) (group model : String) (channelId : ℤ) : Option Index :=
  match index group with
  | none => none
  | some models =>
    some (Function.update index group
      (some (Function.update models model (models model ++ [channelId]))))

/-- The loops that fill the index. -/
def fill (channels : List Channel) (index : Index) : Option Index :=
  channels.foldlM (fun index channel =>
    if Live sur channel then
      channel.items.foldlM (fun index group =>
        (indexedModels sur channel).foldlM (fun index model =>
          index.write group model channel.id) index) index
    else some index) index

/-- The channels of a list by falling priority.  `sort.Slice` leaves equal ones in any order. -/
def sortByPriority (channels : List Channel) (ids : List ℤ) : List ℤ :=
  let priority := fun channelId : ℤ =>
    ((Table.get (fun ch : Channel => ch.id) channelId channels).bind Channel.priority).getD 0
  ids.insertionSort fun a b => priority a ≥ priority b

/-- `InitChannelCache`, with the memory cache enabled; `none` when it panics. -/
def initChannelCache (st : Store) : Option Index :=
  let names := groupNames sur st
  let index : Index := fun group => if group ∈ names then some fun _ => [] else none
  (fill sur st.channels index).map fun index group =>
    (index group).map fun models model => sortByPriority st.channels (models model)

/-! ### What the loops write -/

def Index.Has (index : Index) (group model : String) (channelId : ℤ) : Prop :=
  ∃ models, index group = some models ∧ channelId ∈ models model

/-- **A piece of the loops**: the maps it needs, without which it panics, and what it writes. -/
structure Piece (f : Index → Option Index) (need : String → Prop)
    (writes : String → String → ℤ → Prop) : Prop where
  none_iff : ∀ index, f index = none ↔ ∃ group, need group ∧ index group = none
  maps : ∀ index index', f index = some index' → ∀ group, index' group = none ↔ index group = none
  has : ∀ index index', f index = some index' → ∀ group model channelId,
    index'.Has group model channelId ↔
      index.Has group model channelId ∨ writes group model channelId

theorem has_update {index : Index} {group model : String} {models : String → List ℤ}
    (hmap : index group = some models) (channelId : ℤ) (group' model' : String) (channelId' : ℤ) :
    Index.Has (Function.update index group
      (some (Function.update models model (models model ++ [channelId])))) group' model' channelId' ↔
      index.Has group' model' channelId' ∨
        group' = group ∧ model' = model ∧ channelId' = channelId := by
  by_cases hgroup : group' = group
  · subst hgroup
    by_cases hmodel : model' = model
    · subst hmodel
      simp [Index.Has, hmap]
    · simp [Index.Has, hmap, hmodel]
  · simp [Index.Has, hgroup]

theorem piece_write (group model : String) (channelId : ℤ) :
    Piece (fun index => index.write group model channelId) (· = group) fun group' model' channelId' =>
      group' = group ∧ model' = model ∧ channelId' = channelId := by
  refine ⟨fun index => ?_, fun index index' h => ?_, fun index index' h => ?_⟩
  · cases hmap : index group with
    | none | some => simp [Index.write, hmap]
  · rcases hmap : index group with _ | models
    · simp [Index.write, hmap] at h
    simp only [Index.write, hmap, Option.some.injEq] at h
    intro group'
    rw [← h]
    by_cases hgroup : group' = group
    · simp [hgroup, hmap]
    · rw [update_of_ne hgroup]
  · rcases hmap : index group with _ | models
    · simp [Index.write, hmap] at h
    simp only [Index.write, hmap, Option.some.injEq] at h
    rw [← h]
    exact has_update hmap channelId

theorem piece_pure : Piece some (fun _ => False) fun _ _ _ => False := by
  refine ⟨fun index => by simp, fun index index' h => ?_, fun index index' h => ?_⟩
  · rw [Option.some.inj h]
    exact fun _ => Iff.rfl
  · rw [Option.some.inj h]
    exact fun _ _ _ => (or_false _).symm.to_iff

/-- **A loop of pieces is a piece.** -/
theorem piece_foldlM {β : Type} {f : Index → β → Option Index} {need : β → String → Prop}
    {writes : β → String → String → ℤ → Prop} (l : List β)
    (h : ∀ b ∈ l, Piece (fun index => f index b) (need b) (writes b)) :
    Piece (fun index => l.foldlM f index) (fun group => ∃ b ∈ l, need b group)
      fun group model channelId => ∃ b ∈ l, writes b group model channelId := by
  induction l with
  | nil =>
    refine ⟨fun index => ?_, fun index index' h => ?_, fun index index' h => ?_⟩
    · simp [List.foldlM]
    · rw [show index = index' from Option.some.inj h]
      exact fun _ => Iff.rfl
    · rw [show index = index' from Option.some.inj h]
      simp
  | cons b l ih =>
    have hfirst := h b mem_cons_self
    have hrest := ih fun b hb => h b (mem_cons_of_mem _ hb)
    refine ⟨fun index => ?_, fun index index' hfold => ?_, fun index index' hfold => ?_⟩
    · rw [foldlM_cons]
      cases hb : f index b with
      | none =>
        obtain ⟨group, hneed, hmap⟩ := (hfirst.none_iff index).1 hb
        exact iff_of_true rfl ⟨group, ⟨b, mem_cons_self, hneed⟩, hmap⟩
      | some index₁ =>
        have hall : ∀ group, need b group → index group ≠ none := by
          intro group hneed hmap
          rw [(hfirst.none_iff index).2 ⟨group, hneed, hmap⟩] at hb
          cases hb
        show l.foldlM f index₁ = none ↔ _
        rw [hrest.none_iff]
        constructor
        · rintro ⟨group, ⟨b', hb', hneed⟩, hmap⟩
          exact ⟨group, ⟨b', mem_cons_of_mem _ hb', hneed⟩,
            (hfirst.maps index index₁ hb group).1 hmap⟩
        · rintro ⟨group, ⟨b', hb', hneed⟩, hmap⟩
          rcases mem_cons.1 hb' with rfl | hb'
          · exact absurd hmap (hall group hneed)
          · exact ⟨group, ⟨b', hb', hneed⟩, (hfirst.maps index index₁ hb group).2 hmap⟩
    · rw [foldlM_cons, Option.bind_eq_bind, Option.bind_eq_some_iff] at hfold
      obtain ⟨index₁, hb, hl⟩ := hfold
      intro group
      rw [hrest.maps index₁ index' hl, hfirst.maps index index₁ hb]
    · rw [foldlM_cons, Option.bind_eq_bind, Option.bind_eq_some_iff] at hfold
      obtain ⟨index₁, hb, hl⟩ := hfold
      intro group model channelId
      rw [hrest.has index₁ index' hl, hfirst.has index index₁ hb]
      simp only [mem_cons, exists_eq_or_imp, or_assoc]

theorem Piece.congr {f : Index → Option Index} {need need' : String → Prop}
    {writes writes' : String → String → ℤ → Prop} (h : Piece f need writes)
    (hneed : ∀ group, need group ↔ need' group)
    (hwrites : ∀ group model channelId,
      writes group model channelId ↔ writes' group model channelId) : Piece f need' writes' := by
  refine ⟨fun index => ?_, h.maps, fun index index' hf group model channelId => ?_⟩
  · rw [h.none_iff]
    exact exists_congr fun group => and_congr_left fun _ => hneed group
  · rw [h.has index index' hf, hwrites]

/-- The loops panic on an item of a live channel with a model for which there is no map, and write a
live channel under each of its items, for each of its models. -/
theorem piece_fill (channels : List Channel) :
    Piece (fill sur channels)
      (fun group => ∃ ch ∈ channels, Live sur ch ∧ indexedModels sur ch ≠ [] ∧ group ∈ ch.items)
      fun group model channelId => ∃ ch ∈ channels, Live sur ch ∧ group ∈ ch.items ∧
        model ∈ indexedModels sur ch ∧ channelId = ch.id := by
  unfold fill
  refine piece_foldlM channels fun ch _ => ?_
  by_cases hlive : Live sur ch
  · simp only [hlive, true_and]
    have hloop := piece_foldlM ch.items fun group _ =>
      piece_foldlM (indexedModels sur ch) fun model _ => piece_write group model ch.id
    refine hloop.congr (fun group => ?_) fun group model channelId => ?_
    · constructor
      · rintro ⟨item, hitem, model, hmodel, rfl⟩
        exact ⟨ne_nil_of_mem hmodel, hitem⟩
      · rintro ⟨hmodels, hitem⟩
        obtain ⟨model, hmodel⟩ := exists_mem_of_ne_nil _ hmodels
        exact ⟨group, hitem, model, hmodel, rfl⟩
    · constructor
      · rintro ⟨item, hitem, model', hmodel, rfl, rfl, rfl⟩
        exact ⟨hitem, hmodel, rfl⟩
      · rintro ⟨hitem, hmodel, rfl⟩
        exact ⟨group, hitem, model, hmodel, rfl, rfl, rfl⟩
  · simp only [hlive, false_and]
    exact piece_pure

variable {sur} {st : Store}

theorem mem_groupNames {group : String} :
    group ∈ groupNames sur st ↔ (∃ a ∈ st.abilities, a.group = group) ∨
      ∃ ch ∈ st.channels, Live sur ch ∧ ∃ item ∈ ch.items, trimSpace item = group ∧ group ≠ "" := by
  rw [groupNames, mem_append, mem_map, mem_flatMap]
  refine or_congr_right ?_
  simp only [mem_filter, mem_map, decide_eq_true_iff]
  constructor
  · rintro ⟨ch, ⟨hch, hlive⟩, ⟨item, hitem, htrim⟩, hne⟩
    exact ⟨ch, hch, hlive, item, hitem, htrim, hne⟩
  · rintro ⟨ch, hch, hlive, item, hitem, htrim, hne⟩
    exact ⟨ch, ⟨hch, hlive⟩, ⟨item, hitem, htrim⟩, hne⟩

/-- **The index is built** when there is a map for each item of a live channel with a model. -/
theorem initChannelCache_isSome_iff :
    (∃ index, initChannelCache sur st = some index) ↔
      ∀ ch ∈ st.channels, Live sur ch → indexedModels sur ch ≠ [] → ∀ group ∈ ch.items,
        group ∈ groupNames sur st := by
  have hpiece := piece_fill sur st.channels
  have hnone := hpiece.none_iff fun group =>
    if group ∈ groupNames sur st then some fun _ => [] else none
  rw [← Option.ne_none_iff_exists', initChannelCache, Ne, Option.map_eq_none_iff, hnone]
  constructor
  · intro h ch hch hlive hmodels group hitem
    by_contra hmissing
    exact h ⟨group, ⟨ch, hch, hlive, hmodels, hitem⟩, if_neg hmissing⟩
  · rintro h ⟨group, ⟨ch, hch, hlive, hmodels, hitem⟩, hmap⟩
    rw [if_pos (h ch hch hlive hmodels group hitem)] at hmap
    cases hmap

theorem initChannelCache_has {index : Index} (h : initChannelCache sur st = some index)
    (group model : String) (channelId : ℤ) :
    index.Has group model channelId ↔ ∃ ch ∈ st.channels, Live sur ch ∧ group ∈ ch.items ∧
      model ∈ indexedModels sur ch ∧ channelId = ch.id := by
  obtain ⟨filled, hfill, rfl⟩ := Option.map_eq_some_iff.1 h
  have hsorted : Index.Has (fun group => (filled group).map fun models model =>
      sortByPriority st.channels (models model)) group model channelId ↔
        filled.Has group model channelId := by
    constructor
    · rintro ⟨models, hmodels, hmem⟩
      obtain ⟨models', hmodels', rfl⟩ := Option.map_eq_some_iff.1 hmodels
      exact ⟨models', hmodels', (mem_insertionSort _).1 hmem⟩
    · rintro ⟨models, hmodels, hmem⟩
      refine ⟨_, Option.map_eq_some_iff.2 ⟨models, hmodels, rfl⟩, ?_⟩
      exact (mem_insertionSort _).2 hmem
  rw [hsorted, (piece_fill sur st.channels).has _ _ hfill]
  refine or_iff_right ?_
  rintro ⟨models, hmodels, hmem⟩
  -- the maps are empty at first
  by_cases hgroup : group ∈ groupNames sur st
  · simp only [if_pos hgroup, Option.some.injEq] at hmodels
    rw [← hmodels] at hmem
    cases hmem
  · simp only [if_neg hgroup, reduceCtorEq] at hmodels

/-! ### Rows for the items of key channels -/

/-- The channel and the group of a row. -/
def Ability.place (a : Ability) : ℤ × String := (a.channelId, a.group)

/-- A key channel with a model has a row for each of its items. -/
def Covered (abilities : List Ability) (channel : Channel) : Prop :=
  channel.upstreamKind ≠ .platformSite → channel.getModels ≠ [] →
    ∀ group ∈ channel.items, (channel.id, group) ∈ abilities.map Ability.place

/-- **The items of key channels have rows.** -/
structure Grouped (st : Store) : Prop where
  ids : (st.channels.map fun ch => ch.id).Nodup
  covered : ∀ ch ∈ st.channels, Covered st.abilities ch

section Rows

variable {abilities abilities' : List Ability} {channel : Channel}

theorem Covered.mono (h : Covered abilities channel)
    (hplaces : ∀ group, (channel.id, group) ∈ abilities.map Ability.place →
      (channel.id, group) ∈ abilities'.map Ability.place) : Covered abilities' channel :=
  fun hkind hmodels group hgroup => hplaces group (h hkind hmodels group hgroup)

/-- What is kept of the beginning of a list is kept. -/
theorem mem_firsts_append {α : Type} {key : α → String} {l l' : List α} {seen : List String} {a : α}
    (h : a ∈ firsts key seen l) : a ∈ firsts key seen (l ++ l') := by
  induction l generalizing seen with
  | nil => cases h
  | cons b l ih =>
    rw [cons_append]
    simp only [firsts] at h ⊢
    split_ifs at h ⊢ with hseen
    · exact ih h
    · rcases mem_cons.1 h with rfl | h
      · exact mem_cons_self
      · exact mem_cons_of_mem _ (ih h)

/-- **Each group has a row**, if there is a model: of the pairs with the first model, no two of
different groups read the same. -/
theorem abilityRows_place {models : List String} (hmodels : models ≠ []) {group : String}
    (hgroup : group ∈ channel.items) :
    (channel.id, group) ∈ (channel.abilityRows models).map Ability.place := by
  obtain ⟨model, models, rfl⟩ := exists_cons_of_ne_nil hmodels
  have hpair : (group, model) ∈ channel.items.map fun group => (group, model) :=
    mem_map.2 ⟨group, hgroup, rfl⟩
  obtain ⟨hmem, -, hall⟩ := @firsts_spec _ pairKey (channel.items.map fun group => (group, model)) []
  obtain ⟨e, he, hkey⟩ := hall _ hpair not_mem_nil
  obtain ⟨group', -, rfl⟩ := mem_map.1 (hmem e he).1
  have hsame : group' = group := by
    have hlist := congrArg String.toList hkey
    simp only [pairKey, String.toList_append, append_cancel_right_eq] at hlist
    exact String.toList_inj.1 hlist
  rw [← hsame]
  refine mem_map.2 ⟨channel.ability (group', model), mem_map.2 ⟨_, ?_, rfl⟩, rfl⟩
  exact mem_firsts_append he

theorem mem_insertAll {rows : List Ability} {p : ℤ × String} :
    p ∈ (rows.foldl insertAbility abilities).map Ability.place ↔
      p ∈ abilities.map Ability.place ∨ p ∈ rows.map Ability.place := by
  induction rows generalizing abilities with
  | nil => simp
  | cons a rows ih =>
    rw [foldl_cons, ih, map_cons, mem_cons, ← or_assoc]
    refine or_congr_left ?_
    rw [insertAbility]
    split_ifs with hmem
    · -- the row that is there has the same place
      refine (or_iff_left_of_imp ?_).symm
      rintro rfl
      obtain ⟨a', ha', hsame⟩ := mem_map.1 hmem
      have hplace := Prod.mk.inj hsame
      refine mem_map.2 ⟨a', ha', ?_⟩
      rw [Ability.place, Ability.place, hplace.1, (Prod.mk.inj hplace.2).2]
    · rw [map_append, mem_append, map_singleton, mem_singleton]

theorem covered_addAbilities : Covered (addAbilities abilities channel) channel := by
  intro hkind _ group hgroup
  rw [addAbilities, if_neg hkind, mem_insertAll]
  refine Or.inr (abilityRows_place ?_ hgroup)
  exact map_eq_nil_iff.not.2 (splitOn_ne_nil _ _)

theorem covered_updateAbilities : Covered (updateAbilities abilities channel) channel := by
  intro hkind hmodels group hgroup
  simp only [updateAbilities, if_neg hkind]
  rw [mem_insertAll]
  exact Or.inr (abilityRows_place hmodels hgroup)

theorem Covered.addAbilities (h : Covered abilities channel) (added : Channel) :
    Covered (addAbilities abilities added) channel := by
  refine h.mono fun group hgroup => ?_
  rw [Channels.addAbilities]
  split_ifs
  · exact hgroup
  · exact mem_insertAll.2 (Or.inl hgroup)

theorem Covered.updateAbilities (h : Covered abilities channel) {rebuilt : Channel}
    (hne : channel.id ≠ rebuilt.id) : Covered (updateAbilities abilities rebuilt) channel := by
  refine h.mono fun group hgroup => ?_
  have hother : (channel.id, group) ∈
      (abilities.filter fun a => decide (a.channelId ≠ rebuilt.id)).map Ability.place := by
    obtain ⟨a, ha, hplace⟩ := mem_map.1 hgroup
    refine mem_map.2 ⟨a, mem_filter.2 ⟨ha, decide_eq_true ?_⟩, hplace⟩
    rw [show a.channelId = channel.id from congrArg Prod.fst hplace]
    exact hne
  simp only [Channels.updateAbilities]
  split_ifs
  · exact hother
  · exact mem_insertAll.2 (Or.inl hother)

end Rows

/-! ### What the operations keep -/

/-- What rows depend on. -/
def Channel.shape (channel : Channel) : ℤ × Source × String × String :=
  (channel.id, channel.upstreamKind, channel.models, channel.group)

variable {abilities : List Ability} {channel ch : Channel}

theorem Covered.of_shape {channel' : Channel}
    (h : Covered abilities channel) (hshape : channel'.shape = channel.shape) :
    Covered abilities channel' := by
  obtain ⟨hid, hrest⟩ := Prod.mk.inj hshape
  obtain ⟨hkind, hrest⟩ := Prod.mk.inj hrest
  obtain ⟨hmodels, hgroup⟩ := Prod.mk.inj hrest
  simp only [Covered, Channel.items, Channel.getModels, hid, hkind, hmodels, hgroup]
  exact h

/-- The tables agree on what rows depend on, and on their places. -/
structure SameShape (st st' : Store) : Prop where
  channels : st'.channels.map Channel.shape = st.channels.map Channel.shape
  abilities : st'.abilities.map Ability.place = st.abilities.map Ability.place

section Kept

variable {cfg : Config} {st st' st'' : Store}

theorem SameShape.refl : SameShape st st := ⟨rfl, rfl⟩

theorem SameShape.trans (h : SameShape st st') (h' : SameShape st' st'') : SameShape st st'' :=
  ⟨h'.channels.trans h.channels, h'.abilities.trans h.abilities⟩

theorem SameService.sameShape (h : SameService st st') : SameShape st st' := by
  have hcomp : (fun ch : Channel => ch.shape) ∘ Channel.strip = Channel.shape := rfl
  refine ⟨?_, by rw [h.abilities]⟩
  have hshapes := congrArg (List.map fun ch : Channel => ch.shape) h.channels
  rwa [map_map, map_map, hcomp] at hshapes

theorem Grouped.of_shape (h : Grouped st) (hsame : SameShape st st') : Grouped st' := by
  have hids : st'.channels.map (fun ch => ch.id) = st.channels.map fun ch => ch.id := by
    have hfirst := congrArg (List.map Prod.fst) hsame.channels
    rwa [map_map, map_map] at hfirst
  refine ⟨hids ▸ h.ids, fun ch hch => ?_⟩
  have hshape : ch.shape ∈ st.channels.map Channel.shape :=
    hsame.channels ▸ mem_map_of_mem hch
  obtain ⟨ch', hch', heq⟩ := mem_map.1 hshape
  refine ((h.covered ch' hch').of_shape heq.symm).mono fun group hgroup => ?_
  rwa [hsame.abilities]

/-- Some channels change, in what rows do not depend on, and the columns of some rows. -/
theorem sameShape_update {p : Channel → Bool} {q : Ability → Bool} {f : Channel → Channel}
    {g : Ability → Ability} (hf : ∀ ch, (f ch).shape = ch.shape) (hg : ∀ a, (g a).place = a.place) :
    SameShape st { st with
      channels := Table.update p f st.channels
      abilities := Table.update q g st.abilities } := by
  refine ⟨?_, ?_⟩
  · show (List.map _ st.channels).map _ = _
    rw [map_map]
    refine map_congr_left fun ch _ => ?_
    simp only [comp_apply]
    split_ifs
    · exact hf ch
    · rfl
  · show (List.map _ st.abilities).map _ = _
    rw [map_map]
    refine map_congr_left fun a _ => ?_
    simp only [comp_apply]
    split_ifs
    · exact hg a
    · rfl

theorem sameShape_updateChannel {f : Channel → Channel} (hf : ∀ ch, (f ch).shape = ch.shape)
    (channelId : ℤ) : SameShape st (st.updateChannel channelId f) := by
  refine ⟨?_, rfl⟩
  show (Table.modify _ channelId f st.channels).map Channel.shape = _
  rw [Table.modify, map_map]
  refine map_congr_left fun ch _ => ?_
  simp only [comp_apply]
  split_ifs
  · exact hf ch
  · rfl

theorem sameShape_abilityStatus (channelId : ℤ) (status : Bool) :
    SameShape st { st with abilities := updateAbilityStatus st.abilities channelId status } := by
  refine ⟨rfl, ?_⟩
  show (List.map _ st.abilities).map _ = _
  rw [map_map]
  refine map_congr_left fun a _ => ?_
  simp only [comp_apply]
  split_ifs <;> rfl

theorem sameShape_updateChannelStatus (cached : Bool) (channelId : ℤ) (usingKey : String)
    (status : ℤ) (reason : String) (now : ℤ) :
    SameShape st (updateChannelStatus cfg cached channelId usingKey status reason now st) := by
  have hsave : ∀ channel : Channel, SameShape st (st.saveStatusState channel) :=
    fun channel => sameShape_updateChannel (f := fun ch => { ch with
      status := channel.status
      statusInfo := channel.statusInfo
      channelInfo := if channel.channelInfo.isMultiKey then channel.channelInfo
        else ch.channelInfo }) (fun _ => rfl) channel.id
  rw [updateChannelStatus]
  by_cases hcached : cached = true
  · rw [if_pos hcached]
    exact .refl
  rw [if_neg hcached]
  cases hchannel : st.channel channelId with
  | none => exact .refl
  | some channel =>
    simp only
    split_ifs
    · exact .refl
    · exact (hsave _).trans (sameShape_abilityStatus channelId _)
    · exact hsave _
    · exact (hsave _).trans (sameShape_abilityStatus channelId _)

theorem sameShape_setStatusByTag (tag : String) (status : ℤ) :
    SameShape st (setStatusByTag tag status st) :=
  sameShape_update (f := fun ch => { ch with status := status })
    (g := fun a => { a with enabled := decide (status = enabled) }) (fun _ => rfl) fun _ => rfl

variable {infoFails : Bool}

theorem sameShape_updateRoutingKeyStatus {channelId : ℤ} {routingKeyId : ℕ} {status now : ℤ}
    {reason : String} {routable : Bool}
    (h : updateRoutingKeyStatus infoFails routable channelId routingKeyId status reason now st =
      some st') : SameShape st st' := by
  have hkeys : SameService st (st.setKeyStatus channelId routingKeyId status reason now) :=
    ⟨rfl, rfl⟩
  obtain ⟨st₁, hst₁, hst'⟩ := updateRoutingKeyStatus_cases h
  have h₁ : SameShape st st₁ := by
    rcases hst₁ with rfl | rfl
    · exact .refl
    · exact (hkeys.trans (sameService_summary channelId infoFails)).sameShape
  rcases hst' with rfl | ⟨s, info, rfl⟩
  · exact h₁
  · exact h₁.trans ((sameShape_updateChannel (f := fun ch => { ch with
      status := s, statusInfo := info.or ch.statusInfo }) (fun _ => rfl) channelId).trans
        (sameShape_abilityStatus channelId _))

/-! ### Building rows -/

theorem covered_foldl_add {added : List Channel}
    (h : Covered abilities ch ∨ ch ∈ added) : Covered (added.foldl addAbilities abilities) ch := by
  induction added generalizing abilities with
  | nil => exact h.resolve_right not_mem_nil
  | cons first added ih =>
    rw [foldl_cons]
    rcases h with h | h
    · exact ih (Or.inl (h.addAbilities first))
    · rcases mem_cons.1 h with rfl | h
      · exact ih (Or.inl covered_addAbilities)
      · exact ih (Or.inr h)

theorem covered_foldl_update {rebuilt : List Channel} (hids : (rebuilt.map fun ch => ch.id).Nodup)
    (h : Covered abilities ch ∧ ch.id ∉ rebuilt.map (fun ch => ch.id) ∨ ch ∈ rebuilt) :
    Covered (rebuilt.foldl updateAbilities abilities) ch := by
  induction rebuilt generalizing abilities with
  | nil => exact (h.resolve_right not_mem_nil).1
  | cons first rebuilt ih =>
    obtain ⟨hfirst, hids'⟩ := nodup_cons.1 hids
    rw [foldl_cons]
    rcases h with ⟨h, hnot⟩ | h
    · rw [map_cons, mem_cons, not_or] at hnot
      exact ih hids' (Or.inl ⟨h.updateAbilities hnot.1, hnot.2⟩)
    · rcases mem_cons.1 h with rfl | h
      · exact ih hids' (Or.inl ⟨covered_updateAbilities, hfirst⟩)
      · exact ih hids' (Or.inr h)

section

variable (h : Grouped st)
include h

/-- **Channels are inserted**, and rows added for them. -/
theorem Grouped.insertAll (added : List Channel) (infoFails : Bool)
    (hids : ((st.channels ++ added).map fun ch => ch.id).Nodup) :
    Grouped (added.foldl (fun st channel => syncChannelKeysFromLegacyField cfg infoFails channel
      { st with abilities := addAbilities st.abilities channel })
      { st with channels := st.channels ++ added }) := by
  obtain ⟨hchannels, habilities⟩ := insertLoop cfg infoFails added
    { st with channels := st.channels ++ added }
  have hadded : Grouped { st with
      channels := st.channels ++ added
      abilities := added.foldl addAbilities st.abilities } := by
    refine ⟨hids, fun ch hch => covered_foldl_add ?_⟩
    exact (mem_append.1 hch).imp_left (h.covered ch)
  have hservice : SameService { st with
      channels := st.channels ++ added
      abilities := added.foldl addAbilities st.abilities }
      (added.foldl (fun st channel => syncChannelKeysFromLegacyField cfg infoFails channel
        { st with abilities := addAbilities st.abilities channel })
        { st with channels := st.channels ++ added }) := ⟨hchannels, habilities⟩
  exact hadded.of_shape hservice.sameShape

theorem Grouped.insert
    (hinsert : insertChannel cfg infoFails channel st = some st') : Grouped st' := by
  simp only [insertChannel] at hinsert
  split_ifs at hinsert with htaken
  cases hinsert
  refine h.insertAll [channel.withDefaults] infoFails ?_
  rw [map_append]
  refine nodup_append.2 ⟨h.ids, nodup_singleton _, ?_⟩
  rintro id hid id' hid' rfl
  rw [map_singleton, mem_singleton] at hid'
  exact htaken (hid' ▸ hid)

theorem Grouped.insertChunk {channels : List Channel}
    (hinsert : insertChunk cfg infoFails st channels = some st') : Grouped st' := by
  simp only [Channels.insertChunk] at hinsert
  split_ifs at hinsert with hids
  cases hinsert
  have hcomp : (fun ch : Channel => ch.id) ∘ Channel.withDefaults = fun ch => ch.id := rfl
  refine h.insertAll _ infoFails ?_
  rw [map_append, map_map, hcomp, ← map_append]
  exact hids

/-- **`BatchInsertChannels`** inserts chunk after chunk. -/
theorem Grouped.insertChunks {chunks : List (List Channel)}
    (hinsert : chunks.foldlM (Channels.insertChunk cfg infoFails) st = some st') : Grouped st' := by
  induction chunks generalizing st with
  | nil => exact Option.some.inj hinsert ▸ h
  | cons chs chunks ih =>
    rw [foldlM_cons] at hinsert
    obtain ⟨st₁, hfirst, hrest⟩ := Option.bind_eq_some_iff.1 hinsert
    exact ih (h.insertChunk hfirst) hrest

theorem Grouped.update (channelId : ℤ) (p : ChannelPatch) :
    Grouped (updateChannel cfg channelId p st) := by
  simp only [updateChannel]
  set q : ChannelPatch := { p with
    channelInfo := p.channelInfo.map fun info => info.recount cfg st channelId p.key } with hq
  have hids : ((st.updateChannel channelId fun ch => ch.patch q).channels.map
      fun ch => ch.id).Nodup := by
    show ((Table.modify _ _ _ st.channels).map _).Nodup
    rw [keys_modify fun ch _ => by assumption]
    exact h.ids
  refine ⟨hids, fun ch hch => ?_⟩
  have hrebuilt : (((st.updateChannel channelId fun ch => ch.patch q).channel channelId).getD
      (q.channel channelId)).id = channelId := by
    cases hchannel : (st.updateChannel channelId fun ch => ch.patch q).channel channelId with
    | none => rfl
    | some channel => exact get_key hchannel
  by_cases hid : ch.id = channelId
  · -- the rows of this channel are built anew
    have hfound : (st.updateChannel channelId fun ch => ch.patch q).channel ch.id = some ch :=
      get_of_mem hids hch
    rw [hid] at hfound
    rw [hfound]
    exact covered_updateAbilities
  · obtain ⟨ch', hch', rfl⟩ := mem_map.1 hch
    have hid' : ch'.id ≠ channelId := by
      intro hsame
      rw [if_pos hsame] at hid
      exact hid hsame
    rw [if_neg hid']
    refine (h.covered ch' hch').updateAbilities ?_
    rw [hrebuilt]
    exact hid'

/-- **A tag is edited** with models or groups. -/
theorem Grouped.editRows {tag : String} {newTag : Option String}
    {f : Channel → Channel} (hid : ∀ ch, (f ch).id = ch.id)
    (htag : ∀ ch, ch.tag = some tag → (f ch).tag = some (updatedTag tag newTag)) :
    Grouped { st.updateByTag tag f with
      abilities := ((st.updateByTag tag f).channels.filter fun ch =>
        decide (ch.tag = some (updatedTag tag newTag))).foldl updateAbilities st.abilities } := by
  have hids : (((st.updateByTag tag f).channels).map fun ch => ch.id).Nodup := by
    show ((Table.update _ f st.channels).map _).Nodup
    rw [update_keys hid]
    exact h.ids
  refine ⟨hids, fun ch hch => ?_⟩
  have hnodup := List.Sublist.nodup (List.Sublist.map (fun ch : Channel => ch.id)
    (filter_sublist (p := fun ch : Channel =>
      decide (ch.tag = some (updatedTag tag newTag))))) hids
  refine covered_foldl_update hnodup ?_
  by_cases htagged : ch.tag = some (updatedTag tag newTag)
  · exact Or.inr (mem_filter.2 ⟨hch, decide_eq_true htagged⟩)
  · refine Or.inl ⟨?_, fun hmem => ?_⟩
    · -- a channel without the tag has not been edited
      obtain ⟨ch', hch', ⟨hp, rfl⟩ | ⟨-, rfl⟩⟩ := mem_update hch
      · exact absurd (htag ch' (of_decide_eq_true hp)) htagged
      · exact h.covered ch hch'
    · obtain ⟨ch', hch', hsame⟩ := mem_map.1 hmem
      obtain ⟨hmem', htag'⟩ := mem_filter.1 hch'
      rw [inj_on_of_nodup_map hids hmem' hch hsame] at htag'
      exact htagged (of_decide_eq_true htag')

/-- **`EditChannelByTag`.** -/
theorem Grouped.editByTag (tag : String) (newTag models group : Option String)
    (priority : Option ℤ) (weight : Option ℕ) :
    Grouped (editChannelByTag tag newTag models group priority weight st) := by
  simp only [editChannelByTag]
  by_cases hrebuild : (tagPatch tag newTag models group priority weight).models ≠ "" ∨
      (tagPatch tag newTag models group priority weight).group ≠ ""
  · rw [if_pos hrebuild]
    exact h.editRows (fun _ => rfl) fun _ => patch_tag
  · rw [if_neg hrebuild]
    rw [not_or, not_not, not_not] at hrebuild
    refine h.of_shape (sameShape_update (fun ch => ?_) fun _ => rfl)
    simp only [Channel.shape, Channel.patch, hrebuild.1, hrebuild.2, if_true]
    rfl

/-- **All rows are built anew.** -/
theorem Grouped.fixAbility : Grouped { st with abilities := Channels.fixAbility st.channels } := by
  have hchunks : ∀ (chunks : List (List Channel)) (abilities : List Ability) (ch : Channel),
      (chunks.flatten.map fun ch => ch.id).Nodup →
      (Covered abilities ch ∧ ch.id ∉ chunks.flatten.map (fun ch => ch.id) ∨ ch ∈ chunks.flatten) →
      Covered (chunks.foldl (fun abilities channels => channels.foldl addAbilities
        (abilities.filter fun a => decide (a.channelId ∉ channels.map fun ch => ch.id)))
          abilities) ch := by
    intro chunks
    induction chunks with
    | nil => exact fun abilities ch _ hch => (hch.resolve_right not_mem_nil).1
    | cons channels chunks ih =>
      intro abilities ch hids hch
      rw [flatten_cons, map_append] at hids hch
      obtain ⟨hchannels, hrest, hdisjoint⟩ := nodup_append.1 hids
      rw [foldl_cons]
      refine ih _ _ hrest ?_
      rcases hch with ⟨hcovered, hnot⟩ | hch
      · -- the rows of another channel are kept
        rw [mem_append, not_or] at hnot
        refine Or.inl ⟨covered_foldl_add (Or.inl (hcovered.mono fun group hgroup => ?_)), hnot.2⟩
        obtain ⟨a, ha, hplace⟩ := mem_map.1 hgroup
        refine mem_map.2 ⟨a, mem_filter.2 ⟨ha, decide_eq_true ?_⟩, hplace⟩
        rw [show a.channelId = ch.id from congrArg Prod.fst hplace]
        exact hnot.1
      · rcases mem_append.1 hch with hch | hch
        · refine Or.inl ⟨covered_foldl_add (Or.inr hch), fun hmem => ?_⟩
          exact hdisjoint _ (mem_map_of_mem hch) _ hmem rfl
        · exact Or.inr hch
  have hflatten : (chunk 50 st.channels).flatten = st.channels :=
    chunkFrom_flatten 50 st.channels []
  refine ⟨h.ids, fun ch hch => ?_⟩
  refine hchunks (chunk 50 st.channels) [] ch ?_ (Or.inr ?_)
  · rw [hflatten]
    exact h.ids
  · rw [hflatten]
    exact hch

/-! ### Runs -/

/-- **Every operation** keeps the rows of key channels. -/
theorem Grouped.run {op : ChannelOp} (hrun : op.run cfg infoFails st = some st') : Grouped st' := by
  cases op with
  | insert channel => exact h.insert hrun
  | batchInsert channels => exact h.insertChunks hrun
  | update channelId p =>
    cases hrun
    exact h.update channelId p
  | updateStatus channelId usingKey status reason now cached =>
    cases hrun
    exact h.of_shape (sameShape_updateChannelStatus cached channelId usingKey status reason now)
  | enableByTag tag =>
    cases hrun
    exact h.of_shape (sameShape_setStatusByTag tag enabled)
  | disableByTag tag =>
    cases hrun
    exact h.of_shape (sameShape_setStatusByTag tag manuallyDisabled)
  | editByTag tag newTag models group priority weight =>
    cases hrun
    exact h.editByTag tag newTag models group priority weight
  | updateRoutingKeyStatus channelId routingKeyId status reason now routable =>
    exact h.of_shape (sameShape_updateRoutingKeyStatus hrun)
  | fixAbility =>
    cases hrun
    exact h.fixAbility

theorem Grouped.step (e : ChannelEvent) : Grouped (channelStep cfg st e) := by
  rw [channelStep]
  cases hrun : e.op.run cfg e.infoFails st with
  | none => exact h
  | some st' => exact h.run hrun

end

/-- **After any operations** the items of key channels have rows. -/
theorem grouped_run (cfg : Config) (es : List ChannelEvent) :
    Grouped (Machine.run (channelStep cfg) {} es) := by
  have hempty : Grouped ({} : Store) :=
    ⟨nodup_nil, fun _ h => absurd h not_mem_nil⟩
  have hstep : ∀ st e, Grouped st → Grouped (channelStep cfg st e) := fun _ e h => h.step e
  exact (Machine.Always.of_step hstep hempty es).run

end Kept

/-! ### The index after any operations -/

/-- **The group texts are in order**: the trimmed name of an item is an item, unless it is blank; and
an item of a platform site that is blank or has spaces around it is the group of some row. -/
def Tidy (sur : Surroundings) (st : Store) : Prop :=
  ∀ ch ∈ st.channels, Live sur ch → indexedModels sur ch ≠ [] →
    (∀ item ∈ ch.items, trimSpace item ≠ "" → trimSpace item ∈ ch.items) ∧
    (ch.upstreamKind = .platformSite → ∀ item ∈ ch.items,
      item = "" ∨ trimSpace item ≠ item → ∃ a ∈ st.abilities, a.group = item)

/-- The index is built, and every live channel is found under each of its trimmed groups, for each
of its models. -/
def Indexes (sur : Surroundings) (st : Store) : Prop :=
  ∃ index, initChannelCache sur st = some index ∧ ∀ ch ∈ st.channels, Live sur ch →
    ∀ item ∈ ch.items, trimSpace item ≠ "" → ∀ model ∈ indexedModels sur ch,
      index.Has (trimSpace item) model ch.id

theorem Tidy.mem_groupNames (h : Tidy sur st) (hgrouped : Grouped st)
    (hch : ch ∈ st.channels) (hlive : Live sur ch) (hmodels : indexedModels sur ch ≠ [])
    {item : String} (hitem : item ∈ ch.items) : item ∈ groupNames sur st := by
  rw [Channels.mem_groupNames]
  by_cases hkind : ch.upstreamKind = .platformSite
  · by_cases hodd : item = "" ∨ trimSpace item ≠ item
    · exact Or.inl ((h ch hch hlive hmodels).2 hkind item hitem hodd)
    · rw [not_or, not_not] at hodd
      exact Or.inr ⟨ch, hch, hlive, item, hitem, hodd.2, hodd.1⟩
  · rw [indexedModels, if_neg hkind] at hmodels
    obtain ⟨a, ha, hplace⟩ :=
      mem_map.1 (hgrouped.covered ch hch hkind hmodels item hitem)
    exact Or.inl ⟨a, ha, congrArg Prod.snd hplace⟩

theorem indexes_iff_tidy (hgrouped : Grouped st) : Indexes sur st ↔ Tidy sur st := by
  constructor
  · rintro ⟨index, hindex, hfound⟩ ch hch hlive hmodels
    refine ⟨fun item hitem hne => ?_, fun hkind item hitem hodd => ?_⟩
    · obtain ⟨model, hmodel⟩ := exists_mem_of_ne_nil _ hmodels
      obtain ⟨ch', hch', -, hitem', -, hid⟩ := (initChannelCache_has hindex _ _ _).1
        (hfound ch hch hlive item hitem hne model hmodel)
      rwa [inj_on_of_nodup_map hgrouped.ids hch hch' hid]
    · -- the map was made for a row, since names that are trimmed are not like this
      have hnames := initChannelCache_isSome_iff.1 ⟨index, hindex⟩ ch hch hlive hmodels item hitem
      rcases mem_groupNames.1 hnames with hrow | ⟨ch', -, -, item', -, htrim, hne⟩
      · exact hrow
      · rcases hodd with hempty | hpadded
        · exact absurd hempty hne
        · rw [← htrim, trimSpace_trimSpace] at hpadded
          exact absurd rfl hpadded
  · intro htidy
    obtain ⟨index, hindex⟩ := initChannelCache_isSome_iff.2
      fun ch hch hlive hmodels item hitem => htidy.mem_groupNames hgrouped hch hlive hmodels hitem
    refine ⟨index, hindex, fun ch hch hlive item hitem hne model hmodel => ?_⟩
    have hmodels : indexedModels sur ch ≠ [] := ne_nil_of_mem hmodel
    exact (initChannelCache_has hindex _ _ _).2
      ⟨ch, hch, hlive, (htidy ch hch hlive hmodels).1 item hitem hne, hmodel, rfl⟩

/-- **After any operations**, the index is built and every live channel is found in it, just when the
group texts are in order. -/
theorem initChannelCache_indexes (cfg : Config) (sur : Surroundings) (es : List ChannelEvent) :
    Indexes sur (Machine.run (channelStep cfg) {} es) ↔
      Tidy sur (Machine.run (channelStep cfg) {} es) :=
  indexes_iff_tidy (grouped_run cfg es)

/-- Surroundings without model mappings, where every platform site is active. -/
def plainSurroundings : Surroundings where
  codec := ⟨fun _ => none, fun h => by cases h⟩
  baseModelName := id
  routingMatchModelName := id
  modelMapping _ := ""
  usable _ := true

/-- A platform site is created with a space in its groups, and gets a model: there is no map for the
item with the space.  A key channel with the same groups is not found under the second. -/
theorem padded_group_panics :
    initChannelCache plainSurroundings (Machine.run (channelStep plainConfig) {}
        [{ op := .insert { taggedChannel 1 "" "vip, pro" none with
            upstreamKind := .platformSite, key := "" } },
          { op := .update 1 { models := "gpt-5" } }]) = none ∧
      ¬ ∀ (cfg : Config) (sur : Surroundings) (es : List ChannelEvent),
        Indexes sur (Machine.run (channelStep cfg) {} es) := by
  have hpanics : initChannelCache plainSurroundings (Machine.run (channelStep plainConfig) {}
      [{ op := .insert { taggedChannel 1 "" "vip, pro" none with
          upstreamKind := .platformSite, key := "" } },
        { op := .update 1 { models := "gpt-5" } }]) = none := by
    rw [← Option.isNone_iff_eq_none]
    decide
  refine ⟨hpanics, fun h => ?_⟩
  obtain ⟨index, hindex, -⟩ := h plainConfig plainSurroundings _
  rw [hpanics] at hindex
  cases hindex

end NexusTok.Channels
