import Mathlib.Data.List.Dedup
import NexusTok.Channel.Operations
import NexusTok.Machine.Run

/-!
# Abilities mirror the channels

`abilities` is the table that the channels determine: a row for each group and model of a key
channel, with the status, the priority, the weight and the tag of the channel.  An operation either
builds the rows of some channels anew, or changes the same columns in both tables.

The builders do not agree on all fields.  `AddAbilities` splits the models as they are, and
`UpdateAbilities` trims commas first; both take two pairs for one when they read the same joined by
a bar.  A weight of zero is not written to the rows of a tag.  `Faithful` excludes just these, and an
update of a channel that does not exist.

* `Mirrored` : what the operations keep.
* `derived_of_faithful` : over every run whose operations are faithful.
-/

namespace NexusTok.Channels

open List Table

/-! ### What is to hold -/

/-- The rows that a channel determines. -/
def Channel.derived (channel : Channel) : List Ability :=
  if channel.upstreamKind = .platformSite then []
  else (pairs (split ',' channel.models) (split ',' channel.group)).dedup.map channel.ability

/-- The table that the channels determine. -/
def derivedAbilities (channels : List Channel) : List Ability := channels.flatMap Channel.derived

/-- **The abilities are the derived ones**, and building them anew changes nothing. -/
def Derived (st : Store) : Prop :=
  st.abilities.Perm (derivedAbilities st.channels) ∧ (fixAbility st.channels).Perm st.abilities

instance (st : Store) : Decidable (Derived st) := inferInstanceAs (Decidable (_ ∧ _))

/-- No two pairs of a group and a model read the same when they are joined. -/
def Channel.Distinct (channel : Channel) : Prop :=
  ∀ e ∈ pairs (split ',' channel.models) (split ',' channel.group),
    ∀ e' ∈ pairs (split ',' channel.models) (split ',' channel.group),
      pairKey e = pairKey e' → e = e'

instance (channel : Channel) : Decidable channel.Distinct :=
  inferInstanceAs (Decidable (∀ _ ∈ _, ∀ _ ∈ _, _))

/-- The rows of the channel are the ones it determines, whoever builds them. -/
def Channel.Regular (channel : Channel) : Prop :=
  channel.upstreamKind = .platformSite ∨
    channel.Distinct ∧ (∀ model ∈ channel.getModels, model ∈ split ',' channel.models) ∧
      ∀ model ∈ split ',' channel.models, model ∈ channel.getModels

instance (channel : Channel) : Decidable channel.Regular := inferInstanceAs (Decidable (_ ∨ _))

/-- **The operations that keep the tables together.** -/
def Faithful (st : Store) : ChannelOp → Prop
  | .insert channel =>
    channel.upstreamKind = .platformSite ∨ channel.withDefaults.Distinct
  | .batchInsert channels => ∀ channel ∈ channels,
    channel.upstreamKind = .platformSite ∨ channel.withDefaults.Distinct
  | .update channelId p =>
    (∀ channel ∈ st.channel channelId, (channel.patch p).Regular) ∧
      ((st.channel channelId).isNone → p.upstreamKind = some .platformSite ∨ p.models = "")
  | .editByTag tag newTag models group priority weight =>
    let p := tagPatch tag newTag models group priority weight
    if p.models ≠ "" ∨ p.group ≠ "" then
      ∀ ch ∈ (st.updateByTag tag fun ch => ch.patch p).channels,
        ch.tag = some (updatedTag tag newTag) → ch.Regular
    else weight = some 0 → ∀ ch ∈ st.channels, ch.tag = some tag →
      ch.upstreamKind ≠ .platformSite → ch.weight.getD 0 = 0
  | _ => True

instance (st : Store) : (op : ChannelOp) → Decidable (Faithful st op)
  | .insert _ => inferInstanceAs (Decidable (_ ∨ _))
  | .batchInsert _ => inferInstanceAs (Decidable (∀ _ ∈ _, _ ∨ _))
  | .update _ _ => inferInstanceAs (Decidable (_ ∧ _))
  | .editByTag .. => inferInstanceAs (Decidable (ite _ _ _))
  | .updateStatus .. | .enableByTag _ | .disableByTag _ | .updateRoutingKeyStatus ..
  | .fixAbility => inferInstanceAs (Decidable True)

/-! ### Rows of one channel -/

/-- The channel serves the row. -/
def Channel.Serves (channel : Channel) (a : Ability) : Prop :=
  channel.upstreamKind ≠ .platformSite ∧ a.model ∈ split ',' channel.models ∧
    a.group ∈ split ',' channel.group ∧ a = channel.ability (a.group, a.model)

theorem mem_pairs {models groups : List String} {e : String × String} :
    e ∈ pairs models groups ↔ e.2 ∈ models ∧ e.1 ∈ groups := by
  simp only [pairs, mem_flatMap, mem_map]
  constructor
  · rintro ⟨model, hmodel, group, hgroup, rfl⟩
    exact ⟨hmodel, hgroup⟩
  · rintro ⟨hmodel, hgroup⟩
    exact ⟨e.2, hmodel, e.1, hgroup, rfl⟩

variable {channel : Channel}

theorem mem_map_ability {l : List (String × String)} {a : Ability} :
    a ∈ l.map channel.ability ↔ (a.group, a.model) ∈ l ∧ a = channel.ability (a.group, a.model) := by
  rw [mem_map]
  constructor
  · rintro ⟨e, he, rfl⟩
    exact ⟨he, rfl⟩
  · rintro ⟨hmem, ha⟩
    exact ⟨_, hmem, ha.symm⟩

theorem mem_derived {a : Ability} : a ∈ channel.derived ↔ channel.Serves a := by
  rw [Channel.derived, Channel.Serves]
  split_ifs with hkind
  · simp [hkind]
  · rw [mem_map_ability, mem_dedup, mem_pairs]
    simp only [Ne, hkind, not_false_eq_true, true_and, and_assoc]

theorem ability_refs (channel : Channel) {l : List (String × String)} (h : l.Nodup) :
    ((l.map channel.ability).map Ability.ref).Nodup := by
  rw [map_map]
  refine h.map fun e e' hsame => ?_
  have hpair := Prod.mk.inj hsame
  exact Prod.ext hpair.1 (Prod.mk.inj hpair.2).1

section Firsts

variable {α : Type} {key : α → String}

theorem firsts_spec (l : List α) (seen : List String) :
    (∀ a ∈ firsts key seen l, a ∈ l ∧ key a ∉ seen) ∧ (firsts key seen l).Nodup ∧
      ∀ a ∈ l, key a ∉ seen → ∃ a' ∈ firsts key seen l, key a' = key a := by
  induction l generalizing seen with
  | nil => exact ⟨fun a ha => absurd ha not_mem_nil, nodup_nil,
      fun a ha => absurd ha not_mem_nil⟩
  | cons first l ih =>
    simp only [firsts]
    split_ifs with hseen
    · obtain ⟨hmem, hnodup, hall⟩ := ih seen
      refine ⟨fun a ha => ⟨mem_cons_of_mem _ (hmem a ha).1, (hmem a ha).2⟩, hnodup, ?_⟩
      intro a ha hnot
      obtain rfl | ha := mem_cons.1 ha
      · exact absurd hseen hnot
      · exact hall a ha hnot
    · obtain ⟨hmem, hnodup, hall⟩ := ih (key first :: seen)
      refine ⟨?_, nodup_cons.2 ⟨?_, hnodup⟩, ?_⟩
      · intro a ha
        obtain rfl | ha := mem_cons.1 ha
        · exact ⟨mem_cons_self, hseen⟩
        · obtain ⟨hl, hnot⟩ := hmem a ha
          exact ⟨mem_cons_of_mem _ hl, fun h => hnot (mem_cons_of_mem _ h)⟩
      · exact fun hfirst => (hmem first hfirst).2 mem_cons_self
      · intro a ha hnot
        by_cases hsame : key a = key first
        · exact ⟨first, mem_cons_self, hsame.symm⟩
        · obtain rfl | ha := mem_cons.1 ha
          · exact absurd rfl hsame
          · obtain ⟨a', ha', hkey⟩ := hall a ha (by simp [hsame, hnot])
            exact ⟨a', mem_cons_of_mem _ ha', hkey⟩

/-- With distinct keys, nothing is lost. -/
theorem mem_firsts {l : List α} (hkey : ∀ a ∈ l, ∀ a' ∈ l, key a = key a' → a = a') {a : α} :
    a ∈ firsts key [] l ↔ a ∈ l := by
  obtain ⟨hmem, -, hall⟩ := @firsts_spec α key l []
  refine ⟨fun ha => (hmem a ha).1, fun ha => ?_⟩
  obtain ⟨a', ha', hsame⟩ := hall a ha not_mem_nil
  rw [← hkey a' (hmem a' ha').1 a ha hsame]
  exact ha'

end Firsts

/-- Two rows that do not conflict with those of a table are inserted. -/
theorem foldl_insertAbility {base rows : List Ability}
    (h : ((base ++ rows).map Ability.ref).Nodup) : rows.foldl insertAbility base = base ++ rows := by
  induction rows generalizing base with
  | nil => exact (append_nil base).symm
  | cons a rows ih =>
    have hfree : a.ref ∉ base.map Ability.ref := by
      rw [map_append, map_cons, nodup_append] at h
      exact fun hmem => h.2.2 _ hmem _ mem_cons_self rfl
    have hassoc : base ++ a :: rows = (base ++ [a]) ++ rows := by simp
    rw [hassoc] at h ⊢
    rw [foldl_cons, insertAbility, if_neg hfree]
    exact ih h

/-! ### What the operations keep -/

/-- **The tables mirror each other.**  The last field is for the builders, which tell pairs apart by
how they read when they are joined. -/
structure Mirrors (channels : List Channel) (abilities : List Ability) : Prop where
  ids : (channels.map fun ch => ch.id).Nodup
  refs : (abilities.map Ability.ref).Nodup
  rows : ∀ a, a ∈ abilities ↔ ∃ ch ∈ channels, ch.Serves a
  distinct : ∀ ch ∈ channels, ch.upstreamKind = .platformSite ∨ ch.Distinct

def Mirrored (st : Store) : Prop := Mirrors st.channels st.abilities

section Builders

variable {channels channels' : List Channel} {abilities abilities' : List Ability}

/-- The rows that are built for a channel, when no two pairs read the same. -/
theorem mem_abilityRows {models : List String} (hdistinct : channel.Distinct)
    (hmodels : ∀ model ∈ models, model ∈ split ',' channel.models) {a : Ability} :
    a ∈ channel.abilityRows models ↔ a.model ∈ models ∧ a.group ∈ split ',' channel.group ∧
      a = channel.ability (a.group, a.model) := by
  have hmem : ∀ e ∈ pairs models (split ',' channel.group),
      e ∈ pairs (split ',' channel.models) (split ',' channel.group) := by
    intro e he
    rw [mem_pairs] at he ⊢
    exact ⟨hmodels _ he.1, he.2⟩
  rw [Channel.abilityRows, mem_map_ability,
    mem_firsts fun e he e' he' => hdistinct e (hmem e he) e' (hmem e' he'), mem_pairs, and_assoc]

theorem abilityRows_refs (channel : Channel) (models : List String) :
    ((channel.abilityRows models).map Ability.ref).Nodup :=
  ability_refs channel (firsts_spec _ _).2.1

theorem abilityRows_channelId {models : List String} {a : Ability}
    (ha : a ∈ channel.abilityRows models) : a.channelId = channel.id := by
  obtain ⟨e, -, rfl⟩ := mem_map.1 ha
  rfl

/-- **The rows of a channel are inserted**, when there are none. -/
theorem foldl_abilityRows (models : List String) (hrefs : (abilities.map Ability.ref).Nodup)
    (hfree : ∀ a ∈ abilities, a.channelId ≠ channel.id) :
    (channel.abilityRows models).foldl insertAbility abilities =
        abilities ++ channel.abilityRows models ∧
      ((abilities ++ channel.abilityRows models).map Ability.ref).Nodup := by
  have hnodup : ((abilities ++ channel.abilityRows models).map Ability.ref).Nodup := by
    rw [map_append]
    refine nodup_append.2 ⟨hrefs, abilityRows_refs channel models, ?_⟩
    rintro r hr r' hr' rfl
    obtain ⟨a, ha, hsame⟩ := mem_map.1 hr
    obtain ⟨a', ha', rfl⟩ := mem_map.1 hr'
    refine hfree a ha ?_
    rw [← abilityRows_channelId ha']
    exact congrArg (fun r => r.2.2) hsame
  exact ⟨foldl_insertAbility hnodup, hnodup⟩

section

variable (hrefs : (abilities.map Ability.ref).Nodup)
include hrefs

theorem addAbilities_spec (hfree : ∀ a ∈ abilities, a.channelId ≠ channel.id)
    (hdistinct : channel.upstreamKind = .platformSite ∨ channel.Distinct) :
    ((addAbilities abilities channel).map Ability.ref).Nodup ∧
      ∀ a, a ∈ addAbilities abilities channel ↔ a ∈ abilities ∨ channel.Serves a := by
  rw [addAbilities]
  split_ifs with hkind
  · exact ⟨hrefs, fun a => by simp [Channel.Serves, hkind]⟩
  · obtain ⟨heq, hnodup⟩ := foldl_abilityRows (split ',' channel.models) hrefs hfree
    have hdistinct := hdistinct.resolve_left hkind
    rw [heq]
    refine ⟨hnodup, fun a => ?_⟩
    rw [mem_append, mem_abilityRows hdistinct fun _ h => h, Channel.Serves]
    simp only [Ne, hkind, not_false_eq_true, true_and]

theorem updateAbilities_spec (hregular : channel.Regular) :
    ((updateAbilities abilities channel).map Ability.ref).Nodup ∧
      ∀ a, a ∈ updateAbilities abilities channel ↔
        a ∈ abilities ∧ a.channelId ≠ channel.id ∨ channel.Serves a := by
  have hothers : ((abilities.filter fun a => decide (a.channelId ≠ channel.id)).map
      Ability.ref).Nodup := List.Sublist.nodup (List.Sublist.map _ filter_sublist) hrefs
  have hmem : ∀ a, a ∈ abilities.filter (fun a => decide (a.channelId ≠ channel.id)) ↔
      a ∈ abilities ∧ a.channelId ≠ channel.id := by
    intro a
    rw [mem_filter, decide_eq_true_iff]
  rw [updateAbilities]
  split_ifs with hkind
  · refine ⟨hothers, fun a => ?_⟩
    rw [hmem, Channel.Serves]
    simp [hkind]
  · obtain ⟨hdistinct, hmodels⟩ := hregular.resolve_left hkind
    obtain ⟨heq, hnodup⟩ := foldl_abilityRows channel.getModels hothers
      fun a ha => ((hmem a).1 ha).2
    rw [heq]
    refine ⟨hnodup, fun a => ?_⟩
    have hsame : a.model ∈ channel.getModels ↔ a.model ∈ split ',' channel.models :=
      ⟨hmodels.1 _, hmodels.2 _⟩
    rw [mem_append, hmem, mem_abilityRows hdistinct hmodels.1, hsame, Channel.Serves]
    simp only [Ne, hkind, not_false_eq_true, true_and]

/-- The rows of several channels are built anew. -/
theorem foldl_updateAbilities {rebuilt : List Channel} (hregular : ∀ ch ∈ rebuilt, ch.Regular)
    (hids : (rebuilt.map fun ch => ch.id).Nodup) :
    ((rebuilt.foldl updateAbilities abilities).map Ability.ref).Nodup ∧
      ∀ a, a ∈ rebuilt.foldl updateAbilities abilities ↔
        a ∈ abilities ∧ a.channelId ∉ rebuilt.map (fun ch => ch.id) ∨
          ∃ ch ∈ rebuilt, ch.Serves a := by
  induction rebuilt generalizing abilities with
  | nil => exact ⟨hrefs, fun a => by simp⟩
  | cons channel rebuilt ih =>
    obtain ⟨hfirst, hids'⟩ := nodup_cons.1 hids
    obtain ⟨hrefs', hrows⟩ := updateAbilities_spec hrefs (hregular channel mem_cons_self)
    obtain ⟨hrefs'', hrows'⟩ :=
      ih hrefs' (fun ch hch => hregular ch (mem_cons_of_mem _ hch)) hids'
    refine ⟨hrefs'', fun a => ?_⟩
    rw [foldl_cons, hrows', hrows, map_cons, mem_cons, not_or]
    constructor
    · rintro (⟨⟨ha, hne⟩ | hserves, hnot⟩ | ⟨ch, hch, hserves⟩)
      · exact .inl ⟨ha, hne, hnot⟩
      · exact .inr ⟨channel, mem_cons_self, hserves⟩
      · exact .inr ⟨ch, mem_cons_of_mem _ hch, hserves⟩
    · rintro (⟨ha, hne, hnot⟩ | ⟨ch, hch, hserves⟩)
      · exact .inl ⟨.inl ⟨ha, hne⟩, hnot⟩
      · obtain rfl | hch := mem_cons.1 hch
        · -- its rows are not touched again
          refine .inl ⟨.inr hserves, ?_⟩
          rw [hserves.2.2.2]
          exact hfirst
        · exact .inr ⟨ch, hch, hserves⟩

theorem foldl_addAbilities {added : List Channel}
    (hfree : ∀ a ∈ abilities, a.channelId ∉ added.map fun ch => ch.id)
    (hids : (added.map fun ch => ch.id).Nodup)
    (hdistinct : ∀ ch ∈ added, ch.upstreamKind = .platformSite ∨ ch.Distinct) :
    ((added.foldl addAbilities abilities).map Ability.ref).Nodup ∧
      ∀ a, a ∈ added.foldl addAbilities abilities ↔ a ∈ abilities ∨ ∃ ch ∈ added, ch.Serves a := by
  induction added generalizing abilities with
  | nil => exact ⟨hrefs, fun a => by simp⟩
  | cons channel added ih =>
    obtain ⟨hfirst, hids'⟩ := nodup_cons.1 hids
    obtain ⟨hrefs', hrows⟩ := addAbilities_spec hrefs
      (fun a ha hsame => hfree a ha (by rw [hsame]; exact mem_cons_self))
      (hdistinct channel mem_cons_self)
    have hfree' : ∀ a ∈ addAbilities abilities channel, a.channelId ∉ added.map fun ch => ch.id := by
      intro a ha hmem
      obtain ha | hserves := (hrows a).1 ha
      · exact hfree a ha (mem_cons_of_mem _ hmem)
      · rw [hserves.2.2.2] at hmem
        exact hfirst hmem
    obtain ⟨hrefs'', hrows'⟩ :=
      ih hrefs' hfree' hids' fun ch hch => hdistinct ch (mem_cons_of_mem _ hch)
    refine ⟨hrefs'', fun a => ?_⟩
    rw [foldl_cons, hrows', hrows, or_assoc]
    simp only [mem_cons, exists_eq_or_imp]

end

theorem chunkFrom_flatten {α : Type} (size : ℕ) (as filled : List α) :
    (chunkFrom size as filled).flatten = filled.reverse ++ as := by
  induction as generalizing filled with
  | nil =>
    rw [chunkFrom]
    split_ifs with hempty
    · rw [isEmpty_iff.1 hempty]
      rfl
    · simp
  | cons a as ih =>
    rw [chunkFrom]
    split_ifs
    · rw [flatten_cons, ih]
      simp
    · rw [ih]
      simp

theorem foldl_chunks (chunks : List (List Channel)) (hrefs : (abilities.map Ability.ref).Nodup)
    (hfree : ∀ a ∈ abilities, a.channelId ∉ chunks.flatten.map fun ch => ch.id)
    (hids : (chunks.flatten.map fun ch => ch.id).Nodup)
    (hdistinct : ∀ ch ∈ chunks.flatten, ch.upstreamKind = .platformSite ∨ ch.Distinct) :
    let result := chunks.foldl
      (fun abilities channels => channels.foldl addAbilities
        (abilities.filter fun a => decide (a.channelId ∉ channels.map fun ch => ch.id))) abilities
    (result.map Ability.ref).Nodup ∧
      ∀ a, a ∈ result ↔ a ∈ abilities ∨ ∃ ch ∈ chunks.flatten, ch.Serves a := by
  induction chunks generalizing abilities with
  | nil => exact ⟨hrefs, fun a => by simp⟩
  | cons channels chunks ih =>
    rw [flatten_cons, map_append] at hids
    obtain ⟨hchannels, hchunks, hdisjoint⟩ := nodup_append.1 hids
    -- there is nothing to delete
    have hkept : (abilities.filter fun a => decide (a.channelId ∉ channels.map fun ch => ch.id)) =
        abilities := by
      refine filter_eq_self.2 fun a ha => decide_eq_true fun hmem => hfree a ha ?_
      rw [flatten_cons, map_append]
      exact mem_append_left _ hmem
    obtain ⟨hrefs', hrows⟩ := foldl_addAbilities hrefs
      (fun a ha hmem => hfree a ha (by
        rw [flatten_cons, map_append]
        exact mem_append_left _ hmem))
      hchannels fun ch hch => hdistinct ch (by
        rw [flatten_cons]
        exact mem_append_left _ hch)
    obtain ⟨hrefs'', hrows'⟩ := ih hrefs' (fun a ha hmem => by
      obtain ha | ⟨ch, hch, hserves⟩ := (hrows a).1 ha
      · refine hfree a ha ?_
        rw [flatten_cons, map_append]
        exact mem_append_right _ hmem
      · rw [hserves.2.2.2] at hmem
        exact hdisjoint _ (mem_map_of_mem hch) _ hmem rfl) hchunks
      fun ch hch => hdistinct ch (by
        rw [flatten_cons]
        exact mem_append_right _ hch)
    simp only [foldl_cons, hkept]
    refine ⟨hrefs'', fun a => ?_⟩
    rw [hrows', hrows, or_assoc, flatten_cons]
    simp only [mem_append, or_and_right, exists_or]

section

variable (h : Mirrors channels abilities)
include h

/-- **All rows are built anew.** -/
theorem Mirrors.fixAbility : Mirrors channels (fixAbility channels) := by
  have hflatten : (chunk 50 channels).flatten = channels := chunkFrom_flatten 50 channels []
  have hnone : (([] : List Ability).map Ability.ref).Nodup := nodup_nil
  obtain ⟨hrefs, hrows⟩ := foldl_chunks (chunk 50 channels) hnone
    (fun a ha => absurd ha not_mem_nil) (by rw [hflatten]; exact h.ids)
    (by rw [hflatten]; exact h.distinct)
  refine ⟨h.ids, hrefs, fun a => ?_, h.distinct⟩
  have hmem := hrows a
  rw [hflatten] at hmem
  exact hmem.trans ⟨fun h => h.resolve_left not_mem_nil, .inr⟩

/-- **Some channels change, and their rows are built anew.** -/
theorem Mirrors.rebuild (rebuilt : List Channel) (hids : (channels'.map fun ch => ch.id).Nodup)
    (hregular : ∀ ch ∈ rebuilt, ch.Regular) (hnodup : (rebuilt.map fun ch => ch.id).Nodup)
    (hrebuilt : ∀ ch ∈ rebuilt, ch ∈ channels')
    (hkept : ∀ ch, ch.id ∉ rebuilt.map (fun ch => ch.id) → (ch ∈ channels' ↔ ch ∈ channels)) :
    Mirrors channels' (rebuilt.foldl updateAbilities abilities) := by
  obtain ⟨hrefs, hrows⟩ := foldl_updateAbilities h.refs hregular hnodup
  -- a channel that has the id of one that is rebuilt is that channel
  have hin : ∀ ch ∈ channels', ch.id ∈ rebuilt.map (fun ch => ch.id) → ch ∈ rebuilt := by
    intro ch hch hid
    obtain ⟨ch', hch', hsame⟩ := mem_map.1 hid
    rw [← inj_on_of_nodup_map hids (hrebuilt ch' hch') hch hsame]
    exact hch'
  refine ⟨hids, hrefs, fun a => ?_, fun ch hch => ?_⟩
  · rw [hrows, h.rows]
    constructor
    · rintro (⟨⟨ch, hch, hserves⟩, hnot⟩ | ⟨ch, hch, hserves⟩)
      · refine ⟨ch, (hkept ch ?_).2 hch, hserves⟩
        rw [hserves.2.2.2] at hnot
        exact hnot
      · exact ⟨ch, hrebuilt ch hch, hserves⟩
    · rintro ⟨ch, hch, hserves⟩
      by_cases hid : ch.id ∈ rebuilt.map fun ch => ch.id
      · exact .inr ⟨ch, hin ch hch hid, hserves⟩
      · refine .inl ⟨⟨ch, (hkept ch hid).1 hch, hserves⟩, ?_⟩
        rw [hserves.2.2.2]
        exact hid
  · by_cases hid : ch.id ∈ rebuilt.map fun ch => ch.id
    · exact (hregular ch (hin ch hch hid)).imp_right And.left
    · exact h.distinct ch ((hkept ch hid).1 hch)

/-- **The same columns change in both tables.** -/
theorem Mirrors.patch {f : Channel → Channel}
    {g : Ability → Ability} (hid : ∀ ch, (f ch).id = ch.id)
    (hmodels : ∀ ch, (f ch).models = ch.models) (hgroup : ∀ ch, (f ch).group = ch.group)
    (hkind : ∀ ch, (f ch).upstreamKind = ch.upstreamKind) (href : ∀ a, (g a).ref = a.ref)
    (hserves : ∀ ch ∈ channels, ∀ a, ch.Serves a → g a = (f ch).ability (a.group, a.model)) :
    Mirrors (channels.map f) (abilities.map g) := by
  have hgroupModel : ∀ a, (g a).group = a.group ∧ (g a).model = a.model := by
    intro a
    have hpair := Prod.mk.inj (href a)
    exact ⟨hpair.1, (Prod.mk.inj hpair.2).1⟩
  refine ⟨?_, ?_, fun a => ?_, fun ch hch => ?_⟩
  · have hcomp : (fun ch : Channel => ch.id) ∘ f = fun ch => ch.id := funext hid
    rw [map_map, hcomp]
    exact h.ids
  · have hcomp : Ability.ref ∘ g = Ability.ref := funext href
    rw [map_map, hcomp]
    exact h.refs
  · constructor
    · intro hmem
      obtain ⟨a, ha, rfl⟩ := mem_map.1 hmem
      obtain ⟨ch, hch, hch'⟩ := (h.rows a).1 ha
      refine ⟨f ch, mem_map_of_mem hch, ?_, ?_, ?_, ?_⟩
      · rw [hkind]
        exact hch'.1
      · rw [hmodels, (hgroupModel a).2]
        exact hch'.2.1
      · rw [hgroup, (hgroupModel a).1]
        exact hch'.2.2.1
      · rw [(hgroupModel a).1, (hgroupModel a).2]
        exact hserves ch hch a hch'
    · rintro ⟨ch', hch', hkind', hmodel, hgroup', ha⟩
      obtain ⟨ch, hch, rfl⟩ := mem_map.1 hch'
      rw [hkind] at hkind'
      rw [hmodels] at hmodel
      rw [hgroup] at hgroup'
      -- the row of the channel before the change becomes this row
      have hold : ch.Serves (ch.ability (a.group, a.model)) := ⟨hkind', hmodel, hgroup', rfl⟩
      rw [ha]
      refine mem_map.2 ⟨_, (h.rows _).2 ⟨ch, hch, hold⟩, ?_⟩
      exact hserves ch hch _ hold
  · obtain ⟨ch, hmem, rfl⟩ := mem_map.1 hch
    have hdistinct := h.distinct ch hmem
    simp only [Channel.Distinct, hkind, hmodels, hgroup] at hdistinct ⊢
    exact hdistinct

/-- **What mirrors the channels is derived from them.** -/
theorem Mirrors.perm_derived : abilities.Perm (derivedAbilities channels) := by
  have hnodup : (derivedAbilities channels).Nodup := by
    refine nodup_flatMap.2 ⟨fun ch _ => ?_, ?_⟩
    · rw [Channel.derived]
      split_ifs
      · exact nodup_nil
      · exact List.Nodup.of_map _ (ability_refs ch (nodup_dedup _))
    · refine (pairwise_map.1 h.ids).imp fun {ch ch'} hne a ha ha' => hne ?_
      have hid := (mem_derived.1 ha).2.2.2
      have hid' := (mem_derived.1 ha').2.2.2
      have hsame : (a.channelId : ℤ) = ch.id := by rw [hid]; rfl
      have hsame' : (a.channelId : ℤ) = ch'.id := by rw [hid']; rfl
      exact hsame.symm.trans hsame'
  refine (perm_ext_iff_of_nodup (List.Nodup.of_map _ h.refs) hnodup).2 fun a => ?_
  rw [h.rows, derivedAbilities, mem_flatMap]
  simp only [mem_derived]

/-- The channel without what abilities do not depend on. -/
def Channel.strip (channel : Channel) : Channel := { channel with key := "", channelInfo := {} }

/-- Channels that differ only in what abilities do not depend on. -/
theorem Mirrors.of_strip (hstrip : channels'.map Channel.strip = channels.map Channel.strip) :
    Mirrors channels' abilities := by
  have hserves : ∀ {ch ch' : Channel}, ch.strip = ch'.strip → ∀ a, ch.Serves a ↔ ch'.Serves a := by
    intro ch ch' hsame a
    show ch.strip.Serves a ↔ ch'.strip.Serves a
    rw [hsame]
  have hmem : ∀ {l l' : List Channel}, l.map Channel.strip = l'.map Channel.strip →
      ∀ ch ∈ l, ∃ ch' ∈ l', ch'.strip = ch.strip := by
    intro l l' hsame ch hch
    have hin : ch.strip ∈ l'.map Channel.strip := hsame ▸ mem_map_of_mem hch
    exact mem_map.1 hin
  have hids : channels'.map (fun ch => ch.id) = channels.map fun ch => ch.id := by
    have hcomp := congrArg (List.map fun ch : Channel => ch.id) hstrip
    rw [map_map, map_map] at hcomp
    exact hcomp
  refine ⟨hids ▸ h.ids, h.refs, fun a => ?_, fun ch hch => ?_⟩
  · rw [h.rows]
    constructor
    · rintro ⟨ch, hch, ha⟩
      obtain ⟨ch', hch', hsame⟩ := hmem hstrip.symm ch hch
      exact ⟨ch', hch', (hserves hsame a).2 ha⟩
    · rintro ⟨ch, hch, ha⟩
      obtain ⟨ch', hch', hsame⟩ := hmem hstrip ch hch
      exact ⟨ch', hch', (hserves hsame a).2 ha⟩
  · obtain ⟨ch', hch', hsame⟩ := hmem hstrip ch hch
    have hdistinct := h.distinct ch' hch'
    show ch.strip.upstreamKind = .platformSite ∨ ch.strip.Distinct
    rw [← hsame]
    exact hdistinct

end

end Builders

/-! ### Operations on keys -/

/-- The abilities, and what they depend on, are the same. -/
structure SameService (st st' : Store) : Prop where
  channels : st'.channels.map Channel.strip = st.channels.map Channel.strip
  abilities : st'.abilities = st.abilities

section Operations

variable {cfg : Config} {st st' st'' : Store}

theorem SameService.refl : SameService st st := ⟨rfl, rfl⟩

theorem SameService.trans (h : SameService st st') (h' : SameService st' st'') :
    SameService st st'' :=
  ⟨h'.channels.trans h.channels, h'.abilities.trans h.abilities⟩

theorem SameService.mirrored (h : SameService st st') (hmirrored : Mirrored st) : Mirrored st' := by
  rw [Mirrored, h.abilities]
  exact Mirrors.of_strip hmirrored h.channels

theorem sameService_updateChannel {f : Channel → Channel} (hf : ∀ ch, (f ch).strip = ch.strip)
    (channelId : ℤ) : SameService st (st.updateChannel channelId f) := by
  refine ⟨?_, rfl⟩
  show (Table.modify _ channelId f st.channels).map Channel.strip = _
  rw [Table.modify, map_map]
  refine map_congr_left fun ch _ => ?_
  simp only [Function.comp_apply]
  split_ifs
  · exact hf ch
  · rfl

theorem sameService_summary (channelId : ℤ) (infoFails : Bool) :
    SameService st (updateChannelKeySummary st channelId infoFails) :=
  sameService_updateChannel
    (f := fun ch => { ch with
      channelInfo := (st.infoOf channelId infoFails).summary (st.loadChannelKeys channelId)
      key := "" }) (fun _ => rfl) channelId

theorem sameService_clearKey (channelId : ℤ) : SameService st (st.clearKey channelId) :=
  sameService_updateChannel (f := fun ch => { ch with key := "" }) (fun _ => rfl) channelId

theorem sameService_create (channel : Channel) (secret : String) (keyIndex : ℕ) (status : ℤ)
    (reason : String) (disabledTime : ℤ) :
    SameService st (createChannelKey cfg st channel secret keyIndex status reason disabledTime) := by
  simp only [createChannelKey]
  split_ifs <;> exact ⟨rfl, rfl⟩

/-- **The keys of a new channel** are no matter of its abilities. -/
theorem sameService_sync (cfg : Config) (st : Store) (channel : Channel) (infoFails : Bool) :
    SameService st (syncChannelKeysFromLegacyField cfg infoFails channel st) := by
  simp only [syncChannelKeysFromLegacyField]
  split_ifs
  · exact .refl
  · exact sameService_clearKey channel.id
  · have hloop : ∀ (l : List (String × ℕ)) (st : Store), SameService st (l.foldl
        (fun st e =>
          let saved := channel.channelInfo.saved e.2
          createChannelKey cfg st channel e.1 e.2 saved.1 saved.2.1 saved.2.2) st) := by
      intro l
      induction l with
      | nil => exact fun st => .refl
      | cons e l ih => exact fun st => (sameService_create ..).trans (ih _)
    exact (hloop _ st).trans ((sameService_summary channel.id infoFails).trans
      (sameService_clearKey channel.id))

/-! ### Operations on channels -/

/-- **The status of one channel** changes, and that of its abilities. -/
theorem Mirrored.setStatus (h : Mirrored st) (channelId status : ℤ)
    (statusInfo : Channel → Option (String × ℤ)) (info : Channel → ChannelInfo) :
    Mirrored { st.updateChannel channelId fun ch => { ch with
        status := status, statusInfo := statusInfo ch, channelInfo := info ch } with
      abilities := updateAbilityStatus st.abilities channelId (decide (status = enabled)) } := by
  refine Mirrors.patch
    (f := fun ch => if ch.id = channelId then { ch with
      status := status, statusInfo := statusInfo ch, channelInfo := info ch } else ch)
    (g := fun a => if decide (a.channelId = channelId) = true then
      { a with enabled := decide (status = enabled) } else a) h ?_ ?_ ?_ ?_ ?_ ?_
  · intro ch
    split_ifs <;> rfl
  · intro ch
    split_ifs <;> rfl
  · intro ch
    split_ifs <;> rfl
  · intro ch
    split_ifs <;> rfl
  · intro a
    split_ifs <;> rfl
  · intro ch hch a hserves
    rw [hserves.2.2.2]
    by_cases hid : ch.id = channelId
    · simp only [Channel.ability, hid, decide_true, if_true]
    · simp only [Channel.ability, hid, decide_false, Bool.false_eq_true, if_false]

/-- **The channels of a tag** change, and their abilities. -/
theorem Mirrored.updateByTag (h : Mirrored st) (tag : String) {f : Channel → Channel}
    {g : Ability → Ability} (hid : ∀ ch, (f ch).id = ch.id)
    (hmodels : ∀ ch, (f ch).models = ch.models) (hgroup : ∀ ch, (f ch).group = ch.group)
    (hkind : ∀ ch, (f ch).upstreamKind = ch.upstreamKind) (href : ∀ a, (g a).ref = a.ref)
    (hserves : ∀ ch ∈ st.channels, ch.tag = some tag → ch.upstreamKind ≠ .platformSite →
      ∀ e, g (ch.ability e) = (f ch).ability e) :
    Mirrored { st.updateByTag tag f with
      abilities := Table.update (fun a => decide (a.tag = some tag)) g st.abilities } := by
  refine Mirrors.patch
    (f := fun ch => if decide (ch.tag = some tag) = true then f ch else ch)
    (g := fun a => if decide (a.tag = some tag) = true then g a else a) h ?_ ?_ ?_ ?_ ?_ ?_
  · intro ch
    split_ifs
    · exact hid ch
    · rfl
  · intro ch
    split_ifs
    · exact hmodels ch
    · rfl
  · intro ch
    split_ifs
    · exact hgroup ch
    · rfl
  · intro ch
    split_ifs
    · exact hkind ch
    · rfl
  · intro a
    split_ifs
    · exact href a
    · rfl
  · intro ch hch a ha
    -- the row has the tag of the channel
    have htag : a.tag = ch.tag := by
      rw [ha.2.2.2]
      rfl
    rw [htag]
    split_ifs with htagged
    · conv_lhs => rw [ha.2.2.2]
      exact hserves ch hch (of_decide_eq_true htagged) ha.1 _
    · exact ha.2.2.2

theorem Mirrored.setStatusByTag (h : Mirrored st) (tag : String) (status : ℤ) :
    Mirrored (setStatusByTag tag status st) :=
  h.updateByTag tag (f := fun ch => { ch with status := status })
    (g := fun a => { a with enabled := decide (status = enabled) }) (fun _ => rfl) (fun _ => rfl)
    (fun _ => rfl) (fun _ => rfl) (fun _ => rfl) fun _ _ _ _ _ => rfl

variable {tag reason : String} {newTag models group : Option String}

/-- **A tag is edited** without models and groups. -/
theorem Mirrored.editColumns (h : Mirrored st) {priority : Option ℤ} {weight : Option ℕ}
    (hmodels : models.getD "" = "") (hgroup : group.getD "" = "")
    (hweight : weight = some 0 → ∀ ch ∈ st.channels, ch.tag = some tag →
      ch.upstreamKind ≠ .platformSite → ch.weight.getD 0 = 0) :
    Mirrored { st.updateByTag tag fun ch => ch.patch (tagPatch tag newTag models group priority
        weight) with
      abilities := updateAbilityByTag st.abilities tag newTag priority weight } := by
  refine h.updateByTag tag (fun _ => rfl) (fun ch => ?_) (fun ch => ?_) (fun _ => rfl)
    (fun _ => rfl) fun ch hch htag hkind e => ?_
  · simp only [Channel.patch, tagPatch, hmodels, if_true]
  · simp only [Channel.patch, tagPatch, hgroup, if_true]
  · have htags : newTag.or ch.tag = (if newTag = some tag then none else newTag).or ch.tag := by
      split_ifs with hsame
      · rw [hsame, htag]
        rfl
      · rfl
    have hpriorities : priority.getD (ch.priority.getD 0) = (priority.or ch.priority).getD 0 := by
      cases priority <;> rfl
    have hweights : (if weight.getD 0 = 0 then ch.weight.getD 0 else weight.getD 0) =
        (weight.or ch.weight).getD 0 := by
      cases weight with
      | none => rfl
      | some w =>
        -- a weight of zero is not written, so it must be there already
        cases w with
        | zero =>
          show ch.weight.getD 0 = 0
          exact hweight rfl ch hch htag hkind
        | succ w => rfl
    simp only [Channel.ability, Channel.patch, tagPatch, htags, hpriorities, hweights, if_true]

theorem patch_tag {priority : Option ℤ}
    {weight : Option ℕ} {ch : Channel} (htag : ch.tag = some tag) :
    (ch.patch (tagPatch tag newTag models group priority weight)).tag =
      some (updatedTag tag newTag) := by
  show (if newTag = some tag then none else newTag).or ch.tag = some (newTag.getD tag)
  split_ifs with hsame
  · rw [hsame, htag]
    rfl
  · cases newTag with
    | none => exact htag
    | some t => rfl

/-- **A tag is edited** with models or groups: the rows of its channels are built anew. -/
theorem Mirrored.editRows (h : Mirrored st) {f : Channel → Channel} (hid : ∀ ch, (f ch).id = ch.id)
    (htag : ∀ ch, ch.tag = some tag → (f ch).tag = some (updatedTag tag newTag))
    (hregular : ∀ ch ∈ (st.updateByTag tag f).channels, ch.tag = some (updatedTag tag newTag) →
      ch.Regular) :
    Mirrored { st.updateByTag tag f with
      abilities := ((st.updateByTag tag f).channels.filter fun ch =>
        decide (ch.tag = some (updatedTag tag newTag))).foldl updateAbilities st.abilities } := by
  have hids : (((st.updateByTag tag f).channels).map fun ch => ch.id).Nodup := by
    show ((Table.update _ f st.channels).map _).Nodup
    rw [update_keys hid]
    exact h.ids
  refine Mirrors.rebuild h _ hids (fun ch hch => ?_) ?_ (fun ch hch => mem_of_mem_filter hch)
    fun ch hnot => ?_
  · obtain ⟨hmem, htagged⟩ := mem_filter.1 hch
    exact hregular ch hmem (of_decide_eq_true htagged)
  · exact List.Sublist.nodup (List.Sublist.map _ filter_sublist) hids
  · -- a channel that is not rebuilt is not edited either
    have hsame : ∀ ch' ∈ st.channels, ch'.id = ch.id → ch'.tag ≠ some tag := by
      intro ch' hch' hsameid htag'
      refine hnot (mem_map.2 ⟨f ch', mem_filter.2 ⟨?_, ?_⟩, (hid ch').trans hsameid⟩)
      · refine mem_map.2 ⟨ch', hch', ?_⟩
        rw [if_pos (decide_eq_true htag')]
      · exact decide_eq_true (htag ch' htag')
    constructor
    · intro hch
      obtain ⟨ch', hch', heq⟩ := mem_map.1 hch
      have hid' : ch'.id = ch.id := by
        rw [← heq]
        split_ifs
        · exact (hid ch').symm
        · rfl
      rw [if_neg (by simpa using hsame ch' hch' hid')] at heq
      rw [← heq]
      exact hch'
    · intro hch
      refine mem_map.2 ⟨ch, hch, ?_⟩
      rw [if_neg (by simpa using hsame ch hch rfl)]

/-- **`EditChannelByTag`.** -/
theorem Mirrored.editByTag (h : Mirrored st) {priority : Option ℤ} {weight : Option ℕ}
    (hfaithful : Faithful st (.editByTag tag newTag models group priority weight)) :
    Mirrored (editChannelByTag tag newTag models group priority weight st) := by
  simp only [Faithful] at hfaithful
  simp only [editChannelByTag]
  split_ifs at hfaithful ⊢ with hrebuild
  · exact h.editRows (fun _ => rfl) (fun _ => patch_tag) hfaithful
  · rw [not_or, not_not, not_not] at hrebuild
    exact h.editColumns hrebuild.1 hrebuild.2 hfaithful

variable {channelId status now : ℤ}

/-- **`Update`** of a channel that exists. -/
theorem Mirrored.patchRow (h : Mirrored st) {p : ChannelPatch}
    (hchannel : st.channel channelId = some channel) (hregular : (channel.patch p).Regular) :
    Mirrored { st.updateChannel channelId fun ch => ch.patch p with
      abilities := updateAbilities st.abilities (channel.patch p) } := by
  have hid : channel.id = channelId := get_key hchannel
  have hmem : channel ∈ st.channels := get_mem hchannel
  have hids : ((st.updateChannel channelId fun ch => ch.patch p).channels.map
      fun ch => ch.id).Nodup := by
    show ((Table.modify _ _ _ st.channels).map _).Nodup
    rw [keys_modify fun ch _ => by assumption]
    exact h.ids
  refine Mirrors.rebuild h [channel.patch p] hids ?_ (nodup_singleton _) ?_ ?_
  · intro ch hch
    rw [mem_singleton.1 hch]
    exact hregular
  · intro ch hch
    rw [mem_singleton.1 hch]
    refine mem_map.2 ⟨channel, hmem, ?_⟩
    rw [if_pos hid]
  · intro ch hnot
    have hne : ch.id ≠ channelId := by
      intro hsame
      refine hnot ?_
      rw [map_singleton, mem_singleton, hsame]
      exact hid.symm
    constructor
    · intro hch
      obtain ⟨ch', hch', rfl⟩ := mem_map.1 hch
      split_ifs at hne ⊢ with hsame
      · exact absurd hsame hne
      · exact hch'
    · intro hch
      refine mem_map.2 ⟨ch, hch, ?_⟩
      rw [if_neg hne]

theorem Mirrored.update (h : Mirrored st) {p : ChannelPatch}
    (hfaithful : Faithful st (.update channelId p)) :
    Mirrored (updateChannel cfg channelId p st) := by
  simp only [Faithful] at hfaithful
  simp only [updateChannel]
  set q : ChannelPatch := { p with
    channelInfo := p.channelInfo.map fun info => info.recount cfg st channelId p.key } with hq
  have hget : (st.updateChannel channelId fun ch => ch.patch q).channel channelId =
      (st.channel channelId).map fun ch => ch.patch q :=
    channel_updateChannel st (f := fun ch => ch.patch q) (fun _ => rfl) channelId
  rw [hget]
  cases hchannel : st.channel channelId with
  | some channel => exact h.patchRow hchannel (hfaithful.1 channel hchannel)
  | none =>
    -- no row is changed, and none is built
    have hfaithful := hfaithful.2 (by rw [hchannel]; rfl)
    have hnone : ∀ ch ∈ st.channels, ch.id ≠ channelId := by
      intro ch hch
      have hne := find?_eq_none.1 hchannel ch hch
      simpa using hne
    have hchannels : (st.updateChannel channelId fun ch => ch.patch q).channels = st.channels :=
      modify_eq fun ch hch hid => absurd hid (hnone ch hch)
    have hothers : (st.abilities.filter fun a => decide (a.channelId ≠ channelId)) =
        st.abilities := by
      refine filter_eq_self.2 fun a ha => decide_eq_true ?_
      obtain ⟨ch, hch, hserves⟩ := (h.rows a).1 ha
      rw [hserves.2.2.2]
      exact hnone ch hch
    have habilities : updateAbilities st.abilities (q.channel channelId) = st.abilities := by
      rw [updateAbilities]
      split_ifs with hkind
      · exact hothers
      · have hmodels : (q.channel channelId).getModels = [] := by
          obtain hsite | hempty := hfaithful
          · refine absurd ?_ hkind
            show p.upstreamKind.getD .keyChannel = .platformSite
            rw [hsite]
            rfl
          · rw [Channel.getModels]
            exact if_pos hempty
        rw [hmodels]
        exact hothers
    show Mirrors (st.updateChannel channelId fun ch => ch.patch q).channels
      (updateAbilities st.abilities (q.channel channelId))
    rw [hchannels, habilities]
    exact h

/-! ### Status -/

theorem handlerMultiKeyUpdate_status {usingKey : String} (hchanged : channel.status ≠
      (handlerMultiKeyUpdate cfg channel usingKey status reason now).status) :
    ((handlerMultiKeyUpdate cfg channel usingKey status reason now).status = enabled ↔
      status = enabled) := by
  simp only [handlerMultiKeyUpdate] at hchanged ⊢
  by_cases hkeys : getKeys cfg channel [] = []
  · simp only [if_pos hkeys]
  simp only [if_neg hkeys] at hchanged ⊢
  by_cases hnot : usingKey ∉ getKeys cfg channel []
  · simp only [if_pos hnot] at hchanged ⊢
    by_cases hempty : usingKey ≠ ""
    · rw [if_pos hempty] at hchanged
      exact absurd rfl hchanged
    · rw [if_neg hempty]
  simp only [if_neg hnot] at hchanged ⊢
  by_cases henabled : status = enabled
  · -- the key that is enabled is an enabled key
    have hhas : hasEnabledMultiKey (getKeys cfg channel [])
        (Function.update channel.channelInfo.multiKeyStatusList
          ((getKeys cfg channel []).idxOf usingKey) none) = true := by
      refine any_eq_true.2 ⟨(getKeys cfg channel []).idxOf usingKey, ?_, ?_⟩
      · exact mem_range.2 (idxOf_lt_length_of_mem (not_not.1 hnot))
      · rw [Function.update_self]
        rfl
    simp [henabled, hhas]
  · simp only [if_neg henabled] at hchanged ⊢
    split_ifs at hchanged ⊢
    · exact iff_of_false (show ¬ autoDisabled = enabled by decide) henabled
    · exact absurd rfl hchanged

theorem handlerMultiKeyUpdate_id (cfg : Config) (channel : Channel) (usingKey reason : String)
    (status now : ℤ) :
    (handlerMultiKeyUpdate cfg channel usingKey status reason now).id = channel.id := by
  simp only [handlerMultiKeyUpdate]
  split_ifs <;> rfl

theorem Mirrored.saveSame (h : Mirrored st) {updated : Channel}
    (hchannel : st.channel updated.id = some channel) (hsame : channel.status = updated.status) :
    Mirrored (st.saveStatusState updated) := by
  have hid : channel.id = updated.id := get_key hchannel
  have hmem : channel ∈ st.channels := get_mem hchannel
  have hpatch := Mirrors.patch (g := fun a => a) (f := fun ch => if ch.id = updated.id then { ch with
    status := updated.status
    statusInfo := updated.statusInfo
    channelInfo := if updated.channelInfo.isMultiKey then updated.channelInfo
      else ch.channelInfo } else ch) h (fun ch => by split_ifs <;> rfl)
    (fun ch => by split_ifs <;> rfl) (fun ch => by split_ifs <;> rfl)
    (fun ch => by split_ifs <;> rfl) (fun _ => rfl) fun ch hch a hserves => by
      rw [hserves.2.2.2]
      by_cases hid' : ch.id = updated.id
      · -- the row is the channel that was read
        rw [inj_on_of_nodup_map h.ids hch hmem (hid'.trans hid.symm), if_pos hid]
        simp only [Channel.ability, hsame]
      · rw [if_neg hid']
        rfl
  rw [map_id'] at hpatch
  exact hpatch

theorem Mirrored.updateStatus (h : Mirrored st) (cached : Bool) (channelId : ℤ)
    (usingKey : String) (status : ℤ) (reason : String) (now : ℤ) :
    Mirrored (updateChannelStatus cfg cached channelId usingKey status reason now st) := by
  rw [updateChannelStatus]
  by_cases hcached : cached = true
  · rw [if_pos hcached]
    exact h
  rw [if_neg hcached]
  split
  · exact h
  next channel hchannel =>
  have hid : channel.id = channelId := get_key hchannel
  by_cases hsame : channel.status = status
  · rw [if_pos hsame]
    exact h
  rw [if_neg hsame]
  by_cases hmulti : channel.channelInfo.isMultiKey = true
  · rw [if_pos hmulti]
    have hupdated := handlerMultiKeyUpdate_id cfg channel usingKey reason status now
    set updated := handlerMultiKeyUpdate cfg channel usingKey status reason now with hdef
    by_cases hchanged : channel.status = updated.status
    · rw [if_neg (not_not_intro hchanged)]
      refine h.saveSame ?_ hchanged
      rw [hupdated, hid]
      exact hchannel
    · rw [if_pos hchanged]
      have hset := h.setStatus channelId updated.status (fun _ => updated.statusInfo) fun ch =>
        if updated.channelInfo.isMultiKey then updated.channelInfo else ch.channelInfo
      rw [decide_eq_decide.2 (handlerMultiKeyUpdate_status hchanged)] at hset
      rw [Store.saveStatusState, hupdated, hid]
      exact hset
  · rw [if_neg hmulti]
    have hset := h.setStatus channelId status (fun _ => some (reason, now)) fun ch =>
      if channel.channelInfo.isMultiKey then channel.channelInfo else ch.channelInfo
    rw [← hid] at hset ⊢
    exact hset

theorem Mirrored.setChannelStatus (h : Mirrored st) (channelId status : ℤ)
    (info : Option (String × ℤ)) : Mirrored (st.setChannelStatus channelId status info) :=
  h.setStatus channelId status (fun ch => info.or ch.statusInfo) fun ch => ch.channelInfo

variable {infoFails : Bool}

theorem Mirrored.updateRoutingKeyStatus (h : Mirrored st) {routingKeyId : ℕ} {routable : Bool}
    (hupdate : updateRoutingKeyStatus infoFails routable channelId routingKeyId status reason now
      st = some st') : Mirrored st' := by
  have hkeys : SameService st (st.setKeyStatus channelId routingKeyId status reason now) :=
    ⟨rfl, rfl⟩
  obtain ⟨st₁, hst₁, hst'⟩ := updateRoutingKeyStatus_cases hupdate
  have h₁ : Mirrored st₁ := by
    rcases hst₁ with rfl | rfl
    · exact h
    · exact (hkeys.trans (sameService_summary channelId infoFails)).mirrored h
  rcases hst' with rfl | ⟨s, info, rfl⟩
  · exact h₁
  · exact h₁.setChannelStatus channelId s info

/-! ### Inserting channels -/

theorem insertLoop (cfg : Config) (infoFails : Bool) (added : List Channel) (st : Store) :
    let st' := added.foldl (fun st channel => syncChannelKeysFromLegacyField cfg infoFails channel
      { st with abilities := addAbilities st.abilities channel }) st
    st'.channels.map Channel.strip = st.channels.map Channel.strip ∧
      st'.abilities = added.foldl addAbilities st.abilities := by
  induction added generalizing st with
  | nil => exact ⟨rfl, rfl⟩
  | cons channel added ih =>
    have hsync := sameService_sync cfg
      { st with abilities := addAbilities st.abilities channel } channel infoFails
    obtain ⟨hchannels, habilities⟩ := ih (syncChannelKeysFromLegacyField cfg infoFails channel
      { st with abilities := addAbilities st.abilities channel })
    refine ⟨hchannels.trans hsync.channels, habilities.trans ?_⟩
    rw [hsync.abilities]
    rfl

section

variable (h : Mirrored st)
include h

/-- **Channels are inserted** with new ids. -/
theorem Mirrored.insertAll (added : List Channel) (infoFails : Bool)
    (hids : ((st.channels ++ added).map fun ch => ch.id).Nodup)
    (hdistinct : ∀ ch ∈ added, ch.upstreamKind = .platformSite ∨ ch.Distinct) :
    Mirrored (added.foldl (fun st channel => syncChannelKeysFromLegacyField cfg infoFails channel
      { st with abilities := addAbilities st.abilities channel })
      { st with channels := st.channels ++ added }) := by
  have hsplit := hids
  rw [map_append] at hsplit
  obtain ⟨-, hadded, hdisjoint⟩ := nodup_append.1 hsplit
  obtain ⟨hrefs, hrows⟩ := foldl_addAbilities h.refs (fun a ha hmem => by
    obtain ⟨ch, hch, hserves⟩ := (h.rows a).1 ha
    rw [hserves.2.2.2] at hmem
    exact hdisjoint _ (mem_map_of_mem hch) _ hmem rfl) hadded hdistinct
  have hmirrors : Mirrors (st.channels ++ added) (added.foldl addAbilities st.abilities) := by
    refine ⟨hids, hrefs, fun a => ?_, fun ch hch => ?_⟩
    · rw [hrows, h.rows]
      simp only [mem_append, or_and_right, exists_or]
    · obtain hch | hch := mem_append.1 hch
      · exact h.distinct ch hch
      · exact hdistinct ch hch
  obtain ⟨hchannels, habilities⟩ := insertLoop cfg infoFails added
    { st with channels := st.channels ++ added }
  rw [Mirrored, habilities]
  exact hmirrors.of_strip hchannels

theorem Mirrored.insert (hfaithful : Faithful st (.insert channel))
    (hinsert : insertChannel cfg infoFails channel st = some st') : Mirrored st' := by
  simp only [insertChannel] at hinsert
  split_ifs at hinsert with htaken
  cases hinsert
  refine h.insertAll [channel.withDefaults] infoFails ?_ fun ch hch => ?_
  · rw [map_append]
    refine nodup_append.2 ⟨h.ids, nodup_singleton _, ?_⟩
    rintro id hid id' hid' rfl
    rw [map_singleton, mem_singleton] at hid'
    exact htaken (hid' ▸ hid)
  · rw [mem_singleton.1 hch]
    exact hfaithful

theorem Mirrored.insertChunk {channels : List Channel}
    (hfaithful : Faithful st (.batchInsert channels))
    (hinsert : insertChunk cfg infoFails st channels = some st') : Mirrored st' := by
  simp only [Channels.insertChunk] at hinsert
  split_ifs at hinsert with hids
  cases hinsert
  have hcomp : (fun ch : Channel => ch.id) ∘ Channel.withDefaults = fun ch => ch.id := rfl
  refine h.insertAll _ infoFails ?_ fun ch hch => ?_
  · rw [map_append, map_map, hcomp, ← map_append]
    exact hids
  · obtain ⟨ch', hch', rfl⟩ := mem_map.1 hch
    exact hfaithful ch' hch'

/-- **`BatchInsertChannels`** inserts chunk after chunk. -/
theorem Mirrored.batchInsert {channels : List Channel}
    (hfaithful : Faithful st (.batchInsert channels))
    (hinsert : batchInsertChannels cfg infoFails channels st = some st') : Mirrored st' := by
  have hchunks : ∀ (chunks : List (List Channel)) (st : Store), Mirrored st →
      (∀ chs ∈ chunks, Faithful st (.batchInsert chs)) →
      chunks.foldlM (Channels.insertChunk cfg infoFails) st = some st' → Mirrored st' := by
    intro chunks
    induction chunks with
    | nil =>
      intro st h _ hsome
      exact Option.some.inj hsome ▸ h
    | cons chs chunks ih =>
      intro st h hall hsome
      rw [foldlM_cons] at hsome
      obtain ⟨st₁, hfirst, hrest⟩ := Option.bind_eq_some_iff.1 hsome
      exact ih st₁ (h.insertChunk (hall chs mem_cons_self) hfirst)
        (fun chs' hchs' => hall chs' (mem_cons_of_mem _ hchs')) hrest
  refine hchunks (chunk 50 channels) st h (fun chs hchs channel hchannel => ?_) hinsert
  refine hfaithful channel ?_
  have hflatten : (chunk 50 channels).flatten = channels := chunkFrom_flatten 50 channels []
  rw [← hflatten]
  exact mem_flatten.2 ⟨chs, hchs, hchannel⟩

/-! ### Runs -/

/-- **Every operation** that is faithful keeps the tables together. -/
theorem Mirrored.run {op : ChannelOp} (hop : Faithful st op)
    (hrun : op.run cfg infoFails st = some st') : Mirrored st' := by
  cases op with
  | insert channel => exact h.insert hop hrun
  | batchInsert channels => exact h.batchInsert hop hrun
  | update channelId p =>
    cases hrun
    exact h.update hop
  | updateStatus channelId usingKey status reason now cached =>
    cases hrun
    exact h.updateStatus cached channelId usingKey status reason now
  | enableByTag tag =>
    cases hrun
    exact h.setStatusByTag tag enabled
  | disableByTag tag =>
    cases hrun
    exact h.setStatusByTag tag manuallyDisabled
  | editByTag tag newTag models group priority weight =>
    cases hrun
    exact h.editByTag hop
  | updateRoutingKeyStatus channelId routingKeyId status reason now routable =>
    exact h.updateRoutingKeyStatus hrun
  | fixAbility =>
    cases hrun
    exact Mirrors.fixAbility h

theorem Mirrored.step {e : ChannelEvent} (he : Faithful st e.op) :
    Mirrored (channelStep cfg st e) := by
  rw [channelStep]
  cases hrun : e.op.run cfg e.infoFails st with
  | none => exact h
  | some st' => exact h.run he hrun

theorem Mirrored.derived : Derived st :=
  ⟨h.perm_derived, (Mirrors.fixAbility h).perm_derived.trans h.perm_derived.symm⟩

end

/-- **Every run** of faithful operations keeps the abilities derived from the channels. -/
theorem derived_of_faithful (h : Mirrored st) {es : List ChannelEvent}
    (hes : Machine.Meets (channelStep cfg) (fun st e => Faithful st e.op) st es) :
    Machine.Always (channelStep cfg) Derived st es :=
  (Machine.Always.of_meets (fun _ _ hs he => hs.step he) h hes).imp fun _ hs => hs.derived

end Operations

/-- No rows at all mirror each other. -/
theorem mirrored_empty : Mirrored {} :=
  ⟨nodup_nil, nodup_nil, fun a => by simp, fun _ h => absurd h not_mem_nil⟩

/-- A key channel with a tag. -/
def taggedChannel (id : ℤ) (models group : String) (weight : Option ℕ) : Channel where
  id := id
  key := "k"
  status := enabled
  models := models
  group := group
  weight := weight
  priority := none
  tag := some "t"
  upstreamKind := .keyChannel
  keyPriority := 0
  channelInfo := {}
  statusInfo := none

/-- Two channels are inserted; one of them gets other models, their tag is renamed with a weight, and
the key of the first one is disabled, which disables the channel. -/
def taggedRun : List ChannelEvent :=
  [{ op := .insert (taggedChannel 1 "a,b,a" "default,vip" none) },
    { op := .batchInsert [taggedChannel 2 "a" "default" (some 3)] },
    { op := .update 1 { models := "c,d" } },
    { op := .editByTag "t" (some "u") none none (some 2) (some 7) },
    { op := .updateRoutingKeyStatus 1 1 autoDisabled "quota" 9 false }]

theorem derived_of_faithful_tagged :
    Mirrored {} ∧ Machine.Meets (channelStep plainConfig) (fun st e => Faithful st e.op) {}
        taggedRun ∧
      Machine.Always (channelStep plainConfig) Derived {} taggedRun := by
  have hfaithful : Machine.Meets (channelStep plainConfig) (fun st e => Faithful st e.op) {}
      taggedRun := by decide
  exact ⟨mirrored_empty, hfaithful, derived_of_faithful mirrored_empty hfaithful⟩

/-- A comma after the last model: the channel is updated without the row of the blank model, which
building all rows anew adds.  A weight of zero for a tag: the rows keep the weight.  Two pairs that
read the same: one of them has no row.  An update of no channel: its rows are there. -/
theorem unfaithful_not_derived :
    ¬ Machine.Always (channelStep plainConfig) Derived {}
        [{ op := .insert (taggedChannel 1 "a" "g" none) }, { op := .update 1 { models := "a," } }] ∧
      ¬ Machine.Always (channelStep plainConfig) Derived {}
        [{ op := .insert (taggedChannel 1 "a" "g" (some 5)) },
          { op := .editByTag "t" none none none none (some 0) }] ∧
      ¬ Machine.Always (channelStep plainConfig) Derived {}
        [{ op := .insert (taggedChannel 1 "c,b|c" "a,a|b" none) }] ∧
      ¬ Machine.Always (channelStep plainConfig) Derived {}
        [{ op := .update 1 { models := "a", group := "g" } }] :=
  ⟨fun h => absurd h.run (by decide), fun h => absurd h.run (by decide),
    fun h => absurd h.run (by decide), fun h => absurd h.run (by decide)⟩

end NexusTok.Channels
