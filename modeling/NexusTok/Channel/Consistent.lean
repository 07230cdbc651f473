import NexusTok.Channel.Keys
import NexusTok.Machine.Run

/-!
# The tables stay consistent

A key of a channel is a row of `channel_keys` and a row of `routing_keys`, which refer to each
other; health is recorded for the routing key, and the channel keeps a summary of its keys.  Four
tables say the same thing, and each operation keeps them together by hand.

* `Keyed` : what holds within an operation.
* `Consistent` : what holds after it, when the summary is written.
* `consistent_of_migrates` : over every run, with what the appended keys are.
-/

namespace NexusTok.Channels

open List Nat

/-! ### What is to hold -/

/-- The maps of a channel hold the keys that are not enabled, by index, and nothing else. -/
structure Summarizes (info : ChannelInfo) (keys : List ChannelKey) : Prop where
  status : ∀ i a, info.multiKeyStatusList i = some a ↔
    ∃ key ∈ keys, key.keyIndex = i ∧ key.status ≠ enabled ∧ key.status = a
  reason : ∀ i a, info.multiKeyDisabledReason i = some a ↔
    ∃ key ∈ keys, key.keyIndex = i ∧ key.status ≠ enabled ∧ key.disabledReason ≠ "" ∧
      key.disabledReason = a
  time : ∀ i a, info.multiKeyDisabledTime i = some a ↔
    ∃ key ∈ keys, key.keyIndex = i ∧ key.status ≠ enabled ∧ 0 < key.disabledTime ∧
      key.disabledTime = a

/-- How a key refers to its routing key. -/
def ChannelKey.link (key : ChannelKey) : ℕ × ℤ × ℕ := (key.routingKeyId, key.channelId, key.id)

/-- How a routing key refers to its key. -/
def RoutingKey.link (r : RoutingKey) : ℕ × ℤ × ℕ := (r.id, r.channelId, r.sourceRefId)

/-- The routing keys of key channels. -/
def Store.keyRouting (st : Store) : List RoutingKey :=
  st.routingKeys.filter fun r => decide (r.source = .keyChannel)

/-- **The keys.**  With distinct ids, that both sides have the same links is a bijection. -/
structure Keyed (cfg : Config) (st : Store) : Prop where
  links : (st.channelKeys.map ChannelKey.link).Perm (st.keyRouting.map RoutingKey.link)
  keyIds : (st.channelKeys.map fun key => key.id).Nodup
  routingIds : (st.routingKeys.map fun r => r.id).Nodup
  keyFresh : ∀ key ∈ st.channelKeys, key.id < st.nextChannelKeyId
  routingFresh : ∀ r ∈ st.routingKeys, r.id < st.nextRoutingKeyId
  indexes : ∀ channelId, ((st.keysOf channelId).map fun key => key.keyIndex).Nodup
  fingerprints : ∀ key ∈ st.channelKeys, key.secretFingerprint = cfg.hmac key.secret
  health : ∀ id ∈ st.health, ∃ r ∈ st.routingKeys, r.id = id
  owned : ∀ key ∈ st.channelKeys, ∃ ch ∈ st.channels, ch.id = key.channelId

/-- **The tables are consistent.** -/
structure Consistent (cfg : Config) (st : Store) : Prop where
  keyed : Keyed cfg st
  maps : ∀ ch ∈ st.channels, ch.upstreamKind ≠ .platformSite →
    Summarizes ch.channelInfo (st.keysOf ch.id)

/-- The keys that are new are keys of the channel, and none of their secrets is there twice. -/
def AppendsNew (channelId : ℤ) (st st' : Store) : Prop :=
  ∃ new, st'.channelKeys = st.channelKeys ++ new ∧ (∀ key ∈ new, key.channelId = channelId) ∧
    (new.map fun key => key.secret).Nodup ∧
    ∀ key ∈ new, ∀ key' ∈ st.keysOf channelId, key.secret ≠ key'.secret

/-- A channel that is inserted has keys to migrate, or nothing is recorded of keys. -/
def KeyOp.Migrates : KeyOp → Prop
  | .insert channel => channel.upstreamKind = .platformSite ∨ trimSpace channel.key ≠ "" ∨
      Summarizes channel.channelInfo []
  | _ => True

/-! ### The summary -/

variable {keys : List ChannelKey}

theorem collect_eq_some {α : Type} {entry : ChannelKey → Option α}
    (hn : (keys.map fun key => key.keyIndex).Nodup) (i : ℕ) (a : α) :
    collect entry keys i = some a ↔ ∃ key ∈ keys, key.keyIndex = i ∧ entry key = some a := by
  induction keys using List.reverseRecOn with
  | nil =>
    constructor
    · intro h
      cases h
    · rintro ⟨key, hkey, -⟩
      exact absurd hkey not_mem_nil
  | append_singleton keys key ih =>
    rw [map_append, nodup_append] at hn
    obtain ⟨hkeys, -, hdisjoint⟩ := hn
    have hstep : collect entry (keys ++ [key]) =
        (entry key).elim (collect entry keys) fun a =>
          Function.update (collect entry keys) key.keyIndex (some a) := by
      rw [collect, foldl_append]
      cases hentry : entry key with
      | none | some => simp [collect, hentry]
    have hsplit : (∃ key' ∈ keys ++ [key], key'.keyIndex = i ∧ entry key' = some a) ↔
        (∃ key' ∈ keys, key'.keyIndex = i ∧ entry key' = some a) ∨
          key.keyIndex = i ∧ entry key = some a := by
      simp only [mem_append, mem_singleton, or_and_right, exists_or, exists_eq_left]
    rw [hstep, hsplit, ← ih hkeys]
    cases hentry : entry key with
    | none =>
      show collect entry keys i = some a ↔ _
      simp
    | some b =>
      show Function.update (collect entry keys) key.keyIndex (some b) i = some a ↔ _
      by_cases hi : i = key.keyIndex
      · -- the last key has an index of its own
        subst hi
        have hnone : collect entry keys key.keyIndex ≠ some a := by
          rw [Ne, ih hkeys]
          rintro ⟨key', hkey', hsame, -⟩
          exact hdisjoint _ (mem_map_of_mem hkey') _
            (mem_map_of_mem (mem_singleton_self key)) hsame
        rw [Function.update_self]
        simp [hnone]
      · rw [Function.update_of_ne hi]
        simp [Ne.symm hi]

/-- **The summary** of keys whose indexes are distinct. -/
theorem summarizes_summary {info : ChannelInfo}
    (hn : (keys.map fun key => key.keyIndex).Nodup) : Summarizes (info.summary keys) keys := by
  refine ⟨fun i a => ?_, fun i a => ?_, fun i a => ?_⟩
  · show collect ChannelKey.statusEntry keys i = some a ↔ _
    rw [collect_eq_some hn]
    refine exists_congr fun key => and_congr_right fun _ => and_congr_right fun _ => ?_
    simp [ChannelKey.statusEntry]
  · show collect ChannelKey.reasonEntry keys i = some a ↔ _
    rw [collect_eq_some hn]
    refine exists_congr fun key => and_congr_right fun _ => and_congr_right fun _ => ?_
    simp [ChannelKey.reasonEntry, and_assoc]
  · show collect ChannelKey.timeEntry keys i = some a ↔ _
    rw [collect_eq_some hn]
    refine exists_congr fun key => and_congr_right fun _ => and_congr_right fun _ => ?_
    simp [ChannelKey.timeEntry, and_assoc]

theorem Summarizes.perm {info : ChannelInfo} {keys' : List ChannelKey}
    (h : Summarizes info keys) (hperm : keys.Perm keys') : Summarizes info keys' := by
  refine ⟨fun i a => ?_, fun i a => ?_, fun i a => ?_⟩
  · simp only [h.status, hperm.mem_iff]
  · simp only [h.reason, hperm.mem_iff]
  · simp only [h.time, hperm.mem_iff]

theorem loadChannelKeys_perm (st : Store) (channelId : ℤ) :
    (st.loadChannelKeys channelId).Perm (st.keysOf channelId) :=
  perm_insertionSort _ _

/-! ### What the statements keep -/

/-- Only the keys of one channel change. -/
structure Touches (channelId : ℤ) (st st' : Store) : Prop where
  channels : st'.channels = st.channels
  others : ∀ c ≠ channelId, st'.keysOf c = st.keysOf c

section Statements

variable {cfg : Config} {st st' st'' : Store} {channelId : ℤ}

theorem Touches.refl : Touches channelId st st := ⟨rfl, fun _ _ => rfl⟩

theorem Touches.trans (h : Touches channelId st st') (h' : Touches channelId st' st'') :
    Touches channelId st st'' :=
  ⟨h'.channels.trans h.channels, fun c hc => (h'.others c hc).trans (h.others c hc)⟩

theorem mem_keysOf {key : ChannelKey} :
    key ∈ st.keysOf channelId ↔ key ∈ st.channelKeys ∧ key.channelId = channelId := by
  rw [Store.keysOf, mem_filter, decide_eq_true_iff]

/-- The channels change, and none of them loses its id. -/
theorem Keyed.updateChannel (h : Keyed cfg st) {f : Channel → Channel} (hf : ∀ ch, (f ch).id = ch.id)
    (channelId : ℤ) : Keyed cfg (st.updateChannel channelId f) := by
  refine ⟨h.links, h.keyIds, h.routingIds, h.keyFresh, h.routingFresh, h.indexes, h.fingerprints,
    h.health, fun key hkey => ?_⟩
  obtain ⟨ch, hch, hid⟩ := h.owned key hkey
  refine ⟨_, mem_map_of_mem hch, ?_⟩
  split_ifs
  · exact (hf ch).trans hid
  · exact hid

/-- **A change of the channels** that leaves what they say of their keys. -/
theorem Consistent.updateChannel (h : Consistent cfg st) {f : Channel → Channel}
    (hid : ∀ ch, (f ch).id = ch.id) (hkind : ∀ ch, (f ch).upstreamKind = ch.upstreamKind)
    (hinfo : ∀ ch, (f ch).channelInfo = ch.channelInfo) (channelId : ℤ) :
    Consistent cfg (st.updateChannel channelId f) := by
  refine ⟨h.keyed.updateChannel hid channelId, fun ch hch hne => ?_⟩
  obtain ⟨ch', hch', rfl⟩ := mem_map.1 hch
  have hmaps := h.maps ch' hch'
  show Summarizes _ (st.keysOf _)
  split_ifs at hne ⊢
  · rw [hinfo, hid]
    rw [hkind] at hne
    exact hmaps hne
  · exact hmaps hne

/-- **The summary is written.**  The other channels are still summarized. -/
theorem Keyed.summary (h : Keyed cfg st)
    (hothers : ∀ ch ∈ st.channels, ch.id ≠ channelId → ch.upstreamKind ≠ .platformSite →
      Summarizes ch.channelInfo (st.keysOf ch.id)) (infoFails : Bool) :
    Consistent cfg (updateChannelKeySummary st channelId infoFails) := by
  refine ⟨h.updateChannel (f := fun ch => { ch with
    channelInfo := (st.infoOf channelId infoFails).summary (st.loadChannelKeys channelId)
    key := "" }) (fun _ => rfl) channelId, fun ch hch hne => ?_⟩
  obtain ⟨ch', hch', rfl⟩ := mem_map.1 hch
  show Summarizes _ (st.keysOf _)
  split_ifs at hne ⊢ with hid
  · have hid : ch'.id = channelId := hid
    have hperm := loadChannelKeys_perm st channelId
    show Summarizes (ChannelInfo.summary _ (st.loadChannelKeys channelId)) (st.keysOf ch'.id)
    rw [hid]
    refine (summarizes_summary ?_).perm hperm
    exact (hperm.map _).nodup_iff.2 (h.indexes channelId)
  · exact hothers ch' hch' hid hne

theorem Consistent.summary (h : Consistent cfg st) (htouches : Touches channelId st st')
    (hkeyed : Keyed cfg st') (infoFails : Bool) :
    Consistent cfg (updateChannelKeySummary st' channelId infoFails) := by
  refine hkeyed.summary (fun ch hch hid hne => ?_) infoFails
  rw [htouches.channels] at hch
  rw [htouches.others ch.id hid]
  exact h.maps ch hch hne

/-! ### Inserting keys -/

/-- The store with another key. -/
def Store.addKey (cfg : Config) (st : Store) (channel : Channel) (secret : String) (keyIndex : ℕ)
    (record : Record) : Store :=
  { st with
    channelKeys := st.channelKeys ++ [newChannelKey cfg channel (trimSpace secret) keyIndex record.1
      record.2.1 record.2.2 st.nextRoutingKeyId st.nextChannelKeyId]
    routingKeys := st.routingKeys ++
      [⟨st.nextRoutingKeyId, channel.id, .keyChannel, st.nextChannelKeyId⟩]
    nextChannelKeyId := st.nextChannelKeyId + 1
    nextRoutingKeyId := st.nextRoutingKeyId + 1 }

theorem createChannelKey_eq (h : Keyed cfg st) (channel : Channel) (secret : String)
    (keyIndex : ℕ) (record : Record) :
    createChannelKey cfg st channel secret keyIndex record.1 record.2.1 record.2.2 =
      if trimSpace secret = "" then st else st.addKey cfg channel secret keyIndex record := by
  simp only [createChannelKey]
  split_ifs with hblank
  · rfl
  · have hrouting : Table.modify (fun r : RoutingKey => r.id) st.nextRoutingKeyId
        (fun r => { r with sourceRefId := st.nextChannelKeyId })
        (st.routingKeys ++ [⟨st.nextRoutingKeyId, channel.id, .keyChannel, 0⟩]) =
        st.routingKeys ++ [⟨st.nextRoutingKeyId, channel.id, .keyChannel, st.nextChannelKeyId⟩] := by
      have hold : Table.modify (fun r : RoutingKey => r.id) st.nextRoutingKeyId
          (fun r => { r with sourceRefId := st.nextChannelKeyId }) st.routingKeys =
          st.routingKeys :=
        Table.modify_eq fun r hr hid => absurd hid (h.routingFresh r hr).ne
      rw [Table.modify] at hold ⊢
      rw [map_append, hold]
      simp
    simp only [Store.newRoutingKey, Store.insertKey, Store.linkKey, Store.addKey, hrouting]

theorem keysOf_addKey (channel : Channel) (secret : String) (keyIndex : ℕ) (record : Record) :
    (st.addKey cfg channel secret keyIndex record).keysOf channel.id = st.keysOf channel.id ++
      [newChannelKey cfg channel (trimSpace secret) keyIndex record.1 record.2.1 record.2.2
        st.nextRoutingKeyId st.nextChannelKeyId] := by
  show List.filter _ (st.channelKeys ++ [_]) = _
  rw [filter_append, filter_singleton]
  simp [newChannelKey, Store.keysOf]

theorem touches_addKey (channel : Channel) (secret : String) (keyIndex : ℕ) (record : Record) :
    Touches channel.id st (st.addKey cfg channel secret keyIndex record) := by
  refine ⟨rfl, fun c hc => ?_⟩
  show List.filter _ (st.channelKeys ++ [_]) = _
  rw [filter_append, filter_singleton]
  simp [newChannelKey, Store.keysOf, hc.symm]

variable {channel : Channel}

/-- **Another key**, whose index is not taken. -/
theorem Keyed.addKey (h : Keyed cfg st) {secret : String} {keyIndex : ℕ}
    {record : Record} (hchannel : ∃ ch ∈ st.channels, ch.id = channel.id)
    (hindex : ∀ key ∈ st.keysOf channel.id, key.keyIndex ≠ keyIndex) :
    Keyed cfg (st.addKey cfg channel secret keyIndex record) := by
  refine ⟨?_, ?_, ?_, ?_, ?_, fun c => ?_, ?_, ?_, ?_⟩
  · show ((st.channelKeys ++ [_]).map ChannelKey.link).Perm
      (((st.routingKeys ++ [_]).filter _).map RoutingKey.link)
    rw [filter_append, map_append, map_append]
    exact h.links.append_right _
  · show ((st.channelKeys ++ [_]).map _).Nodup
    rw [map_append]
    refine nodup_append.2 ⟨h.keyIds, nodup_singleton _, ?_⟩
    rintro a ha b hb rfl
    obtain ⟨key, hkey, rfl⟩ := mem_map.1 ha
    exact (h.keyFresh key hkey).ne (mem_singleton.1 hb)
  · show ((st.routingKeys ++ [_]).map _).Nodup
    rw [map_append]
    refine nodup_append.2 ⟨h.routingIds, nodup_singleton _, ?_⟩
    rintro a ha b hb rfl
    obtain ⟨r, hr, rfl⟩ := mem_map.1 ha
    exact (h.routingFresh r hr).ne (mem_singleton.1 hb)
  · intro key hkey
    obtain hkey | hkey := mem_append.1 hkey
    · exact lt_succ_of_lt (h.keyFresh key hkey)
    · rw [mem_singleton.1 hkey]
      exact lt_succ_self _
  · intro r hr
    obtain hr | hr := mem_append.1 hr
    · exact lt_succ_of_lt (h.routingFresh r hr)
    · rw [mem_singleton.1 hr]
      exact lt_succ_self _
  · by_cases hc : c = channel.id
    · subst hc
      rw [keysOf_addKey, map_append]
      refine nodup_append.2 ⟨h.indexes _, nodup_singleton _, ?_⟩
      rintro a ha b hb rfl
      obtain ⟨key, hkey, rfl⟩ := mem_map.1 ha
      exact hindex key hkey (mem_singleton.1 hb)
    · rw [(touches_addKey channel secret keyIndex record).others c hc]
      exact h.indexes c
  · intro key hkey
    obtain hkey | hkey := mem_append.1 hkey
    · exact h.fingerprints key hkey
    · rw [mem_singleton.1 hkey]
      rfl
  · intro id hid
    obtain ⟨r, hr, hrid⟩ := h.health id hid
    exact ⟨r, mem_append_left _ hr, hrid⟩
  · intro key hkey
    obtain hkey | hkey := mem_append.1 hkey
    · exact h.owned key hkey
    · rw [mem_singleton.1 hkey]
      exact hchannel

/-- The indexes of a channel are all smaller than `n`. -/
def Below (channelId : ℤ) (n : ℕ) (st : Store) : Prop :=
  ∀ key ∈ st.keysOf channelId, key.keyIndex < n

variable {n routingKeyId : ℕ}

/-- **A key is created** at the next index, unless its secret is blank. -/
theorem Keyed.create (h : Keyed cfg st)
    (hchannel : ∃ ch ∈ st.channels, ch.id = channel.id) (hbelow : Below channel.id n st)
    (secret : String) (record : Record) :
    let st' := createChannelKey cfg st channel secret n record.1 record.2.1 record.2.2
    Keyed cfg st' ∧ Touches channel.id st st' ∧ Below channel.id (n + 1) st' := by
  intro st'
  have heq : st' = _ := createChannelKey_eq h channel secret n record
  rw [heq]
  split_ifs with hblank
  · exact ⟨h, .refl, fun key hkey => lt_succ_of_lt (hbelow key hkey)⟩
  · refine ⟨h.addKey hchannel fun key hkey => (hbelow key hkey).ne, touches_addKey .., ?_⟩
    intro key hkey
    rw [keysOf_addKey] at hkey
    obtain hkey | hkey := mem_append.1 hkey
    · exact lt_succ_of_lt (hbelow key hkey)
    · rw [mem_singleton.1 hkey]
      exact lt_succ_self n

/-- **A loop that creates keys**, each of them at its position. -/
theorem Keyed.createAll (h : Keyed cfg st)
    (hchannel : ∃ ch ∈ st.channels, ch.id = channel.id) (record : ℕ → Record)
    (hbelow : Below channel.id n st) (secrets : List String) :
    let st' := (secrets.zipIdx n).foldl (fun st e => createChannelKey cfg st channel e.1 e.2
      (record e.2).1 (record e.2).2.1 (record e.2).2.2) st
    Keyed cfg st' ∧ Touches channel.id st st' := by
  induction secrets generalizing st n with
  | nil => exact ⟨h, .refl⟩
  | cons secret secrets ih =>
    obtain ⟨hkeyed, htouches, hbelow'⟩ := h.create hchannel hbelow secret (record n)
    rw [← htouches.channels] at hchannel
    obtain ⟨hkeyed', htouches'⟩ := ih hkeyed hchannel hbelow'
    exact ⟨hkeyed', htouches.trans htouches'⟩

/-! ### Appending keys -/

/-- The keys that a loop has appended, none of whose fingerprints was seen. -/
def Appended (cfg : Config) (channelId : ℤ) (seen : List String) (st st' : Store) : Prop :=
  ∃ new, st'.channelKeys = st.channelKeys ++ new ∧ (∀ key ∈ new, key.channelId = channelId) ∧
    (new.map fun key => key.secret).Nodup ∧ ∀ key ∈ new, cfg.hmac key.secret ∉ seen

theorem Appended.refl (seen : List String) : Appended cfg channelId seen st st :=
  ⟨[], (append_nil _).symm, fun _ h => absurd h not_mem_nil, nodup_nil,
    fun _ h => absurd h not_mem_nil⟩

/-- **The loop over the secrets** skips those whose fingerprint was seen. -/
theorem Keyed.appendSecrets (h : Keyed cfg st)
    (hchannel : ∃ ch ∈ st.channels, ch.id = channel.id) (hbelow : Below channel.id n st)
    (secrets seen : List String) : let st' := appendSecrets cfg channel secrets seen n st
    Keyed cfg st' ∧ Touches channel.id st st' ∧ Appended cfg channel.id seen st st' := by
  induction secrets generalizing st n seen with
  | nil => exact ⟨h, .refl, .refl seen⟩
  | cons secret secrets ih =>
    simp only [Channels.appendSecrets]
    split_ifs with hblank hseen
    · exact ih h hchannel hbelow seen
    · exact ih h hchannel hbelow seen
    · obtain ⟨hkeyed, htouches, hbelow'⟩ :=
        h.create hchannel hbelow (trimSpace secret) (enabled, "", 0)
      have heq := createChannelKey_eq h channel (trimSpace secret) n (enabled, "", 0)
      rw [trimSpace_trimSpace, if_neg hblank] at heq
      rw [← htouches.channels] at hchannel
      obtain ⟨hkeyed', htouches', new, hnew, hchannels, hnodup, hunseen⟩ :=
        ih hkeyed hchannel hbelow' (cfg.hmac (trimSpace secret) :: seen)
      refine ⟨hkeyed', htouches.trans htouches', newChannelKey cfg channel
        (trimSpace (trimSpace secret)) n enabled "" 0 st.nextRoutingKeyId st.nextChannelKeyId ::
          new, ?_, ?_, ?_, ?_⟩
      · rw [hnew, heq]
        show (st.channelKeys ++ [_]) ++ new = _
        rw [append_assoc]
        rfl
      · rintro key (_ | ⟨_, hkey⟩)
        · rfl
        · exact hchannels key hkey
      · -- a later secret has another fingerprint, so it is another secret
        rw [map_cons, nodup_cons]
        refine ⟨fun hmem => ?_, hnodup⟩
        obtain ⟨key, hkey, hsame⟩ := mem_map.1 hmem
        refine hunseen key hkey ?_
        have hsecret : key.secret = trimSpace secret := by
          rw [hsame]
          exact trimSpace_trimSpace secret
        rw [hsecret]
        exact mem_cons_self
      · rintro key (_ | ⟨_, hkey⟩)
        · show cfg.hmac (trimSpace (trimSpace secret)) ∉ seen
          rw [trimSpace_trimSpace]
          exact hseen
        · exact fun hmem => hunseen key hkey (mem_cons_of_mem _ hmem)

theorem below_nextIndexOf (keys : List ChannelKey) :
    ∀ key ∈ keys, key.keyIndex < nextIndexOf keys := by
  induction keys using List.reverseRecOn with
  | nil => exact fun key hkey => absurd hkey not_mem_nil
  | append_singleton keys last ih =>
    have hlast : nextIndexOf (keys ++ [last]) = max (nextIndexOf keys) (last.keyIndex + 1) := by
      rw [nextIndexOf, foldl_append]
      rfl
    intro key hkey
    rw [hlast]
    obtain hkey | hkey := mem_append.1 hkey
    · exact (ih key hkey).trans_le (le_max_left _ _)
    · rw [mem_singleton.1 hkey]
      exact lt_of_succ_le (le_max_right _ _)

/-! ### Deleting keys -/

theorem Keyed.routingKeyIds (h : Keyed cfg st) :
    (st.channelKeys.map fun key => key.routingKeyId).Nodup := by
  have hperm : (st.channelKeys.map fun key => key.routingKeyId).Perm
      (st.keyRouting.map fun r => r.id) := by
    have hfst := h.links.map Prod.fst
    rw [map_map, map_map] at hfst
    exact hfst
  refine hperm.nodup_iff.2 ?_
  exact List.Sublist.nodup (List.Sublist.map _ filter_sublist) h.routingIds

/-- **Keys are deleted** with their routing keys. -/
theorem Keyed.drop (h : Keyed cfg st) {p : ChannelKey → Bool} {ids : List ℕ}
    (hp : ∀ key ∈ st.channelKeys, p key = decide (key.routingKeyId ∉ ids)) :
    Keyed cfg (Store.dropRouting { st with channelKeys := st.channelKeys.filter p } ids) := by
  refine ⟨?_, ?_, ?_, ?_, ?_, fun c => ?_, ?_, ?_, ?_⟩
  · have hkeys : (st.channelKeys.filter p).map ChannelKey.link =
        (st.channelKeys.map ChannelKey.link).filter fun l => decide (l.1 ∉ ids) := by
      rw [filter_map, filter_congr hp]
      rfl
    have hrouting : ((st.routingKeys.filter fun r => decide (r.id ∉ ids)).filter
        fun r => decide (r.source = .keyChannel)).map RoutingKey.link =
        (st.keyRouting.map RoutingKey.link).filter fun l => decide (l.1 ∉ ids) := by
      rw [filter_map, Store.keyRouting, filter_comm]
      rfl
    show ((st.channelKeys.filter p).map ChannelKey.link).Perm _
    rw [hkeys]
    refine (h.links.filter _).trans ?_
    rw [← hrouting]
    exact .refl _
  · exact List.Sublist.nodup (List.Sublist.map _ filter_sublist) h.keyIds
  · exact List.Sublist.nodup (List.Sublist.map _ filter_sublist) h.routingIds
  · exact fun key hkey => h.keyFresh key (mem_of_mem_filter hkey)
  · exact fun r hr => h.routingFresh r (mem_of_mem_filter hr)
  · refine List.Sublist.nodup (List.Sublist.map _ ?_) (h.indexes c)
    exact List.Sublist.filter _ filter_sublist
  · exact fun key hkey => h.fingerprints key (mem_of_mem_filter hkey)
  · intro id hid
    obtain ⟨hmem, hnot⟩ := mem_filter.1 hid
    obtain ⟨r, hr, rfl⟩ := h.health id hmem
    exact ⟨r, mem_filter.2 ⟨hr, hnot⟩, rfl⟩
  · exact fun key hkey => h.owned key (mem_of_mem_filter hkey)

theorem touches_drop {p : ChannelKey → Bool} {ids : List ℕ}
    (hp : ∀ key ∈ st.channelKeys, key.channelId ≠ channelId → p key = true) :
    Touches channelId st
      (Store.dropRouting { st with channelKeys := st.channelKeys.filter p } ids) := by
  refine ⟨rfl, fun c hc => ?_⟩
  show List.filter _ (List.filter p st.channelKeys) = List.filter _ st.channelKeys
  rw [filter_filter]
  refine filter_congr fun key hkey => ?_
  by_cases hkeyc : key.channelId = c
  · rw [hp key hkey (hkeyc.trans_ne hc), Bool.and_true]
  · rw [decide_eq_false hkeyc, Bool.false_and]

/-! ### Changing keys -/

def Store.mapKeys (st : Store) (g : ChannelKey → ChannelKey) : Store :=
  { st with channelKeys := st.channelKeys.map g }

variable {g : ChannelKey → ChannelKey}

/-- **Keys are changed**, except for what ties them to the other tables. -/
theorem Keyed.mapKeys (h : Keyed cfg st)
    (hlink : ∀ key, (g key).link = key.link) (hsecret : ∀ key, (g key).secret = key.secret)
    (hfinger : ∀ key, (g key).secretFingerprint = key.secretFingerprint)
    (hindexes : ∀ c, (((st.mapKeys g).keysOf c).map fun key => key.keyIndex).Nodup) :
    Keyed cfg (st.mapKeys g) := by
  have hid : ∀ key, (g key).id = key.id := fun key => congrArg (fun l => l.2.2) (hlink key)
  have hchannel : ∀ key, (g key).channelId = key.channelId :=
    fun key => congrArg (fun l => l.2.1) (hlink key)
  refine ⟨?_, ?_, h.routingIds, ?_, h.routingFresh, hindexes, ?_, h.health, ?_⟩
  · have hcomp : ChannelKey.link ∘ g = ChannelKey.link := funext hlink
    show ((st.channelKeys.map g).map ChannelKey.link).Perm (st.keyRouting.map _)
    rw [map_map, hcomp]
    exact h.links
  · have hcomp : (fun key : ChannelKey => key.id) ∘ g = fun key => key.id := funext hid
    show ((st.channelKeys.map g).map _).Nodup
    rw [map_map, hcomp]
    exact h.keyIds
  · intro key hkey
    obtain ⟨key', hkey', rfl⟩ := mem_map.1 hkey
    rw [hid]
    exact h.keyFresh key' hkey'
  · intro key hkey
    obtain ⟨key', hkey', rfl⟩ := mem_map.1 hkey
    rw [hfinger, hsecret]
    exact h.fingerprints key' hkey'
  · intro key hkey
    obtain ⟨key', hkey', rfl⟩ := mem_map.1 hkey
    rw [hchannel]
    exact h.owned key' hkey'

theorem keysOf_mapKeys (hchannel : ∀ key, (g key).channelId = key.channelId) (c : ℤ) :
    (st.mapKeys g).keysOf c = (st.keysOf c).map g := by
  show List.filter _ (st.channelKeys.map g) = _
  rw [filter_map]
  refine congrArg _ (filter_congr fun key _ => ?_)
  show decide ((g key).channelId = c) = decide (key.channelId = c)
  rw [hchannel]

theorem touches_mapKeys (hchannel : ∀ key, (g key).channelId = key.channelId)
    (hother : ∀ key ∈ st.channelKeys, key.channelId ≠ channelId → g key = key) :
    Touches channelId st (st.mapKeys g) := by
  refine ⟨rfl, fun c hc => ?_⟩
  rw [keysOf_mapKeys hchannel]
  conv_rhs => rw [← map_id (st.keysOf c)]
  refine map_congr_left fun key hkey => ?_
  obtain ⟨hmem, hkeyc⟩ := mem_keysOf.1 hkey
  exact hother key hmem (hkeyc.trans_ne hc)

/-- Where a key is in a list of keys. -/
def position (keys : List ChannelKey) (key : ChannelKey) : ℕ :=
  (keys.map fun key => key.id).idxOf key.id

theorem mapKeys_congr {g' : ChannelKey → ChannelKey} (h : ∀ key ∈ st.channelKeys, g key = g' key) :
    st.mapKeys g = st.mapKeys g' := by
  rw [Store.mapKeys, Store.mapKeys, map_congr_left h]

theorem setKeyIndex_eq (hids : (st.channelKeys.map fun key => key.id).Nodup) {key : ChannelKey}
    (hkey : key ∈ st.channelKeys) (n : ℕ) :
    (if key.keyIndex = n then st else st.setKeyIndex key.id n) =
      st.mapKeys fun k => if k.id = key.id then { k with keyIndex := n } else k := by
  split_ifs with hindex
  · have hsame : st.mapKeys (fun k => if k.id = key.id then { k with keyIndex := n } else k) =
        st.mapKeys id := by
      refine mapKeys_congr fun k hk => ?_
      split_ifs with hid
      · rw [inj_on_of_nodup_map hids hk hkey hid, ← hindex]
        rfl
      · rfl
    rw [hsame, Store.mapKeys, map_id]
  · rfl

/-- **The loop over the keys** gives each of them its position as its index. -/
theorem reindex_eq (hids : (st.channelKeys.map fun key => key.id).Nodup)
    (hkeys : ∀ key ∈ keys, key ∈ st.channelKeys) (hnodup : (keys.map fun key => key.id).Nodup) :
    (keys.zipIdx n).foldl
        (fun st e => if e.1.keyIndex = e.2 then st else st.setKeyIndex e.1.id e.2) st =
      st.mapKeys fun key =>
        if key.id ∈ keys.map fun key => key.id then
          { key with keyIndex := n + position keys key }
        else key := by
  induction keys generalizing st n with
  | nil =>
    show st = st.mapKeys fun key => key
    rw [Store.mapKeys, map_id']
  | cons first keys ih =>
    obtain ⟨hfirst, hnodup'⟩ := nodup_cons.1 hnodup
    have hfirst : first.id ∉ keys.map fun key => key.id := hfirst
    rw [zipIdx_cons, foldl_cons, setKeyIndex_eq hids (hkeys first mem_cons_self) n]
    set g : ChannelKey → ChannelKey :=
      fun k => if k.id = first.id then { k with keyIndex := n } else k with hg
    have hgid : ∀ k, (g k).id = k.id := by
      intro k
      show (if k.id = first.id then { k with keyIndex := n } else k).id = k.id
      split_ifs <;> rfl
    rw [ih]
    · show Store.mapKeys (Store.mapKeys st g) _ = _
      simp only [Store.mapKeys, map_map]
      congr 1
      refine map_congr_left fun k hk => ?_
      simp only [Function.comp_apply, hgid]
      by_cases hid : k.id = first.id
      · have hnot : k.id ∉ keys.map fun key => key.id := hid ▸ hfirst
        have hmem : k.id ∈ (first :: keys).map fun key => key.id := by
          rw [hid]
          exact mem_cons_self
        rw [if_neg hnot, if_pos hmem, hg]
        simp [hid, position]
      · have hgk : g k = k := by
          rw [hg]
          exact if_neg hid
        have hiff : k.id ∈ (first :: keys).map (fun key => key.id) ↔
            k.id ∈ keys.map fun key => key.id := by
          rw [map_cons, mem_cons, or_iff_right hid]
        rw [hgk]
        simp only [hiff]
        split_ifs with hmem
        · have hposition : position (first :: keys) k = position keys k + 1 := by
            simp only [position, map_cons]
            exact idxOf_cons_ne _ (Ne.symm hid)
          rw [hposition]
          congr 1
          omega
        · rfl
    · show ((st.channelKeys.map g).map _).Nodup
      have hcomp : (fun key : ChannelKey => key.id) ∘ g = fun key => key.id := funext hgid
      rw [map_map, hcomp]
      exact hids
    · intro key hkey
      have hne : key.id ≠ first.id := by
        intro hid
        rw [← hid] at hfirst
        exact hfirst (mem_map_of_mem hkey)
      have hgk : g key = key := by
        rw [hg]
        exact if_neg hne
      rw [← hgk]
      exact mem_map_of_mem (hkeys key (mem_cons_of_mem _ hkey))
    · exact hnodup'

/-- **The keys of a channel are numbered anew.** -/
theorem Keyed.reindex (h : Keyed cfg st) (channelId : ℤ) :
    let st' := (st.loadChannelKeys channelId).zipIdx.foldl
      (fun st e => if e.1.keyIndex = e.2 then st else st.setKeyIndex e.1.id e.2) st
    Keyed cfg st' ∧ Touches channelId st st' := by
  intro st'
  have hperm := loadChannelKeys_perm st channelId
  have hids : ((st.keysOf channelId).map fun key => key.id).Nodup :=
    List.Sublist.nodup (List.Sublist.map _ filter_sublist) h.keyIds
  have hmem : ∀ key ∈ st.channelKeys,
      key.id ∈ (st.loadChannelKeys channelId).map (fun key => key.id) ↔
        key.channelId = channelId := by
    intro key hkey
    rw [(hperm.map _).mem_iff]
    constructor
    · intro hid
      obtain ⟨key', hkey', hsame⟩ := mem_map.1 hid
      obtain ⟨hmem', hchannel'⟩ := mem_keysOf.1 hkey'
      rw [← inj_on_of_nodup_map h.keyIds hmem' hkey hsame]
      exact hchannel'
    · exact fun hchannel => mem_map_of_mem (mem_keysOf.2 ⟨hkey, hchannel⟩)
  have heq : st' = _ := reindex_eq (n := 0) h.keyIds
    (fun key hkey => (mem_keysOf.1 (hperm.mem_iff.1 hkey)).1) ((hperm.map _).nodup_iff.2 hids)
  rw [heq]
  set g : ChannelKey → ChannelKey := fun key =>
    if key.id ∈ (st.loadChannelKeys channelId).map fun key => key.id then
      { key with keyIndex := 0 + position (st.loadChannelKeys channelId) key }
    else key with hg
  have hkept : ∀ key, (g key).link = key.link ∧ (g key).secret = key.secret ∧
      (g key).secretFingerprint = key.secretFingerprint ∧
      (g key).channelId = key.channelId := by
    intro key
    simp only [hg]
    split_ifs <;> exact ⟨rfl, rfl, rfl, rfl⟩
  have htouches : Touches channelId st (st.mapKeys g) := by
    refine touches_mapKeys (fun key => (hkept key).2.2.2) fun key hkey hother => ?_
    exact if_neg fun hid => hother ((hmem key hkey).1 hid)
  refine ⟨h.mapKeys (fun key => (hkept key).1) (fun key => (hkept key).2.1)
    (fun key => (hkept key).2.2.1) fun c => ?_, htouches⟩
  by_cases hc : c = channelId
  · subst hc
    have hindexes : ((st.mapKeys g).keysOf c).map (fun key => key.keyIndex) =
        (st.keysOf c).map fun key => 0 + position (st.loadChannelKeys c) key := by
      rw [keysOf_mapKeys fun key => (hkept key).2.2.2, map_map]
      refine map_congr_left fun key hkey => ?_
      obtain ⟨hkeys, hchannel⟩ := mem_keysOf.1 hkey
      show (g key).keyIndex = _
      simp only [hg, if_pos ((hmem key hkeys).2 hchannel)]
    rw [hindexes]
    -- two keys at one position have the same id
    refine List.Nodup.map_on (fun key hkey key' hkey' hsame => ?_) (List.Nodup.of_map _ hids)
    refine inj_on_of_nodup_map hids hkey hkey' ?_
    obtain ⟨hkeys, hchannel⟩ := mem_keysOf.1 hkey
    exact (idxOf_inj ((hmem key hkeys).2 hchannel)).1 (by simpa [position] using hsame)
  · rw [htouches.others c hc]
    exact h.indexes c

/-! ### The operations -/

theorem Consistent.replace (h : Consistent cfg st)
    (hchannel : ∃ ch ∈ st.channels, ch.id = channel.id) (secrets : List String) (infoFails : Bool) :
    Consistent cfg (replaceChannelKeysFromPlaintext cfg infoFails channel secrets st) := by
  simp only [replaceChannelKeysFromPlaintext]
  set ids := (st.keysOf channel.id).map fun key => key.routingKeyId with hids
  -- the keys of the channel are those whose routing keys are deleted
  have hp : ∀ key ∈ st.channelKeys,
      decide (key.channelId ≠ channel.id) = decide (key.routingKeyId ∉ ids) := by
    intro key hkey
    refine decide_eq_decide.2 (not_congr ⟨fun hkeyc => ?_, fun hmem => ?_⟩)
    · exact mem_map_of_mem (mem_keysOf.2 ⟨hkey, hkeyc⟩)
    · obtain ⟨key', hkey', hsame⟩ := mem_map.1 hmem
      obtain ⟨hmem', hkeyc⟩ := mem_keysOf.1 hkey'
      rw [← inj_on_of_nodup_map h.keyed.routingKeyIds hmem' hkey hsame]
      exact hkeyc
  have hdropped := h.keyed.drop hp
  have htouches : Touches channel.id st (Store.dropRouting { st with
      channelKeys := st.channelKeys.filter fun key => decide (key.channelId ≠ channel.id) } ids) :=
    touches_drop fun key _ hne => decide_eq_true hne
  have hbelow : Below channel.id 0 (Store.dropRouting { st with
      channelKeys := st.channelKeys.filter fun key => decide (key.channelId ≠ channel.id) }
        ids) := by
    intro key hkey
    obtain ⟨hmem, hkeyc⟩ := mem_keysOf.1 hkey
    exact absurd hkeyc (of_decide_eq_true (mem_filter.1 hmem).2)
  obtain ⟨hkeyed, htouches'⟩ :=
    hdropped.createAll hchannel (fun _ => (enabled, "", 0)) hbelow secrets
  exact h.summary (htouches.trans htouches') hkeyed infoFails

/-- **Appending** keeps the tables consistent, and the secrets apart. -/
theorem Consistent.append (h : Consistent cfg st)
    (hchannel : ∃ ch ∈ st.channels, ch.id = channel.id) (secrets : List String) (infoFails : Bool) :
    Consistent cfg (appendChannelKeysFromPlaintext cfg infoFails channel secrets st) ∧
      AppendsNew channel.id st
        (appendChannelKeysFromPlaintext cfg infoFails channel secrets st) := by
  have hperm := loadChannelKeys_perm st channel.id
  have hbelow : Below channel.id (nextIndexOf (st.loadChannelKeys channel.id)) st :=
    fun key hkey => below_nextIndexOf _ key (hperm.mem_iff.2 hkey)
  obtain ⟨hkeyed, htouches, new, hnew, hnewc, hnodup, hunseen⟩ :=
    h.keyed.appendSecrets hchannel hbelow secrets
      (((st.loadChannelKeys channel.id).map fun key => key.secretFingerprint).filter
        fun f => decide (f ≠ ""))
  refine ⟨h.summary htouches hkeyed infoFails, new, hnew, hnewc, hnodup, ?_⟩
  rintro key hkey key' hkey' hsame
  refine hunseen key hkey (mem_filter.2 ⟨?_, decide_eq_true (cfg.hmac_ne _)⟩)
  rw [hsame, ← h.keyed.fingerprints key' (mem_keysOf.1 hkey').1]
  exact mem_map_of_mem (hperm.mem_iff.2 hkey')

theorem Consistent.delete (h : Consistent cfg st) {channelId : ℤ}
    {infoFails : Bool} (hdelete : deleteChannelKey infoFails channelId routingKeyId st = some st') :
    Consistent cfg st' := by
  simp only [deleteChannelKey] at hdelete
  split at hdelete
  · cases hdelete
  next key hhead =>
  cases hdelete
  obtain ⟨hkey, hfound⟩ := Table.mem_select.1 (mem_of_mem_head? hhead)
  obtain ⟨hkeyc, hrouting⟩ := of_decide_eq_true hfound
  have hp : ∀ k ∈ st.channelKeys,
      decide (k.id ≠ key.id) = decide (k.routingKeyId ∉ [routingKeyId]) := by
    intro k hk
    refine decide_eq_decide.2 (not_congr ?_)
    rw [mem_singleton, ← hrouting]
    refine ⟨fun hid => ?_, fun hid => ?_⟩
    · rw [inj_on_of_nodup_map h.keyed.keyIds hk hkey hid]
    · rw [inj_on_of_nodup_map h.keyed.routingKeyIds hk hkey hid]
  have htouches : Touches channelId st (Store.dropRouting { st with
      channelKeys := st.channelKeys.filter fun k => decide (k.id ≠ key.id) } [routingKeyId]) := by
    refine touches_drop fun k hk hne => decide_eq_true fun hid => hne ?_
    rw [inj_on_of_nodup_map h.keyed.keyIds hk hkey hid]
    exact hkeyc
  obtain ⟨hkeyed, htouches'⟩ := (h.keyed.drop hp).reindex channelId
  exact h.summary (htouches.trans htouches') hkeyed infoFails

theorem Keyed.withAbilities (h : Keyed cfg st) (abilities : List Ability) :
    Keyed cfg { st with abilities := abilities } :=
  ⟨h.links, h.keyIds, h.routingIds, h.keyFresh, h.routingFresh, h.indexes, h.fingerprints,
    h.health, h.owned⟩

theorem Consistent.setChannelStatus (h : Consistent cfg st) (channelId status : ℤ)
    (info : Option (String × ℤ)) : Consistent cfg (st.setChannelStatus channelId status info) := by
  have hchannels := h.updateChannel
    (f := fun ch => { ch with status := status, statusInfo := info.or ch.statusInfo })
    (fun _ => rfl) (fun _ => rfl) (fun _ => rfl) channelId
  exact ⟨hchannels.keyed.withAbilities _, hchannels.maps⟩

theorem Keyed.setKeyStatus (h : Keyed cfg st) (channelId : ℤ) (routingKeyId : ℕ) (status : ℤ)
    (reason : String) (now : ℤ) :
    Keyed cfg (st.setKeyStatus channelId routingKeyId status reason now) ∧
      Touches channelId st (st.setKeyStatus channelId routingKeyId status reason now) := by
  set g : ChannelKey → ChannelKey := fun key =>
    if decide (key.routingKeyId = routingKeyId ∧ key.channelId = channelId) = true then
      { key with
        status := status
        disabledReason := if status = enabled then "" else reason
        disabledTime := if status = enabled then 0 else now }
    else key with hg
  have hkept : ∀ key, (g key).link = key.link ∧ (g key).secret = key.secret ∧
      (g key).secretFingerprint = key.secretFingerprint ∧
      (g key).channelId = key.channelId ∧ (g key).keyIndex = key.keyIndex := by
    intro key
    simp only [hg]
    split_ifs <;> exact ⟨rfl, rfl, rfl, rfl, rfl⟩
  refine ⟨h.mapKeys (g := g) (fun key => (hkept key).1) (fun key => (hkept key).2.1)
    (fun key => (hkept key).2.2.1) fun c => ?_,
    touches_mapKeys (g := g) (fun key => (hkept key).2.2.2.1) fun key _ hne => ?_⟩
  · have hcomp : (fun key : ChannelKey => key.keyIndex) ∘ g = fun key => key.keyIndex :=
      funext fun key => (hkept key).2.2.2.2
    rw [keysOf_mapKeys fun key => (hkept key).2.2.2.1, map_map, hcomp]
    exact h.indexes c
  · refine if_neg fun hboth => hne ?_
    exact (of_decide_eq_true hboth).2

theorem Consistent.updateStatus (h : Consistent cfg st) {status now : ℤ}
    {reason : String} {infoFails routable : Bool}
    (hupdate : updateRoutingKeyStatus infoFails routable channelId routingKeyId status reason now
      st = some st') : Consistent cfg st' := by
  obtain ⟨hkeyed, htouches⟩ := h.keyed.setKeyStatus channelId routingKeyId status reason now
  obtain ⟨st₁, hst₁, hst'⟩ := updateRoutingKeyStatus_cases hupdate
  have h₁ : Consistent cfg st₁ := by
    rcases hst₁ with rfl | rfl
    · exact h
    · exact h.summary htouches hkeyed infoFails
  rcases hst' with rfl | ⟨s, info, rfl⟩
  · exact h₁
  · exact h₁.setChannelStatus channelId s info

theorem Keyed.insertRow (h : Keyed cfg st) (channel : Channel) (abilities : List Ability) :
    Keyed cfg { st with channels := st.channels ++ [channel], abilities := abilities } := by
  refine ⟨h.links, h.keyIds, h.routingIds, h.keyFresh, h.routingFresh, h.indexes, h.fingerprints,
    h.health, fun key hkey => ?_⟩
  obtain ⟨ch, hch, hid⟩ := h.owned key hkey
  exact ⟨ch, mem_append_left _ hch, hid⟩

/-- **A channel is inserted**, and its keys are migrated. -/
theorem Consistent.insert (h : Consistent cfg st) {infoFails : Bool}
    (hmigrates : (KeyOp.insert channel).Migrates)
    (hinsert : insertChannel cfg infoFails channel st = some st') : Consistent cfg st' := by
  simp only [insertChannel] at hinsert
  split_ifs at hinsert with htaken
  cases hinsert
  have hkeyed := h.keyed.insertRow channel.withDefaults
    (addAbilities st.abilities channel.withDefaults)
  set st₁ : Store := { st with
    channels := st.channels ++ [channel.withDefaults]
    abilities := addAbilities st.abilities channel.withDefaults } with hst₁
  -- the id is new, so there are no keys yet
  have hnone : st.keysOf channel.id = [] := by
    refine filter_eq_nil_iff.2 fun key hkey hid => htaken ?_
    obtain ⟨ch, hch, hchid⟩ := h.keyed.owned key hkey
    rw [← of_decide_eq_true hid, ← hchid]
    exact mem_map_of_mem hch
  have hothers : ∀ ch ∈ st₁.channels, ch.id ≠ channel.id → ch.upstreamKind ≠ .platformSite →
      Summarizes ch.channelInfo (st₁.keysOf ch.id) := by
    intro ch hch hid hne
    obtain hch | hch := mem_append.1 hch
    · exact h.maps ch hch hne
    · rw [mem_singleton.1 hch] at hid
      exact absurd rfl hid
  simp only [syncChannelKeysFromLegacyField]
  split_ifs with hskip hcount
  · refine ⟨hkeyed, fun ch hch hne => ?_⟩
    obtain hch | hch := mem_append.1 hch
    · exact h.maps ch hch hne
    · -- nothing is migrated, so nothing may be recorded
      rw [mem_singleton.1 hch] at hne ⊢
      show Summarizes channel.channelInfo (st.keysOf channel.id)
      rw [hnone]
      obtain hkind | hblank := hskip
      · exact absurd hkind hne
      · obtain hkind | hkey | hempty := hmigrates
        · exact absurd hkind hne
        · exact absurd hblank hkey
        · exact hempty
  · exact absurd hnone hcount
  · have hbelow : Below channel.id 0 st₁ := by
      intro key hkey
      rw [show st₁.keysOf channel.id = [] from hnone] at hkey
      exact absurd hkey not_mem_nil
    have hrow : ∃ ch ∈ st₁.channels, ch.id = channel.withDefaults.id :=
      ⟨channel.withDefaults, mem_append_right _ (mem_singleton_self _), rfl⟩
    obtain ⟨hkeyed', htouches⟩ := hkeyed.createAll hrow
      channel.channelInfo.saved hbelow
      (channelKeyPlaintextsFromField cfg channel.withDefaults [])
    refine Consistent.updateChannel (f := fun ch => { ch with key := "" }) ?_ (fun _ => rfl)
      (fun _ => rfl) (fun _ => rfl) _
    refine hkeyed'.summary (fun ch hch hid hne => ?_) infoFails
    rw [htouches.channels] at hch
    rw [htouches.others ch.id hid]
    exact hothers ch hch hid hne

end Statements

/-! ### Runs -/

/-- The keys that an event appends are new. -/
def Appends (cfg : Config) (st : Store) (e : KeyEvent) : Prop :=
  match e.op with
  | .append channel _ => AppendsNew channel.id st (keyStep cfg st e)
  | _ => True

section Runs

variable {cfg : Config} {st : Store}

theorem exists_of_channel {channelId : ℤ} {ch : Channel} (h : st.channel channelId = some ch) :
    ∃ ch ∈ st.channels, ch.id = channelId :=
  ⟨ch, Table.get_mem h, Table.get_key h⟩

/-- **Every operation** keeps the tables consistent. -/
theorem Consistent.run (h : Consistent cfg st) {op : KeyOp} (hop : op.Migrates) {infoFails : Bool}
    {st' : Store} (hrun : op.run cfg infoFails st = some st') : Consistent cfg st' := by
  cases op with
  | replace channel secrets =>
    obtain ⟨ch, hch, rfl⟩ := Option.map_eq_some_iff.1 hrun
    exact h.replace (exists_of_channel hch) secrets infoFails
  | append channel secrets =>
    obtain ⟨ch, hch, rfl⟩ := Option.map_eq_some_iff.1 hrun
    exact (h.append (exists_of_channel hch) secrets infoFails).1
  | delete channelId routingKeyId => exact h.delete hrun
  | updateStatus channelId routingKeyId status reason now routable => exact h.updateStatus hrun
  | insert channel => exact h.insert hop hrun

theorem Consistent.step (h : Consistent cfg st) {e : KeyEvent} (he : e.op.Migrates) :
    Consistent cfg (keyStep cfg st e) := by
  rw [keyStep]
  split_ifs
  · exact h
  · cases hrun : e.op.run cfg e.infoFails st with
    | none => exact h
    | some st' => exact h.run he hrun

theorem Consistent.appends (h : Consistent cfg st) (e : KeyEvent) : Appends cfg st e := by
  obtain ⟨op, infoFails, fails⟩ := e
  cases op with
  | append channel secrets =>
    have hnone : AppendsNew channel.id st st :=
      ⟨[], (append_nil _).symm, fun _ h => absurd h not_mem_nil, nodup_nil,
        fun _ h => absurd h not_mem_nil⟩
    show AppendsNew channel.id st (keyStep cfg st _)
    rw [keyStep]
    split_ifs
    · exact hnone
    · show AppendsNew channel.id st (((st.channel channel.id).map _).getD st)
      cases hch : st.channel channel.id with
      | none => exact hnone
      | some ch => exact (h.append (exists_of_channel hch) secrets infoFails).2
  | replace | delete | updateStatus | insert => trivial

/-- **Every run** of operations keeps the tables consistent, and appends only keys that are new. -/
theorem consistent_of_migrates (h : Consistent cfg st) {es : List KeyEvent}
    (hes : ∀ e ∈ es, e.op.Migrates) :
    Machine.Always (keyStep cfg) (Consistent cfg) st es ∧
      Machine.Meets (keyStep cfg) (Appends cfg) st es := by
  have halways : Machine.Always (keyStep cfg) (Consistent cfg) st es :=
    Machine.Always.of_meets (C := fun _ e => e.op.Migrates) (fun _ _ hs he => hs.step he) h
      (Machine.meets_of_forall hes)
  exact ⟨halways, Machine.Meets.imp (fun _ e hs _ => hs.appends e) halways
    (Machine.meets_true st es)⟩

theorem consistent_empty : Consistent cfg {} := by
  refine ⟨⟨.refl _, nodup_nil, nodup_nil, ?_, ?_, fun _ => nodup_nil, ?_, ?_, ?_⟩, ?_⟩
  all_goals exact fun _ h => absurd h not_mem_nil

/-- A key channel with a blank entry and two keys. -/
def twoKeys : Channel where
  id := 1
  key := "a\n\nb\n"
  status := enabled
  models := "m"
  group := "default"
  weight := none
  priority := none
  tag := none
  upstreamKind := .keyChannel
  keyPriority := 0
  channelInfo := {}
  statusInfo := none

/-- The channel is inserted; two more secrets are appended, one of them known; the second key is
disabled; the first one is deleted; and the keys are replaced. -/
def twoKeysRun : List KeyEvent :=
  [{ op := .insert twoKeys },
    { op := .append twoKeys [" b ", "c"], infoFails := true },
    { op := .updateStatus 1 2 autoDisabled "quota" 7 false },
    { op := .delete 1 1 },
    { op := .replace twoKeys ["", "d", "d"] }]

theorem consistent_of_migrates_twoKeys :
    Consistent plainConfig {} ∧ (∀ e ∈ twoKeysRun, e.op.Migrates) ∧
      Machine.Always (keyStep plainConfig) (Consistent plainConfig) {} twoKeysRun ∧
      Machine.Meets (keyStep plainConfig) (Appends plainConfig) {} twoKeysRun := by
  have hmigrates : ∀ e ∈ twoKeysRun, e.op.Migrates := by
    simp only [twoKeysRun, List.forall_mem_cons, KeyOp.Migrates, List.not_mem_nil, and_true,
      false_implies, implies_true]
    exact .inr (.inl (by decide))
  exact ⟨consistent_empty, hmigrates, consistent_of_migrates consistent_empty hmigrates⟩

end Runs

end NexusTok.Channels
