import NexusTok.Routing.Keys
import NexusTok.Routing.Select

/-!
# The candidates of a request

The keys a request can be routed to, read off the tables: enabled, available, healthy, and able to
serve the group and the model.  A request that fails on a key records a failed sample for it and may
disable it; both take the key out of the candidates, and nothing else changes.

* `mem_candidates` : what a candidate is.
* `mem_candidates_recordFailure` : the candidates after a failure.
-/

namespace NexusTok.Routing

open List Table

/-- What a request asks for. -/
structure Demand where
  /-- The channels for the group and the model in the memory cache, when it is enabled. -/
  cached : Option (List Channel)
  /-- Their ids, when the channels are read from the database. -/
  channelIds : List ℤ
  /-- The key with this id serves the group and the model, and its secret can be read. -/
  serves : ℕ → Bool
  /-- `PlatformSiteSnapshotUsable`, by the id of the channel. -/
  usable : ℤ → Bool

/-- The channels `selectChannelByRoutingKey` goes through. -/
def Demand.channels (d : Demand) (site : Site) : List Channel :=
  match d.cached with
  | some channels => channels
  | none => d.channelIds.filterMap site.getChannel

def normalizeRoutingKeyPriority (priority : ℤ) : ℤ := max 0 (min 99 priority)

/-- `channelKeySelection` and `upstreamKeySelection`. -/
def selection (channel : Channel) (key : Key) : Candidate where
  channelId := channel.id
  keyId := key.id
  effectivePriority :=
    (channel.priority * 100 + normalizeRoutingKeyPriority key.keyPriority).bmod (2 ^ 64)
  weight := key.weight

/-- What `loadRoutableChannelKeys` and `loadRoutableUpstreamKeys` ask of a key. -/
def Demand.Routable (d : Demand) (health : ℕ → Option Health) (now : ℤ) (channel : Channel)
    (key : Key) : Prop :=
  (channel.status = .enabled ∧ key.source = channel.upstreamKind ∧ key.channelId = channel.id ∧
    (channel.upstreamKind = .platformSite → d.usable channel.id = true)) ∧
  key.status = .enabled ∧ key.id ≠ 0 ∧ d.serves key.id = true ∧ key.availability now = .routable ∧
  routingKeyHealthAllowsRouting (health key.id) key.status (key.availability now) now = true

instance (d : Demand) (health : ℕ → Option Health) (now : ℤ) (channel : Channel) (key : Key) :
    Decidable (d.Routable health now channel key) := inferInstanceAs (Decidable (_ ∧ _))

def Demand.routingCandidatesForChannels (d : Demand) (site : Site) (now : ℤ) : List Candidate :=
  (d.channels site).flatMap fun channel =>
    (site.keys.filter fun key => d.Routable site.health now channel key).map (selection channel)

variable {d : Demand} {site : Site} {now : ℤ}

variable {x c : Candidate}

theorem mem_candidates :
    x ∈ d.routingCandidatesForChannels site now ↔
      ∃ channel ∈ d.channels site, ∃ key ∈ site.keys, d.Routable site.health now channel key ∧
        selection channel key = x := by
  simp [Demand.routingCandidatesForChannels, and_assoc]

/-! ### A failure -/

/-- What a failed request leaves behind. -/
structure KeyFailure where
  /-- `ShouldDisableChannel`. -/
  disables : Bool
  firstLatencyMs : ℤ
  unixTime : ℤ
  errorSummary : String
  clock : ℤ

/-- The row of a channel the request works with. -/
def Demand.getChannel (d : Demand) (site : Site) (channelId : ℤ) : Option Channel :=
  match d.cached with
  | some channels => Table.get Channel.id channelId channels
  | none => site.getChannel channelId

/-- `GetAutoBan` of a channel. -/
def Demand.autoBan (d : Demand) (site : Site) (channelId : ℤ) : Bool :=
  (d.getChannel site channelId).any Channel.autoBan

/-- The record of a key after a failure. -/
def KeyFailure.health (f : KeyFailure) (health : Option Health) : Health :=
  recordRoutingKeyHealthSample health false f.firstLatencyMs f.unixTime f.unixTime f.errorSummary

/-- What `processChannelError` does to the tables, once both of its writes have taken effect. -/
def Demand.recordFailure (d : Demand) (site : Site) (c : Candidate) (f : KeyFailure) : Site :=
  let failed := site.setHealth c.keyId.toNat (f.health (site.health c.keyId.toNat))
  if f.disables ∧ d.autoBan site c.channelId then
    (failed.updateRoutingKeyStatus c.channelId c.keyId.toNat .autoDisabled f.errorSummary
      f.clock).getD failed
  else failed

/-- The failure takes the key out: the channel lets itself be banned, or the key is invalid now. -/
def Demand.KnocksOut (d : Demand) (site : Site) (c : Candidate) (f : KeyFailure) (now : ℤ) : Prop :=
  (f.disables = true ∧ d.autoBan site c.channelId = true) ∨
    (f.health (site.health c.keyId.toNat)).Invalid now

instance (d : Demand) (site : Site) (c : Candidate) (f : KeyFailure) (now : ℤ) :
    Decidable (d.KnocksOut site c f now) := inferInstanceAs (Decidable (_ ∨ _))

/-- **The tables are in order**: ids are unique, and the channel of a key exists. -/
structure Demand.InOrder (d : Demand) (site : Site) : Prop where
  keys : (site.keys.map Key.id).Nodup
  channels : ∀ k ∈ site.keys, ∃ c, site.getChannel k.channelId = some c
  cached : ∀ cs ∈ d.cached, (cs.map Channel.id).Nodup

theorem Demand.InOrder.key_eq (h : d.InOrder site) {k k' : Key} (hk : k ∈ site.keys)
    (hk' : k' ∈ site.keys) (hid : k.id = k'.id) : k = k' :=
  inj_on_of_nodup_map h.keys hk hk' hid

theorem Demand.InOrder.refs (h : d.InOrder site) : (site.keys.map Key.ref).Nodup := by
  refine List.Nodup.of_map Prod.snd ?_
  rw [map_map]
  exact h.keys

/-- A channel a request goes through is known by its id. -/
theorem Demand.InOrder.channel_eq (h : d.InOrder site) {c c' : Channel}
    (hc : c ∈ d.channels site) (hc' : c' ∈ d.channels site) (hid : c.id = c'.id) : c = c' := by
  unfold Demand.channels at hc hc'
  cases hcached : d.cached with
  | some cs =>
    rw [hcached] at hc hc'
    exact inj_on_of_nodup_map (h.cached cs hcached) hc hc' hid
  | none =>
    rw [hcached] at hc hc'
    obtain ⟨i, -, hi⟩ := mem_filterMap.1 hc
    obtain ⟨i', -, hi'⟩ := mem_filterMap.1 hc'
    have hii : i = i' := (get_key hi).symm.trans (hid.trans (get_key hi'))
    rw [hii] at hi
    exact Option.some.inj (hi.symm.trans hi')

theorem Demand.InOrder.candidate_eq (h : d.InOrder site)
    (hc : c ∈ d.routingCandidatesForChannels site now)
    (hx : x ∈ d.routingCandidatesForChannels site now) (hid : c.keyId = x.keyId) : c = x := by
  obtain ⟨channel, hchannel, key, hkey, hroutable, rfl⟩ := mem_candidates.1 hc
  obtain ⟨channel', hchannel', key', hkey', hroutable', rfl⟩ := mem_candidates.1 hx
  obtain rfl : key = key' := h.key_eq hkey hkey' (Int.natCast_inj.1 hid)
  obtain rfl : channel = channel' :=
    h.channel_eq hchannel hchannel' (hroutable.1.2.2.1.symm.trans hroutable'.1.2.2.1)
  rfl

theorem allowsRouting_iff (h : Health) (now : ℤ) :
    routingKeyHealthAllowsRouting (some h) .enabled .routable now = true ↔ ¬ h.Invalid now := by
  have hsummary : getRoutingKeyHealthSummary (some h) .enabled .routable now =
      routingKeyHealthSummaryFromRecord h now := rfl
  simp [routingKeyHealthAllowsRouting, hsummary, summaryFromRecord_ne_disabled,
    ← summaryFromRecord_invalid_iff]

/-- The candidates after a change of the record of one of them. -/
theorem mem_candidates_setHealth (h : d.InOrder site)
    (hc : c ∈ d.routingCandidatesForChannels site now) (health : Health) (x : Candidate) :
    x ∈ d.routingCandidatesForChannels (site.setHealth c.keyId.toNat health) now ↔
      x ∈ d.routingCandidatesForChannels site now ∧ (x = c → ¬ health.Invalid now) := by
  obtain ⟨channel₀, hchannel₀, key₀, hkey₀, hroutable₀, rfl⟩ := mem_candidates.1 hc
  have hchannels : d.channels (site.setHealth (selection channel₀ key₀).keyId.toNat health) =
      d.channels site := rfl
  have hid : (selection channel₀ key₀).keyId.toNat = key₀.id := rfl
  rw [mem_candidates, mem_candidates, hchannels, hid]
  have hsame : ∀ channel key, key.id ≠ key₀.id →
      (d.Routable (site.setHealth key₀.id health).health now channel key ↔
        d.Routable site.health now channel key) := by
    intro channel key hne
    simp [Demand.Routable, Site.setHealth, Function.update_of_ne hne]
  constructor
  · rintro ⟨channel, hchannel, key, hkey, hroutable, rfl⟩
    by_cases hne : key.id = key₀.id
    · -- the candidate itself, which the record allows
      obtain rfl : key = key₀ := h.key_eq hkey hkey₀ hne
      obtain rfl : channel = channel₀ :=
        h.channel_eq hchannel hchannel₀ (hroutable.1.2.2.1.symm.trans hroutable₀.1.2.2.1)
      refine ⟨⟨channel, hchannel, key, hkey, hroutable₀, rfl⟩, fun _ => ?_⟩
      obtain ⟨-, hstatus, -, -, havailable, hallows⟩ := hroutable
      rw [hstatus, havailable] at hallows
      rw [← allowsRouting_iff]
      simpa [Site.setHealth] using hallows
    · refine ⟨⟨channel, hchannel, key, hkey, (hsame channel key hne).1 hroutable, rfl⟩, ?_⟩
      intro heq
      exact absurd (Int.natCast_inj.1 (congrArg Candidate.keyId heq)) hne
  · rintro ⟨⟨channel, hchannel, key, hkey, hroutable, rfl⟩, hvalid⟩
    refine ⟨channel, hchannel, key, hkey, ?_, rfl⟩
    by_cases hne : key.id = key₀.id
    · obtain rfl : key = key₀ := h.key_eq hkey hkey₀ hne
      obtain rfl : channel = channel₀ :=
        h.channel_eq hchannel hchannel₀ (hroutable.1.2.2.1.symm.trans hroutable₀.1.2.2.1)
      obtain ⟨hchan, hstatus, hzero, hserves, havailable, -⟩ := hroutable
      refine ⟨hchan, hstatus, hzero, hserves, havailable, ?_⟩
      rw [hstatus, havailable]
      simpa [Site.setHealth] using (allowsRouting_iff health now).2 (hvalid rfl)
    · exact (hsame channel key hne).2 hroutable

theorem mem_channels_setChannelStatus {channelId : ℤ} {status : Status} {channel : Channel}
    (hchannel : channel ∈ d.channels site) (hid : channel.id ≠ channelId) :
    channel ∈ d.channels (site.setChannelStatus channelId status) := by
  unfold Demand.channels at hchannel ⊢
  cases hcached : d.cached with
  | some cs =>
    rw [hcached] at hchannel
    exact hchannel
  | none =>
    rw [hcached] at hchannel
    obtain ⟨i, hi, hget⟩ := mem_filterMap.1 hchannel
    refine mem_filterMap.2 ⟨i, hi, ?_⟩
    rw [Site.getChannel_setChannelStatus, hget]
    simp [hid]

theorem mem_channels_of_setChannelStatus {channelId : ℤ} {status : Status} {channel : Channel}
    (hstatus : status ≠ .enabled)
    (hchannel : channel ∈ d.channels (site.setChannelStatus channelId status))
    (henabled : channel.status = .enabled) : channel ∈ d.channels site := by
  unfold Demand.channels at hchannel ⊢
  cases hcached : d.cached with
  | some cs =>
    rw [hcached] at hchannel
    exact hchannel
  | none =>
    rw [hcached] at hchannel
    obtain ⟨i, hi, hget⟩ := mem_filterMap.1 hchannel
    rw [Site.getChannel_setChannelStatus, Option.map_eq_some_iff] at hget
    obtain ⟨c, hc, rfl⟩ := hget
    by_cases hid : c.id = channelId
    · rw [if_pos hid] at henabled
      exact absurd henabled hstatus
    · rw [if_neg hid]
      exact mem_filterMap.2 ⟨i, hi, hc⟩

theorem mem_candidates_disable (h : d.InOrder site) {site' : Site} {channel₀ : Channel} {key₀ : Key}
    {reason : String} {clock : ℤ} (hchannel₀ : channel₀ ∈ d.channels site)
    (hkey₀ : key₀ ∈ site.keys) (hkind : key₀.source = channel₀.upstreamKind)
    (hof : key₀.channelId = channel₀.id)
    (hupdate : site.updateRoutingKeyStatus channel₀.id key₀.id .autoDisabled reason clock =
      some site') (x : Candidate) :
    x ∈ d.routingCandidatesForChannels site' now ↔
      x ∈ d.routingCandidatesForChannels site now ∧ x.keyId ≠ key₀.id := by
  obtain ⟨key, reason', hkey, hcases⟩ := Site.updateRoutingKeyStatus_cases hupdate
  have href : key.ref = (channel₀.id, key₀.id) := get_key hkey
  obtain rfl : key = key₀ := h.key_eq (get_mem hkey) hkey₀ (congrArg Prod.snd href)
  obtain ⟨⟨reason'', hkeys⟩, hhealth, -⟩ := Site.updateRoutingKeyStatus_frame hupdate
  -- the channels are as before, or the channel of the key has no enabled key left
  have hchannels : (d.channels site' = d.channels site) ∨
      (key.source = .keyChannel ∧
        d.channels site' = d.channels (site.setChannelStatus channel₀.id .autoDisabled) ∧
        ¬ (site.setKeyStatus channel₀.id key.id .autoDisabled reason').HasEnabledKey
          channel₀.id) := by
    rcases hcases with ⟨hsource, hkc⟩ | ⟨-, rfl | ⟨habsurd, -⟩⟩
    · rcases Site.updateKeyChannelAvailability_cases hkc with
        ⟨rfl, -⟩ | ⟨c, status', -, rfl, ⟨-, habsurd⟩ | ⟨rfl, hnone⟩⟩
      · exact Or.inl rfl
      · simp at habsurd
      · exact Or.inr ⟨hsource, rfl, hnone⟩
    · exact Or.inl rfl
    · simp at habsurd
  rw [mem_candidates, mem_candidates, hkeys, hhealth]
  constructor
  · rintro ⟨channel, hchannel, k, hk, hroutable, rfl⟩
    rcases Site.mem_keys_setKeyStatus.1 hk with ⟨hk, hne⟩ | ⟨k', -, -, rfl⟩
    · have hchannel' : channel ∈ d.channels site := by
        rcases hchannels with heq | ⟨-, heq, -⟩
        · rwa [heq] at hchannel
        · rw [heq] at hchannel
          exact mem_channels_of_setChannelStatus (by simp) hchannel hroutable.1.1
      refine ⟨⟨channel, hchannel', k, hk, hroutable, rfl⟩, fun hid => hne ?_⟩
      rw [h.key_eq hk hkey₀ (Int.natCast_inj.1 hid)]
      exact href
    · -- the key itself is not enabled any more
      have := hroutable.2.1
      simp at this
  · rintro ⟨⟨channel, hchannel, k, hk, hroutable, rfl⟩, hne⟩
    have hkid : k.id ≠ key.id := fun hid => hne (Int.natCast_inj.2 hid)
    have hkref : k.ref ≠ (channel₀.id, key.id) := fun hkref => hkid (congrArg Prod.snd hkref)
    have hk' : ∀ reason, k ∈ (site.setKeyStatus channel₀.id key.id .autoDisabled reason).keys :=
      fun _ => Site.mem_keys_setKeyStatus.2 (Or.inl ⟨hk, hkref⟩)
    refine ⟨channel, ?_, k, hk' reason'', hroutable, rfl⟩
    rcases hchannels with heq | ⟨hsource, heq, hnone⟩
    · rwa [heq]
    · rw [heq]
      refine mem_channels_setChannelStatus hchannel fun hid => hnone ?_
      obtain rfl := h.channel_eq hchannel hchannel₀ hid
      exact ⟨k, hk' reason', hroutable.1.2.1.trans (hkind.symm.trans hsource), hroutable.1.2.2.1,
        hroutable.2.1⟩

theorem updateRoutingKeyStatus_commits (h : d.InOrder site) (key : Key) (hkey : key ∈ site.keys)
    (hzero : key.id ≠ 0) (reason : String) (clock : ℤ) :
    ∃ site', site.updateRoutingKeyStatus key.channelId key.id .autoDisabled reason clock =
      some site' := by
  have hget : site.getKey key.channelId key.id = some key := get_of_mem h.refs hkey
  obtain ⟨c, hc⟩ := h.channels key hkey
  unfold Site.updateRoutingKeyStatus
  rw [if_neg hzero, hget]
  cases hsource : key.source with
  | keyChannel =>
    have hc' : (site.setKeyStatus key.channelId key.id .autoDisabled reason).getChannel
        key.channelId = some c := hc
    simp only [reduceCtorEq, if_false, Site.updateKeyChannelAvailability, hc', hsource]
    split_ifs <;> exact ⟨_, rfl⟩
  | platformSite =>
    exact ⟨site.setKeyStatus key.channelId key.id .autoDisabled reason, by simp [hsource]⟩

theorem recordFailure_cases (h : d.InOrder site)
    (hc : c ∈ d.routingCandidatesForChannels site now) (f : KeyFailure) :
    let failed := site.setHealth c.keyId.toNat (f.health (site.health c.keyId.toNat))
    (¬ (f.disables = true ∧ d.autoBan site c.channelId = true) ∧
        d.recordFailure site c f = failed) ∨
      ((f.disables = true ∧ d.autoBan site c.channelId = true) ∧
        failed.updateRoutingKeyStatus c.channelId c.keyId.toNat .autoDisabled f.errorSummary f.clock =
          some (d.recordFailure site c f)) := by
  intro failed
  by_cases hbanned : f.disables = true ∧ d.autoBan site c.channelId = true
  · obtain ⟨channel₀, hchannel₀, key₀, hkey₀, hroutable₀, rfl⟩ := mem_candidates.1 hc
    have hfailed : d.InOrder failed := ⟨h.keys, h.channels, h.cached⟩
    obtain ⟨site', hsite'⟩ := updateRoutingKeyStatus_commits hfailed key₀ hkey₀
      hroutable₀.2.2.1 f.errorSummary f.clock
    rw [hroutable₀.1.2.2.1] at hsite'
    refine Or.inr ⟨hbanned, ?_⟩
    have hrecord : d.recordFailure site (selection channel₀ key₀) f = site' := by
      simp only [Demand.recordFailure, hbanned, and_self, if_true]
      exact Option.getD_eq_iff.2 (Or.inl hsite')
    rw [hrecord]
    exact hsite'
  · exact Or.inl ⟨hbanned, by simp only [Demand.recordFailure, hbanned, if_false]; rfl⟩

/-- **The candidates after a failure.**  The candidate that failed goes when it is knocked out, and
nothing else changes. -/
theorem mem_candidates_recordFailure (h : d.InOrder site)
    (hc : c ∈ d.routingCandidatesForChannels site now) (f : KeyFailure) (x : Candidate) :
    x ∈ d.routingCandidatesForChannels (d.recordFailure site c f) now ↔
      x ∈ d.routingCandidatesForChannels site now ∧ (x = c → ¬ d.KnocksOut site c f now) := by
  have hrecord := mem_candidates_setHealth h hc (f.health (site.health c.keyId.toNat)) x
  rcases recordFailure_cases h hc f with ⟨hbanned, heq⟩ | ⟨hbanned, hupdate⟩
  · rw [heq, hrecord]
    simp only [Demand.KnocksOut, hbanned, false_or]
  · obtain ⟨channel₀, hchannel₀, key₀, hkey₀, hroutable₀, rfl⟩ := mem_candidates.1 hc
    have hfailed : d.InOrder (site.setHealth (selection channel₀ key₀).keyId.toNat
        (f.health (site.health (selection channel₀ key₀).keyId.toNat))) :=
      ⟨h.keys, h.channels, h.cached⟩
    rw [mem_candidates_disable hfailed hchannel₀ hkey₀ hroutable₀.1.2.1 hroutable₀.1.2.2.1 hupdate,
      hrecord]
    have hknocked : d.KnocksOut site (selection channel₀ key₀) f now := Or.inl hbanned
    constructor
    · rintro ⟨⟨hx, -⟩, hne⟩
      exact ⟨hx, fun hxc => absurd (congrArg Candidate.keyId hxc) hne⟩
    · rintro ⟨hx, hsurvives⟩
      have hne : x ≠ selection channel₀ key₀ := fun hxc => hsurvives hxc hknocked
      exact ⟨⟨hx, fun hxc => absurd hxc hne⟩, fun hid => hne (h.candidate_eq hx hc hid)⟩

theorem lastSampleAt_health (f : KeyFailure) (health : Option Health) (hpos : 0 < f.unixTime) :
    (f.health health).tally.lastSampleAt = f.unixTime := by
  have hnot : ¬ f.unixTime ≤ 0 := by omega
  have hread := (summarizeHealthSamples_reads (f.health health).samples).last.2
  have htally : (f.health health).tally = summarizeHealthSamples (f.health health).samples := rfl
  rw [htally, hread]
  simp [KeyFailure.health, recordRoutingKeyHealthSample, Health.push, getLast?_window, hnot]

theorem invalid_health_iff {f : KeyFailure} {health : Option Health} {now now' : ℤ}
    (hpos : 0 < f.unixTime) (hnow : now ≤ f.unixTime * 1000000000 + routingKeyHealthFreshDuration)
    (hnow' : now' ≤ f.unixTime * 1000000000 + routingKeyHealthFreshDuration) :
    (f.health health).Invalid now ↔ (f.health health).Invalid now' := by
  have hstale : ∀ t, t ≤ f.unixTime * 1000000000 + routingKeyHealthFreshDuration →
      ¬ (f.health health).Stale t := by
    intro t ht
    simp only [Health.Stale, lastSampleAt_health f health hpos]
    omega
  simp only [Health.Invalid, hstale now hnow, hstale now' hnow']

/-- What a failure leaves as it was. -/
structure Demand.Untouched (d : Demand) (site site' : Site) (c : Candidate) : Prop where
  inOrder : d.InOrder site'
  autoBan : ∀ id, d.autoBan site' id = d.autoBan site id
  health : ∀ id ≠ c.keyId.toNat, site'.health id = site.health id

theorem recordFailure_untouched (h : d.InOrder site)
    (hc : c ∈ d.routingCandidatesForChannels site now) (f : KeyFailure) :
    d.Untouched site (d.recordFailure site c f) c := by
  have hhealth : ∀ id ≠ c.keyId.toNat, (site.setHealth c.keyId.toNat
      (f.health (site.health c.keyId.toNat))).health id = site.health id :=
    fun id hid => Function.update_of_ne hid _ _
  rcases recordFailure_cases h hc f with ⟨-, heq⟩ | ⟨-, hupdate⟩
  · rw [heq]
    exact ⟨⟨h.keys, h.channels, h.cached⟩, fun _ => rfl, hhealth⟩
  · obtain ⟨⟨reason', hkeys⟩, hrecords, hchannels⟩ := Site.updateRoutingKeyStatus_frame hupdate
    -- a channel differs in its status at most
    have hchannel : ∀ id, ∃ g : Channel → Channel, (∀ c, (g c).autoBan = c.autoBan) ∧
        (d.recordFailure site c f).getChannel id = (site.getChannel id).map g := by
      intro id
      rcases hchannels with hsame | ⟨status', hset⟩
      · exact ⟨fun c => c, fun _ => rfl, by simp [Site.getChannel, hsame, Site.setHealth]⟩
      · refine ⟨fun ch => if ch.id = c.channelId then { ch with status := status' } else ch,
          fun ch => by dsimp only; split_ifs <;> rfl, ?_⟩
        rw [← Site.getChannel_setChannelStatus]
        simp [Site.getChannel, hset, Site.setHealth, Site.setChannelStatus]
    refine ⟨⟨?_, ?_, h.cached⟩, fun id => ?_, fun id hid => ?_⟩
    · rw [hkeys]
      have hids : ((site.setKeyStatus c.channelId c.keyId.toNat .autoDisabled reason').keys.map
          Key.id) = site.keys.map Key.id := by
        simp only [Site.setKeyStatus, Table.modify, map_map]
        refine map_congr_left fun k _ => ?_
        simp only [Function.comp_apply]
        split_ifs <;> rfl
      exact hids ▸ h.keys
    · intro k hk
      rw [hkeys] at hk
      obtain ⟨g, -, hg⟩ := hchannel k.channelId
      have hold : ∃ ch, site.getChannel k.channelId = some ch := by
        rcases Site.mem_keys_setKeyStatus.1 hk with ⟨hk, -⟩ | ⟨k', hk', -, rfl⟩
        · exact h.channels k hk
        · exact h.channels k' hk'
      obtain ⟨ch, hch⟩ := hold
      exact ⟨g ch, by rw [hg, hch]; rfl⟩
    · unfold Demand.autoBan Demand.getChannel
      cases d.cached with
      | some cs => rfl
      | none =>
        obtain ⟨g, hban, hg⟩ := hchannel id
        simp only [hg]
        cases site.getChannel id with
        | none => rfl
        | some ch => exact hban ch
    · rw [hrecords]
      exact hhealth id hid

end NexusTok.Routing
