import NexusTok.Routing.Health
import NexusTok.Store.Table
import NexusTok.Text.Basic

/-!
# Keys, channels and their status

A channel is served by *keys*: its own (a key channel) or those of an upstream account (a platform
site).  Keys and channels have a status each; changing the status of a key also recomputes the
status of its channel, in one transaction.

* `updateRoutingKeyStatus_cases` : what the transaction writes.
* `Site.Recoverable.listed` : the keys that are due for a recovery test are listed.
-/

namespace NexusTok.Routing

open Option

/-- What a channel is served by; also where a key comes from. -/
inductive Source where
  | keyChannel
  | platformSite
  deriving DecidableEq

/-- A row of `channels`. -/
structure Channel where
  id : ℤ
  upstreamKind : Source
  status : Status
  priority : ℤ
  autoBan : Bool
  deriving DecidableEq

/-- A row of `routing_keys` with the row it stands for, in `channel_keys` or `upstream_keys`.  The
fields from `missingSince` on belong to keys of a platform site. -/
structure Key where
  id : ℕ
  channelId : ℤ
  source : Source
  status : Status
  disabledReason : String
  keyPriority : ℤ
  /-- `EffectiveWeight`. -/
  weight : ℤ
  missingSince : ℤ
  modelsSynced : Bool
  /-- `GetEffectiveModels`. -/
  effectiveModels : List String
  expiresAt : Option ℤ
  remainQuota : Option ℤ
  deriving DecidableEq

/-- The channel and the id of a key, by which it is found. -/
def Key.ref (key : Key) : ℤ × ℕ := (key.channelId, key.id)

/-- `AvailabilityReason` of a key of a platform site. -/
def Key.availabilityReason (key : Key) (now : ℤ) : Availability :=
  if key.status = .manuallyDisabled then .manualDisabled
  else if key.status = .missing ∨ key.missingSince ≠ 0 then .missing
  else if key.status ≠ .enabled then
    let reason := trimSpace key.disabledReason
    if reason = "credential_unavailable" then .credentialUnavailable
    else if reason ∈ ["models_unavailable", "上游密钥模型能力读取失败"] then .modelsUnavailable
    else if reason ∈ ["expired", "密钥已过期"] then .expired
    else if reason ∈ ["quota_exhausted", "密钥剩余额度不足"] then .quotaExhausted
    else .upstreamDisabled
  else if key.modelsSynced = false ∨ key.effectiveModels = [] then .modelsUnavailable
  else if ∃ expiry ∈ key.expiresAt, expiry ≤ now then .expired
  else if ∃ quota ∈ key.remainQuota, quota ≤ 0 then .quotaExhausted
  else .routable

/-- The availability of a key as it is, or would be if it were enabled.  The keys of a key channel
are always routable. -/
def Key.availability (key : Key) (now : ℤ) : Availability :=
  match key.source with
  | .keyChannel => .routable
  | .platformSite => key.availabilityReason now

structure Site where
  channels : List Channel
  keys : List Key
  /-- `routing_key_healths`, by the id of the key. -/
  health : ℕ → Option Health

variable {site site' : Site} {channelId now : ℤ}

namespace Site

def getChannel (site : Site) (channelId : ℤ) : Option Channel :=
  Table.get Channel.id channelId site.channels

def getKey (site : Site) (channelId : ℤ) (routingKeyId : ℕ) : Option Key :=
  Table.get Key.ref (channelId, routingKeyId) site.keys

/-- `UPDATE channels SET status`. -/
def setChannelStatus (site : Site) (channelId : ℤ) (status : Status) : Site :=
  { site with
    channels := Table.modify Channel.id channelId (fun c => { c with status := status })
      site.channels }

/-- `UPDATE … SET status, disabled_reason` of a key. -/
def setKeyStatus (site : Site) (channelId : ℤ) (routingKeyId : ℕ) (status : Status)
    (reason : String) : Site :=
  { site with
    keys := Table.modify Key.ref (channelId, routingKeyId)
      (fun k => { k with status := status, disabledReason := reason }) site.keys }

/-- Write the record of a key. -/
def setHealth (site : Site) (routingKeyId : ℕ) (h : Health) : Site :=
  { site with health := Function.update site.health routingKeyId (some h) }

/-- `updateKeyChannelAvailability`.  An unknown channel is an error. -/
def updateKeyChannelAvailability (site : Site) (channelId : ℤ) (status : Status) : Option Site :=
  let keys := site.keys.filter fun k => k.source = .keyChannel ∧ k.channelId = channelId
  if keys = [] then some site
  else
    let hasEnabled := keys.any fun k => k.status = .enabled
    if hasEnabled ∧ status ≠ .enabled then some site
    else
      let channelStatus := if hasEnabled then .enabled else .autoDisabled
      match site.getChannel channelId with
      | none => none
      | some channel =>
        if channel.status = channelStatus then some site
        else some (site.setChannelStatus channelId channelStatus)

def updatePlatformSiteChannelAvailability (site : Site) (channelId : ℤ) (now : ℤ) : Option Site :=
  match site.getChannel channelId with
  | none => none
  | some channel =>
    if channel.status = .manuallyDisabled then some site
    else
      let hasEnabledKey := site.keys.any fun k =>
        k.source = .platformSite ∧ k.channelId = channelId ∧ k.status = .enabled ∧
          k.availabilityReason now = .routable
      if !hasEnabledKey ∨ channel.status = .enabled then some site
      else some (site.setChannelStatus channelId .enabled)

/-- `UpdateRoutingKeyStatus`; `none` when the transaction fails. -/
def updateRoutingKeyStatus (site : Site) (channelId : ℤ) (routingKeyId : ℕ) (status : Status)
    (reason : String) (now : ℤ) : Option Site :=
  if routingKeyId = 0 then none
  else
    match site.getKey channelId routingKeyId with
    | none => none
    | some key =>
      let site := site.setKeyStatus channelId routingKeyId status
        (if status = .enabled then "" else reason)
      match key.source with
      | .keyChannel => site.updateKeyChannelAvailability channelId status
      | .platformSite =>
        if status = .enabled then site.updatePlatformSiteChannelAvailability channelId now
        else some site

variable {status : Status}

theorem mem_keys_setKeyStatus {routingKeyId : ℕ} {reason : String} {k : Key} :
    k ∈ (site.setKeyStatus channelId routingKeyId status reason).keys ↔
      (k ∈ site.keys ∧ k.ref ≠ (channelId, routingKeyId)) ∨
        ∃ k' ∈ site.keys, k'.ref = (channelId, routingKeyId) ∧
          k = { k' with status := status, disabledReason := reason } := by
  simp only [setKeyStatus, Table.modify, List.mem_map]
  constructor
  · rintro ⟨k', hk', rfl⟩
    split_ifs with href
    · exact Or.inr ⟨k', hk', href, rfl⟩
    · exact Or.inl ⟨hk', href⟩
  · rintro (⟨hk, href⟩ | ⟨k', hk', href, rfl⟩)
    · exact ⟨k, hk, if_neg href⟩
    · exact ⟨k', hk', if_pos href⟩

theorem mem_channels_setChannelStatus {c : Channel} :
    c ∈ (site.setChannelStatus channelId status).channels ↔
      (c ∈ site.channels ∧ c.id ≠ channelId) ∨
        ∃ c' ∈ site.channels, c'.id = channelId ∧ c = { c' with status := status } := by
  simp only [setChannelStatus, Table.modify, List.mem_map]
  constructor
  · rintro ⟨c', hc', rfl⟩
    split_ifs with hid
    · exact Or.inr ⟨c', hc', hid, rfl⟩
    · exact Or.inl ⟨hc', hid⟩
  · rintro (⟨hc, hid⟩ | ⟨c', hc', hid, rfl⟩)
    · exact ⟨c, hc, if_neg hid⟩
    · exact ⟨c', hc', if_pos hid⟩

theorem getChannel_setChannelStatus (site : Site) (channelId : ℤ) (status : Status) (id : ℤ) :
    (site.setChannelStatus channelId status).getChannel id =
      (site.getChannel id).map fun c =>
        if c.id = channelId then { c with status := status } else c := by
  refine Table.get_map fun c => ?_
  split_ifs <;> rfl

def HasEnabledKey (site : Site) (channelId : ℤ) : Prop :=
  ∃ k ∈ site.keys, k.source = .keyChannel ∧ k.channelId = channelId ∧ k.status = .enabled

instance (site : Site) (channelId : ℤ) : Decidable (site.HasEnabledKey channelId) :=
  inferInstanceAs (Decidable (∃ _ ∈ _, _))

/-- **The status of a key channel.**  It is left alone, or set: to enabled when a key has just been
enabled, to automatically disabled when no key is enabled. -/
theorem updateKeyChannelAvailability_cases
    (h : site.updateKeyChannelAvailability channelId status = some site') :
    (site' = site ∧
      ((∀ k ∈ site.keys, ¬ (k.source = .keyChannel ∧ k.channelId = channelId)) ∨
        (site.HasEnabledKey channelId ∧ status ≠ .enabled) ∨
        ∃ c, site.getChannel channelId = some c ∧ c.status ≠ .manuallyDisabled)) ∨
      ∃ c status', site.getChannel channelId = some c ∧
        site' = site.setChannelStatus channelId status' ∧
        ((status' = .enabled ∧ status = .enabled) ∨
          (status' = .autoDisabled ∧ ¬ site.HasEnabledKey channelId)) := by
  have hany : ((site.keys.filter fun k => k.source = .keyChannel ∧ k.channelId = channelId).any
      fun k => k.status = .enabled) = true ↔ site.HasEnabledKey channelId := by
    simp [HasEnabledKey, and_assoc]
  simp only [updateKeyChannelAvailability] at h
  split_ifs at h with hnone hsome hhas
  · refine Or.inl ⟨(some.inj h).symm, Or.inl fun k hk hsource => ?_⟩
    exact List.filter_eq_nil_iff.1 hnone k hk (decide_eq_true hsource)
  · exact Or.inl ⟨(some.inj h).symm, Or.inr (Or.inl ⟨hany.1 hsome.1, hsome.2⟩)⟩
  · -- a key is enabled, so the status asked for is enabled
    have hstatus : status = .enabled := by
      by_contra hne
      exact hsome ⟨hhas, hne⟩
    split at h
    · simp at h
    · next c hc =>
      split_ifs at h with heq
      · refine Or.inl ⟨(some.inj h).symm, Or.inr (Or.inr ⟨c, hc, ?_⟩)⟩
        simp [heq]
      · exact Or.inr ⟨c, .enabled, hc, (some.inj h).symm, Or.inl ⟨rfl, hstatus⟩⟩
  · split at h
    · simp at h
    · next c hc =>
      split_ifs at h with heq
      · refine Or.inl ⟨(some.inj h).symm, Or.inr (Or.inr ⟨c, hc, ?_⟩)⟩
        simp [heq]
      · exact Or.inr ⟨c, .autoDisabled, hc, (some.inj h).symm,
          Or.inr ⟨rfl, mt hany.2 hhas⟩⟩

/-- **The status of a platform site.**  A manually disabled one is left alone. -/
theorem updatePlatformSiteChannelAvailability_cases
    (h : site.updatePlatformSiteChannelAvailability channelId now = some site') :
    site' = site ∨ (∃ c, site.getChannel channelId = some c ∧ c.status ≠ .manuallyDisabled) ∧
      site' = site.setChannelStatus channelId .enabled := by
  simp only [updatePlatformSiteChannelAvailability] at h
  split at h
  · simp at h
  · next c hc =>
    split_ifs at h with hmanual hleft
    · exact Or.inl (some.inj h).symm
    · exact Or.inl (some.inj h).symm
    · exact Or.inr ⟨⟨c, hc, hmanual⟩, (some.inj h).symm⟩

/-- **What `UpdateRoutingKeyStatus` writes.**  The key is there and gets its status; the channel is
recomputed, in the way of its kind. -/
theorem updateRoutingKeyStatus_cases {routingKeyId : ℕ} {reason : String}
    (h : site.updateRoutingKeyStatus channelId routingKeyId status reason now = some site') :
    ∃ key reason', site.getKey channelId routingKeyId = some key ∧
      let set := site.setKeyStatus channelId routingKeyId status reason'
      (key.source = .keyChannel ∧ set.updateKeyChannelAvailability channelId status = some site') ∨
        (key.source = .platformSite ∧
          (site' = set ∨ (status = .enabled ∧
            set.updatePlatformSiteChannelAvailability channelId now = some site'))) := by
  unfold updateRoutingKeyStatus at h
  by_cases hzero : routingKeyId = 0
  · simp [hzero] at h
  · rw [if_neg hzero] at h
    rcases hkey : site.getKey channelId routingKeyId with _ | key
    · simp [hkey] at h
    refine ⟨key, if status = .enabled then "" else reason, rfl, ?_⟩
    rw [hkey] at h
    cases hsource : key.source with
    | keyChannel =>
      simp only [hsource] at h
      exact Or.inl ⟨rfl, h⟩
    | platformSite =>
      refine Or.inr ⟨rfl, ?_⟩
      simp only [hsource] at h
      by_cases hstatus : status = .enabled
      · rw [if_pos hstatus] at h
        exact Or.inr ⟨hstatus, h⟩
      · rw [if_neg hstatus, Option.some.injEq] at h
        exact Or.inl h.symm

theorem updateRoutingKeyStatus_frame {routingKeyId : ℕ} {reason : String}
    (h : site.updateRoutingKeyStatus channelId routingKeyId status reason now = some site') :
    (∃ reason', site'.keys = (site.setKeyStatus channelId routingKeyId status reason').keys) ∧
      site'.health = site.health ∧
      (site'.channels = site.channels ∨
        ∃ status', site'.channels = (site.setChannelStatus channelId status').channels) := by
  obtain ⟨key, reason', -, ⟨-, hkc⟩ | ⟨-, rfl | ⟨-, hps⟩⟩⟩ := updateRoutingKeyStatus_cases h
  · rcases updateKeyChannelAvailability_cases hkc with ⟨rfl, -⟩ | ⟨c, status', -, rfl, -⟩
    · exact ⟨⟨reason', rfl⟩, rfl, Or.inl rfl⟩
    · exact ⟨⟨reason', rfl⟩, rfl, Or.inr ⟨status', rfl⟩⟩
  · exact ⟨⟨reason', rfl⟩, rfl, Or.inl rfl⟩
  · rcases updatePlatformSiteChannelAvailability_cases hps with rfl | ⟨-, rfl⟩
    · exact ⟨⟨reason', rfl⟩, rfl, Or.inl rfl⟩
    · exact ⟨⟨reason', rfl⟩, rfl, Or.inr ⟨.enabled, rfl⟩⟩

end Site

/-! ### What is due for a test -/

/-- `RoutingKeyRecoveryCandidate`. -/
structure RecoveryCandidate where
  routingKeyId : ℕ
  channelId : ℤ
  source : Source
  status : Status
  availabilityReason : Availability
  channel : Channel
  deriving DecidableEq

/-- The loop body of `ListDueRoutingKeyRecoveryCandidates`: a key that is due, or nothing. -/
def Site.dueCandidate (site : Site) (now : ℤ) (key : Key) : Option RecoveryCandidate :=
  match site.getChannel key.channelId with
  | none => none
  | some channel =>
    if channel.status = .manuallyDisabled then none
    else
      let status := if key.status = .unknown then .enabled else key.status
      if status ≠ .enabled ∧ status ≠ .autoDisabled then none
      else
        -- an automatically disabled key is judged as if it were enabled
        let availabilityReason :=
          (if status = .autoDisabled then { key with status := .enabled } else key).availability now
        let health := site.health key.id
        let summary := getRoutingKeyHealthSummary health .enabled availabilityReason now
        if summary.status ≠ .invalid ∧ status ≠ .autoDisabled ∧
            ¬ ∃ h ∈ health, h.recoveryPhase = .confirming then none
        else if healthRecoveryStateDue health (unix now) then
          some ⟨key.id, key.channelId, key.source, status, availabilityReason, channel⟩
        else none

def Site.listDueRoutingKeyRecoveryCandidates (site : Site) (now : ℤ) : List RecoveryCandidate :=
  (Table.select (fun _ => true) (fun a b : Key => a.id ≤ b.id) site.keys).filterMap
    (site.dueCandidate now)

/-- The health of the key is invalid, as the key stands. -/
def Site.HealthInvalid (site : Site) (now : ℤ) (key : Key) : Prop :=
  (getRoutingKeyHealthSummary (site.health key.id) key.status (key.availability now) now).status =
    .invalid

instance (site : Site) (now : ℤ) (key : Key) : Decidable (site.HealthInvalid now key) :=
  inferInstanceAs (Decidable (_ = _))

/-- A key the recovery is there for: out of service, but neither it nor its channel by hand. -/
structure Site.Recoverable (site : Site) (now : ℤ) (key : Key) : Prop where
  mem : key ∈ site.keys
  not_manual : key.status ≠ .manuallyDisabled
  not_missing : key.status ≠ .missing
  out : key.status = .autoDisabled ∨ site.HealthInvalid now key
  channel : ∃ c, site.getChannel key.channelId = some c ∧ c.status ≠ .manuallyDisabled

def Site.Listed (site : Site) (now : ℤ) (key : Key) : Prop :=
  ∃ c ∈ site.listDueRoutingKeyRecoveryCandidates now,
    c.routingKeyId = key.id ∧ c.channelId = key.channelId

/-- **Whatever is due is listed.** -/
theorem Site.Recoverable.listed {key : Key} (h : site.Recoverable now key)
    (hdue : healthRecoveryStateDue (site.health key.id) (unix now) = true) :
    site.Listed now key := by
  obtain ⟨channel, hchannel, hopen⟩ := h.channel
  have hmem : key ∈ Table.select (fun _ => true) (fun a b : Key => a.id ≤ b.id) site.keys :=
    Table.mem_select.2 ⟨h.mem, rfl⟩
  suffices hsome : ∃ c, site.dueCandidate now key = some c ∧ c.routingKeyId = key.id ∧
      c.channelId = key.channelId by
    obtain ⟨c, hc, hids⟩ := hsome
    exact ⟨c, List.mem_filterMap.2 ⟨key, hmem, hc⟩, hids⟩
  simp only [Site.dueCandidate, hchannel, if_neg hopen, hdue, if_true]
  cases hstatus : key.status with
  | manuallyDisabled => exact absurd hstatus h.not_manual
  | missing => exact absurd hstatus h.not_missing
  | autoDisabled => simp
  | enabled =>
    have hinvalid : site.HealthInvalid now key := by simpa [hstatus] using h.out
    rw [Site.HealthInvalid, hstatus] at hinvalid
    simp [hinvalid]
  | unknown =>
    have hinvalid : site.HealthInvalid now key := by simpa [hstatus] using h.out
    rw [Site.HealthInvalid, hstatus] at hinvalid
    -- a status that was never set is judged as enabled
    have hbase : getRoutingKeyHealthSummary (site.health key.id) .unknown (key.availability now) now =
        getRoutingKeyHealthSummary (site.health key.id) .enabled (key.availability now) now := rfl
    rw [hbase] at hinvalid
    simp [hinvalid]

end NexusTok.Routing
