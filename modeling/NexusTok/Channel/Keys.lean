import NexusTok.Channel.Ability

/-!
# Operations on the keys of a channel

Each of them is a transaction over `channel_keys`, `routing_keys` and `routing_key_health`, which
ends with the summary of the channel.  A transaction that fails at any of its statements leaves the
tables as they were; only a failure to load the info that the summary starts from is ignored.
-/

namespace NexusTok.Channels

open Option

/-! ### The transactions -/

/-- Delete the rows of routing keys, with their health. -/
def Store.dropRouting (st : Store) (ids : List ℕ) : Store :=
  { st with
    health := st.health.filter fun id => decide (id ∉ ids)
    routingKeys := st.routingKeys.filter fun r => decide (r.id ∉ ids) }

def replaceChannelKeysFromPlaintext (cfg : Config) (infoFails : Bool) (channel : Channel)
    (secrets : List String) (st : Store) : Store :=
  let existing := st.keysOf channel.id
  let routingIds := existing.map fun key => key.routingKeyId
  let st : Store := { st with
    channelKeys := st.channelKeys.filter fun key => decide (key.channelId ≠ channel.id) }
  let st := secrets.zipIdx.foldl
    (fun st e => createChannelKey cfg st channel e.1 e.2 enabled "" 0) (st.dropRouting routingIds)
  updateChannelKeySummary st channel.id infoFails

/-- The loop of `AppendChannelKeysFromPlaintext` over the secrets. -/
def appendSecrets (cfg : Config) (channel : Channel) : List String → List String → ℕ → Store → Store
  | [], _, _, st => st
  | secret :: secrets, seen, nextIndex, st =>
    let secret := trimSpace secret
    if secret = "" then appendSecrets cfg channel secrets seen nextIndex st
    else
      let fingerprint := cfg.hmac secret
      if fingerprint ∈ seen then appendSecrets cfg channel secrets seen nextIndex st
      else
        appendSecrets cfg channel secrets (fingerprint :: seen) (nextIndex + 1)
          (createChannelKey cfg st channel secret nextIndex enabled "" 0)

/-- The index after the greatest one. -/
def nextIndexOf (keys : List ChannelKey) : ℕ :=
  keys.foldl (fun next key => max next (key.keyIndex + 1)) 0

def appendChannelKeysFromPlaintext (cfg : Config) (infoFails : Bool) (channel : Channel)
    (secrets : List String) (st : Store) : Store :=
  let existing := st.loadChannelKeys channel.id
  let seen := (existing.map fun key => key.secretFingerprint).filter fun f => decide (f ≠ "")
  let st := appendSecrets cfg channel secrets seen (nextIndexOf existing) st
  updateChannelKeySummary st channel.id infoFails

def Store.setKeyIndex (st : Store) (id keyIndex : ℕ) : Store :=
  { st with
    channelKeys := Table.modify (fun key : ChannelKey => key.id) id
      (fun key => { key with keyIndex := keyIndex }) st.channelKeys }

def reindexChannelKeys (infoFails : Bool) (channelId : ℤ) (st : Store) : Store :=
  let st := (st.loadChannelKeys channelId).zipIdx.foldl
    (fun st e => if e.1.keyIndex = e.2 then st else st.setKeyIndex e.1.id e.2) st
  updateChannelKeySummary st channelId infoFails

/-- `DeleteChannelKey`; `none` when there is no such key. -/
def deleteChannelKey (infoFails : Bool) (channelId : ℤ) (routingKeyId : ℕ) (st : Store) :
    Option Store :=
  let found := Table.select
    (fun key => decide (key.channelId = channelId ∧ key.routingKeyId = routingKeyId))
    (fun a b : ChannelKey => decide (a.id ≤ b.id)) st.channelKeys
  match found.head? with
  | none => none
  | some key =>
    let st : Store := { st with channelKeys := st.channelKeys.filter fun k => decide (k.id ≠ key.id) }
    some (reindexChannelKeys infoFails channelId (st.dropRouting [routingKeyId]))

/-- Set the status of a channel, with the reason and the time, and those of its abilities. -/
def Store.setChannelStatus (st : Store) (channelId status : ℤ) (info : Option (String × ℤ)) :
    Store :=
  let st := st.updateChannel channelId fun ch =>
    { ch with status := status, statusInfo := info.or ch.statusInfo }
  { st with abilities := updateAbilityStatus st.abilities channelId (decide (status = enabled)) }

/-- `updateKeyChannelAvailability`; `none` when there is no such channel. -/
def updateKeyChannelAvailability (channelId status : ℤ) (reason : String) (now : ℤ)
    (st : Store) : Option Store :=
  let keys := st.keysOf channelId
  if keys = [] then some st
  else
    let hasEnabled := keys.any fun key => decide (key.status = enabled)
    if hasEnabled && decide (status ≠ enabled) then some st
    else
      let channelStatus := if hasEnabled then enabled else autoDisabled
      let statusReason := if hasEnabled then reason else "All keys are disabled"
      match st.channel channelId with
      | none => none
      | some channel =>
        if channel.status = channelStatus then some st
        else some (st.setChannelStatus channelId channelStatus (some (statusReason, now)))

/-- `updatePlatformSiteChannelAvailability`.  `routable` is whether a key of the upstream account is
enabled and routable. -/
def updatePlatformSiteChannelAvailability (routable : Bool) (channelId : ℤ) (st : Store) :
    Option Store :=
  match st.channel channelId with
  | none => none
  | some channel =>
    if channel.status = manuallyDisabled then some st
    else if !routable || decide (channel.status = enabled) then some st
    else some (st.setChannelStatus channelId enabled none)

theorem updateKeyChannelAvailability_cases {st st' : Store} {channelId status now : ℤ}
    {reason : String}
    (h : updateKeyChannelAvailability channelId status reason now st = some st') :
    st' = st ∨ ∃ s info, st' = st.setChannelStatus channelId s info := by
  simp only [updateKeyChannelAvailability] at h
  split_ifs at h
  · exact .inl (some.inj h).symm
  · exact .inl (some.inj h).symm
  all_goals
    split at h
    · cases h
    · split_ifs at h
      · exact .inl (some.inj h).symm
      · exact .inr ⟨_, _, (some.inj h).symm⟩

theorem updatePlatformSiteChannelAvailability_cases {st st' : Store} {channelId : ℤ}
    {routable : Bool}
    (h : updatePlatformSiteChannelAvailability routable channelId st = some st') :
    st' = st ∨ ∃ s info, st' = st.setChannelStatus channelId s info := by
  simp only [updatePlatformSiteChannelAvailability] at h
  split at h
  · cases h
  · split_ifs at h
    · exact .inl (some.inj h).symm
    · exact .inl (some.inj h).symm
    · exact .inr ⟨_, _, (some.inj h).symm⟩

/-- Set the status of a key, with the reason and the time when it is disabled. -/
def Store.setKeyStatus (st : Store) (channelId : ℤ) (routingKeyId : ℕ) (status : ℤ)
    (reason : String) (now : ℤ) : Store :=
  { st with
    channelKeys := Table.update
      (fun key => decide (key.routingKeyId = routingKeyId ∧ key.channelId = channelId))
      (fun key => { key with
        status := status
        disabledReason := if status = enabled then "" else reason
        disabledTime := if status = enabled then 0 else now }) st.channelKeys }

/-- `UpdateRoutingKeyStatus`; `none` when the transaction fails. -/
def updateRoutingKeyStatus (infoFails routable : Bool) (channelId : ℤ) (routingKeyId : ℕ)
    (status : ℤ) (reason : String) (now : ℤ) (st : Store) : Option Store :=
  if routingKeyId = 0 then none
  else
    match st.routingKeys.find? fun r => decide (r.id = routingKeyId ∧ r.channelId = channelId) with
    | none => none
    | some routingKey =>
      match routingKey.source with
      | .keyChannel =>
        let st := st.setKeyStatus channelId routingKeyId status reason now
        let st := updateChannelKeySummary st channelId infoFails
        updateKeyChannelAvailability channelId status reason now st
      | .platformSite =>
        if status = enabled then updatePlatformSiteChannelAvailability routable channelId st
        else some st

/-- **All that `UpdateRoutingKeyStatus` can do.** -/
theorem updateRoutingKeyStatus_cases {infoFails routable : Bool} {channelId status now : ℤ}
    {routingKeyId : ℕ} {reason : String} {st st' : Store}
    (h : updateRoutingKeyStatus infoFails routable channelId routingKeyId status reason now st =
      some st') :
    ∃ st₁, (st₁ = st ∨ st₁ = updateChannelKeySummary
        (st.setKeyStatus channelId routingKeyId status reason now) channelId infoFails) ∧
      (st' = st₁ ∨ ∃ s info, st' = st₁.setChannelStatus channelId s info) := by
  unfold updateRoutingKeyStatus at h
  by_cases hzero : routingKeyId = 0
  · rw [if_pos hzero] at h
    cases h
  rw [if_neg hzero] at h
  split at h
  · cases h
  split at h
  · exact ⟨_, .inr rfl, updateKeyChannelAvailability_cases h⟩
  · split_ifs at h
    · exact ⟨st, .inl rfl, updatePlatformSiteChannelAvailability_cases h⟩
    · exact ⟨st, .inl rfl, .inl (some.inj h).symm⟩

/-- `SyncChannelKeysFromLegacyField` within a transaction. -/
def syncChannelKeysFromLegacyField (cfg : Config) (infoFails : Bool) (channel : Channel)
    (st : Store) : Store :=
  if channel.upstreamKind = .platformSite ∨ trimSpace channel.key = "" then st
  else if st.keysOf channel.id ≠ [] then
    st.clearKey channel.id
  else
    let st := (channelKeyPlaintextsFromField cfg channel []).zipIdx.foldl
      (fun st e =>
        let (status, reason, disabledTime) := channel.channelInfo.saved e.2
        createChannelKey cfg st channel e.1 e.2 status reason disabledTime) st
    (updateChannelKeySummary st channel.id infoFails).clearKey channel.id

/-- The columns that the database fills in when they are zero. -/
def Channel.withDefaults (channel : Channel) : Channel :=
  { channel with
    status := if channel.status = 0 then enabled else channel.status
    group := if channel.group = "" then "default" else channel.group
    weight := some (channel.weight.getD 0)
    priority := some (channel.priority.getD 0) }

/-- `Insert`; `none` when the id is taken. -/
def insertChannel (cfg : Config) (infoFails : Bool) (channel : Channel) (st : Store) :
    Option Store :=
  if channel.id ∈ st.channels.map fun ch => ch.id then none
  else
    let channel := channel.withDefaults
    let st : Store := { st with channels := st.channels ++ [channel] }
    let st : Store := { st with abilities := addAbilities st.abilities channel }
    some (syncChannelKeysFromLegacyField cfg infoFails channel st)

/-! ### Runs of operations -/

inductive KeyOp where
  | replace (channel : Channel) (secrets : List String)
  | append (channel : Channel) (secrets : List String)
  | delete (channelId : ℤ) (routingKeyId : ℕ)
  | updateStatus (channelId : ℤ) (routingKeyId : ℕ) (status : ℤ) (reason : String) (now : ℤ)
      (routable : Bool)
  | insert (channel : Channel)

/-- An operation; `none` when it fails of itself.  The keys that are replaced or appended to are
those of a channel that the caller has loaded. -/
def KeyOp.run (cfg : Config) (infoFails : Bool) (st : Store) : KeyOp → Option Store
  | .replace channel secrets =>
    (st.channel channel.id).map fun _ =>
      replaceChannelKeysFromPlaintext cfg infoFails channel secrets st
  | .append channel secrets =>
    (st.channel channel.id).map fun _ =>
      appendChannelKeysFromPlaintext cfg infoFails channel secrets st
  | .delete channelId routingKeyId => deleteChannelKey infoFails channelId routingKeyId st
  | .updateStatus channelId routingKeyId status reason now routable =>
    updateRoutingKeyStatus infoFails routable channelId routingKeyId status reason now st
  | .insert channel => insertChannel cfg infoFails channel st

/-- An operation, and the statements of it that fail: that which loads the info for the summary, or
another one. -/
structure KeyEvent where
  op : KeyOp
  infoFails : Bool := false
  fails : Bool := false

def keyStep (cfg : Config) (st : Store) (e : KeyEvent) : Store :=
  if e.fails then st else (e.op.run cfg e.infoFails st).getD st

end NexusTok.Channels
