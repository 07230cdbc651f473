import NexusTok.Channel.Keys

/-!
# Operations on channels

The operations that change channels change `abilities` along with them: by building the rows of a
channel anew, or by changing the columns of the rows that a channel or a tag has.  A channel that is
updated from a struct keeps the columns whose new value is zero (`ChannelPatch`).
-/

namespace NexusTok.Channels

/-! ### Updates from a struct -/

/-- What `Updates` writes.  Empty texts, `0` and `none` are zero values and not written; a pointer to
zero is written. -/
structure ChannelPatch where
  key : String := ""
  status : ℤ := 0
  models : String := ""
  group : String := ""
  weight : Option ℕ := none
  priority : Option ℤ := none
  tag : Option String := none
  upstreamKind : Option Routing.Source := none
  keyPriority : ℤ := 0
  channelInfo : Option ChannelInfo := none
  statusInfo : Option (String × ℤ) := none

def Channel.patch (channel : Channel) (p : ChannelPatch) : Channel where
  id := channel.id
  key := if p.key = "" then channel.key else p.key
  status := if p.status = 0 then channel.status else p.status
  models := if p.models = "" then channel.models else p.models
  group := if p.group = "" then channel.group else p.group
  weight := p.weight.or channel.weight
  priority := p.priority.or channel.priority
  tag := p.tag.or channel.tag
  upstreamKind := p.upstreamKind.getD channel.upstreamKind
  keyPriority := if p.keyPriority = 0 then channel.keyPriority else p.keyPriority
  channelInfo := p.channelInfo.getD channel.channelInfo
  statusInfo := p.statusInfo.or channel.statusInfo

/-- The struct itself, where no row replaces it. -/
def ChannelPatch.channel (p : ChannelPatch) (id : ℤ) : Channel where
  id := id
  key := p.key
  status := p.status
  models := p.models
  group := p.group
  weight := p.weight
  priority := p.priority
  tag := p.tag
  upstreamKind := p.upstreamKind.getD .keyChannel
  keyPriority := p.keyPriority
  channelInfo := p.channelInfo.getD {}
  statusInfo := p.statusInfo

variable (cfg : Config)

/-- How `Update` reads a list of keys: an empty array is read as lines. -/
def updateKeys (key : String) : List String :=
  if key = "" then []
  else
    let trimmed := trimSpace key
    let lines := split '\n' (trim '\n' key)
    if trimmed.toList.head? = some '[' then
      match cfg.unmarshal trimmed with
      | some (k :: ks) => k :: ks
      | _ => lines
    else lines

/-- What `Update` makes of the info of a multi-key channel. -/
def ChannelInfo.recount (info : ChannelInfo) (cfg : Config) (st : Store) (channelId : ℤ)
    (key : String) : ChannelInfo :=
  if info.isMultiKey = false then info
  else if key = "" ∧ st.keysOf channelId ≠ [] then
    { info with multiKeySize := (st.keysOf channelId).length }
  else
    let keyStr := if key ≠ "" then key else (st.channel channelId).elim "" fun ch => ch.key
    let size := (updateKeys cfg keyStr).length
    { info with
      multiKeySize := size
      multiKeyStatusList := fun i => if size ≤ i then none else info.multiKeyStatusList i }

/-- `Update`.  That the row is not there is no error. -/
def updateChannel (channelId : ℤ) (p : ChannelPatch) (st : Store) : Store :=
  let p := { p with
    channelInfo := p.channelInfo.map fun info => info.recount cfg st channelId p.key }
  let st := st.updateChannel channelId fun ch => ch.patch p
  let channel := (st.channel channelId).getD (p.channel channelId)
  { st with abilities := updateAbilities st.abilities channel }

/-! ### Inserting channels -/

/-- The rows of a chunk are inserted, then their abilities and keys; `none` when an id is taken. -/
def insertChunk (infoFails : Bool) (st : Store) (channels : List Channel) : Option Store :=
  if ((st.channels ++ channels).map fun ch => ch.id).Nodup then
    let channels := channels.map Channel.withDefaults
    some (channels.foldl
      (fun st channel => syncChannelKeysFromLegacyField cfg infoFails channel
        { st with abilities := addAbilities st.abilities channel })
      { st with channels := st.channels ++ channels })
  else none

/-- `BatchInsertChannels`; `none` when the transaction fails. -/
def batchInsertChannels (infoFails : Bool) (channels : List Channel) (st : Store) : Option Store :=
  (chunk 50 channels).foldlM (insertChunk cfg infoFails) st

/-! ### Status -/

def hasEnabledMultiKey (keys : List String) (statusList : ℕ → Option ℤ) : Bool :=
  (List.range keys.length).any fun i =>
    (statusList i).all fun status => decide (status = enabled)

def handlerMultiKeyUpdate (channel : Channel) (usingKey : String) (status : ℤ)
    (reason : String) (now : ℤ) : Channel :=
  let keys := getKeys cfg channel []
  if keys = [] then { channel with status := status }
  else if usingKey ∉ keys then
    if usingKey ≠ "" then channel
    else { channel with status := status, statusInfo := some (reason, now) }
  else
    let keyIndex := keys.idxOf usingKey
    let info := channel.channelInfo
    let info := if status = enabled then
        { info with multiKeyStatusList := Function.update info.multiKeyStatusList keyIndex none }
      else
        { info with
          multiKeyStatusList := Function.update info.multiKeyStatusList keyIndex (some status)
          multiKeyDisabledReason :=
            Function.update info.multiKeyDisabledReason keyIndex (some reason)
          multiKeyDisabledTime := Function.update info.multiKeyDisabledTime keyIndex (some now) }
    let channel := { channel with channelInfo := info }
    if !hasEnabledMultiKey keys info.multiKeyStatusList then
      { channel with
        status := autoDisabled
        statusInfo := some ("All keys are disabled", now) }
    else if status = enabled then { channel with status := enabled }
    else channel

def Store.saveStatusState (st : Store) (channel : Channel) : Store :=
  st.updateChannel channel.id fun ch =>
    { ch with
      status := channel.status
      statusInfo := channel.statusInfo
      channelInfo := if channel.channelInfo.isMultiKey then channel.channelInfo
        else ch.channelInfo }

/-- `UpdateChannelStatus`.  `cached` is whether the cache has no such channel, or has it with the
status already, so that nothing is done. -/
def updateChannelStatus (cached : Bool) (channelId : ℤ) (usingKey : String)
    (status : ℤ) (reason : String) (now : ℤ) (st : Store) : Store :=
  if cached then st
  else
    match st.channel channelId with
    | none => st
    | some channel =>
      if channel.status = status then st
      else if channel.channelInfo.isMultiKey then
        let updated := handlerMultiKeyUpdate cfg channel usingKey status reason now
        let st := st.saveStatusState updated
        if channel.status ≠ updated.status then
          { st with
            abilities := updateAbilityStatus st.abilities channelId (decide (status = enabled)) }
        else st
      else
        let st := st.saveStatusState
          { channel with status := status, statusInfo := some (reason, now) }
        { st with
          abilities := updateAbilityStatus st.abilities channelId (decide (status = enabled)) }

/-! ### Tags -/

/-- `UPDATE channels … WHERE tag = ?`. -/
def Store.updateByTag (st : Store) (tag : String) (f : Channel → Channel) : Store :=
  { st with channels := Table.update (fun ch => decide (ch.tag = some tag)) f st.channels }

/-- `EnableChannelByTag`, and `DisableChannelByTag` with the other status. -/
def setStatusByTag (tag : String) (status : ℤ) (st : Store) : Store :=
  let st := st.updateByTag tag fun ch => { ch with status := status }
  { st with
    abilities := updateAbilityStatusByTag st.abilities tag (decide (status = enabled)) }

def enableChannelByTag (tag : String) (st : Store) : Store := setStatusByTag tag enabled st

def disableChannelByTag (tag : String) (st : Store) : Store :=
  setStatusByTag tag manuallyDisabled st

/-- What `EditChannelByTag` writes to the channels of a tag. -/
def tagPatch (tag : String) (newTag models group : Option String) (priority : Option ℤ)
    (weight : Option ℕ) : ChannelPatch where
  tag := if newTag = some tag then none else newTag
  models := models.getD ""
  group := group.getD ""
  priority := priority
  weight := weight

/-- The tag that the channels have then. -/
def updatedTag (tag : String) (newTag : Option String) : String := newTag.getD tag

def editChannelByTag (tag : String) (newTag models group : Option String) (priority : Option ℤ)
    (weight : Option ℕ) (st : Store) : Store :=
  let p := tagPatch tag newTag models group priority weight
  let st := st.updateByTag tag fun ch => ch.patch p
  if p.models ≠ "" ∨ p.group ≠ "" then
    let channels := st.channels.filter fun ch => decide (ch.tag = some (updatedTag tag newTag))
    { st with abilities := channels.foldl updateAbilities st.abilities }
  else
    { st with abilities := updateAbilityByTag st.abilities tag newTag priority weight }

/-! ### Runs of operations -/

inductive ChannelOp where
  | insert (channel : Channel)
  | batchInsert (channels : List Channel)
  | update (channelId : ℤ) (p : ChannelPatch)
  | updateStatus (channelId : ℤ) (usingKey : String) (status : ℤ) (reason : String) (now : ℤ)
      (cached : Bool)
  | enableByTag (tag : String)
  | disableByTag (tag : String)
  | editByTag (tag : String) (newTag models group : Option String) (priority : Option ℤ)
      (weight : Option ℕ)
  | updateRoutingKeyStatus (channelId : ℤ) (routingKeyId : ℕ) (status : ℤ) (reason : String)
      (now : ℤ) (routable : Bool)
  | fixAbility

/-- An operation whose statements succeed, except that the info for a summary may not load; `none`
when the operation fails of itself. -/
def ChannelOp.run (infoFails : Bool) (st : Store) : ChannelOp → Option Store
  | .insert channel => insertChannel cfg infoFails channel st
  | .batchInsert channels => batchInsertChannels cfg infoFails channels st
  | .update channelId p => some (updateChannel cfg channelId p st)
  | .updateStatus channelId usingKey status reason now cached =>
    some (updateChannelStatus cfg cached channelId usingKey status reason now st)
  | .enableByTag tag => some (enableChannelByTag tag st)
  | .disableByTag tag => some (disableChannelByTag tag st)
  | .editByTag tag newTag models group priority weight =>
    some (editChannelByTag tag newTag models group priority weight st)
  | .updateRoutingKeyStatus channelId routingKeyId status reason now routable =>
    Channels.updateRoutingKeyStatus infoFails routable channelId routingKeyId status reason now st
  | .fixAbility => some { st with abilities := Channels.fixAbility st.channels }

structure ChannelEvent where
  op : ChannelOp
  infoFails : Bool := false

def channelStep (st : Store) (e : ChannelEvent) : Store :=
  (e.op.run cfg e.infoFails st).getD st

end NexusTok.Channels
