import Mathlib.Logic.Function.Basic
import NexusTok.Routing.Keys

/-!
# Channels, their keys, and the tables

A key channel is served by keys of its own.  They used to be stored in one field of the channel,
with what is known of each key in maps by position; they are stored in `channel_keys` now, each of
them under an id of `routing_keys` by which requests refer to it.  The maps of the channel are
recomputed from the rows (`updateChannelKeySummary`).

A secret is stored encrypted; here it stands for its ciphertext.
-/

namespace NexusTok.Channels

open Routing (Source)

/-- `ChannelStatusEnabled`. -/
def enabled : ℤ := 1

/-- `ChannelStatusManuallyDisabled`. -/
def manuallyDisabled : ℤ := 2

/-- `ChannelStatusAutoDisabled`. -/
def autoDisabled : ℤ := 3

/-- What a channel knows of its keys; the maps are by the index of a key. -/
structure ChannelInfo where
  isMultiKey : Bool := false
  multiKeySize : ℕ := 0
  multiKeyStatusList : ℕ → Option ℤ := fun _ => none
  multiKeyDisabledReason : ℕ → Option String := fun _ => none
  multiKeyDisabledTime : ℕ → Option ℤ := fun _ => none
  multiKeyPollingIndex : ℕ := 0
  multiKeyMode : String := ""

/-- A row of `channels`. -/
structure Channel where
  id : ℤ
  key : String
  status : ℤ
  models : String
  group : String
  weight : Option ℕ
  priority : Option ℤ
  tag : Option String
  upstreamKind : Source
  keyPriority : ℤ
  channelInfo : ChannelInfo
  /-- `status_reason` and `status_time` in `other_info`. -/
  statusInfo : Option (String × ℤ)

/-- A row of `routing_keys`. -/
structure RoutingKey where
  id : ℕ
  channelId : ℤ
  source : Source
  sourceRefId : ℕ
  deriving DecidableEq

/-- A row of `channel_keys`. -/
structure ChannelKey where
  id : ℕ
  routingKeyId : ℕ
  channelId : ℤ
  keyIndex : ℕ
  secret : String
  secretFingerprint : String
  status : ℤ
  disabledReason : String
  disabledTime : ℤ
  keyPriority : ℤ
  deriving DecidableEq

/-- A row of `abilities`. -/
structure Ability where
  group : String
  model : String
  channelId : ℤ
  enabled : Bool
  priority : ℤ
  weight : ℕ
  tag : Option String
  deriving DecidableEq

/-- The tables.  Of `routing_key_health`, the routing keys that have a row. -/
structure Store where
  channels : List Channel := []
  abilities : List Ability := []
  routingKeys : List RoutingKey := []
  channelKeys : List ChannelKey := []
  health : List ℕ := []
  nextRoutingKeyId : ℕ := 1
  nextChannelKeyId : ℕ := 1

/-- What comes from outside the code. -/
structure Config where
  /-- `GenerateHMAC`. -/
  hmac : String → String
  /-- The digest is written out in hexadecimal, so it is not empty. -/
  hmac_ne : ∀ s, hmac s ≠ ""
  /-- The elements of a JSON array, as they are written. -/
  unmarshal : String → Option (List String)

/-- A configuration whose digests are the texts themselves, after a mark. -/
def plainConfig : Config where
  hmac s := String.ofList ('#' :: s.toList)
  hmac_ne s h := by
    have hlist := congrArg String.toList h
    rw [String.toList_ofList] at hlist
    cases hlist
  unmarshal _ := none

/-! ### The legacy field -/

/-- `GetKeys`.  `cached` are the `Keys` that the cache has filled in. -/
def getKeys (cfg : Config) (channel : Channel) (cached : List String) : List String :=
  if channel.key = "" then []
  else if cached ≠ [] then cached
  else
    let trimmed := trimSpace channel.key
    let lines := split '\n' (trim '\n' channel.key)
    if trimmed.toList.head? = some '[' then (cfg.unmarshal trimmed).getD lines else lines

def channelKeyPlaintextsFromField (cfg : Config) (channel : Channel) (cached : List String) :
    List String :=
  ((getKeys cfg channel cached).map trimSpace).filter fun key => decide (key ≠ "")

/-- What is known of a key: its status, and the reason and the time of its disablement. -/
abbrev Record := ℤ × String × ℤ

/-- What is recorded for an index.  An index without a status is enabled. -/
def ChannelInfo.recorded (info : ChannelInfo) (i : ℕ) : Record :=
  ((info.multiKeyStatusList i).getD enabled, (info.multiKeyDisabledReason i).getD "",
    (info.multiKeyDisabledTime i).getD 0)

/-- The status, the reason and the time that `SyncChannelKeysFromLegacyField` passes on for the
key at a position. -/
def ChannelInfo.saved (info : ChannelInfo) (index : ℕ) : Record :=
  let status := (info.multiKeyStatusList index).getD enabled
  if status ≠ enabled then
    (status, (info.multiKeyDisabledReason index).getD "",
      (info.multiKeyDisabledTime index).getD 0)
  else (status, "", 0)

/-! ### Inserting a key -/

def normalizeRoutingKeyPriority (priority : ℤ) : ℤ := max 0 (min 99 priority)

variable (st : Store) (channelId : ℤ)

/-- `newRoutingKey`, with the id of the row. -/
def Store.newRoutingKey (source : Source) (sourceRefId : ℕ) : ℕ × Store :=
  (st.nextRoutingKeyId,
    { st with
      routingKeys := st.routingKeys ++ [⟨st.nextRoutingKeyId, channelId, source, sourceRefId⟩]
      nextRoutingKeyId := st.nextRoutingKeyId + 1 })

/-- Insert a row of `channel_keys`, with its id. -/
def Store.insertKey (key : ℕ → ChannelKey) : ℕ × Store :=
  (st.nextChannelKeyId,
    { st with
      channelKeys := st.channelKeys ++ [key st.nextChannelKeyId]
      nextChannelKeyId := st.nextChannelKeyId + 1 })

/-- Set `source_ref_id` of a routing key. -/
def Store.linkKey (routingKeyId keyId : ℕ) : Store :=
  { st with
    routingKeys := Table.modify (fun r : RoutingKey => r.id) routingKeyId
      (fun r => { r with sourceRefId := keyId }) st.routingKeys }

/-- The row that `createChannelKey` inserts. -/
def newChannelKey (cfg : Config) (channel : Channel) (secret : String) (keyIndex : ℕ) (status : ℤ)
    (reason : String) (disabledTime : ℤ) (routingKeyId id : ℕ) : ChannelKey where
  id := id
  routingKeyId := routingKeyId
  channelId := channel.id
  keyIndex := keyIndex
  secret := secret
  secretFingerprint := cfg.hmac secret
  status := if status = 0 then enabled else status
  disabledReason := reason
  disabledTime := disabledTime
  keyPriority := normalizeRoutingKeyPriority channel.keyPriority

/-- `createChannelKey`, when every statement succeeds. -/
def createChannelKey (cfg : Config) (st : Store) (channel : Channel) (secret : String)
    (keyIndex : ℕ) (status : ℤ) (reason : String) (disabledTime : ℤ) : Store :=
  let secret := trimSpace secret
  if secret = "" then st
  else
    let (routingKeyId, st) := st.newRoutingKey channel.id .keyChannel 0
    let (keyId, st) := st.insertKey
      (newChannelKey cfg channel secret keyIndex status reason disabledTime routingKeyId)
    st.linkKey routingKeyId keyId

/-! ### The summary -/

/-- The keys of a channel, as they were inserted. -/
def Store.keysOf : List ChannelKey :=
  st.channelKeys.filter fun key => decide (key.channelId = channelId)

/-- The keys of a channel, in their order. -/
def Store.loadChannelKeys : List ChannelKey :=
  Table.select (fun key => decide (key.channelId = channelId))
    (fun a b => decide (a.keyIndex < b.keyIndex ∨ a.keyIndex = b.keyIndex ∧ a.id ≤ b.id))
    st.channelKeys

/-- A map by index, filled in key by key. -/
def collect {α : Type} (entry : ChannelKey → Option α) (keys : List ChannelKey) : ℕ → Option α :=
  keys.foldl
    (fun m key =>
      match entry key with
      | none => m
      | some a => Function.update m key.keyIndex (some a))
    fun _ => none

/-- The entry of a key in the map of statuses: only keys that are not enabled have one. -/
def ChannelKey.statusEntry (key : ChannelKey) : Option ℤ :=
  if key.status = enabled then none else some key.status

def ChannelKey.reasonEntry (key : ChannelKey) : Option String :=
  if key.status = enabled ∨ key.disabledReason = "" then none else some key.disabledReason

def ChannelKey.timeEntry (key : ChannelKey) : Option ℤ :=
  if key.status = enabled ∨ key.disabledTime ≤ 0 then none else some key.disabledTime

/-- What `updateChannelKeySummary` makes of the info of a channel. -/
def ChannelInfo.summary (info : ChannelInfo) (keys : List ChannelKey) : ChannelInfo :=
  { info with
    multiKeySize := keys.length
    isMultiKey := if 1 < keys.length then true else if keys = [] then false else info.isMultiKey
    multiKeyStatusList := collect ChannelKey.statusEntry keys
    multiKeyDisabledReason := collect ChannelKey.reasonEntry keys
    multiKeyDisabledTime := collect ChannelKey.timeEntry keys }

def Store.channel : Option Channel :=
  Table.get (fun ch : Channel => ch.id) channelId st.channels

/-- `UPDATE channels … WHERE id = ?`. -/
def Store.updateChannel (f : Channel → Channel) : Store :=
  { st with channels := Table.modify (fun ch : Channel => ch.id) channelId f st.channels }

theorem channel_updateChannel {f : Channel → Channel} (hf : ∀ ch, (f ch).id = ch.id)
    (channelId : ℤ) : (st.updateChannel channelId f).channel channelId =
      (st.channel channelId).map f := by
  cases hget : st.channel channelId with
  | none =>
    refine List.find?_eq_none.2 fun ch hch => ?_
    obtain ⟨ch', hch', rfl⟩ := List.mem_map.1 hch
    have hne := List.find?_eq_none.1 hget ch' hch'
    have hid : ch'.id ≠ channelId := of_decide_eq_false (by simpa using hne)
    simp [hid]
  | some ch => exact Table.get_modify hget ((hf ch).trans (Table.get_key hget))

/-- The info that the summary starts from.  A failure to load it is ignored. -/
def Store.infoOf (fails : Bool) : ChannelInfo :=
  if fails then {} else (st.channel channelId).elim {} fun ch => ch.channelInfo

/-- Write a summary, and clear the legacy field. -/
def Store.writeSummary (info : ChannelInfo) (keys : List ChannelKey) : Store :=
  st.updateChannel channelId fun ch => { ch with channelInfo := info.summary keys, key := "" }

/-- `updateChannelKeySummary`.  `infoFails` is whether the info could not be loaded. -/
def updateChannelKeySummary (infoFails : Bool) : Store :=
  st.writeSummary channelId (st.infoOf channelId infoFails) (st.loadChannelKeys channelId)

/-- Clear the legacy field. -/
def Store.clearKey : Store :=
  st.updateChannel channelId fun ch => { ch with key := "" }

end NexusTok.Channels
