import NexusTok.Channel.Basic
import NexusTok.Machine.Pool

/-!
# Migrating the legacy field

`SyncChannelKeysFromLegacyField` moves the keys of the legacy field to `channel_keys`.  Called
without a transaction, it runs statement by statement: it counts the rows of the channel, inserts
three statements' worth of rows for each key, recomputes the summary and clears the field.  That
some row exists already counts as done.

So rows that a failed call leaves behind, or that another call is inserting, are taken for all of
them, and two calls that both count none insert every key twice.  Blank entries of the field are
dropped before the keys are numbered, and what is recorded for an index is looked up by the new
number.

* `Migrated` : what is to hold once the field is cleared.
* `Aligned`, `unhurried` : the fields, and the steps, that keep it.
-/

namespace NexusTok.Channels

open List

/-! ### What is recorded, and what is inserted -/

/-- The non-blank entries of the field, with their indexes in `GetKeys`. -/
def legacyEntries (cfg : Config) (channel : Channel) : List (String × ℕ) :=
  (getKeys cfg channel []).zipIdx.filter fun e => decide (trimSpace e.1 ≠ "")

/-- The keys of the field, with what is recorded for their indexes. -/
def legacyKeys (cfg : Config) (channel : Channel) : List (String × Record) :=
  (legacyEntries cfg channel).map fun e => (trimSpace e.1, channel.channelInfo.recorded e.2)

/-- A key that is stored. -/
def ChannelKey.content (key : ChannelKey) : String × Record :=
  (key.secret, key.status, key.disabledReason, key.disabledTime)

/-- **Once the field is cleared**, every key of it is stored, each of them once. -/
def Migrated (cfg : Config) (start : Channel) (st : Store) : Prop :=
  ∀ channel ∈ st.channel start.id, channel.key = "" →
    ((st.keysOf start.id).map ChannelKey.content).Perm (legacyKeys cfg start)

instance (cfg : Config) (start : Channel) (st : Store) : Decidable (Migrated cfg start st) :=
  inferInstanceAs (Decidable (∀ _ ∈ _, _))

/-! ### Calls -/

/-- `SyncChannelKeysFromLegacyField` without a transaction, before each of its statements. -/
inductive Call where
  | count (channel : Channel) (cached : List String)
  /-- Insert the routing key of the key at `index`. -/
  | route (channel : Channel) (index : ℕ) (key : String) (rest : List String)
  | insert (channel : Channel) (index : ℕ) (key : String) (rest : List String) (routingKeyId : ℕ)
  | link (channel : Channel) (index : ℕ) (rest : List String) (routingKeyId keyId : ℕ)
  | load (channelId : ℤ)
  | info (channelId : ℤ) (keys : List ChannelKey)
  | write (channelId : ℤ) (info : ChannelInfo) (keys : List ChannelKey)
  | clear (channelId : ℤ)

/-- The call goes on with the keys that are left. -/
def insertNext (channel : Channel) (index : ℕ) : List String → Call
  | [] => .load channel.id
  | key :: rest => .route channel index key rest

/-- The next statement of a call, and where it leaves the call.  `fails` is whether the statement
fails. -/
def act (cfg : Config) (fails : Bool) (st : Store) : Call → Store × Option Call
  | .count channel cached =>
    if fails then (st, none)
    else if 0 < (st.keysOf channel.id).length then (st, some (.clear channel.id))
    else (st, some (insertNext channel 0 (channelKeyPlaintextsFromField cfg channel cached)))
  | .route channel index key rest =>
    if trimSpace key = "" then (st, some (insertNext channel (index + 1) rest))
    else if fails then (st, none)
    else
      let (routingKeyId, st) := st.newRoutingKey channel.id .keyChannel 0
      (st, some (.insert channel index key rest routingKeyId))
  | .insert channel index key rest routingKeyId =>
    if fails then (st, none)
    else
      let (status, reason, disabledTime) := channel.channelInfo.saved index
      let (keyId, st) := st.insertKey
        (newChannelKey cfg channel (trimSpace key) index status reason disabledTime routingKeyId)
      (st, some (.link channel index rest routingKeyId keyId))
  | .link channel index rest routingKeyId keyId =>
    if fails then (st, none)
    else (st.linkKey routingKeyId keyId, some (insertNext channel (index + 1) rest))
  | .load channelId =>
    if fails then (st, none)
    else (st, some (.info channelId (st.loadChannelKeys channelId)))
  -- a failure to load the info is ignored
  | .info channelId keys => (st, some (.write channelId (st.infoOf channelId fails) keys))
  | .write channelId info keys =>
    if fails then (st, none)
    else (st.writeSummary channelId info keys, some (.clear channelId))
  | .clear channelId => if fails then (st, none) else (st.clearKey channelId, none)

/-- A call for a copy of the channel. -/
def sync (channel : Channel) (cached : List String) : Option Call :=
  if channel.upstreamKind = .platformSite ∨ trimSpace channel.key = "" then none
  else some (.count channel cached)

inductive Event where
  /-- A call begins, with a copy of the row as it was at the start or as it is now, that is read
  from the cache or from the table. -/
  | sync (stale cached : Bool)
  /-- The `i`-th call runs its next statement. -/
  | resume (i : ℕ) (fails : Bool)
  deriving DecidableEq

def step (cfg : Config) (start : Channel) (p : Pool Store Call) : Event → Pool Store Call
  | .sync stale cached =>
    match if stale then some start else p.shared.channel start.id with
    | none => p
    | some channel =>
      match sync channel (if cached then getKeys cfg channel [] else []) with
      | none => p
      | some c => p.start c
  | .resume i fails => p.resume (act cfg fails) i

/-! ### The fields and the steps that are safe -/

/-- What is saved for position `k` is what is recorded for index `i`.  The reason and the time are
not saved for a key that is enabled, and status `0` is saved as enabled. -/
def ChannelInfo.Agrees (info : ChannelInfo) (i k : ℕ) : Prop :=
  info.recorded i =
    if (info.recorded k).1 = enabled then (enabled, "", 0)
    else if (info.recorded k).1 = 0 then (enabled, (info.recorded k).2)
    else info.recorded k

/-- **What is recorded survives the move** from the indexes of the non-blank entries to their
positions among them. -/
def Aligned (cfg : Config) (channel : Channel) : Prop :=
  ∀ e ∈ (legacyEntries cfg channel).zipIdx, channel.channelInfo.Agrees e.1.2 e.2

instance (info : ChannelInfo) (i k : ℕ) : Decidable (info.Agrees i k) :=
  inferInstanceAs (Decidable (info.recorded i = _))

instance (cfg : Config) (channel : Channel) : Decidable (Aligned cfg channel) :=
  inferInstanceAs (Decidable (∀ e ∈ _, _))

/-- The call has keys left to insert. -/
def Call.inserting : Call → Bool
  | .route .. | .insert .. => true
  | .link _ _ rest _ _ => !rest.isEmpty
  | _ => false

/-- No call counts the rows while some of the keys are stored and some are not, or while another
call is inserting. -/
def unhurried (cfg : Config) (start : Channel) (p : Pool Store Call) : Event → Bool
  | .resume i _ =>
    match p.calls[i]? with
    | some (.count _ _) =>
      (p.shared.keysOf start.id).isEmpty && p.calls.all (fun c => !c.inserting) ||
        decide ((p.shared.keysOf start.id).length = (legacyEntries cfg start).length)
    | _ => true
  | _ => true

/-! ### The keys of the field -/

section Fields

variable (cfg : Config) (channel : Channel)

theorem getKeys_cached : getKeys cfg channel (getKeys cfg channel []) = getKeys cfg channel [] := by
  by_cases hkeys : getKeys cfg channel [] = []
  · rw [hkeys, hkeys]
  · have hkey : channel.key ≠ "" := fun h => hkeys (by simp [getKeys, h])
    simp only [getKeys, if_neg hkey] at hkeys ⊢
    rw [if_pos hkeys]

theorem plaintexts_eq :
    channelKeyPlaintextsFromField cfg channel [] =
      (legacyEntries cfg channel).map fun e => trimSpace e.1 := by
  have hfst : ((getKeys cfg channel []).zipIdx.map fun e => trimSpace e.1) =
      (getKeys cfg channel []).map trimSpace := by
    conv_rhs => rw [← zipIdx_map_fst 0 (getKeys cfg channel []), map_map]
    rfl
  rw [channelKeyPlaintextsFromField, ← hfst, legacyEntries, filter_map]
  rfl

theorem plaintexts_length :
    (channelKeyPlaintextsFromField cfg channel []).length = (legacyEntries cfg channel).length := by
  rw [plaintexts_eq, length_map]

variable {cfg channel}

theorem plaintext_trimmed {key : String} (h : key ∈ channelKeyPlaintextsFromField cfg channel []) :
    trimSpace key = key ∧ key ≠ "" := by
  obtain ⟨hmem, hne⟩ := mem_filter.1 h
  obtain ⟨entry, -, rfl⟩ := mem_map.1 hmem
  exact ⟨trimSpace_trimSpace entry, of_decide_eq_true hne⟩

variable (cfg channel)

/-- What is stored for the key at a position. -/
def ChannelInfo.stored (info : ChannelInfo) (index : ℕ) : Record :=
  let saved := info.saved index
  (if saved.1 = 0 then enabled else saved.1, saved.2)

/-- The keys that a call inserts, one after the other. -/
def insertedKeys : List (String × Record) :=
  (channelKeyPlaintextsFromField cfg channel []).zipIdx.map fun e =>
    (e.1, channel.channelInfo.stored e.2)

theorem insertedKeys_length :
    (insertedKeys cfg channel).length = (legacyEntries cfg channel).length := by
  rw [insertedKeys, length_map, length_zipIdx, plaintexts_length]

variable {cfg channel}

theorem stored_of_agrees {info : ChannelInfo} {i k : ℕ} (h : info.Agrees i k) :
    info.stored k = info.recorded i := by
  simp only [ChannelInfo.Agrees] at h
  by_cases henabled : (info.recorded k).1 = enabled
  · rw [if_pos henabled] at h
    have hsaved : info.saved k = (enabled, "", 0) := by
      have hstatus : (info.multiKeyStatusList k).getD enabled = enabled := henabled
      simp [ChannelInfo.saved, hstatus]
    simp only [ChannelInfo.stored, hsaved, h]
    rfl
  · rw [if_neg henabled] at h
    have hsaved : info.saved k = info.recorded k := by
      have hstatus : (info.multiKeyStatusList k).getD enabled ≠ enabled := henabled
      simp [ChannelInfo.saved, ChannelInfo.recorded, hstatus]
    simp only [ChannelInfo.stored, hsaved]
    by_cases hzero : (info.recorded k).1 = 0
    · rw [if_pos hzero] at h
      rw [h, if_pos hzero]
    · rw [if_neg hzero] at h
      rw [h, if_neg hzero]

/-- **The fields that are safe.**  What is inserted is what is recorded. -/
theorem insertedKeys_of_aligned (h : Aligned cfg channel) :
    insertedKeys cfg channel = legacyKeys cfg channel := by
  have hlegacy : legacyKeys cfg channel = (legacyEntries cfg channel).zipIdx.map fun e =>
      (trimSpace e.1.1, channel.channelInfo.recorded e.1.2) := by
    rw [legacyKeys, ← zipIdx_map_fst 0 (legacyEntries cfg channel), map_map,
      zipIdx_map_fst]
    rfl
  rw [insertedKeys, plaintexts_eq, hlegacy, zipIdx_map, map_map]
  refine map_congr_left fun e he => ?_
  show (trimSpace e.1.1, channel.channelInfo.stored e.2) = _
  rw [stored_of_agrees (h e he)]

end Fields

/-! ### What the calls keep -/

section Calls

/-- A copy of the channel whose field is not cleared. -/
structure Copy (cfg : Config) (start channel : Channel) (cached : List String) : Prop where
  id : channel.id = start.id
  info : channel.channelInfo = start.channelInfo
  keys : channelKeyPlaintextsFromField cfg channel cached =
    channelKeyPlaintextsFromField cfg start []

/-- Where a call may stand when `n` rows are inserted. -/
def Call.At (cfg : Config) (start : Channel) (n : ℕ) : Call → Prop
  | .count channel cached => Copy cfg start channel cached
  | .route channel index key rest | .insert channel index key rest _ =>
    channel.id = start.id ∧ channel.channelInfo = start.channelInfo ∧ index = n ∧
      key :: rest = (channelKeyPlaintextsFromField cfg start []).drop n
  | .link channel index rest _ _ =>
    channel.id = start.id ∧ channel.channelInfo = start.channelInfo ∧ index + 1 = n ∧
      rest = (channelKeyPlaintextsFromField cfg start []).drop n
  | .load channelId | .info channelId _ | .write channelId _ _ | .clear channelId =>
    channelId = start.id ∧ n = (legacyEntries cfg start).length

/-- A call that is inserting weighs one. -/
def Call.weight (c : Call) : ℤ := if c.inserting then 1 else 0

/-- How many rows the channel has. -/
def Store.inserted (st : Store) (start : Channel) : ℕ := (st.keysOf start.id).length

/-- **What the steps keep.**  The rows are the first ones that a call inserts, the field is cleared
only when they are all there, and one call at most goes on inserting. -/
structure Orderly (cfg : Config) (start : Channel) (p : Pool Store Call) : Prop where
  rows : (p.shared.keysOf start.id).map ChannelKey.content <+: insertedKeys cfg start
  row : ∀ channel ∈ p.shared.channel start.id, channel = start ∨ channel.key = ""
  cleared : ∀ channel ∈ p.shared.channel start.id, channel.key = "" →
    p.shared.inserted start = (legacyEntries cfg start).length
  calls : p.Each (Call.At cfg start (p.shared.inserted start))
  alone : p.total Call.weight ≤ 1

variable {cfg : Config} {start : Channel}

theorem weight_nonneg (c : Call) : 0 ≤ c.weight := by
  unfold Call.weight
  split_ifs <;> decide

variable {p : Pool Store Call}

theorem Orderly.migrated (h : Orderly cfg start p)
    (haligned : Aligned cfg start) : Migrated cfg start p.shared := by
  intro channel hchannel hkey
  have hlength := h.cleared channel hchannel hkey
  rw [← insertedKeys_of_aligned haligned]
  rw [h.rows.eq_of_length]
  rw [length_map, insertedKeys_length]
  exact hlength

variable {rest : List String}

/-- The keys that are left are left only while some rows are missing. -/
theorem lt_of_drop {n : ℕ} {key : String}
    (h : key :: rest = (channelKeyPlaintextsFromField cfg start []).drop n) :
    n < (legacyEntries cfg start).length := by
  rw [← plaintexts_length]
  by_contra hn
  rw [drop_eq_nil_of_le (not_lt.1 hn)] at h
  cases h

variable {channel : Channel}

/-- The call that goes on with the keys that are left. -/
theorem at_insertNext {n : ℕ}
    (hid : channel.id = start.id) (hinfo : channel.channelInfo = start.channelInfo)
    (hn : n ≤ (legacyEntries cfg start).length)
    (hrest : rest = (channelKeyPlaintextsFromField cfg start []).drop n) :
    (insertNext channel n rest).At cfg start n := by
  cases rest with
  | nil =>
    refine ⟨hid, le_antisymm hn ?_⟩
    rw [← plaintexts_length]
    exact drop_eq_nil_iff.1 hrest.symm
  | cons key rest => exact ⟨hid, hinfo, rfl, hrest⟩

/-- While a call inserts a row, the others have not counted yet. -/
theorem Call.At.later {n : ℕ} {c : Call} (h : c.At cfg start n) (hc : c.inserting = false)
    (hn : n < (legacyEntries cfg start).length) (n' : ℕ) : c.At cfg start n' := by
  cases c with
  | count => exact h
  | route | insert => cases hc
  | link channel index rest routingKeyId keyId =>
    -- nothing is left to insert, so all rows are there
    obtain ⟨-, -, -, hrest⟩ := h
    have hnil : rest = [] := by simpa [Call.inserting] using hc
    rw [hnil] at hrest
    have hle := drop_eq_nil_iff.1 hrest.symm
    rw [plaintexts_length] at hle
    omega
  | load | info | write | clear => exact absurd h.2 hn.ne

theorem content_new {n : ℕ} {key : String} (hinfo : channel.channelInfo = start.channelInfo)
    (hrest : key :: rest = (channelKeyPlaintextsFromField cfg start []).drop n)
    (routingKeyId id : ℕ) :
    (insertedKeys cfg start)[n]? = some (newChannelKey cfg channel (trimSpace key) n
      (channel.channelInfo.saved n).1 (channel.channelInfo.saved n).2.1
      (channel.channelInfo.saved n).2.2 routingKeyId id).content := by
  have hget : (channelKeyPlaintextsFromField cfg start [])[n]? = some key := by
    rw [← head?_drop, ← hrest]
    rfl
  have hkey := plaintext_trimmed (mem_of_getElem? hget)
  rw [insertedKeys, getElem?_map, getElem?_zipIdx, hget, hinfo, hkey.1]
  simp [ChannelKey.content, newChannelKey, ChannelInfo.stored]

variable {before after : List Call}

theorem Orderly.moves (h : Orderly cfg start p)
    {c : Call} (hcalls : p.calls = before ++ c :: after) {st : Store} {rest : Option Call}
    (hkeys : st.keysOf start.id = p.shared.keysOf start.id)
    (hchannel : st.channel start.id = p.shared.channel start.id ∨
      (∀ channel ∈ st.channel start.id, channel.key = "") ∧
        p.shared.inserted start = (legacyEntries cfg start).length)
    (hrest : ∀ c' ∈ rest, c'.At cfg start (p.shared.inserted start))
    (halone : Pool.rest Call.weight rest ≤ c.weight ∨ p.total Call.weight ≤ 0) :
    Orderly cfg start ⟨st, before ++ rest.toList ++ after⟩ := by
  have hinserted : st.inserted start = p.shared.inserted start := by
    rw [Store.inserted, Store.inserted, hkeys]
  refine ⟨?_, ?_, ?_, ?_, ?_⟩
  · show (st.keysOf start.id).map ChannelKey.content <+: _
    rw [hkeys]
    exact h.rows
  · intro channel hmem
    obtain hsame | ⟨hblank, -⟩ := hchannel
    · exact h.row channel (hsame ▸ hmem)
    · exact .inr (hblank channel hmem)
  · intro channel hmem hkey
    show st.inserted start = _
    rw [hinserted]
    obtain hsame | ⟨-, hall⟩ := hchannel
    · exact h.cleared channel (hsame ▸ hmem) hkey
    · exact hall
  · show Pool.Each (Call.At cfg start (st.inserted start)) _
    rw [hinserted]
    exact h.calls.of_split hcalls hrest
  · have hbefore : p.total Call.weight =
        c.weight + (Pool.mk st (before ++ after)).total Call.weight := by
      show (p.calls.map Call.weight).sum = _
      rw [hcalls]
      exact Pool.total_split (s := st)
    rw [Pool.total_join st]
    have hweight := weight_nonneg c
    have hrestle : Pool.rest Call.weight rest ≤ 1 := by
      cases rest with
      | none => exact zero_le_one
      | some c' =>
        show c'.weight ≤ 1
        unfold Call.weight
        split_ifs <;> decide
    have htotal := h.alone
    omega

/-- A step that clears the field, when all rows are there. -/
theorem Orderly.clears (h : Orderly cfg start p)
    {c : Call} (hcalls : p.calls = before ++ c :: after) {f : Channel → Channel}
    (hid : ∀ ch, (f ch).id = ch.id) (hkey : ∀ ch, (f ch).key = "") (rest : Option Call)
    (hall : p.shared.inserted start = (legacyEntries cfg start).length)
    (hrest : ∀ c' ∈ rest, c'.At cfg start (p.shared.inserted start))
    (hweight : Pool.rest Call.weight rest ≤ c.weight) :
    Orderly cfg start ⟨p.shared.updateChannel start.id f, before ++ rest.toList ++ after⟩ := by
  refine h.moves hcalls rfl (.inr ⟨fun channel hmem => ?_, hall⟩) hrest (.inl hweight)
  rw [channel_updateChannel _ hid] at hmem
  obtain ⟨ch, -, rfl⟩ := Option.mem_map.1 hmem
  exact hkey ch

/-- The row that a call inserts for the key at `index`. -/
def savedKey (cfg : Config) (channel : Channel) (index : ℕ) (key : String)
    (routingKeyId id : ℕ) : ChannelKey :=
  newChannelKey cfg channel (trimSpace key) index (channel.channelInfo.saved index).1
    (channel.channelInfo.saved index).2.1 (channel.channelInfo.saved index).2.2 routingKeyId id

theorem act_insert (cfg : Config) (st : Store) (channel : Channel) (index : ℕ) (key : String)
    (rest : List String) (routingKeyId : ℕ) :
    act cfg false st (.insert channel index key rest routingKeyId) =
      ({ st with
          channelKeys := st.channelKeys ++
            [savedKey cfg channel index key routingKeyId st.nextChannelKeyId]
          nextChannelKeyId := st.nextChannelKeyId + 1 },
        some (.link channel index rest routingKeyId st.nextChannelKeyId)) := rfl

theorem prefix_append_singleton {α : Type*} {l l' : List α} {a : α} (h : l <+: l')
    (hget : l'[l.length]? = some a) : l ++ [a] <+: l' := by
  obtain ⟨t, rfl⟩ := h
  rw [getElem?_append_right le_rfl, Nat.sub_self] at hget
  cases t with
  | nil => cases hget
  | cons b t =>
    obtain rfl : b = a := by simpa using hget
    exact ⟨t, by simp⟩

/-- Calls that weigh nothing together are not inserting. -/
theorem not_inserting (st : Store) {calls : List Call}
    (h : (Pool.mk st calls).total Call.weight ≤ 0) : ∀ c ∈ calls, c.inserting = false := by
  intro c hc
  have hle : c.weight ≤ (calls.map Call.weight).sum := by
    refine single_le_sum (fun x hx => ?_) _ (mem_map_of_mem hc)
    obtain ⟨c', -, rfl⟩ := mem_map.1 hx
    exact weight_nonneg c'
  have hzero : c.weight ≤ 0 := hle.trans h
  cases hinserting : c.inserting with
  | false => rfl
  | true =>
    rw [Call.weight, if_pos hinserting] at hzero
    exact absurd hzero (by decide)

/-- **Another row.**  It is the next one, since no other call is inserting. -/
theorem Orderly.inserts (h : Orderly cfg start p) {index : ℕ} {key : String} {routingKeyId : ℕ}
    (hcalls : p.calls = before ++ .insert channel index key rest routingKeyId :: after) :
    Orderly cfg start ⟨(act cfg false p.shared (.insert channel index key rest routingKeyId)).1,
      before ++ (act cfg false p.shared (.insert channel index key rest routingKeyId)).2.toList ++
        after⟩ := by
  obtain ⟨hid, hinfo, hindex, hrest⟩ := h.calls (.insert channel index key rest routingKeyId)
    (by simp [hcalls])
  have hlt := lt_of_drop hrest
  rw [act_insert]
  set new := savedKey cfg channel index key routingKeyId p.shared.nextChannelKeyId with hnew
  set st : Store := { p.shared with
    channelKeys := p.shared.channelKeys ++ [new]
    nextChannelKeyId := p.shared.nextChannelKeyId + 1 } with hst
  have hkeys : st.keysOf start.id = p.shared.keysOf start.id ++ [new] := by
    show (p.shared.channelKeys ++ [new]).filter _ = _
    have hnewid : new.channelId = start.id := hid
    rw [filter_append, filter_singleton, hnewid, decide_eq_true rfl]
    rfl
  have hone : st.inserted start = p.shared.inserted start + 1 := by
    rw [Store.inserted, hkeys, length_append]
    rfl
  have hsplit : p.total Call.weight = 1 +
      (Pool.mk st (before ++ after)).total Call.weight := by
    show (p.calls.map Call.weight).sum = _
    rw [hcalls]
    exact Pool.total_split (s := st)
  have halone := h.alone
  refine ⟨?_, h.row, ?_, ?_, ?_⟩
  · show (st.keysOf start.id).map ChannelKey.content <+: _
    rw [hkeys, map_append, map_singleton]
    refine prefix_append_singleton h.rows ?_
    rw [length_map]
    have hget := content_new hinfo hrest routingKeyId p.shared.nextChannelKeyId
    rw [← hindex] at hget
    have hlength : (p.shared.keysOf start.id).length = index := hindex.symm
    rw [hlength]
    exact hget
  · -- the field is not cleared while rows are missing
    intro channel' hmem hkey
    have hall := h.cleared channel' hmem hkey
    omega
  · show Pool.Each (Call.At cfg start (st.inserted start)) _
    rw [hone]
    have hothers : ∀ c ∈ before ++ after, c.At cfg start (p.shared.inserted start + 1) := by
      intro c hc
      refine (h.calls c ?_).later (not_inserting st ?_ c hc) hlt _
      · rw [hcalls]
        obtain hc | hc := mem_append.1 hc
        · exact mem_append_left _ hc
        · exact mem_append_right _ (mem_cons_of_mem _ hc)
      · omega
    intro c hc
    obtain hc | hc := mem_append.1 hc
    · obtain hc | hc := mem_append.1 hc
      · exact hothers c (mem_append_left _ hc)
      · obtain rfl : c = .link channel index rest routingKeyId p.shared.nextChannelKeyId := by
          simpa using hc
        refine ⟨hid, hinfo, by rw [hindex], ?_⟩
        rw [← tail_drop, ← hrest]
        rfl
    · exact hothers c (mem_append_right _ hc)
  · rw [Pool.total_join st]
    show Call.weight (.link channel index rest routingKeyId p.shared.nextChannelKeyId) + _ ≤ 1
    have hle : Call.weight (.link channel index rest routingKeyId p.shared.nextChannelKeyId) ≤
        1 := by
      unfold Call.weight
      split_ifs <;> decide
    omega

theorem total_of_idle (h : (p.calls.all fun c => !c.inserting) = true) :
    p.total Call.weight ≤ 0 := by
  refine (sum_eq_zero fun x hx => ?_).le
  obtain ⟨c, hc, rfl⟩ := mem_map.1 hx
  have hidle := all_eq_true.1 h c hc
  rw [Bool.not_eq_true'] at hidle
  rw [Call.weight, hidle]
  rfl

/-- **A call runs its next statement.** -/
theorem Orderly.resume (h : Orderly cfg start p) {i : ℕ} {fails : Bool}
    (hunhurried : unhurried cfg start p (.resume i fails) = true) :
    Orderly cfg start (p.resume (act cfg fails) i) := by
  obtain ⟨-, hsame⟩ | ⟨before, c, after, hget, hcalls, hresume⟩ :=
    Pool.resume_cases (act cfg fails) p i
  · rw [hsame]
    exact h
  rw [hresume]
  have hat : c.At cfg start (p.shared.inserted start) := h.calls c (by simp [hcalls])
  have hle : p.shared.inserted start ≤ (legacyEntries cfg start).length := by
    have := h.rows.length_le
    rwa [List.length_map, insertedKeys_length] at this
  -- a statement that fails ends the call
  have hfailed : Orderly cfg start ⟨p.shared, before ++ (none : Option Call).toList ++ after⟩ :=
    h.moves hcalls rfl (.inl rfl) (fun _ h => nomatch h) (.inl (weight_nonneg c))
  cases c with
  | count channel cached =>
    cases fails with
    | true => exact hfailed
    | false =>
      have hcount : (p.shared.keysOf channel.id).length = p.shared.inserted start := by
        rw [hat.id]
        rfl
      simp only [act, hcount, Bool.false_eq_true, if_false]
      simp only [unhurried, hget, Bool.or_eq_true, Bool.and_eq_true, decide_eq_true_eq,
        List.isEmpty_iff] at hunhurried
      split_ifs with hpos
      · obtain ⟨hnone, -⟩ | hall := hunhurried
        · rw [Store.inserted, hnone] at hpos
          exact absurd hpos (lt_irrefl 0)
        · refine h.moves hcalls rfl (.inl rfl) ?_ (.inl le_rfl)
          rintro c ⟨⟩
          exact ⟨hat.id, hall⟩
      · have hzero : p.shared.inserted start = 0 := by omega
        refine h.moves hcalls rfl (.inl rfl) ?_ ?_
        · rintro c ⟨⟩
          rw [hzero] at hle ⊢
          exact at_insertNext hat.id hat.info hle hat.keys
        · obtain ⟨-, hidle⟩ | hall := hunhurried
          · exact .inr (total_of_idle hidle)
          · -- there is nothing to insert
            have hnil : channelKeyPlaintextsFromField cfg channel cached = [] := by
              rw [hat.keys, ← List.length_eq_zero_iff, plaintexts_length, ← hall]
              exact hzero
            rw [hnil]
            exact .inl le_rfl
  | route channel index key rest =>
    obtain ⟨hid, hinfo, hindex, hrest⟩ := hat
    have hkey : trimSpace key ≠ "" := by
      have hmem : key ∈ channelKeyPlaintextsFromField cfg start [] := by
        refine List.mem_of_mem_drop (i := p.shared.inserted start) ?_
        rw [← hrest]
        exact List.mem_cons_self
      obtain ⟨htrim, hne⟩ := plaintext_trimmed hmem
      rw [htrim]
      exact hne
    cases fails with
    | true =>
      simp only [act, if_neg hkey]
      exact hfailed
    | false =>
      simp only [act, if_neg hkey, Bool.false_eq_true, if_false]
      refine h.moves hcalls rfl (.inl rfl) ?_ (.inl le_rfl)
      rintro c ⟨⟩
      exact ⟨hid, hinfo, hindex, hrest⟩
  | insert channel index key rest routingKeyId =>
    cases fails with
    | true => exact hfailed
    | false => exact h.inserts hcalls
  | link channel index rest routingKeyId keyId =>
    cases fails with
    | true => exact hfailed
    | false =>
      obtain ⟨hid, hinfo, hindex, hrest⟩ := hat
      refine h.moves hcalls rfl (.inl rfl) ?_ (.inl ?_)
      · rintro c ⟨⟩
        rw [← hindex] at hle hrest ⊢
        exact at_insertNext hid hinfo hle hrest
      · cases rest with
        | nil | cons => exact le_rfl
  | load channelId =>
    cases fails with
    | true => exact hfailed
    | false =>
      refine h.moves hcalls rfl (.inl rfl) ?_ (.inl le_rfl)
      rintro c ⟨⟩
      exact hat
  | info channelId keys =>
    refine h.moves hcalls rfl (.inl rfl) ?_ (.inl le_rfl)
    rintro c ⟨⟩
    exact hat
  | write channelId info keys =>
    cases fails with
    | true => exact hfailed
    | false =>
      obtain ⟨rfl, hall⟩ := hat
      refine h.clears (f := fun ch => { ch with channelInfo := info.summary keys, key := "" }) hcalls
        (fun _ => rfl) (fun _ => rfl) (some (.clear start.id)) hall ?_ le_rfl
      rintro c ⟨⟩
      exact ⟨rfl, hall⟩
  | clear channelId =>
    cases fails with
    | true => exact hfailed
    | false =>
      obtain ⟨rfl, hall⟩ := hat
      refine h.clears (f := fun ch => { ch with key := "" }) hcalls (fun _ => rfl) (fun _ => rfl)
        none hall ?_ le_rfl
      rintro c ⟨⟩

theorem Orderly.begins (h : Orderly cfg start p)
    (hrow : channel = start ∨ channel.key = "") {cached : List String}
    (hcached : cached = getKeys cfg channel [] ∨ cached = []) {c : Call}
    (hc : sync channel cached = some c) : Orderly cfg start (p.start c) := by
  simp only [sync] at hc
  split_ifs at hc with hskip
  cases hc
  have hcopy : Copy cfg start channel cached := by
    obtain rfl | hblank := hrow
    · refine ⟨rfl, rfl, ?_⟩
      obtain rfl | rfl := hcached
      · simp only [channelKeyPlaintextsFromField, getKeys_cached]
      · rfl
    · rw [hblank] at hskip
      exact absurd (.inr (by decide)) hskip
  refine ⟨h.rows, h.row, h.cleared, h.calls.start hcopy, ?_⟩
  rw [Pool.total_start]
  show p.total Call.weight + 0 ≤ 1
  rw [add_zero]
  exact h.alone

/-- **Every step** keeps the rows in order, when none of them is hurried. -/
theorem Orderly.step (h : Orderly cfg start p) {e : Event}
    (he : unhurried cfg start p e = true) : Orderly cfg start (step cfg start p e) := by
  cases e with
  | resume i fails => exact h.resume he
  | sync stale cached =>
    simp only [Channels.step]
    split
    · exact h
    · next channel hcopy =>
      have hrow : channel = start ∨ channel.key = "" := by
        cases stale with
        | true => exact .inl (Option.some.inj hcopy).symm
        | false => exact h.row channel hcopy
      split
      · exact h
      · next c hc =>
        refine h.begins hrow ?_ hc
        cases cached with
        | true => exact .inl rfl
        | false => exact .inr rfl

/-- **Every run** whose calls count no unfinished rows, on a field whose records survive the move,
stores every key of the field once by the time the field is cleared. -/
theorem migrated_of_unhurried {st : Store} (hstart : st.channel start.id = some start)
    (hempty : st.keysOf start.id = []) (haligned : Aligned cfg start) {es : List Event}
    (hes : Machine.Meets (step cfg start) (fun p e => unhurried cfg start p e = true) ⟨st, []⟩
      es) :
    Machine.Always (step cfg start) (fun p => Migrated cfg start p.shared) ⟨st, []⟩ es := by
  have hinit : Orderly cfg start ⟨st, []⟩ := by
    refine ⟨?_, ?_, ?_, fun c hc => absurd hc List.not_mem_nil, zero_le_one⟩
    · show (st.keysOf start.id).map ChannelKey.content <+: _
      rw [hempty]
      exact List.nil_prefix
    · intro channel hmem
      exact .inl (Option.some.inj (hstart.symm.trans hmem)).symm
    · intro channel hmem hkey
      obtain rfl := Option.some.inj (hstart.symm.trans hmem)
      show (st.keysOf start.id).length = _
      rw [hempty, ← plaintexts_length, channelKeyPlaintextsFromField, getKeys, if_pos hkey]
      rfl
  exact (Machine.Always.of_meets (fun p e hp he => hp.step he) hinit hes).imp
    fun p hp => hp.migrated haligned

end Calls

/-! ### Runs -/

/-- A legacy channel, of two keys with a disabled second one. -/
def legacyChannel (key : String) (disabled : ℕ) : Channel where
  id := 1
  key := key
  status := enabled
  models := "m"
  group := "default"
  weight := none
  priority := none
  tag := none
  upstreamKind := .keyChannel
  keyPriority := 0
  channelInfo := { isMultiKey := true, multiKeySize := 2,
                   multiKeyStatusList := fun i => if i = disabled then some autoDisabled else none }
  statusInfo := none

/-- The tables with nothing but a legacy channel. -/
def legacyStore (channel : Channel) : Store := { channels := [channel] }

/-- The next statements of a call, which succeed. -/
def statements (i n : ℕ) : List Event := List.replicate n (.resume i false)

/-- A call that fails before its first row, one that succeeds, and one that finds the rows. -/
theorem migrated_of_unhurried_retried :
    (legacyStore (legacyChannel "a\nb\n" 1)).channel 1 = some (legacyChannel "a\nb\n" 1) ∧
      (legacyStore (legacyChannel "a\nb\n" 1)).keysOf 1 = [] ∧
      Machine.Always (step plainConfig (legacyChannel "a\nb\n" 1))
        (fun p => Migrated plainConfig (legacyChannel "a\nb\n" 1) p.shared)
        ⟨legacyStore (legacyChannel "a\nb\n" 1), []⟩
        ([.sync true false] ++ statements 0 1 ++ [.resume 0 true, .sync true false] ++
          statements 0 11 ++ [.sync true true] ++ statements 0 2) :=
  ⟨rfl, rfl, migrated_of_unhurried rfl rfl (by decide) (by decide)⟩

/-- A call that fails after its first row: the next one takes that row for all of them, and clears
the field.  Two calls that count no rows: each of them inserts every key.  A blank entry before the
disabled key: the key is stored as enabled. -/
theorem hurried_not_migrated :
    ¬ Machine.Always (step plainConfig (legacyChannel "a\nb" 1))
        (fun p => Migrated plainConfig (legacyChannel "a\nb" 1) p.shared)
        ⟨legacyStore (legacyChannel "a\nb" 1), []⟩
        ([.sync true false] ++ statements 0 4 ++ [.resume 0 true, .sync true false] ++
          statements 0 2) ∧
      ¬ Machine.Always (step plainConfig (legacyChannel "a\nb" 1))
        (fun p => Migrated plainConfig (legacyChannel "a\nb" 1) p.shared)
        ⟨legacyStore (legacyChannel "a\nb" 1), []⟩
        ([.sync true false, .sync true false, .resume 0 false, .resume 1 false] ++
          statements 0 10 ++ statements 0 10) ∧
      ¬ Machine.Always (step plainConfig (legacyChannel "a\n\nb" 2))
        (fun p => Migrated plainConfig (legacyChannel "a\n\nb" 2) p.shared)
        ⟨legacyStore (legacyChannel "a\n\nb" 2), []⟩
        ([.sync true false] ++ statements 0 11) :=
  ⟨fun h => absurd h.run (by decide), fun h => absurd h.run (by decide),
    fun h => absurd h.run (by decide)⟩

end NexusTok.Channels
