import Mathlib.Logic.Function.Basic
import NexusTok.Cachex.Namespace
import NexusTok.Store.Expiring

/-!
# The hybrid cache

`HybridCache` keeps values and claims in Redis, or in a hot cache and a map.  Times and durations are
in milliseconds.

* `Redis` : the key space of Redis, in which values and claims live side by side.  `SCAN` matches
  keys with a glob pattern.
* `CacheCall`, `redisCall`, `memoryCall` : the methods, with Redis and in memory.
* `CacheSpec`, `specCall` : what the cache is for: values and claims apart.
-/

namespace NexusTok

structure ValueCodec (V : Type) where
  /-- `Encode`; `none` is an error. -/
  encode : V → Option String
  /-- `Decode`; `none` is an error. -/
  decode : String → Option V

/-- `hot.HotCache`, with states of the type `M`. -/
structure HotCache (V M : Type) where
  new : M
  get : M → Int → String → Option V
  setWithTTL : M → Int → String → V → Int → M
  keys : M → Int → List String
  purge : M → M
  /-- `DeleteMany`, and for each key whether it was there. -/
  deleteMany : M → Int → List String → M × (String → Option Bool)

/-- The report of a deletion of keys one after the other, into a map: a key that is given twice is
not there the second time. -/
def deletionReport (there : String → Bool) (ks : List String) : String → Option Bool :=
  fun k => if k ∈ ks then some (there k && ks.count k == 1) else none

/-- **What the code relies on** of a hot cache that evicts nothing. -/
structure HotCache.Lawful {V M : Type} (hot : HotCache V M) : Prop where
  get_new : ∀ now k, hot.get hot.new now k = none
  get_setWithTTL : ∀ m now k v ttl t k', 0 < ttl → now ≤ t →
    hot.get (hot.setWithTTL m now k v ttl) t k' =
      if k' = k then (if t < now + ttl then some v else none) else hot.get m t k'
  mem_keys : ∀ m now k, k ∈ hot.keys m now ↔ (hot.get m now k).isSome
  keys_nodup : ∀ m now, (hot.keys m now).Nodup
  get_purge : ∀ m now k, hot.get (hot.purge m) now k = none
  get_deleteMany : ∀ m now ks t k, now ≤ t →
    hot.get (hot.deleteMany m now ks).1 t k = if k ∈ ks then none else hot.get m t k
  deleteMany_report : ∀ m now ks,
    (hot.deleteMany m now ks).2 = deletionReport (fun k => (hot.get m now k).isSome) ks

inductive CacheCall (V : Type)
  | get (key : String)
  | setWithTTL (key : String) (v : V) (ttl : Int)
  | tryClaim (key token : String) (ttl : Int)
  | releaseClaim (key token : String)
  | claimMatches (key token : String)
  | deleteClaim (key : String)
  | keys
  | purge
  | deleteByPrefix (start : String)
  | deleteMany (keys : List String)

/-- What a method returns. -/
inductive CacheResult (V : Type)
  | value (v : Option V)
  | done
  | answer (b : Bool)
  | keys (ks : List String)
  | count (n : Nat)
  | report (res : String → Option Bool)
  | failed

def claimFullKey (ns key : String) : String :=
  let full := fullKey ns key
  if full = "" then "" else full ++ ":claim"

/-- The prefix of `DeleteByPrefix`. -/
def fullPrefix (ns start : String) : String :=
  let full := fullKey ns start
  if full = "" then "" else if hasSuffix full ":" then full else full ++ ":"

/-- The keys of `DeleteMany`. -/
def fullKeys (ns : String) (keys : List String) : List String :=
  (keys.map (fullKey ns)).filter (· ≠ "")

/-- The number of keys that a report says were there. -/
def deletedCount (keys : List String) (res : String → Option Bool) : Nat :=
  (keys.dedup.filter fun k => res k = some true).length

variable {V M : Type}

/-! ### Redis -/

/-- The key space of Redis. -/
abbrev Redis := Expiring String String

/-- `SET` with a duration, which a duration that is not positive leaves out. -/
def Redis.set (r : Redis) (now : Int) (key value : String) (ttl : Int) : Redis :=
  r.put { key := key, value := value, expiresAt := if 0 < ttl then some (now + ttl) else none }

/-- The pipeline of `UNLINK` commands, with the report. -/
def Redis.unlink (now : Int) : Redis → (String → Option Bool) → List String →
    Redis × (String → Option Bool)
  | r, res, [] => (r, res)
  | r, res, k :: ks =>
    Redis.unlink now (r.delete k) (Function.update res k (some (r.get now k).isSome)) ks

section Redis

variable (codec : ValueCodec V) (scanMatch : String → String → Bool) (ns : String)

def scanKeys (r : Redis) (now : Int) (pattern : String) : List String :=
  (r.keys now).filter (scanMatch pattern)

/-- `DeleteMany`, with Redis. -/
def redisDeleteMany (r : Redis) (now : Int) (keys : List String) :
    Redis × (String → Option Bool) :=
  Redis.unlink now r (fun _ => none) (fullKeys ns keys)

def redisCall (r : Redis) (now : Int) : CacheCall V → Redis × CacheResult V
  | .get key =>
    let full := fullKey ns key
    if full = "" then (r, .value none)
    else
      match r.get now full with
      | none => (r, .value none)
      | some raw =>
        match codec.decode raw with
        | some v => (r, .value (some v))
        | none => (r, .failed)
  | .setWithTTL key v ttl =>
    let full := fullKey ns key
    if full = "" then (r, .done)
    else
      match codec.encode v with
      | some raw => (r.set now full raw ttl, .done)
      | none => (r, .failed)
  | .tryClaim key token ttl =>
    let full := claimFullKey ns key
    let token := trimSpace token
    if full = "" ∨ token = "" ∨ ttl ≤ 0 then (r, .answer false)
    else if (r.get now full).isSome then (r, .answer false)
    else (r.set now full token ttl, .answer true)
  | .releaseClaim key token =>
    let full := claimFullKey ns key
    let token := trimSpace token
    if full = "" ∨ token = "" then (r, .answer false)
    else if r.get now full = some token then (r.delete full, .answer true)
    else (r, .answer false)
  | .claimMatches key token =>
    let full := claimFullKey ns key
    let token := trimSpace token
    if full = "" ∨ token = "" then (r, .answer false)
    else (r, .answer (r.get now full = some token))
  | .deleteClaim key =>
    let full := claimFullKey ns key
    if full = "" then (r, .done) else (r.delete full, .done)
  | .keys => (r, .keys (scanKeys scanMatch r now (matchPattern ns)))
  | .purge =>
    let keys := scanKeys scanMatch r now (matchPattern ns)
    ((redisDeleteMany ns r now keys).1, .done)
  | .deleteByPrefix start =>
    let full := fullPrefix ns start
    if full = "" then (r, .count 0)
    else
      let keys := scanKeys scanMatch r now (full ++ "*")
      let (r, res) := redisDeleteMany ns r now keys
      (r, .count (deletedCount (fullKeys ns keys) res))
  | .deleteMany keys =>
    let (r, res) := redisDeleteMany ns r now keys
    (r, .report res)

/-- The methods in a run, each at a time. -/
def redisRun : Redis → List (Int × CacheCall V) → List (CacheResult V)
  | _, [] => []
  | r, (now, call) :: calls =>
    let (r, result) := redisCall codec scanMatch ns r now call
    result :: redisRun r calls

end Redis

/-! ### Memory -/

structure CacheClaim where
  token : String
  expiresAt : Int

/-- The hot cache and the map of claims. -/
structure MemoryCache (M : Type) where
  mem : M
  claims : String → Option CacheClaim := fun _ => none

section Memory

variable (hot : HotCache V M) (ns : String)

/-- `DeleteMany`, in memory. -/
def memoryDeleteMany (c : MemoryCache M) (now : Int) (keys : List String) :
    MemoryCache M × (String → Option Bool) :=
  let full := fullKeys ns keys
  if full = [] then (c, fun _ => none)
  else
    let (mem, res) := hot.deleteMany c.mem now full
    ({ c with mem := mem }, res)

def memoryCall (c : MemoryCache M) (now : Int) : CacheCall V → MemoryCache M × CacheResult V
  | .get key =>
    let full := fullKey ns key
    if full = "" then (c, .value none) else (c, .value (hot.get c.mem now full))
  | .setWithTTL key v ttl =>
    let full := fullKey ns key
    if full = "" then (c, .done)
    else ({ c with mem := hot.setWithTTL c.mem now full v ttl }, .done)
  | .tryClaim key token ttl =>
    let full := claimFullKey ns key
    let token := trimSpace token
    if full = "" ∨ token = "" ∨ ttl ≤ 0 then (c, .answer false)
    else if (c.claims full).any (now < ·.expiresAt) then (c, .answer false)
    else
      ({ c with claims := Function.update c.claims full (some ⟨token, now + ttl⟩) }, .answer true)
  | .releaseClaim key token =>
    let full := claimFullKey ns key
    let token := trimSpace token
    if full = "" ∨ token = "" then (c, .answer false)
    else
      match c.claims full with
      | none => (c, .answer false)
      | some claim =>
        if ¬now < claim.expiresAt then
          ({ c with claims := Function.update c.claims full none }, .answer false)
        else if claim.token ≠ token then (c, .answer false)
        else ({ c with claims := Function.update c.claims full none }, .answer true)
  | .claimMatches key token =>
    let full := claimFullKey ns key
    let token := trimSpace token
    if full = "" ∨ token = "" then (c, .answer false)
    else
      match c.claims full with
      | none => (c, .answer false)
      | some claim =>
        if ¬now < claim.expiresAt then
          ({ c with claims := Function.update c.claims full none }, .answer false)
        else (c, .answer (claim.token = token))
  | .deleteClaim key =>
    let full := claimFullKey ns key
    if full = "" then (c, .done)
    else ({ c with claims := Function.update c.claims full none }, .done)
  | .keys => (c, .keys (hot.keys c.mem now))
  | .purge => ({ c with mem := hot.purge c.mem }, .done)
  | .deleteByPrefix start =>
    let full := fullPrefix ns start
    if full = "" then (c, .count 0)
    else
      let keys := (hot.keys c.mem now).filter (hasPrefix · full)
      let (c, res) := memoryDeleteMany hot ns c now keys
      (c, .count (deletedCount (fullKeys ns keys) res))
  | .deleteMany keys =>
    let (c, res) := memoryDeleteMany hot ns c now keys
    (c, .report res)

/-- The methods in a run, each at a time. -/
def memoryRun : MemoryCache M → List (Int × CacheCall V) → List (CacheResult V)
  | _, [] => []
  | c, (now, call) :: calls =>
    let (c, result) := memoryCall hot ns c now call
    result :: memoryRun c calls

end Memory

/-! ### What the cache is for -/

/-- **Values and claims**, each until it expires. -/
structure CacheSpec (V : Type) where
  values : Expiring String V := {}
  claims : Expiring String String := {}

/-- What a method means: deletions of values leave the claims alone, and only the holder of a claim
can release it. -/
def specCall (ns : String) (s : CacheSpec V) (now : Int) : CacheCall V → CacheSpec V × CacheResult V
  | .get key => (s, .value (s.values.get now (fullKey ns key)))
  | .setWithTTL key v ttl =>
    if fullKey ns key = "" then (s, .done)
    else
      ({ s with values := s.values.put ⟨fullKey ns key, v, some (now + ttl)⟩ }, .done)
  | .tryClaim key token ttl =>
    if claimFullKey ns key = "" ∨ trimSpace token = "" ∨ ttl ≤ 0 ∨
        (s.claims.get now (claimFullKey ns key)).isSome then (s, .answer false)
    else
      ({ s with claims := s.claims.put ⟨claimFullKey ns key, trimSpace token, some (now + ttl)⟩ },
        .answer true)
  | .releaseClaim key token =>
    if claimFullKey ns key ≠ "" ∧ trimSpace token ≠ "" ∧
        s.claims.get now (claimFullKey ns key) = some (trimSpace token) then
      ({ s with claims := s.claims.delete (claimFullKey ns key) }, .answer true)
    else (s, .answer false)
  | .claimMatches key token =>
    (s, .answer (claimFullKey ns key ≠ "" ∧ trimSpace token ≠ "" ∧
      s.claims.get now (claimFullKey ns key) = some (trimSpace token)))
  | .deleteClaim key => ({ s with claims := s.claims.delete (claimFullKey ns key) }, .done)
  | .keys => (s, .keys (s.values.keys now))
  | .purge => ({ s with values := {} }, .done)
  | .deleteByPrefix start =>
    if fullPrefix ns start = "" then (s, .count 0)
    else
      let keys := (s.values.keys now).filter (hasPrefix · (fullPrefix ns start))
      ({ s with values := s.values.deleteAll keys }, .count keys.length)
  | .deleteMany keys =>
    ({ s with values := s.values.deleteAll (fullKeys ns keys) },
      .report (deletionReport (fun k => (s.values.get now k).isSome) (fullKeys ns keys)))

/-- The methods in a run, each at a time. -/
def specRun (ns : String) : CacheSpec V → List (Int × CacheCall V) → List (CacheResult V)
  | _, [] => []
  | s, (now, call) :: calls =>
    let (s, result) := specCall ns s now call
    result :: specRun ns s calls

end NexusTok
