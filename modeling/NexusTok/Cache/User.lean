import NexusTok.Database.Basic

/-!
# The cached user

Redis holds three keys for a user: the hash with the fields of `UserBase`, the *fence*, a version
published before a restrictive transaction is decided, and the *version*, a floor published after
such a transaction committed.  The hash and the fence expire, the version does not.

Everything that touches these keys is a script, which Redis runs atomically, or a single command.
This file models the keys of one user, the scripts, and `GetUserCache`, which is not atomic: it is
a little program of commands and one query (`Fetch`), to be resumed step by step.

* `writeUserCache_quota` : what a fill does to the cached quota.
* `UserKeys.Moves` : what a command can do to the versions in the keys, and one lemma per command.
-/

namespace NexusTok

/-! ### The keys -/

/-- `UserBase`; the schema number it carries in the cache is a field of `UserHash`. -/
structure UserBase where
  id : ℤ
  group : String
  email : String
  quota : ℤ
  status : ℤ
  role : ℤ
  username : String
  setting : String
  authVersion : ℤ
  deriving DecidableEq

def userCacheSchemaVersion : ℤ := 2

/-- The hash `user:%d`.  Only the field `Quota` can be missing: the script that creates the hash
writes the others together. -/
structure UserHash where
  id : ℤ
  group : String
  email : String
  status : ℤ
  role : ℤ
  username : String
  setting : String
  authVersion : ℤ
  cacheSchema : ℤ
  quota : Option ℤ
  deadline : ℤ
  deriving DecidableEq

/-- The pending version `auth:user:fence:%d`. -/
structure Fence where
  version : ℤ
  deadline : ℤ
  deriving DecidableEq

/-- The three keys of a user, and the clock that expires them. -/
structure UserKeys where
  now : ℤ
  hash : Option UserHash
  fence : Option Fence
  version : Option ℤ
  deriving DecidableEq

/-- `userCacheTTLSeconds`, from the setting `SYNC_FREQUENCY`. -/
def userCacheTTLSeconds (syncFrequency : ℤ) : ℤ :=
  if syncFrequency ≤ 0 then 60 else syncFrequency

def userAuthFenceTTLSeconds (syncFrequency : ℤ) : ℤ :=
  userCacheTTLSeconds syncFrequency + max (userCacheTTLSeconds syncFrequency) 60

/-- A fence outlives every hash written before it. -/
theorem userCacheTTL_lt_fenceTTL (syncFrequency : ℤ) :
    userCacheTTLSeconds syncFrequency < userAuthFenceTTLSeconds syncFrequency := by
  simp only [userAuthFenceTTLSeconds]
  omega

namespace UserKeys

/-- `tonumber(redis.call('GET', fence) or '0')`. -/
def pending (k : UserKeys) : ℤ := (k.fence.map Fence.version).getD 0

/-- `tonumber(redis.call('GET', version) or '0')`. -/
def committed (k : UserKeys) : ℤ := k.version.getD 0

/-- `tonumber(redis.call('HGET', hash, 'AuthVersion') or '0')`. -/
def current (k : UserKeys) : ℤ := (k.hash.map UserHash.authVersion).getD 0

/-- `getUserAuthVersionFloor`: the larger of the fence and the version. -/
def floor (k : UserKeys) : ℤ := max (max 0 k.pending) k.committed

/-- The field `Quota` of the hash. -/
def quota (k : UserKeys) : Option ℤ := k.hash.bind UserHash.quota

/-- Time passes, and Redis drops the keys whose time has come. -/
def tick (k : UserKeys) (seconds : ℕ) : UserKeys :=
  { k with
    now := k.now + seconds
    hash := k.hash.filter fun h => k.now + seconds < h.deadline
    fence := k.fence.filter fun f => k.now + seconds < f.deadline }

/-- `invalidateUserCache`. -/
def invalidate (k : UserKeys) : UserKeys := { k with hash := none }

/-- The scripts refuse a version below the fence, below the version or below the hash. -/
def refuses (k : UserKeys) (incoming : ℤ) : Bool :=
  incoming < k.pending || incoming < k.committed || incoming < k.current

/-- What every accepted script does first: raise the version, and drop the fence it has reached. -/
def promote (k : UserKeys) (incoming : ℤ) : UserKeys :=
  { k with
    version := if k.committed < incoming then some incoming else k.version
    fence := if 0 < k.pending ∧ k.pending ≤ incoming then none else k.fence }

end UserKeys

/-! ### The scripts -/

def errUserAuthCachePending : Err := .text "user authentication state update is pending"

/-- The `HSET` of `writeUserCache`.  A `Quota` that is already there is left alone, and without
`includeQuota` none is written. -/
def UserBase.toHash (user : UserBase) (old : Option UserHash) (includeQuota : Bool)
    (deadline : ℤ) : UserHash where
  id := user.id
  group := user.group
  email := user.email
  status := user.status
  role := user.role
  username := user.username
  setting := user.setting
  authVersion := user.authVersion
  cacheSchema := userCacheSchemaVersion
  quota :=
    match old.bind UserHash.quota with
    | some quota => some quota
    | none => if includeQuota then some user.quota else none
  deadline := deadline

/-- The script of `writeUserCache`; the answer says whether the write was accepted. -/
def writeUserCacheScript (syncFrequency : ℤ) (user : UserBase) (includeQuota : Bool)
    (k : UserKeys) : UserKeys × Bool :=
  if k.refuses user.authVersion then (k, false)
  else if includeQuota = false ∧ k.hash = none then (k.promote user.authVersion, true)
  else
    ({ k.promote user.authVersion with
        hash := some (user.toHash k.hash includeQuota
          (k.now + userCacheTTLSeconds syncFrequency)) }, true)

def writeUserCache (syncFrequency : ℤ) (user : UserBase) (includeQuota : Bool) (k : UserKeys) :
    UserKeys × Except Err Unit :=
  if user.id ≤ 0 then (k, .ok ())
  else if user.authVersion ≤ 0 then (k, .error (.text "invalid user auth version"))
  else
    let r := writeUserCacheScript syncFrequency user includeQuota k
    (r.1, if r.2 then .ok () else .error errUserAuthCachePending)

/-- `SetUserAuthVersionFence`: the larger version stays, and the same version lives longer.  A fence
always has a deadline here, so the branch for one without is never taken. -/
def setUserAuthVersionFence (syncFrequency : ℤ) (userId authVersion : ℤ) (k : UserKeys) :
    UserKeys × Except Err Unit :=
  if userId ≤ 0 ∨ authVersion ≤ 0 then (k, .error (.text "invalid user auth fence"))
  else if k.pending ≤ authVersion then
    ({ k with fence := some ⟨authVersion, k.now + userAuthFenceTTLSeconds syncFrequency⟩ }, .ok ())
  else (k, .ok ())

/-- `publishCommittedUserAuthVersion`: it raises the version under any fence. -/
def publishCommittedUserAuthVersion (userId authVersion : ℤ) (k : UserKeys) :
    UserKeys × Except Err Unit :=
  if userId ≤ 0 ∨ authVersion ≤ 0 then (k, .error (.text "invalid committed user auth version"))
  else (k.promote authVersion, .ok ())

/-- The fields that are refreshed on their own. -/
inductive CacheField where
  | group (value : String)
  | email (value : String)
  | username (value : String)
  | setting (value : String)
  deriving DecidableEq

/-- `HSET hash field value CacheSchema version`. -/
def CacheField.set (field : CacheField) (h : UserHash) : UserHash :=
  let h := { h with cacheSchema := userCacheSchemaVersion }
  match field with
  | .group value => { h with group := value }
  | .email value => { h with email := value }
  | .username value => { h with username := value }
  | .setting value => { h with setting := value }

/-- `quotaResultFromLua`. -/
inductive CacheQuotaResult where
  | insufficient | ok | miss
  deriving DecidableEq

/-- The guard of the quota scripts: the hash is the user's, of this schema, and has a `Quota`. -/
def UserKeys.guardedQuota (userId : ℤ) (k : UserKeys) : Option ℤ :=
  match k.hash with
  | none => none
  | some h => if h.id = userId ∧ h.cacheSchema = userCacheSchemaVersion then h.quota else none

/-- `HINCRBY hash Quota delta`. -/
def UserKeys.addQuota (k : UserKeys) (delta : ℤ) : UserKeys :=
  { k with hash := k.hash.map fun h => { h with quota := h.quota.map (· + delta) } }

def cacheTryReserveUserQuota (userId amount : ℤ) (k : UserKeys) : UserKeys × CacheQuotaResult :=
  match k.guardedQuota userId with
  | none => (k, .miss)
  | some quota => if quota < amount then (k, .insufficient) else (k.addQuota (-amount), .ok)

def cacheApplyUserQuotaDelta (userId delta : ℤ) (k : UserKeys) : UserKeys × CacheQuotaResult :=
  match k.guardedQuota userId with
  | none => (k, .miss)
  | some _ => (k.addQuota delta, .ok)

/-- `updateUserCacheFieldAtVersion`.  The hash is written only when it has the same version. -/
def updateUserCacheFieldAtVersion (userId : ℤ) (field : CacheField) (authVersion : ℤ)
    (k : UserKeys) : UserKeys × Except Err Unit :=
  if userId ≤ 0 ∨ authVersion ≤ 0 then (k, .error (.text "invalid user auth version"))
  else if k.refuses authVersion then (k, .error errUserAuthCachePending)
  else if k.current ≠ authVersion then (k.promote authVersion, .ok ())
  else ({ k.promote authVersion with hash := k.hash.map field.set }, .ok ())

/-! ### `GetUserCache` -/

/-- `RedisHGetObj`: a missing `Quota` reads as zero. -/
def UserHash.toBase (h : UserHash) : UserBase where
  id := h.id
  group := h.group
  email := h.email
  quota := h.quota.getD 0
  status := h.status
  role := h.role
  username := h.username
  setting := h.setting
  authVersion := h.authVersion

/-- The checks of `cacheGetUserBase` on what it read. -/
def UserHash.usable (userId : ℤ) (h : UserHash) : Bool :=
  h.id = userId && h.cacheSchema = userCacheSchemaVersion && 0 < h.authVersion

/-- Where a call of `GetUserCache` stands. -/
inductive Fetch where
  /-- About to read the hash. -/
  | readHash
  /-- The hash was read; about to read the floor. -/
  | readFloor (cached : UserBase)
  /-- The cache gave nothing; about to read the row. -/
  | readUser
  /-- The row was read; about to compare it with the floor. -/
  | checkFloor (user : UserBase)
  /-- About to write the row into the cache, `populateUserCache`. -/
  | populate (user : UserBase)
  deriving DecidableEq

/-- One step of `GetUserCache`: another point of the program, or what it returns.  `fault` says that
the command of this step fails; a command that fails does nothing. -/
def Fetch.step (syncFrequency userId : ℤ) (row : Option UserBase) (fault : Bool) (k : UserKeys) :
    Fetch → UserKeys × (Fetch ⊕ Except Err UserBase)
  | .readHash =>
    if fault then (k, .inl .readUser)
    else
      match k.hash with
      | none => (k, .inl .readUser)
      | some h =>
        if h.usable userId then (k, .inl (.readFloor h.toBase)) else (k, .inl .readUser)
  | .readFloor cached =>
    if fault then (k, .inl .readUser)
    else if cached.authVersion < k.floor then (k, .inl .readUser)
    else (k, .inr (.ok cached))
  | .readUser =>
    if fault then (k, .inr (.error (.db ⟨.find, .users, userId⟩)))
    else
      match row with
      | none => (k, .inr (.error errRecordNotFound))
      | some user => (k, .inl (.checkFloor user))
  | .checkFloor user =>
    if !fault && user.authVersion < k.floor then (k, .inr (.error errUserAuthCachePending))
    else (k, .inl (.populate user))
  | .populate user =>
    if fault then (k, .inr (.ok user))
    else
      match writeUserCache syncFrequency user true k with
      | (k', .ok ()) => (k', .inr (.ok user))
      | (k', .error e) =>
        if e = errUserAuthCachePending then (k', .inr (.error e)) else (k', .inr (.ok user))

theorem Fetch.step_keys (syncFrequency userId : ℤ) (row : Option UserBase) (fault : Bool)
    (k : UserKeys) (fetch : Fetch) :
    (fetch.step syncFrequency userId row fault k).1 = k ∨
      ∃ user, fetch = .populate user ∧ fault = false ∧
        (fetch.step syncFrequency userId row fault k).1 =
          (writeUserCache syncFrequency user true k).1 := by
  cases fetch with
  | readHash =>
    refine Or.inl ?_
    simp only [Fetch.step]
    split
    · rfl
    · split
      · rfl
      · split <;> rfl
  | readFloor | readUser =>
    refine Or.inl ?_
    simp only [Fetch.step]
    split
    · rfl
    · split <;> rfl
  | checkFloor user =>
    refine Or.inl ?_
    simp only [Fetch.step]
    split <;> rfl
  | populate user =>
    cases fault with
    | true => exact Or.inl rfl
    | false =>
      refine Or.inr ⟨user, rfl, rfl, ?_⟩
      rcases hw : writeUserCache syncFrequency user true k with ⟨k', _ | _⟩
      · simp only [Fetch.step, hw, Bool.false_eq_true, if_false]
        split <;> rfl
      · simp only [Fetch.step, hw, Bool.false_eq_true, if_false]

theorem Fetch.step_inl {syncFrequency userId : ℤ} {row : Option UserBase} {fault : Bool}
    {k : UserKeys} {f f' : Fetch}
    (h : (f.step syncFrequency userId row fault k).2 = .inl f') :
    f' = .readUser ∨ (∃ h ∈ k.hash, f = .readHash ∧ f' = .readFloor h.toBase) ∨
      (∃ user ∈ row, f = .readUser ∧ f' = .checkFloor user) ∨
      ∃ user, f = .checkFloor user ∧ f' = .populate user := by
  cases f with
  | readHash =>
    simp only [Fetch.step] at h
    split at h
    · exact Or.inl (Sum.inl.inj h).symm
    · split at h
      · exact Or.inl (Sum.inl.inj h).symm
      · next hash hhash =>
        split at h
        · exact Or.inr (Or.inl ⟨hash, hhash, rfl, (Sum.inl.inj h).symm⟩)
        · exact Or.inl (Sum.inl.inj h).symm
  | readFloor cached =>
    simp only [Fetch.step] at h
    split at h
    · exact Or.inl (Sum.inl.inj h).symm
    · split at h
      · exact Or.inl (Sum.inl.inj h).symm
      · simp at h
  | readUser =>
    simp only [Fetch.step] at h
    split at h
    · simp at h
    · split at h
      · simp at h
      · next user => exact Or.inr (Or.inr (Or.inl ⟨user, rfl, rfl, (Sum.inl.inj h).symm⟩))
  | checkFloor user =>
    simp only [Fetch.step] at h
    split at h
    · simp at h
    · exact Or.inr (Or.inr (Or.inr ⟨user, rfl, (Sum.inl.inj h).symm⟩))
  | populate user =>
    simp only [Fetch.step] at h
    split at h
    · simp at h
    · split at h
      · simp at h
      · split at h <;> simp at h

/-- What `GetUserCache` returns: a hash not below the floor, or the row it read. -/
theorem Fetch.step_ok {syncFrequency userId : ℤ} {row : Option UserBase} {fault : Bool}
    {k : UserKeys} {f : Fetch} {user : UserBase}
    (h : (f.step syncFrequency userId row fault k).2 = .inr (.ok user)) :
    (f = .readFloor user ∧ k.floor ≤ user.authVersion) ∨ f = .populate user := by
  cases f with
  | readHash =>
    simp only [Fetch.step] at h
    split at h
    · simp at h
    · split at h
      · simp at h
      · split at h <;> simp at h
  | readFloor cached =>
    simp only [Fetch.step] at h
    split at h
    · simp at h
    · split at h
      · simp at h
      · next hfloor =>
        obtain rfl := Except.ok.inj (Sum.inr.inj h)
        exact Or.inl ⟨rfl, not_lt.1 hfloor⟩
  | readUser =>
    simp only [Fetch.step] at h
    split at h
    · simp at h
    · split at h <;> simp at h
  | checkFloor user =>
    simp only [Fetch.step] at h
    split at h <;> simp at h
  | populate user =>
    refine Or.inr ?_
    simp only [Fetch.step] at h
    split at h
    · rw [Except.ok.inj (Sum.inr.inj h)]
    · split at h
      · rw [Except.ok.inj (Sum.inr.inj h)]
      · split at h
        · simp at h
        · rw [Except.ok.inj (Sum.inr.inj h)]

/-! ### The cached quota -/

/-- A fill with a `Quota`: the script is run and accepted, and the hash has no `Quota` yet. -/
def fillsQuota (user : UserBase) (k : UserKeys) : Bool :=
  0 < user.id && 0 < user.authVersion && !k.refuses user.authVersion && k.quota.isNone

theorem UserKeys.quota_of_guarded {userId quota : ℤ} {k : UserKeys}
    (h : k.guardedQuota userId = some quota) : k.quota = some quota := by
  unfold UserKeys.guardedQuota at h
  rcases hh : k.hash with _ | hash
  · simp [hh] at h
  simp only [hh] at h
  split_ifs at h
  simpa [UserKeys.quota, hh] using h

@[simp] theorem UserKeys.quota_addQuota (k : UserKeys) (delta : ℤ) :
    (k.addQuota delta).quota = k.quota.map (· + delta) := by
  cases hh : k.hash <;> simp [UserKeys.quota, UserKeys.addQuota, hh]

/-- Time can take the quota away and not change it. -/
theorem UserKeys.quota_tick (k : UserKeys) (seconds : ℕ) :
    (k.tick seconds).quota = k.quota ∨ (k.tick seconds).quota = none := by
  cases hh : k.hash with
  | none => exact Or.inr (by simp [UserKeys.quota, UserKeys.tick, hh])
  | some h =>
    by_cases hd : k.now + seconds < h.deadline
    · exact Or.inl (by simp [UserKeys.quota, UserKeys.tick, hh, hd, Option.filter])
    · exact Or.inr (by simp [UserKeys.quota, UserKeys.tick, hh, hd, Option.filter])

/-- A fill leaves the quota alone, or writes the one it brought into a hash without. -/
theorem writeUserCache_quota (syncFrequency : ℤ) (user : UserBase) (k : UserKeys) :
    (writeUserCache syncFrequency user true k).1.quota = k.quota ∨
      (fillsQuota user k = true ∧
        (writeUserCache syncFrequency user true k).1.quota = some user.quota) := by
  simp only [writeUserCache]
  by_cases hid : user.id ≤ 0
  · exact Or.inl (by simp [hid])
  by_cases hv : user.authVersion ≤ 0
  · exact Or.inl (by simp [hid, hv])
  simp only [hid, hv, if_false, writeUserCacheScript]
  by_cases hr : k.refuses user.authVersion = true
  · exact Or.inl (by simp [hr])
  cases hq : k.quota with
  | some quota =>
    -- the quota that is there stays
    refine Or.inl ?_
    have : k.hash.bind UserHash.quota = some quota := hq
    simp [hr, UserKeys.quota, UserBase.toHash, this]
  | none =>
    refine Or.inr ⟨by simp [fillsQuota, hr, hq]; omega, ?_⟩
    have : k.hash.bind UserHash.quota = none := hq
    simp [hr, UserKeys.quota, UserBase.toHash, this]

/-! ### The versions in the keys -/

namespace UserKeys

/-- **What a command does to the versions.**  It lowers neither the committed version nor the floor.
A hash it leaves is the old one, by version and deadline, or it was written just now, at a version
not below the fence; a hash it wrote was there before with an older version, or it is one of those
the command `creates`.  A fence it leaves is the old one or was set just now. -/
structure Moves (syncFrequency : ℤ) (creates : ℤ → Prop) (k k' : UserKeys) : Prop where
  now_eq : k'.now = k.now
  committed_le : k.committed ≤ k'.committed
  floor_le : k.floor ≤ k'.floor
  hash_cases : ∀ h' ∈ k'.hash,
    (∃ h ∈ k.hash, h'.authVersion = h.authVersion ∧ h'.deadline = h.deadline) ∨
      (((∃ h ∈ k.hash, h.authVersion ≤ h'.authVersion) ∨ creates h'.authVersion) ∧
        k.pending ≤ h'.authVersion ∧ h'.deadline = k.now + userCacheTTLSeconds syncFrequency)
  fence_cases : ∀ f' ∈ k'.fence,
    f' ∈ k.fence ∨ f'.deadline = k.now + userAuthFenceTTLSeconds syncFrequency

variable {syncFrequency : ℤ} {creates : ℤ → Prop} {k : UserKeys}

theorem Moves.refl (syncFrequency : ℤ) (creates : ℤ → Prop) (k : UserKeys) :
    Moves syncFrequency creates k k :=
  ⟨rfl, le_rfl, le_rfl, fun h hh => Or.inl ⟨h, hh, rfl, rfl⟩, fun _ hf => Or.inl hf⟩

theorem Moves.imp {creates' : ℤ → Prop} {k' : UserKeys} (h : Moves syncFrequency creates k k')
    (himp : ∀ v, creates v → creates' v) : Moves syncFrequency creates' k k' where
  now_eq := h.now_eq
  committed_le := h.committed_le
  floor_le := h.floor_le
  hash_cases := by
    intro h' hh'
    rcases h.hash_cases h' hh' with hold | ⟨hfrom, hrest⟩
    · exact Or.inl hold
    · exact Or.inr ⟨hfrom.imp id (himp _), hrest⟩
  fence_cases := h.fence_cases

theorem promote_committed (k : UserKeys) (incoming : ℤ) :
    (k.promote incoming).committed = max k.committed incoming := by
  show (if k.committed < incoming then some incoming else k.version).getD 0 = _
  by_cases h : k.committed < incoming
  · rw [if_pos h, max_eq_right h.le]
    rfl
  · rw [if_neg h, max_eq_left (not_lt.1 h)]
    rfl

theorem promote_pending (k : UserKeys) (incoming : ℤ) :
    (k.promote incoming).pending = k.pending ∨
      ((k.promote incoming).pending = 0 ∧ k.pending ≤ incoming) := by
  by_cases h : 0 < k.pending ∧ k.pending ≤ incoming
  · exact Or.inr ⟨by simp [promote, pending] at h ⊢; simp [h], h.2⟩
  · refine Or.inl ?_
    show ((if 0 < k.pending ∧ k.pending ≤ incoming then none else k.fence).map Fence.version).getD 0
      = k.pending
    rw [if_neg h]
    rfl

/-- A fence is dropped only for a version that has reached it. -/
theorem floor_le_promote (k : UserKeys) (incoming : ℤ) : k.floor ≤ (k.promote incoming).floor := by
  have hc := promote_committed k incoming
  simp only [floor, hc]
  rcases promote_pending k incoming with hp | ⟨hp, hle⟩
  · rw [hp]
    omega
  · rw [hp]
    omega

/-- Promoting a version leaves the hash alone. -/
theorem Moves.promote (syncFrequency : ℤ) (creates : ℤ → Prop) (k : UserKeys) (incoming : ℤ) :
    Moves syncFrequency creates k (k.promote incoming) where
  now_eq := rfl
  committed_le := by
    rw [promote_committed]
    exact le_max_left _ _
  floor_le := floor_le_promote k incoming
  hash_cases := fun h hh => Or.inl ⟨h, hh, rfl, rfl⟩
  fence_cases := by
    intro f hf
    refine Or.inl ?_
    have hf : (if 0 < k.pending ∧ k.pending ≤ incoming then none else k.fence) = some f := hf
    split_ifs at hf
    exact hf

theorem Moves.publishCommitted (syncFrequency : ℤ) (creates : ℤ → Prop) (k : UserKeys)
    (userId authVersion : ℤ) :
    Moves syncFrequency creates k (publishCommittedUserAuthVersion userId authVersion k).1 := by
  simp only [publishCommittedUserAuthVersion]
  split_ifs
  · exact Moves.refl _ _ k
  · exact Moves.promote _ _ k authVersion

theorem Moves.invalidate (syncFrequency : ℤ) (creates : ℤ → Prop) (k : UserKeys) :
    Moves syncFrequency creates k k.invalidate :=
  ⟨rfl, le_rfl, le_rfl, fun _ hh => by simp [UserKeys.invalidate] at hh, fun _ hf => Or.inl hf⟩

theorem Moves.setFence (syncFrequency : ℤ) (creates : ℤ → Prop) (k : UserKeys)
    (userId authVersion : ℤ) :
    Moves syncFrequency creates k (setUserAuthVersionFence syncFrequency userId authVersion k).1 := by
  simp only [setUserAuthVersionFence]
  split_ifs with hbad hle
  · exact Moves.refl _ _ k
  · refine ⟨rfl, le_rfl, ?_, fun h hh => Or.inl ⟨h, hh, rfl, rfl⟩, fun f hf => Or.inr ?_⟩
    · show max (max 0 k.pending) k.committed ≤ max (max 0 authVersion) k.committed
      omega
    · cases hf
      rfl
  · exact Moves.refl _ _ k

theorem Moves.updateField (syncFrequency : ℤ) (creates : ℤ → Prop) (k : UserKeys)
    (userId : ℤ) (field : CacheField) (authVersion : ℤ) :
    Moves syncFrequency creates k
      (updateUserCacheFieldAtVersion userId field authVersion k).1 := by
  have hpromote := Moves.promote syncFrequency creates k authVersion
  simp only [updateUserCacheFieldAtVersion]
  split_ifs
  · exact Moves.refl _ _ k
  · exact Moves.refl _ _ k
  · exact hpromote
  · refine ⟨rfl, hpromote.committed_le, hpromote.floor_le, fun h' hh' => ?_, hpromote.fence_cases⟩
    obtain ⟨h, hh, rfl⟩ := Option.map_eq_some_iff.1 hh'
    refine Or.inl ⟨h, hh, ?_, ?_⟩ <;> cases field <;> rfl

theorem Moves.writeScript (syncFrequency : ℤ) (k : UserKeys) (user : UserBase)
    (includeQuota : Bool) :
    Moves syncFrequency (fun v => includeQuota = true ∧ v = user.authVersion) k
      (writeUserCacheScript syncFrequency user includeQuota k).1 := by
  have hpromote := Moves.promote syncFrequency
    (fun v => includeQuota = true ∧ v = user.authVersion) k user.authVersion
  simp only [writeUserCacheScript]
  split_ifs with hr hnone
  · exact Moves.refl _ _ k
  · exact hpromote
  · refine ⟨rfl, hpromote.committed_le, hpromote.floor_le, fun h' hh' => ?_, hpromote.fence_cases⟩
    cases hh'
    have hr : user.authVersion ≥ k.pending ∧ user.authVersion ≥ k.current := by
      simp [refuses] at hr
      omega
    refine Or.inr ⟨?_, hr.1, rfl⟩
    cases hh : k.hash with
    | some h =>
      refine Or.inl ⟨h, rfl, ?_⟩
      have : k.current = h.authVersion := by simp [current, hh]
      show h.authVersion ≤ user.authVersion
      omega
    | none =>
      refine Or.inr ⟨?_, rfl⟩
      cases includeQuota with
      | true => rfl
      | false => exact absurd ⟨rfl, hh⟩ hnone

theorem Moves.writeUserCache (syncFrequency : ℤ) (k : UserKeys) (user : UserBase)
    (includeQuota : Bool) :
    Moves syncFrequency (fun v => includeQuota = true ∧ v = user.authVersion) k
      (writeUserCache syncFrequency user includeQuota k).1 := by
  simp only [NexusTok.writeUserCache]
  split_ifs
  · exact Moves.refl _ _ k
  · exact Moves.refl _ _ k
  · exact Moves.writeScript syncFrequency k user includeQuota
  · exact Moves.writeScript syncFrequency k user includeQuota

end UserKeys

/-- The hash a step of `GetUserCache` creates has the version of the row it read. -/
theorem Fetch.step_moves (syncFrequency userId : ℤ) (row : Option UserBase) (fault : Bool)
    (k : UserKeys) (f : Fetch) :
    UserKeys.Moves syncFrequency (fun v => ∃ user, f = .populate user ∧ v = user.authVersion) k
      (f.step syncFrequency userId row fault k).1 := by
  rcases f.step_keys syncFrequency userId row fault k with hk | ⟨user, hf, -, hk⟩
  · rw [hk]
    exact UserKeys.Moves.refl _ _ k
  · rw [hk]
    refine (UserKeys.Moves.writeUserCache syncFrequency k user true).imp ?_
    rintro v ⟨-, rfl⟩
    exact ⟨user, hf, rfl⟩

end NexusTok
