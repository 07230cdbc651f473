import NexusTok.Cache.User
import NexusTok.Machine.Pool

/-!
# The authentication version of a cached user

A change that revokes something (a password, a role, a second factor, the account itself) raises
`auth_version` in its transaction.  The transaction publishes the next version as a *fence* before it
writes the row; after the commit the version is *published* as a floor that never expires.  Cache
writes below the fence or the floor are refused, and readers below them go to the database.

The machine interleaves the single steps of any number of such transactions, of their publications,
of cache reads and fills, of refreshes of single fields and of the group, and lets time pass.

What protects a reader is that the floor never falls below the last committed version.  The one
event that lowers the floor is the expiry of the fence, and the floor that remains is what was
published.  A publication through `writeUserCache` is refused while a newer fence is pending; if the
transaction behind that fence rolls back, the fence expires with nothing published, and a fill that
was delayed meanwhile is accepted (`stale_after_rollback`).

* `AuthOK` : the invariant.
* `auth_runs` : over every interleaving in which an expiring fence leaves no stale call unguarded.
-/

namespace NexusTok.AuthVersion

open Option

/-! ### The machine -/

/-- The row of the user; a soft-deleted row is still there for an unscoped query. -/
structure Row where
  user : UserBase
  deleted : Bool
  deriving DecidableEq

/-- How a transaction that raised the version publishes it. -/
inductive Publication where
  /-- `PublishUserAuthCache`: read the row again and write it, without the quota. -/
  | cache
  /-- `updateUserCache(*user)`, with the row as the transaction left it. -/
  | snapshot
  /-- The user was deleted: `publishCommittedUserAuthVersion`, then `invalidateUserCache`. -/
  | tombstone (hard : Bool)
  deriving DecidableEq

/-- A transaction that has written the row and not been decided; it holds the row. -/
structure Writer where
  next : ℤ
  how : Publication
  deriving DecidableEq

/-- The shared state.  `raised` is the largest version a transaction has committed so far, and
`answers` has, for every `GetUserCache` that returned a user, what was raised when it started and
the version it returned. -/
structure State where
  stored : Option Row
  writer : Option Writer
  keys : UserKeys
  raised : ℤ
  answers : List (ℤ × ℤ)
  deriving DecidableEq

/-- `GetUserById`, which does not see a deleted row. -/
def State.live (s : State) : Option UserBase :=
  match s.stored with
  | some row => if row.deleted then none else some row.user
  | none => none

/-- Where a call stands. -/
inductive Call where
  /-- `IncrementUserAuthVersionWithTx`, before it reads the row; `tries` are left. -/
  | lockRow (tries : ℕ) (how : Publication)
  /-- Before `SetUserAuthVersionFence`. -/
  | setFence (tries : ℕ) (authVersion : ℤ) (how : Publication)
  /-- Before the conditional update of the row. -/
  | update (tries : ℕ) (authVersion : ℤ) (how : Publication)
  /-- Committed, before `GetUserById` of `PublishUserAuthCache`. -/
  | publishRead
  /-- Committed, before `updateUserCache`. -/
  | publish (user : UserBase)
  /-- Committed, before `publishCommittedUserAuthVersion`. -/
  | tombstone (authVersion : ℤ)
  /-- Before `invalidateUserCache`. -/
  | invalidate
  /-- `GetUserCache`, started when `need` was raised. -/
  | fetch (need : ℤ) (f : Fetch)
  /-- A change of the profile is stored, before the row is read to refresh the cache. -/
  | refreshRead
  /-- Before `updateUserCache` with the row that was read. -/
  | refresh (user : UserBase)
  /-- `updateUserCacheField`, before it reads the version. -/
  | fieldRead (field : CacheField)
  /-- Before `updateUserCacheFieldAtVersion`. -/
  | fieldWrite (field : CacheField) (authVersion : ℤ)
  /-- `RefreshUserGroupCache`, before it reads the group. -/
  | groupRead
  /-- Before it writes the group; `tries` verifications are left. -/
  | groupWrite (tries : ℕ) (group : String) (authVersion : ℤ)
  /-- Before it reads the group again. -/
  | groupVerify (tries : ℕ) (group : String) (authVersion : ℤ)
  deriving DecidableEq

/-- The version after `version`. -/
def nextVersion (version : ℤ) : ℤ := max version 1 + 1

def State.withKeys (s : State) (k : UserKeys) : State := { s with keys := k }

/-- One step of a call.  `fault` says that its command fails. -/
def Call.step (syncFrequency userId : ℤ) (fault : Bool) (s : State) : Call → State × Option Call
  | .lockRow 0 _ => (s, none)
  | .lockRow (tries + 1) how =>
    match s.stored with
    | some row =>
      if fault then (s, none) else (s, some (.setFence tries row.user.authVersion how))
    | none => (s, none)
  | .setFence tries authVersion how =>
    if fault then (s, none)
    else
      match setUserAuthVersionFence syncFrequency userId (nextVersion authVersion) s.keys with
      | (k, .ok ()) => (s.withKeys k, some (.update tries authVersion how))
      | (k, .error _) => (s.withKeys k, none)
  | .update tries authVersion how =>
    -- the row is held by another transaction: the statement waits
    if s.writer.isSome then (s, some (.update tries authVersion how))
    else if fault then (s, none)
    else
      match s.stored with
      | some row =>
        if row.user.authVersion = authVersion then
          ({ s with writer := some ⟨nextVersion authVersion, how⟩ }, none)
        else (s, some (.lockRow tries how))
      | none => (s, some (.lockRow tries how))
  | .publishRead =>
    if fault then (s, none)
    else
      match s.live with
      | some user => (s, some (.publish user))
      | none => (s, none)
  | .publish user | .refresh user =>
    if fault then (s, none)
    else (s.withKeys (writeUserCache syncFrequency user false s.keys).1, none)
  | .tombstone authVersion =>
    if fault then (s, some .invalidate)
    else
      (s.withKeys (publishCommittedUserAuthVersion userId authVersion s.keys).1, some .invalidate)
  | .invalidate => if fault then (s, none) else (s.withKeys s.keys.invalidate, none)
  | .fetch need f =>
    match f.step syncFrequency userId s.live fault s.keys with
    | (k, .inl f) => (s.withKeys k, some (.fetch need f))
    | (k, .inr (.ok user)) =>
      ({ s with keys := k, answers := (need, user.authVersion) :: s.answers }, none)
    | (k, .inr (.error _)) => (s.withKeys k, none)
  | .refreshRead =>
    if fault then (s, none)
    else
      match s.live with
      | some user => (s, some (.refresh user))
      | none => (s, none)
  | .fieldRead field =>
    if fault then (s, none)
    else
      match s.live with
      | some user =>
        if user.authVersion ≤ 0 then (s, none)
        else (s, some (.fieldWrite field user.authVersion))
      | none => (s, none)
  | .fieldWrite field authVersion =>
    if fault then (s, none)
    else (s.withKeys (updateUserCacheFieldAtVersion userId field authVersion s.keys).1, none)
  | .groupRead =>
    if fault then (s, none)
    else
      match s.live with
      | some user => (s, some (.groupWrite 3 user.group user.authVersion))
      | none => (s, none)
  | .groupWrite tries group authVersion =>
    if fault then (s, none)
    else
      match updateUserCacheFieldAtVersion userId (.group group) authVersion s.keys with
      | (k, .ok ()) =>
        -- after the last try the group is written once more and the call gives up
        (s.withKeys k, if tries = 0 then none else some (.groupVerify tries group authVersion))
      | (k, .error _) => (s.withKeys k, none)
  | .groupVerify tries group authVersion =>
    if fault then (s, none)
    else
      match s.live with
      | some user =>
        if user.authVersion = authVersion ∧ user.group = group then (s, none)
        else (s, some (.groupWrite (tries - 1) user.group user.authVersion))
      | none => (s, none)

/-- The row a deciding transaction leaves, with everything else it changed in `profile`. -/
def Writer.commitRow (w : Writer) (profile : UserBase) (row : Row) : Option Row :=
  let user := { profile with id := row.user.id, authVersion := w.next }
  match w.how with
  | .tombstone true => none
  | .tombstone false => some ⟨user, true⟩
  | _ => some ⟨user, row.deleted⟩

/-- The publication a committed transaction goes on with. -/
def Writer.publication (w : Writer) (userId : ℤ) (profile : UserBase) : Call :=
  match w.how with
  | .cache => .publishRead
  | .snapshot => .publish { profile with id := userId, authVersion := w.next }
  | .tombstone _ => .tombstone w.next

/-- What happens: a call starts or takes a step, the transaction that holds the row is decided,
another column of the row changes, or time passes. -/
inductive Event where
  | increment (how : Publication)
  | getUserCache
  | profileUpdated
  | updateUserCacheField (field : CacheField)
  | refreshUserGroupCache
  | resume (i : ℕ) (fault : Bool)
  | commit (profile : UserBase)
  | rollback
  | edit (profile : UserBase)
  | tick (seconds : ℕ)
  deriving DecidableEq

def step (syncFrequency userId : ℤ) (p : Pool State Call) : Event → Pool State Call
  | .increment how => p.start (.lockRow 3 how)
  | .getUserCache => p.start (.fetch p.shared.raised .readHash)
  | .profileUpdated => p.start .refreshRead
  | .updateUserCacheField field => p.start (.fieldRead field)
  | .refreshUserGroupCache => p.start .groupRead
  | .resume i fault => p.resume (Call.step syncFrequency userId fault) i
  | .commit profile =>
    match p.shared.writer with
    | none => p
    | some w =>
      (p.outside fun s =>
        { s with
          stored := s.stored.bind (w.commitRow profile)
          writer := none
          raised := max s.raised w.next }).start (w.publication userId profile)
  | .rollback => p.outside fun s => { s with writer := none }
  | .edit profile =>
    p.outside fun s =>
      { s with
        stored := s.stored.map fun row =>
          { row with
            user := { profile with id := row.user.id, authVersion := row.user.authVersion } } }
  | .tick seconds => p.outside fun s => s.withKeys (s.keys.tick seconds)

/-! ### What a step of a call does -/

/-- The call is not inside `GetUserCache`. -/
def Call.Idle : Call → Prop
  | .fetch _ _ => False
  | _ => True

/-- The versions at which a step of a call can create a hash: only the fill of `GetUserCache`
creates one. -/
def Call.Creates (c : Call) (v : ℤ) : Prop :=
  ∃ need user, c = .fetch need (.populate user) ∧ v = user.authVersion

/-- **What a step of a call does.**  It touches neither the row nor what was raised; it may take the
row for a version above the stored one; it moves the keys as commands do; and what it leaves of the
call, or the answer it gives, is that of `GetUserCache` or carries no version that matters. -/
structure Stepped (syncFrequency userId : ℤ) (fault : Bool) (s : State) (c : Call)
    (r : State × Option Call) : Prop where
  stored_eq : r.1.stored = s.stored
  raised_eq : r.1.raised = s.raised
  writer_cases : r.1.writer = s.writer ∨
    ∃ row how, s.stored = some row ∧ r.1.writer = some ⟨nextVersion row.user.authVersion, how⟩
  moves : s.keys.Moves syncFrequency c.Creates r.1.keys
  answers_cases : r.1.answers = s.answers ∨
    ∃ need f user, c = .fetch need f ∧
      (f.step syncFrequency userId s.live fault s.keys).2 = .inr (.ok user) ∧
      r.1.answers = (need, user.authVersion) :: s.answers
  rest_cases : ∀ c' ∈ r.2, c'.Idle ∨
    ∃ need f f', c = .fetch need f ∧ c' = .fetch need f' ∧
      (f.step syncFrequency userId s.live fault s.keys).2 = .inl f'

variable {syncFrequency userId : ℤ} {fault : Bool} {s : State} {c : Call}

variable {k : UserKeys}

theorem Stepped.withKeys {o : Option Call}
    (hk : s.keys.Moves syncFrequency c.Creates k) (ho : ∀ c' ∈ o, c'.Idle) :
    Stepped syncFrequency userId fault s c (s.withKeys k, o) :=
  ⟨rfl, rfl, Or.inl rfl, hk, Or.inl rfl, fun c' hc' => Or.inl (ho c' hc')⟩

/-- A query, or a command that fails. -/
theorem Stepped.quiet {o : Option Call} (ho : ∀ c' ∈ o, c'.Idle) :
    Stepped syncFrequency userId fault s c (s, o) :=
  Stepped.withKeys (UserKeys.Moves.refl _ _ s.keys) ho

variable {need raised : ℤ}

theorem Stepped.fetch (f : Fetch) :
    Stepped syncFrequency userId fault s (.fetch need f)
      ((Call.fetch need f).step syncFrequency userId fault s) := by
  have hk : s.keys.Moves syncFrequency (Call.fetch need f).Creates
      (f.step syncFrequency userId s.live fault s.keys).1 := by
    refine (f.step_moves syncFrequency userId s.live fault s.keys).imp ?_
    rintro v ⟨user, rfl, hv⟩
    exact ⟨need, user, rfl, hv⟩
  simp only [Call.step]
  rcases hr : f.step syncFrequency userId s.live fault s.keys with ⟨k, f' | (e | user)⟩
  · rw [hr] at hk
    refine ⟨rfl, rfl, Or.inl rfl, hk, Or.inl rfl, fun c' hc' => Or.inr ⟨need, f, f', rfl, ?_, ?_⟩⟩
    · exact (some.inj hc').symm
    · rw [hr]
  · rw [hr] at hk
    exact Stepped.withKeys hk (by simp)
  · rw [hr] at hk
    exact ⟨rfl, rfl, Or.inl rfl, hk, Or.inr ⟨need, f, user, rfl, by rw [hr], rfl⟩, by simp⟩

theorem Call.step_stepped (c : Call) :
    Stepped syncFrequency userId fault s c (c.step syncFrequency userId fault s) := by
  cases c with
  | lockRow tries how =>
    cases tries with
    | zero => exact Stepped.quiet (by simp)
    | succ tries =>
      simp only [Call.step]
      split
      · split
        · exact Stepped.quiet (by simp)
        · exact Stepped.quiet (by simp [Call.Idle])
      · exact Stepped.quiet (by simp)
  | setFence tries authVersion how =>
    have hk := UserKeys.Moves.setFence syncFrequency
      (Call.setFence tries authVersion how).Creates s.keys userId (nextVersion authVersion)
    simp only [Call.step]
    split
    · exact Stepped.quiet (by simp)
    · split
      · next k hset =>
        rw [hset] at hk
        exact Stepped.withKeys hk (by simp [Call.Idle])
      · next k e hset =>
        rw [hset] at hk
        exact Stepped.withKeys hk (by simp)
  | update tries authVersion how =>
    simp only [Call.step]
    split
    · exact Stepped.quiet (by simp [Call.Idle])
    · split
      · exact Stepped.quiet (by simp)
      · split
        · next row hrow =>
          split
          · next hv =>
            refine ⟨rfl, rfl, Or.inr ⟨row, how, hrow, ?_⟩, UserKeys.Moves.refl _ _ _, Or.inl rfl,
              by simp⟩
            rw [hv]
          · exact Stepped.quiet (by simp [Call.Idle])
        · exact Stepped.quiet (by simp [Call.Idle])
  | publishRead | refreshRead | groupRead =>
    simp only [Call.step]
    split
    · exact Stepped.quiet (by simp)
    · split
      · exact Stepped.quiet (by simp [Call.Idle])
      · exact Stepped.quiet (by simp)
  | publish user | refresh user =>
    simp only [Call.step]
    split
    · exact Stepped.quiet (by simp)
    · refine Stepped.withKeys ((UserKeys.Moves.writeUserCache syncFrequency s.keys user false).imp ?_)
        (by simp)
      rintro v ⟨hfalse, -⟩
      exact absurd hfalse Bool.false_ne_true
  | tombstone authVersion =>
    simp only [Call.step]
    split
    · exact Stepped.quiet (by simp [Call.Idle])
    · exact Stepped.withKeys (UserKeys.Moves.publishCommitted _ _ _ _ _) (by simp [Call.Idle])
  | invalidate =>
    simp only [Call.step]
    split
    · exact Stepped.quiet (by simp)
    · exact Stepped.withKeys (UserKeys.Moves.invalidate _ _ _) (by simp)
  | fetch need f => exact Stepped.fetch f
  | fieldRead | groupVerify =>
    simp only [Call.step]
    split
    · exact Stepped.quiet (by simp)
    · split
      · split
        · exact Stepped.quiet (by simp)
        · exact Stepped.quiet (by simp [Call.Idle])
      · exact Stepped.quiet (by simp)
  | fieldWrite field authVersion =>
    simp only [Call.step]
    split
    · exact Stepped.quiet (by simp)
    · exact Stepped.withKeys (UserKeys.Moves.updateField _ _ _ _ _ _) (by simp)
  | groupWrite tries group authVersion =>
    have hk := UserKeys.Moves.updateField syncFrequency
      (Call.groupWrite tries group authVersion).Creates s.keys userId (.group group) authVersion
    simp only [Call.step]
    split
    · exact Stepped.quiet (by simp)
    · split
      · next k hset =>
        rw [hset] at hk
        refine Stepped.withKeys hk fun c' hc' => ?_
        split_ifs at hc'
        · simp at hc'
        · obtain rfl := some.inj hc'
          trivial
      · next k e hset =>
        rw [hset] at hk
        exact Stepped.withKeys hk (by simp)

/-! ### The invariant -/

/-- A hash dies before the fence, or it was written at a version not below it. -/
structure Outlived (syncFrequency : ℤ) (k : UserKeys) : Prop where
  hash_le : ∀ h ∈ k.hash, h.deadline ≤ k.now + userCacheTTLSeconds syncFrequency
  fence_gt : ∀ h ∈ k.hash, ∀ f ∈ k.fence, h.deadline < f.deadline ∨ f.version ≤ h.authVersion

theorem pending_of_mem {f : Fence} (h : f ∈ k.fence) : k.pending = f.version := by
  have h : k.fence = some f := h
  simp [UserKeys.pending, h]

theorem Outlived.moves {creates : ℤ → Prop} {k' : UserKeys} (h : Outlived syncFrequency k)
    (hm : k.Moves syncFrequency creates k') : Outlived syncFrequency k' := by
  have httl := userCacheTTL_lt_fenceTTL syncFrequency
  constructor
  · intro h' hh'
    rw [hm.now_eq]
    rcases hm.hash_cases h' hh' with ⟨h₀, hh₀, -, hd⟩ | ⟨-, -, hd⟩
    · rw [hd]
      exact h.hash_le h₀ hh₀
    · exact hd.le
  · intro h' hh' f' hf'
    rcases hm.hash_cases h' hh' with ⟨h₀, hh₀, hv, hd⟩ | ⟨-, hp, hd⟩
    · have hle := h.hash_le h₀ hh₀
      rcases hm.fence_cases f' hf' with hold | hnew
      · rw [hv, hd]
        exact h.fence_gt h₀ hh₀ f' hold
      · exact Or.inl (by omega)
    · rcases hm.fence_cases f' hf' with hold | hnew
      · exact Or.inr ((pending_of_mem hold).symm.le.trans hp)
      · exact Or.inl (by omega)

/-- The call can do no harm when the floor is too low: the row it holds is not older than what was
raised, and the hash it holds is not older than what it needs. -/
def Call.Guarded (raised : ℤ) : Call → Prop
  | .fetch need (.readFloor cached) => need ≤ cached.authVersion
  | .fetch _ (.checkFloor user) | .fetch _ (.populate user) => raised ≤ user.authVersion
  | _ => True

instance (raised : ℤ) : (c : Call) → Decidable (c.Guarded raised)
  | .fetch _ (.readFloor _) => inferInstanceAs (Decidable (_ ≤ _))
  | .fetch _ (.checkFloor _) => inferInstanceAs (Decidable (_ ≤ _))
  | .fetch _ (.populate _) => inferInstanceAs (Decidable (_ ≤ _))
  | .fetch _ .readHash | .fetch _ .readUser | .lockRow _ _ | .setFence _ _ _ | .update _ _ _
  | .publishRead | .publish _ | .tombstone _ | .invalidate | .refreshRead | .refresh _
  | .fieldRead _ | .fieldWrite _ _ | .groupRead | .groupWrite _ _ _ | .groupVerify _ _ _ =>
    inferInstanceAs (Decidable True)

/-- What a `GetUserCache` needs had been raised, and the row it read is not older. -/
def Call.Started (raised : ℤ) : Call → Prop
  | .fetch need (.checkFloor user) | .fetch need (.populate user) =>
    need ≤ raised ∧ need ≤ user.authVersion
  | .fetch need _ => need ≤ raised
  | _ => True

theorem Call.Idle.guarded (h : c.Idle) : c.Guarded raised := by
  cases c <;> trivial

theorem Call.Idle.started (h : c.Idle) : c.Started raised := by
  cases c <;> trivial

theorem Call.Started.need_le {f : Fetch}
    (h : (Call.fetch need f).Started raised) : need ≤ raised := by
  cases f with
  | checkFloor | populate => exact h.1
  | _ => exact h

theorem Call.Started.mono {raised' : ℤ} (h : c.Started raised) (hle : raised ≤ raised') :
    c.Started raised' := by
  cases c with
  | fetch need f =>
    cases f with
    | checkFloor | populate => exact ⟨h.1.trans hle, h.2⟩
    | _ => exact le_trans h hle
  | _ => trivial

/-- **The invariant.**  The row and the transaction that holds it are not below what was raised.  The
floor is not below it either, or nothing that could be returned or written into the cache is. -/
structure AuthOK (syncFrequency : ℤ) (p : Pool State Call) : Prop where
  row_ge : ∀ row ∈ p.shared.stored, p.shared.raised ≤ row.user.authVersion
  writer_ge : ∀ w ∈ p.shared.writer, p.shared.raised ≤ w.next
  outlived : Outlived syncFrequency p.shared.keys
  guarded : p.shared.raised ≤ p.shared.keys.floor ∨
    (p.Each (Call.Guarded p.shared.raised) ∧
      ∀ h ∈ p.shared.keys.hash, p.shared.raised ≤ h.authVersion)
  started : p.Each (Call.Started p.shared.raised)
  answered : ∀ a ∈ p.shared.answers, a.1 ≤ a.2

theorem State.live_stored {user : UserBase} (h : user ∈ s.live) :
    ∃ row ∈ s.stored, row.user = user := by
  have h : s.live = some user := h
  unfold State.live at h
  split at h
  · next row hrow =>
    split at h
    · simp at h
    · exact ⟨row, hrow, some.inj h⟩
  · simp at h

variable {p : Pool State Call}

/-- A call that starts holds nothing. -/
theorem AuthOK.start (h : AuthOK syncFrequency p)
    (hg : c.Guarded p.shared.raised) (hs : c.Started p.shared.raised) :
    AuthOK syncFrequency (p.start c) where
  row_ge := h.row_ge
  writer_ge := h.writer_ge
  outlived := h.outlived
  guarded := h.guarded.imp id fun hcalls => ⟨hcalls.1.start hg, hcalls.2⟩
  started := h.started.start hs
  answered := h.answered

variable {r : State × Option Call}

section

variable (h : Stepped syncFrequency userId fault s c r)
include h

/-- What a step leaves of a call is guarded, when the call was and the hash is not too old. -/
theorem Stepped.guarded (hrow : ∀ row ∈ s.stored,
      s.raised ≤ row.user.authVersion) (hg : c.Guarded s.raised) (hs : c.Started s.raised)
    (hhash : ∀ h ∈ s.keys.hash, s.raised ≤ h.authVersion) : ∀ c' ∈ r.2, c'.Guarded s.raised := by
  intro c' hc'
  rcases h.rest_cases c' hc' with hidle | ⟨need, f, f', rfl, rfl, hstep⟩
  · exact hidle.guarded
  · rcases Fetch.step_inl hstep with
      rfl | ⟨hash, hh, rfl, rfl⟩ | ⟨user, hu, rfl, rfl⟩ | ⟨user, rfl, rfl⟩
    · trivial
    · exact hs.need_le.trans (hhash hash hh)
    · obtain ⟨row, hr, rfl⟩ := State.live_stored hu
      exact hrow row hr
    · exact hg

/-- The row a `GetUserCache` reads is not older than what it needs. -/
theorem Stepped.started (hrow : ∀ row ∈ s.stored,
      s.raised ≤ row.user.authVersion) (hs : c.Started s.raised) :
    ∀ c' ∈ r.2, c'.Started s.raised := by
  intro c' hc'
  rcases h.rest_cases c' hc' with hidle | ⟨need, f, f', rfl, rfl, hstep⟩
  · exact hidle.started
  · have hneed := hs.need_le
    rcases Fetch.step_inl hstep with
      rfl | ⟨hash, hh, rfl, rfl⟩ | ⟨user, hu, rfl, rfl⟩ | ⟨user, rfl, rfl⟩
    · exact hneed
    · exact hneed
    · obtain ⟨row, hr, rfl⟩ := State.live_stored hu
      exact ⟨hneed, hneed.trans (hrow row hr)⟩
    · exact hs

/-- An answer is not older than what the call needed. -/
theorem Stepped.answered (hs : c.Started s.raised)
    (hguard : s.raised ≤ s.keys.floor ∨ c.Guarded s.raised)
    (hans : ∀ a ∈ s.answers, a.1 ≤ a.2) : ∀ a ∈ r.1.answers, a.1 ≤ a.2 := by
  rcases h.answers_cases with heq | ⟨need, f, user, rfl, hstep, heq⟩
  · rw [heq]
    exact hans
  · rw [heq]
    intro a ha
    rcases List.mem_cons.1 ha with rfl | ha
    · show need ≤ user.authVersion
      rcases Fetch.step_ok hstep with ⟨rfl, hfloor⟩ | rfl
      · rcases hguard with hraised | hg
        · exact (hs.need_le.trans hraised).trans hfloor
        · exact hg
      · exact hs.2
    · exact hans a ha

end

theorem AuthOK.resume (h : AuthOK syncFrequency p) (i : ℕ) :
    AuthOK syncFrequency (p.resume (Call.step syncFrequency userId fault) i) := by
  rcases p.resume_cases (Call.step syncFrequency userId fault) i with
    ⟨-, hr⟩ | ⟨before, c, after, -, hcalls, hr⟩
  · rw [hr]
    exact h
  have hmem : c ∈ p.calls := by simp [hcalls]
  have hstep : Stepped syncFrequency userId fault p.shared c
      (c.step syncFrequency userId fault p.shared) := c.step_stepped
  have hstarted := h.started c hmem
  have hshared : (p.resume (Call.step syncFrequency userId fault) i).shared =
      (c.step syncFrequency userId fault p.shared).1 := by rw [hr]
  refine ⟨?_, ?_, ?_, ?_, ?_, ?_⟩ <;> rw [hshared]
  · rw [hstep.stored_eq, hstep.raised_eq]
    exact h.row_ge
  · rw [hstep.raised_eq]
    rcases hstep.writer_cases with heq | ⟨row, how, hrow, heq⟩
    · rw [heq]
      exact h.writer_ge
    · rw [heq]
      intro w hw
      obtain rfl := some.inj hw
      have := h.row_ge row hrow
      show p.shared.raised ≤ max row.user.authVersion 1 + 1
      omega
  · exact h.outlived.moves hstep.moves
  · rw [hstep.raised_eq]
    rcases h.guarded with hfloor | ⟨hcalls', hhash⟩
    · exact Or.inl (hfloor.trans hstep.moves.floor_le)
    · refine Or.inr ⟨?_, fun h' hh' => ?_⟩
      · rw [hr]
        refine hcalls'.of_split hcalls ?_
        exact hstep.guarded h.row_ge (hcalls' c hmem) hstarted hhash
      · rcases hstep.moves.hash_cases h' hh' with ⟨h₀, hh₀, hv, -⟩ | ⟨hfrom, -⟩
        · rw [hv]
          exact hhash h₀ hh₀
        · rcases hfrom with ⟨h₀, hh₀, hle⟩ | ⟨need, user, rfl, hv⟩
          · exact (hhash h₀ hh₀).trans hle
          · rw [hv]
            exact hcalls' _ hmem
  · rw [hstep.raised_eq, hr]
    exact h.started.of_split hcalls (hstep.started h.row_ge hstarted)
  · exact hstep.answered hstarted (h.guarded.imp id fun hg => hg.1 c hmem) h.answered

/-! ### Runs -/

/-- Time passes over the deadline of the fence. -/
def fenceExpires (k : UserKeys) (seconds : ℕ) : Prop :=
  ∃ f ∈ k.fence, f.deadline ≤ k.now + seconds

instance (k : UserKeys) (seconds : ℕ) : Decidable (fenceExpires k seconds) :=
  match h : k.fence with
  | none => isFalse (by simp [fenceExpires, h])
  | some f => decidable_of_iff (f.deadline ≤ k.now + seconds) (by simp [fenceExpires, h])

/-- The call is about to publish a committed version. -/
def Call.publishing : Call → Bool
  | .publishRead | .publish _ | .tombstone _ => true
  | _ => false

/-- **Timing.**  A transaction commits while its fence is pending, the publication that follows meets
no failing command, and it comes before the fence expires. -/
def Timely (p : Pool State Call) : Event → Prop
  | .commit _ => ∀ w ∈ p.shared.writer, w.next ≤ p.shared.keys.pending
  | .resume i fault => ∀ c ∈ p.calls[i]?, c.publishing = true → fault = false
  | .tick seconds => fenceExpires p.shared.keys seconds → ∀ c ∈ p.calls, c.publishing = false
  | _ => True

instance (p : Pool State Call) : (e : Event) → Decidable (Timely p e)
  | .commit _ => inferInstanceAs (Decidable (∀ _ ∈ _, _ ≤ _))
  | .resume _ _ => inferInstanceAs (Decidable (∀ _ ∈ _, _ → _))
  | .tick _ => inferInstanceAs (Decidable (_ → ∀ _ ∈ p.calls, _ = _))
  | .increment _ | .getUserCache | .profileUpdated | .updateUserCacheField _
  | .refreshUserGroupCache | .rollback | .edit _ => inferInstanceAs (Decidable True)

/-- **Coverage.**  When the fence expires, the published version has reached what was raised, or no
`GetUserCache` in flight holds anything older. -/
def Covered (p : Pool State Call) : Event → Prop
  | .tick seconds =>
    fenceExpires p.shared.keys seconds →
      p.shared.raised ≤ p.shared.keys.committed ∨ ∀ c ∈ p.calls, c.Guarded p.shared.raised
  | _ => True

instance (p : Pool State Call) : (e : Event) → Decidable (Covered p e)
  | .tick _ => inferInstanceAs (Decidable (_ → _ ∨ ∀ _ ∈ p.calls, _))
  | .commit _ | .resume _ _ | .increment _ | .getUserCache | .profileUpdated
  | .updateUserCacheField _ | .refreshUserGroupCache | .rollback | .edit _ =>
    inferInstanceAs (Decidable True)

/-- Time leaves the floor alone until the fence expires, and then leaves what was published. -/
theorem floor_tick (k : UserKeys) (seconds : ℕ) :
    (k.tick seconds).floor = k.floor ∨
      (fenceExpires k seconds ∧ (k.tick seconds).floor = max 0 k.committed) := by
  cases hf : k.fence with
  | none => exact Or.inl (by simp [UserKeys.floor, UserKeys.pending, UserKeys.committed,
      UserKeys.tick, hf])
  | some f =>
    by_cases hd : k.now + seconds < f.deadline
    · exact Or.inl (by simp [UserKeys.floor, UserKeys.pending, UserKeys.committed, UserKeys.tick,
        hf, hd, Option.filter])
    · refine Or.inr ⟨⟨f, hf, not_lt.1 hd⟩, ?_⟩
      simp [UserKeys.floor, UserKeys.pending, UserKeys.committed, UserKeys.tick, hf, hd,
        Option.filter]

theorem mem_hash_tick {seconds : ℕ} {h : UserHash}
    (hh : h ∈ (k.tick seconds).hash) : h ∈ k.hash ∧ k.now + seconds < h.deadline := by
  have := filter_eq_some_iff.1 (show k.hash.filter _ = some h from hh)
  simpa using this

theorem mem_fence_tick {seconds : ℕ} {f : Fence}
    (hf : f ∈ (k.tick seconds).fence) : f ∈ k.fence := by
  have := filter_eq_some_iff.1 (show k.fence.filter _ = some f from hf)
  exact this.1

theorem AuthOK.tick (h : AuthOK syncFrequency p) {seconds : ℕ} (hc : Covered p (.tick seconds)) :
    AuthOK syncFrequency (step syncFrequency userId p (.tick seconds)) := by
  refine ⟨h.row_ge, h.writer_ge, ⟨?_, ?_⟩, ?_, h.started, h.answered⟩
  · intro hash hh
    have hle := h.outlived.hash_le hash (mem_hash_tick hh).1
    show hash.deadline ≤ p.shared.keys.now + seconds + userCacheTTLSeconds syncFrequency
    omega
  · intro hash hh f hf
    exact h.outlived.fence_gt hash (mem_hash_tick hh).1 f (mem_fence_tick hf)
  · show p.shared.raised ≤ (p.shared.keys.tick seconds).floor ∨
      (p.Each (Call.Guarded p.shared.raised) ∧
        ∀ hash ∈ (p.shared.keys.tick seconds).hash, p.shared.raised ≤ hash.authVersion)
    rcases floor_tick p.shared.keys seconds with hfloor | ⟨hexp, hfloor⟩
    · -- the fence stays, or there is none
      rw [hfloor]
      exact h.guarded.imp id fun hg => ⟨hg.1, fun hash hh => hg.2 hash (mem_hash_tick hh).1⟩
    · -- the fence expires
      rw [hfloor]
      by_cases hlow : p.shared.raised ≤ max 0 p.shared.keys.committed
      · exact Or.inl hlow
      have hcalls : ∀ c ∈ p.calls, c.Guarded p.shared.raised := by
        rcases hc hexp with hpub | hcalls
        · exact absurd (hpub.trans (le_max_right _ _)) hlow
        · exact hcalls
      refine Or.inr ⟨hcalls, fun hash hh => ?_⟩
      obtain ⟨hold, halive⟩ := mem_hash_tick hh
      rcases h.guarded with hraised | hg
      · -- a hash that outlives the fence was written at a version not below it
        obtain ⟨f, hf, hdead⟩ := hexp
        have hpending := pending_of_mem hf
        have hraised' : p.shared.raised ≤ f.version := by
          simp only [UserKeys.floor, hpending] at hraised
          omega
        rcases h.outlived.fence_gt hash hold f hf with hlt | hle
        · omega
        · exact hraised'.trans hle
      · exact hg.2 hash hold

theorem AuthOK.commit (h : AuthOK syncFrequency p) {profile : UserBase}
    (ht : Timely p (.commit profile)) :
    AuthOK syncFrequency (step syncFrequency userId p (.commit profile)) := by
  simp only [step]
  cases hw : p.shared.writer with
  | none => exact h
  | some w =>
    have hnext : p.shared.raised ≤ w.next := h.writer_ge w hw
    have hmax : max p.shared.raised w.next = w.next := max_eq_right hnext
    have hpending : w.next ≤ p.shared.keys.pending := ht w hw
    refine AuthOK.start (c := w.publication userId profile) ⟨?_, ?_, h.outlived, ?_, ?_,
      h.answered⟩ ?_ ?_
    · intro row hrow
      show max p.shared.raised w.next ≤ row.user.authVersion
      obtain ⟨old, -, hnew⟩ := bind_eq_some_iff.1 hrow
      have : row.user.authVersion = w.next := by
        unfold Writer.commitRow at hnew
        split at hnew
        · simp at hnew
        · rw [← some.inj hnew]
        · rw [← some.inj hnew]
      rw [hmax, this]
    · intro w' hw'
      exact absurd (show none = some w' from hw') (by simp)
    · refine Or.inl ?_
      show max p.shared.raised w.next ≤ p.shared.keys.floor
      rw [hmax]
      exact hpending.trans ((le_max_right _ _).trans (le_max_left _ _))
    · exact h.started.imp fun c hc => hc.mono (le_max_left _ _)
    · unfold Writer.publication
      split <;> trivial
    · unfold Writer.publication
      split <;> trivial

/-- **The transition lemma.** -/
theorem AuthOK.step (e : Event) (h : AuthOK syncFrequency p)
    (ht : Timely p e) (hc : Covered p e) : AuthOK syncFrequency (step syncFrequency userId p e) := by
  cases e with
  | increment | profileUpdated | updateUserCacheField | refreshUserGroupCache => exact h.start trivial trivial
  | getUserCache => exact h.start trivial (le_refl p.shared.raised)
  | resume i fault => exact h.resume i
  | commit profile => exact h.commit ht
  | rollback =>
    refine ⟨h.row_ge, fun w hw => ?_, h.outlived, h.guarded, h.started, h.answered⟩
    exact absurd (show none = some w from hw) (by simp)
  | edit profile =>
    refine ⟨fun row hrow => ?_, h.writer_ge, h.outlived, h.guarded, h.started, h.answered⟩
    obtain ⟨old, hold, rfl⟩ := map_eq_some_iff.1 hrow
    exact h.row_ge old hold
  | tick seconds => exact h.tick hc

theorem committed_le_step (p : Pool State Call) (e : Event) :
    p.shared.keys.committed ≤ (step syncFrequency userId p e).shared.keys.committed := by
  cases e with
  | resume i fault =>
    rcases p.resume_cases (Call.step syncFrequency userId fault) i with
      ⟨-, hr⟩ | ⟨before, c, after, -, -, hr⟩
    · simp only [AuthVersion.step, hr, le_refl]
    · simp only [AuthVersion.step, hr]
      have hstep : Stepped syncFrequency userId fault p.shared c
          (c.step syncFrequency userId fault p.shared) := c.step_stepped
      exact hstep.moves.committed_le
  | commit profile =>
    simp only [AuthVersion.step]
    split <;> exact le_refl _
  | _ => exact le_refl _

theorem committed_le_run (p : Pool State Call) (es : List Event) :
    p.shared.keys.committed ≤
      (Machine.run (step syncFrequency userId) p es).shared.keys.committed := by
  induction es generalizing p with
  | nil => exact le_refl _
  | cons e es ih => exact (committed_le_step p e).trans (ih _)

/-- A user before the first request: nothing is cached, and the stored version counts as raised. -/
def start (row : Row) (now : ℤ) (version : Option ℤ) : Pool State Call :=
  ⟨⟨some row, none, ⟨now, none, none, version⟩, row.user.authVersion, []⟩, []⟩

/-- Every `GetUserCache` that returned a user returned a version not below the versions committed
when it started. -/
def Fresh (p : Pool State Call) : Prop := ∀ a ∈ p.shared.answers, a.1 ≤ a.2

instance (p : Pool State Call) : Decidable (Fresh p) :=
  inferInstanceAs (Decidable (∀ a ∈ p.shared.answers, a.1 ≤ a.2))

/-- **No revoked version comes back.**  In every timely interleaving in which an expiring fence
leaves nothing uncovered, no `GetUserCache` returns a version below those committed before it
started, and the committed version never decreases. -/
theorem auth_runs (syncFrequency userId : ℤ) (row : Row) (now : ℤ) (version : Option ℤ)
    (es : List Event)
    (hes : Machine.Meets (step syncFrequency userId) (fun p e => Timely p e ∧ Covered p e)
      (start row now version) es) :
    Machine.Always (step syncFrequency userId) Fresh (start row now version) es ∧
      ∀ es₁ es₂, es = es₁ ++ es₂ →
        (Machine.run (step syncFrequency userId) (start row now version) es₁).shared.keys.committed ≤
          (Machine.run (step syncFrequency userId) (start row now version) es).shared.keys.committed
    := by
  have hstart : AuthOK syncFrequency (start row now version) := by
    refine ⟨fun row' hrow => ?_, fun w hw => ?_, ⟨?_, ?_⟩, Or.inr ⟨?_, ?_⟩, ?_, ?_⟩
    · obtain rfl := Option.some.inj hrow
      exact le_refl _
    · exact absurd (show none = some w from hw) (by simp)
    · intro hash hh
      exact absurd (show none = some hash from hh) (by simp)
    · intro hash hh
      exact absurd (show none = some hash from hh) (by simp)
    · exact fun c hc => absurd hc List.not_mem_nil
    · intro hash hh
      exact absurd (show none = some hash from hh) (by simp)
    · exact fun c hc => absurd hc List.not_mem_nil
    · exact fun a ha => absurd ha List.not_mem_nil
  constructor
  · refine (Machine.Always.of_meets ?_ hstart hes).imp fun p hp => hp.answered
    intro p e hp hc
    exact hp.step e hc.1 hc.2
  · rintro es₁ es₂ rfl
    rw [Machine.run_append]
    exact committed_le_run _ es₂

/-- A user at version 1. -/
def someone : UserBase := ⟨7, "default", "", 0, 1, 1, "someone", "", 1⟩

/-- The version is raised and published; a read that started before is refused its fill, and one that
starts afterwards returns the new version. -/
theorem auth_runs_published :
    Machine.Always (step 60 7) Fresh (start ⟨someone, false⟩ 0 none)
      [.getUserCache, .resume 0 false, .resume 0 false, .resume 0 false,
        .increment .cache, .resume 1 false, .resume 1 false, .resume 1 false, .commit someone,
        .resume 1 false, .resume 1 false, .resume 0 false,
        .getUserCache, .resume 0 false, .resume 0 false, .resume 0 false, .resume 0 false] :=
  (auth_runs 60 7 ⟨someone, false⟩ 0 none _ (by decide)).1

/-- **A publication refused by a fence that came to nothing.**  A read of version 1 is delayed before
its fill.  Version 2 is committed; before it is published, another transaction sets the fence to 3
and rolls back, so that the publication of 2 is refused.  When the fence has expired the delayed
fill is accepted, and a read that starts after all this returns version 1. -/
theorem stale_after_rollback :
    let es : List Event :=
      [.getUserCache, .resume 0 false, .resume 0 false, .resume 0 false,
        .increment .cache, .resume 1 false, .resume 1 false, .resume 1 false, .commit someone,
        .increment .cache, .resume 2 false, .resume 2 false, .resume 2 false, .rollback,
        .resume 1 false, .resume 1 false, .tick 120, .resume 0 false,
        .getUserCache, .resume 0 false, .resume 0 false]
    Machine.Meets (step 60 7) Timely (start ⟨someone, false⟩ 0 none) es ∧
      ¬ Machine.Always (step 60 7) Fresh (start ⟨someone, false⟩ 0 none) es := by
  refine ⟨by decide, fun h => ?_⟩
  exact absurd h.run (by decide)

end NexusTok.AuthVersion
