import NexusTok.Machine.Pool
import NexusTok.Session.Basic

/-!
# Calls on login sessions

The operations on sessions, cut at every statement of the database, every script of the cache and
every reading of the clock that matters, and the machine that interleaves any number of them.

A write to the cache is always the same three steps: the expiry is computed, the script runs, and
an active entry is measured against its deadline once more.  What the operation does with the result
is its continuation, `Then`.

What the operations returned is noted in a journal that no code reads; beside it the machine keeps
the session ids ever taken, the sessions whose revocation has been published, the sessions ever
issued, and the rotations.

* `act` : one step of a call.
* `step` : one event.
-/

namespace NexusTok.Sessions

open Table (update)

/-! ### Calls -/

/-- The arguments of `RotateUserSessionRefresh`, and the time it began. -/
structure Refresh where
  userID : ℤ
  sid : String
  presented : String
  next : String
  now : ℤ
  grace : ℤ
  deriving DecidableEq

/-- The arguments of `RevokeUserSession` or `revokeUserSessions`, and the time it began; `sid` is
the session to revoke, or the one to spare. -/
structure Revocation where
  userID : ℤ
  sid : String
  reason : String
  now : ℤ
  deriving DecidableEq

/-- The arguments of `AdvanceUserSessionAuthVersion`. -/
structure Advance where
  userID : ℤ
  sid : String
  version : ℤ
  authVersion : ℤ
  nextAuthVersion : ℤ
  deriving DecidableEq

/-- The two cleanups. -/
inductive Cleanup where
  /-- `DeleteExpiredUserSessions`. -/
  | expired
  /-- `DeleteOldRevokedUserSessions`. -/
  | revoked
  deriving DecidableEq

/-- What a write to the cache is part of. -/
inductive Then where
  /-- `GetUserSessionCached`, of a session that is not live. -/
  | denied (late : Bool)
  /-- `GetUserSessionCached`. -/
  | got (s : Session) (late : Bool)
  /-- The end of `CreateOrReuseUserSessionWithLimits`. -/
  | created (s : Session)
  /-- The tombstone of a session that a renewal replaced. -/
  | replaced (sid : String) (s : Session) (deadline : ℤ)
  /-- The tombstone of a session that was never used; `rest` are still to come. -/
  | cleaned (sid : String) (rest : List Session) (s : Session) (deadline : ℤ)
  /-- `RotateUserSessionRefresh`, after the swap. -/
  | rotated (r : Refresh) (s : Session)
  /-- `RotateUserSessionRefresh`, before the revocation. -/
  | reuseFence (r : Refresh) (s : Session)
  | reuseFinal (r : Refresh)
  | advanced (s : Session)
  /-- `RevokeUserSession`, before the revocation. -/
  | revokeFence (v : Revocation) (s : Session)
  | revokeFinal (sid : String)
  /-- `RevokeUserSessionByRefreshHash`, inside its transaction. -/
  | hashFence (reason : String) (now : ℤ) (s : Session)
  | hashFinal (sid : String)
  /-- `revokeUserSessions`, before the revocation of `batch`; `rest` have no fence yet. -/
  | bulkFence (v : Revocation) (rest batch : List Session)
  | bulkFinal (v : Revocation) (sid : String) (rest : List Session)
  deriving DecidableEq

/-- Where a call stands: before the step named. -/
inductive Call where
  /-- `GetUserSessionCached`; `late` if the revocation of the session had been published. -/
  | get (sid : String) (late : Bool)
  | getDeadline (sid : String) (late : Bool)
  | getRead (sid : String) (late : Bool) (deadline : ℤ)
  | getCheck (s : Session) (late : Bool) (deadline : ℤ)
  /-- `writeUserSessionCache`. -/
  | publish (e : Entry) (deadline : Option ℤ) (k : Then)
  | script (e : Entry) (deadline : Option ℤ) (expiration : ℤ) (k : Then)
  | completed (e : Entry) (deadline : Option ℤ) (k : Then)
  /-- `confirmUserSessionActiveSnapshot`. -/
  | confirm (s : Session) (k : Then)
  /-- `CreateOrReuseUserSessionWithLimits`: the clock is read for the renewal. -/
  | loginRenew (s : Session) (reusableSID : String) (deadline : ℤ)
  /-- The clock is read for the creation. -/
  | loginCreate (s : Session) (reusableSID : String) (deadline renewAt : ℤ)
  /-- The transaction. -/
  | login (s : Session) (reusableSID : String) (deadline renewAt createAt : ℤ)
  | rotateDeadline (r : Refresh) (tries : ℕ)
  | rotateRead (r : Refresh) (tries : ℕ) (deadline : ℤ)
  | rotateSwap (r : Refresh) (tries : ℕ) (deadline : ℤ) (s : Session)
  | reuseUpdate (r : Refresh) (s : Session)
  | advanceClock (a : Advance) (deadline : ℤ)
  | advance (a : Advance) (deadline now : ℤ)
  | revokeRead (v : Revocation)
  | revoke (v : Revocation) (s : Session)
  | hashRead (sid presented reason : String) (now : ℤ)
  /-- The transaction ends; `row` is the row it has locked. -/
  | hashCommit (reason : String) (now : ℤ) (row : Session)
  | bulkFind (v : Revocation)
  | bulk (v : Revocation) (batch : List Session)
  | cleanFind (kind : Cleanup) (now : ℤ)
  | cleanDelete (kind : Cleanup) (now : ℤ) (sids : List String)
  deriving DecidableEq

/-! ### The shared state -/

/-- What was returned. -/
inductive Note where
  /-- `GetUserSessionCached` returned a session as active, or not. -/
  | got (late active : Bool)
  /-- `RotateUserSessionRefresh` returned: whether it had swapped the digests, whether it had found
  its digest to be the previous one outside the grace window, and whether the session is live. -/
  | refreshed (sid : String) (swapped replayed : Bool) (err : Option Err) (alive : Bool)
  /-- A cleanup deleted rows. -/
  | deleted (rows : List Session) (clock : ℤ)
  /-- Another operation returned. -/
  | answered (err : Option Err)
  deriving DecidableEq

/-- A session that was issued. -/
structure Issue where
  userID : ℤ
  createdAt : ℤ
  deriving DecidableEq

/-- A rotation of the digests of a session. -/
structure Rotation where
  sid : String
  presented : String
  next : String
  deriving DecidableEq

structure Shared where
  users : List Account
  sessions : List Session
  cache : Cache
  clock : ℤ
  /-- Session ids that were ever taken. -/
  used : List String
  /-- Sessions whose revocation or replacement has been published. -/
  gone : List String
  issued : List Issue
  rotations : List Rotation
  journal : List Note

namespace Shared

def note (sh : Shared) (n : Note) : Shared := { sh with journal := n :: sh.journal }

def dismiss (sh : Shared) (sid : String) : Shared := { sh with gone := sid :: sh.gone }

/-- The session is in the table, and live. -/
def alive (sh : Shared) (sid : String) : Bool :=
  sh.sessions.any fun s => decide (s.sid = sid) && s.live (unix sh.clock)

/-- `RotateUserSessionRefresh` returns. -/
def refreshed (sh : Shared) (r : Refresh) (swapped replayed : Bool) (err : Option Err) : Shared :=
  sh.note (.refreshed r.sid swapped replayed err (sh.alive r.sid))

end Shared

/-! ### Continuations -/

/-- The operation returns an error. -/
def Then.fail (sh : Shared) (err : Err) : Then → Shared
  | .denied late | .got _ late => sh.note (.got late false)
  | .rotated r _ => sh.refreshed r true false (some err)
  | .reuseFence r _ | .reuseFinal r => sh.refreshed r false true (some err)
  | _ => sh.note (.answered (some err))

/-- The fences of `revokeUserSessions`. -/
def bulkNext (v : Revocation) (batch : List Session) : List Session → Call
  | [] => .bulk v batch
  | s :: rest =>
    .publish (s.toEntry.revoke .revoking v.now v.reason) none (.bulkFence v rest batch)

/-- The tombstones of `revokeUserSessions`. -/
def bulkFinals (v : Revocation) : List Session → Call
  | [] => .bulkFind v
  | s :: rest => .publish s.toEntry none (.bulkFinal v s.sid rest)

/-- The tombstones of the sessions that were never used, and then the new session. -/
def cleanFinals (s : Session) (deadline : ℤ) : List Session → Call
  | [] => .publish s.toEntry (some deadline) (.created s)
  | r :: rest => .publish r.toEntry none (.cleaned r.sid rest s deadline)

/-- What an operation does after a write to the cache. -/
def proceed (sh : Shared) (result : Except Err Unit) : Then → Shared × Option Call
  | .denied late => (sh.note (.got late false), none)
  | .got s late =>
    match result with
    | .error .observationStale => (sh, some (.confirm s (.got s late)))
    | .error .inactive => (sh.note (.got late false), none)
    | _ => (sh.note (.got late true), none)
  | .created s =>
    match result with
    | .error .observationStale => (sh, some (.confirm s (.created s)))
    | .error .inactive => (sh.note (.answered (some .inactive)), none)
    | _ => (sh.note (.answered none), none)
  | .replaced sid s deadline =>
    (sh.dismiss sid, some (.publish s.toEntry (some deadline) (.created s)))
  | .cleaned sid rest s deadline => (sh.dismiss sid, some (cleanFinals s deadline rest))
  | .rotated r s =>
    match result with
    | .error .observationStale => (sh, some (.confirm s (.rotated r s)))
    | .error .inactive => (sh.refreshed r true false (some .inactive), none)
    | _ => (sh.refreshed r true false none, none)
  | .reuseFence r s =>
    match result with
    | .error err => (sh.refreshed r false true (some err), none)
    | .ok () => (sh, some (.reuseUpdate r s))
  | .reuseFinal r => ((sh.dismiss r.sid).refreshed r false true (some .refreshReuse), none)
  | .advanced s =>
    match result with
    | .error .observationStale => (sh, some (.confirm s (.advanced s)))
    | .error err => (sh.note (.answered (some err)), none)
    | .ok () => (sh.note (.answered none), none)
  | .revokeFence v s =>
    match result with
    | .error err => (sh.note (.answered (some err)), none)
    | .ok () => (sh, some (.revoke v s))
  | .revokeFinal sid => ((sh.dismiss sid).note (.answered none), none)
  | .hashFence reason now s =>
    match result with
    | .error err => (sh.note (.answered (some err)), none)
    | .ok () => (sh, some (.hashCommit reason now s))
  | .hashFinal sid => ((sh.dismiss sid).note (.answered none), none)
  | .bulkFence v rest batch =>
    match result with
    | .error err => (sh.note (.answered (some err)), none)
    | .ok () => (sh, some (bulkNext v batch rest))
  | .bulkFinal v sid rest => (sh.dismiss sid, some (bulkFinals v rest))

/-! ### Cleanups -/

/-- The rows that a cleanup deletes. -/
def Cleanup.condition (cfg : Config) (now : ℤ) : Cleanup → Session → Bool
  | .expired, s =>
    decide (s.expiresAt < now) && decide (s.createdAt ≤ now - cfg.issuanceWindowSeconds) &&
      (decide (s.status ≠ .revoked) || decide (s.revokedAt ≤ 0) ||
        decide (s.revokedAt < now - cfg.revokedRetentionDays * 24 * 60 * 60))
  | .revoked, s =>
    decide (s.status = .revoked) && decide (0 < s.revokedAt) &&
      decide (s.revokedAt < now - cfg.revokedRetentionDays * 24 * 60 * 60) &&
      decide (s.createdAt ≤ now - cfg.issuanceWindowSeconds)

/-- The order in which they are found. -/
def Cleanup.order : Cleanup → Session → Session → Bool
  | .expired, a, b => decide (a.expiresAt ≤ b.expiresAt)
  | .revoked, a, b => decide (a.revokedAt ≤ b.revokedAt)

/-- `userSessionCleanupScanLimit`. -/
def cleanupScanLimit : ℕ := 1000

/-- `userSessionCleanupBatchSize`. -/
def cleanupBatchSize : ℕ := 500

/-- `userSessionRevokeBatchSize`. -/
def revokeBatchSize : ℕ := 500

/-- `user_id = ? AND status = 'active' AND expires_at > ? AND sid <> ?`. -/
def bulkCandidate (v : Revocation) (s : Session) : Bool :=
  activeOf v.userID v.now s && (decide (v.sid = "") || decide (s.sid ≠ v.sid))

/-! ### Steps -/

/-- What the transaction of a login leaves. -/
def loginTx (cfg : Config) (sh : Shared) (s : Session) (reusableSID : String)
    (deadline renewAt createAt : ℤ) : Shared × Option Call :=
  match renew cfg sh.users sh.sessions s reusableSID renewAt with
  | .error err => (sh.note (.answered (some err)), none)
  | .ok (some (rows, s', old)) =>
    ({ sh with sessions := rows },
      some (.publish (old.toEntry.revoke .revoked (unix sh.clock) "login_session_renewed") none
        (.replaced old.sid s' deadline)))
  | .ok none =>
    match create cfg sh.users sh.sessions s createAt (unix sh.clock) with
    | .error err => (sh.note (.answered (some err)), none)
    | .ok (rows, s', stale) =>
      ({ sh with sessions := rows, issued := ⟨s'.userID, s'.createdAt⟩ :: sh.issued },
        some (cleanFinals s' deadline stale))

/-- What `RotateUserSessionRefresh` does with the row it has read. -/
def rotateDecide (sh : Shared) (r : Refresh) (tries : ℕ) (deadline : ℤ) :
    Option Session → Shared × Option Call
  | none => (sh.refreshed r false false (some .notFound), none)
  | some s =>
    if s.live r.now then
      if s.refreshHash = r.presented then (sh, some (.rotateSwap r tries deadline s))
      else if s.previousRefreshHash = "" ∨ s.previousRefreshHash ≠ r.presented then
        (sh.refreshed r false false (some .refreshInvalid), none)
      else if r.now ≤ s.previousValidUntil then
        (sh.refreshed r false false (some .refreshRace), none)
      else
        (sh, some (.publish (s.toEntry.revoke .revoking r.now "refresh_reuse") none
          (.reuseFence r s)))
    else (sh.refreshed r false false (some .inactive), none)

/-- One step of a call.  A read of the cache may fail. -/
def act (cfg : Config) (fails : Bool) (sh : Shared) : Call → Shared × Option Call
  | .get sid late =>
    if fails then (sh, some (.getDeadline sid late))
    else
      match getUserSessionCache sh.cache sid sh.clock with
      | .ok (some _) => (sh.note (.got late true), none)
      | .ok none => (sh, some (.getDeadline sid late))
      | .error _ => (sh.note (.got late false), none)
  | .getDeadline sid late => (sh, some (.getRead sid late (cfg.deadline sh.clock)))
  | .getRead sid late deadline =>
    match getUserSessionBySID sid sh.sessions with
    | none => (sh.note (.got late false), none)
    | some s => (sh, some (.getCheck s late deadline))
  | .getCheck s late deadline =>
    if s.live (unix sh.clock) then
      (sh, some (.publish s.toEntry (some deadline) (.got s late)))
    else
      (sh, some (.publish { s.toEntry with status := .revoked } none (.denied late)))
  | .publish e deadline k =>
    match prepare cfg e deadline sh.clock with
    | .error err => proceed sh (.error err) k
    | .ok expiration => (sh, some (.script e deadline expiration k))
  | .script e deadline expiration k =>
    if refuses (sh.cache.find e.sid sh.clock) e then proceed sh (.error .inactive) k
    else
      let sh := { sh with cache := sh.cache.write e expiration sh.clock }
      if e.status = .active then (sh, some (.completed e deadline k)) else proceed sh (.ok ()) k
  | .completed e deadline k => proceed sh (completed e deadline sh.clock) k
  | .confirm s k =>
    if s.sid = "" ∨ s.userID ≤ 0 ∨ s.version ≤ 0 ∨ s.userAuthVersion ≤ 0 then
      (k.fail sh .invalid, none)
    else if sh.sessions.countP (confirms s (unix sh.clock)) = 1 then proceed sh (.ok ()) k
    else (k.fail sh .inactive, none)
  | .loginRenew s reusableSID deadline =>
    (sh, some (.loginCreate s reusableSID deadline (unix sh.clock)))
  | .loginCreate s reusableSID deadline renewAt =>
    (sh, some (.login s reusableSID deadline renewAt (unix sh.clock)))
  | .login s reusableSID deadline renewAt createAt =>
    loginTx cfg sh s reusableSID deadline renewAt createAt
  | .rotateDeadline r tries => (sh, some (.rotateRead r tries (cfg.deadline sh.clock)))
  | .rotateRead r tries deadline =>
    rotateDecide sh r tries deadline (ownSession r.userID r.sid sh.sessions)
  | .rotateSwap r tries deadline s =>
    if sh.sessions.any (rotatable r.userID r.sid r.presented r.now) then
      ({ sh with
          sessions := update (rotatable r.userID r.sid r.presented r.now)
            (Session.rotate r.next r.now r.grace s) sh.sessions
          rotations := ⟨r.sid, r.presented, r.next⟩ :: sh.rotations },
        some (.publish { s.toEntry with lastActiveAt := r.now } (some deadline)
          (.rotated r (Session.rotate r.next r.now r.grace s s))))
    else
      match tries with
      | 0 => (sh.refreshed r false false (some .refreshInvalid), none)
      | tries + 1 => (sh, some (.rotateDeadline r tries))
  | .reuseUpdate r s =>
    if sh.sessions.any (reusable r.userID r.sid r.now) then
      ({ sh with
          sessions := update (reusable r.userID r.sid r.now)
            (Session.revoke r.now "refresh_reuse") sh.sessions },
        some (.publish (s.toEntry.revoke .revoked r.now "refresh_reuse") none (.reuseFinal r)))
    else (sh.refreshed r false true (some .inactive), none)
  | .advanceClock a deadline => (sh, some (.advance a deadline (unix sh.clock)))
  | .advance a deadline now =>
    match ownSession a.userID a.sid sh.sessions with
    | none => (sh.note (.answered (some .notFound)), none)
    | some s =>
      if advanceable a.userID a.sid a.version a.authVersion now s then
        ({ sh with
            sessions := update (advanceable a.userID a.sid a.version a.authVersion now)
              (Session.advance a.nextAuthVersion now) sh.sessions },
          some (.publish (s.advance a.nextAuthVersion now).toEntry (some deadline)
            (.advanced (s.advance a.nextAuthVersion now))))
      else (sh.note (.answered (some .inactive)), none)
  | .revokeRead v =>
    match ownSession v.userID v.sid sh.sessions with
    | none => (sh.note (.answered none), none)
    | some s =>
      if s.live v.now then
        (sh, some (.publish (s.toEntry.revoke .revoking v.now v.reason) none (.revokeFence v s)))
      else (sh.note (.answered none), none)
  | .revoke v s =>
    match ownSession v.userID v.sid sh.sessions with
    | none => (sh.note (.answered (some .notFound)), none)
    | some current =>
      if current.live v.now then
        ({ sh with
            sessions := update (activeIn [v.sid]) (Session.revoke v.now v.reason) sh.sessions },
          -- the tombstone is made of the copy, not of the row
          some (.publish (s.toEntry.revoke .revoked v.now v.reason) none (.revokeFinal s.sid)))
      else (sh.note (.answered none), none)
  | .hashRead sid presented reason now =>
    match Table.get (fun s : Session => s.sid) sid sh.sessions with
    | none => (sh.note (.answered none), none)
    | some row =>
      let s := row.afterFind
      if s.live now ∧ (s.refreshHash = presented ∨ (s.previousRefreshHash ≠ "" ∧
          now ≤ s.previousValidUntil ∧ s.previousRefreshHash = presented)) then
        (sh, some (.publish (s.toEntry.revoke .revoking now reason) none
          (.hashFence reason now row)))
      else (sh.note (.answered none), none)
  | .hashCommit reason now row =>
    -- the row is locked, so nobody has changed it
    if row ∈ sh.sessions then
      ({ sh with
          sessions := update (activeIn [row.sid]) (Session.revoke now reason) sh.sessions },
        some (.publish (row.toEntry.revoke .revoked now reason) none (.hashFinal row.sid)))
    else (sh, some (.hashCommit reason now row))
  | .bulkFind v =>
    match (Table.select (bulkCandidate v) (fun a b => decide (a.sid ≤ b.sid)) sh.sessions).take
        revokeBatchSize with
    | [] => (sh.note (.answered none), none)
    | batch => (sh, some (bulkNext v (batch.map Session.afterFind) (batch.map Session.afterFind)))
  | .bulk v batch =>
    let sids := batch.map fun s => s.sid
    let revoked := (sh.sessions.filter (activeIn sids)).map fun s =>
      s.afterFind.revoke v.now v.reason
    ({ sh with sessions := update (activeIn sids) (Session.revoke v.now v.reason) sh.sessions },
      some (bulkFinals v revoked))
  | .cleanFind kind now =>
    match ((Table.select (kind.condition cfg now) kind.order sh.sessions).take
        cleanupScanLimit).map fun s => s.sid with
    | [] => (sh.note (.answered none), none)
    | sids => (sh, some (.cleanDelete kind now sids))
  | .cleanDelete kind now sids =>
    let doomed := fun s : Session =>
      decide (s.sid ∈ sids.take cleanupBatchSize) && kind.condition cfg now s
    let sh' := { sh with sessions := sh.sessions.filter fun s => !doomed s }
    (sh'.note (.deleted (sh.sessions.filter doomed) sh.clock),
      match sids.drop cleanupBatchSize with
      | [] => some (.cleanFind kind now)
      | rest => some (.cleanDelete kind now rest))

/-! ### The machine -/

/-- An operation with its arguments. -/
inductive Op where
  | get (sid : String)
  | login (s : Session) (reusableSID : String)
  | rotate (userID : ℤ) (sid presented next : String) (graceSeconds : ℤ)
  | advance (a : Advance)
  | revoke (userID : ℤ) (sid reason : String)
  | revokeByHash (sid presented reason : String)
  /-- `RevokeOtherUserSessions`; `RevokeAllUserSessions` if nothing is excluded. -/
  | revokeAll (userID : ℤ) (excludedSID reason : String)
  | cleanup (kind : Cleanup)
  deriving DecidableEq

/-- An operation up to its first step. -/
def Op.call (cfg : Config) (sh : Shared) : Op → Option Call
  | .get sid => if sid = "" then none else some (.get sid (decide (sid ∈ sh.gone)))
  | .login s reusableSID => some (.loginRenew s reusableSID (cfg.deadline sh.clock))
  | .rotate userID sid presented next graceSeconds =>
    if userID ≤ 0 ∨ sid = "" ∨ presented = "" ∨ next = "" ∨ presented = next ∨ graceSeconds < 0 then
      none
    else some (.rotateDeadline ⟨userID, sid, presented, next, unix sh.clock, graceSeconds⟩ 2)
  | .advance a =>
    if a.userID ≤ 0 ∨ a.sid = "" ∨ a.version ≤ 0 ∨ a.authVersion ≤ 0 ∨
        a.nextAuthVersion ≤ a.authVersion then none
    else some (.advanceClock a (cfg.deadline sh.clock))
  | .revoke userID sid reason =>
    if userID ≤ 0 ∨ sid = "" then none
    else some (.revokeRead ⟨userID, sid, reason, unix sh.clock⟩)
  | .revokeByHash sid presented reason =>
    if sid = "" ∨ presented = "" then none
    else some (.hashRead sid presented reason (unix sh.clock))
  | .revokeAll userID excludedSID reason =>
    if userID ≤ 0 then none else some (.bulkFind ⟨userID, excludedSID, reason, unix sh.clock⟩)
  | .cleanup kind => some (.cleanFind kind (unix sh.clock))

/-- The session id that an operation takes. -/
def Op.takes : Op → List String
  | .login s _ => [s.sid]
  | _ => []

inductive Event where
  | begin (op : Op)
  /-- The call `i` takes its next step. -/
  | resume (i : ℕ) (fails : Bool)
  /-- Users change. -/
  | account (users : List Account)
  /-- Time passes. -/
  | tick (d : ℕ)
  deriving DecidableEq

def step (cfg : Config) (p : Pool Shared Call) : Event → Pool Shared Call
  | .begin op =>
    match op.call cfg p.shared with
    | none => p
    | some c => (p.outside fun sh => { sh with used := op.takes ++ sh.used }).start c
  | .resume i fails => p.resume (act cfg fails) i
  | .account users => p.outside fun sh => { sh with users := users }
  | .tick d => p.outside fun sh => { sh with clock := sh.clock + d }

/-- Users and sessions, an empty cache, and nobody at work. -/
def atRest (users : List Account) (sessions : List Session) (clock : ℤ) : Pool Shared Call :=
  ⟨⟨users, sessions, fun _ => none, clock, sessions.map fun s => s.sid, [],
    sessions.map fun s => ⟨s.userID, s.createdAt⟩, [], []⟩, []⟩

/-! ### Samples -/

def sampleConfig : Config where
  cacheSeconds := 60
  activeLimit := 2
  issuanceLimit := 3
  issuanceWindowSeconds := 3600
  revokedRetentionDays := 1
  cut := fun _ s => s
  window_pos := by decide
  retention_pos := by decide

def sampleSession : Session where
  sid := "s"
  userID := 1
  version := 1
  userAuthVersion := 1
  status := .active
  loginMethod := "password"
  ip := ""
  userAgent := ""
  createdAt := 100
  lastActiveAt := 100
  expiresAt := 100000
  revokedAt := 0
  revokedReason := ""
  refreshHash := "a"
  previousRefreshHash := ""
  previousValidUntil := 0

/-- A call takes as many steps. -/
def resumes (i steps : ℕ) : List Event := List.replicate steps (.resume i false)

end NexusTok.Sessions
