import NexusTok.Store.Table
import NexusTok.Text.Basic

/-!
# Login sessions

A login session is a row of the database: who is logged in, until when, the digest of the refresh
token and of the one before it.  A copy of the row without the digests stands in a cache with an
expiry of its own; a session that was revoked leaves a *tombstone* there, which no active copy may
overwrite.

This module has the rows, the statements of the database on them, the transactions that create and
renew a session, and the write to the cache, cut into what is computed before the script runs and
the script itself.

Times are in nanoseconds; rows hold seconds, and the cache works in milliseconds.

* `Session.live` : what every reader of a row asks.
* `renew`, `create` : the two halves of a login.
* `prepare`, `Cache.write` : the two halves of a write to the cache.
-/

namespace NexusTok.Sessions

open List

open Table (update)

/-! ### Time -/

def second : ℤ := 1000000000

def millisecond : ℤ := 1000000

/-- `time.Time.Unix`. -/
def unix (t : ℤ) : ℤ := t / second

/-- `time.Time.UnixMilli`. -/
def unixMilli (t : ℤ) : ℤ := t / millisecond

/-! ### Rows -/

/-- The status of a session, as text. -/
inductive Status where
  | active | revoking | revoked
  /-- `""`. -/
  | unset
  deriving DecidableEq

/-- A copy of a session in the cache: `userSessionCacheEntry`. -/
structure Entry where
  sid : String
  userID : ℤ
  version : ℤ
  userAuthVersion : ℤ
  status : Status
  loginMethod : String
  ip : String
  userAgent : String
  createdAt : ℤ
  lastActiveAt : ℤ
  expiresAt : ℤ
  revokedAt : ℤ
  revokedReason : String
  deriving DecidableEq

/-- `UserSession`: what the cache holds, and the digests. -/
structure Session extends Entry where
  refreshHash : String
  previousRefreshHash : String
  previousValidUntil : ℤ
  deriving DecidableEq

/-- The columns of a user that a login reads. -/
structure Account where
  id : ℤ
  /-- `Status == UserStatusEnabled`. -/
  enabled : Bool
  authVersion : ℤ
  deriving DecidableEq

/-- What is configured, each number being positive, and how a text is cut to a number of bytes. -/
structure Config where
  /-- `RedisKeyCacheSeconds`. -/
  cacheSeconds : ℤ
  activeLimit : ℕ
  issuanceLimit : ℕ
  issuanceWindowSeconds : ℤ
  revokedRetentionDays : ℤ
  cut : ℕ → String → String
  window_pos : 0 < issuanceWindowSeconds
  retention_pos : 0 < revokedRetentionDays

/-- `userCacheTTLSeconds`. -/
def Config.ttlSeconds (cfg : Config) : ℤ := if cfg.cacheSeconds ≤ 0 then 60 else cfg.cacheSeconds

/-- How long the cache keeps an entry at most. -/
def Config.ttl (cfg : Config) : ℤ := cfg.ttlSeconds * second

/-- `userSessionCacheDeadline`. -/
def Config.deadline (cfg : Config) (now : ℤ) : ℤ := now + cfg.ttl

inductive Err where
  | invalid | inactive | notFound | refreshInvalid | refreshRace | refreshReuse
  | limit | issuanceLimit | observationStale
  /-- The primary key is taken. -/
  | duplicate
  deriving DecidableEq

/-- The row is active, not revoked, and has not expired. -/
def Session.live (now : ℤ) (s : Session) : Bool :=
  decide (s.status = .active) && decide (s.revokedAt = 0) && decide (now < s.expiresAt)

/-- What a revocation writes. -/
def Entry.revoke (status : Status) (now : ℤ) (reason : String) (e : Entry) : Entry :=
  { e with status := status, revokedAt := now, revokedReason := reason }

def Session.revoke (now : ℤ) (reason : String) (s : Session) : Session :=
  { s with toEntry := s.toEntry.revoke .revoked now reason }

def Session.afterFind (s : Session) : Session :=
  { s with previousRefreshHash := trimSpace s.previousRefreshHash }

/-! ### Statements -/

def getUserSessionBySID (sid : String) (rows : List Session) : Option Session :=
  (Table.get (fun s : Session => s.sid) sid rows).map Session.afterFind

variable (userID : ℤ)

/-- The row of a user's session. -/
def ownSession (sid : String) (rows : List Session) : Option Session :=
  (rows.find? fun s => decide (s.sid = sid) && decide (s.userID = userID)).map Session.afterFind

/-- The compare-and-swap of `RotateUserSessionRefresh`. -/
def rotatable (sid presentedHash : String) (now : ℤ) (s : Session) : Bool :=
  decide (s.sid = sid) && decide (s.userID = userID) && s.live now &&
    decide (s.refreshHash = presentedHash)

def Session.rotate (nextHash : String) (now grace : ℤ) (read s : Session) : Session :=
  { s with
    previousRefreshHash := read.refreshHash
    previousValidUntil := now + grace
    refreshHash := nextHash
    lastActiveAt := now }

/-- The condition of the revocation of a reused token. -/
def reusable (sid : String) (now : ℤ) (s : Session) : Bool :=
  decide (s.sid = sid) && decide (s.userID = userID) && s.live now

/-- `sid IN ? AND status = 'active'`. -/
def activeIn (sids : List String) (s : Session) : Bool :=
  decide (s.sid ∈ sids) && decide (s.status = .active)

/-- The condition of the update of `AdvanceUserSessionAuthVersion`, in the transaction that has
found the row live. -/
def advanceable (sid : String) (version authVersion now : ℤ) (s : Session) : Bool :=
  decide (s.sid = sid) && decide (s.userID = userID) && decide (s.status = .active) &&
    decide (now < s.expiresAt) && decide (s.version = version) &&
    decide (s.userAuthVersion = authVersion)

def Session.advance (authVersion now : ℤ) (s : Session) : Session :=
  { s with version := s.version + 1, userAuthVersion := authVersion, lastActiveAt := now }

/-- `confirmUserSessionActiveSnapshot`: the rows counted. -/
def confirms (s : Session) (now : ℤ) (row : Session) : Bool :=
  decide (row.sid = s.sid) && decide (row.userID = s.userID) && row.live now &&
    decide (row.version = s.version) && decide (row.userAuthVersion = s.userAuthVersion)

/-! ### Logins -/

/-- The user of a login is there, enabled, and at the version of the session. -/
def accountOk (users : List Account) (s : Session) : Except Err Unit :=
  match Table.get Account.id s.userID users with
  | none => .error .notFound
  | some user =>
    if user.enabled ∧ 0 < user.authVersion ∧ user.authVersion = s.userAuthVersion then .ok ()
    else .error .inactive

/-- The columns that a renewal writes. -/
def Session.renew (existing : Session) (cfg : Config) (session : Session) (now : ℤ) : Session :=
  { existing with
    version := existing.version + 1
    sid := session.sid
    refreshHash := session.refreshHash
    previousRefreshHash := ""
    previousValidUntil := 0
    loginMethod :=
      if trimSpace session.loginMethod = "" then "unknown" else trimSpace session.loginMethod
    ip := cfg.cut 64 (trimSpace session.ip)
    userAgent := cfg.cut 512 (trimSpace session.userAgent)
    lastActiveAt := now
    expiresAt := session.expiresAt }

/-- The row that a renewal may take. -/
def renewable (session : Session) (reusableSID : String) (now : ℤ) (s : Session) : Bool :=
  decide (s.sid = reusableSID) && decide (s.userID = session.userID) && s.live now &&
    decide (s.userAuthVersion = session.userAuthVersion)

/-- `renewUserSessionWithTx`: the table, the session as it is now, and the row it replaced; or
nothing to renew. -/
def renew (cfg : Config) (users : List Account) (rows : List Session) (session : Session)
    (reusableSID : String) (now : ℤ) : Except Err (Option (List Session × Session × Session)) :=
  let reusableSID := trimSpace reusableSID
  if session.sid = "" ∨ session.userID ≤ 0 ∨ session.userAuthVersion ≤ 0 ∨
      session.refreshHash = "" ∨ reusableSID = "" ∨ now ≤ 0 then .ok none
  else
    match accountOk users session with
    | .error e => .error e
    | .ok () =>
      match rows.find? (renewable session reusableSID now) with
      | none => .ok none
      | some existing =>
        if existing.version + 1 ≤ 0 then .error .invalid
        -- a new primary key must be free
        else if session.sid ≠ existing.sid ∧
            (rows.any fun s => decide (s.sid = session.sid)) = true then .error .duplicate
        else
          .ok (some (update (fun s => decide (s.sid = existing.sid))
              (fun s => s.renew cfg session now) rows,
            { existing.renew cfg session now with revokedReason := "" }, existing.afterFind))

/-- Rows that count for the issuance limit. -/
def issuedAfter (cutoff : ℤ) (s : Session) : Bool :=
  decide (s.userID = userID) && decide (cutoff < s.createdAt)

/-- Rows that count for the active limit. -/
def activeOf (now : ℤ) (s : Session) : Bool :=
  decide (s.userID = userID) && decide (s.status = .active) && decide (now < s.expiresAt)

/-- `InactiveUserSessionCleanupAge`, in seconds. -/
def inactiveCleanupAge : ℤ := 7200

/-- Sessions that were never used. -/
def abandoned (now : ℤ) (s : Session) : Bool :=
  decide (s.userID = userID) && s.live now && decide (s.createdAt ≤ now - inactiveCleanupAge) &&
    decide (s.lastActiveAt ≤ s.createdAt)

/-- `ORDER BY created_at, sid`. -/
def byAge (a b : Session) : Bool :=
  decide (a.createdAt < b.createdAt) || (decide (a.createdAt = b.createdAt) && decide (a.sid ≤ b.sid))

/-- `createUserSessionWithTx`, up to the insert. -/
def Session.fill (now : ℤ) (s : Session) : Except Err Session :=
  if s.sid = "" ∨ s.userID ≤ 0 ∨ s.userAuthVersion ≤ 0 ∨ s.refreshHash = "" ∨ s.expiresAt ≤ now then
    .error .invalid
  else if (s.status ≠ .unset ∧ s.status ≠ .active) ∨ s.revokedAt ≠ 0 then .error .invalid
  else
    .ok { s with
      version := if s.version ≤ 0 then 1 else s.version
      status := .active
      lastActiveAt := if s.lastActiveAt = 0 then now else s.lastActiveAt
      createdAt := if s.createdAt = 0 then now else s.createdAt }

/-- `createUserSessionWithLimitsTx`, with the clock read before and inside: the table, the new row,
and the sessions that were revoked because they were never used. -/
def create (cfg : Config) (users : List Account) (rows : List Session) (session : Session)
    (now insertedAt : ℤ) : Except Err (List Session × Session × List Session) :=
  if session.userID ≤ 0 ∨ now ≤ 0 then .error .invalid
  else
    match accountOk users session with
    | .error e => .error e
    | .ok () =>
      if cfg.issuanceLimit ≤
          rows.countP (issuedAfter session.userID (now - cfg.issuanceWindowSeconds)) then
        .error .issuanceLimit
      else
        let stale := Table.select (abandoned session.userID now) byAge rows
        let rows := update (fun s => decide (s.sid ∈ stale.map fun s => s.sid) &&
            decide (s.status = .active) && decide (s.revokedAt = 0))
          (Session.revoke now "inactive_login_cleanup") rows
        if cfg.activeLimit ≤ rows.countP (activeOf session.userID now) then .error .limit
        else
          match session.fill insertedAt with
          | .error e => .error e
          | .ok s =>
            if rows.any fun r => decide (r.sid = s.sid) then .error .duplicate
            else
              .ok (rows ++ [s], s,
                stale.map fun s => (s.afterFind).revoke now "inactive_login_cleanup")

/-! ### What logins do -/

section Logins

variable {cfg : Config} {users : List Account} {rows : List Session} {session : Session}

theorem live_iff {now : ℤ} {s : Session} :
    s.live now = true ↔ s.status = .active ∧ s.revokedAt = 0 ∧ now < s.expiresAt := by
  simp only [Session.live, Bool.and_eq_true, decide_eq_true_eq, and_assoc]

theorem ownSession_cases {userID : ℤ} {sid : String} {s : Session}
    (h : ownSession userID sid rows = some s) :
    ∃ row ∈ rows, row.sid = sid ∧ row.userID = userID ∧ s = row.afterFind := by
  unfold ownSession at h
  obtain ⟨row, hrow, rfl⟩ := Option.map_eq_some_iff.1 h
  have hp := find?_some hrow
  rw [Bool.and_eq_true, decide_eq_true_eq, decide_eq_true_eq] at hp
  exact ⟨row, mem_of_find?_eq_some hrow, hp.1, hp.2, rfl⟩

/-- **A renewal** rewrites one live row of the user. -/
theorem renew_cases {reusableSID : String} {now : ℤ} {rows' : List Session} {s old : Session}
    (h : renew cfg users rows session reusableSID now = .ok (some (rows', s, old))) :
    ∃ existing ∈ rows, existing.live now = true ∧ existing.userID = session.userID ∧
      rows' = update (fun s => decide (s.sid = existing.sid))
        (fun s => s.renew cfg session now) rows ∧
      s = { existing.renew cfg session now with revokedReason := "" } ∧
      old = existing.afterFind ∧
      (session.sid = existing.sid ∨ ∀ r ∈ rows, r.sid ≠ session.sid) := by
  unfold renew at h
  simp only at h
  by_cases hbad : session.sid = "" ∨ session.userID ≤ 0 ∨ session.userAuthVersion ≤ 0 ∨
      session.refreshHash = "" ∨ trimSpace reusableSID = "" ∨ now ≤ 0
  · rw [if_pos hbad] at h
    cases h
  rw [if_neg hbad] at h
  rcases haccount : accountOk users session with _ | u
  · rw [haccount] at h
    cases h
  rw [haccount] at h
  rcases hfind : rows.find? (renewable session (trimSpace reusableSID) now) with _ | existing
  · rw [hfind] at h
    cases h
  rw [hfind] at h
  simp only at h
  split_ifs at h with hver hdup
  cases h
  have hp := find?_some hfind
  simp only [renewable, Bool.and_eq_true, decide_eq_true_eq] at hp
  refine ⟨existing, mem_of_find?_eq_some hfind, hp.1.2, hp.1.1.2, rfl, rfl, rfl, ?_⟩
  by_contra hnot
  rw [not_or, not_forall] at hnot
  obtain ⟨hne, r, hr⟩ := hnot
  rw [Classical.not_imp, not_not] at hr
  exact hdup ⟨hne, any_eq_true.2 ⟨r, hr.1, decide_eq_true hr.2⟩⟩

theorem fill_cases {now : ℤ} {s : Session} (h : session.fill now = .ok s) :
    s.sid = session.sid ∧ s.userID = session.userID ∧ s.status = .active ∧ now < s.expiresAt ∧
      s.expiresAt = session.expiresAt ∧
      s.createdAt = if session.createdAt = 0 then now else session.createdAt := by
  unfold Session.fill at h
  by_cases hbad : session.sid = "" ∨ session.userID ≤ 0 ∨ session.userAuthVersion ≤ 0 ∨
      session.refreshHash = "" ∨ session.expiresAt ≤ now
  · rw [if_pos hbad] at h
    cases h
  rw [if_neg hbad] at h
  by_cases hstatus : (session.status ≠ .unset ∧ session.status ≠ .active) ∨ session.revokedAt ≠ 0
  · rw [if_pos hstatus] at h
    cases h
  rw [if_neg hstatus] at h
  cases h
  simp only [not_or, not_le] at hbad
  exact ⟨rfl, rfl, rfl, hbad.2.2.2.2, rfl, rfl⟩

/-- The sessions that a creation revokes. -/
def staleSessions (now : ℤ) (rows : List Session) : List Session :=
  Table.select (abandoned userID now) byAge rows

/-- The table after that. -/
def withoutStale (now : ℤ) (rows : List Session) : List Session :=
  update (fun s => decide (s.sid ∈ (staleSessions userID now rows).map fun s => s.sid) &&
      decide (s.status = .active) && decide (s.revokedAt = 0))
    (Session.revoke now "inactive_login_cleanup") rows

/-- **A creation** counts, revokes what was never used, counts again, and inserts. -/
theorem create_cases {now insertedAt : ℤ} {rows' stale : List Session} {s : Session}
    (h : create cfg users rows session now insertedAt = .ok (rows', s, stale)) :
    rows.countP (issuedAfter session.userID (now - cfg.issuanceWindowSeconds)) <
        cfg.issuanceLimit ∧
      (withoutStale session.userID now rows).countP (activeOf session.userID now) <
        cfg.activeLimit ∧
      session.fill insertedAt = .ok s ∧
      (∀ r ∈ withoutStale session.userID now rows, r.sid ≠ s.sid) ∧
      rows' = withoutStale session.userID now rows ++ [s] ∧
      stale = (staleSessions session.userID now rows).map (fun s =>
        s.afterFind.revoke now "inactive_login_cleanup") := by
  unfold create at h
  by_cases hbad : session.userID ≤ 0 ∨ now ≤ 0
  · rw [if_pos hbad] at h
    cases h
  rw [if_neg hbad] at h
  rcases haccount : accountOk users session with _ | u
  · rw [haccount] at h
    cases h
  rw [haccount] at h
  simp only at h
  by_cases hissued : cfg.issuanceLimit ≤
      rows.countP (issuedAfter session.userID (now - cfg.issuanceWindowSeconds))
  · rw [if_pos hissued] at h
    cases h
  rw [if_neg hissued] at h
  by_cases hactive : cfg.activeLimit ≤
      (withoutStale session.userID now rows).countP (activeOf session.userID now)
  · unfold withoutStale staleSessions at hactive
    rw [if_pos hactive] at h
    cases h
  have hactive' := hactive
  unfold withoutStale staleSessions at hactive'
  rw [if_neg hactive'] at h
  rcases hfill : session.fill insertedAt with _ | s'
  · rw [hfill] at h
    cases h
  rw [hfill] at h
  simp only at h
  split_ifs at h with hdup
  cases h
  refine ⟨not_le.1 hissued, not_le.1 hactive, rfl, fun r hr hsid => hdup ?_, rfl, rfl⟩
  exact any_eq_true.2 ⟨r, hr, decide_eq_true hsid⟩

end Logins

/-! ### The cache -/

/-- An entry, and when it expires, in milliseconds. -/
structure Cached where
  entry : Entry
  expireAt : ℤ
  deriving DecidableEq

/-- The cache, by session id. -/
abbrev Cache := String → Option Cached

/-- What the cache finds; an entry lives through the millisecond it expires in. -/
def Cache.find (cache : Cache) (sid : String) (clock : ℤ) : Option Entry :=
  match cache sid with
  | none => none
  | some c => if unixMilli clock ≤ c.expireAt then some c.entry else none

/-- What `writeUserSessionCache` computes before its script: the expiry of an active entry, which is
absolute, or of a tombstone, which counts from the script.  No deadline is the zero one. -/
def prepare (cfg : Config) (e : Entry) (deadline : Option ℤ) (now : ℤ) : Except Err ℤ :=
  if e.status = .active then
    match deadline with
    | none => .error .invalid
    | some deadline =>
      if deadline ≤ now then .error .observationStale
      else if e.expiresAt * second ≤ now then .error .inactive
      else if min deadline (e.expiresAt * second) - now < millisecond then .error .observationStale
      else .ok (unixMilli (min deadline (e.expiresAt * second)))
  else
    let ttl := min (e.expiresAt * second - now) cfg.ttl
    let ttl := if ttl ≤ 0 then second else ttl
    .ok (if ttl / millisecond ≤ 0 then 1 else ttl / millisecond)

/-- The script refuses an active entry over a tombstone, and any entry over a newer version. -/
def refuses (current : Option Entry) (e : Entry) : Bool :=
  match current with
  | none => false
  | some c =>
    (decide (e.status = .active) && (decide (c.status = .revoking) || decide (c.status = .revoked)))
      || decide (e.version < c.version)

/-- The script of `writeUserSessionCache`.  An expiry that has passed deletes the entry. -/
def Cache.write (cache : Cache) (e : Entry) (expiration clock : ℤ) : Cache :=
  if refuses (cache.find e.sid clock) e then cache
  else
    fun sid =>
      if sid = e.sid then
        if e.status = .active then
          if expiration ≤ unixMilli clock then none else some ⟨e, expiration⟩
        else some ⟨e, unixMilli clock + expiration⟩
      else cache sid

/-- What `writeUserSessionCache` asks of the clock after its script. -/
def completed (e : Entry) (deadline : Option ℤ) (now : ℤ) : Except Err Unit :=
  match deadline with
  | none => .ok ()
  | some deadline =>
    if deadline ≤ now then .error .observationStale
    else if e.expiresAt * second ≤ now then .error .inactive
    else .ok ()

/-- `getUserSessionCache`: an entry, a refusal, or nothing that can be used. -/
def getUserSessionCache (cache : Cache) (sid : String) (clock : ℤ) : Except Err (Option Entry) :=
  match cache.find sid clock with
  | none => .ok none
  | some e =>
    if e.sid ≠ sid ∨ e.userID ≤ 0 ∨ e.version ≤ 0 ∨ e.userAuthVersion ≤ 0 then .ok none
    else if e.status ≠ .active ∨ e.revokedAt ≠ 0 ∨ e.expiresAt ≤ unix clock then .error .inactive
    else .ok (some e)

end NexusTok.Sessions
