import NexusTok.Machine.Pool
import NexusTok.Text.Basic

/-!
# Second factors

A verification request loads its own copy of the user's second factor, asks the copy whether the
factor is locked, and checks the code: a one-time password against the secret, a backup code against
the hashes of those not yet used.  A wrong code is counted in the stored record, by a read and a
compare-and-swap that is tried five times; the fifth wrong code locks the record.  A right code
overwrites counter and lock.

The requests are cut at their statements and at every reading of the clock, and interleaved in any
order.

What the requests did is kept in a tally that no code reads.

* `verifyTwoFactorCode` : how the code of a request is classified.
* `step` : one event.
-/

namespace NexusTok.TwoFactor

/-- `common.MaxFailAttempts`. -/
def maxFailAttempts : ℕ := 5

/-- `common.LockoutDuration`, in seconds. -/
def lockoutDuration : ℤ := 300

/-- `maxUpdateRetries` of `IncrementFailedAttempts`. -/
def maxUpdateRetries : ℕ := 5

def backupCodeLength : ℕ := 8

/-- `TwoFA`, with the columns the requests use. -/
structure TwoFA where
  id : ℤ
  userId : ℤ
  secret : String
  isEnabled : Bool
  failedAttempts : ℕ
  lockedUntil : Option ℤ
  lastUsedAt : Option ℤ
  deriving DecidableEq

/-- `TwoFABackupCode`. -/
structure BackupCode where
  id : ℤ
  userId : ℤ
  codeHash : String
  isUsed : Bool
  usedAt : Option ℤ
  deriving DecidableEq

/-- What the code takes from libraries. -/
structure Library where
  /-- `totp.Validate(code, secret)` at a time. -/
  validate : String → String → ℤ → Bool
  /-- `ValidatePasswordAndHash`. -/
  matchesHash : String → String → Bool
  /-- `unicode.ToUpper`. -/
  toUpper : Char → Char

def TwoFA.isLocked (t : TwoFA) (now : ℤ) : Bool :=
  match t.lockedUntil with
  | none => false
  | some lockedUntil => decide (now < lockedUntil)

/-! ### Codes -/

section Codes

variable (lib : Library)

/-- `strings.ReplaceAll(code, c, "")` for one character. -/
def remove (c : Char) (code : String) : String := String.ofList (code.toList.filter (· != c))

def isDigit (c : Char) : Bool := '0' ≤ c && c ≤ '9'

/-- Whether `strconv.Atoi` reads a text of six bytes. -/
def isInteger (code : List Char) : Bool :=
  match code with
  | '+' :: digits | '-' :: digits => !digits.isEmpty && digits.all isDigit
  | digits => !digits.isEmpty && digits.all isDigit

def validateNumericCode (code : String) : Option String :=
  let code := remove ' ' code
  if code.utf8ByteSize ≠ 6 then none
  else if isInteger code.toList then some code
  else none

/-- The code without separators, in upper case. -/
def cleanCode (code : String) : String :=
  String.ofList ((remove '-' code).toList.map lib.toUpper)

/-- `common.ValidateBackupCode`. -/
def validBackupCode (code : String) : Bool :=
  let clean := cleanCode lib code
  clean.utf8ByteSize == backupCodeLength &&
    clean.toList.all fun c => ('A' ≤ c && c ≤ 'Z') || isDigit c

/-- `NormalizeBackupCode`, of a code whose characters are bytes. -/
def normalizeBackupCode (code : String) : String :=
  let clean := cleanCode lib code
  if clean.utf8ByteSize = backupCodeLength then
    String.ofList (clean.toList.take 4 ++ '-' :: clean.toList.drop 4)
  else code

def validateTOTPCode (secret code : String) (now : ℤ) : Bool :=
  let clean := remove ' ' code
  clean.utf8ByteSize == 6 && lib.validate clean secret now

/-- The backup code that a code matches, among those read. -/
def matchingCode (code : String) (codes : List BackupCode) : Option BackupCode :=
  codes.find? fun bc => lib.matchesHash (normalizeBackupCode lib code) bc.codeHash

/-- What a request verifies. -/
inductive Kind where
  /-- `ValidateTOTPAndUpdateUsage`. -/
  | totp (code : String)
  /-- `ValidateBackupCodeAndUpdateUsage`. -/
  | backup (code : String)
  /-- `IncrementFailedAttempts`, of a code that is neither. -/
  | malformed
  deriving DecidableEq

/-- `VerifyTwoFactorCode`: a code is verified in one way only. -/
def verifyTwoFactorCode (code : String) : Kind :=
  let code := trimSpace code
  match validateNumericCode code with
  | some numeric => .totp numeric
  | none => if validBackupCode lib code then .backup code else .malformed

end Codes

/-! ### Requests -/

/-- Where a request stands, with its copy `t`. -/
inductive Call where
  /-- `GetTwoFAByUserId`. -/
  | load (kind : Kind)
  /-- `IsLocked`, of the copy. -/
  | test (t : TwoFA) (kind : Kind)
  /-- `ValidateTOTPCode`. -/
  | totp (t : TwoFA) (code : String)
  /-- `ValidateBackupCode`: the unused codes are read. -/
  | find (t : TwoFA) (code : String)
  /-- The code that matches is marked as used. -/
  | use (t : TwoFA) (id : ℤ) (now : ℤ)
  /-- `IncrementFailedAttempts`: the record is read; `retries` more times if the swap fails. -/
  | incRead (t : TwoFA) (retries : ℕ)
  /-- The clock is read. -/
  | incTime (t : TwoFA) (retries : ℕ) (current : TwoFA)
  /-- The counter is swapped. -/
  | incSwap (t : TwoFA) (retries : ℕ) (current : TwoFA) (now : ℤ)
  /-- `updateUsageState`. -/
  | save (t : TwoFA)
  deriving DecidableEq

/-- What the requests did. -/
structure Tally where
  /-- Codes checked while the stored record was locked. -/
  checkedLocked : ℕ
  /-- Wrong codes checked since the last successful verification or the last lockout began. -/
  wrong : ℕ
  failed : ℕ
  /-- Attempts that a successful verification took from the counter. -/
  cleared : ℕ
  /-- Backup codes accepted. -/
  accepted : List ℤ
  deriving DecidableEq

structure Shared where
  record : TwoFA
  codes : List BackupCode
  clock : ℤ
  tally : Tally
  deriving DecidableEq

namespace Shared

/-- A code is checked. -/
def check (sh : Shared) : Shared :=
  { sh with
    tally := { sh.tally with
      checkedLocked :=
        sh.tally.checkedLocked + if sh.record.isLocked sh.clock then 1 else 0 } }

/-- The code was wrong. -/
def miss (sh : Shared) : Shared :=
  { sh with tally := { sh.tally with wrong := sh.tally.wrong + 1, failed := sh.tally.failed + 1 } }

/-- An attempt failed without a check. -/
def reject (sh : Shared) : Shared :=
  { sh with tally := { sh.tally with failed := sh.tally.failed + 1 } }

/-- The condition of the swap. -/
def swappable (sh : Shared) (current : TwoFA) (now : ℤ) : Bool :=
  decide (sh.record.failedAttempts = current.failedAttempts) && !sh.record.isLocked now

/-- The swap of `IncrementFailedAttempts`. -/
def swap (sh : Shared) (current : TwoFA) (now : ℤ) : Shared :=
  let next := current.failedAttempts + 1
  if maxFailAttempts ≤ next then
    { sh with
      record := { sh.record with
        failedAttempts := next
        lockedUntil := some (now + lockoutDuration) }
      -- a lockout begins
      tally := { sh.tally with wrong := 0 } }
  else
    { sh with
      record := { sh.record with
        failedAttempts := next
        lockedUntil := current.lockedUntil } }

/-- The `UPDATE` that uses a backup code up. -/
def useCode (sh : Shared) (id now : ℤ) : Shared :=
  { sh with
    codes := sh.codes.map fun bc =>
      if bc.id = id ∧ bc.isUsed = false then { bc with isUsed := true, usedAt := some now } else bc
    tally := { sh.tally with accepted := id :: sh.tally.accepted } }

/-- `updateUsageState`. -/
def save (sh : Shared) (t : TwoFA) : Shared :=
  { sh with
    record := { sh.record with
      failedAttempts := t.failedAttempts
      lockedUntil := t.lockedUntil
      lastUsedAt := t.lastUsedAt }
    tally := { sh.tally with wrong := 0, cleared := sh.tally.cleared + sh.record.failedAttempts } }

end Shared

/-- The first try of `IncrementFailedAttempts`. -/
def increment (t : TwoFA) : Call := .incRead t (maxUpdateRetries - 1)

/-- The copy of a request whose code is right. -/
def TwoFA.succeed (t : TwoFA) (now : ℤ) : TwoFA :=
  { t with failedAttempts := 0, lockedUntil := none, lastUsedAt := some now }

/-- One step of a request. -/
def act (lib : Library) (sh : Shared) : Call → Shared × Option Call
  | .load kind =>
    if sh.record.isEnabled then (sh, some (.test sh.record kind)) else (sh, none)
  | .test t kind =>
    if t.isLocked sh.clock then (sh, none)
    else
      match kind with
      | .totp code => (sh, some (.totp t code))
      | .backup code => (sh, some (.find t code))
      | .malformed => (sh.reject, some (increment t))
  | .totp t code =>
    if validateTOTPCode lib t.secret code sh.clock then
      (sh.check, some (.save (t.succeed sh.clock)))
    else (sh.check.miss, some (increment t))
  | .find t code =>
    if validBackupCode lib code then
      match matchingCode lib code
          (sh.codes.filter fun bc => decide (bc.userId = t.userId) && !bc.isUsed) with
      | some bc => (sh.check, some (.use t bc.id sh.clock))
      | none => (sh.check.miss, some (increment t))
    else (sh, none)
  | .use t id now =>
    if sh.codes.any fun bc => decide (bc.id = id) && !bc.isUsed then
      (sh.check.useCode id now, some (.save (t.succeed sh.clock)))
    else (sh.check.miss, some (increment t))
  | .incRead t retries => (sh, some (.incTime t retries sh.record))
  | .incTime t retries current =>
    -- another request has locked the record: this one is not counted
    if current.isLocked sh.clock then (sh, none)
    else (sh, some (.incSwap t retries current sh.clock))
  | .incSwap t retries current now =>
    if sh.swappable current now then (sh.swap current now, none)
    else
      match retries with
      | 0 => (sh, none)
      | retries + 1 => (sh, some (.incRead t retries))
  | .save t => (sh.save t, none)

inductive Event where
  | request (kind : Kind)
  | resume (i : ℕ)
  | tick (d : ℕ)
  deriving DecidableEq

def step (lib : Library) (p : Pool Shared Call) : Event → Pool Shared Call
  | .request kind => p.start (.load kind)
  | .resume i => p.resume (act lib) i
  | .tick d => p.outside fun sh => { sh with clock := sh.clock + d }

/-- A user's factor, and no request in flight. -/
def atRest (record : TwoFA) (codes : List BackupCode) (clock : ℤ) : Pool Shared Call :=
  ⟨⟨record, codes, clock, ⟨0, 0, record.failedAttempts, 0, []⟩⟩, []⟩

end NexusTok.TwoFactor
