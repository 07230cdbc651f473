import Mathlib.Logic.Function.Basic
import NexusTok.Auth.TwoFA
import NexusTok.Store.Transaction

/-!
# One-time authentication flows

A flow is a row under the hash of a token.  It has a deadline, and is bound to a purpose and, where
they are known, to a provider, an intent, a user and a session; it is consumed by the first write of
a transaction.  A flow that binds an e-mail address keeps the hashes of the codes that were sent,
and counts the wrong ones.  Rows are removed a day after their deadline or their consumption.

What the transactions did is kept in a journal that no code reads, newest first.

* `step_change` : what can happen to a row.
* `flow_law` : a flow is used **once**, as it was made and before its deadline.
* `emailBinding_law` : **five** codes are judged for a flow, however often they are sent again.
-/

namespace NexusTok.Flow

open Function List Nat

def errAuthFlowInvalid : String := "auth flow is invalid"
def errAuthFlowExpired : String := "auth flow has expired"
def errAuthFlowConsumed : String := "auth flow has already been consumed"
def errEmailBindingCodeInvalid : String := "Email verification code is incorrect."
def errEmailBindingLocked : String :=
  "Too many incorrect codes. Start email verification again."
def errEmailBindingResendWait : String :=
  "Please wait before requesting another verification code."
def errAccountBindingChanged : String :=
  "Account bindings have changed. Start this operation again."

/-- Times are in nanoseconds. -/
def second : ℤ := 1000000000
def authFlowDefaultCleanupRetention : ℤ := 86400 * second
def emailBindingResendDelay : ℤ := 60 * second
def emailBindingMaxAttempts : ℕ := 5
def authFlowPurposeEmailBinding : String := "email_binding"

structure AuthFlow (π : Type) where
  tokenHash : String
  purpose : String
  provider : String := ""
  intent : String := ""
  userId : ℤ := 0
  sessionId : String := ""
  payload : π
  expiresAt : ℤ
  consumedAt : Option ℤ := none

structure AuthFlowMatch where
  purpose : String
  provider : String := ""
  intent : String := ""
  userId : ℤ := 0
  sessionId : String := ""

structure AuthSessionIdentity where
  userID : ℤ
  sessionID : String
  userAuthVersion : ℤ
  sessionVersion : ℤ
  deriving DecidableEq

structure AuthFlowAuthorization where
  identity : AuthSessionIdentity
  proofID : ℤ
  scope : String
  contextHash : String

structure EmailBindingState where
  authorization : Option AuthFlowAuthorization
  currentEmail : String
  email : String
  newCodeHash : String
  oldCodeHash : String
  failedAttempts : ℕ
  resendAt : ℤ

/-- What the code takes from libraries; a payload is a text, of which nothing is used but the
codec. -/
structure Library (π : Type) where
  /-- `authFlowTokenHash`. -/
  tokenHash : String → String
  marshal : EmailBindingState → π
  unmarshal : π → Option EmailBindingState
  /-- `unicode.ToLower`. -/
  lower : Char → Char
  /-- `ValidatePasswordAndHash`. -/
  matchesHash : String → String → Bool

/-- The table, by its unique index on `token_hash`. -/
abbrev AuthFlows (π : Type) := String → Option (AuthFlow π)

variable {π : Type}

def AuthFlow.Matches (f : AuthFlow π) (m : AuthFlowMatch) : Prop :=
  f.purpose = m.purpose ∧ (m.provider ≠ "" → f.provider = m.provider) ∧
    (m.intent ≠ "" → f.intent = m.intent) ∧ (m.userId ≠ 0 → f.userId = m.userId) ∧
    (m.sessionId ≠ "" → f.sessionId = m.sessionId)

instance (f : AuthFlow π) (m : AuthFlowMatch) : Decidable (f.Matches m) := by
  unfold AuthFlow.Matches; infer_instance

/-- Whoever comes with the match can use the flow at a time. -/
structure AuthFlow.Usable (f : AuthFlow π) (m : AuthFlowMatch) (now : ℤ) : Prop where
  fresh : f.consumedAt = none
  matched : f.Matches m
  live : now < f.expiresAt

/-! ### Operations -/

section Operations

variable (lib : Library π)

def applyAuthFlowMatch (token : String) (m : AuthFlowMatch) (rows : AuthFlows π) :
    Option (AuthFlow π) :=
  (rows (lib.tokenHash token)).filter fun f => f.Matches m

/-- `createAuthFlowWithTx`, for the token that was drawn; the hash of the input is not read. -/
def createAuthFlow (token : String) (input : AuthFlow π) (now : ℤ) :
    Body (AuthFlows π) String (AuthFlow π) := fun rows =>
  if trimSpace input.purpose = "" ∨ ¬ now < input.expiresAt then .error errAuthFlowInvalid
  else
    let f := { input with tokenHash := lib.tokenHash token, consumedAt := none }
    match rows f.tokenHash with
    | some _ => .error "UNIQUE constraint failed: auth_flows.token_hash"
    | none => .ok (f, update rows f.tokenHash (some f))

/-- `ConsumeAuthFlowWithAction`; the clock is read twice. -/
def consumeAuthFlowWithAction (token : String) (m : AuthFlowMatch) (now later : ℤ)
    (action : AuthFlow π → Option String) : Body (AuthFlows π) String (AuthFlow π) := fun rows =>
  if token = "" ∨ m.purpose = "" then .error errAuthFlowInvalid
  else
    -- the row that the first write of the transaction changes
    let claimed := (applyAuthFlowMatch lib token m rows).filter fun f =>
      f.consumedAt.isNone && decide (now < f.expiresAt)
    let rows := match claimed with
      | some f => update rows (lib.tokenHash token) (some { f with consumedAt := some now })
      | none => rows
    match applyAuthFlowMatch lib token m rows with
    | none => .error errAuthFlowInvalid
    | some f =>
      if claimed.isNone ∧ f.consumedAt.isSome then .error errAuthFlowConsumed
      else if ¬ later < f.expiresAt then .error errAuthFlowExpired
      -- the clock went back between its readings
      else if claimed.isNone then .error errAuthFlowInvalid
      else match action f with
        | some e => .error e
        | none => .ok (f, rows)

def deleteExpiredAuthFlows (now : ℤ) (rows : AuthFlows π) : AuthFlows π :=
  let cutoff := now - authFlowDefaultCleanupRetention
  fun h => (rows h).filter fun f =>
    !(decide (f.expiresAt < cutoff) || f.consumedAt.any fun t => t < cutoff)

def normalizeEmail (email : String) : String :=
  String.ofList ((trimSpace email).toList.map lib.lower)

/-- What a transaction finds of the account. -/
structure Account where
  /-- `ValidateAuthSessionWithTx`. -/
  session : Option String
  /-- `users.email`. -/
  email : String
  /-- `ensureEmailAvailableWithTx`, of the new address. -/
  available : Option String

def validateEmailBindingAccountWithTx (identity : AuthSessionIdentity) (state : EmailBindingState)
    (account : Account) : Except String Unit :=
  if ¬ (state.authorization.any fun a => 0 < a.proofID ∧ a.identity = identity ∧
        a.scope = "account.binding.bind" ∧ a.contextHash ≠ "") ∨
      state.email = "" ∨ state.email ≠ normalizeEmail lib state.email ∨ state.newCodeHash = "" then
    .error errAuthFlowInvalid
  else match account.session with
    | some e => .error e
    | none =>
      if normalizeEmail lib account.email ≠ state.currentEmail ∨
          state.currentEmail = state.email then .error errAccountBindingChanged
      else .ok ()

def emailBindingMatch (identity : AuthSessionIdentity) : AuthFlowMatch :=
  { purpose := authFlowPurposeEmailBinding, userId := identity.userID,
    sessionId := identity.sessionID }

def lockEmailBindingWithTx (identity : AuthSessionIdentity) (token : String) (account : Account)
    (now : ℤ) (rows : AuthFlows π) : Except String (AuthFlow π × EmailBindingState) :=
  match applyAuthFlowMatch lib token (emailBindingMatch identity) rows with
  | none => .error errAuthFlowInvalid
  | some f =>
    if f.consumedAt.isSome then .error errAuthFlowConsumed
    else if ¬ now < f.expiresAt then .error errAuthFlowExpired
    else match lib.unmarshal f.payload with
      | none => .error errAuthFlowInvalid
      | some state => match validateEmailBindingAccountWithTx lib identity state account with
        | .error e => .error e
        | .ok _ =>
          if emailBindingMaxAttempts ≤ state.failedAttempts then .error errEmailBindingLocked
          else .ok (f, state)

def resendEmailBinding (identity : AuthSessionIdentity) (token newCodeHash oldCodeHash : String)
    (account : Account) (now later : ℤ) : Body (AuthFlows π) String EmailBindingState := fun rows =>
  match lockEmailBindingWithTx lib identity token account now rows with
  | .error e => .error e
  | .ok (f, state) =>
    if later / second < state.resendAt then .error errEmailBindingResendWait
    else if newCodeHash = "" ∨ ¬ (state.oldCodeHash ≠ "" ↔ oldCodeHash ≠ "") then
      .error errAuthFlowInvalid
    else
      let state := { state with
        newCodeHash, oldCodeHash, resendAt := (later + emailBindingResendDelay) / second }
      .ok (state, update rows (lib.tokenHash token)
        (some { f with payload := lib.marshal state }))

/-- The code matches the hash. -/
def validCode (code hash : String) : Bool :=
  (TwoFactor.validateNumericCode code).any fun code => lib.matchesHash code hash

/-- `CompleteEmailBinding`: a wrong code is counted, and committed, with the error to answer. -/
def completeEmailBinding (identity : AuthSessionIdentity) (token email newCode oldCode : String)
    (account : Account) (now done : ℤ) :
    Body (AuthFlows π) String (EmailBindingState × Option String) := fun rows =>
  if email = "" ∨ email ≠ normalizeEmail lib email then .error errAuthFlowInvalid
  else match lockEmailBindingWithTx lib identity token account now rows with
    | .error e => .error e
    | .ok (f, state) =>
      if state.email ≠ email then .error errAuthFlowInvalid
      else if validCode lib newCode state.newCodeHash &&
          (state.oldCodeHash = "" || validCode lib oldCode state.oldCodeHash) then
        match account.available with
        -- the address is taken: nothing was decided on the codes
        | some e => .error e
        | none => .ok ((state, none),
            update rows (lib.tokenHash token) (some { f with consumedAt := some done }))
      else
        let state := { state with failedAttempts := state.failedAttempts + 1 }
        let err := if emailBindingMaxAttempts ≤ state.failedAttempts then errEmailBindingLocked
          else errEmailBindingCodeInvalid
        .ok ((state, some err),
          update rows (lib.tokenHash token) (some { f with payload := lib.marshal state }))

end Operations

/-! ### Runs -/

/-- What a transaction did to the flow under a hash. -/
inductive Did (π : Type) where
  | created (h : String) (f : AuthFlow π)
  | consumed (h : String) (f : AuthFlow π) (m : AuthFlowMatch) (now : ℤ)
  /-- Codes were found right, or wrong. -/
  | judged (h : String) (m : AuthFlowMatch) (right : Bool) (now : ℤ)

@[simp] def Did.hash : Did π → String
  | .created h _ | .consumed h _ _ _ | .judged h _ _ _ => h

/-- A transaction, with its readings of the clock. -/
inductive Op (π : Type) where
  | create (token : String) (input : AuthFlow π) (now : ℤ)
  | consume (token : String) (m : AuthFlowMatch) (now later : ℤ)
      (action : AuthFlow π → Option String)
  | deleteExpired (now : ℤ)
  | resendEmail (identity : AuthSessionIdentity) (token newCodeHash oldCodeHash : String)
      (account : Account) (now later : ℤ)
  | completeEmail (identity : AuthSessionIdentity) (token email newCode oldCode : String)
      (account : Account) (now done : ℤ)

/-- A body with another result. -/
def noting {α β : Type} (body : Body (AuthFlows π) String α) (g : α → β) :
    Body (AuthFlows π) String β := fun rows =>
  match body rows with
  | .error e => .error e
  | .ok (a, rows) => .ok (g a, rows)

section Runs

variable (lib : Library π)

def Op.body : Op π → Body (AuthFlows π) String (Option (Did π))
  | .create token input now =>
    noting (createAuthFlow lib token input now) fun f => some (.created f.tokenHash f)
  | .consume token m now later action =>
    noting (consumeAuthFlowWithAction lib token m now later action) fun f =>
      some (.consumed (lib.tokenHash token) f m now)
  | .deleteExpired now => fun rows => .ok (none, deleteExpiredAuthFlows now rows)
  | .resendEmail identity token newCodeHash oldCodeHash account now later =>
    noting (resendEmailBinding lib identity token newCodeHash oldCodeHash account now later)
      fun _ => none
  | .completeEmail identity token email newCode oldCode account now done =>
    noting (completeEmailBinding lib identity token email newCode oldCode account now done)
      fun r =>
        some (.judged (lib.tokenHash token) (emailBindingMatch identity) r.2.isNone now)

structure State (π : Type) where
  rows : AuthFlows π := fun _ => none
  journal : List (Did π) := []

/-- A transaction, with an error if it fails to commit, or a statement of it fails. -/
abbrev Event (π : Type) := Op π × Option String

def step (s : State π) (e : Event π) : State π :=
  match Body.atomically e.2 (e.1.body lib) s.rows with
  | (.ok d, rows) => ⟨rows, d.toList ++ s.journal⟩
  | (.error _, rows) => { s with rows }

def after (events : List (Event π)) : State π := Machine.run (step lib) {} events

/-- **The life of a flow**: what a transaction does to the row under a hash. -/
inductive Change (h : String) : Option (AuthFlow π) → Option (Did π) → Option (AuthFlow π) → Prop
  | other (r : Option (AuthFlow π)) (d : Option (Did π)) (hd : ∀ x ∈ d, x.hash ≠ h) :
      Change h r d r
  | created (f : AuthFlow π) (hfresh : f.consumedAt = none) :
      Change h none (some (.created h f)) (some f)
  | consumed (f : AuthFlow π) (m : AuthFlowMatch) (now : ℤ) (hf : f.Usable m now) :
      Change h (some f) (some (.consumed h { f with consumedAt := some now } m now))
        (some { f with consumedAt := some now })
  | resent (f : AuthFlow π) (old new : EmailBindingState) (hfresh : f.consumedAt = none)
      (hold : lib.unmarshal f.payload = some old)
      (hsame : new.failedAttempts = old.failedAttempts) :
      Change h (some f) none (some { f with payload := lib.marshal new })
  | wrong (f : AuthFlow π) (m : AuthFlowMatch) (now : ℤ) (hf : f.Usable m now)
      (old new : EmailBindingState) (hold : lib.unmarshal f.payload = some old)
      (hroom : old.failedAttempts < emailBindingMaxAttempts)
      (hmore : new.failedAttempts = old.failedAttempts + 1) :
      Change h (some f) (some (.judged h m false now)) (some { f with payload := lib.marshal new })
  | right (f : AuthFlow π) (m : AuthFlowMatch) (now : ℤ) (hf : f.Usable m now)
      (old : EmailBindingState) (hold : lib.unmarshal f.payload = some old)
      (hroom : old.failedAttempts < emailBindingMaxAttempts) (done : ℤ) :
      Change h (some f) (some (.judged h m true now)) (some { f with consumedAt := some done })
  | deleted (f : AuthFlow π) : Change h (some f) none none

variable {lib} {rows rows' : AuthFlows π} {h : String} {f : AuthFlow π} {token : String}
  {m : AuthFlowMatch} {now later : ℤ}

theorem noting_ok {α β : Type} {body : Body (AuthFlows π) String α} {g : α → β} {b : β}
    (hok : noting body g rows = .ok (b, rows')) : ∃ a, body rows = .ok (a, rows') ∧ b = g a := by
  unfold noting at hok
  rcases hbody : body rows with e | ⟨a, rows''⟩
  · rw [hbody] at hok
    cases hok
  · rw [hbody] at hok
    cases hok
    exact ⟨a, rfl, rfl⟩

theorem applyAuthFlowMatch_eq_some (hf : applyAuthFlowMatch lib token m rows = some f) :
    rows (lib.tokenHash token) = some f ∧ f.Matches m := by
  simpa [applyAuthFlowMatch, Option.filter_eq_some_iff] using hf

theorem createAuthFlow_ok {input : AuthFlow π}
    (hok : createAuthFlow lib token input now rows = .ok (f, rows')) :
    rows f.tokenHash = none ∧ f.consumedAt = none ∧
      rows' = update rows f.tokenHash (some f) := by
  unfold createAuthFlow at hok
  split_ifs at hok
  dsimp only at hok
  split at hok
  · cases hok
  · cases hok
    exact ⟨‹_›, rfl, rfl⟩

theorem consumeAuthFlowWithAction_ok {action : AuthFlow π → Option String}
    (hok : consumeAuthFlowWithAction lib token m now later action rows = .ok (f, rows')) :
    ∃ f₀, rows (lib.tokenHash token) = some f₀ ∧ f₀.Usable m now ∧
      f = { f₀ with consumedAt := some now } ∧
      rows' = update rows (lib.tokenHash token) (some f) := by
  unfold consumeAuthFlowWithAction at hok
  split_ifs at hok
  dsimp only at hok
  rcases hclaimed : (applyAuthFlowMatch lib token m rows).filter fun f =>
      f.consumedAt.isNone && decide (now < f.expiresAt) with _ | f₀
  · rw [hclaimed] at hok
    grind
  · rw [hclaimed] at hok
    obtain ⟨hfound, hlive⟩ := Option.filter_eq_some_iff.1 hclaimed
    obtain ⟨hrow, hmatch⟩ := applyAuthFlowMatch_eq_some hfound
    have hwritten : applyAuthFlowMatch lib token m
        (update rows (lib.tokenHash token) (some { f₀ with consumedAt := some now })) =
          some { f₀ with consumedAt := some now } := by
      rw [applyAuthFlowMatch, update_self, Option.filter_some]
      exact if_pos (decide_eq_true hmatch)
    rw [Bool.and_eq_true, Option.isNone_iff_eq_none, decide_eq_true_eq] at hlive
    simp only [hwritten, Option.isNone_some, Bool.false_eq_true, false_and, if_false] at hok
    split_ifs at hok
    split at hok
    · cases hok
    · cases hok
      exact ⟨f₀, hrow, ⟨hlive.1, hmatch, hlive.2⟩, rfl, rfl⟩

theorem lockEmailBindingWithTx_ok {identity : AuthSessionIdentity} {account : Account}
    {state : EmailBindingState}
    (hok : lockEmailBindingWithTx lib identity token account now rows = .ok (f, state)) :
    rows (lib.tokenHash token) = some f ∧ f.Usable (emailBindingMatch identity) now ∧
      lib.unmarshal f.payload = some state ∧
      state.failedAttempts < emailBindingMaxAttempts := by
  unfold lockEmailBindingWithTx at hok
  split at hok
  · cases hok
  · obtain ⟨hrow, hmatch⟩ := applyAuthFlowMatch_eq_some ‹_›
    split_ifs at hok with hused hexpired
    split at hok
    · cases hok
    · split at hok
      · cases hok
      · split_ifs at hok with hlocked
        cases hok
        exact ⟨hrow, ⟨by simpa using hused, hmatch, hexpired⟩, ‹_›, not_le.1 hlocked⟩

/-- A write to a row, by what it does to that row. -/
theorem Change.update {r : Option (AuthFlow π)} {d : Option (Did π)}
    (hc : Change lib h (rows h) d r) (hd : ∀ x ∈ d, x.hash = h) (h' : String) :
    Change lib h' (rows h') d (Function.update rows h r h') := by
  by_cases heq : h' = h
  · subst heq
    rwa [update_self]
  · rw [update_of_ne heq]
    exact .other _ _ fun x hx hhash => heq (hhash.symm.trans (hd x hx))

/-- **What a transaction does to a row.** -/
theorem body_change {op : Op π} {d : Option (Did π)} (hok : op.body lib rows = .ok (d, rows'))
    (h : String) : Change lib h (rows h) d (rows' h) := by
  cases op with
  | create token input now =>
    obtain ⟨f, hdone, rfl⟩ := noting_ok hok
    obtain ⟨hnone, hfresh, rfl⟩ := createAuthFlow_ok hdone
    exact Change.update (hnone ▸ .created f hfresh) (by simp) h
  | consume token m now later action =>
    obtain ⟨f, hdone, rfl⟩ := noting_ok hok
    obtain ⟨f₀, hrow, hf, rfl, rfl⟩ := consumeAuthFlowWithAction_ok hdone
    exact Change.update (hrow ▸ .consumed f₀ m now hf) (by simp) h
  | deleteExpired now =>
    cases hok
    rcases hrow : rows h with _ | f
    · simp only [deleteExpiredAuthFlows, hrow, Option.filter_none]
      exact .other _ _ nofun
    · simp only [deleteExpiredAuthFlows, hrow, Option.filter_some]
      split_ifs
      · exact .other _ _ nofun
      · exact .deleted f
  | resendEmail identity token newCodeHash oldCodeHash account now later =>
    obtain ⟨state, hdone, rfl⟩ := noting_ok hok
    unfold resendEmailBinding at hdone
    split at hdone
    · cases hdone
    · obtain ⟨hrow, hf, hold, -⟩ := lockEmailBindingWithTx_ok ‹_›
      split_ifs at hdone
      cases hdone
      exact Change.update (hrow ▸ .resent _ _ _ hf.fresh hold rfl) (by simp) h
  | completeEmail identity token email newCode oldCode account now done =>
    obtain ⟨⟨state, err⟩, hdone, rfl⟩ := noting_ok hok
    unfold completeEmailBinding at hdone
    split_ifs at hdone
    split at hdone
    · cases hdone
    · obtain ⟨hrow, hf, hold, hroom⟩ := lockEmailBindingWithTx_ok ‹_›
      split_ifs at hdone
      · split at hdone
        · cases hdone
        · cases hdone
          exact Change.update (hrow ▸ .right _ _ now hf _ hold hroom done) (by simp) h
      · cases hdone
        exact Change.update (hrow ▸ .wrong _ _ now hf _ _ hold hroom rfl) (by simp) h

/-- **What a step does**, whether it commits or not. -/
theorem step_change (lib : Library π) (s : State π) (e : Event π) :
    ∃ d : Option (Did π), (step lib s e).journal = d.toList ++ s.journal ∧
      ∀ h, Change lib h (s.rows h) d ((step lib s e).rows h) := by
  unfold step
  rcases Body.atomically_cases e.2 (e.1.body lib) s.rows with
    ⟨_, hfailed⟩ | ⟨d, rows, -, hok, hdone⟩
  · rw [hfailed]
    exact ⟨none, rfl, fun h => .other _ _ nofun⟩
  · rw [hdone]
    exact ⟨d, rfl, body_change hok⟩

/-! ### Counting -/

/-- How many notes of a kind are about a flow. -/
@[simp] def count (p : Did π → Bool) (h : String) (journal : List (Did π)) : ℕ :=
  journal.countP fun x => x.hash = h && p x

@[simp] def Did.isCreated : Did π → Bool
  | .created _ _ => true
  | _ => false

@[simp] def Did.isUse : Did π → Bool
  | .consumed _ _ _ _ | .judged _ _ true _ => true
  | _ => false

@[simp] def Did.isJudged : Did π → Bool
  | .judged _ _ _ _ => true
  | _ => false

theorem count_other (p : Did π → Bool) {d : Option (Did π)} (hd : ∀ x ∈ d, x.hash ≠ h) :
    count p h d.toList = 0 :=
  countP_eq_zero.2 fun x hx hpx =>
    hd x (Option.mem_toList.1 hx) (of_decide_eq_true (Bool.and_eq_true_iff.1 hpx).1)

/-- **The counting rule**: where no change of a row spends more than the row has left and is given,
`k` times what `q` counts is enough for what `p` counts, in every run. -/
theorem count_le {p q : Did π → Bool} (w : Option (AuthFlow π) → ℕ) {k : ℕ} (hw : w none = 0)
    (hchange : ∀ r d r', Change lib h r d r' →
      count p h d.toList + w r' ≤ w r + k * count q h d.toList) (events : List (Event π)) :
    count p h (after lib events).journal ≤ k * count q h (after lib events).journal := by
  refine (le_add_right _ _).trans (Machine.Always.of_step (I := fun s : State π =>
    count p h s.journal + w (s.rows h) ≤ k * count q h s.journal) (fun s e hs => ?_) ?_ events).run
  · obtain ⟨d, hjournal, hc⟩ := step_change lib s e
    have := hchange _ _ _ (hc h)
    simp only [hjournal, count, countP_append, mul_add] at hs this ⊢
    omega
  · simp [hw]

/-- How often a row can still be used. -/
@[simp] def usesLeft (r : Option (AuthFlow π)) : ℕ :=
  if r.any fun f => f.consumedAt.isNone then 1 else 0

theorem uses_le (h : String) (events : List (Event π)) :
    count Did.isUse h (after lib events).journal ≤
      count Did.isCreated h (after lib events).journal := by
  refine (count_le usesLeft rfl (fun r d r' hc => ?_) events).trans_eq (one_mul _)
  cases hc with
  | other _ _ hd =>
    rw [count_other _ hd]
    omega
  | created f hfresh => simp [hfresh]
  | consumed f m now hf => simp [hf.fresh]
  | resent f old new hfresh => simp [hfresh]
  | wrong f m now hf => simp [hf.fresh]
  | right f m now hf => simp [hf.fresh]
  | deleted => simp

/-- How many codes can still be judged. -/
@[simp] def judgementsLeft (lib : Library π) (r : Option (AuthFlow π)) : ℕ :=
  r.elim 0 fun f => if f.consumedAt.isNone then
    (lib.unmarshal f.payload).elim 0 fun state => emailBindingMaxAttempts - state.failedAttempts
  else 0

theorem judgementsLeft_le (lib : Library π) (r : Option (AuthFlow π)) :
    judgementsLeft lib r ≤ emailBindingMaxAttempts := by
  unfold judgementsLeft
  rcases r with _ | f
  · exact zero_le _
  · dsimp only [Option.elim]
    split_ifs
    · cases lib.unmarshal f.payload with
      | none => exact zero_le _
      | some state => exact sub_le _ _
    · exact zero_le _

/-- **Five codes are judged**, right or wrong, for each time that a flow was made. -/
theorem emailBinding_law (hjson : ∀ state, lib.unmarshal (lib.marshal state) = some state)
    (events : List (Event π)) (h : String) :
    count Did.isJudged h (after lib events).journal ≤
      emailBindingMaxAttempts * count Did.isCreated h (after lib events).journal := by
  refine count_le (judgementsLeft lib) rfl (fun r d r' hc => ?_) events
  cases hc with
  | other _ _ hd =>
    rw [count_other _ hd]
    omega
  | created f => simpa using judgementsLeft_le lib (some f)
  | consumed => simp
  | resent f old new hfresh hold hsame => simp [hfresh, hjson, hold, hsame]
  | wrong f m now hf old new hold hroom hmore =>
    simp [hf.fresh, hjson, hold, hmore]
    omega
  | right f m now hf old hold hroom =>
    simp [hf.fresh, hold]
    omega
  | deleted => simp

/-- Payloads that are states, and codes that are their own hashes. -/
def plain : Library (Option EmailBindingState) :=
  ⟨id, some, id, id, fun code hash => code = hash⟩

theorem emailBinding_law_plain :
    let input : AuthFlow (Option EmailBindingState) :=
      { tokenHash := "", purpose := "oauth", payload := none, expiresAt := 1 }
    let journal := (after plain [(.create "token" input 0, none)]).journal
    count Did.isJudged "token" journal ≤
      emailBindingMaxAttempts * count Did.isCreated "token" journal :=
  emailBinding_law (fun _ => rfl) _ _

/-! ### What comes before -/

/-- What a note follows from: a flow is used as it was made, by a match, before its deadline. -/
def Did.Follows (front : List (Did π)) : Did π → Prop
  | .consumed h f m now => ∃ g, .created h g ∈ front ∧ g.Usable m now ∧
      f = { g with payload := f.payload, consumedAt := some now }
  | .judged h m _ now => ∃ g, .created h g ∈ front ∧ g.Usable m now
  | _ => True

def Lawful : List (Did π) → Prop
  | [] => True
  | x :: front => x.Follows front ∧ Lawful front

/-- The invariant of the runs. -/
structure Inv (s : State π) : Prop where
  /-- A flow that can be used is as it was made. -/
  made : ∀ h f, s.rows h = some f → f.consumedAt = none →
    ∃ g, .created h g ∈ s.journal ∧ f = { g with payload := f.payload }
  lawful : Lawful s.journal

/-- What is noted follows. -/
theorem Inv.follows {s : State π} (hs : Inv s) {x : Did π}
    (hc : ∀ h, Change lib h (s.rows h) (some x) (rows' h)) : x.Follows s.journal := by
  cases x with
  | created => trivial
  | consumed h f m now =>
    have hc := hc h
    generalize hrow : s.rows h = r, rows' h = r' at hc
    cases hc with
    | other _ _ hd => exact absurd rfl (hd _ rfl)
    | consumed f₀ _ _ hf =>
      obtain ⟨g, hg, heq⟩ := hs.made h f₀ hrow hf.fresh
      rw [heq] at hf
      exact ⟨g, hg, ⟨hf.fresh, hf.matched, hf.live⟩, by rw [heq]⟩
  | judged h m right now =>
    have hc := hc h
    generalize hrow : s.rows h = r, rows' h = r' at hc
    cases hc with
    | other _ _ hd => exact absurd rfl (hd _ rfl)
    | wrong f _ _ hf | right f _ _ hf =>
      obtain ⟨g, hg, heq⟩ := hs.made h f hrow hf.fresh
      rw [heq] at hf
      exact ⟨g, hg, hf.fresh, hf.matched, hf.live⟩

theorem Inv.next {s : State π} (hs : Inv s) (e : Event π) : Inv (step lib s e) := by
  obtain ⟨d, hjournal, hc⟩ := step_change lib s e
  refine ⟨fun h f hf hfresh => ?_, ?_⟩
  · rw [hjournal]
    have hold : ∀ f', s.rows h = some f' → f'.consumedAt = none →
        ∃ g, Did.created h g ∈ d.toList ++ s.journal ∧ f' = { g with payload := f'.payload } := by
      intro f' hf' hfresh'
      obtain ⟨g, hg, heq⟩ := hs.made h f' hf' hfresh'
      exact ⟨g, mem_append_right _ hg, heq⟩
    -- the row was there before, or has just been made
    have hc := hc h
    generalize hrow : s.rows h = r at hc
    generalize (step lib s e).rows h = r' at hc hf
    cases hc with
    | other => exact hold f (hrow.trans hf) hfresh
    | created f' =>
      cases hf
      exact ⟨f, mem_append_left _ (mem_singleton.2 rfl), rfl⟩
    | consumed | right =>
      cases hf
      cases hfresh
    | resent f' | wrong f' =>
      cases hf
      obtain ⟨g, hg, heq⟩ := hold f' hrow hfresh
      exact ⟨g, hg, by rw [heq]⟩
    | deleted => cases hf
  · rw [hjournal]
    cases d with
    | none => exact hs.lawful
    | some x => exact ⟨hs.follows hc, hs.lawful⟩

/-- **The law of the flows**: a flow is used no more often than it was made, and what is noted
follows from what was noted before. -/
theorem flow_law (events : List (Event π)) :
    (∀ h, count Did.isUse h (after lib events).journal ≤
      count Did.isCreated h (after lib events).journal) ∧ Lawful (after lib events).journal := by
  refine ⟨fun h => uses_le h events, Inv.lawful (s := after lib events) ?_⟩
  refine (Machine.Always.of_step (fun s e hs => hs.next e) ⟨?_, trivial⟩ events).run
  intro h f hf
  cases hf

end Runs

end NexusTok.Flow
