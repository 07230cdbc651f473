import NexusTok.Session.Rows

/-!
# Refresh tokens

A session stores the digest of its refresh token and of the token before it.  A rotation swaps them
by a compare-and-swap, so the digests that were current form a line: each of them was presented
once, to be replaced by the next one.  A token that is not the last but one of the line is unknown;
the last but one is answered by a race for a while, and revokes the session later.

When the digests are swapped, the call still has to publish the session, and answers that it is
inactive if the cache has refused the copy.  If the session is active all the same (another call has
advanced its version since the row was read, or has written a fence and has not come to its update),
the client keeps a token that is no longer current.  Likewise a refused fence leaves a session
active whose token was reused.  `unhindered` says that this does not happen, and the property holds
in every state of a run iff it does not.

* `Refreshed` : what is to hold in every state.
* `Rotating` : the invariant.
* `refreshed_iff_unhindered` : over every run without logins and cleanups.
-/

namespace NexusTok.Sessions

open List

open Table (update mem_update)

/-! ### What is to hold -/

/-- The rotations of one session, the newest first. -/
def ownRotations (sid : String) (rs : List Rotation) : List Rotation :=
  rs.filter fun r => decide (r.sid = sid)

/-- The digests that were current, the newest first. -/
def line (start : Session) (rs : List Rotation) : List String :=
  (ownRotations start.sid rs).map Rotation.next ++ [start.refreshHash]

/-- What a call of `RotateUserSessionRefresh` leaves behind if the session is active when it
returns: no swapped digests with an error, and no reused token. -/
def Note.honest (sid : String) : Note → Prop
  | .refreshed sid' swapped replayed err alive =>
    sid' = sid → alive = true →
      replayed = false ∧ (swapped = true → err = none ∨ err = some .refreshReuse)
  | _ => True

/-- What a call does when it reads a row whose digest is not the one it presents. -/
structure Judged (sh : Shared) (r : Refresh) (s : Session) (result : Shared × Option Call) :
    Prop where
  unknown : s.previousRefreshHash ≠ r.presented →
    ∃ err, result = (sh.refreshed r false false (some err), none)
  race : s.live r.now = true → s.previousRefreshHash = r.presented → r.presented ≠ "" →
    r.now ≤ s.previousValidUntil → result = (sh.refreshed r false false (some .refreshRace), none)
  reuse : s.live r.now = true → s.previousRefreshHash = r.presented → r.presented ≠ "" →
    s.previousValidUntil < r.now →
      result = (sh, some (.publish (s.toEntry.revoke .revoking r.now "refresh_reuse") none
        (.reuseFence r s)))

/-- **What is to hold in every state**, of a session that began as `start`. -/
structure Refreshed (cfg : Config) (start : Session) (p : Pool Shared Call) : Prop where
  stored : ∀ s ∈ p.shared.sessions, s.sid = start.sid →
    [s.refreshHash, s.previousRefreshHash] =
      (line start p.shared.rotations ++ [start.previousRefreshHash]).take 2
  linked : (ownRotations start.sid p.shared.rotations).map Rotation.presented =
    (line start p.shared.rotations).tail
  once : ((ownRotations start.sid p.shared.rotations).map Rotation.presented).Nodup
  answers : ∀ n ∈ p.shared.journal, n.honest start.sid
  reads : ∀ r tries deadline fails, Call.rotateRead r tries deadline ∈ p.calls →
    ∀ s, ownSession r.userID r.sid p.shared.sessions = some s → s.refreshHash ≠ r.presented →
      Judged p.shared r s (act cfg fails p.shared (.rotateRead r tries deadline))

/-! ### What a run is to meet -/

/-- The rotation that an event asks for. -/
def Event.rotation : Event → Option Rotation
  | .begin (.rotate _ sid presented next _) => some ⟨sid, presented, next⟩
  | _ => none

/-- The event begins neither a login nor a cleanup. -/
def Event.steady : Event → Bool
  | .begin (.login ..) | .begin (.cleanup _) => false
  | _ => true

/-- A digest follows one other digest only, and the first one follows none. -/
structure Apart (start : Session) (rs : List Rotation) : Prop where
  follows : ∀ x ∈ rs, ∀ y ∈ rs, x.sid = start.sid → y.sid = start.sid → x.next = y.next →
    x.presented = y.presented
  first : ∀ x ∈ rs, x.sid = start.sid → x.next ≠ start.refreshHash

/-- There is a row of the session with the versions of the copy. -/
def currentCopy (sh : Shared) (s : Session) : Bool :=
  sh.sessions.any fun row => decide (row.sid = s.sid) && decide (row.version = s.version) &&
    decide (row.userAuthVersion = s.userAuthVersion)

/-- The cache does not refuse the copy of a rotation or the fence of a reused token while the
session is active, and the version is not advanced before a rotation is confirmed. -/
def unhindered (sid : String) (p : Pool Shared Call) : Event → Bool
  | .resume i _ =>
    match p.calls[i]? with
    | some (.script e _ _ (.rotated r _)) | some (.script e _ _ (.reuseFence r _)) =>
      decide (r.sid ≠ sid) || !p.shared.alive sid ||
        !refuses (p.shared.cache.find e.sid p.shared.clock) e
    | some (.confirm s (.rotated r _)) =>
      decide (r.sid ≠ sid) || !p.shared.alive sid || currentCopy p.shared s
    | _ => true
  | _ => true

/-! ### The invariant -/

/-- No row of the session is active. -/
def Over (rows : List Session) (sid : String) : Prop :=
  ∀ s ∈ rows, s.sid = sid → s.status ≠ .active

structure Copy (start s : Session) : Prop where
  userID : s.userID = start.userID
  expiresAt : s.expiresAt = start.expiresAt
  version : 0 < s.version
  authVersion : 0 < s.userAuthVersion

/-- A call has begun with a digest that is among those of the run. -/
structure Begun (start : Session) (rs : List Rotation) (sh : Shared) (r : Refresh) : Prop where
  asked : Rotation.mk r.sid r.presented r.next ∈ rs
  now : r.now ≤ unix sh.clock
  sid : r.sid ≠ ""
  userID : 0 < r.userID

/-- What a continuation knows. -/
def Then.Fits (start : Session) (sh : Shared) (e : Entry) : Then → Prop
  | .rotated r s => r.sid = start.sid →
    e.expiresAt = start.expiresAt ∧ s.sid = start.sid ∧ Copy start s ∧ start.sid ≠ "" ∧
      0 < start.userID
  | .reuseFence r _ => r.sid = start.sid →
    e.status ≠ .active ∧ r.userID = start.userID ∧ r.now ≤ unix sh.clock
  | .reuseFinal r => r.sid = start.sid → Over sh.sessions start.sid
  | _ => True

/-- What a confirmation knows. -/
def Then.Awaits (start : Session) (sh : Shared) (s : Session) : Then → Prop
  | .rotated r s' => s' = s ∧ (Then.rotated r s').Fits start sh s.toEntry
  | .reuseFence .. | .reuseFinal _ => False
  | _ => True

/-- What a call knows. -/
def Call.Fits (start : Session) (rs : List Rotation) (sh : Shared) : Call → Prop
  | .rotateDeadline r _ | .rotateRead r _ _ => r.sid = start.sid → Begun start rs sh r
  | .rotateSwap r _ _ s => r.sid = start.sid →
    Begun start rs sh r ∧ s.sid = start.sid ∧ Copy start s ∧ r.userID = start.userID ∧
      s.refreshHash = r.presented
  | .publish e _ k | .script e _ _ k => k.Fits start sh e
  | .completed e _ k => e.status = .active ∧ k.Fits start sh e
  | .confirm s k => k.Awaits start sh s
  | .reuseUpdate r _ => r.sid = start.sid → r.userID = start.userID ∧ r.now ≤ unix sh.clock
  | .advanceClock a _ | .advance a _ _ => 0 < a.nextAuthVersion
  | .loginRenew .. | .loginCreate .. | .login .. | .cleanFind .. | .cleanDelete .. => False
  | _ => True

/-- The invariant. -/
structure Rotating (start : Session) (rs : List Rotation) (p : Pool Shared Call) : Prop where
  keys : (p.shared.sessions.map fun s => s.sid).Nodup
  rows : ∀ s ∈ p.shared.sessions, s.sid = start.sid → Copy start s
  stored : ∀ s ∈ p.shared.sessions, s.sid = start.sid →
    [s.refreshHash, s.previousRefreshHash] =
      (line start p.shared.rotations ++ [start.previousRefreshHash]).take 2
  linked : (ownRotations start.sid p.shared.rotations).map Rotation.presented =
    (line start p.shared.rotations).tail
  fresh : (line start p.shared.rotations).Nodup
  asked : ∀ r ∈ ownRotations start.sid p.shared.rotations, r ∈ rs
  calls : ∀ c ∈ p.calls, c.Fits start rs p.shared
  answers : ∀ n ∈ p.shared.journal, n.honest start.sid

section Facts

variable {start : Session} {rs : List Rotation} {sh sh' : Shared}

theorem alive_iff {sid : String} :
    sh.alive sid = true ↔ ∃ s ∈ sh.sessions, s.sid = sid ∧ s.live (unix sh.clock) = true := by
  simp only [Shared.alive, any_eq_true, Bool.and_eq_true, decide_eq_true_eq]

theorem Over.not_alive {sid : String} (h : Over sh.sessions sid) : sh.alive sid = false := by
  rw [← Bool.not_eq_true, alive_iff]
  rintro ⟨s, hs, hsid, hlive⟩
  exact h s hs hsid (live_iff.1 hlive).1

/-- What a call knows stays true while time passes and the session is not revived. -/
theorem Call.Fits.onward {c : Call} (h : c.Fits start rs sh) (hclock : sh.clock ≤ sh'.clock)
    (hover : Over sh.sessions start.sid → Over sh'.sessions start.sid) :
    c.Fits start rs sh' := by
  have hunix : unix sh.clock ≤ unix sh'.clock := Int.ediv_le_ediv (by decide) hclock
  have hbegun : ∀ r, Begun start rs sh r → Begun start rs sh' r := fun r hr =>
    ⟨hr.asked, hr.now.trans hunix, hr.sid, hr.userID⟩
  have hthen : ∀ (e : Entry) (k : Then), k.Fits start sh e → k.Fits start sh' e := by
    intro e k hk
    cases k with
    | rotated r s => exact hk
    | reuseFence r s => exact fun hsid => ⟨(hk hsid).1, (hk hsid).2.1, (hk hsid).2.2.trans hunix⟩
    | reuseFinal r => exact fun hsid => hover (hk hsid)
    | _ => trivial
  cases c with
  | rotateDeadline r tries => exact fun hsid => hbegun r (h hsid)
  | rotateRead r tries deadline => exact fun hsid => hbegun r (h hsid)
  | rotateSwap r tries deadline s => exact fun hsid => ⟨hbegun r (h hsid).1, (h hsid).2⟩
  | publish e deadline k => exact hthen e k h
  | script e deadline expiration k => exact hthen e k h
  | completed e deadline k => exact ⟨h.1, hthen e k h.2⟩
  | confirm s k => cases k <;> exact h
  | reuseUpdate r s => exact fun hsid => ⟨(h hsid).1, (h hsid).2.trans hunix⟩
  | advanceClock | advance | loginRenew | loginCreate | login | cleanFind | cleanDelete => exact h
  | _ => trivial

/-- The row of the session, as a call reads it. -/
theorem Rotating.read {p : Pool Shared Call} (h : Rotating start rs p) {userID : ℤ} {sid : String}
    {s : Session} (hread : ownSession userID sid p.shared.sessions = some s)
    (hsid : sid = start.sid) : s.sid = start.sid ∧ s.userID = userID ∧ Copy start s := by
  obtain ⟨row, hrow, hrowsid, huser, rfl⟩ := ownSession_cases hread
  have hcopy := h.rows row hrow (hrowsid.trans hsid)
  exact ⟨hrowsid.trans hsid, huser, hcopy.userID, hcopy.expiresAt, hcopy.version,
    hcopy.authVersion⟩

/-- A session that has expired is not active. -/
theorem Rotating.expired {p : Pool Shared Call} (h : Rotating start rs p)
    (hexp : start.expiresAt * second ≤ p.shared.clock) : p.shared.alive start.sid = false := by
  rw [← Bool.not_eq_true, alive_iff]
  rintro ⟨s, hs, hsid, hlive⟩
  have hlt := (live_iff.1 hlive).2.2
  have hle : start.expiresAt ≤ unix p.shared.clock :=
    Int.le_ediv_of_mul_le (by decide) hexp
  rw [(h.rows s hs hsid).expiresAt] at hlt
  omega

theorem Rotating.confirmed {p : Pool Shared Call} (h : Rotating start rs p) {s : Session}
    (hsid : s.sid = start.sid) (hcopy : Copy start s) (halive : p.shared.alive start.sid = true)
    (hcurrent : currentCopy p.shared s = true) :
    p.shared.sessions.countP (confirms s (unix p.shared.clock)) = 1 := by
  obtain ⟨row, hrow, hrowsid, hlive⟩ := alive_iff.1 halive
  obtain ⟨row', hrow', hsame⟩ := any_eq_true.1 hcurrent
  simp only [Bool.and_eq_true, decide_eq_true_eq] at hsame
  obtain ⟨⟨hsid', hversion⟩, hauth⟩ := hsame
  have heq : row' = row := inj_on_of_nodup_map h.keys hrow' hrow
    (hsid'.trans (hsid.trans hrowsid.symm))
  subst heq
  -- the rows that are counted are those that are this one
  have hcount : ∀ r ∈ p.shared.sessions,
      confirms s (unix p.shared.clock) r = true ↔ (r == row') = true := by
    intro r hr
    rw [beq_iff_eq]
    constructor
    · intro hconfirms
      simp only [confirms, Bool.and_eq_true, decide_eq_true_eq] at hconfirms
      exact inj_on_of_nodup_map h.keys hr hrow' (hconfirms.1.1.1.1.trans hsid'.symm)
    · rintro rfl
      simp only [confirms, Bool.and_eq_true, decide_eq_true_eq]
      exact ⟨⟨⟨⟨hsid', (h.rows r hr hrowsid).userID.trans hcopy.userID.symm⟩, hlive⟩, hversion⟩,
        hauth⟩
  rw [countP_congr hcount]
  exact count_eq_one_of_mem (List.Nodup.of_map _ h.keys) hrow'

end Facts

/-! ### Steps -/

/-- What a step leaves of a call, and what it notes. -/
structure Good (start : Session) (rs : List Rotation) (sh : Shared)
    (result : Shared × Option Call) : Prop where
  rest : ∀ c ∈ result.2, c.Fits start rs result.1
  notes : ∀ n ∈ result.1.journal, n ∈ sh.journal ∨ n.honest start.sid

/-- A write to the cache does not fail for a session that is active. -/
def Then.Spared (start : Session) (sh : Shared) (result : Except Err Unit) : Then → Prop
  | .rotated r _ => r.sid = start.sid → result = .error .inactive → sh.alive start.sid = false
  | .reuseFence r _ => r.sid = start.sid → result ≠ .ok () → sh.alive start.sid = false
  | _ => True

section Steps

variable {cfg : Config} {fails : Bool} {start : Session} {rs : List Rotation} {sh : Shared}

theorem Good.move {c : Call} (hc : c.Fits start rs sh) : Good start rs sh (sh, some c) := by
  refine ⟨?_, fun n hn => .inl hn⟩
  rintro c' ⟨⟩
  exact hc

theorem Good.return {sh' : Shared} {n : Note} (hsame : sh'.journal = n :: sh.journal)
    (hn : n.honest start.sid) : Good start rs sh (sh', none) := by
  refine ⟨?_, fun n' hn' => ?_⟩
  · rintro c ⟨⟩
  · have hn' : n' ∈ sh'.journal := hn'
    rw [hsame] at hn'
    obtain rfl | hn' := mem_cons.1 hn'
    · exact .inr hn
    · exact .inl hn'

theorem Good.note {n : Note} (hn : n.honest start.sid) :
    Good start rs sh (sh.note n, none) :=
  .return rfl hn

/-- A call of `RotateUserSessionRefresh` that has swapped nothing may return anything. -/
theorem Good.unswapped (sh : Shared) (r : Refresh) (err : Option Err) :
    Good start rs sh (sh.refreshed r false false err, none) :=
  .note fun _ _ => ⟨rfl, fun h => absurd h Bool.false_ne_true⟩

/-- Any call may return if the session is not active. -/
theorem honest_of_not_alive {sh : Shared} {sid : String} (h : sh.alive sid = false) {sid' : String}
    {swapped replayed : Bool} {err : Option Err} :
    (Note.refreshed sid' swapped replayed err (sh.alive sid')).honest sid := by
  rintro rfl halive
  rw [h] at halive
  exact absurd halive Bool.false_ne_true

theorem bulkNext_fits (start : Session) (rs : List Rotation) (sh : Shared) (v : Revocation)
    (batch fences : List Session) : (bulkNext v batch fences).Fits start rs sh := by
  cases fences <;> exact trivial

theorem bulkFinals_fits (start : Session) (rs : List Rotation) (sh : Shared) (v : Revocation)
    (revoked : List Session) : (bulkFinals v revoked).Fits start rs sh := by
  cases revoked <;> exact trivial

theorem cleanFinals_fits (start : Session) (rs : List Rotation) (sh : Shared) (s : Session)
    (deadline : ℤ) (stale : List Session) : (cleanFinals s deadline stale).Fits start rs sh := by
  cases stale <;> exact trivial

variable {e : Entry}

/-- **What an operation does after a write to the cache.** -/
theorem proceed_good {result : Except Err Unit} {k : Then}
    (hk : k.Fits start sh e) (hspared : k.Spared start sh result) :
    Good start rs sh (proceed sh result k) := by
  cases k with
  | rotated r s =>
    have hawaits : (Then.rotated r s).Awaits start sh s :=
      ⟨rfl, fun hsid => ⟨(hk hsid).2.2.1.expiresAt, (hk hsid).2⟩⟩
    simp only [proceed]
    split
    · exact .move hawaits
    · refine .note fun hsid => ?_
      exact honest_of_not_alive (hspared hsid rfl) hsid
    · exact .note fun _ _ => ⟨rfl, fun _ => .inl rfl⟩
  | reuseFence r s =>
    cases result with
    | error err =>
      refine .note fun hsid => ?_
      exact honest_of_not_alive (hspared hsid fun h => by cases h) hsid
    | ok u => exact .move fun hsid => (hk hsid).2
  | reuseFinal r =>
    refine .return rfl fun hsid => ?_
    have hdead : (sh.dismiss r.sid).alive start.sid = false := Over.not_alive (hk hsid)
    exact honest_of_not_alive hdead hsid
  | denied late => exact .note trivial
  | got s late | created s | advanced s =>
    simp only [proceed]
    split
    · exact .move trivial
    · exact .note trivial
    · exact .note trivial
  | replaced sid s deadline =>
    refine ⟨?_, fun n hn => .inl hn⟩
    rintro c ⟨⟩
    exact trivial
  | cleaned sid rest s deadline =>
    refine ⟨?_, fun n hn => .inl hn⟩
    rintro c ⟨⟩
    exact cleanFinals_fits _ _ _ _ _ _
  | bulkFinal v sid rest =>
    refine ⟨?_, fun n hn => .inl hn⟩
    rintro c ⟨⟩
    exact bulkFinals_fits _ _ _ _ _
  | revokeFence v s | hashFence reason now s =>
    cases result with
    | error err => exact .note trivial
    | ok u => exact .move trivial
  | bulkFence v rest batch =>
    cases result with
    | error err => exact .note trivial
    | ok u => exact .move (bulkNext_fits _ _ _ _ _ _)
  | revokeFinal sid | hashFinal sid => exact .return rfl trivial

variable {deadline : Option ℤ}

/-- What `writeUserSessionCache` computes before its script fails only for an active entry, and
says that the session is inactive only if it has expired. -/
theorem prepare_error {t : ℤ} {err : Err} (h : prepare cfg e deadline t = .error err) :
    e.status = .active ∧ (err = .inactive → e.expiresAt * second ≤ t) := by
  unfold prepare at h
  by_cases hs : e.status = .active
  · rw [if_pos hs] at h
    refine ⟨hs, fun herr => ?_⟩
    subst herr
    rcases deadline with _ | d
    · cases h
    simp only at h
    split_ifs at h with h₁ h₂ h₃
    · cases h
    · exact h₂
    · cases h
  · rw [if_neg hs] at h
    cases h

theorem completed_error {t : ℤ}
    (h : completed e deadline t = .error .inactive) : e.expiresAt * second ≤ t := by
  unfold completed at h
  rcases deadline with _ | d
  · cases h
  simp only at h
  split_ifs at h with h₁ h₂
  · cases h
  · exact h₂

section Cache

variable {p : Pool Shared Call}

theorem Rotating.publish (h : Rotating start rs p) {k : Then}
    (hc : (Call.publish e deadline k).Fits start rs p.shared) :
    Good start rs p.shared (act cfg fails p.shared (.publish e deadline k)) := by
  simp only [act]
  cases hprepare : prepare cfg e deadline p.shared.clock with
  | ok expiration => exact .move hc
  | error err =>
    obtain ⟨hactive, hinactive⟩ := prepare_error hprepare
    refine proceed_good hc ?_
    cases k with
    | rotated r s =>
      rintro hsid ⟨⟩
      have hexp := hinactive rfl
      rw [(hc hsid).1] at hexp
      exact h.expired hexp
    | reuseFence r s => exact fun hsid => absurd hactive (hc hsid).1
    | _ => trivial

/-- What the condition says about the script of a call. -/
def Then.Heeded (start : Session) (sh : Shared) (e : Entry) : Then → Prop
  | .rotated r _ | .reuseFence r _ =>
    r.sid = start.sid → refuses (sh.cache.find e.sid sh.clock) e = true → sh.alive start.sid = false
  | _ => True

theorem Rotating.script
    {expiration : ℤ} {k : Then} (hc : (Call.script e deadline expiration k).Fits start rs sh)
    (hheeded : k.Heeded start sh e) :
    Good start rs sh (act cfg fails sh (.script e deadline expiration k)) := by
  simp only [act]
  split_ifs with hrefused hactive
  · refine proceed_good hc ?_
    cases k with
    | rotated | reuseFence => exact fun hsid _ => hheeded hsid hrefused
    | _ => trivial
  · refine ⟨?_, fun n hn => .inl hn⟩
    rintro c ⟨⟩
    refine ⟨hactive, ?_⟩
    cases k <;> exact hc
  · have hfits : k.Fits start { sh with cache := sh.cache.write e expiration sh.clock } e := by
      cases k <;> exact hc
    have hspared : k.Spared start { sh with cache := sh.cache.write e expiration sh.clock }
        (.ok ()) := by
      cases k with
      | rotated r s => exact fun _ h => by cases h
      | reuseFence r s => exact fun _ h => absurd rfl h
      | _ => trivial
    have hgood : Good start rs _ _ := proceed_good hfits hspared
    exact ⟨hgood.rest, hgood.notes⟩

theorem Rotating.completed (h : Rotating start rs p) {k : Then}
    (hc : (Call.completed e deadline k).Fits start rs p.shared) :
    Good start rs p.shared (act cfg fails p.shared (.completed e deadline k)) := by
  obtain ⟨hactive, hk⟩ := hc
  simp only [act]
  refine proceed_good hk ?_
  cases k with
  | rotated r s =>
    intro hsid hresult
    have hexp := completed_error hresult
    rw [(hk hsid).1] at hexp
    exact h.expired hexp
  | reuseFence r s => exact fun hsid => absurd hactive (hk hsid).1
  | _ => trivial

theorem Rotating.confirm (h : Rotating start rs p) {s : Session} {k : Then}
    (hc : (Call.confirm s k).Fits start rs p.shared)
    (hcurrent : ∀ r s', k = .rotated r s' → r.sid = start.sid →
      p.shared.alive start.sid = true → currentCopy p.shared s = true) :
    Good start rs p.shared (act cfg fails p.shared (.confirm s k)) := by
  simp only [act]
  cases k with
  | rotated r s' =>
    obtain ⟨rfl, hfits⟩ : s' = s ∧ (Then.rotated r s').Fits start p.shared s.toEntry := hc
    split_ifs with hbad hcount
    · refine .note fun hsid => ?_
      -- the copy of a session has an id, a user, and versions
      obtain ⟨-, hs, hcopy, hid, huser⟩ := hfits hsid
      obtain hbad | hbad | hbad | hbad := hbad
      · exact absurd (hs.symm.trans hbad) hid
      · rw [hcopy.userID] at hbad
        omega
      · exact absurd hcopy.version (not_lt.2 hbad)
      · exact absurd hcopy.authVersion (not_lt.2 hbad)
    · exact proceed_good hfits fun _ herr => by cases herr
    · refine .note fun hsid halive => ?_
      have halive' : p.shared.alive start.sid = true := hsid ▸ halive
      obtain ⟨-, hs, hcopy, -⟩ := hfits hsid
      exact absurd (h.confirmed hs hcopy halive' (hcurrent r s' rfl hsid halive')) hcount
  | reuseFence | reuseFinal => exact hc.elim
  | got s' late | created s' | advanced s' | denied late | replaced _ _ _ | cleaned _ _ _ _
  | revokeFence _ _ | revokeFinal _ | hashFence _ _ _ | hashFinal _ | bulkFence _ _ _
  | bulkFinal _ _ _ =>
    split_ifs
    · exact .note trivial
    · exact proceed_good (e := s.toEntry) trivial trivial
    · exact .note trivial

end Cache

/-! ### What calls read and write -/

section Table

variable {p : Pool Shared Call}

theorem Good.goes {sh' : Shared} {c : Call} (hsame : sh'.journal = sh.journal)
    (hc : c.Fits start rs sh') : Good start rs sh (sh', some c) := by
  refine ⟨?_, fun n hn => .inl ?_⟩
  · rintro c' ⟨⟩
    exact hc
  · have hn : n ∈ sh'.journal := hn
    rwa [hsame] at hn

theorem Rotating.rotateRead (h : Rotating start rs p) {r : Refresh} {tries : ℕ} {deadline : ℤ}
    (hc : (Call.rotateRead r tries deadline).Fits start rs p.shared) :
    Good start rs p.shared (act cfg fails p.shared (.rotateRead r tries deadline)) := by
  simp only [act]
  cases hread : ownSession r.userID r.sid p.shared.sessions with
  | none => exact .unswapped _ _ _
  | some s =>
    simp only [rotateDecide]
    split_ifs with hlive hcurrent hprevious hgrace
    · refine .move fun hsid => ?_
      obtain ⟨hs, huser, hcopy⟩ := h.read hread hsid
      exact ⟨hc hsid, hs, hcopy, huser.symm.trans hcopy.userID, hcurrent⟩
    · exact .unswapped _ _ _
    · exact .unswapped _ _ _
    · refine .move fun hsid => ?_
      obtain ⟨-, huser, hcopy⟩ := h.read hread hsid
      exact ⟨(fun h => by cases h), huser.symm.trans hcopy.userID, (hc hsid).now⟩
    · exact .unswapped _ _ _

theorem rotateSwap_good {r : Refresh} {tries : ℕ} {deadline : ℤ} {s : Session}
    (hc : (Call.rotateSwap r tries deadline s).Fits start rs sh) :
    Good start rs sh (act cfg fails sh (.rotateSwap r tries deadline s)) := by
  simp only [act]
  split_ifs with hany
  · refine .goes rfl fun hsid => ?_
    obtain ⟨hbegun, hs, hcopy, huser, -⟩ := hc hsid
    exact ⟨hcopy.expiresAt, hs, ⟨hcopy.userID, hcopy.expiresAt, hcopy.version, hcopy.authVersion⟩,
      hsid ▸ hbegun.sid, huser ▸ hbegun.userID⟩
  · cases tries with
    | zero => exact .unswapped _ _ _
    | succ tries => exact .move fun hsid => (hc hsid).1

/-- A reused token revokes the session, or finds that it is not active. -/
theorem Rotating.reuseUpdate (h : Rotating start rs p) {r : Refresh} {s : Session}
    (hc : (Call.reuseUpdate r s).Fits start rs p.shared) :
    Good start rs p.shared (act cfg fails p.shared (.reuseUpdate r s)) := by
  simp only [act]
  split_ifs with hany
  · refine .goes rfl fun hsid s' hs' hs'sid => ?_
    obtain ⟨row, hrow, hreusable⟩ := any_eq_true.1 hany
    have hrowsid : row.sid = r.sid := by
      simp only [reusable, Bool.and_eq_true, decide_eq_true_eq] at hreusable
      exact hreusable.1.1
    obtain ⟨s₀, hs₀, ⟨-, rfl⟩ | ⟨hnot, rfl⟩⟩ := mem_update hs'
    · exact fun h => by cases h
    · have heq : s' = row := inj_on_of_nodup_map h.keys hs₀ hrow
        (hs'sid.trans (hsid.symm.trans hrowsid.symm))
      rw [heq, hreusable] at hnot
      cases hnot
  · refine .note fun hsid halive => absurd ?_ hany
    obtain ⟨huser, hnow⟩ := hc hsid
    obtain ⟨row, hrow, hrowsid, hlive⟩ := alive_iff.1 halive
    obtain ⟨hstatus, hzero, hexp⟩ := live_iff.1 hlive
    refine any_eq_true.2 ⟨row, hrow, ?_⟩
    simp only [reusable, Bool.and_eq_true, decide_eq_true_eq]
    exact ⟨⟨hrowsid, ((h.rows row hrow (hrowsid.trans hsid)).userID).trans huser.symm⟩,
      live_iff.2 ⟨hstatus, hzero, hnow.trans_lt hexp⟩⟩

/-- What the condition says about a step. -/
def Call.Heeded (start : Session) (sh : Shared) : Call → Prop
  | .script e _ _ k => k.Heeded start sh e
  | .confirm s k => ∀ r s', k = .rotated r s' → r.sid = start.sid →
    sh.alive start.sid = true → currentCopy sh s = true
  | _ => True

theorem Rotating.good (h : Rotating start rs p) {c : Call} (hc : c.Fits start rs p.shared)
    (hheeded : c.Heeded start p.shared) :
    Good start rs p.shared (act cfg fails p.shared c) := by
  cases c with
  | get sid late =>
    simp only [act]
    split_ifs
    · exact .move trivial
    · split
      · exact .note trivial
      · exact .move trivial
      · exact .note trivial
  | getDeadline sid late => exact .move trivial
  | getRead sid late deadline =>
    simp only [act]
    split
    · exact .note trivial
    · exact .move trivial
  | getCheck s late deadline =>
    simp only [act]
    split_ifs
    · exact .move trivial
    · exact .move trivial
  | publish e deadline k => exact h.publish hc
  | script e deadline expiration k => exact Rotating.script hc hheeded
  | completed e deadline k => exact h.completed hc
  | confirm s k => exact h.confirm hc hheeded
  | rotateDeadline | advanceClock => exact .move hc
  | rotateRead r tries deadline => exact h.rotateRead hc
  | rotateSwap r tries deadline s => exact rotateSwap_good hc
  | reuseUpdate r s => exact h.reuseUpdate hc
  | advance | revoke =>
    simp only [act]
    split
    · exact .note trivial
    · split_ifs
      · exact .goes rfl trivial
      · exact .note trivial
  | revokeRead | hashRead =>
    simp only [act]
    split
    · exact .note trivial
    · split_ifs
      · exact .move trivial
      · exact .note trivial
  | hashCommit reason now row =>
    simp only [act]
    split_ifs
    · exact .goes rfl trivial
    · exact .move trivial
  | bulkFind v =>
    simp only [act]
    split
    · exact .note trivial
    · exact .move (bulkNext_fits _ _ _ _ _ _)
  | bulk v batch => exact .goes rfl (bulkFinals_fits _ _ _ _ _)
  | loginRenew | loginCreate | login | cleanFind | cleanDelete => exact hc.elim

end Table

end Steps

/-! ### The line of digests -/

section Line

variable {start : Session} {rs : List Rotation}

theorem line_cons (r : Rotation) (rotations : List Rotation) :
    line start (r :: rotations) =
      if r.sid = start.sid then r.next :: line start rotations else line start rotations := by
  unfold line ownRotations
  by_cases hsid : r.sid = start.sid
  · rw [filter_cons_of_pos (by simpa using hsid), if_pos hsid]
    rfl
  · rw [filter_cons_of_neg (by simpa using hsid), if_neg hsid]

theorem ownRotations_cons {sid : String} (r : Rotation) (rotations : List Rotation) :
    ownRotations sid (r :: rotations) =
      if r.sid = sid then r :: ownRotations sid rotations else ownRotations sid rotations := by
  unfold ownRotations
  by_cases hsid : r.sid = sid
  · rw [filter_cons_of_pos (by simpa using hsid), if_pos hsid]
  · rw [filter_cons_of_neg (by simpa using hsid), if_neg hsid]

theorem line_ne_nil (start : Session) (rotations : List Rotation) : line start rotations ≠ [] :=
  append_ne_nil_of_right_ne_nil _ (cons_ne_nil _ _)

theorem Rotating.head {p : Pool Shared Call} (h : Rotating start rs p) {s : Session}
    (hs : s ∈ p.shared.sessions) (hsid : s.sid = start.sid) :
    line start p.shared.rotations = s.refreshHash :: (line start p.shared.rotations).tail := by
  have hstored := h.stored s hs hsid
  cases hline : line start p.shared.rotations with
  | nil => exact absurd hline (line_ne_nil _ _)
  | cons d ds =>
    rw [hline, cons_append, take_succ_cons, List.cons.injEq] at hstored
    rw [hstored.1, tail_cons]

/-- **A rotation** makes the line longer: its digest is new, and it presented the newest one. -/
theorem Rotating.longer {p : Pool Shared Call} (h : Rotating start rs p) (hapart : Apart start rs)
    {s : Session} (hs : s ∈ p.shared.sessions) (hsid : s.sid = start.sid) {r : Rotation}
    (hr : r ∈ rs) (hrsid : r.sid = start.sid) (hpresented : r.presented = s.refreshHash) :
    (r.next :: line start p.shared.rotations).Nodup ∧
      (r :: ownRotations start.sid p.shared.rotations).map Rotation.presented =
        line start p.shared.rotations := by
  have hhead := h.head hs hsid
  refine ⟨nodup_cons.2 ⟨fun hmem => ?_, h.fresh⟩, ?_⟩
  · obtain hmem | hmem := mem_append.1 hmem
    · -- the digest of an earlier rotation followed a digest that is no longer current
      obtain ⟨x, hx, hnext⟩ := mem_map.1 hmem
      have hxsid : x.sid = start.sid := of_decide_eq_true (mem_filter.1 hx).2
      have hsame := hapart.follows x (h.asked x hx) r hr hxsid hrsid hnext
      have hpast : s.refreshHash ∈ (line start p.shared.rotations).tail := by
        rw [← h.linked, ← hpresented, ← hsame]
        exact mem_map_of_mem hx
      have hnodup := h.fresh
      rw [hhead] at hnodup
      exact (nodup_cons.1 hnodup).1 hpast
    · exact hapart.first r hr hrsid (mem_singleton.1 hmem)
  · rw [map_cons, h.linked, hpresented]
    exact hhead.symm

end Line

/-! ### Runs -/

/-- What is stored, and the line. -/
structure InLine (start : Session) (rs : List Rotation) (sh : Shared) : Prop where
  stored : ∀ s ∈ sh.sessions, s.sid = start.sid →
    [s.refreshHash, s.previousRefreshHash] =
      (line start sh.rotations ++ [start.previousRefreshHash]).take 2
  linked : (ownRotations start.sid sh.rotations).map Rotation.presented =
    (line start sh.rotations).tail
  fresh : (line start sh.rotations).Nodup
  asked : ∀ r ∈ ownRotations start.sid sh.rotations, r ∈ rs

section Runs

variable {cfg : Config} {fails : Bool} {start : Session} {rs : List Rotation}
  {p : Pool Shared Call}

section

variable (h : Rotating start rs p)
include h

/-- **The compare-and-swap** keeps the digests in line. -/
theorem Rotating.swap (hapart : Apart start rs) {r : Refresh} {tries : ℕ}
    {deadline : ℤ} {s : Session}
    (hc : (Call.rotateSwap r tries deadline s).Fits start rs p.shared) :
    InLine start rs (act cfg fails p.shared (.rotateSwap r tries deadline s)).1 := by
  simp only [act]
  split_ifs with hany
  · by_cases hsid : r.sid = start.sid
    · obtain ⟨hbegun, -, -, -, hread⟩ := hc hsid
      obtain ⟨row, hrow, hrotatable⟩ := any_eq_true.1 hany
      have hfacts := hrotatable
      simp only [rotatable, Bool.and_eq_true, decide_eq_true_eq] at hfacts
      obtain ⟨⟨⟨hrowsid, -⟩, -⟩, hpresented⟩ := hfacts
      obtain ⟨hnodup, hpast⟩ := h.longer hapart hrow (hrowsid.trans hsid) hbegun.asked hsid
        hpresented.symm
      have hline : line start (⟨r.sid, r.presented, r.next⟩ :: p.shared.rotations) =
          r.next :: line start p.shared.rotations := by
        rw [line_cons, if_pos hsid]
      have hown : ownRotations start.sid (⟨r.sid, r.presented, r.next⟩ :: p.shared.rotations) =
          ⟨r.sid, r.presented, r.next⟩ :: ownRotations start.sid p.shared.rotations := by
        rw [ownRotations_cons, if_pos hsid]
      refine ⟨?_, ?_, ?_, ?_⟩
      · intro s' hs' hs'sid
        rw [hline, h.head hrow (hrowsid.trans hsid), hpresented]
        obtain ⟨s₀, hs₀, ⟨-, rfl⟩ | ⟨hnot, rfl⟩⟩ := mem_update hs'
        · rw [← hread]
          rfl
        · have heq : s' = row := inj_on_of_nodup_map h.keys hs₀ hrow
            (hs'sid.trans (hsid.symm.trans hrowsid.symm))
          rw [heq, hrotatable] at hnot
          cases hnot
      · show (ownRotations start.sid (⟨r.sid, r.presented, r.next⟩ :: p.shared.rotations)).map _ = _
        rw [hown, hpast, hline, tail_cons]
      · show (line start (⟨r.sid, r.presented, r.next⟩ :: p.shared.rotations)).Nodup
        rw [hline]
        exact hnodup
      · intro r' hr'
        have hr' : r' ∈ ownRotations start.sid
            (⟨r.sid, r.presented, r.next⟩ :: p.shared.rotations) := hr'
        rw [hown] at hr'
        obtain rfl | hr' := mem_cons.1 hr'
        · exact hbegun.asked
        · exact h.asked r' hr'
    · -- another session
      have hline : line start (⟨r.sid, r.presented, r.next⟩ :: p.shared.rotations) =
          line start p.shared.rotations := by
        rw [line_cons, if_neg hsid]
      have hown : ownRotations start.sid (⟨r.sid, r.presented, r.next⟩ :: p.shared.rotations) =
          ownRotations start.sid p.shared.rotations := by
        rw [ownRotations_cons, if_neg hsid]
      refine ⟨?_, ?_, ?_, ?_⟩
      · intro s' hs' hs'sid
        rw [hline]
        obtain ⟨s₀, hs₀, ⟨hq, rfl⟩ | ⟨-, rfl⟩⟩ := mem_update hs'
        · simp only [rotatable, Bool.and_eq_true, decide_eq_true_eq] at hq
          exact absurd (hq.1.1.1.symm.trans hs'sid) hsid
        · exact h.stored s' hs₀ hs'sid
      · show (ownRotations start.sid (⟨r.sid, r.presented, r.next⟩ :: p.shared.rotations)).map _ = _
        rw [hown, hline]
        exact h.linked
      · show (line start (⟨r.sid, r.presented, r.next⟩ :: p.shared.rotations)).Nodup
        rw [hline]
        exact h.fresh
      · intro r' hr'
        have hr' : r' ∈ ownRotations start.sid
            (⟨r.sid, r.presented, r.next⟩ :: p.shared.rotations) := hr'
        rw [hown] at hr'
        exact h.asked r' hr'
  · cases tries <;> exact ⟨h.stored, h.linked, h.fresh, h.asked⟩

/-- A step keeps the digests in line. -/
theorem Rotating.inLine (hapart : Apart start rs) {c : Call}
    (hc : c.Fits start rs p.shared) : InLine start rs (act cfg fails p.shared c).1 := by
  cases hswaps : c.swaps with
  | true =>
    cases c with
    | rotateSwap r tries deadline s => exact h.swap hapart hc
    | _ => cases hswaps
  | false =>
    have hbuilds : c.rebuilds = false := by
      cases c with
      | login | cleanDelete => exact hc.elim
      | _ => rfl
    have haged := act_ages cfg fails p.shared hbuilds
    have hrotations := (act_records cfg fails p.shared c).2.1 hswaps
    refine ⟨fun s' hs' hsid => ?_, ?_, ?_, ?_⟩
    · obtain ⟨s, hs, hage⟩ := haged.mem hs'
      rw [hrotations, (hage.digests hswaps).1, (hage.digests hswaps).2]
      exact h.stored s hs (hage.sid.symm.trans hsid)
    · rw [hrotations]
      exact h.linked
    · rw [hrotations]
      exact h.fresh
    · rw [hrotations]
      exact h.asked

/-- **A step of a call keeps the invariant.** -/
theorem Rotating.resume (hapart : Apart start rs) (i : ℕ)
    (hheeded : ∀ c, p.calls[i]? = some c → c.Heeded start p.shared) :
    Rotating start rs (p.resume (act cfg fails) i) := by
  obtain ⟨-, hsame⟩ | ⟨before, c, after, hi, hcalls, hstep⟩ := p.resume_cases (act cfg fails) i
  · rw [hsame]
    exact h
  have hc : c.Fits start rs p.shared := h.calls c (by simp [hcalls])
  have hgood : Good start rs p.shared (act cfg fails p.shared c) := h.good hc (hheeded c hi)
  have hbuilds : c.rebuilds = false := by
    cases c with
    | login | cleanDelete => exact hc.elim
    | _ => rfl
  have haged := act_ages cfg fails p.shared hbuilds
  have hclock := (act_records cfg fails p.shared c).1
  have hline : InLine start rs (act cfg fails p.shared c).1 := h.inLine hapart hc
  have honward : ∀ c' : Call, c'.Fits start rs p.shared →
      c'.Fits start rs (act cfg fails p.shared c).1 := by
    refine fun c' hc' => hc'.onward hclock.ge fun hover s' hs' hsid hactive => ?_
    obtain ⟨s, hs, hage⟩ := haged.mem hs'
    exact hover s hs (hage.sid.symm.trans hsid) (hage.status hactive)
  rw [hstep]
  refine ⟨?_, ?_, hline.stored, hline.linked, hline.fresh, hline.asked, ?_, ?_⟩
  · show ((act cfg fails p.shared c).1.sessions.map fun s => s.sid).Nodup
    rw [haged.keys]
    exact h.keys
  · intro s' hs' hsid
    obtain ⟨s, hs, hage⟩ := haged.mem hs'
    obtain ⟨huser, hexp, hversion, hauth⟩ := h.rows s hs (hage.sid.symm.trans hsid)
    refine ⟨hage.userID.trans huser, hage.expiresAt.trans hexp, hversion.trans_le hage.version, ?_⟩
    obtain hsame | hraised := hage.authVersion
    · rw [hsame]
      exact hauth
    · cases c with
      | advance a deadline now =>
        rw [← Option.some.inj hraised]
        exact hc
      | _ => cases hraised
  · intro c' hc'
    obtain hc' | hc' := mem_append.1 hc'
    · obtain hc' | hc' := mem_append.1 hc'
      · exact honward c' (h.calls c' (by simp [hcalls, hc']))
      · exact hgood.rest c' (Option.mem_toList.1 hc')
    · exact honward c' (h.calls c' (by simp [hcalls, hc']))
  · exact fun n hn => (hgood.notes n hn).elim (h.answers n) id

/-- What an event may begin. -/
def Event.Allowed (rs : List Rotation) (e : Event) : Prop :=
  e.steady = true ∧ ∀ r ∈ e.rotation, r ∈ rs

theorem Rotating.begins {op : Op} (hallowed : (Event.begin op).Allowed rs) :
    Rotating start rs (step cfg p (.begin op)) := by
  have hcall : ∀ c, op.call cfg p.shared = some c → c.Fits start rs p.shared := by
    intro c hcall
    cases op with
    | get | revoke | revokeByHash | revokeAll =>
      simp only [Op.call] at hcall
      split_ifs at hcall
      cases hcall
      exact trivial
    | login | cleanup => cases hallowed.1
    | rotate userID sid presented next graceSeconds =>
      simp only [Op.call] at hcall
      split_ifs at hcall with hbad
      cases hcall
      simp only [not_or, not_le] at hbad
      exact fun _ => ⟨hallowed.2 _ rfl, le_rfl, hbad.2.1, hbad.1⟩
    | advance a =>
      simp only [Op.call] at hcall
      split_ifs at hcall with hbad
      cases hcall
      simp only [not_or, not_le] at hbad
      exact hbad.2.2.2.1.trans hbad.2.2.2.2
  simp only [step]
  cases hop : op.call cfg p.shared with
  | none => exact h
  | some c =>
    refine ⟨h.keys, h.rows, h.stored, h.linked, h.fresh, h.asked, fun c' hc' => ?_, h.answers⟩
    obtain hc' | hc' := mem_append.1 hc'
    · exact (h.calls c' hc').onward le_rfl id
    · rw [mem_singleton.1 hc']
      exact (hcall c hop).onward le_rfl id

/-- **One event keeps the invariant.** -/
theorem Rotating.step (hapart : Apart start rs) {e : Event}
    (hallowed : e.Allowed rs) (hunhindered : unhindered start.sid p e = true) :
    Rotating start rs (step cfg p e) := by
  cases e with
  | begin op => exact h.begins hallowed
  | resume i fails =>
    refine h.resume hapart i fun c hc => ?_
    rw [unhindered, hc] at hunhindered
    cases c with
    | script e deadline expiration k =>
      cases k with
      | rotated r s | reuseFence r s =>
        intro hsid hrefused
        simpa [hsid, hrefused] using hunhindered
      | _ => trivial
    | confirm s k =>
      rintro r s' rfl hsid halive
      simpa [hsid, halive] using hunhindered
    | _ => trivial
  | account users =>
    exact ⟨h.keys, h.rows, h.stored, h.linked, h.fresh, h.asked,
      fun c hc => (h.calls c hc).onward le_rfl id, h.answers⟩
  | tick d =>
    refine ⟨h.keys, h.rows, h.stored, h.linked, h.fresh, h.asked,
      fun c hc => (h.calls c hc).onward ?_ id, h.answers⟩
    show p.shared.clock ≤ p.shared.clock + d
    omega

end

theorem judged {sh : Shared} {r : Refresh} {s : Session} (tries : ℕ) (deadline : ℤ)
    (hread : ownSession r.userID r.sid sh.sessions = some s) (hne : s.refreshHash ≠ r.presented) :
    Judged sh r s (act cfg fails sh (.rotateRead r tries deadline)) := by
  simp only [act, rotateDecide, hread, if_neg hne]
  refine ⟨fun hunknown => ?_, fun hlive hknown hsome hgrace => ?_,
    fun hlive hknown hsome hlate => ?_⟩
  · split_ifs with hlive h₁ h₂
    · exact ⟨_, rfl⟩
    · exact absurd h₁ (by simp [hunknown])
    · exact absurd h₁ (by simp [hunknown])
    · exact ⟨_, rfl⟩
  · have hmatch : ¬ (s.previousRefreshHash = "" ∨ s.previousRefreshHash ≠ r.presented) := by
      rw [hknown]
      simp [hsome]
    rw [if_pos hlive, if_neg hmatch, if_pos hgrace]
  · have hmatch : ¬ (s.previousRefreshHash = "" ∨ s.previousRefreshHash ≠ r.presented) := by
      rw [hknown]
      simp [hsome]
    rw [if_pos hlive, if_neg hmatch, if_neg (not_le.2 hlate)]

theorem Rotating.refreshed (h : Rotating start rs p) : Refreshed cfg start p := by
  refine ⟨h.stored, h.linked, ?_, h.answers, fun r tries deadline fails _ s hread hne => ?_⟩
  · rw [h.linked]
    exact h.fresh.sublist (tail_sublist _)
  · exact judged tries deadline hread hne

/-- A step outside the condition answers wrongly. -/
theorem Rotating.hindered (h : Rotating start rs p) {e : Event}
    (hnext : Refreshed cfg start (Sessions.step cfg p e)) :
    unhindered start.sid p e = true := by
  cases e with
  | begin | account | tick => rfl
  | resume i fails =>
    rw [unhindered]
    cases hi : p.calls[i]? with
    | none => rfl
    | some c =>
      have hanswers : ∀ n ∈ (act cfg fails p.shared c).1.journal, n.honest start.sid := by
        have hshared : (p.resume (act cfg fails) i).shared = (act cfg fails p.shared c).1 := by
          simp only [Pool.resume, hi]
        rw [← hshared]
        exact hnext.answers
      cases c with
      | script e deadline expiration k =>
        cases k with
        | rotated r s =>
          by_contra hnot
          simp only [Bool.or_eq_true, decide_eq_true_eq, Bool.not_eq_true', not_or, not_not,
            Bool.not_eq_false] at hnot
          obtain ⟨⟨hsid, halive⟩, hrefused⟩ := hnot
          have hnote := hanswers (.refreshed r.sid true false (some .inactive)
            (p.shared.alive r.sid)) (by
              simp only [act, hrefused, if_true]
              exact mem_cons_self)
          obtain ⟨-, herr⟩ := hnote hsid (hsid ▸ halive)
          exact absurd (herr rfl) (by decide)
        | reuseFence r s =>
          by_contra hnot
          simp only [Bool.or_eq_true, decide_eq_true_eq, Bool.not_eq_true', not_or, not_not,
            Bool.not_eq_false] at hnot
          obtain ⟨⟨hsid, halive⟩, hrefused⟩ := hnot
          have hnote := hanswers (.refreshed r.sid false true (some .inactive)
            (p.shared.alive r.sid)) (by
              simp only [act, hrefused, if_true]
              exact mem_cons_self)
          exact absurd (hnote hsid (hsid ▸ halive)).1 (by decide)
        | _ => rfl
      | confirm s k =>
        cases k with
        | rotated r s' =>
          by_contra hnot
          simp only [Bool.or_eq_true, decide_eq_true_eq, Bool.not_eq_true', not_or, not_not,
            Bool.not_eq_false, Bool.not_eq_true] at hnot
          obtain ⟨⟨hsid, halive⟩, hcurrent⟩ := hnot
          -- a row that is counted has the versions of the copy
          have hcount : p.shared.sessions.countP (confirms s (unix p.shared.clock)) ≠ 1 := by
            intro hone
            obtain ⟨row, hrow, hconfirms⟩ := countP_pos_iff.1 (by omega :
              0 < p.shared.sessions.countP (confirms s (unix p.shared.clock)))
            simp only [confirms, Bool.and_eq_true, decide_eq_true_eq] at hconfirms
            have hany : currentCopy p.shared s = true := by
              refine any_eq_true.2 ⟨row, hrow, ?_⟩
              simp only [Bool.and_eq_true, decide_eq_true_eq]
              exact ⟨⟨hconfirms.1.1.1.1, hconfirms.1.2⟩, hconfirms.2⟩
            rw [hany] at hcurrent
            cases hcurrent
          obtain ⟨err, herr, hmem⟩ : ∃ err, (err = Err.invalid ∨ err = Err.inactive) ∧
              Note.refreshed r.sid true false (some err) (p.shared.alive r.sid) ∈
                (act cfg fails p.shared (.confirm s (.rotated r s'))).1.journal := by
            simp only [act]
            split_ifs
            · exact ⟨_, .inl rfl, mem_cons_self⟩
            · exact ⟨_, .inr rfl, mem_cons_self⟩
          obtain ⟨-, hright⟩ := hanswers _ hmem hsid (hsid ▸ halive)
          obtain rfl | rfl := herr
          · exact absurd (hright rfl) (by decide)
          · exact absurd (hright rfl) (by decide)
        | _ => rfl
      | _ => rfl

theorem atRest_rotating (users : List Account) {sessions : List Session}
    (hkeys : (sessions.map fun s => s.sid).Nodup) (hstart : start ∈ sessions)
    (hversion : 0 < start.version) (hauth : 0 < start.userAuthVersion) (clock : ℤ)
    (rs : List Rotation) : Rotating start rs (atRest users sessions clock) := by
  have hrow : ∀ s ∈ sessions, s.sid = start.sid → s = start := fun s hs hsid =>
    inj_on_of_nodup_map hkeys hs hstart hsid
  refine ⟨hkeys, fun s hs hsid => ?_, fun s hs hsid => ?_, rfl, nodup_singleton _,
    fun _ hr => absurd hr not_mem_nil, fun _ hc => absurd hc not_mem_nil,
    fun _ hn => absurd hn not_mem_nil⟩
  · rw [hrow s hs hsid]
    exact ⟨rfl, rfl, hversion, hauth⟩
  · rw [hrow s hs hsid]
    rfl

/-- **Refresh tokens.**  In every interleaving of rotations, advances and revocations, a session
keeps its line of digests and no call leaves it active with swapped digests and an error, or after a
reuse, iff no copy of a rotation and no fence of a reused token is turned away from the cache while
the session is active. -/
theorem refreshed_iff_unhindered (cfg : Config) (users : List Account) {sessions : List Session}
    (hkeys : (sessions.map fun s => s.sid).Nodup) {start : Session} (hstart : start ∈ sessions)
    (hversion : 0 < start.version) (hauth : 0 < start.userAuthVersion) (clock : ℤ)
    {es : List Event} (hsteady : ∀ e ∈ es, e.steady = true)
    (hapart : Apart start (es.filterMap Event.rotation)) :
    Machine.Always (Sessions.step cfg) (Refreshed cfg start) (atRest users sessions clock) es ↔
      Machine.Meets (Sessions.step cfg) (fun p e => unhindered start.sid p e = true)
        (atRest users sessions clock) es := by
  refine Machine.always_iff_meets_of (R := fun _ e => e.Allowed (es.filterMap Event.rotation))
    (fun p h => h.refreshed) (fun p e h hallowed hok => h.step hapart hallowed hok)
    (fun p e h _ hnext => h.hindered hnext)
    (atRest_rotating users hkeys hstart hversion hauth clock _) ?_
  refine Machine.meets_of_forall fun e he => ⟨hsteady e he, fun r hr => ?_⟩
  exact List.mem_filterMap.2 ⟨e, he, hr⟩

end Runs

/-! ### Runs that are, and are not, right -/

/-- A token is refreshed, presented again at once, and again when the grace window is over; one that
is unknown is presented in between. -/
def refreshes : List Event :=
  .begin (.rotate 1 "s" "a" "b" 30) :: resumes 0 6 ++
    .begin (.rotate 1 "s" "a" "b" 30) :: resumes 0 2 ++
    .begin (.rotate 1 "s" "x" "y" 30) :: resumes 0 2 ++
    .tick 31000000000 :: .begin (.rotate 1 "s" "a" "b" 30) :: resumes 0 7

theorem refreshed_iff_unhindered_refreshes :
    (Machine.run (step sampleConfig) (atRest [] [sampleSession] (200 * second))
        refreshes).shared.journal =
        [.refreshed "s" false true (some .refreshReuse) false,
          .refreshed "s" false false (some .refreshInvalid) true,
          .refreshed "s" false false (some .refreshRace) true,
          .refreshed "s" true false none true] ∧
      Machine.Always (step sampleConfig) (Refreshed sampleConfig sampleSession)
        (atRest [] [sampleSession] (200 * second)) refreshes :=
  ⟨by decide +kernel, (refreshed_iff_unhindered sampleConfig [] (by decide)
    (List.mem_singleton.2 rfl) (by decide) (by decide) (200 * second) (by decide)
    ⟨by decide, by decide⟩).2 (by decide +kernel)⟩

/-- The digests are swapped, and the version is advanced before the copy reaches the cache. -/
def outrun : List Event :=
  .begin (.rotate 1 "s" "a" "b" 30) :: resumes 0 3 ++
    .begin (.advance ⟨1, "s", 1, 1, 2⟩) :: resumes 1 5 ++ resumes 0 2

/-- A token is reused, and the version is advanced before the fence reaches the cache. -/
def reused : List Event :=
  .begin (.rotate 1 "s" "a" "b" 30) :: resumes 0 6 ++
    .tick 31000000000 :: .begin (.rotate 1 "s" "a" "b" 30) :: resumes 0 2 ++
    .begin (.advance ⟨1, "s", 1, 1, 2⟩) :: resumes 1 5 ++ resumes 0 2

/-- **An active session has swapped digests and its client an error; and a reused token leaves the
session active.** -/
theorem outrun_not_refreshed :
    (Machine.run (step sampleConfig) (atRest [] [sampleSession] (200 * second))
        outrun).shared.journal =
        [.refreshed "s" true false (some .inactive) true, .answered none] ∧
      ((Machine.run (step sampleConfig) (atRest [] [sampleSession] (200 * second))
        outrun).shared.sessions.map fun s => (s.status, s.refreshHash, s.previousRefreshHash)) =
        [(.active, "b", "a")] ∧
      ¬ Machine.Always (step sampleConfig) (Refreshed sampleConfig sampleSession)
        (atRest [] [sampleSession] (200 * second)) outrun ∧
      (Machine.run (step sampleConfig) (atRest [] [sampleSession] (200 * second))
        reused).shared.journal =
        [.refreshed "s" false true (some .inactive) true, .answered none,
          .refreshed "s" true false none true] ∧
      ¬ Machine.Always (step sampleConfig) (Refreshed sampleConfig sampleSession)
        (atRest [] [sampleSession] (200 * second)) reused := by
  refine ⟨by decide +kernel, by decide +kernel, fun h => ?_, by decide +kernel, fun h => ?_⟩
  · have hnote := h.run.answers (.refreshed "s" true false (some .inactive) true)
      (by decide +kernel) rfl rfl
    exact absurd (hnote.2 rfl) (by decide)
  · have hnote := h.run.answers (.refreshed "s" false true (some .inactive) true)
      (by decide +kernel) rfl rfl
    exact absurd hnote.1 (by decide)

end NexusTok.Sessions
