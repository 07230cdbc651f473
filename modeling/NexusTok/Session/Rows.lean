import NexusTok.Session.Calls

/-!
# What steps do to the rows of sessions

Most steps leave the table of sessions alone; those that do not, logins and cleanups apart, change
some of its rows in place.  Whatever they change, the session stays the same session: its id, its
user, its creation and its expiry stay, and a session that is not active does not become active.

* `Ages` : what may become of a row.
* `act_ages` : what a step makes of the rows.
* `act_frame`, `act_records` : what it leaves alone.
-/

namespace NexusTok.Sessions

open Table (update mem_update)

/-! ### What may become of a row -/

/-- The step inserts or deletes rows, or gives one a new id. -/
def Call.rebuilds : Call → Bool
  | .login .. | .cleanDelete .. => true
  | _ => false

/-- The step may swap digests. -/
def Call.swaps : Call → Bool
  | .rotateSwap .. => true
  | _ => false

/-- The authorization version that a step writes. -/
def Call.raises : Call → Option ℤ
  | .advance a _ _ => some a.nextAuthVersion
  | _ => none

/-- **What may become of a row** by a step of the call. -/
structure Ages (c : Call) (s s' : Session) : Prop where
  sid : s'.sid = s.sid
  userID : s'.userID = s.userID
  createdAt : s'.createdAt = s.createdAt
  expiresAt : s'.expiresAt = s.expiresAt
  status : s'.status = .active → s.status = .active
  version : s.version ≤ s'.version
  authVersion : s'.userAuthVersion = s.userAuthVersion ∨ c.raises = some s'.userAuthVersion
  digests : c.swaps = false → s'.refreshHash = s.refreshHash ∧
    s'.previousRefreshHash = s.previousRefreshHash

section Rows

variable {c : Call} {rows : List Session}

theorem Ages.refl (c : Call) (s : Session) : Ages c s s :=
  ⟨rfl, rfl, rfl, rfl, id, le_rfl, .inl rfl, fun _ => ⟨rfl, rfl⟩⟩

theorem Ages.revoke (c : Call) (now : ℤ) (reason : String) (s : Session) :
    Ages c s (s.revoke now reason) := by
  refine ⟨rfl, rfl, rfl, rfl, fun h => ?_, le_rfl, .inl rfl, fun _ => ⟨rfl, rfl⟩⟩
  cases h

/-- The rows of the table are what became of the rows before. -/
def Aged (c : Call) (rows rows' : List Session) : Prop :=
  ∃ g : Session → Session, rows' = rows.map g ∧ ∀ s, Ages c s (g s)

theorem Aged.refl (c : Call) (rows : List Session) : Aged c rows rows :=
  ⟨id, (List.map_id rows).symm, Ages.refl c⟩

theorem Aged.update {f : Session → Session} (hf : ∀ s, Ages c s (f s)) (q : Session → Bool) :
    Aged c rows (update q f rows) := by
  refine ⟨fun s => if q s = true then f s else s, rfl, fun s => ?_⟩
  dsimp only
  split_ifs
  · exact hf s
  · exact .refl c s

theorem Aged.keys {rows' : List Session} (h : Aged c rows rows') :
    (rows'.map fun s => s.sid) = rows.map fun s => s.sid := by
  obtain ⟨g, rfl, hg⟩ := h
  rw [List.map_map]
  exact List.map_congr_left fun s _ => (hg s).sid

theorem Aged.mem {rows' : List Session} (h : Aged c rows rows') {s' : Session} (hs' : s' ∈ rows') :
    ∃ s ∈ rows, Ages c s s' := by
  obtain ⟨g, rfl, hg⟩ := h
  obtain ⟨s, hs, rfl⟩ := List.mem_map.1 hs'
  exact ⟨s, hs, hg s⟩

end Rows

/-! ### What a step leaves alone -/

/-- Nothing has changed but the cache, the sessions that are gone, and the journal. -/
structure Frame (sh sh' : Shared) : Prop where
  users : sh'.users = sh.users
  sessions : sh'.sessions = sh.sessions
  clock : sh'.clock = sh.clock
  used : sh'.used = sh.used
  issued : sh'.issued = sh.issued
  rotations : sh'.rotations = sh.rotations

section Steps

variable (cfg : Config) (fails : Bool) (sh : Shared) {c : Call}

theorem Frame.refl : Frame sh sh := ⟨rfl, rfl, rfl, rfl, rfl, rfl⟩

theorem Frame.note (n : Note) : Frame sh (sh.note n) := ⟨rfl, rfl, rfl, rfl, rfl, rfl⟩

theorem fail_frame (err : Err) (k : Then) : Frame sh (k.fail sh err) := by
  cases k <;> exact .note sh _

/-- What an operation does after a write to the cache touches no table. -/
theorem proceed_frame (result : Except Err Unit) (k : Then) : Frame sh (proceed sh result k).1 := by
  cases k with
  | denied late => exact .note sh _
  | replaced | cleaned | reuseFinal | revokeFinal | hashFinal | bulkFinal => exact ⟨rfl, rfl, rfl, rfl, rfl, rfl⟩
  | got s late | created s | rotated r s | advanced s =>
    simp only [proceed]
    split
    · exact .refl sh
    · exact .note sh _
    · exact .note sh _
  | reuseFence r s | revokeFence v s | hashFence reason now s | bulkFence v rest batch =>
    cases result with
    | error err => exact .note sh _
    | ok u => exact .refl sh

/-- The step writes rows. -/
def Call.writes : Call → Bool
  | .rotateSwap .. | .reuseUpdate .. | .advance .. | .revoke .. | .hashCommit .. | .bulk ..
  | .login .. | .cleanDelete .. => true
  | _ => false

/-- **A step that writes no rows** touches no table. -/
theorem act_frame (hc : c.writes = false) : Frame sh (act cfg fails sh c).1 := by
  cases c with
  | get sid late =>
    simp only [act]
    split_ifs
    · exact .refl sh
    · split
      · exact .note sh _
      · exact .refl sh
      · exact .note sh _
  | getDeadline | loginRenew | loginCreate | rotateDeadline | advanceClock => exact .refl sh
  | getRead | bulkFind | cleanFind =>
    simp only [act]
    split
    · exact .note sh _
    · exact .refl sh
  | getCheck s late deadline =>
    simp only [act]
    split_ifs <;> exact .refl sh
  | publish e deadline k =>
    simp only [act]
    split
    · exact proceed_frame sh _ k
    · exact .refl sh
  | script e deadline expiration k =>
    simp only [act]
    split_ifs
    · exact proceed_frame sh _ k
    · exact ⟨rfl, rfl, rfl, rfl, rfl, rfl⟩
    · obtain ⟨h₁, h₂, h₃, h₄, h₅, h₆⟩ :=
        proceed_frame { sh with cache := sh.cache.write e expiration sh.clock } (.ok ()) k
      exact ⟨h₁, h₂, h₃, h₄, h₅, h₆⟩
  | completed e deadline k => exact proceed_frame sh _ k
  | confirm s k =>
    simp only [act]
    split_ifs
    · exact fail_frame sh _ k
    · exact proceed_frame sh _ k
    · exact fail_frame sh _ k
  | rotateRead r tries deadline =>
    simp only [act]
    cases ownSession r.userID r.sid sh.sessions with
    | none => exact .note sh _
    | some s =>
      simp only [rotateDecide]
      split_ifs
      · exact .refl sh
      · exact .note sh _
      · exact .note sh _
      · exact .refl sh
      · exact .note sh _
  | revokeRead | hashRead =>
    simp only [act]
    split
    · exact .note sh _
    · split_ifs
      · exact .refl sh
      · exact .note sh _
  | rotateSwap _ _ _ _ | reuseUpdate _ _ | advance _ _ _ | revoke _ _ | hashCommit _ _ _
  | bulk _ _ | login _ _ _ _ _ | cleanDelete _ _ _ => cases hc

/-- **What a step makes of the rows.** -/
theorem act_ages (hc : c.rebuilds = false) :
    Aged c sh.sessions (act cfg fails sh c).1.sessions := by
  cases hw : c.writes with
  | false =>
    rw [(act_frame cfg fails sh hw).sessions]
    exact .refl c _
  | true =>
    cases c with
    | rotateSwap r tries deadline s =>
      simp only [act]
      split_ifs
      · refine Aged.update (fun s' => ?_) _
        exact ⟨rfl, rfl, rfl, rfl, id, le_rfl, .inl rfl, fun h => absurd h Bool.noConfusion⟩
      · cases tries <;> exact .refl _ _
    | reuseUpdate | hashCommit =>
      simp only [act]
      split_ifs
      · exact Aged.update (Ages.revoke _ _ _) _
      · exact .refl _ _
    | advance a deadline now =>
      simp only [act]
      split
      · exact .refl _ _
      · split_ifs
        · refine Aged.update (fun s' => ?_) _
          refine ⟨rfl, rfl, rfl, rfl, id, ?_, .inr rfl, fun _ => ⟨rfl, rfl⟩⟩
          show s'.version ≤ s'.version + 1
          omega
        · exact .refl _ _
    | revoke v s =>
      simp only [act]
      split
      · exact .refl _ _
      · split_ifs
        · exact Aged.update (Ages.revoke _ _ _) _
        · exact .refl _ _
    | bulk v batch => exact Aged.update (Ages.revoke _ _ _) _
    | login _ _ _ _ _ | cleanDelete _ _ _ => cases hc
    | _ => cases hw

/-- The clock stands still in a step, only a swap is a rotation, and only a login issues. -/
theorem act_records (c : Call) : (act cfg fails sh c).1.clock = sh.clock ∧
    (c.swaps = false → (act cfg fails sh c).1.rotations = sh.rotations) ∧
    (c.rebuilds = false → (act cfg fails sh c).1.issued = sh.issued) := by
  cases hw : c.writes with
  | false =>
    have hframe : Frame sh (act cfg fails sh c).1 := act_frame cfg fails sh hw
    exact ⟨hframe.clock, fun _ => hframe.rotations, fun _ => hframe.issued⟩
  | true =>
    cases c with
    | rotateSwap r tries deadline s =>
      refine ⟨?_, fun h => absurd h Bool.noConfusion, fun _ => ?_⟩
      all_goals
        simp only [act]
        split_ifs
        · rfl
        · cases tries <;> rfl
    | reuseUpdate | hashCommit =>
      simp only [act]
      split_ifs <;> exact ⟨rfl, fun _ => rfl, fun _ => rfl⟩
    | advance | revoke =>
      simp only [act]
      split
      · exact ⟨rfl, fun _ => rfl, fun _ => rfl⟩
      · split_ifs <;> exact ⟨rfl, fun _ => rfl, fun _ => rfl⟩
    | bulk | cleanDelete => exact ⟨rfl, fun _ => rfl, fun _ => rfl⟩
    | login s reusableSID deadline renewAt createAt =>
      simp only [act, loginTx]
      split
      · exact ⟨rfl, fun _ => rfl, fun h => absurd h Bool.noConfusion⟩
      · exact ⟨rfl, fun _ => rfl, fun h => absurd h Bool.noConfusion⟩
      · split <;> exact ⟨rfl, fun _ => rfl, fun h => absurd h Bool.noConfusion⟩
    | _ => cases hw

/-! ### Calls that are no logins and no cleanups -/

def Call.plain : Call → Bool
  | .loginRenew .. | .loginCreate .. | .login .. | .cleanFind .. | .cleanDelete .. => false
  | _ => true

/-- Rows were deleted. -/
def Note.deletes : Note → Bool
  | .deleted .. => true
  | _ => false

/-- A step stays among the plain calls, and deletes nothing. -/
structure Plain (sh : Shared) (result : Shared × Option Call) : Prop where
  rest : ∀ c ∈ result.2, c.plain = true
  notes : ∀ n ∈ result.1.journal, n.deletes = true → n ∈ sh.journal

variable {sh}

theorem Plain.move {sh' : Shared} {c : Call} (hsame : sh'.journal = sh.journal)
    (hc : c.plain = true) : Plain sh (sh', some c) := by
  refine ⟨?_, fun n hn _ => ?_⟩
  · rintro c' ⟨⟩
    exact hc
  · have hn : n ∈ sh'.journal := hn
    rwa [hsame] at hn

theorem Plain.return {sh' : Shared} {n : Note} (hsame : sh'.journal = n :: sh.journal)
    (hn : n.deletes = false) : Plain sh (sh', none) := by
  refine ⟨?_, fun n' hn' hdeletes => ?_⟩
  · rintro c ⟨⟩
  · have hn' : n' ∈ sh'.journal := hn'
    rw [hsame] at hn'
    obtain rfl | hn' := List.mem_cons.1 hn'
    · rw [hn] at hdeletes
      cases hdeletes
    · exact hn'

theorem bulkNext_plain (v : Revocation) (batch fences : List Session) :
    (bulkNext v batch fences).plain = true := by
  cases fences <;> rfl

theorem bulkFinals_plain (v : Revocation) (revoked : List Session) :
    (bulkFinals v revoked).plain = true := by
  cases revoked <;> rfl

theorem cleanFinals_plain (s : Session) (deadline : ℤ) (stale : List Session) :
    (cleanFinals s deadline stale).plain = true := by
  cases stale <;> rfl

theorem proceed_plain (result : Except Err Unit) (k : Then) : Plain sh (proceed sh result k) := by
  cases k with
  | denied | reuseFinal | revokeFinal | hashFinal => exact .return rfl rfl
  | replaced sid s deadline => exact .move rfl rfl
  | cleaned sid rest s deadline => exact .move rfl (cleanFinals_plain _ _ _)
  | bulkFinal v sid rest => exact .move rfl (bulkFinals_plain _ _)
  | got s late | created s | rotated r s | advanced s =>
    simp only [proceed]
    split
    · exact .move rfl rfl
    · exact .return rfl rfl
    · exact .return rfl rfl
  | reuseFence r s | revokeFence v s | hashFence reason now s =>
    cases result with
    | error err => exact .return rfl rfl
    | ok u => exact .move rfl rfl
  | bulkFence v rest batch =>
    cases result with
    | error err => exact .return rfl rfl
    | ok u => exact .move rfl (bulkNext_plain _ _ _)

theorem fail_plain (err : Err) (k : Then) : Plain sh (k.fail sh err, none) := by
  cases k <;> exact .return rfl rfl

/-- **A plain call** stays plain. -/
theorem act_plain {c : Call} (hc : c.plain = true) : Plain sh (act cfg fails sh c) := by
  cases c with
  | get sid late =>
    simp only [act]
    split_ifs
    · exact .move rfl rfl
    · split
      · exact .return rfl rfl
      · exact .move rfl rfl
      · exact .return rfl rfl
  | getDeadline | rotateDeadline | advanceClock => exact .move rfl rfl
  | getRead sid late deadline =>
    simp only [act]
    split
    · exact .return rfl rfl
    · exact .move rfl rfl
  | getCheck | hashCommit =>
    simp only [act]
    split_ifs <;> exact .move rfl rfl
  | publish e deadline k =>
    simp only [act]
    split
    · exact proceed_plain _ k
    · exact .move rfl rfl
  | script e deadline expiration k =>
    simp only [act]
    split_ifs
    · exact proceed_plain _ k
    · exact .move rfl rfl
    · have hplain : Plain { sh with cache := sh.cache.write e expiration sh.clock }
          (proceed { sh with cache := sh.cache.write e expiration sh.clock } (.ok ()) k) :=
        proceed_plain _ k
      exact ⟨hplain.rest, hplain.notes⟩
  | completed e deadline k => exact proceed_plain _ k
  | confirm s k =>
    simp only [act]
    split_ifs
    · exact fail_plain _ k
    · exact proceed_plain _ k
    · exact fail_plain _ k
  | rotateRead r tries deadline =>
    simp only [act]
    cases ownSession r.userID r.sid sh.sessions with
    | none => exact .return rfl rfl
    | some s =>
      simp only [rotateDecide]
      split_ifs
      · exact .move rfl rfl
      · exact .return rfl rfl
      · exact .return rfl rfl
      · exact .move rfl rfl
      · exact .return rfl rfl
  | rotateSwap r tries deadline s =>
    simp only [act]
    split_ifs
    · exact .move rfl rfl
    · cases tries with
      | zero => exact .return rfl rfl
      | succ tries => exact .move rfl rfl
  | reuseUpdate r s =>
    simp only [act]
    split_ifs
    · exact .move rfl rfl
    · exact .return rfl rfl
  | advance | revokeRead | revoke | hashRead =>
    simp only [act]
    split
    · exact .return rfl rfl
    · split_ifs
      · exact .move rfl rfl
      · exact .return rfl rfl
  | bulkFind v =>
    simp only [act]
    split
    · exact .return rfl rfl
    · exact .move rfl (bulkNext_plain _ _ _)
  | bulk v batch => exact .move rfl (bulkFinals_plain _ _)
  | loginRenew | loginCreate | login | cleanFind | cleanDelete => cases hc

end Steps

end NexusTok.Sessions
