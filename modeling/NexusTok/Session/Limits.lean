import Mathlib.Data.List.Perm.Subperm
import NexusTok.Session.Rows

/-!
# Limits on login sessions

A login counts the sessions that the user was issued within the issuance window, and the ones that
are active, before it inserts another row; a renewal takes over a row and counts nothing.  Both have
read the clock before they wait for the row of the user, and the row that is inserted brings its own
creation time along, from before the call.

So a renewal may revive a row that has expired meanwhile, and the window that is counted may begin
later than the window that ends at the creation.  `roomy` excludes just these.  The cleanups read
their clock early as well, which is harmless, since they only delete what is old already.

* `Within` : the limits, and what cleanups have deleted.
* `within_of_roomy` : over every run whose logins are roomy.
-/

namespace NexusTok.Sessions

open List

open Table (update mem_update)

/-! ### What is to hold -/

def Session.issue (s : Session) : Issue := ⟨s.userID, s.createdAt⟩

/-- The session was issued to the user after `a`. -/
def Issue.after (userID a : ℤ) (i : Issue) : Bool :=
  decide (i.userID = userID) && decide (a < i.createdAt)

/-- The session was issued to the user after `a`, and not after `b`. -/
def Issue.within (userID a b : ℤ) (i : Issue) : Bool :=
  i.after userID a && decide (i.createdAt ≤ b)

/-- **The limits.**  The sessions that were issued, deleted ones included, are those that count for
the windows. -/
structure Within (cfg : Config) (sh : Shared) : Prop where
  active : ∀ userID,
    sh.sessions.countP (activeOf userID (unix sh.clock)) ≤ cfg.activeLimit
  covered : (sh.sessions.map Session.issue).Subperm sh.issued
  issued : ∀ e ∈ sh.issued,
    sh.issued.countP (Issue.within e.userID (e.createdAt - cfg.issuanceWindowSeconds)
      e.createdAt) ≤ cfg.issuanceLimit
  deleted : ∀ rows clock, .deleted rows clock ∈ sh.journal → ∀ r ∈ rows,
    activeOf r.userID (unix clock) r = false ∧
      issuedAfter r.userID (unix clock - cfg.issuanceWindowSeconds) r = false

/-- When the session of a login was created. -/
def createdAtOf (sh : Shared) (s : Session) : ℤ :=
  if s.createdAt = 0 then unix sh.clock else s.createdAt

/-- A renewal takes over a row that has not expired, or the user has room for it; and a creation
would also have found room if it had counted from the creation time of its row, deleted rows
included. -/
def Call.roomy (cfg : Config) (sh : Shared) : Call → Bool
  | .login s reusableSID _ renewAt createAt =>
    match renew cfg sh.users sh.sessions s reusableSID renewAt with
    | .error _ => true
    | .ok (some (_, _, old)) =>
      decide (unix sh.clock < old.expiresAt) || decide (s.expiresAt ≤ unix sh.clock) ||
        decide (sh.sessions.countP (activeOf s.userID (unix sh.clock)) < cfg.activeLimit)
    | .ok none =>
      match create cfg sh.users sh.sessions s createAt (unix sh.clock) with
      | .error _ => true
      | .ok _ =>
        decide (sh.issued.countP (Issue.after s.userID
          (createdAtOf sh s - cfg.issuanceWindowSeconds)) < cfg.issuanceLimit)
  | _ => true

/-- The event is no step of a login without room. -/
def roomy (cfg : Config) (p : Pool Shared Call) : Event → Bool
  | .resume i _ => p.calls[i]?.all fun c => c.roomy cfg p.shared
  | _ => true

/-! ### Counting -/

section Counting

variable {cfg : Config} {rows rows' : List Session} {c : Call}

theorem activeOf_iff {userID now : ℤ} {s : Session} :
    activeOf userID now s = true ↔ s.userID = userID ∧ s.status = .active ∧ now < s.expiresAt := by
  simp only [activeOf, Bool.and_eq_true, decide_eq_true_eq, and_assoc]

theorem active_le_of_le (rows : List Session) (userID : ℤ) {now now' : ℤ} (h : now ≤ now') :
    rows.countP (activeOf userID now') ≤ rows.countP (activeOf userID now) := by
  refine countP_mono_left fun s _ hs => ?_
  rw [activeOf_iff] at hs ⊢
  exact ⟨hs.1, hs.2.1, h.trans_lt hs.2.2⟩

theorem Ages.active {s s' : Session} (h : Ages c s s') {userID now : ℤ}
    (hs' : activeOf userID now s' = true) : activeOf userID now s = true := by
  rw [activeOf_iff] at hs' ⊢
  rw [← h.userID, ← h.expiresAt]
  exact ⟨hs'.1, h.status hs'.2.1, hs'.2.2⟩

theorem Aged.active_le (h : Aged c rows rows') (userID now : ℤ) :
    rows'.countP (activeOf userID now) ≤ rows.countP (activeOf userID now) := by
  obtain ⟨g, rfl, hg⟩ := h
  rw [countP_map]
  exact countP_mono_left fun s _ hs => (hg s).active hs

theorem Aged.issue (h : Aged c rows rows') : rows'.map Session.issue = rows.map Session.issue := by
  obtain ⟨g, rfl, hg⟩ := h
  rw [map_map]
  refine map_congr_left fun s _ => ?_
  show Issue.mk (g s).userID (g s).createdAt = Issue.mk s.userID s.createdAt
  rw [(hg s).userID, (hg s).createdAt]

/-- The sessions that are revoked because they were never used age as all revoked ones do. -/
theorem withoutStale_aged (c : Call) (userID now : ℤ) (rows : List Session) :
    Aged c rows (withoutStale userID now rows) :=
  .update (Ages.revoke c now "inactive_login_cleanup") _

theorem within_le_after (userID b : ℤ) {a a' : ℤ} (h : a ≤ a') (issued : List Issue) :
    issued.countP (Issue.within userID a' b) ≤ issued.countP (Issue.after userID a) := by
  refine countP_mono_left fun i _ hi => ?_
  simp only [Issue.within, Issue.after, Bool.and_eq_true, decide_eq_true_eq] at hi ⊢
  exact ⟨hi.1.1, h.trans_lt hi.1.2⟩

/-- **A session is issued** while few were issued since the window that ends with it began. -/
theorem issued_le {limit : ℕ} {window : ℤ} {issued : List Issue} {new : Issue} (hwindow : 0 < window)
    (h : ∀ e ∈ issued, issued.countP (Issue.within e.userID (e.createdAt - window) e.createdAt) ≤
      limit)
    (hroom : issued.countP (Issue.after new.userID (new.createdAt - window)) < limit) :
    ∀ e ∈ new :: issued,
      (new :: issued).countP (Issue.within e.userID (e.createdAt - window) e.createdAt) ≤
        limit := by
  intro e he
  cases hin : Issue.within e.userID (e.createdAt - window) e.createdAt new with
  | false =>
    rw [countP_cons_of_neg (by simp [hin])]
    obtain rfl | he := mem_cons.1 he
    · -- the session is in the window that ends with it
      have hself : Issue.within e.userID (e.createdAt - window) e.createdAt e = true := by
        simp [Issue.within, Issue.after, hwindow]
      rw [hself] at hin
      cases hin
    · exact h e he
  | true =>
    rw [countP_cons_of_pos hin]
    simp only [Issue.within, Issue.after, Bool.and_eq_true, decide_eq_true_eq] at hin
    have hle := within_le_after e.userID e.createdAt
      (show new.createdAt - window ≤ e.createdAt - window by omega) issued
    rw [hin.1.1] at hroom
    omega

end Counting

/-! ### Steps -/

/-- The clock was read. -/
def Call.Timed (sh : Shared) : Call → Prop
  | .login _ _ _ _ createAt => createAt ≤ unix sh.clock
  | .cleanFind _ now | .cleanDelete _ now _ => now ≤ unix sh.clock
  | _ => True

/-- What a step leaves, of the tables and of the call. -/
structure Kept (cfg : Config) (result : Shared × Option Call) : Prop where
  within : Within cfg result.1
  keys : (result.1.sessions.map fun s => s.sid).Nodup
  rest : ∀ c ∈ result.2, c.Timed result.1

section Steps

variable {cfg : Config} {fails : Bool} {sh : Shared}

theorem Call.Timed.later {c : Call} (h : c.Timed sh) {sh' : Shared} (hclock : sh.clock ≤ sh'.clock) :
    c.Timed sh' := by
  have hunix : unix sh.clock ≤ unix sh'.clock := Int.ediv_le_ediv (by decide) hclock
  cases c with
  | login | cleanFind | cleanDelete => exact le_trans h hunix
  | _ => trivial

theorem timed_of_plain {c : Call} (hc : c.plain = true) : c.Timed sh := by
  cases c with
  | login | cleanFind | cleanDelete => cases hc
  | _ => trivial

/-- A note that deletes nothing changes no limit. -/
theorem Within.note (h : Within cfg sh) {n : Note} (hn : n.deletes = false) :
    Within cfg (sh.note n) := by
  refine ⟨h.active, h.covered, h.issued, fun rows clock hdeleted => ?_⟩
  obtain heq | hdeleted := mem_cons.1 hdeleted
  · rw [← heq] at hn
    cases hn
  · exact h.deleted rows clock hdeleted

/-- **A call that is no login and no cleanup.** -/
theorem Within.plain (h : Within cfg sh) (hkeys : (sh.sessions.map fun s => s.sid).Nodup) {c : Call}
    (hc : c.plain = true) : Kept cfg (act cfg fails sh c) := by
  have hbuilds : c.rebuilds = false := by
    cases c with
    | login | cleanDelete => cases hc
    | _ => rfl
  have haged := act_ages cfg fails sh hbuilds
  obtain ⟨hclock, -, hissued⟩ := act_records cfg fails sh c
  have hplain : Plain sh (act cfg fails sh c) := act_plain cfg fails hc
  refine ⟨⟨fun userID => ?_, ?_, ?_, ?_⟩, ?_, fun c' hc' => timed_of_plain (hplain.rest c' hc')⟩
  · rw [hclock]
    exact (haged.active_le userID _).trans (h.active userID)
  · rw [haged.issue, hissued hbuilds]
    exact h.covered
  · rw [hissued hbuilds]
    exact h.issued
  · exact fun rows clock hdeleted => h.deleted rows clock (hplain.notes _ hdeleted rfl)
  · rw [haged.keys]
    exact hkeys

/-- **A renewal** takes over a row. -/
theorem Within.renews (h : Within cfg sh) (hkeys : (sh.sessions.map fun s => s.sid).Nodup)
    {users : List Account} {session : Session} {reusableSID : String} {now : ℤ}
    {rows : List Session} {s old : Session}
    (hrenew : renew cfg users sh.sessions session reusableSID now = .ok (some (rows, s, old)))
    (hroomy : unix sh.clock < old.expiresAt ∨ session.expiresAt ≤ unix sh.clock ∨
      sh.sessions.countP (activeOf session.userID (unix sh.clock)) < cfg.activeLimit) :
    Within cfg { sh with sessions := rows } ∧ (rows.map fun s => s.sid).Nodup := by
  obtain ⟨existing, hmem, hlive, huser, rfl, -, rfl, hfree⟩ := renew_cases hrenew
  have hactive : existing.status = .active := (live_iff.1 hlive).1
  obtain ⟨before, after, hsplit⟩ := append_of_mem hmem
  have hrows : update (fun s => decide (s.sid = existing.sid)) (fun s => s.renew cfg session now)
      sh.sessions = before ++ existing.renew cfg session now :: after := by
    rw [hsplit] at hkeys ⊢
    exact Table.update_split hkeys
  refine ⟨⟨fun userID => ?_, ?_, h.issued, h.deleted⟩, ?_⟩
  · show List.countP (activeOf userID (unix sh.clock)) (update _ _ sh.sessions) ≤ cfg.activeLimit
    have hcount := h.active userID
    rw [hrows, countP_append, countP_cons]
    rw [hsplit, countP_append, countP_cons] at hcount hroomy
    cases hnew : activeOf userID (unix sh.clock) (existing.renew cfg session now) with
    | false =>
      simp only [Bool.false_eq_true, if_false]
      omega
    | true =>
      -- the row counts for its user now; it did before, or there is room
      obtain ⟨huserID, -, hexp⟩ := activeOf_iff.1 hnew
      have huserID : existing.userID = userID := huserID
      have hexp : unix sh.clock < session.expiresAt := hexp
      rw [← huserID] at hcount ⊢
      rw [← huser] at hroomy
      obtain hold | hnone | hroom := hroomy
      · have hcounted : activeOf existing.userID (unix sh.clock) existing = true :=
          activeOf_iff.2 ⟨rfl, hactive, hold⟩
        rw [hcounted] at hcount
        simpa using hcount
      · omega
      · simp only [if_true]
        split_ifs at hroom <;> omega
  · show ((update _ _ sh.sessions).map Session.issue).Subperm sh.issued
    have hcovered := h.covered
    rw [hsplit, map_append, map_cons] at hcovered
    rw [hrows, map_append, map_cons]
    exact hcovered
  · rw [hrows]
    rw [hsplit, map_append, map_cons] at hkeys
    rw [map_append, map_cons]
    obtain hsame | hfree := hfree
    · show (_ ++ session.sid :: _).Nodup
      rw [hsame]
      exact hkeys
    · have hothers := (nodup_cons.1 (perm_middle.nodup_iff.1 hkeys)).2
      refine perm_middle.nodup_iff.2 (nodup_cons.2 ⟨?_, hothers⟩)
      intro hmem'
      rw [← map_append] at hmem'
      obtain ⟨r, hr, hrsid⟩ := mem_map.1 hmem'
      refine hfree r ?_ hrsid
      rw [hsplit]
      obtain hr | hr := mem_append.1 hr
      · exact mem_append_left _ hr
      · exact mem_append_right _ (mem_cons_of_mem _ hr)

/-- **A creation** inserts a row. -/
theorem Within.creates (h : Within cfg sh) (hkeys : (sh.sessions.map fun s => s.sid).Nodup)
    {users : List Account} {session : Session} {now : ℤ} {rows stale : List Session} {s : Session}
    (hcreate : create cfg users sh.sessions session now (unix sh.clock) = .ok (rows, s, stale))
    (hnow : now ≤ unix sh.clock)
    (hroomy : sh.issued.countP (Issue.after session.userID
      (createdAtOf sh session - cfg.issuanceWindowSeconds)) < cfg.issuanceLimit) :
    Within cfg { sh with sessions := rows, issued := ⟨s.userID, s.createdAt⟩ :: sh.issued } ∧
      (rows.map fun s => s.sid).Nodup := by
  obtain ⟨-, hactive, hfill, hfree, rfl, -⟩ := create_cases hcreate
  obtain ⟨hsid, huser, -, -, -, hcreated⟩ := fill_cases hfill
  have haged := withoutStale_aged (.bulkFind ⟨0, "", "", 0⟩) session.userID now sh.sessions
  refine ⟨⟨fun userID => ?_, ?_, ?_, h.deleted⟩, ?_⟩
  · show List.countP (activeOf userID (unix sh.clock)) (_ ++ [s]) ≤ cfg.activeLimit
    rw [countP_append, countP_singleton]
    by_cases hsame : userID = session.userID
    · subst hsame
      have hle := active_le_of_le (withoutStale session.userID now sh.sessions) session.userID hnow
      split_ifs <;> omega
    · have hother : activeOf userID (unix sh.clock) s = false := by
        rw [Bool.eq_false_iff]
        intro hs
        exact hsame ((activeOf_iff.1 hs).1.symm.trans huser)
      rw [hother]
      have hle := haged.active_le userID (unix sh.clock)
      have hbound := h.active userID
      simp only [Bool.false_eq_true, if_false]
      omega
  · show ((_ ++ [s]).map Session.issue).Subperm (s.issue :: sh.issued)
    rw [map_append, haged.issue]
    refine (perm_append_comm).subperm.trans ?_
    exact (subperm_cons s.issue).2 h.covered
  · refine issued_le cfg.window_pos h.issued ?_
    show sh.issued.countP (Issue.after s.userID (s.createdAt - _)) < _
    rw [huser, hcreated]
    exact hroomy
  · rw [map_append, haged.keys, map_singleton]
    refine nodup_append.2 ⟨hkeys, nodup_singleton _, ?_⟩
    intro a ha b hb
    rw [mem_singleton.1 hb]
    rw [← haged.keys] at ha
    obtain ⟨r, hr, rfl⟩ := mem_map.1 ha
    exact hfree r hr

/-- What an expired or old row no longer counts for. -/
theorem condition_old {kind : Cleanup} {now clock : ℤ} (hnow : now ≤ clock) {s : Session}
    (h : kind.condition cfg now s = true) :
    activeOf s.userID clock s = false ∧
      issuedAfter s.userID (clock - cfg.issuanceWindowSeconds) s = false := by
  have hfacts : (s.expiresAt < now ∨ s.status = .revoked) ∧
      s.createdAt ≤ now - cfg.issuanceWindowSeconds := by
    cases kind with
    | expired =>
      simp only [Cleanup.condition, Bool.and_eq_true, decide_eq_true_eq] at h
      exact ⟨.inl h.1.1, h.1.2⟩
    | revoked =>
      simp only [Cleanup.condition, Bool.and_eq_true, decide_eq_true_eq] at h
      exact ⟨.inr h.1.1.1, h.2⟩
  obtain ⟨hdone, hcreated⟩ := hfacts
  constructor
  · rw [Bool.eq_false_iff]
    intro hactive
    obtain ⟨-, hstatus, hexp⟩ := activeOf_iff.1 hactive
    obtain hexpired | hrevoked := hdone
    · omega
    · rw [hstatus] at hrevoked
      cases hrevoked
  · rw [Bool.eq_false_iff]
    intro hissued
    simp only [issuedAfter, Bool.and_eq_true, decide_eq_true_eq] at hissued
    omega

/-- **A cleanup** deletes rows that count for nothing. -/
theorem Within.deletes (h : Within cfg sh) (kind : Cleanup) {now : ℤ} (hnow : now ≤ unix sh.clock)
    (doomed : Session → Bool) (hdoomed : ∀ s, doomed s = true → kind.condition cfg now s = true) :
    Within cfg ({ sh with sessions := sh.sessions.filter fun s => !doomed s }.note
      (.deleted (sh.sessions.filter doomed) sh.clock)) := by
  have hsub : (sh.sessions.filter fun s => !doomed s).Sublist sh.sessions := filter_sublist
  refine ⟨fun userID => ?_, ?_, h.issued, fun rows clock hdeleted r hr => ?_⟩
  · exact (hsub.countP_le).trans (h.active userID)
  · exact (hsub.map _).subperm.trans h.covered
  · obtain heq | hdeleted := mem_cons.1 hdeleted
    · rw [Note.deleted.injEq] at heq
      obtain ⟨rfl, rfl⟩ := heq
      exact condition_old hnow (hdoomed r (mem_filter.1 hr).2)
    · exact h.deleted rows clock hdeleted r hr

theorem Within.act (h : Within cfg sh) (hkeys : (sh.sessions.map fun s => s.sid).Nodup) {c : Call}
    (hc : c.Timed sh) (hroomy : c.roomy cfg sh = true) : Kept cfg (act cfg fails sh c) := by
  cases hplain : c.plain with
  | true => exact h.plain hkeys hplain
  | false =>
    cases c with
    | loginRenew s reusableSID deadline =>
      refine ⟨h, hkeys, ?_⟩
      rintro c ⟨⟩
      exact trivial
    | loginCreate s reusableSID deadline renewAt =>
      refine ⟨h, hkeys, ?_⟩
      rintro c ⟨⟩
      exact le_refl (unix sh.clock)
    | login s reusableSID deadline renewAt createAt =>
      simp only [Sessions.act, loginTx]
      simp only [Call.roomy] at hroomy
      cases hrenew : renew cfg sh.users sh.sessions s reusableSID renewAt with
      | error err =>
        refine ⟨h.note rfl, hkeys, ?_⟩
        rintro c ⟨⟩
      | ok renewed =>
        rw [hrenew] at hroomy
        cases renewed with
        | some renewed =>
          obtain ⟨rows, s', old⟩ := renewed
          simp only [Bool.or_eq_true, decide_eq_true_eq, or_assoc] at hroomy
          obtain ⟨hwithin, hkeys'⟩ := h.renews hkeys hrenew hroomy
          refine ⟨hwithin, hkeys', ?_⟩
          rintro c ⟨⟩
          exact trivial
        | none =>
          cases hcreate : create cfg sh.users sh.sessions s createAt (unix sh.clock) with
          | error err =>
            refine ⟨h.note rfl, hkeys, ?_⟩
            rintro c ⟨⟩
          | ok created =>
            obtain ⟨rows, s', stale⟩ := created
            simp only [hcreate, decide_eq_true_eq] at hroomy
            obtain ⟨hwithin, hkeys'⟩ := h.creates hkeys hcreate hc hroomy
            refine ⟨hwithin, hkeys', ?_⟩
            rintro c ⟨⟩
            exact timed_of_plain (cleanFinals_plain _ _ _)
    | cleanFind kind now =>
      simp only [Sessions.act]
      split
      · refine ⟨h.note rfl, hkeys, ?_⟩
        rintro c ⟨⟩
      · refine ⟨h, hkeys, ?_⟩
        rintro c ⟨⟩
        exact hc
    | cleanDelete kind now sids =>
      have hwithin := h.deletes kind hc
        (fun s => decide (s.sid ∈ sids.take cleanupBatchSize) && kind.condition cfg now s)
        fun s hs => (Bool.and_eq_true_iff.1 hs).2
      refine ⟨hwithin, hkeys.sublist (filter_sublist.map _), fun c hrest => ?_⟩
      simp only [Sessions.act] at hrest ⊢
      split at hrest
      · cases hrest
        exact hc
      · cases hrest
        exact hc
    | _ => cases hplain

end Steps

/-! ### Runs -/

/-- The invariant. -/
structure Limited (cfg : Config) (p : Pool Shared Call) : Prop where
  within : Within cfg p.shared
  keys : (p.shared.sessions.map fun s => s.sid).Nodup
  calls : ∀ c ∈ p.calls, c.Timed p.shared

section Runs

variable {cfg : Config} {p : Pool Shared Call}

theorem Op.call_timed {op : Op} {sh : Shared} {c : Call} (h : op.call cfg sh = some c) :
    c.Timed sh := by
  cases op with
  | cleanup kind =>
    cases h
    exact le_refl (unix sh.clock)
  | login s reusableSID =>
    cases h
    exact trivial
  | get | rotate | advance | revoke | revokeByHash | revokeAll =>
    simp only [Op.call] at h
    split_ifs at h
    cases h
    exact trivial

theorem Limited.step (h : Limited cfg p) {e : Event} (hroomy : roomy cfg p e = true) :
    Limited cfg (step cfg p e) := by
  cases e with
  | begin op =>
    simp only [Sessions.step]
    cases hop : op.call cfg p.shared with
    | none => exact h
    | some c =>
      obtain ⟨hactive, hcovered, hissued, hdeleted⟩ := h.within
      refine ⟨⟨hactive, hcovered, hissued, hdeleted⟩, h.keys, fun c' hc' => ?_⟩
      obtain hc' | hc' := mem_append.1 hc'
      · exact (h.calls c' hc').later le_rfl
      · rw [mem_singleton.1 hc']
        exact (Op.call_timed hop).later le_rfl
  | account users =>
    obtain ⟨hactive, hcovered, hissued, hdeleted⟩ := h.within
    exact ⟨⟨hactive, hcovered, hissued, hdeleted⟩, h.keys,
      fun c hc => (h.calls c hc).later le_rfl⟩
  | tick d =>
    have hclock : p.shared.clock ≤ p.shared.clock + d := by omega
    obtain ⟨hactive, hcovered, hissued, hdeleted⟩ := h.within
    refine ⟨⟨fun userID => ?_, hcovered, hissued, hdeleted⟩, h.keys,
      fun c hc => (h.calls c hc).later hclock⟩
    exact (active_le_of_le _ _ (Int.ediv_le_ediv (by decide) hclock)).trans (hactive userID)
  | resume i fails =>
    obtain ⟨-, hsame⟩ | ⟨before, c, after, hi, hcalls, hstep⟩ := p.resume_cases (act cfg fails) i
    · rw [Sessions.step, hsame]
      exact h
    · have hkept : Kept cfg (act cfg fails p.shared c) := by
        refine h.within.act h.keys (h.calls c (by simp [hcalls])) ?_
        rwa [roomy, hi] at hroomy
      have hclock := (act_records cfg fails p.shared c).1
      rw [Sessions.step, hstep]
      refine ⟨hkept.within, hkept.keys, fun c' hc' => ?_⟩
      obtain hc' | hc' := mem_append.1 hc'
      · obtain hc' | hc' := mem_append.1 hc'
        · exact (h.calls c' (by simp [hcalls, hc'])).later hclock.ge
        · exact hkept.rest c' (Option.mem_toList.1 hc')
      · exact (h.calls c' (by simp [hcalls, hc'])).later hclock.ge

end Runs

/-! ### Runs that are, and are not, within the limits -/

def sampleAccount : Account := ⟨1, true, 1⟩

/-- Three logins with room for two, and a cleanup when all has expired. -/
def threeLogins : List Event :=
  .begin (.login { sampleSession with createdAt := 200 } "") :: resumes 0 6 ++
    .begin (.login { sampleSession with sid := "t", createdAt := 200 } "") :: resumes 0 6 ++
    .begin (.login { sampleSession with sid := "u", createdAt := 200 } "") :: resumes 0 3 ++
    .tick 200000000000000 :: .begin (.cleanup .expired) :: resumes 0 3

theorem atRest_within (cfg : Config) (users : List Account) (clock : ℤ) :
    Within cfg (atRest users [] clock).shared :=
  ⟨fun _ => Nat.zero_le _, .refl _, fun _ he => absurd he not_mem_nil,
    fun _ _ hn => absurd hn not_mem_nil⟩

/-- Three sessions of a user that were issued at once, and revoked. -/
def issuedAtOnce : List Session :=
  ["x", "y", "z"].map fun sid =>
    { sampleSession with
        sid := sid, createdAt := 1000, status := .revoked, revokedAt := 1500 }

/-- A login with a session that is one second old. -/
def oneSecondLate : List Event :=
  .begin (.login { sampleSession with createdAt := 4599, lastActiveAt := 4599 } "") :: resumes 0 3

/-- One session that is about to expire, and another one. -/
def aboutToExpire : List Session :=
  [{ sampleSession with expiresAt := 200 }, { sampleSession with sid := "t" }]

/-- A renewal has read the clock when the session expires, and another login comes first. -/
def renewedLate : List Event :=
  .begin (.login { sampleSession with sid := "u", createdAt := 199 } "s") :: resumes 0 2 ++
    .tick 1000000000 ::
    .begin (.login { sampleSession with sid := "v", createdAt := 200 } "") :: resumes 1 6 ++
    resumes 0 1

end NexusTok.Sessions
