import NexusTok.Session.Fates

/-!
# Revoked sessions stay revoked

Once a revocation has returned, or a renewal has replaced a session id, nobody who asks for the
session later is told that it is active, however late the copies arrive that were read before.

It needs that the tombstone is really written.  The script refuses it when the cache holds a newer
version, and `RevokeUserSession` and the revocation of a reused token publish a copy that they have
read before their fence.  When the fence has expired and the version was advanced meanwhile, the
active entry of the newer version stays.  `published` excludes just that.

* `Upheld.act` : every step of every call, for some later fates.
* `gone_of_published` : over every run whose tombstones are all written.
-/

namespace NexusTok.Sessions

open List Bool

open Table (update mem_update mem_update_of_mem update_keys)

/-! ### What a run is to meet -/

/-- The event does not lose such a tombstone to a newer version. -/
def published (p : Pool Shared Call) : Event → Bool
  | .resume i _ =>
    match p.calls[i]? with
    | some (.script e _ _ k) => !k.stale || !refuses (p.shared.cache.find e.sid p.shared.clock) e
    | _ => true
  | _ => true

/-- A login takes a session id that was never taken. -/
def newSID (p : Pool Shared Call) : Event → Bool
  | .begin op => op.takes.all fun sid => decide (sid ∉ p.shared.used)
  | _ => true

/-! ### Logins -/

/-- A session begins. -/
def launch (F : Fates) (sid : String) (f : Fate) : Fates := fun sid' =>
  if sid' = sid then some f else F sid'

variable {sid reason : String} {s : Session}

section Rows

variable {F F' F'' : Fates} {t t' t'' : ℤ} {rows : List Session}

theorem launch_self (F : Fates) (sid : String) (f : Fate) : launch F sid f sid = some f :=
  if_pos rfl

theorem launch_ne (F : Fates) {sid' : String} (f : Fate) (h : sid' ≠ sid) :
    launch F sid f sid' = F sid' :=
  if_neg h

theorem launch_later (t : ℤ) (h : F sid = none) (f : Fate) : Later F t (launch F sid f) t := by
  refine ⟨le_rfl, fun sid' g hg => ⟨g, ?_, rfl, le_rfl, le_rfl, fun _ => rfl⟩⟩
  rw [launch_ne F f]
  · exact hg
  · rintro rfl
    rw [h] at hg
    cases hg

theorem Later.trans (h : Later F t F' t') (h' : Later F' t' F'' t'') : Later F t F'' t'' := by
  refine ⟨h.clock.trans h'.clock, fun sid f hf => ?_⟩
  obtain ⟨f', hf', hexp, hver, hlimit, hsame⟩ := h.fate sid f hf
  obtain ⟨f'', hf'', hexp', hver', hlimit', hsame'⟩ := h'.fate sid f' hf'
  refine ⟨f'', hf'', hexp'.trans hexp, hver.trans hver', hlimit.trans hlimit', fun hd => ?_⟩
  have heq := hsame hd
  rw [hsame' (heq ▸ hd), heq]

/-- A row that is there does not have the id of a session that is to begin. -/
theorem RowsOk.ne (h : RowsOk F rows) (hnew : F sid = none) (hs : s ∈ rows) : s.sid ≠ sid := by
  rintro rfl
  obtain ⟨f, hf, -⟩ := h.known s hs
  rw [hnew] at hf
  cases hf

/-- **A row is inserted.** -/
theorem RowsOk.append (h : RowsOk F rows) (hnew : F s.sid = none) :
    RowsOk (launch F s.sid ⟨s.expiresAt, s.version, none⟩) (rows ++ [s]) := by
  have hne : ∀ r ∈ rows, r.sid ≠ s.sid := fun r hr => h.ne hnew hr
  refine ⟨?_, ?_, ?_⟩
  · rw [map_append, map_singleton]
    refine nodup_append.2 ⟨h.keys, nodup_singleton _, ?_⟩
    intro a ha b hb
    obtain ⟨r, hr, rfl⟩ := mem_map.1 ha
    rw [mem_singleton.1 hb]
    exact hne r hr
  · intro r hr
    obtain hr | hr := mem_append.1 hr
    · exact (h.known r hr).later (launch_later 0 hnew _)
    · rw [mem_singleton.1 hr]
      exact ⟨_, launch_self F s.sid _, rfl, le_rfl⟩
  · intro r hr hact
    obtain hr | hr := mem_append.1 hr
    · rw [launch_ne F _ (hne r hr)]
      exact h.active r hr hact
    · rw [mem_singleton.1 hr]
      exact ⟨_, launch_self F s.sid _, rfl, rfl⟩

/-- **A row takes a new id.** -/
theorem RowsOk.replace (h : RowsOk F rows) {old : Session} (hold : old ∈ rows)
    {g : Session → Session} (hg : ∀ s, (g s).sid = sid) (hnew : F sid = none) :
    RowsOk (launch (kill F t fun x => decide (x = old.sid)) sid
        ⟨(g old).expiresAt, (g old).version, none⟩)
      (update (fun s => decide (s.sid = old.sid)) g rows) := by
  have hlater := (kill_later F t fun x => decide (x = old.sid)).trans
    (launch_later t (kill_none hnew) ⟨(g old).expiresAt, (g old).version, none⟩)
  have hself : launch (kill F t fun x => decide (x = old.sid)) sid
      ⟨(g old).expiresAt, (g old).version, none⟩ (g old).sid =
      some ⟨(g old).expiresAt, (g old).version, none⟩ := by
    rw [hg]
    exact launch_self _ _ _
  -- a row of the new table is an old one, or the one that has taken the id
  have hcase : ∀ s ∈ update (fun s => decide (s.sid = old.sid)) g rows,
      s = g old ∨ (s ∈ rows ∧ s.sid ≠ old.sid) := by
    intro s hs
    obtain ⟨s', hs', ⟨hq, rfl⟩ | ⟨hq, rfl⟩⟩ := mem_update hs
    · rw [h.unique hs' hold (of_decide_eq_true hq)]
      exact .inl rfl
    · exact .inr ⟨hs', of_decide_eq_false hq⟩
  refine ⟨?_, ?_, ?_⟩
  · rw [update, map_map]
    refine List.Nodup.map_on ?_ (List.Nodup.of_map _ h.keys)
    intro a ha b hb hab
    simp only [Function.comp_apply, decide_eq_true_eq] at hab
    refine h.unique ha hb ?_
    split_ifs at hab with h₁ h₂ h₂
    · exact h₁.trans h₂.symm
    · rw [hg] at hab
      exact absurd hab.symm (h.ne hnew hb)
    · rw [hg] at hab
      exact absurd hab (h.ne hnew ha)
    · exact hab
  · intro s hs
    obtain rfl | ⟨hs, -⟩ := hcase s hs
    · exact ⟨_, hself, rfl, le_rfl⟩
    · exact (h.known s hs).later hlater
  · intro s hs hact
    obtain rfl | ⟨hs, hne⟩ := hcase s hs
    · exact ⟨_, hself, rfl, rfl⟩
    · rw [launch_ne _ _ (h.ne hnew hs)]
      obtain ⟨f, hf, hd, hver⟩ := h.active s hs hact
      obtain ⟨f', hf', -, -, -, -, -, hsame⟩ :=
        kill_some (t := t) (p := fun x => decide (x = old.sid)) hf
      rw [hsame (decide_eq_false hne)] at hf'
      exact ⟨f, hf', hd, hver⟩

theorem mem_staleSessions {userID now : ℤ} :
    s ∈ staleSessions userID now rows ↔ s ∈ rows ∧ abandoned userID now s = true :=
  Table.mem_select

theorem abandoned_live {userID now : ℤ} (h : abandoned userID now s = true) :
    s.userID = userID ∧ s.status = .active ∧ s.revokedAt = 0 ∧ now < s.expiresAt := by
  simp only [abandoned, and_eq_true, decide_eq_true_eq] at h
  exact ⟨h.1.1.1, live_iff.1 h.1.1.2⟩

/-- The ids of the sessions that a creation revokes. -/
def staleSIDs (userID now : ℤ) (rows : List Session) : List String :=
  (staleSessions userID now rows).map fun s => s.sid

/-- A creation revokes just the sessions that were never used. -/
theorem RowsOk.withoutStale (h : RowsOk F rows) (userID now : ℤ) :
    RowsOk (kill F t fun sid => decide (sid ∈ staleSIDs userID now rows))
      (withoutStale userID now rows) := by
  refine h.revoke (fun s hs hact hsid => ?_) now "inactive_login_cleanup"
  obtain ⟨r, hr, hrs⟩ := mem_map.1 (of_decide_eq_true hsid)
  obtain ⟨hr, hlive⟩ := mem_staleSessions.1 hr
  have hzero : s.revokedAt = 0 := by
    rw [← h.unique hr hs hrs]
    exact (abandoned_live hlive).2.2.1
  rw [and_eq_true, and_eq_true]
  exact ⟨⟨hsid, decide_eq_true hact⟩, decide_eq_true hzero⟩

/-- What a creation publishes are tombstones. -/
theorem RowsOk.stale (h : RowsOk F rows) (userID now : ℤ) :
    ∀ r ∈ (staleSessions userID now rows).map fun s =>
        s.afterFind.revoke now "inactive_login_cleanup",
      Final (kill F t fun sid => decide (sid ∈ staleSIDs userID now rows)) r.toEntry := by
  intro r hr
  obtain ⟨s, hs, rfl⟩ := mem_map.1 hr
  obtain ⟨hmem, hlive⟩ := mem_staleSessions.1 hs
  exact h.final hmem (abandoned_live hlive).2.1 (decide_eq_true (mem_map_of_mem hs)) now
    "inactive_login_cleanup"

end Rows

section Logins

variable {cfg : Config} {F : Fates} {sh : Shared} {calls : List Call} {x y : Call}

/-- A login reads the clock. -/
theorem Upheld.waits (h : Upheld cfg F ⟨sh, x :: calls⟩) (hy : y.Sound cfg F sh)
    (htakes : y.takes = x.takes) : Upheld cfg F ⟨sh, (some y).toList ++ calls⟩ := by
  have hcalls : (y :: calls).filterMap Call.takes = (x :: calls).filterMap Call.takes := by
    rw [filterMap_cons, filterMap_cons, htakes]
  refine ⟨h.rows, h.cache, h.gone, ?_, h.deaths, h.used, ?_, ?_, h.kept⟩
  · intro c hc
    obtain rfl | hc := mem_cons.1 hc
    · exact hy
    · exact h.calls c (mem_cons_of_mem _ hc)
  · show ((y :: calls).filterMap Call.takes).Nodup
    rw [hcalls]
    exact h.logins
  · intro sid hsid
    have hsid : sid ∈ (y :: calls).filterMap Call.takes := hsid
    rw [hcalls] at hsid
    exact h.fresh sid hsid

/-- **A login takes its session id**, and others are over. -/
theorem Upheld.launches (h : Upheld cfg F ⟨sh, x :: calls⟩)
    (hx : x.takes = some sid) (p : String → Bool) {f : Fate} (hf : f.death = none)
    {rows : List Session} (issued : List Issue)
    (hrows : RowsOk (launch (kill F sh.clock p) sid f) rows)
    (hy : y.Sound cfg (launch (kill F sh.clock p) sid f) sh) (hty : y.takes = none) :
    Upheld cfg (launch (kill F sh.clock p) sid f)
      ⟨{ sh with sessions := rows, issued := issued }, (some y).toList ++ calls⟩ := by
  have hnew : F sid = none := (h.fresh sid (mem_filterMap.2 ⟨x, mem_cons_self, hx⟩)).1
  have hl : Later F sh.clock (launch (kill F sh.clock p) sid f) sh.clock :=
    (kill_later F sh.clock p).trans (launch_later _ (kill_none hnew) f)
  refine h.next hl ?_ hrows (h.cache.later hl) (List.Subset.refl _)
    (fun sid' hsid' => (h.gone sid' hsid').later hl) ?_ ?_ rfl h.kept
  · intro sid' hne hnone
    have hne : sid' ≠ sid := by
      rintro rfl
      exact hne hx
    rw [launch_ne _ _ hne]
    exact kill_none hnone
  · rintro c ⟨⟩
    exact ⟨hy.later (.refl _ _) (List.Subset.refl _), hty⟩
  · intro sid' f' hf'
    by_cases heq : sid' = sid
    · rw [heq, launch_self, Option.some.injEq] at hf'
      rw [← hf', Fate.limit, hf]
      exact le_rfl
    · rw [launch_ne _ _ heq] at hf'
      exact kill_deaths h.deaths p sid' f' hf'

/-- **The transaction of a login.** -/
theorem Upheld.login {reusableSID : String} {deadline renewAt createAt : ℤ}
    (h : Upheld cfg F ⟨sh, .login s reusableSID deadline renewAt createAt :: calls⟩) :
    ∃ F', Upheld cfg F' ⟨(loginTx cfg sh s reusableSID deadline renewAt createAt).1,
      (loginTx cfg sh s reusableSID deadline renewAt createAt).2.toList ++ calls⟩ := by
  have hdeadline : deadline ≤ sh.clock + cfg.ttl := h.calls _ mem_cons_self
  have hnew : F s.sid = none :=
    (h.fresh s.sid (mem_filterMap.2 ⟨_, mem_cons_self, rfl⟩)).1
  cases hrenew : renew cfg sh.users sh.sessions s reusableSID renewAt with
  | error err =>
    simp only [loginTx, hrenew]
    exact ⟨F, h.returns trivial⟩
  | ok renewed =>
    cases renewed with
    | some renewed =>
      obtain ⟨rows, s', old⟩ := renewed
      obtain ⟨existing, hmem, hlive, -, rfl, rfl, rfl, -⟩ := renew_cases hrenew
      have hact : existing.status = .active := (live_iff.1 hlive).1
      simp only [loginTx, hrenew]
      refine ⟨_, h.launches rfl (fun x => decide (x = existing.sid)) rfl sh.issued
        (h.rows.replace (g := fun r => r.renew cfg s renewAt) hmem (fun _ => rfl) hnew) ?_ rfl⟩
      have hfinal := (h.rows.final (t := sh.clock) (p := fun x => decide (x = existing.sid)) hmem
        hact (decide_eq_true rfl) (unix sh.clock) "login_session_renewed").later
        (launch_later sh.clock (kill_none hnew) ⟨s.expiresAt, existing.version + 1, none⟩)
      exact publish_final hfinal ⟨rfl, hfinal, hact, ⟨_, launch_self _ _ _, rfl, le_rfl⟩,
        _, launch_self _ _ _, hdeadline⟩
    | none =>
      cases hcreate : create cfg sh.users sh.sessions s createAt (unix sh.clock) with
      | error err =>
        simp only [loginTx, hrenew, hcreate]
        exact ⟨F, h.returns trivial⟩
      | ok created =>
        obtain ⟨rows, s', stale⟩ := created
        obtain ⟨-, -, hfill, -, rfl, rfl⟩ := create_cases hcreate
        obtain ⟨hsid, -, hact, -⟩ := fill_cases hfill
        simp only [loginTx, hrenew, hcreate]
        rw [← hsid] at hnew
        have hkilled : kill F sh.clock
            (fun sid => decide (sid ∈ staleSIDs s.userID createAt sh.sessions)) s'.sid = none :=
          kill_none hnew
        have hl := launch_later sh.clock hkilled ⟨s'.expiresAt, s'.version, none⟩
        have htimely : Timely cfg (launch (kill F sh.clock fun sid =>
            decide (sid ∈ staleSIDs s.userID createAt sh.sessions)) s'.sid
            ⟨s'.expiresAt, s'.version, none⟩) sh.clock s'.sid deadline :=
          ⟨_, launch_self _ _ _, hdeadline⟩
        obtain ⟨hsound, htakes⟩ := cleanFinals_sound cfg sh
          (fun r hr => (h.rows.stale (t := sh.clock) s.userID createAt r hr).later hl) hact
          ⟨_, launch_self _ _ _, rfl, le_rfl⟩ htimely
        exact ⟨_, h.launches (congrArg some hsid.symm) _ rfl _
          ((h.rows.withoutStale s.userID createAt).append hkilled) hsound htakes⟩

end Logins

/-! ### Reads and writes of the cache -/

theorem row_of_get {rows : List Session}
    (h : Table.get (fun s : Session => s.sid) sid rows = some s) : s ∈ rows ∧ s.sid = sid := by
  have hsid := find?_some h
  exact ⟨Table.get_mem h, of_decide_eq_true hsid⟩

section Reads

variable {cfg : Config} {F : Fates} {sh : Shared} {calls : List Call} {fails : Bool}

theorem Buried.refused {t : ℤ} {cache : Cache} (h : Buried cfg F t cache sid)
    (e : Entry) : getUserSessionCache cache sid t ≠ .ok (some e) := by
  obtain ⟨f, -, -, hdeny, -⟩ := h
  unfold getUserSessionCache
  cases hfind : cache.find sid t with
  | none => exact nofun
  | some e' =>
    obtain ⟨c, hc, -, rfl⟩ := find_cases hfind
    have hstatus : c.entry.status ≠ .active := by
      obtain hs | hs := hdeny c hc <;> simp [hs]
    simp only
    split_ifs with hbad hstale
    · exact nofun
    · exact nofun
    · exact absurd (.inl hstatus) hstale

theorem Upheld.get {late : Bool} (h : Upheld cfg F ⟨sh, .get sid late :: calls⟩) :
    Upheld cfg F ⟨(act cfg fails sh (.get sid late)).1,
      (act cfg fails sh (.get sid late)).2.toList ++ calls⟩ := by
  have hlate : late = true → sid ∈ sh.gone := h.calls _ mem_cons_self
  simp only [Sessions.act]
  split_ifs with hfails
  · exact h.moves hlate rfl
  · cases hget : getUserSessionCache sh.cache sid sh.clock with
    | error err => exact h.returns (by simp [Note.kept])
    | ok found =>
      cases found with
      | none => exact h.moves hlate rfl
      | some e =>
        refine h.returns fun hkept => ?_
        exact (h.gone sid (hlate hkept.1)).refused e hget

theorem Upheld.getRead {late : Bool} {deadline : ℤ}
    (h : Upheld cfg F ⟨sh, .getRead sid late deadline :: calls⟩) :
    Upheld cfg F ⟨(act cfg fails sh (.getRead sid late deadline)).1,
      (act cfg fails sh (.getRead sid late deadline)).2.toList ++ calls⟩ := by
  obtain ⟨hlate, hdeadline⟩ : (late = true → sid ∈ sh.gone) ∧ deadline ≤ sh.clock + cfg.ttl :=
    h.calls _ mem_cons_self
  simp only [Sessions.act]
  cases hget : getUserSessionBySID sid sh.sessions with
  | none => exact h.returns (by simp [Note.kept])
  | some s =>
    obtain ⟨row, hrow, rfl⟩ := Option.map_eq_some_iff.1 hget
    obtain ⟨hmem, hsid⟩ := row_of_get hrow
    refine h.moves ⟨h.rows.known row hmem, fun hact => ⟨?_, h.rows.timely hmem hact hdeadline⟩⟩ rfl
    -- the row of a session that is over is not active
    rw [← not_eq_true]
    intro htrue
    obtain ⟨f, hf, hd, -⟩ := h.gone sid (hlate htrue)
    obtain ⟨g, hg, hnone, -⟩ := h.rows.active row hmem hact
    rw [hsid, hf, Option.some.injEq] at hg
    exact hd (hg ▸ hnone)

theorem Upheld.getCheck {late : Bool} {deadline : ℤ}
    (h : Upheld cfg F ⟨sh, .getCheck s late deadline :: calls⟩) :
    Upheld cfg F ⟨(act cfg fails sh (.getCheck s late deadline)).1,
      (act cfg fails sh (.getCheck s late deadline)).2.toList ++ calls⟩ := by
  obtain ⟨hknown, hactive⟩ : (Call.getCheck s late deadline).Sound cfg F sh :=
    h.calls _ mem_cons_self
  simp only [Sessions.act]
  split_ifs with hlive
  · have hact := (live_iff.1 hlive).1
    obtain ⟨hlate, ht⟩ := hactive hact
    exact h.moves (publish_active hact hknown ht hlate) rfl
  · exact h.moves ⟨hknown, trivial, .inr (.inr rfl)⟩ rfl

/-- A write of an active entry dismisses no session. -/
theorem Then.Sound.buries_none {t : ℤ} {e : Entry} {k : Then} (h : k.Sound cfg F t e)
    (hact : e.status = .active) : k.buries ≠ some sid := by
  intro hk
  have hrevoked := (h.final hk).2.1
  rw [hact] at hrevoked
  cases hrevoked

theorem Upheld.publish {e : Entry} {deadline : Option ℤ} {k : Then}
    (h : Upheld cfg F ⟨sh, .publish e deadline k :: calls⟩) :
    Upheld cfg F ⟨(act cfg fails sh (.publish e deadline k)).1,
      (act cfg fails sh (.publish e deadline k)).2.toList ++ calls⟩ := by
  obtain ⟨hknown, hk, hstatus⟩ : (Call.publish e deadline k).Sound cfg F sh :=
    h.calls _ mem_cons_self
  simp only [Sessions.act]
  obtain ⟨hact, d, rfl, f, hf, hd⟩ | hdeny := hstatus
  · cases hprepare : prepare cfg e (some d) sh.clock with
    | error err => exact h.proceed hk _ fun sid hsid => absurd hsid (hk.buries_none hact)
    | ok expiration =>
      refine h.moves ⟨hknown, hk, .inl ⟨hact, fun f' hf' => ?_⟩⟩ rfl
      obtain ⟨g, hg, hexp, -⟩ := hknown
      rw [hf'] at hf hg
      cases hf
      cases hg
      exact prepare_active hact hexp hd hprepare
  · have hne : e.status ≠ .active := by
      obtain hs | hs := hdeny <;> simp [hs]
    obtain ⟨expiration, hprepare, henough⟩ := prepare_deny cfg sh.clock deadline hne
    rw [hprepare]
    exact h.moves ⟨hknown, hk, .inr ⟨hdeny, henough⟩⟩ rfl

theorem Upheld.completed {e : Entry} {deadline : Option ℤ} {k : Then}
    (h : Upheld cfg F ⟨sh, .completed e deadline k :: calls⟩) :
    Upheld cfg F ⟨(act cfg fails sh (.completed e deadline k)).1,
      (act cfg fails sh (.completed e deadline k)).2.toList ++ calls⟩ := by
  obtain ⟨hact, hk⟩ : e.status = .active ∧ k.Sound cfg F sh.clock e :=
    h.calls _ mem_cons_self
  exact h.proceed hk _ fun sid hsid => absurd hsid (hk.buries_none hact)

/-- A confirmation tells nobody who began late that the session is active. -/
theorem Upheld.confirm {k : Then} (h : Upheld cfg F ⟨sh, .confirm s k :: calls⟩) :
    Upheld cfg F ⟨(act cfg fails sh (.confirm s k)).1,
      (act cfg fails sh (.confirm s k)).2.toList ++ calls⟩ := by
  have hk : k.Confirms := h.calls _ mem_cons_self
  have hsound : k.Sound cfg F sh.clock s.toEntry ∧ k.buries = none ∧
      ∀ err, ∃ n : Note, n.kept ∧ k.fail sh err = sh.note n := by
    cases k with
    | got s late => exact ⟨hk, rfl, fun err => ⟨_, by simp [Note.kept], rfl⟩⟩
    | created | advanced => exact ⟨trivial, rfl, fun err => ⟨.answered (some err), trivial, rfl⟩⟩
    | rotated r s =>
      exact ⟨trivial, rfl, fun err => ⟨.refreshed r.sid true false err (sh.alive r.sid),
        trivial, rfl⟩⟩
    | denied late | replaced _ _ _ | cleaned _ _ _ _ | reuseFence _ _ | reuseFinal _
    | revokeFence _ _ | revokeFinal _ | hashFence _ _ _ | hashFinal _ | bulkFence _ _ _
    | bulkFinal _ _ _ => exact hk.elim
  obtain ⟨hsound, hnone, hfail⟩ := hsound
  simp only [Sessions.act]
  split_ifs with hbad hcount
  · obtain ⟨n, hn, heq⟩ := hfail .invalid
    rw [heq]
    exact h.returns hn
  · refine h.proceed hsound _ fun sid hsid => ?_
    rw [hnone] at hsid
    cases hsid
  · obtain ⟨n, hn, heq⟩ := hfail .inactive
    rw [heq]
    exact h.returns hn

end Reads

/-! ### Steps that change the table -/

section Changes

variable {cfg : Config} {F : Fates} {sh : Shared} {calls : List Call} {fails : Bool}

theorem RowsOk.filter {rows : List Session} (h : RowsOk F rows) (q : Session → Bool) :
    RowsOk F (rows.filter q) := by
  refine ⟨?_, fun s hs => h.known s (mem_of_mem_filter hs),
    fun s hs => h.active s (mem_of_mem_filter hs)⟩
  exact List.Sublist.nodup (List.Sublist.map _ filter_sublist) h.keys

variable {deadline now : ℤ}

theorem Upheld.rotateRead {r : Refresh} {tries : ℕ}
    (h : Upheld cfg F ⟨sh, .rotateRead r tries deadline :: calls⟩) :
    Upheld cfg F ⟨(act cfg fails sh (.rotateRead r tries deadline)).1,
      (act cfg fails sh (.rotateRead r tries deadline)).2.toList ++ calls⟩ := by
  have hdeadline : deadline ≤ sh.clock + cfg.ttl := h.calls _ mem_cons_self
  simp only [Sessions.act]
  cases hread : ownSession r.userID r.sid sh.sessions with
  | none => exact h.returns trivial
  | some s =>
    obtain ⟨row, hrow, hsid, -, rfl⟩ := ownSession_cases hread
    have hknown := h.rows.known row hrow
    simp only [rotateDecide]
    split_ifs with hlive hcurrent hprevious hgrace
    · have hact : row.status = .active := (live_iff.1 hlive).1
      exact h.moves ⟨hsid, hact, hknown, h.rows.timely hrow hact hdeadline⟩ rfl
    · exact h.returns trivial
    · exact h.returns trivial
    · exact h.moves ⟨hknown, ⟨hsid, hknown⟩, .inr (.inl rfl)⟩ rfl
    · exact h.returns trivial

theorem Upheld.rotateSwap {r : Refresh} {tries : ℕ}
    (h : Upheld cfg F ⟨sh, .rotateSwap r tries deadline s :: calls⟩) :
    Upheld cfg F ⟨(act cfg fails sh (.rotateSwap r tries deadline s)).1,
      (act cfg fails sh (.rotateSwap r tries deadline s)).2.toList ++ calls⟩ := by
  obtain ⟨-, hact, hknown, ht⟩ : s.sid = r.sid ∧ s.status = .active ∧ Known F s.toEntry ∧
      Timely cfg F sh.clock s.sid deadline := h.calls _ mem_cons_self
  simp only [Sessions.act]
  split_ifs with hany
  · refine h.edits (h.rows.keeps fun _ => ⟨rfl, rfl, rfl, rfl⟩) ⟨rfl, rfl, rfl, rfl⟩
      (fun _ hn => .inl hn) ?_ rfl
    exact ⟨hknown, trivial, .inl ⟨hact, deadline, rfl, ht⟩⟩
  · cases tries with
    | zero => exact h.returns trivial
    | succ tries => exact h.moves trivial rfl

theorem Upheld.reuseUpdate {r : Refresh} (h : Upheld cfg F ⟨sh, .reuseUpdate r s :: calls⟩) :
    ∃ F', Upheld cfg F' ⟨(act cfg fails sh (.reuseUpdate r s)).1,
      (act cfg fails sh (.reuseUpdate r s)).2.toList ++ calls⟩ := by
  obtain ⟨hsid, hknown⟩ : s.sid = r.sid ∧ Known F s.toEntry := h.calls _ mem_cons_self
  simp only [Sessions.act]
  split_ifs with hany
  · obtain ⟨row, hrow, hreusable⟩ := any_eq_true.1 hany
    have hrowsid : row.sid = r.sid := by
      simp only [reusable, and_eq_true, decide_eq_true_eq] at hreusable
      exact hreusable.1.1
    refine ⟨_, h.kills (p := fun sid => decide (sid = r.sid)) (fun s' hs' _ hsid' => ?_) r.now
      "refresh_reuse" ⟨hknown.later (kill_later F sh.clock _), ⟨hsid, rfl, ?_⟩, .inr (.inr rfl)⟩
      rfl⟩
    · rw [h.rows.unique hs' hrow ((of_decide_eq_true hsid').trans hrowsid.symm)]
      exact hreusable
    · have hdead := hknown.dead (t := sh.clock) (p := fun sid => decide (sid = r.sid))
        (decide_eq_true hsid)
      rwa [hsid] at hdead
  · exact ⟨F, h.returns trivial⟩

theorem Upheld.advance {a : Advance} (h : Upheld cfg F ⟨sh, .advance a deadline now :: calls⟩) :
    ∃ F', Upheld cfg F' ⟨(act cfg fails sh (.advance a deadline now)).1,
      (act cfg fails sh (.advance a deadline now)).2.toList ++ calls⟩ := by
  have hdeadline : deadline ≤ sh.clock + cfg.ttl := h.calls _ mem_cons_self
  simp only [Sessions.act]
  cases hread : ownSession a.userID a.sid sh.sessions with
  | none => exact ⟨F, h.returns trivial⟩
  | some s =>
    obtain ⟨row, hrow, -, -, rfl⟩ := ownSession_cases hread
    simp only
    split_ifs with hadvance
    · have hrowadvance :
          advanceable a.userID a.sid a.version a.authVersion now row = true := hadvance
      have hfacts := hrowadvance
      simp only [advanceable, and_eq_true, decide_eq_true_eq] at hfacts
      obtain ⟨⟨⟨⟨⟨hsid, -⟩, hact⟩, -⟩, -⟩, -⟩ := hfacts
      refine ⟨_, h.advances hrow hact (fun s' hs' => ⟨fun hq => ?_, fun heq => ?_⟩)
        a.nextAuthVersion now hdeadline⟩
      · simp only [advanceable, and_eq_true, decide_eq_true_eq] at hq
        exact h.rows.unique hs' hrow (hq.1.1.1.1.1.trans hsid.symm)
      · rw [heq]
        exact hrowadvance
    · exact ⟨F, h.returns trivial⟩

theorem Upheld.revokeRead {v : Revocation} (h : Upheld cfg F ⟨sh, .revokeRead v :: calls⟩) :
    Upheld cfg F ⟨(act cfg fails sh (.revokeRead v)).1,
      (act cfg fails sh (.revokeRead v)).2.toList ++ calls⟩ := by
  simp only [Sessions.act]
  cases hread : ownSession v.userID v.sid sh.sessions with
  | none => exact h.returns trivial
  | some s =>
    obtain ⟨row, hrow, hsid, -, rfl⟩ := ownSession_cases hread
    have hknown := h.rows.known row hrow
    simp only
    split_ifs with hlive
    · exact h.moves ⟨hknown, ⟨hsid, hknown⟩, .inr (.inl rfl)⟩ rfl
    · exact h.returns trivial

theorem mem_activeIn {sids : List String} (hsid : s.sid ∈ sids)
    (hact : s.status = .active) : activeIn sids s = true := by
  rw [activeIn, decide_eq_true hsid, decide_eq_true hact]
  rfl

/-- The tombstone of `RevokeUserSession` is of the session, but may have an older version. -/
theorem Upheld.revoke {v : Revocation} (h : Upheld cfg F ⟨sh, .revoke v s :: calls⟩) :
    ∃ F', Upheld cfg F' ⟨(act cfg fails sh (.revoke v s)).1,
      (act cfg fails sh (.revoke v s)).2.toList ++ calls⟩ := by
  obtain ⟨hsid, hknown⟩ : s.sid = v.sid ∧ Known F s.toEntry := h.calls _ mem_cons_self
  simp only [Sessions.act]
  cases hread : ownSession v.userID v.sid sh.sessions with
  | none => exact ⟨F, h.returns trivial⟩
  | some current =>
    simp only
    split_ifs with hlive
    · refine ⟨_, h.kills (p := fun sid => decide (sid = v.sid)) (fun s' hs' hact hsid' => ?_) v.now
        v.reason ⟨hknown.later (kill_later F sh.clock _), ⟨rfl, rfl, ?_⟩, .inr (.inr rfl)⟩ rfl⟩
      · exact mem_activeIn (mem_singleton.2 (of_decide_eq_true hsid')) hact
      · exact hknown.dead (decide_eq_true hsid)
    · exact ⟨F, h.returns trivial⟩

theorem Upheld.hashRead {presented : String}
    (h : Upheld cfg F ⟨sh, .hashRead sid presented reason now :: calls⟩) :
    Upheld cfg F ⟨(act cfg fails sh (.hashRead sid presented reason now)).1,
      (act cfg fails sh (.hashRead sid presented reason now)).2.toList ++ calls⟩ := by
  simp only [Sessions.act]
  cases hread : Table.get (fun s : Session => s.sid) sid sh.sessions with
  | none => exact h.returns trivial
  | some row =>
    simp only
    split_ifs with hmatch
    · have hact : row.status = .active := (live_iff.1 hmatch.1).1
      exact h.moves ⟨h.rows.known row (row_of_get hread).1, hact, .inr (.inl rfl)⟩ rfl
    · exact h.returns trivial

theorem Upheld.hashCommit {row : Session}
    (h : Upheld cfg F ⟨sh, .hashCommit reason now row :: calls⟩) :
    ∃ F', Upheld cfg F' ⟨(act cfg fails sh (.hashCommit reason now row)).1,
      (act cfg fails sh (.hashCommit reason now row)).2.toList ++ calls⟩ := by
  have hact : row.status = .active := h.calls _ mem_cons_self
  simp only [Sessions.act]
  split_ifs with hmem
  · have hfinal := h.rows.final (t := sh.clock) (p := fun sid => decide (sid = row.sid)) hmem hact
      (decide_eq_true rfl) now reason
    refine ⟨_, h.kills (fun s' hs' hact' hsid' => ?_) now reason
      (publish_final hfinal ⟨rfl, hfinal⟩) rfl⟩
    exact mem_activeIn (mem_singleton.2 (of_decide_eq_true hsid')) hact'
  · exact ⟨F, h.moves hact rfl⟩

theorem Upheld.bulkFind {v : Revocation} (h : Upheld cfg F ⟨sh, .bulkFind v :: calls⟩) :
    Upheld cfg F ⟨(act cfg fails sh (.bulkFind v)).1,
      (act cfg fails sh (.bulkFind v)).2.toList ++ calls⟩ := by
  simp only [Sessions.act]
  cases hbatch : (Table.select (bulkCandidate v) (fun a b => decide (a.sid ≤ b.sid))
      sh.sessions).take revokeBatchSize with
  | nil => exact h.returns trivial
  | cons s batch =>
    have hknown : ∀ r ∈ (s :: batch).map Session.afterFind, Known F r.toEntry := by
      intro r hr
      obtain ⟨row, hrow, rfl⟩ := mem_map.1 hr
      rw [← hbatch] at hrow
      exact h.rows.known row (Table.mem_select.1 (mem_of_mem_take hrow)).1
    obtain ⟨hsound, htakes⟩ := bulkNext_sound cfg sh v ((s :: batch).map Session.afterFind) hknown
    exact h.moves hsound htakes

theorem Upheld.bulk {v : Revocation} {batch : List Session}
    (h : Upheld cfg F ⟨sh, .bulk v batch :: calls⟩) :
    ∃ F', Upheld cfg F' ⟨(act cfg fails sh (.bulk v batch)).1,
      (act cfg fails sh (.bulk v batch)).2.toList ++ calls⟩ := by
  simp only [Sessions.act]
  have hfinal : ∀ r ∈ (sh.sessions.filter (activeIn (batch.map fun s => s.sid))).map
      (fun s => s.afterFind.revoke v.now v.reason),
      Final (kill F sh.clock fun sid => decide (sid ∈ batch.map fun s => s.sid)) r.toEntry := by
    intro r hr
    obtain ⟨row, hrow, rfl⟩ := mem_map.1 hr
    obtain ⟨hmem, hactive⟩ := mem_filter.1 hrow
    rw [activeIn, and_eq_true] at hactive
    exact h.rows.final hmem (of_decide_eq_true hactive.2) hactive.1 v.now v.reason
  obtain ⟨hsound, htakes⟩ := bulkFinals_sound cfg sh v hfinal
  exact ⟨_, h.kills (fun s' hs' hact' hsid' => mem_activeIn (of_decide_eq_true hsid') hact') v.now
    v.reason hsound htakes⟩

theorem Upheld.cleanDelete {kind : Cleanup} {sids : List String}
    (h : Upheld cfg F ⟨sh, .cleanDelete kind now sids :: calls⟩) :
    Upheld cfg F ⟨(act cfg fails sh (.cleanDelete kind now sids)).1,
      (act cfg fails sh (.cleanDelete kind now sids)).2.toList ++ calls⟩ := by
  have hedits : ∀ y : Call, y.Sound cfg F sh → y.takes = none →
      Upheld cfg F ⟨(act cfg fails sh (.cleanDelete kind now sids)).1,
        (some y).toList ++ calls⟩ := by
    intro y hy hty
    refine h.edits (h.rows.filter _) ⟨rfl, rfl, rfl, rfl⟩ (fun n hn => ?_) hy hty
    obtain rfl | hn := mem_cons.1 hn
    · exact .inr trivial
    · exact .inl hn
  simp only [Sessions.act] at hedits ⊢
  split
  · exact hedits _ trivial rfl
  · exact hedits _ trivial rfl

theorem Upheld.act (fails : Bool) {c : Call} (h : Upheld cfg F ⟨sh, c :: calls⟩)
    (hp : ∀ e deadline expiration k, c = .script e deadline expiration k →
      k.stale = false ∨ refuses (sh.cache.find e.sid sh.clock) e = false) :
    ∃ F', Upheld cfg F' ⟨(act cfg fails sh c).1, (act cfg fails sh c).2.toList ++ calls⟩ := by
  cases c with
  | get sid late => exact ⟨F, h.get⟩
  | getDeadline sid late =>
    exact ⟨F, h.moves ⟨h.calls _ mem_cons_self, le_rfl⟩ rfl⟩
  | getRead sid late deadline => exact ⟨F, h.getRead⟩
  | getCheck s late deadline => exact ⟨F, h.getCheck⟩
  | publish e deadline k => exact ⟨F, h.publish⟩
  | script e deadline expiration k => exact ⟨F, h.script (hp e deadline expiration k rfl)⟩
  | completed e deadline k => exact ⟨F, h.completed⟩
  | confirm s k => exact ⟨F, h.confirm⟩
  | loginRenew s reusableSID deadline =>
    have hdeadline : deadline ≤ sh.clock + cfg.ttl := h.calls _ mem_cons_self
    exact ⟨F, h.waits hdeadline rfl⟩
  | loginCreate s reusableSID deadline renewAt =>
    have hdeadline : deadline ≤ sh.clock + cfg.ttl := h.calls _ mem_cons_self
    exact ⟨F, h.waits hdeadline rfl⟩
  | login s reusableSID deadline renewAt createAt => exact h.login
  | rotateDeadline r tries => exact ⟨F, h.moves le_rfl rfl⟩
  | rotateRead r tries deadline => exact ⟨F, h.rotateRead⟩
  | rotateSwap r tries deadline s => exact ⟨F, h.rotateSwap⟩
  | reuseUpdate r s => exact h.reuseUpdate
  | advanceClock a deadline =>
    have hdeadline : deadline ≤ sh.clock + cfg.ttl := h.calls _ mem_cons_self
    exact ⟨F, h.moves hdeadline rfl⟩
  | advance a deadline now => exact h.advance
  | revokeRead v => exact ⟨F, h.revokeRead⟩
  | revoke v s => exact h.revoke
  | hashRead sid presented reason now => exact ⟨F, h.hashRead⟩
  | hashCommit reason now row => exact h.hashCommit
  | bulkFind v => exact ⟨F, h.bulkFind⟩
  | bulk v batch => exact h.bulk
  | cleanFind kind now =>
    simp only [Sessions.act]
    split
    · exact ⟨F, h.returns trivial⟩
    · exact ⟨F, h.moves trivial rfl⟩
  | cleanDelete kind now sids => exact ⟨F, h.cleanDelete⟩

end Changes

/-! ### Runs -/

section Runs

variable {cfg : Config} {F : Fates} {p : Pool Shared Call}

/-- An operation begins: what its call knows, and the session id it takes. -/
theorem Op.call_sound {op : Op} {sh : Shared} {c : Call} (h : op.call cfg sh = some c) :
    c.Sound cfg F sh ∧ c.takes.toList = op.takes := by
  cases op with
  | get sid =>
    simp only [Op.call] at h
    split_ifs at h
    cases h
    exact ⟨of_decide_eq_true, rfl⟩
  | login s reusableSID =>
    cases h
    exact ⟨le_rfl, rfl⟩
  | rotate | revoke | revokeByHash | revokeAll =>
    simp only [Op.call] at h
    split_ifs at h
    cases h
    exact ⟨trivial, rfl⟩
  | advance a =>
    simp only [Op.call] at h
    split_ifs at h
    cases h
    exact ⟨le_refl (sh.clock + cfg.ttl), rfl⟩
  | cleanup kind =>
    cases h
    exact ⟨trivial, rfl⟩

theorem Upheld.begins {op : Op} (h : Upheld cfg F p) (hnew : newSID p (.begin op) = true) :
    Upheld cfg F (step cfg p (.begin op)) := by
  obtain ⟨sh, calls⟩ := p
  simp only [step]
  cases hcall : op.call cfg sh with
  | none => exact h
  | some c =>
    obtain ⟨hsound, htakes⟩ := Op.call_sound (F := F) hcall
    have hfresh : ∀ sid ∈ op.takes, sid ∉ sh.used := fun sid hsid =>
      of_decide_eq_true (all_eq_true.1 hnew sid hsid)
    have hlogins : (calls ++ [c]).filterMap Call.takes =
        calls.filterMap Call.takes ++ op.takes := by
      rw [filterMap_append, ← htakes]
      cases hc : c.takes with
      | none => rw [filterMap_cons_none hc]; rfl
      | some sid => rw [filterMap_cons_some hc]; rfl
    refine ⟨h.rows, h.cache, h.gone, ?_, h.deaths, ?_, ?_, ?_, h.kept⟩
    · intro c' hc'
      obtain hc' | hc' := mem_append.1 hc'
      · exact (h.calls c' hc').later (.refl _ _) (List.Subset.refl _)
      · rw [mem_singleton.1 hc']
        exact hsound.later (.refl _ _) (List.Subset.refl _)
    · exact fun sid hsid => mem_append_right _ (h.used sid hsid)
    · show ((calls ++ [c]).filterMap Call.takes).Nodup
      rw [hlogins]
      refine nodup_append.2 ⟨h.logins, ?_, ?_⟩
      · rw [← htakes]
        cases c.takes <;> simp
      · rintro sid hsid sid' hsid' rfl
        exact hfresh sid hsid' (h.fresh sid hsid).2
    · intro sid hsid
      have hsid : sid ∈ (calls ++ [c]).filterMap Call.takes := hsid
      rw [hlogins] at hsid
      obtain hsid | hsid := mem_append.1 hsid
      · exact ⟨(h.fresh sid hsid).1, mem_append_right _ (h.fresh sid hsid).2⟩
      · refine ⟨?_, mem_append_left _ hsid⟩
        by_contra hF
        exact hfresh sid hsid (h.used sid hF)

theorem later_tick (F : Fates) {t t' : ℤ} (ht : t ≤ t')
    (hdeaths : ∀ sid f, F sid = some f → f.limit t ≤ t) :
    Later F t F t' ∧ ∀ sid f, F sid = some f → f.limit t' ≤ t' := by
  have hlimit : ∀ f : Fate, f.limit t ≤ f.limit t' ∧ (f.limit t ≤ t → f.limit t' ≤ t') := by
    intro f
    cases hd : f.death with
    | none => simp only [Fate.limit, hd, Option.getD_none]; exact ⟨ht, fun _ => le_rfl⟩
    | some d => simp only [Fate.limit, hd, Option.getD_some]; exact ⟨le_rfl, fun h => h.trans ht⟩
  refine ⟨⟨ht, fun sid f hf => ⟨f, hf, rfl, le_rfl, (hlimit f).1, fun _ => rfl⟩⟩, ?_⟩
  exact fun sid f hf => (hlimit f).2 (hdeaths sid f hf)

theorem Upheld.tick (h : Upheld cfg F p) (d : ℕ) : Upheld cfg F (step cfg p (.tick d)) := by
  obtain ⟨hl, hdeaths⟩ := later_tick F
    (show p.shared.clock ≤ p.shared.clock + d by omega) h.deaths
  refine ⟨h.rows, h.cache.later hl, fun sid hsid => (h.gone sid hsid).later hl, ?_, hdeaths,
    h.used, h.logins, h.fresh, h.kept⟩
  exact fun c hc => (h.calls c hc).later hl (List.Subset.refl _)

theorem Upheld.account (h : Upheld cfg F p) (users : List Account) :
    Upheld cfg F (step cfg p (.account users)) :=
  ⟨h.rows, h.cache, h.gone,
    fun c hc => (h.calls c hc).later (.refl _ _) (List.Subset.refl _),
    h.deaths, h.used, h.logins, h.fresh, h.kept⟩

theorem Inv.step {e : Event} (h : Inv cfg p) (hnew : newSID p e = true)
    (hpublished : published p e = true) : Inv cfg (step cfg p e) := by
  obtain ⟨F, h⟩ := h
  cases e with
  | begin op => exact ⟨F, h.begins hnew⟩
  | account users => exact ⟨F, h.account users⟩
  | tick d => exact ⟨F, h.tick d⟩
  | resume i fails =>
    obtain ⟨-, hsame⟩ | ⟨before, c, after, hi, hcalls, hstep⟩ :=
      p.resume_cases (act cfg fails) i
    · rw [Sessions.step, hsame]
      exact ⟨F, h⟩
    · -- the call that moves comes first, and goes back to its place
      have hfirst : Upheld cfg F ⟨p.shared, c :: (before ++ after)⟩ := by
        have h : Upheld cfg F ⟨p.shared, p.calls⟩ := h
        refine h.perm ?_
        rw [hcalls]
        exact perm_middle
      obtain ⟨F', h'⟩ := hfirst.act fails (by
        rintro e deadline expiration k rfl
        rw [published, hi] at hpublished
        simpa using hpublished)
      rw [Sessions.step, hstep]
      refine ⟨F', h'.perm ?_⟩
      rw [append_assoc, ← append_assoc, ← append_assoc]
      exact perm_append_comm.append_right after

theorem empty_cacheOk (cfg : Config) (F : Fates) (t : ℤ) : CacheOk cfg F t fun _ => none := by
  refine ⟨?_, ?_, ?_, ?_⟩
  all_goals
    intro sid c hc
    cases hc

theorem atRest_upheld (cfg : Config) (users : List Account) {sessions : List Session}
    (hkeys : (sessions.map fun s => s.sid).Nodup) (clock : ℤ) :
    Inv cfg (atRest users sessions clock) := by
  have hfate : ∀ s ∈ sessions, (Table.get (fun s : Session => s.sid) s.sid sessions).map
      (fun s => Fate.mk s.expiresAt s.version none) = some ⟨s.expiresAt, s.version, none⟩ :=
    fun s hs => congrArg (Option.map _)
      (Table.get_of_mem hkeys hs)
  refine ⟨fun sid => (Table.get (fun s : Session => s.sid) sid sessions).map fun s =>
    ⟨s.expiresAt, s.version, none⟩, ⟨hkeys, ?_, ?_⟩, empty_cacheOk cfg _ clock,
    fun _ hs => absurd hs not_mem_nil, fun _ hc => absurd hc not_mem_nil, ?_, ?_,
    nodup_nil, fun _ hs => absurd hs not_mem_nil, fun _ hn => absurd hn not_mem_nil⟩
  · intro s hs
    refine ⟨⟨s.expiresAt, s.version, none⟩, ?_, rfl, le_rfl⟩
    exact hfate s hs
  · intro s hs _
    refine ⟨⟨s.expiresAt, s.version, none⟩, ?_, rfl, rfl⟩
    exact hfate s hs
  · intro sid f hf
    obtain ⟨s, -, rfl⟩ := Option.map_eq_some_iff.1 hf
    exact le_rfl
  · intro sid hsid
    obtain ⟨f, hf⟩ := Option.ne_none_iff_exists'.1 hsid
    obtain ⟨s, hs, -⟩ := Option.map_eq_some_iff.1 hf
    obtain ⟨hmem, rfl⟩ := row_of_get hs
    exact mem_map_of_mem hmem

end Runs

/-! ### Runs that are, and are not, kept -/

instance (n : Note) : Decidable n.kept :=
  match n with
  | .got late active => inferInstanceAs (Decidable ¬ (late = true ∧ active = true))
  | .refreshed .. | .deleted .. | .answered .. => inferInstanceAs (Decidable True)

/-- A session is found, revoked, and not found any more. -/
def logout : List Event :=
  .begin (.get "s") :: resumes 0 7 ++ .begin (.revoke 1 "s" "logout") :: resumes 0 6 ++
    .begin (.get "s") :: resumes 0 1

/-- `RevokeUserSession` writes its fence and is held up until the fence has expired; the version is
advanced meanwhile, so that the tombstone is refused. -/
def heldUp : List Event :=
  .begin (.revoke 1 "s" "logout") :: resumes 0 3 ++ .tick 61000000000 ::
    .begin (.advance ⟨1, "s", 1, 1, 2⟩) :: resumes 1 5 ++ resumes 0 3 ++
    .begin (.get "s") :: resumes 0 1

end NexusTok.Sessions
