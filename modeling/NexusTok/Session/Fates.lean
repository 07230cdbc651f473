import NexusTok.Session.Calls

/-!
# The fates of login sessions

A session that was revoked, or replaced by a renewal, must not be found active any more, although
copies of its row may still be on their way into the cache.  The cache keeps them out by its
tombstones: an active copy carries a deadline that was taken before its row was read, so it expires
no later than a tombstone that is published after the revocation; and no active copy is written over
a tombstone.

The argument follows the *fate* of every session id: when it expires, the version its row has or
had, and when it was revoked.  A copy that is read later than the revocation does not exist, so the
revocation bounds the deadlines of all copies.

* `Upheld` : the invariant, over the fates of the session ids.
* `Enough.covers` : a tombstone outlives every active copy.
* `Upheld.next` : what is to be shown about a step.
* `Upheld.kills`, `Upheld.edits`, `Upheld.advances` : steps that change the table.
-/

namespace NexusTok.Sessions

open List Bool

open Table (update mem_update mem_update_of_mem update_keys)

/-! ### What is to hold -/

/-- No call of `GetUserSessionCached` that began after the revocation had been published returned
the session. -/
def Note.kept : Note → Prop
  | .got late active => ¬ (late = true ∧ active = true)
  | _ => True

/-- The tombstones made of a copy that was read before the revocation. -/
def Then.stale : Then → Bool
  | .revokeFinal _ | .reuseFinal _ => true
  | _ => false

/-! ### Fates -/

/-- What became of a session id: its expiry, its last version, and when it was revoked or
replaced. -/
structure Fate where
  expiresAt : ℤ
  version : ℤ
  death : Option ℤ

abbrev Fates := String → Option Fate

/-- Every copy of an active row was read by then. -/
def Fate.limit (f : Fate) (clock : ℤ) : ℤ := f.death.getD clock

/-- The millisecond in which the last active copy expires. -/
def Fate.bar (cfg : Config) (clock : ℤ) (f : Fate) : ℤ :=
  unixMilli (min (f.limit clock + cfg.ttl) (f.expiresAt * second))

/-- What may happen to fates: new ids, newer versions, deaths, and time. -/
structure Later (F : Fates) (t : ℤ) (F' : Fates) (t' : ℤ) : Prop where
  clock : t ≤ t'
  fate : ∀ sid f, F sid = some f → ∃ f', F' sid = some f' ∧ f'.expiresAt = f.expiresAt ∧
    f.version ≤ f'.version ∧ f.limit t ≤ f'.limit t' ∧ (f.death ≠ none → f' = f)

/-- A copy of a row that was there. -/
def Known (F : Fates) (e : Entry) : Prop :=
  ∃ f, F e.sid = some f ∧ e.expiresAt = f.expiresAt ∧ e.version ≤ f.version

/-- A deadline taken before the revocation. -/
def Timely (cfg : Config) (F : Fates) (t : ℤ) (sid : String) (deadline : ℤ) : Prop :=
  ∃ f, F sid = some f ∧ deadline ≤ f.limit t + cfg.ttl

/-- The session was revoked or replaced. -/
def Dead (F : Fates) (sid : String) : Prop := ∃ f, F sid = some f ∧ f.death ≠ none

/-- A tombstone with the last version of its session. -/
def Final (F : Fates) (e : Entry) : Prop :=
  e.status = .revoked ∧ ∃ f, F e.sid = some f ∧ e.expiresAt = f.expiresAt ∧ e.version = f.version ∧
    f.death ≠ none

/-- The expiry of a tombstone is that of the session, or the whole time the cache keeps entries. -/
def Enough (cfg : Config) (t : ℤ) (e : Entry) (expiration : ℤ) : Prop :=
  1 ≤ expiration ∧ min (e.expiresAt * second - t) cfg.ttl / millisecond ≤ expiration

/-- The cache holds no active entry of the session, and takes none. -/
def Buried (cfg : Config) (F : Fates) (t : ℤ) (cache : Cache) (sid : String) : Prop :=
  ∃ f, F sid = some f ∧ f.death ≠ none ∧
    (∀ c, cache sid = some c → c.entry.status = .revoking ∨ c.entry.status = .revoked) ∧
    (f.bar cfg t ≤ unixMilli t ∨ ∃ c, cache sid = some c ∧ f.bar cfg t ≤ c.expireAt + 1)

section Time

variable {cfg : Config} {F F' : Fates} {t t' : ℤ}

theorem unixMilli_mono (h : t ≤ t') : unixMilli t ≤ unixMilli t' :=
  Int.ediv_le_ediv (by decide) h

theorem Later.refl (F : Fates) (t : ℤ) : Later F t F t :=
  ⟨le_rfl, fun _ f hf => ⟨f, hf, rfl, le_rfl, le_rfl, fun _ => rfl⟩⟩

variable {e : Entry}

theorem Known.later (h : Known F e) (hl : Later F t F' t') : Known F' e := by
  obtain ⟨f, hf, hexp, hver⟩ := h
  obtain ⟨f', hf', hexp', hver', -, -⟩ := hl.fate e.sid f hf
  exact ⟨f', hf', hexp.trans hexp'.symm, hver.trans hver'⟩

theorem Timely.later {sid : String} {deadline : ℤ} (h : Timely cfg F t sid deadline)
    (hl : Later F t F' t') : Timely cfg F' t' sid deadline := by
  obtain ⟨f, hf, hle⟩ := h
  obtain ⟨f', hf', -, -, hlimit, -⟩ := hl.fate sid f hf
  exact ⟨f', hf', hle.trans (by omega)⟩

theorem Dead.later {sid : String} (h : Dead F sid) (hl : Later F t F' t') : Dead F' sid := by
  obtain ⟨f, hf, hd⟩ := h
  obtain ⟨f', hf', -, -, -, hsame⟩ := hl.fate sid f hf
  exact ⟨f', hf', by rw [hsame hd]; exact hd⟩

theorem Final.later (h : Final F e) (hl : Later F t F' t') : Final F' e := by
  obtain ⟨hs, f, hf, hexp, hver, hd⟩ := h
  obtain ⟨f', hf', -, -, -, hsame⟩ := hl.fate e.sid f hf
  rw [hsame hd] at hf'
  exact ⟨hs, f, hf', hexp, hver, hd⟩

theorem Final.known (h : Final F e) : Known F e := by
  obtain ⟨-, f, hf, hexp, hver, -⟩ := h
  exact ⟨f, hf, hexp, hver.le⟩

theorem Final.dead (h : Final F e) : Dead F e.sid := by
  obtain ⟨-, f, hf, -, -, hd⟩ := h
  exact ⟨f, hf, hd⟩

theorem bar_later {f f' : Fate} (hexp : f'.expiresAt = f.expiresAt)
    (hlimit : f.limit t ≤ f'.limit t') : f.bar cfg t ≤ f'.bar cfg t' := by
  refine unixMilli_mono ?_
  rw [hexp]
  exact min_le_min (by omega) le_rfl

/-- What is over does not depend on the clock. -/
theorem bar_dead (t t' : ℤ) {f : Fate} (hd : f.death ≠ none) : f.bar cfg t = f.bar cfg t' := by
  obtain ⟨d, hd⟩ := Option.ne_none_iff_exists'.1 hd
  simp only [Fate.bar, Fate.limit, hd, Option.getD_some]

theorem Enough.later {expiration : ℤ} (h : Enough cfg t e expiration) (ht : t ≤ t') :
    Enough cfg t' e expiration := by
  refine ⟨h.1, le_trans (Int.ediv_le_ediv (by decide) ?_) h.2⟩
  exact min_le_min (by omega) le_rfl

theorem Buried.later {cache : Cache} {sid : String} (h : Buried cfg F t cache sid)
    (hl : Later F t F' t') : Buried cfg F' t' cache sid := by
  obtain ⟨f, hf, hd, hdeny, hbar⟩ := h
  obtain ⟨f', hf', -, -, -, hsame⟩ := hl.fate sid f hf
  rw [hsame hd] at hf'
  refine ⟨f, hf', hd, hdeny, ?_⟩
  rw [bar_dead t' t hd]
  obtain hbar | hbar := hbar
  · exact .inl (hbar.trans (unixMilli_mono hl.clock))
  · exact .inr hbar

/-- What `prepare` computes for a tombstone. -/
theorem prepare_deny (cfg : Config) (t : ℤ) (deadline : Option ℤ) (hs : e.status ≠ .active) :
    ∃ expiration, prepare cfg e deadline t = .ok expiration ∧ Enough cfg t e expiration := by
  unfold prepare Enough
  rw [if_neg hs]
  refine ⟨_, rfl, ?_⟩
  generalize min (e.expiresAt * second - t) cfg.ttl = ttl
  have hms : ∀ z : ℤ, z ≤ 0 → z / millisecond ≤ 0 := fun z hz => by
    unfold millisecond
    omega
  split_ifs with h₁ h₂ h₂
  · exact absurd h₂ (by decide)
  · have hone : (0 : ℤ) ≤ second / millisecond := by decide
    exact ⟨by decide, (hms ttl h₁).trans hone⟩
  · exact ⟨le_rfl, h₂.trans zero_le_one⟩
  · exact ⟨by omega, le_rfl⟩

theorem prepare_active {deadline expiration : ℤ} {f : Fate} (hs : e.status = .active)
    (hexp : e.expiresAt = f.expiresAt) (hlimit : deadline ≤ f.limit t + cfg.ttl)
    (h : prepare cfg e (some deadline) t = .ok expiration) : expiration ≤ f.bar cfg t := by
  simp only [prepare, if_pos hs] at h
  split_ifs at h with h₁ h₂ h₃
  rw [Except.ok.injEq] at h
  rw [← h]
  refine unixMilli_mono ?_
  rw [hexp]
  exact min_le_min hlimit le_rfl

/-- **A tombstone that is published after the revocation outlives every active copy.** -/
theorem Enough.covers {expiration : ℤ} (h : Enough cfg t e expiration) {f : Fate}
    (hexp : e.expiresAt = f.expiresAt) (hlimit : f.limit t ≤ t) :
    f.bar cfg t ≤ unixMilli t + expiration + 1 := by
  have hle : f.bar cfg t ≤ unixMilli (t + min (e.expiresAt * second - t) cfg.ttl) := by
    refine unixMilli_mono ?_
    rw [hexp]
    have h₁ := min_le_left (f.limit t + cfg.ttl) (f.expiresAt * second)
    have h₂ := min_le_right (f.limit t + cfg.ttl) (f.expiresAt * second)
    have h₃ : f.limit t + cfg.ttl ≤ t + cfg.ttl := by omega
    rcases min_choice (f.expiresAt * second - t) cfg.ttl with hm | hm
    · rw [hm]
      omega
    · rw [hm]
      omega
  have h₂ := h.2
  generalize min (e.expiresAt * second - t) cfg.ttl = m at hle h₂
  unfold unixMilli millisecond at *
  omega

end Time

/-! ### The invariant -/

/-- The rows of the table have their fates, and active ones are not over. -/
structure RowsOk (F : Fates) (rows : List Session) : Prop where
  keys : (rows.map fun s => s.sid).Nodup
  known : ∀ s ∈ rows, Known F s.toEntry
  active : ∀ s ∈ rows, s.status = .active →
    ∃ f, F s.sid = some f ∧ f.death = none ∧ f.version = s.version

/-- The entries of the cache are copies, and active ones expire in time. -/
structure CacheOk (cfg : Config) (F : Fates) (t : ℤ) (cache : Cache) : Prop where
  key : ∀ sid c, cache sid = some c → c.entry.sid = sid
  known : ∀ sid c, cache sid = some c → Known F c.entry
  active : ∀ sid c, cache sid = some c → c.entry.status = .active →
    ∀ f, F sid = some f → c.expireAt ≤ f.bar cfg t
  deny : ∀ sid c, cache sid = some c → c.entry.status ≠ .active →
    c.entry.status = .revoking ∨ c.entry.status = .revoked

/-- A continuation fits the entry that is written. -/
def Then.Sound (cfg : Config) (F : Fates) (t : ℤ) (e : Entry) : Then → Prop
  | .denied _ | .created _ | .advanced _ | .rotated _ _ => True
  | .got _ late => late = false
  | .replaced sid s deadline =>
    e.sid = sid ∧ Final F e ∧ s.status = .active ∧ Known F s.toEntry ∧ Timely cfg F t s.sid deadline
  | .cleaned sid rest s deadline =>
    e.sid = sid ∧ Final F e ∧ (∀ r ∈ rest, Final F r.toEntry) ∧ s.status = .active ∧
      Known F s.toEntry ∧ Timely cfg F t s.sid deadline
  | .reuseFence r s => s.sid = r.sid ∧ Known F s.toEntry
  | .reuseFinal r => e.sid = r.sid ∧ e.status = .revoked ∧ Dead F r.sid
  | .revokeFence v s => s.sid = v.sid ∧ Known F s.toEntry
  | .revokeFinal sid => e.sid = sid ∧ e.status = .revoked ∧ Dead F sid
  | .hashFence _ _ row => row.status = .active
  | .hashFinal sid => e.sid = sid ∧ Final F e
  | .bulkFence _ rest _ => ∀ s ∈ rest, Known F s.toEntry
  | .bulkFinal _ sid rest => e.sid = sid ∧ Final F e ∧ ∀ r ∈ rest, Final F r.toEntry

/-- The session that a continuation dismisses. -/
def Then.buries : Then → Option String
  | .replaced sid _ _ | .cleaned sid _ _ _ | .revokeFinal sid | .hashFinal sid
  | .bulkFinal _ sid _ => some sid
  | .reuseFinal r => some r.sid
  | _ => none

/-- The continuations of a confirmation. -/
def Then.Confirms : Then → Prop
  | .created _ | .advanced _ | .rotated _ _ => True
  | .got _ late => late = false
  | _ => False

/-- What a call knows. -/
def Call.Sound (cfg : Config) (F : Fates) (sh : Shared) : Call → Prop
  | .get sid late | .getDeadline sid late => late = true → sid ∈ sh.gone
  | .getRead sid late deadline => (late = true → sid ∈ sh.gone) ∧ deadline ≤ sh.clock + cfg.ttl
  | .getCheck s late deadline =>
    Known F s.toEntry ∧ (s.status = .active → late = false ∧ Timely cfg F sh.clock s.sid deadline)
  | .publish e deadline k =>
    Known F e ∧ k.Sound cfg F sh.clock e ∧
      ((e.status = .active ∧ ∃ d, deadline = some d ∧ Timely cfg F sh.clock e.sid d) ∨
        e.status = .revoking ∨ e.status = .revoked)
  | .script e _ expiration k =>
    Known F e ∧ k.Sound cfg F sh.clock e ∧
      ((e.status = .active ∧ ∀ f, F e.sid = some f → expiration ≤ f.bar cfg sh.clock) ∨
        ((e.status = .revoking ∨ e.status = .revoked) ∧ Enough cfg sh.clock e expiration))
  | .completed e _ k => e.status = .active ∧ k.Sound cfg F sh.clock e
  | .confirm _ k => k.Confirms
  | .loginRenew _ _ deadline | .loginCreate _ _ deadline _ | .login _ _ deadline _ _
  | .rotateRead _ _ deadline | .advanceClock _ deadline | .advance _ deadline _ =>
    deadline ≤ sh.clock + cfg.ttl
  | .rotateSwap r _ deadline s =>
    s.sid = r.sid ∧ s.status = .active ∧ Known F s.toEntry ∧ Timely cfg F sh.clock s.sid deadline
  | .reuseUpdate r s => s.sid = r.sid ∧ Known F s.toEntry
  | .revoke v s => s.sid = v.sid ∧ Known F s.toEntry
  | .hashCommit _ _ row => row.status = .active
  | _ => True

/-- The session id that a login is about to take. -/
def Call.takes : Call → Option String
  | .loginRenew s _ _ | .loginCreate s _ _ _ | .login s _ _ _ _ => some s.sid
  | _ => none

/-- The invariant, for given fates. -/
structure Upheld (cfg : Config) (F : Fates) (p : Pool Shared Call) : Prop where
  rows : RowsOk F p.shared.sessions
  cache : CacheOk cfg F p.shared.clock p.shared.cache
  gone : ∀ sid ∈ p.shared.gone, Buried cfg F p.shared.clock p.shared.cache sid
  calls : ∀ c ∈ p.calls, c.Sound cfg F p.shared
  deaths : ∀ sid f, F sid = some f → f.limit p.shared.clock ≤ p.shared.clock
  used : ∀ sid, F sid ≠ none → sid ∈ p.shared.used
  logins : (p.calls.filterMap Call.takes).Nodup
  fresh : ∀ sid ∈ p.calls.filterMap Call.takes, F sid = none ∧ sid ∈ p.shared.used
  kept : ∀ n ∈ p.shared.journal, n.kept

def Inv (cfg : Config) (p : Pool Shared Call) : Prop := ∃ F, Upheld cfg F p

section Facts

variable {cfg : Config} {F F' : Fates} {t t' : ℤ}

theorem Then.Sound.later {e : Entry} {k : Then} (h : k.Sound cfg F t e) (hl : Later F t F' t') :
    k.Sound cfg F' t' e := by
  cases k with
  | denied | created | rotated | advanced => trivial
  | got | hashFence => exact h
  | replaced sid s deadline =>
    exact ⟨h.1, h.2.1.later hl, h.2.2.1, h.2.2.2.1.later hl, h.2.2.2.2.later hl⟩
  | cleaned sid rest s deadline =>
    exact ⟨h.1, h.2.1.later hl, fun r hr => (h.2.2.1 r hr).later hl, h.2.2.2.1,
      h.2.2.2.2.1.later hl, h.2.2.2.2.2.later hl⟩
  | reuseFence | revokeFence | hashFinal => exact ⟨h.1, h.2.later hl⟩
  | reuseFinal | revokeFinal => exact ⟨h.1, h.2.1, h.2.2.later hl⟩
  | bulkFence v rest batch => exact fun s hs => (h s hs).later hl
  | bulkFinal v sid rest => exact ⟨h.1, h.2.1.later hl, fun r hr => (h.2.2 r hr).later hl⟩

/-- What a call knows stays true. -/
theorem Call.Sound.later {sh sh' : Shared} {c : Call} (h : c.Sound cfg F sh)
    (hl : Later F sh.clock F' sh'.clock) (hgone : sh.gone ⊆ sh'.gone) : c.Sound cfg F' sh' := by
  have hclock := hl.clock
  cases c with
  | get | getDeadline => exact fun hlate => hgone (h hlate)
  | getRead sid late deadline =>
    exact ⟨fun hlate => hgone (h.1 hlate), h.2.trans (by omega)⟩
  | getCheck s late deadline =>
    exact ⟨h.1.later hl, fun hs => ⟨(h.2 hs).1, (h.2 hs).2.later hl⟩⟩
  | publish e deadline k =>
    refine ⟨h.1.later hl, h.2.1.later hl, h.2.2.imp_left fun ⟨hs, d, hd, ht⟩ => ?_⟩
    exact ⟨hs, d, hd, ht.later hl⟩
  | script e deadline expiration k =>
    refine ⟨h.1.later hl, h.2.1.later hl, ?_⟩
    obtain ⟨hs, hbar⟩ | ⟨hs, henough⟩ := h.2.2
    · refine .inl ⟨hs, fun f' hf' => ?_⟩
      obtain ⟨f, hf, -⟩ := h.1
      obtain ⟨f'', hf'', hexp, -, hlimit, -⟩ := hl.fate e.sid f hf
      rw [hf', Option.some.injEq] at hf''
      rw [← hf''] at hexp hlimit
      exact (hbar f hf).trans (bar_later hexp hlimit)
    · exact .inr ⟨hs, henough.later hclock⟩
  | completed | reuseUpdate | revoke => exact ⟨h.1, h.2.later hl⟩
  | confirm | hashCommit => exact h
  | loginRenew | loginCreate | login | rotateRead | advanceClock | advance => exact le_trans h (by omega)
  | rotateDeadline | revokeRead | hashRead | bulkFind | bulk | cleanFind | cleanDelete => trivial
  | rotateSwap r tries deadline s => exact ⟨h.1, h.2.1, h.2.2.1.later hl, h.2.2.2.later hl⟩

theorem CacheOk.later {cache : Cache} (h : CacheOk cfg F t cache) (hl : Later F t F' t') :
    CacheOk cfg F' t' cache := by
  refine ⟨h.key, fun sid c hc => (h.known sid c hc).later hl, ?_, h.deny⟩
  intro sid c hc hs f' hf'
  obtain ⟨f, hf, -⟩ := h.known sid c hc
  rw [h.key sid c hc] at hf
  obtain ⟨f'', hf'', hexp, -, hlimit, -⟩ := hl.fate sid f hf
  rw [hf', Option.some.injEq] at hf''
  rw [← hf''] at hexp hlimit
  exact (h.active sid c hc hs f hf).trans (bar_later hexp hlimit)

/-- The order of the calls says nothing. -/
theorem Upheld.perm {sh : Shared} {calls calls' : List Call} (h : Upheld cfg F ⟨sh, calls⟩)
    (hp : calls.Perm calls') : Upheld cfg F ⟨sh, calls'⟩ := by
  have htakes : (calls.filterMap Call.takes).Perm (calls'.filterMap Call.takes) := hp.filterMap _
  refine ⟨h.rows, h.cache, h.gone, ?_, h.deaths, h.used, ?_, ?_, h.kept⟩
  · exact fun c hc => h.calls c (hp.mem_iff.2 hc)
  · exact htakes.nodup_iff.1 h.logins
  · exact fun sid hsid => h.fresh sid (htakes.mem_iff.2 hsid)

end Facts

/-! ### Steps that change neither table nor cache -/

section Steps

variable {cfg : Config} {F F' : Fates} {sh sh' : Shared} {calls : List Call} {x : Call}
  {rest : Option Call}

section

variable (h : Upheld cfg F ⟨sh, x :: calls⟩)
include h

/-- **A step of a call**, and what is to be shown about it. -/
theorem Upheld.next (hl : Later F sh.clock F' sh'.clock)
    (hnone : ∀ sid, x.takes ≠ some sid → F sid = none → F' sid = none)
    (hrows : RowsOk F' sh'.sessions) (hcache : CacheOk cfg F' sh'.clock sh'.cache)
    (hsub : sh.gone ⊆ sh'.gone) (hgone : ∀ sid ∈ sh'.gone, Buried cfg F' sh'.clock sh'.cache sid)
    (hrest : ∀ c ∈ rest, c.Sound cfg F' sh' ∧ c.takes = none)
    (hdeaths : ∀ sid f, F' sid = some f → f.limit sh'.clock ≤ sh'.clock)
    (hused : sh'.used = sh.used) (hkept : ∀ n ∈ sh'.journal, n.kept) :
    Upheld cfg F' ⟨sh', rest.toList ++ calls⟩ := by
  have hlogins : (x.takes.toList ++ calls.filterMap Call.takes).Nodup ∧
      ∀ sid ∈ x.takes.toList ++ calls.filterMap Call.takes, F sid = none ∧ sid ∈ sh.used := by
    have hcons : (x :: calls).filterMap Call.takes =
        x.takes.toList ++ calls.filterMap Call.takes := by
      cases hx : x.takes with
      | none => exact filterMap_cons_none hx
      | some sid => exact filterMap_cons_some hx
    rw [← hcons]
    exact ⟨h.logins, h.fresh⟩
  have htakes : (rest.toList ++ calls).filterMap Call.takes = calls.filterMap Call.takes := by
    cases rest with
    | none => rfl
    | some c => exact filterMap_cons_none (hrest c rfl).2
  obtain ⟨hnodup, hfresh⟩ := hlogins
  obtain ⟨-, hcalls, hdisjoint⟩ := nodup_append.1 hnodup
  refine ⟨hrows, hcache, hgone, ?_, hdeaths, ?_, ?_, ?_, hkept⟩
  · intro c hc
    obtain hc | hc := mem_append.1 hc
    · exact (hrest c (Option.mem_toList.1 hc)).1
    · exact (h.calls c (mem_cons_of_mem _ hc)).later hl hsub
  · intro sid hsid
    rw [hused]
    by_cases hx : x.takes = some sid
    · exact (hfresh sid (by simp [hx])).2
    · exact h.used sid fun hF => hsid (hnone sid hx hF)
  · show ((rest.toList ++ calls).filterMap Call.takes).Nodup
    rw [htakes]
    exact hcalls
  · intro sid hsid
    have hsid : sid ∈ (rest.toList ++ calls).filterMap Call.takes := hsid
    rw [htakes] at hsid
    obtain ⟨hF, hmem⟩ := hfresh sid (mem_append_right _ hsid)
    rw [hused]
    refine ⟨hnone sid (fun hx => ?_) hF, hmem⟩
    -- a session id that this call was about to take is nobody else's
    exact hdisjoint sid (by simp [hx]) sid hsid rfl

/-- The tables are left alone; sessions may be dismissed that are buried. -/
theorem Upheld.goes
    (hsame : sh'.sessions = sh.sessions ∧ sh'.cache = sh.cache ∧ sh'.clock = sh.clock ∧
      sh'.used = sh.used) (hsub : sh.gone ⊆ sh'.gone)
    (hgone : ∀ sid ∈ sh'.gone, sid ∈ sh.gone ∨ Buried cfg F sh.clock sh.cache sid)
    (hjournal : ∀ n ∈ sh'.journal, n ∈ sh.journal ∨ n.kept)
    (hrest : ∀ c ∈ rest, c.Sound cfg F sh' ∧ c.takes = none) :
    Upheld cfg F ⟨sh', rest.toList ++ calls⟩ := by
  obtain ⟨hsessions, hcache, hclock, hused⟩ := hsame
  refine h.next ?_ (fun _ _ hF => hF) ?_ ?_ hsub ?_ hrest ?_ hused ?_
  · rw [hclock]
    exact .refl F sh.clock
  · rw [hsessions]
    exact h.rows
  · rw [hclock, hcache]
    exact h.cache
  · intro sid hsid
    rw [hclock, hcache]
    exact (hgone sid hsid).elim (h.gone sid) id
  · rw [hclock]
    exact h.deaths
  · exact fun n hn => (hjournal n hn).elim (h.kept n) id

/-- A call takes a step and the shared state is left alone. -/
theorem Upheld.moves {y : Call} (hy : y.Sound cfg F sh) (hty : y.takes = none) :
    Upheld cfg F ⟨sh, (some y).toList ++ calls⟩ := by
  refine h.goes ⟨rfl, rfl, rfl, rfl⟩ (List.Subset.refl _) (fun _ hs => .inl hs)
    (fun _ hn => .inl hn) ?_
  rintro c ⟨⟩
  exact ⟨hy, hty⟩

theorem Upheld.returns {n : Note}
    (hn : n.kept) : Upheld cfg F ⟨sh.note n, (none : Option Call).toList ++ calls⟩ := by
  refine h.goes ⟨rfl, rfl, rfl, rfl⟩ (List.Subset.refl _) (fun _ hs => .inl hs) ?_ ?_
  · intro n' hn'
    obtain rfl | hn' := mem_cons.1 hn'
    · exact .inr hn
    · exact .inl hn'
  · exact fun c hc => nomatch hc

end

variable {sid : String}

theorem Upheld.dismisses (h : Upheld cfg F ⟨sh, x :: calls⟩)
    (hb : Buried cfg F sh.clock sh.cache sid) {y : Call} (hy : y.Sound cfg F sh)
    (hty : y.takes = none) : Upheld cfg F ⟨sh.dismiss sid, (some y).toList ++ calls⟩ := by
  have hsub : sh.gone ⊆ (sh.dismiss sid).gone := subset_cons_self _ _
  refine h.goes ⟨rfl, rfl, rfl, rfl⟩ hsub ?_ (fun _ hn => .inl hn) ?_
  · intro sid' hsid'
    obtain rfl | hsid' := mem_cons.1 hsid'
    · exact .inr hb
    · exact .inl hsid'
  · rintro c ⟨⟩
    exact ⟨hy.later (.refl F sh.clock) hsub, hty⟩

/-- A session is dismissed, and the call returns. -/
theorem Upheld.leaves (h : Upheld cfg F ⟨sh, x :: calls⟩)
    (hb : Buried cfg F sh.clock sh.cache sid) {n : Note} (hn : n.kept) :
    Upheld cfg F ⟨(sh.dismiss sid).note n, (none : Option Call).toList ++ calls⟩ := by
  have hsub : sh.gone ⊆ ((sh.dismiss sid).note n).gone := subset_cons_self _ _
  refine h.goes ⟨rfl, rfl, rfl, rfl⟩ hsub ?_ ?_ ?_
  · intro sid' hsid'
    obtain rfl | hsid' := mem_cons.1 hsid'
    · exact .inr hb
    · exact .inl hsid'
  · intro n' hn'
    obtain rfl | hn' := mem_cons.1 hn'
    · exact .inr hn
    · exact .inl hn'
  · exact fun c hc => nomatch hc

/-! ### Writes to the cache -/

/-- A tombstone is about to be written. -/
theorem publish_final {e : Entry} {k : Then} (he : Final F e) (hk : k.Sound cfg F sh.clock e) :
    (Call.publish e none k).Sound cfg F sh :=
  ⟨he.known, hk, .inr (.inr he.1)⟩

variable {deadline t expiration : ℤ}

theorem publish_active {s : Session} {k : Then} (hs : s.status = .active)
    (hknown : Known F s.toEntry) (ht : Timely cfg F sh.clock s.sid deadline)
    (hk : k.Sound cfg F sh.clock s.toEntry) :
    (Call.publish s.toEntry (some deadline) k).Sound cfg F sh :=
  ⟨hknown, hk, .inl ⟨hs, deadline, rfl, ht⟩⟩

theorem cleanFinals_sound (cfg : Config) (sh : Shared) {s : Session} {stale : List Session}
    (hstale : ∀ r ∈ stale, Final F r.toEntry) (hs : s.status = .active)
    (hknown : Known F s.toEntry) (ht : Timely cfg F sh.clock s.sid deadline) :
    (cleanFinals s deadline stale).Sound cfg F sh ∧ (cleanFinals s deadline stale).takes = none := by
  cases stale with
  | nil => exact ⟨publish_active hs hknown ht trivial, rfl⟩
  | cons r stale =>
    have hr := hstale r mem_cons_self
    exact ⟨publish_final hr ⟨rfl, hr, fun r' hr' => hstale r' (mem_cons_of_mem _ hr'), hs,
      hknown, ht⟩, rfl⟩

theorem bulkFinals_sound (cfg : Config) (sh : Shared) (v : Revocation) {revoked : List Session}
    (hrevoked : ∀ r ∈ revoked, Final F r.toEntry) :
    (bulkFinals v revoked).Sound cfg F sh ∧ (bulkFinals v revoked).takes = none := by
  cases revoked with
  | nil => exact ⟨trivial, rfl⟩
  | cons r revoked =>
    have hr := hrevoked r mem_cons_self
    exact ⟨publish_final hr ⟨rfl, hr, fun r' hr' => hrevoked r' (mem_cons_of_mem _ hr')⟩, rfl⟩

theorem bulkNext_sound (cfg : Config) (sh : Shared) (v : Revocation) (batch : List Session)
    {fences : List Session} (hfences : ∀ s ∈ fences, Known F s.toEntry) :
    (bulkNext v batch fences).Sound cfg F sh ∧ (bulkNext v batch fences).takes = none := by
  cases fences with
  | nil => exact ⟨trivial, rfl⟩
  | cons s fences =>
    refine ⟨⟨?_, fun s' hs' => hfences s' (mem_cons_of_mem _ hs'), .inr (.inl rfl)⟩, rfl⟩
    exact hfences s mem_cons_self

/-- **What an operation does after a write to the cache.** -/
theorem Upheld.proceed (h : Upheld cfg F ⟨sh, x :: calls⟩) {e : Entry}
    {k : Then} (hk : k.Sound cfg F sh.clock e) (result : Except Err Unit)
    (hb : ∀ sid, k.buries = some sid → Buried cfg F sh.clock sh.cache sid) :
    Upheld cfg F ⟨(proceed sh result k).1, (proceed sh result k).2.toList ++ calls⟩ := by
  cases k with
  | denied late => exact h.returns (by simp [Note.kept])
  | got s late =>
    have hlate : late = false := hk
    subst hlate
    have hyes : ∀ active, (Note.got false active).kept := by simp [Note.kept]
    simp only [Sessions.proceed]
    split
    · exact h.moves rfl rfl
    · exact h.returns (hyes _)
    · exact h.returns (hyes _)
  | created | rotated | advanced =>
    simp only [Sessions.proceed]
    split
    · exact h.moves trivial rfl
    · exact h.returns trivial
    · exact h.returns trivial
  | replaced sid s deadline =>
    obtain ⟨-, -, hs, hknown, ht⟩ := hk
    exact h.dismisses (hb sid rfl) (publish_active hs hknown ht trivial) rfl
  | cleaned sid rest s deadline =>
    obtain ⟨-, -, hstale, hs, hknown, ht⟩ := hk
    obtain ⟨hsound, htakes⟩ := cleanFinals_sound cfg sh hstale hs hknown ht
    exact h.dismisses (hb sid rfl) hsound htakes
  | reuseFence | revokeFence | hashFence =>
    cases result with
    | error err => exact h.returns trivial
    | ok u => exact h.moves hk rfl
  | reuseFinal r => exact h.leaves (hb r.sid rfl) trivial
  | revokeFinal sid => exact h.leaves (hb sid rfl) trivial
  | hashFinal sid => exact h.leaves (hb sid rfl) trivial
  | bulkFence v rest batch =>
    cases result with
    | error err => exact h.returns trivial
    | ok u =>
      obtain ⟨hsound, htakes⟩ := bulkNext_sound cfg sh v batch hk
      exact h.moves hsound htakes
  | bulkFinal v sid rest =>
    obtain ⟨hsound, htakes⟩ := bulkFinals_sound cfg sh v hk.2.2
    exact h.dismisses (hb sid rfl) hsound htakes

/-- What a continuation that dismisses a session knows of the tombstone. -/
theorem Then.Sound.final {e : Entry} {k : Then} (h : k.Sound cfg F t e) (hk : k.buries = some sid) :
    e.sid = sid ∧ e.status = .revoked ∧ Dead F sid ∧ (k.stale = false → Final F e) := by
  cases k with
  | replaced | cleaned | bulkFinal =>
    cases hk
    exact ⟨h.1, h.2.1.1, h.1 ▸ h.2.1.dead, fun _ => h.2.1⟩
  | reuseFinal | revokeFinal =>
    cases hk
    exact ⟨h.1, h.2.1, h.2.2, fun hstale => nomatch hstale⟩
  | hashFinal sid' =>
    cases hk
    exact ⟨h.1, h.2.1, h.1 ▸ h.2.dead, fun _ => h.2⟩
  | denied _ | got _ _ | created _ | rotated _ _ | reuseFence _ _ | advanced _ | revokeFence _ _
  | hashFence _ _ _ | bulkFence _ _ _ => cases hk

theorem find_cases {cache : Cache} {e : Entry} (h : cache.find sid t = some e) :
    ∃ c, cache sid = some c ∧ unixMilli t ≤ c.expireAt ∧ c.entry = e := by
  unfold Cache.find at h
  rcases hc : cache sid with _ | c
  · rw [hc] at h; cases h
  rw [hc] at h
  simp only at h
  split_ifs at h with hle
  cases h
  exact ⟨c, rfl, hle, rfl⟩

theorem find_eq_some {cache : Cache} {c : Cached} (hc : cache sid = some c)
    (hle : unixMilli t ≤ c.expireAt) : cache.find sid t = some c.entry := by
  simp only [Cache.find, hc, if_pos hle]

/-- The cache never refuses the tombstone of the last version. -/
theorem CacheOk.accepts {cache : Cache} (h : CacheOk cfg F t cache) {e : Entry}
    (he : Final F e) : refuses (cache.find e.sid t) e = false := by
  obtain ⟨hs, f, hf, -, hver, -⟩ := he
  cases hc : cache.find e.sid t with
  | none => rfl
  | some e' =>
    obtain ⟨c, hc', -, rfl⟩ := find_cases hc
    obtain ⟨f', hf', -, hver'⟩ := h.known _ _ hc'
    rw [h.key _ _ hc', hf, Option.some.injEq] at hf'
    have hle : ¬ e.version < c.entry.version := by
      rw [hver, hf']
      exact not_lt.2 hver'
    simp [refuses, hs, hle]

/-- A tombstone buries a session that is over. -/
theorem Upheld.bury (h : Upheld cfg F ⟨sh, x :: calls⟩) {e : Entry} (hknown : Known F e)
    (henough : Enough cfg sh.clock e expiration)
    (hs : e.status = .revoking ∨ e.status = .revoked) (hdead : Dead F e.sid) {cache : Cache}
    (hcache : cache e.sid = some ⟨e, unixMilli sh.clock + expiration⟩) :
    Buried cfg F sh.clock cache e.sid := by
  obtain ⟨f, hf, hd⟩ := hdead
  obtain ⟨f', hf', hexp, -⟩ := hknown
  rw [hf, Option.some.injEq] at hf'
  subst hf'
  refine ⟨f, hf, hd, fun c hc => ?_, .inr ⟨_, hcache, ?_⟩⟩
  · rw [hcache, Option.some.injEq] at hc
    rw [← hc]
    exact hs
  · exact henough.covers hexp (h.deaths _ f hf)

/-- **The script keeps active entries in time, and out of the way of tombstones.** -/
theorem Upheld.write (h : Upheld cfg F ⟨sh, x :: calls⟩) (hx : x.takes = none) {e : Entry}
    (hknown : Known F e)
    (hexp : (e.status = .active ∧ ∀ f, F e.sid = some f → expiration ≤ f.bar cfg sh.clock) ∨
      ((e.status = .revoking ∨ e.status = .revoked) ∧ Enough cfg sh.clock e expiration))
    (hok : refuses (sh.cache.find e.sid sh.clock) e = false) :
    Upheld cfg F ⟨{ sh with cache := sh.cache.write e expiration sh.clock }, x :: calls⟩ := by
  have hwrite : sh.cache.write e expiration sh.clock = fun sid =>
      if sid = e.sid then
        if e.status = .active then
          if expiration ≤ unixMilli sh.clock then none else some ⟨e, expiration⟩
        else some ⟨e, unixMilli sh.clock + expiration⟩
      else sh.cache sid := by
    unfold Cache.write
    rw [if_neg (by rw [hok]; exact false_ne_true)]
  have hcase : ∀ sid c, sh.cache.write e expiration sh.clock sid = some c →
      (sid = e.sid ∧ c.entry = e ∧ (e.status = .active → c.expireAt = expiration)) ∨
        (sid ≠ e.sid ∧ sh.cache sid = some c) := by
    intro sid c hc
    simp only [hwrite] at hc
    split_ifs at hc with h₁ h₂ h₃
    · cases hc
      exact .inl ⟨h₁, rfl, fun _ => rfl⟩
    · cases hc
      exact .inl ⟨h₁, rfl, fun hs => absurd hs h₂⟩
    · exact .inr ⟨h₁, hc⟩
  show Upheld cfg F ⟨_, (some x).toList ++ calls⟩
  refine h.next (.refl F sh.clock) (fun _ _ hF => hF) h.rows ?_ (List.Subset.refl _) ?_ ?_
    h.deaths rfl h.kept
  · refine ⟨?_, ?_, ?_, ?_⟩
    · intro sid c hc
      obtain ⟨rfl, he, -⟩ | ⟨-, hc⟩ := hcase sid c hc
      · rw [he]
      · exact h.cache.key sid c hc
    · intro sid c hc
      obtain ⟨-, he, -⟩ | ⟨-, hc⟩ := hcase sid c hc
      · rw [he]
        exact hknown
      · exact h.cache.known sid c hc
    · intro sid c hc hs f hf
      obtain ⟨rfl, he, hat⟩ | ⟨-, hc⟩ := hcase sid c hc
      · rw [he] at hs
        obtain ⟨-, hbar⟩ | ⟨hdeny, -⟩ := hexp
        · rw [hat hs]
          exact hbar f hf
        · rw [hs] at hdeny
          exact absurd hdeny (by decide)
      · exact h.cache.active sid c hc hs f hf
    · intro sid c hc hs
      obtain ⟨-, he, -⟩ | ⟨-, hc⟩ := hcase sid c hc
      · rw [he] at hs ⊢
        exact hexp.elim (fun hact => absurd hact.1 hs) fun hdeny => hdeny.1
      · exact h.cache.deny sid c hc hs
  · intro sid hsid
    by_cases heq : sid = e.sid
    · subst heq
      obtain ⟨f, hf, hd, hdeny, hbar⟩ := h.gone _ hsid
      obtain ⟨hs, hin⟩ | ⟨hs, henough⟩ := hexp
      · -- an active copy comes too late, or finds the tombstone
        have hlate : f.bar cfg sh.clock ≤ unixMilli sh.clock := by
          obtain hbar | ⟨c, hc, hbar⟩ := hbar
          · exact hbar
          · by_contra hlt
            have hbar : f.bar cfg sh.clock ≤ c.expireAt + 1 := hbar
            have hlive := find_eq_some (t := sh.clock) hc (by omega)
            rw [hlive] at hok
            obtain hst | hst := hdeny c hc <;> simp [refuses, hs, hst] at hok
        have hnone : sh.cache.write e expiration sh.clock e.sid = none := by
          simp only [hwrite, if_true, hs]
          rw [if_pos ((hin f hf).trans hlate)]
        refine ⟨f, hf, hd, fun c hc => ?_, .inl hlate⟩
        have hc : sh.cache.write e expiration sh.clock e.sid = some c := hc
        rw [hnone] at hc
        cases hc
      · refine h.bury hknown henough hs ⟨f, hf, hd⟩ ?_
        have hne : e.status ≠ .active := by
          rintro hact
          rw [hact] at hs
          exact absurd hs (by decide)
        simp only [hwrite, if_true, if_neg hne]
    · obtain ⟨f, hf, hd, hdeny, hbar⟩ := h.gone sid hsid
      have hsame : sh.cache.write e expiration sh.clock sid = sh.cache sid := by
        simp only [hwrite, if_neg heq]
      refine ⟨f, hf, hd, ?_, ?_⟩
      · show ∀ c, sh.cache.write e expiration sh.clock sid = some c → _
        rw [hsame]
        exact hdeny
      · show _ ∨ ∃ c, sh.cache.write e expiration sh.clock sid = some c ∧ _
        rw [hsame]
        exact hbar
  · rintro c ⟨⟩
    exact ⟨(h.calls x mem_cons_self).later (.refl F sh.clock) (List.Subset.refl _), hx⟩

/-- **The script of a call.** -/
theorem Upheld.script {fails : Bool} {e : Entry} {deadline : Option ℤ} {k : Then}
    (h : Upheld cfg F ⟨sh, .script e deadline expiration k :: calls⟩)
    (hp : k.stale = false ∨ refuses (sh.cache.find e.sid sh.clock) e = false) :
    Upheld cfg F ⟨(act cfg fails sh (.script e deadline expiration k)).1,
      (act cfg fails sh (.script e deadline expiration k)).2.toList ++ calls⟩ := by
  obtain ⟨hknown, hk, hexp⟩ := h.calls _ mem_cons_self
  have haccepts : ∀ sid, k.buries = some sid →
      refuses (sh.cache.find e.sid sh.clock) e = false := by
    intro sid hsid
    obtain hstale | hok := hp
    · exact h.cache.accepts ((hk.final hsid).2.2.2 hstale)
    · exact hok
  simp only [act]
  split_ifs with hrefused hs
  · refine h.proceed hk _ fun sid hsid => ?_
    rw [haccepts sid hsid] at hrefused
    cases hrefused
  · have hok : refuses (sh.cache.find e.sid sh.clock) e = false := eq_false_iff.2 hrefused
    exact (h.write rfl hknown hexp hok).moves ⟨hs, hk⟩ rfl
  · have hok : refuses (sh.cache.find e.sid sh.clock) e = false := eq_false_iff.2 hrefused
    have hw := h.write rfl hknown hexp hok
    refine hw.proceed hk _ fun sid hsid => ?_
    obtain ⟨hact, -⟩ | ⟨hdeny, henough⟩ := hexp
    · exact absurd hact hs
    · obtain ⟨rfl, -, hdead, -⟩ := hk.final hsid
      refine h.bury hknown henough hdeny hdead ?_
      simp only [Cache.write, hok, false_eq_true, if_false, if_true, if_neg hs]

end Steps

/-! ### Changes of the table -/

section Rows

variable {cfg : Config} {F : Fates} {t : ℤ} {rows : List Session}

/-- The sessions that `p` says are over from now on. -/
def kill (F : Fates) (t : ℤ) (p : String → Bool) : Fates := fun sid =>
  if p sid then (F sid).map fun f => { f with death := some (f.limit t) } else F sid

variable {p : String → Bool}

theorem kill_none {sid : String} (h : F sid = none) : kill F t p sid = none := by
  simp [kill, h]

theorem kill_some {sid : String} {f : Fate} (h : F sid = some f) :
    ∃ f', kill F t p sid = some f' ∧ f'.expiresAt = f.expiresAt ∧ f'.version = f.version ∧
      f'.limit t = f.limit t ∧ (f.death ≠ none → f' = f) ∧ (p sid = true → f'.death ≠ none) ∧
      (p sid = false → f' = f) := by
  cases hp : p sid with
  | false =>
    refine ⟨f, by simp [kill, h, hp], rfl, rfl, rfl, fun _ => rfl, ?_, fun _ => rfl⟩
    exact fun hfalse => absurd hfalse false_ne_true
  | true =>
    refine ⟨{ f with death := some (f.limit t) }, by simp [kill, h, hp], rfl, rfl, rfl, ?_, ?_, ?_⟩
    · intro hd
      obtain ⟨d, hd⟩ := Option.ne_none_iff_exists'.1 hd
      cases f
      simp_all [Fate.limit]
    · simp
    · exact fun htrue => absurd htrue.symm false_ne_true

theorem kill_later (F : Fates) (t : ℤ) (p : String → Bool) : Later F t (kill F t p) t := by
  refine ⟨le_rfl, fun sid f hf => ?_⟩
  obtain ⟨f', hf', hexp, hver, hlimit, hsame, -⟩ := kill_some (t := t) (p := p) hf
  exact ⟨f', hf', hexp, hver.ge, hlimit.ge, hsame⟩

theorem kill_deaths (h : ∀ sid f, F sid = some f → f.limit t ≤ t) (p : String → Bool) :
    ∀ sid f, kill F t p sid = some f → f.limit t ≤ t := by
  intro sid f' hf'
  cases hf : F sid with
  | none => rw [kill_none hf] at hf'; cases hf'
  | some f =>
    obtain ⟨f'', hf'', -, -, hlimit, -⟩ := kill_some (t := t) (p := p) hf
    rw [hf', Option.some.injEq] at hf''
    rw [hf'', hlimit]
    exact h sid f hf

theorem RowsOk.keeps (h : RowsOk F rows) {q : Session → Bool} {f : Session → Session}
    (hf : ∀ s, (f s).sid = s.sid ∧ (f s).expiresAt = s.expiresAt ∧ (f s).version = s.version ∧
      (f s).status = s.status) : RowsOk F (update q f rows) := by
  refine ⟨?_, ?_, ?_⟩
  · rw [update_keys fun s => (hf s).1]
    exact h.keys
  · intro s hs
    obtain ⟨s', hs', ⟨-, rfl⟩ | ⟨-, rfl⟩⟩ := mem_update hs
    · obtain ⟨g, hg, hexp, hver⟩ := h.known s' hs'
      refine ⟨g, ?_, (hf s').2.1.trans hexp, (hf s').2.2.1.trans_le hver⟩
      rw [(hf s').1]
      exact hg
    · exact h.known s hs'
  · intro s hs hact
    obtain ⟨s', hs', ⟨-, rfl⟩ | ⟨-, rfl⟩⟩ := mem_update hs
    · rw [(hf s').1, (hf s').2.2.1]
      exact h.active s' hs' ((hf s').2.2.2 ▸ hact)
    · exact h.active s hs' hact

theorem RowsOk.revoke (h : RowsOk F rows) {q : Session → Bool}
    (hq : ∀ s ∈ rows, s.status = .active → p s.sid = true → q s = true) (now : ℤ)
    (reason : String) : RowsOk (kill F t p) (update q (Session.revoke now reason) rows) := by
  refine ⟨?_, ?_, ?_⟩
  · rw [update_keys (f := Session.revoke now reason) fun _ => rfl]
    exact h.keys
  · intro s hs
    obtain ⟨s', hs', ⟨-, rfl⟩ | ⟨-, rfl⟩⟩ := mem_update hs
    · exact (h.known s' hs').later (kill_later F t p)
    · exact (h.known s hs').later (kill_later F t p)
  · intro s hs hact
    obtain ⟨s', hs', ⟨-, rfl⟩ | ⟨hp, rfl⟩⟩ := mem_update hs
    · cases hact
    · obtain ⟨f, hf, hd, hver⟩ := h.active s hs' hact
      obtain ⟨f', hf', -, -, -, -, -, hsame⟩ := kill_some (t := t) (p := p) hf
      have hspared : p s.sid = false := by
        rw [eq_false_iff]
        intro hps
        rw [hq s hs' hact hps] at hp
        cases hp
      rw [hsame hspared] at hf'
      exact ⟨f, hf', hd, hver⟩

/-- The tombstone of a row that was active has its last version. -/
theorem RowsOk.final (h : RowsOk F rows) {s : Session} (hs : s ∈ rows) (hact : s.status = .active)
    (hp : p s.sid = true) (now : ℤ) (reason : String) :
    Final (kill F t p) (s.toEntry.revoke .revoked now reason) := by
  obtain ⟨f, hf, -, hver⟩ := h.active s hs hact
  obtain ⟨g, hg, hexp, -⟩ := h.known s hs
  rw [hf, Option.some.injEq] at hg
  subst hg
  obtain ⟨f', hf', hexp', hver', -, -, hdead, -⟩ := kill_some (t := t) (p := p) hf
  exact ⟨rfl, f', hf', hexp.trans hexp'.symm, hver.symm.trans hver'.symm, hdead hp⟩

theorem Known.dead {e : Entry} (h : Known F e) (hp : p e.sid = true) : Dead (kill F t p) e.sid := by
  obtain ⟨f, hf, -⟩ := h
  obtain ⟨f', hf', -, -, -, -, hdead, -⟩ := kill_some (t := t) (p := p) hf
  exact ⟨f', hf', hdead hp⟩

/-- A row that is read while it is active is read in time. -/
theorem RowsOk.timely (h : RowsOk F rows) {s : Session} (hs : s ∈ rows) (hact : s.status = .active)
    {deadline : ℤ} (hd : deadline ≤ t + cfg.ttl) : Timely cfg F t s.sid deadline := by
  obtain ⟨f, hf, hdeath, -⟩ := h.active s hs hact
  exact ⟨f, hf, by rw [Fate.limit, hdeath]; exact hd⟩

theorem RowsOk.unique (h : RowsOk F rows) {s s' : Session} (hs : s ∈ rows) (hs' : s' ∈ rows)
    (hsid : s.sid = s'.sid) : s = s' :=
  inj_on_of_nodup_map h.keys hs hs' hsid

end Rows

section Tables

variable {cfg : Config} {F : Fates} {sh : Shared} {calls : List Call} {x y : Call}

section

variable (h : Upheld cfg F ⟨sh, x :: calls⟩)
include h

/-- **Sessions are revoked in the table.** -/
theorem Upheld.kills {q : Session → Bool} {p : String → Bool}
    (hq : ∀ s ∈ sh.sessions, s.status = .active → p s.sid = true → q s = true) (now : ℤ)
    (reason : String) (hy : y.Sound cfg (kill F sh.clock p) sh) (hty : y.takes = none) :
    Upheld cfg (kill F sh.clock p)
      ⟨{ sh with sessions := update q (Session.revoke now reason) sh.sessions },
        (some y).toList ++ calls⟩ := by
  have hl := kill_later F sh.clock p
  refine h.next hl (fun _ _ => kill_none) (h.rows.revoke hq now reason) (h.cache.later hl)
    (List.Subset.refl _) (fun sid hsid => (h.gone sid hsid).later hl) ?_ (kill_deaths h.deaths p)
    rfl h.kept
  rintro c ⟨⟩
  exact ⟨hy.later (.refl _ _) (List.Subset.refl _), hty⟩

/-- Rows change, and keep what their fates say. -/
theorem Upheld.edits {sh' : Shared} (hrows : RowsOk F sh'.sessions)
    (hsame : sh'.cache = sh.cache ∧ sh'.clock = sh.clock ∧ sh'.used = sh.used ∧ sh'.gone = sh.gone)
    (hjournal : ∀ n ∈ sh'.journal, n ∈ sh.journal ∨ n.kept) (hy : y.Sound cfg F sh)
    (hty : y.takes = none) : Upheld cfg F ⟨sh', (some y).toList ++ calls⟩ := by
  obtain ⟨hcache, hclock, hused, hgone⟩ := hsame
  have hl : Later F sh.clock F sh'.clock := by
    rw [hclock]
    exact .refl F sh.clock
  have hsub : sh.gone ⊆ sh'.gone := by
    rw [hgone]
    exact List.Subset.refl _
  refine h.next hl (fun _ _ hF => hF) hrows ?_ hsub ?_ ?_ ?_ hused ?_
  · rw [hclock, hcache]
    exact h.cache
  · rw [hgone, hclock, hcache]
    exact h.gone
  · rintro c ⟨⟩
    exact ⟨hy.later hl hsub, hty⟩
  · rw [hclock]
    exact h.deaths
  · exact fun n hn => (hjournal n hn).elim (h.kept n) id

/-- The version of one session is advanced. -/
def bump (F : Fates) (sid : String) : Fates := fun sid' =>
  if sid' = sid then (F sid').map fun f => { f with version := f.version + 1 } else F sid'

/-- **A version is advanced**, of a session that is active. -/
theorem Upheld.advances {s : Session}
    (hs : s ∈ sh.sessions) (hact : s.status = .active) {q : Session → Bool}
    (hq : ∀ s' ∈ sh.sessions, q s' = true ↔ s' = s) (authVersion now : ℤ) {deadline : ℤ}
    (hd : deadline ≤ sh.clock + cfg.ttl) :
    Upheld cfg (bump F s.sid)
      ⟨{ sh with sessions := update q (Session.advance authVersion now) sh.sessions },
        (some (Call.publish (s.afterFind.advance authVersion now).toEntry (some deadline)
          (.advanced (s.afterFind.advance authVersion now)))).toList ++ calls⟩ := by
  obtain ⟨f, hf, hdeath, hver⟩ := h.rows.active s hs hact
  have hother : ∀ sid, sid ≠ s.sid → bump F s.sid sid = F sid := fun sid hne => if_neg hne
  have hself : bump F s.sid s.sid = some { f with version := f.version + 1 } := by
    simp [bump, hf]
  have hl : Later F sh.clock (bump F s.sid) sh.clock := by
    refine ⟨le_rfl, fun sid g hg => ?_⟩
    by_cases hsid : sid = s.sid
    · subst hsid
      rw [hf, Option.some.injEq] at hg
      subst hg
      refine ⟨_, hself, rfl, ?_, le_rfl, fun hd' => absurd hdeath hd'⟩
      show f.version ≤ f.version + 1
      omega
    · exact ⟨g, (hother sid hsid).trans hg, rfl, le_rfl, le_rfl, fun _ => rfl⟩
  have hknown : Known (bump F s.sid) (s.advance authVersion now).toEntry := by
    obtain ⟨g, hg, hexp, -⟩ := h.rows.known s hs
    rw [hf, Option.some.injEq] at hg
    subst hg
    refine ⟨_, hself, hexp, ?_⟩
    show s.version + 1 ≤ f.version + 1
    rw [hver]
  refine h.next hl ?_ ?_ (h.cache.later hl) (List.Subset.refl _)
    (fun sid hsid => (h.gone sid hsid).later hl) ?_ ?_ rfl h.kept
  · intro sid _ hnone
    by_cases hsid : sid = s.sid
    · rw [hsid, hf] at hnone
      cases hnone
    · exact (hother sid hsid).trans hnone
  · refine ⟨?_, ?_, ?_⟩
    · show ((update q (Session.advance authVersion now) sh.sessions).map fun s => s.sid).Nodup
      rw [update_keys (f := Session.advance authVersion now) fun _ => rfl]
      exact h.rows.keys
    · intro s' hs'
      obtain ⟨s₀, hs₀, ⟨hq₀, rfl⟩ | ⟨-, rfl⟩⟩ := mem_update hs'
      · rw [(hq s₀ hs₀).1 hq₀]
        exact hknown
      · exact (h.rows.known s' hs₀).later hl
    · intro s' hs' hact'
      obtain ⟨s₀, hs₀, ⟨hq₀, rfl⟩ | ⟨hq₀, rfl⟩⟩ := mem_update hs'
      · rw [(hq s₀ hs₀).1 hq₀]
        refine ⟨_, hself, hdeath, ?_⟩
        show f.version + 1 = s.version + 1
        rw [hver]
      · have hne : s'.sid ≠ s.sid := by
          intro hsid
          rw [(hq s' hs₀).2 (h.rows.unique hs₀ hs hsid)] at hq₀
          cases hq₀
        rw [hother _ hne]
        exact h.rows.active s' hs₀ hact'
  · rintro c ⟨⟩
    refine ⟨⟨hknown, trivial, .inl ⟨hact, deadline, rfl, _, hself, ?_⟩⟩, rfl⟩
    show deadline ≤ f.limit sh.clock + cfg.ttl
    rw [Fate.limit, hdeath]
    exact hd
  · intro sid g hg
    by_cases hsid : sid = s.sid
    · rw [hsid, hself, Option.some.injEq] at hg
      rw [← hg]
      exact h.deaths _ f hf
    · rw [hother sid hsid] at hg
      exact h.deaths sid g hg

end

end Tables

end NexusTok.Sessions
