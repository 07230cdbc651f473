import NexusTok.Relay.Retry
import NexusTok.Routing.Candidates

/-!
# Levels under failure

A request in one group retries from level to level: the retry count is a position among the levels,
and the levels are read anew for every attempt.  Between two attempts the failure of the first has
taken effect, and may have taken the key it failed on out of service.  When that key was the only
one of its level the level is gone, and the next position is one too far.

The first channel of a request is selected by the distributor, with the retry count zero; it is the
first selection here.

* `Descends` : the attempts go down the levels the request started with.
* `Lost` : the failure takes a whole level out.
* `request_descends_iff` : the request goes down the levels iff no level is lost while a retry and a
  further level are left.
-/

namespace NexusTok.Levels

open Routing Retry List Option

/-! ### The loop -/

/-- A request whose attempts all fail. -/
structure Setup where
  site : Site
  demand : Demand
  /-- `common.RetryTimes`. -/
  retryTimes : ℕ
  policy : RetryPolicy
  /-- The random numbers of the selections. -/
  rolls : ℕ → Roll
  /-- The times of the selections. -/
  selectedAt : ℕ → ℤ
  /-- The errors of the attempts. -/
  errors : ℕ → ApiError
  /-- What the attempts leave behind. -/
  failures : ℕ → KeyFailure

/-- Why the loop is left from within. -/
inductive Ending where
  | noChannel
  | givenUp
  deriving DecidableEq

/-- The state of the loop. -/
structure State where
  site : Site
  retry : ℕ
  attempts : List Candidate
  ending : Option Ending

/-- The candidates of the request, as the tables stand. -/
def Setup.candidatesIn (cfg : Setup) (site : Site) (n : ℕ) : List Candidate :=
  cfg.demand.routingCandidatesForChannels site (cfg.selectedAt n)

/-- The candidates when the request starts. -/
def Setup.candidates (cfg : Setup) : List Candidate := cfg.candidatesIn cfg.site 0

/-- The levels when the request starts. -/
def Setup.levels (cfg : Setup) : List ℤ := sortedUniqueEffectivePriorities cfg.candidates

/-- One turn of the loop, with its increment. -/
def turn (cfg : Setup) (s : State) : State :=
  match selectChannelByRoutingKey (cfg.rolls s.retry) (cfg.candidatesIn s.site s.retry) s.retry with
  | none => { s with ending := some .noChannel }
  | some c =>
    let failed := { s with
      site := cfg.demand.recordFailure s.site c (cfg.failures s.retry)
      attempts := s.attempts ++ [c] }
    if shouldRetry cfg.policy (cfg.errors s.retry) ((cfg.retryTimes : ℤ) - s.retry) then
      { failed with retry := s.retry + 1 }
    else { failed with ending := some .givenUp }

/-- The condition of the loop. -/
def Continues (cfg : Setup) (s : State) : Prop := s.ending = none ∧ s.retry ≤ cfg.retryTimes

instance (cfg : Setup) : DecidablePred (Continues cfg) :=
  fun _ => inferInstanceAs (Decidable (_ ∧ _))

/-- The state before the first selection. -/
def Setup.start (cfg : Setup) : State := ⟨cfg.site, 0, [], none⟩

/-- The request, for at most `fuel` turns. -/
def request (cfg : Setup) (fuel : ℕ) : Option State :=
  Machine.loop (Continues cfg) (turn cfg) fuel cfg.start

/-- **The attempts go down the levels** the request started with, from the highest and without
leaving one out; and when no channel is found, no key of a level that was not tried is left. -/
structure Descends (cfg : Setup) (s : State) : Prop where
  inOrder : s.attempts.map Candidate.effectivePriority <+: cfg.levels
  served : s.ending = some .noChannel → ∀ x ∈ cfg.candidatesIn s.site s.retry,
    x.effectivePriority ∈ cfg.levels → x.effectivePriority ∈ s.attempts.map Candidate.effectivePriority

/-- **A level is lost**: it has one candidate, and the failure of attempt `n` knocks it out. -/
def Lost (cfg : Setup) (n : ℕ) (level : ℤ) : Prop :=
  ∃ c ∈ cfg.candidates, c.effectivePriority = level ∧
    (∀ x ∈ cfg.candidates, x.effectivePriority = level → x = c) ∧
    cfg.demand.KnocksOut cfg.site c (cfg.failures n) (cfg.selectedAt n)

/-- No level is lost while a retry and a further level are left. -/
def KeepsLevels (cfg : Setup) : Prop :=
  ∀ n level, n < cfg.retryTimes → n + 1 < cfg.levels.length → cfg.levels[n]? = some level →
    ¬ Lost cfg n level

/-- **Nothing else changes the keys**: during the request the passing time takes none in or out, and
the failures it records stay fresh. -/
structure Steady (cfg : Setup) : Prop where
  clock : ∀ n ≤ cfg.retryTimes, ∀ x,
    x ∈ cfg.candidatesIn cfg.site n ↔ x ∈ cfg.candidates
  fresh : ∀ n ≤ cfg.retryTimes, 0 < (cfg.failures n).unixTime ∧ ∀ m ≤ cfg.retryTimes,
    cfg.selectedAt m ≤ (cfg.failures n).unixTime * 1000000000 + routingKeyHealthFreshDuration

/-! ### The tables after some attempts -/

variable {cfg : Setup}

/-- **After `n` attempts** that went down the levels: a candidate is gone iff its own attempt knocked
it out, and the records of the others are untouched. -/
structure Core (cfg : Setup) (n : ℕ) (site : Site) (attempts : List Candidate) : Prop where
  levels : attempts.map Candidate.effectivePriority = cfg.levels.take n
  length : attempts.length = n
  mem : ∀ c ∈ attempts, c ∈ cfg.candidates
  inOrder : cfg.demand.InOrder site
  autoBan : ∀ id, cfg.demand.autoBan site id = cfg.demand.autoBan cfg.site id
  health : ∀ id, (∀ c ∈ attempts, c.keyId.toNat ≠ id) → site.health id = cfg.site.health id
  candidates : ∀ m ≤ cfg.retryTimes, ∀ x, x ∈ cfg.candidatesIn site m ↔
    x ∈ cfg.candidates ∧ ∀ i c, attempts[i]? = some c → x = c →
      ¬ cfg.demand.KnocksOut cfg.site c (cfg.failures i) (cfg.selectedAt i)

theorem levels_nodup (cfg : Setup) : cfg.levels.Nodup :=
  (levels_pairwise cfg.candidates).imp ne_of_gt

variable {n i m : ℕ} {site : Site} {attempts : List Candidate}

theorem Core.level_eq (h : Core cfg n site attempts) {c : Candidate} (hc : attempts[i]? = some c) :
    cfg.levels[i]? = some c.effectivePriority ∧ i < n := by
  have hi : i < attempts.length := (List.getElem?_eq_some_iff.1 hc).1
  rw [h.length] at hi
  have hmap : (attempts.map Candidate.effectivePriority)[i]? = some c.effectivePriority := by
    rw [getElem?_map, hc]
    rfl
  rw [h.levels, getElem?_take_of_lt hi] at hmap
  exact ⟨hmap, hi⟩

/-- Positions of equal levels are equal. -/
theorem index_eq {j : ℕ} {level : ℤ} (hi : cfg.levels[i]? = some level)
    (hj : cfg.levels[j]? = some level) : i = j := by
  obtain ⟨hlt, -⟩ := List.getElem?_eq_some_iff.1 hi
  exact (getElem?_inj hlt (levels_nodup cfg)).1 (hi.trans hj.symm)

theorem Core.start (hin : cfg.demand.InOrder cfg.site) (hsteady : Steady cfg) :
    Core cfg 0 cfg.site [] where
  levels := rfl
  length := rfl
  mem := by simp
  inOrder := hin
  autoBan := fun _ => rfl
  health := fun _ _ => rfl
  candidates := by
    intro m hm x
    rw [hsteady.clock m hm x]
    simp

/-- **One attempt.** -/
theorem Core.attempt {c : Candidate}
    (hin : cfg.demand.InOrder cfg.site) (hsteady : Steady cfg) (h : Core cfg n site attempts)
    (hn : n ≤ cfg.retryTimes) (hc : c ∈ cfg.candidatesIn site n)
    (hlevel : cfg.levels[n]? = some c.effectivePriority) :
    Core cfg (n + 1) (cfg.demand.recordFailure site c (cfg.failures n)) (attempts ++ [c]) := by
  have hc₀ : c ∈ cfg.candidates := ((h.candidates n hn c).1 hc).1
  -- the candidate was not tried before, so its record is the one at the start
  have hfresh : ∀ (i : ℕ) a, attempts[i]? = some a → c ≠ a := by
    rintro i a ha rfl
    obtain ⟨hi, hlt⟩ := h.level_eq ha
    exact absurd (index_eq hi hlevel) (by omega)
  have hrecord : site.health c.keyId.toNat = cfg.site.health c.keyId.toNat := by
    refine h.health _ fun a ha hid => ?_
    obtain ⟨i, hi⟩ := getElem?_of_mem ha
    refine hfresh i a hi (hin.candidate_eq hc₀ (h.mem a ha) ?_)
    obtain ⟨channel, -, key, -, -, rfl⟩ := mem_candidates.1 hc₀
    obtain ⟨channel', -, key', -, -, rfl⟩ := mem_candidates.1 (h.mem a ha)
    exact congrArg Nat.cast hid.symm
  have hknocks : ∀ m ≤ cfg.retryTimes,
      (cfg.demand.KnocksOut site c (cfg.failures n) (cfg.selectedAt m) ↔
        cfg.demand.KnocksOut cfg.site c (cfg.failures n) (cfg.selectedAt n)) := by
    intro m hm
    obtain ⟨hpos, hbefore⟩ := hsteady.fresh n hn
    simp only [Demand.KnocksOut, h.autoBan, hrecord,
      invalid_health_iff hpos (hbefore m hm) (hbefore n hn)]
  have huntouched := recordFailure_untouched h.inOrder hc (cfg.failures n)
  refine ⟨?_, by simp [h.length], ?_, huntouched.inOrder, ?_, ?_, ?_⟩
  · obtain ⟨hlt, hget⟩ := List.getElem?_eq_some_iff.1 hlevel
    rw [map_append, h.levels, map_singleton, ← hget, take_concat_get' _ _ hlt]
  · intro a ha
    rcases mem_append.1 ha with ha | ha
    · exact h.mem a ha
    · rw [mem_singleton.1 ha]
      exact hc₀
  · intro id
    rw [huntouched.autoBan, h.autoBan]
  · intro id hid
    rw [huntouched.health id (hid c (by simp)).symm]
    exact h.health id fun a ha => hid a (by simp [ha])
  · intro m hm x
    have hcm : c ∈ cfg.candidatesIn site m := by
      rw [h.candidates m hm]
      exact (h.candidates n hn c).1 hc
    have hlen : attempts.length = n := h.length
    unfold Setup.candidatesIn at hcm ⊢
    rw [mem_candidates_recordFailure h.inOrder hcm, hknocks m hm]
    change x ∈ cfg.candidatesIn site m ∧ _ ↔ _
    rw [h.candidates m hm, and_assoc]
    refine and_congr_right fun _ => ?_
    constructor
    · rintro ⟨hbefore, hnow⟩ i a ha
      rcases lt_or_ge i attempts.length with hlt | hge
      · rw [getElem?_append_left hlt] at ha
        exact hbefore i a ha
      · rw [getElem?_append_right hge, getElem?_singleton] at ha
        split_ifs at ha with hzero
        · obtain rfl := some.inj ha
          obtain rfl : i = n := by omega
          exact hnow
    · intro hall
      refine ⟨fun i a ha => ?_, ?_⟩
      · have hlt := (List.getElem?_eq_some_iff.1 ha).1
        exact hall i a (by rw [getElem?_append_left hlt]; exact ha)
      · exact hall n c (by rw [getElem?_append_right (by omega), hlen]; simp)

theorem Core.present (h : Core cfg n site attempts) (hm : m ≤ cfg.retryTimes) {level : ℤ}
    (hlevel : level ∈ cfg.levels) (hkept : ∀ i < n, cfg.levels[i]? = some level → ¬ Lost cfg i level) :
    ∃ x ∈ cfg.candidatesIn site m, x.effectivePriority = level := by
  obtain ⟨x₀, hx₀, hx₀level⟩ := mem_levels.1 hlevel
  -- a candidate of the level that was not tried is there
  have huntried : ∀ x ∈ cfg.candidates, x ∉ attempts → x ∈ cfg.candidatesIn site m := by
    intro x hx hnot
    refine (h.candidates m hm x).2 ⟨hx, fun i c hc hxc => ?_⟩
    exact absurd (hxc ▸ mem_of_getElem? hc) hnot
  by_cases htried : ∃ c ∈ attempts, c.effectivePriority = level
  · obtain ⟨c, hc, hclevel⟩ := htried
    obtain ⟨i, hi⟩ := getElem?_of_mem hc
    obtain ⟨hget, hin⟩ := h.level_eq hi
    rw [hclevel] at hget
    -- another attempt at the level would stand at the same position
    have honly : ∀ (j : ℕ) a, attempts[j]? = some a → a.effectivePriority = level → j = i := by
      intro j a ha halevel
      obtain ⟨hj, -⟩ := h.level_eq ha
      exact index_eq (halevel ▸ hj) hget
    by_cases halone : ∀ x ∈ cfg.candidates, x.effectivePriority = level → x = c
    · have hsurvives : ¬ cfg.demand.KnocksOut cfg.site c (cfg.failures i) (cfg.selectedAt i) :=
        fun hknocked => hkept i hin hget ⟨c, h.mem c hc, hclevel, halone, hknocked⟩
      refine ⟨c, (h.candidates m hm c).2 ⟨h.mem c hc, ?_⟩, hclevel⟩
      rintro j a ha rfl
      rwa [honly j c ha hclevel]
    · push Not at halone
      obtain ⟨x, hx, hxlevel, hne⟩ := halone
      refine ⟨x, huntried x hx fun hxmem => hne ?_, hxlevel⟩
      obtain ⟨j, hj⟩ := getElem?_of_mem hxmem
      have hji := honly j x hj hxlevel
      rw [hji, hi] at hj
      exact (some.inj hj).symm
  · refine ⟨x₀, huntried x₀ hx₀ fun hmem => htried ⟨x₀, hmem, hx₀level⟩, hx₀level⟩

/-- What is there was there at the start. -/
theorem Core.mem_levels_of_mem
    (h : Core cfg n site attempts) (hm : m ≤ cfg.retryTimes) {x : Candidate}
    (hx : x ∈ cfg.candidatesIn site m) : x.effectivePriority ∈ cfg.levels :=
  mem_levels.2 ⟨x, ((h.candidates m hm x).1 hx).1, rfl⟩

theorem Core.levels_eq (h : Core cfg n site attempts) (hm : m ≤ cfg.retryTimes)
    (hkept : ∀ i < n, ∀ level, cfg.levels[i]? = some level → ¬ Lost cfg i level) :
    sortedUniqueEffectivePriorities (cfg.candidatesIn site m) = cfg.levels := by
  refine NexusTok.levels_eq (levels_pairwise _) fun level => ?_
  constructor
  · intro hlevel
    obtain ⟨x, hx, rfl⟩ := mem_levels.1 hlevel
    exact h.mem_levels_of_mem hm hx
  · intro hlevel
    exact mem_levels.2 (h.present hm hlevel fun i hi hget => hkept i hi level hget)

theorem Core.levels_lost {c : Candidate}
    (h : Core cfg (n + 1) site (attempts ++ [c])) (hm : m ≤ cfg.retryTimes)
    (hkept : ∀ i < n, ∀ level, cfg.levels[i]? = some level → ¬ Lost cfg i level)
    (hlost : Lost cfg n c.effectivePriority) :
    sortedUniqueEffectivePriorities (cfg.candidatesIn site m) = cfg.levels.eraseIdx n := by
  have hlen : attempts.length = n := by simpa using h.length
  have hget : (attempts ++ [c])[n]? = some c := by
    rw [getElem?_append_right (by omega), hlen]
    simp
  have hlevel := (h.level_eq hget).1
  refine NexusTok.levels_eq ((levels_pairwise _).sublist (eraseIdx_sublist _ _)) fun level => ?_
  rw [mem_eraseIdx_iff_getElem?]
  constructor
  · intro hpresent
    obtain ⟨x, hx, rfl⟩ := mem_levels.1 hpresent
    obtain ⟨i, hi⟩ := getElem?_of_mem (h.mem_levels_of_mem hm hx)
    refine ⟨i, fun hin => ?_, hi⟩
    -- the only candidate of the lost level has been knocked out
    obtain ⟨hx₀, hsurvives⟩ := (h.candidates m hm x).1 hx
    obtain ⟨a, -, halevel, halone, hknocked⟩ := hlost
    have hclevel : c.effectivePriority = x.effectivePriority := by
      rw [hin, hlevel] at hi
      exact some.inj hi
    obtain rfl : c = a := halone c (h.mem c (by simp)) rfl
    obtain rfl : x = c := halone x hx₀ hclevel.symm
    exact hsurvives n x hget rfl hknocked
  · rintro ⟨i, hin, hi⟩
    refine mem_levels.2 (h.present hm (mem_of_getElem? hi) fun j hj hget' => ?_)
    have hji := index_eq hget' hi
    exact hkept j (by omega) level hget'

/-! ### The request -/

variable {s : State}

/-- The attempts made stay made. -/
theorem attempts_initial {fuel : ℕ} {s' : State}
    (h : Machine.loop (Continues cfg) (turn cfg) fuel s = some s') : s.attempts <+: s'.attempts := by
  have hturn : ∀ a, s.attempts <+: a.attempts → s.attempts <+: (turn cfg a).attempts := by
    intro a ha
    unfold turn
    split
    · exact ha
    · split_ifs <;> exact ha.trans (prefix_append _ _)
  exact Machine.invariant_of_loop (I := fun a => s.attempts <+: a.attempts)
    (fun a _ ha => hturn a ha) prefix_rfl h

theorem turn_none
    (h : (sortedUniqueEffectivePriorities (cfg.candidatesIn s.site s.retry)).length ≤ s.retry) :
    turn cfg s = { s with ending := some .noChannel } := by
  have hnone : selectChannelByRoutingKey (cfg.rolls s.retry) (cfg.candidatesIn s.site s.retry)
      s.retry = none := selectChannelByRoutingKey_eq_none_iff.2 h
  simp only [turn, hnone]

/-- A turn within the levels makes an attempt at the level asked for. -/
theorem turn_some {level : ℤ} (hretryable : ∀ n, Retryable cfg.policy (cfg.errors n))
    (h : (sortedUniqueEffectivePriorities (cfg.candidatesIn s.site s.retry))[s.retry]? = some level) :
    ∃ c ∈ cfg.candidatesIn s.site s.retry, c.effectivePriority = level ∧
      let site := cfg.demand.recordFailure s.site c (cfg.failures s.retry)
      (turn cfg s = ⟨site, s.retry + 1, s.attempts ++ [c], s.ending⟩ ∨
        (cfg.retryTimes ≤ s.retry ∧
          turn cfg s = ⟨site, s.retry, s.attempts ++ [c], some .givenUp⟩)) := by
  cases hsel : selectChannelByRoutingKey (cfg.rolls s.retry) (cfg.candidatesIn s.site s.retry)
      s.retry with
  | none =>
    have hlen := selectChannelByRoutingKey_eq_none_iff.1 hsel
    rw [getElem?_eq_none hlen] at h
    simp at h
  | some c =>
    obtain ⟨hc, hlevel⟩ := selectChannelByRoutingKey_spec hsel
    refine ⟨c, hc, some.inj (hlevel.symm.trans h), ?_⟩
    by_cases hleft : (s.retry : ℤ) < cfg.retryTimes
    · have hretry := (hretryable s.retry).shouldRetry (sub_pos.2 hleft)
      exact Or.inl (by simp only [turn, hsel, hretry, if_true])
    · by_cases hretry : shouldRetry cfg.policy (cfg.errors s.retry)
          ((cfg.retryTimes : ℤ) - s.retry) = true
      · exact Or.inl (by simp only [turn, hsel, hretry, if_true])
      · exact Or.inr ⟨by omega, by simp only [turn, hsel, hretry]; rfl⟩

theorem request_ends (cfg : Setup) : ∃ s, request cfg (cfg.retryTimes + 2) = some s := by
  refine Machine.loop_eq_some_of_variant (I := fun _ => True)
    (fun s => if s.ending = none then cfg.retryTimes + 2 - s.retry else 0) (fun _ _ _ => trivial)
    (fun s hc _ => ?_) trivial (by simp [Setup.start])
  obtain ⟨hending, hretry⟩ := hc
  unfold turn
  split
  · simp only [hending, reduceCtorEq, if_true, if_false]
    omega
  · simp only [hending, if_true]
    split_ifs <;> simp_all <;> omega

section

variable (hin : cfg.demand.InOrder cfg.site)
include hin

/-- **A turn of a request that has kept its levels.** -/
theorem turn_core (hsteady : Steady cfg)
    (hretryable : ∀ n, Retryable cfg.policy (cfg.errors n)) (h : Core cfg s.retry s.site s.attempts)
    (hretry : s.retry ≤ cfg.retryTimes) (hlevels : s.retry < cfg.levels.length)
    (hkept : ∀ i < s.retry, ∀ level, cfg.levels[i]? = some level → ¬ Lost cfg i level) :
    ∃ site c, Core cfg (s.retry + 1) site (s.attempts ++ [c]) ∧
      (turn cfg s = ⟨site, s.retry + 1, s.attempts ++ [c], s.ending⟩ ∨
        (cfg.retryTimes ≤ s.retry ∧
          turn cfg s = ⟨site, s.retry, s.attempts ++ [c], some .givenUp⟩)) := by
  obtain ⟨level, hget⟩ : ∃ level, cfg.levels[s.retry]? = some level :=
    ⟨_, getElem?_eq_getElem hlevels⟩
  have hnow := hget
  rw [← h.levels_eq hretry hkept] at hnow
  obtain ⟨c, hc, hlevel, hturn⟩ := turn_some hretryable hnow
  exact ⟨_, c, h.attempt hin hsteady hretry hc (hlevel ▸ hget), hturn⟩

theorem reach (hsteady : Steady cfg)
    (hretryable : ∀ n, Retryable cfg.policy (cfg.errors n)) (hn : n ≤ cfg.retryTimes)
    (hlevels : n ≤ cfg.levels.length)
    (hkept : ∀ i, i + 1 < n → ∀ level, cfg.levels[i]? = some level → ¬ Lost cfg i level) :
    ∃ s, s.retry = n ∧ s.ending = none ∧ Core cfg n s.site s.attempts ∧
      ∀ fuel, request cfg (fuel + n) = Machine.loop (Continues cfg) (turn cfg) fuel s := by
  induction n with
  | zero => exact ⟨cfg.start, rfl, rfl, Core.start hin hsteady, fun _ => rfl⟩
  | succ n ih =>
    obtain ⟨s, rfl, hending, hcore, hloop⟩ := ih (by omega) (by omega) fun i hi => hkept i (by omega)
    obtain ⟨site, c, hcore', hturn | ⟨hover, -⟩⟩ := turn_core hin hsteady hretryable hcore (by omega)
      (by omega) fun i hi => hkept i (by omega)
    · refine ⟨⟨site, s.retry + 1, s.attempts ++ [c], s.ending⟩, rfl, hending, hcore', fun fuel => ?_⟩
      rw [show fuel + (s.retry + 1) = fuel + 1 + s.retry by omega, hloop,
        Machine.loop_succ ⟨hending, by omega⟩, hturn]
    · omega

theorem descends_of_keepsLevels (hsteady : Steady cfg)
    (hretryable : ∀ n, Retryable cfg.policy (cfg.errors n)) (hkeeps : KeepsLevels cfg)
    (hs : request cfg (cfg.retryTimes + 2) = some s) : Descends cfg s := by
  rcases le_or_gt cfg.levels.length cfg.retryTimes with hfew | hmany
  · -- all levels are tried, and then no channel is found
    obtain ⟨s₁, hretry, hending, hcore, hloop⟩ := reach hin hsteady hretryable hfew (le_refl _)
      fun i hi level hget => hkeeps i level (by omega) (by omega) hget
    have hall : s₁.attempts.map Candidate.effectivePriority = cfg.levels := by
      rw [hcore.levels, take_length]
    have hlen : (sortedUniqueEffectivePriorities (cfg.candidatesIn s₁.site s₁.retry)).length ≤
        s₁.retry := by
      rw [hretry]
      refine (List.Nodup.subperm ((levels_pairwise _).imp ne_of_gt) fun level hlevel => ?_).length_le
      obtain ⟨x, hx, rfl⟩ := mem_levels.1 hlevel
      exact hcore.mem_levels_of_mem hfew hx
    obtain ⟨k, hk⟩ : ∃ k, cfg.retryTimes + 2 = k + 1 + cfg.levels.length :=
      ⟨cfg.retryTimes + 1 - cfg.levels.length, by omega⟩
    rw [hk, hloop, Machine.loop_succ ⟨hending, by omega⟩, turn_none hlen,
      Machine.loop_of_not (by simp [Continues])] at hs
    obtain rfl := some.inj hs
    refine ⟨by rw [hall], fun _ x _ hx => ?_⟩
    rw [hall]
    exact hx
  · -- the retries are used up first
    obtain ⟨s₁, hretry, hending, hcore, hloop⟩ := reach hin hsteady hretryable (le_refl _) hmany.le
      fun i hi level hget => hkeeps i level (by omega) (by omega) hget
    obtain ⟨site, c, hcore', hturn⟩ := turn_core hin hsteady hretryable (hretry ▸ hcore) (by omega)
      (by omega) fun i hi level hget => hkeeps i level (by omega) (by omega) hget
    rw [show cfg.retryTimes + 2 = 1 + 1 + cfg.retryTimes by omega, hloop,
      Machine.loop_succ ⟨hending, by omega⟩] at hs
    have hinitial : (s₁.attempts ++ [c]).map Candidate.effectivePriority <+: cfg.levels := by
      rw [hcore'.levels]
      exact take_prefix _ _
    rcases hturn with hturn | ⟨-, hturn⟩
    · rw [hturn, Machine.loop_of_not (by simp [Continues, hretry])] at hs
      obtain rfl := some.inj hs
      exact ⟨hinitial, by simp [hending]⟩
    · rw [hturn, Machine.loop_of_not (by simp [Continues])] at hs
      obtain rfl := some.inj hs
      exact ⟨hinitial, by simp⟩

/-- A request that loses a level leaves the levels out of order, or ends too early. -/
theorem not_descends_of_lost (hsteady : Steady cfg)
    (hretryable : ∀ n, Retryable cfg.policy (cfg.errors n)) {level : ℤ}
    (hn : n < cfg.retryTimes) (hnext : n + 1 < cfg.levels.length)
    (hlevel : cfg.levels[n]? = some level) (hlost : Lost cfg n level)
    (hkept : ∀ i < n, ∀ level, cfg.levels[i]? = some level → ¬ Lost cfg i level)
    (hs : request cfg (cfg.retryTimes + 2) = some s) : ¬ Descends cfg s := by
  intro hdescends
  obtain ⟨s₁, rfl, hending, hcore, hloop⟩ := reach hin hsteady hretryable hn.le (by omega)
    fun i hi => hkept i (by omega)
  obtain ⟨site, c, hcore', hturn | ⟨hover, -⟩⟩ := turn_core hin hsteady hretryable hcore hn.le
    (by omega) hkept
  swap
  · omega
  have hlen : s₁.attempts.length = s₁.retry := hcore.length
  have hclevel : c.effectivePriority = level := by
    have hget : (s₁.attempts ++ [c])[s₁.retry]? = some c := by
      rw [getElem?_append_right (by omega), hlen]
      simp
    exact some.inj ((hcore'.level_eq hget).1.symm.trans hlevel)
  -- the state before the next selection, and the levels it sees
  have hgone := hcore'.levels_lost (m := s₁.retry + 1) hn hkept (hclevel ▸ hlost)
  obtain ⟨k, hk⟩ : ∃ k, cfg.retryTimes + 2 = k + 1 + 1 + s₁.retry :=
    ⟨cfg.retryTimes - s₁.retry, by omega⟩
  rw [hk, hloop, Machine.loop_succ ⟨hending, hn.le⟩, hturn, Machine.loop_succ ⟨hending, hn⟩] at hs
  set s₂ : State := ⟨site, s₁.retry + 1, s₁.attempts ++ [c], s₁.ending⟩ with hs₂
  obtain ⟨next, hget⟩ : ∃ next, cfg.levels[s₁.retry + 1]? = some next :=
    ⟨_, getElem?_eq_getElem hnext⟩
  have hseen : ∀ level', cfg.levels[s₁.retry + 1]? = some level' →
      level' ∉ s₂.attempts.map Candidate.effectivePriority := by
    intro level' hlevel' hmem
    rw [hs₂, hcore'.levels] at hmem
    obtain ⟨j, hj⟩ := getElem?_of_mem hmem
    have hjlt : j < s₁.retry + 1 := by
      have := (List.getElem?_eq_some_iff.1 hj).1
      rw [length_take] at this
      omega
    rw [getElem?_take_of_lt hjlt] at hj
    exact absurd (index_eq hj hlevel') (by omega)
  rcases Nat.lt_or_ge (s₁.retry + 2) cfg.levels.length with hmore | hlast
  · -- the next attempt is one level too far down
    have hskip : (sortedUniqueEffectivePriorities (cfg.candidatesIn s₂.site s₂.retry))[s₂.retry]? =
        cfg.levels[s₁.retry + 2]? := by
      rw [hgone, getElem?_eraseIdx_of_ge (Nat.le_succ _)]
    rw [getElem?_eq_getElem hmore] at hskip
    obtain ⟨c', -, hc'level, hturn'⟩ := turn_some hretryable hskip
    have hattempts : (turn cfg s₂).attempts = s₁.attempts ++ [c] ++ [c'] := by
      rcases hturn' with h | ⟨-, h⟩ <;> rw [h]
    obtain ⟨rest, hrest⟩ :=
      ((attempts_initial hs).map Candidate.effectivePriority).trans hdescends.inOrder
    have hat : cfg.levels[s₁.retry + 1]? = some c'.effectivePriority := by
      rw [← hrest, hattempts]
      simp [hlen]
    rw [hc'level] at hat
    exact absurd (index_eq hat (getElem?_eq_getElem hmore)) (by omega)
  · -- no channel is found, and the next level was not tried
    have hpast : (sortedUniqueEffectivePriorities (cfg.candidatesIn s₂.site s₂.retry)).length ≤
        s₂.retry := by
      rw [hgone, length_eraseIdx_of_lt (by omega)]
      simp only [hs₂]
      omega
    rw [turn_none hpast, Machine.loop_of_not (by simp [Continues])] at hs
    obtain rfl := some.inj hs
    obtain ⟨x, hx, hxlevel⟩ := hcore'.present (m := s₁.retry + 1) hn (mem_of_getElem? hget)
      fun i hi hget' => absurd (index_eq hget' hget) (by omega)
    refine hseen next hget ?_
    rw [← hxlevel]
    exact hdescends.served rfl x hx (hxlevel ▸ mem_of_getElem? hget)

end

/-- **Down the levels.**  For tables in order, and a request whose attempts all fail with retryable
errors while nothing else changes the keys: the request ends, and goes down the levels it started
with iff no level is lost while a retry and a further level are left. -/
theorem request_descends_iff (cfg : Setup) (hin : cfg.demand.InOrder cfg.site)
    (hsteady : Steady cfg) (hretryable : ∀ n, Retryable cfg.policy (cfg.errors n)) :
    ∃ s, request cfg (cfg.retryTimes + 2) = some s ∧ (Descends cfg s ↔ KeepsLevels cfg) := by
  obtain ⟨s, hs⟩ := request_ends cfg
  refine ⟨s, hs, fun hdescends => ?_, fun hkeeps => ?_⟩
  · by_contra hnot
    -- the first level that is lost
    have hex : ∃ n, n < cfg.retryTimes ∧ n + 1 < cfg.levels.length ∧
        ∃ level, cfg.levels[n]? = some level ∧ Lost cfg n level := by
      simp only [KeepsLevels, not_forall, not_not] at hnot
      obtain ⟨n, level, hn, hnext, hlevel, hlost⟩ := hnot
      exact ⟨n, hn, hnext, level, hlevel, hlost⟩
    classical
    obtain ⟨hn, hnext, level, hlevel, hlost⟩ := Nat.find_spec hex
    refine not_descends_of_lost hin hsteady hretryable hn hnext hlevel hlost ?_ hs hdescends
    intro i hi level' hlevel' hlost'
    exact Nat.find_min hex hi ⟨by omega, by omega, level', hlevel', hlost'⟩
  · exact descends_of_keepsLevels hin hsteady hretryable hkeeps hs

/-- A key channel with a key on each of three levels. -/
def threeKeys : Site where
  channels := [⟨5, .keyChannel, .enabled, 0, true⟩]
  keys :=
    [⟨1, 5, .keyChannel, .enabled, "", 7, 10, 0, false, [], none, none⟩,
      ⟨2, 5, .keyChannel, .enabled, "", 5, 10, 0, false, [], none, none⟩,
      ⟨3, 5, .keyChannel, .enabled, "", 3, 10, 0, false, [], none, none⟩]
  health := fun _ => none

/-- A request on these keys, whose attempts fail at second 1000 with a server error; `disables` says
whether the error disables keys. -/
def failingRequest (disables : Bool) : Setup where
  site := threeKeys
  demand := ⟨none, [5], fun _ => true, fun _ => true⟩
  retryTimes := 2
  policy := retryOnServerError
  rolls := fun _ => ⟨0, 0⟩
  selectedAt := fun _ => 1000 * 1000000000
  errors := fun _ => serverError
  failures := fun _ => ⟨disables, 120, 1000, "status code 500", 1000 * 1000000000⟩

theorem threeKeys_inOrder (disables : Bool) :
    (failingRequest disables).demand.InOrder (failingRequest disables).site := by
  refine ⟨show (threeKeys.keys.map Key.id).Nodup by decide, fun k hk => ?_, by simp [failingRequest]⟩
  have hof : ∀ k ∈ threeKeys.keys, k.channelId = 5 := by decide
  exact ⟨⟨5, .keyChannel, .enabled, 0, true⟩, by rw [hof k hk]; rfl⟩

theorem failingRequest_steady (disables : Bool) : Steady (failingRequest disables) := by
  refine ⟨fun _ _ _ => Iff.rfl, fun _ _ => ⟨show (0 : ℤ) < 1000 by decide, fun _ _ => ?_⟩⟩
  show (1000 * 1000000000 : ℤ) ≤ 1000 * 1000000000 + routingKeyHealthFreshDuration
  decide

/-- Errors that disable no key, on keys without a history, lose no level. -/
theorem request_descends_iff_spared :
    ∃ s, request (failingRequest false) 4 = some s ∧ Descends (failingRequest false) s := by
  obtain ⟨s, hs, hiff⟩ := request_descends_iff (failingRequest false) (threeKeys_inOrder false)
    (failingRequest_steady false) fun _ => rfl
  refine ⟨s, hs, hiff.2 ?_⟩
  rintro n level - - - ⟨c, -, -, -, ⟨hdisables, -⟩ | hinvalid⟩
  · exact Bool.false_ne_true hdisables
  · exact absurd hinvalid.1 (show ¬ 5 ≤ 1 by decide)

/-- The first attempt disables the only key of the highest level, and the second attempt is made on
the lowest level: the one between is left out. -/
theorem skips_a_level :
    (failingRequest true).demand.InOrder (failingRequest true).site ∧
      Steady (failingRequest true) ∧ (failingRequest true).levels = [7, 5, 3] ∧
      ∃ s, request (failingRequest true) 4 = some s ∧
        s.attempts.map Candidate.effectivePriority = [7, 3] ∧ s.ending = some .noChannel ∧
        ¬ Descends (failingRequest true) s := by
  refine ⟨threeKeys_inOrder true, failingRequest_steady true, by decide, _, rfl, by decide,
    by decide, fun h => ?_⟩
  exact absurd h.inOrder (by decide)

end NexusTok.Levels
