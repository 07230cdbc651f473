import NexusTok.Database.Basic
import NexusTok.Machine.Loop
import NexusTok.Routing.Select

/-!
# The retry loop of a relayed request

A request is tried on a channel; when the upstream fails and the failure can be retried, the loop of
`Relay` selects another channel and tries again.  For a token in the group `auto`,
`CacheGetRandomSatisfiedChannel` walks through the auto groups: the retry count is a position among
the levels of the current group, and the selection itself moves the cursor to the next group and
resets the count, in one of two ways.

The first channel of a request is selected by the distributor, before the loop and with a retry
counter of its own; what remains of that selection is the cursor in the context.

* `schedule` : the attempts a request makes when all of them fail, group by group and level by
  level.
* `turn_spec` : one turn of the loop makes the next attempt of what is still ahead.
* `relay_attempts` : the loop ends, and has made the attempts of the schedule up to the first one
  that did not fail.
* `cross_group_runs`, `single_group_iff` : with and without the cross-group retry of the token.
-/

namespace NexusTok.Retry

open List Nat

/-! ### The auto groups of a request -/

/-- The loop of `GetUserAutoGroup` and `FilterUserTokenAutoGroups`: selectable groups, each once, in
order, and no more than the limit when there is one. -/
def uniqueGroups (selectable : String → Bool) (maxCount : Option ℤ) (filtered : List String) :
    List String → List String
  | [] => filtered
  | group :: groups =>
    if !selectable group then uniqueGroups selectable maxCount filtered groups
    else if group ∈ filtered then uniqueGroups selectable maxCount filtered groups
    else if maxCount = some ((filtered ++ [group]).length : ℤ) then filtered ++ [group]
    else uniqueGroups selectable maxCount (filtered ++ [group]) groups

/-- Where a request takes its auto groups from. -/
structure AutoGroups where
  /-- `IsUserSelectableGroup` for the group of the user. -/
  selectable : String → Bool
  global : List String
  /-- The list of the token, when it has its own. -/
  token : Option (List String)
  maxTokenAutoGroups : ℤ

def AutoGroups.getRequestAutoGroups (a : AutoGroups) : List String :=
  match a.token with
  | none => uniqueGroups a.selectable none [] a.global
  | some groups => uniqueGroups a.selectable (some a.maxTokenAutoGroups) [] groups

variable {groups later : List String}

theorem uniqueGroups_nodup {selectable : String → Bool} {maxCount : Option ℤ}
    {filtered : List String} (h : filtered.Nodup) :
    (uniqueGroups selectable maxCount filtered groups).Nodup := by
  induction groups generalizing filtered with
  | nil => exact h
  | cons group groups ih =>
    simp only [uniqueGroups]
    split_ifs with _ hmem
    · exact ih h
    · exact ih h
    · exact List.Nodup.append h (nodup_singleton group) (by simpa using hmem)
    · exact ih (List.Nodup.append h (nodup_singleton group) (by simpa using hmem))

/-- No group comes twice. -/
theorem AutoGroups.nodup (a : AutoGroups) : a.getRequestAutoGroups.Nodup := by
  unfold getRequestAutoGroups
  split <;> exact uniqueGroups_nodup nodup_nil

/-! ### Whether to retry -/

/-- `NewAPIError`, as far as `shouldRetry` looks at it. -/
structure ApiError where
  channelError : Bool
  skipRetry : Bool
  statusCode : ℤ
  errorCode : String
  deriving DecidableEq

/-- What decides about retries besides the error. -/
structure RetryPolicy where
  /-- `ShouldSkipRetryAfterChannelAffinityFailure`. -/
  affinitySkipsRetry : Bool
  /-- `SuppressesRetry` of the constraints of the request. -/
  suppressesRetry : Bool
  isAlwaysSkipRetryCode : String → Bool
  shouldRetryByStatusCode : ℤ → Bool

/-- `shouldRetry`, on an error; `retryTimes` is what is left. -/
def shouldRetry (policy : RetryPolicy) (e : ApiError) (retryTimes : ℤ) : Bool :=
  if policy.affinitySkipsRetry then false
  else if e.channelError then true
  else if e.skipRetry then false
  else if retryTimes ≤ 0 then false
  else if policy.suppressesRetry then false
  else if 200 ≤ e.statusCode ∧ e.statusCode < 300 then false
  else if e.statusCode < 100 ∨ 599 < e.statusCode then true
  else if policy.isAlwaysSkipRetryCode e.errorCode then false
  else policy.shouldRetryByStatusCode e.statusCode

/-- An error that is retried as long as retries are left. -/
def Retryable (policy : RetryPolicy) (e : ApiError) : Prop := shouldRetry policy e 1 = true

theorem Retryable.shouldRetry {policy : RetryPolicy} {e : ApiError} (h : Retryable policy e)
    {retryTimes : ℤ} (hpos : 0 < retryTimes) : shouldRetry policy e retryTimes = true := by
  have hnot : ¬ retryTimes ≤ 0 := by omega
  simpa [Retryable, Retry.shouldRetry, hnot] using h

/-! ### Selecting a channel -/

/-- `RetryParam`, as far as it changes. -/
structure RetryParam where
  retry : ℕ
  resetNextTry : Bool
  deriving DecidableEq

def RetryParam.increaseRetry (p : RetryParam) : RetryParam :=
  if p.resetNextTry then { p with resetNextTry := false } else { p with retry := p.retry + 1 }

/-- What a request is served by. -/
structure Setup where
  /-- `common.RetryTimes`. -/
  retryTimes : ℕ
  /-- The cross-group retry of the token. -/
  crossGroupRetry : Bool
  /-- The auto groups of the request. -/
  groups : List String
  /-- The candidates of a group, for the model of the request. -/
  candidates : String → List Candidate

def Setup.levels (cfg : Setup) (group : String) : List ℤ :=
  sortedUniqueEffectivePriorities (cfg.candidates group)

/-- An attempt: the group it was selected from, and the candidate. -/
structure Attempt where
  group : String
  candidate : Candidate
  deriving DecidableEq

/-- The loop over the auto groups, from the group with index `i`; `start` is the index it started
at.  The last component is the new `ContextKeyAutoGroupIndex`, when it is set. -/
def autoSelect (cfg : Setup) (roll : Roll) (start : ℕ) :
    ℕ → List String → RetryParam → Option ℕ → Option Attempt × RetryParam × Option ℕ
  | _, [], p, cursor => (none, p, cursor)
  | i, group :: groups, p, cursor =>
    let priorityRetry := if start < i then 0 else p.retry
    match selectChannelByRoutingKey roll (cfg.candidates group) priorityRetry with
    | none => autoSelect cfg roll start (i + 1) groups { p with retry := 0 } (some (i + 1))
    | some candidate =>
      if cfg.crossGroupRetry ∧ cfg.retryTimes ≤ priorityRetry then
        (some ⟨group, candidate⟩, ⟨0, true⟩, some (i + 1))
      else (some ⟨group, candidate⟩, p, some i)

/-- `CacheGetRandomSatisfiedChannel` for the group `auto`.  Without auto groups it errs, and the
request ends as it does when no channel is found. -/
def cacheGetRandomSatisfiedChannel (cfg : Setup) (roll : Roll) (p : RetryParam)
    (cursor : Option ℕ) : Option Attempt × RetryParam × Option ℕ :=
  if cfg.groups = [] then (none, p, cursor)
  else
    autoSelect cfg roll (cursor.getD 0) (cursor.getD 0) (cfg.groups.drop (cursor.getD 0)) p cursor

/-! ### The loop -/

/-- What becomes of an attempt. -/
inductive Outcome where
  | success
  | failure (e : ApiError)
  /-- The request is given up before it is sent: its price or its body could not be had. -/
  | aborted
  deriving DecidableEq

/-- The upstream failed. -/
def Outcome.failed : Outcome → Bool
  | .failure _ => true
  | _ => false

/-- The state of the loop.  `selected` is the channel the distributor put into the context; it
serves the first turn, when `ChannelMeta` is still nil. -/
structure State where
  param : RetryParam
  cursor : Option ℕ
  selected : Option Attempt
  attempts : List Attempt
  finished : Bool
  deriving DecidableEq

def getChannel (cfg : Setup) (rolls : ℕ → Roll) (s : State) : Option Attempt × State :=
  match s.selected with
  | some a => (some a, { s with selected := none })
  | none =>
    let r := cacheGetRandomSatisfiedChannel cfg (rolls s.attempts.length) s.param s.cursor
    (r.1, { s with param := r.2.1, cursor := r.2.2 })

/-- One turn of the loop, with its increment. -/
def turn (cfg : Setup) (policy : RetryPolicy) (rolls : ℕ → Roll) (outcome : ℕ → Outcome)
    (s : State) : State :=
  match getChannel cfg rolls s with
  | (none, s) => { s with finished := true }
  | (some a, s) =>
    let attempted := { s with attempts := s.attempts ++ [a] }
    match outcome s.attempts.length with
    | .failure e =>
      if shouldRetry policy e ((cfg.retryTimes : ℤ) - s.param.retry) then
        { attempted with param := s.param.increaseRetry }
      else { attempted with finished := true }
    | _ => { attempted with finished := true }

/-- The condition of the loop. -/
def Continues (cfg : Setup) (s : State) : Prop :=
  s.finished = false ∧ s.param.retry ≤ cfg.retryTimes

instance (cfg : Setup) : DecidablePred (Continues cfg) :=
  fun _ => inferInstanceAs (Decidable (_ ∧ _))

/-- The distributor selects the first channel with a retry counter of its own.  Without a channel the
request does not reach the loop. -/
def distribute (cfg : Setup) (roll : Roll) : State :=
  let r := cacheGetRandomSatisfiedChannel cfg roll ⟨0, false⟩ none
  ⟨⟨0, false⟩, r.2.2, r.1, [], r.1.isNone⟩

/-- A request: the distributor, then the loop, for at most `fuel` turns. -/
def relay (cfg : Setup) (policy : RetryPolicy) (first : Roll) (rolls : ℕ → Roll)
    (outcome : ℕ → Outcome) (fuel : ℕ) : Option State :=
  Machine.loop (Continues cfg) (turn cfg policy rolls outcome) fuel (distribute cfg first)

/-! ### What is ahead -/

/-- The attempts in a group, by its levels. -/
def Setup.tries (cfg : Setup) (group : String) : List (String × ℤ) :=
  ((cfg.levels group).take (cfg.retryTimes + 1)).map fun level => (group, level)

/-- The loop goes on to the next group: always with the cross-group retry, and otherwise when the
levels of the group are used up before the retries. -/
def Setup.leaves (cfg : Setup) (group : String) : Bool :=
  cfg.crossGroupRetry || decide ((cfg.levels group).length ≤ cfg.retryTimes)

/-- **The schedule**: the attempts of a request that fails everywhere. -/
def schedule (cfg : Setup) : List String → List (String × ℤ)
  | [] => []
  | group :: groups => cfg.tries group ++ if cfg.leaves group then schedule cfg groups else []

/-- What is ahead in the groups that are left, from the level `retry` of the first of them. -/
def aheadFrom (cfg : Setup) (retry : ℕ) : List String → List (String × ℤ)
  | [] => []
  | group :: groups =>
    (cfg.tries group).drop retry ++ if cfg.leaves group then schedule cfg groups else []

/-- What is ahead of the loop. -/
def ahead (cfg : Setup) (s : State) : List (String × ℤ) :=
  match s.selected with
  | some _ => schedule cfg cfg.groups
  | none =>
    if s.finished = true ∨ cfg.retryTimes < s.param.retry then []
    else aheadFrom cfg s.param.retry (cfg.groups.drop (s.cursor.getD 0))

/-- The group and the level of an attempt. -/
def Attempt.place (a : Attempt) : String × ℤ := (a.group, a.candidate.effectivePriority)

variable {cfg : Setup} {policy : RetryPolicy} {rolls : ℕ → Roll} {outcome : ℕ → Outcome}

theorem aheadFrom_zero (groups : List String) : aheadFrom cfg 0 groups = schedule cfg groups := by
  cases groups <;> rfl

variable {group : String} {retry i fuel n : ℕ}

/-- A level that is there, and within the retries, is the next attempt of its group. -/
theorem tries_drop {level : ℤ}
    (hlevel : (cfg.levels group)[retry]? = some level) (hretry : retry ≤ cfg.retryTimes) :
    (cfg.tries group).drop retry = (group, level) :: (cfg.tries group).drop (retry + 1) := by
  have hget : (cfg.tries group)[retry]? = some (group, level) := by
    rw [Setup.tries, getElem?_map, getElem?_take_of_lt (by omega), hlevel]
    rfl
  obtain ⟨hlt, hval⟩ := List.getElem?_eq_some_iff.1 hget
  rw [drop_eq_getElem_cons hlt, hval]

/-- Past the levels of a group, or past the retries, the group has no attempt left. -/
theorem tries_drop_eq_nil (h : (cfg.levels group).length ≤ retry ∨ cfg.retryTimes + 1 ≤ retry) :
    (cfg.tries group).drop retry = [] := by
  refine drop_eq_nil_of_le ?_
  simp only [Setup.tries, length_map, length_take]
  omega

/-- What a selection leaves for the next turn: the counter and the cursor stand at what is ahead,
and nothing is ahead when the retries are used up. -/
structure Next (cfg : Setup) (p : RetryParam) (cursor : ℕ) (rest : List (String × ℤ)) : Prop where
  no_reset : p.increaseRetry.resetNextTry = false
  stops : cfg.retryTimes ≤ p.retry → rest = []
  ends : cfg.retryTimes < p.increaseRetry.retry → rest = []
  goes_on : p.increaseRetry.retry ≤ cfg.retryTimes →
    rest = aheadFrom cfg p.increaseRetry.retry (cfg.groups.drop cursor)

theorem Next.stay {p : RetryParam} {level : ℤ}
    (hgroups : group :: groups = cfg.groups.drop i) (hp : p.resetNextTry = false)
    (hlevel : (cfg.levels group)[p.retry]? = some level)
    (hcross : ¬ (cfg.crossGroupRetry = true ∧ cfg.retryTimes ≤ p.retry)) :
    Next cfg p i ((cfg.tries group).drop (p.retry + 1) ++
      if cfg.leaves group then schedule cfg groups else []) := by
  have hlen : p.retry < (cfg.levels group).length := (List.getElem?_eq_some_iff.1 hlevel).1
  have hincrease : p.increaseRetry = ⟨p.retry + 1, false⟩ := by
    simp [RetryParam.increaseRetry, hp]
  -- with the retries used up, the group has more levels than retries and is not left
  have hstop : cfg.retryTimes ≤ p.retry →
      ((cfg.tries group).drop (p.retry + 1) ++
        if cfg.leaves group then schedule cfg groups else []) = [] := by
    intro hle
    have hleaves : cfg.leaves group = false := by
      have : cfg.crossGroupRetry = false := by
        by_contra hc
        exact hcross ⟨by simpa using hc, hle⟩
      simp [Setup.leaves, this]
      omega
    rw [tries_drop_eq_nil (Or.inr (by omega)), hleaves]
    rfl
  refine ⟨by rw [hincrease], hstop, ?_, ?_⟩
  · rw [hincrease]
    intro h
    exact hstop (by simp only at h; omega)
  · rw [hincrease, ← hgroups]
    intro _
    rfl

/-- The selection moves on: the group has used its retries. -/
theorem Next.move (hgroups : group :: groups = cfg.groups.drop i) (hR : 0 < cfg.retryTimes)
    (hcross : cfg.crossGroupRetry = true) (hretry : cfg.retryTimes ≤ retry) :
    Next cfg ⟨0, true⟩ (i + 1) ((cfg.tries group).drop (retry + 1) ++
      if cfg.leaves group then schedule cfg groups else []) := by
  have hrest : groups = cfg.groups.drop (i + 1) := by
    rw [← tail_drop, ← hgroups]
    rfl
  have hincrease : (⟨0, true⟩ : RetryParam).increaseRetry = ⟨0, false⟩ := rfl
  refine ⟨rfl, fun h => ?_, fun h => ?_, fun _ => ?_⟩
  · exact absurd h (by simp only; omega)
  · rw [hincrease] at h
    exact absurd h (by simp)
  · rw [hincrease, tries_drop_eq_nil (Or.inr (by omega)), ← hrest, aheadFrom_zero]
    simp [Setup.leaves, hcross]

/-- **The selection.**  `CacheGetRandomSatisfiedChannel` finds the next attempt of what is ahead, and
leaves the counter and the cursor at the rest; it finds none when nothing is ahead. -/
theorem autoSelect_spec (roll : Roll) (hR : cfg.crossGroupRetry = true → 0 < cfg.retryTimes)
    (start : ℕ) (cursor : Option ℕ) {p : RetryParam}
    (hgroups : groups = cfg.groups.drop i) (hp : p.resetNextTry = false)
    (hretry : p.retry ≤ cfg.retryTimes) (hstart : start < i → p.retry = 0) :
    (aheadFrom cfg p.retry groups = [] ∧ (autoSelect cfg roll start i groups p cursor).1 = none) ∨
      ∃ a p' j rest, aheadFrom cfg p.retry groups = a.place :: rest ∧
        autoSelect cfg roll start i groups p cursor = (some a, p', some j) ∧
        Next cfg p' j rest ∧ (p.retry = 0 → p' = ⟨0, false⟩) := by
  induction groups generalizing i p cursor with
  | nil => exact Or.inl ⟨rfl, rfl⟩
  | cons group groups ih =>
    have hpriority : (if start < i then 0 else p.retry) = p.retry := by
      split_ifs with h
      · exact (hstart h).symm
      · rfl
    have hrest : groups = cfg.groups.drop (i + 1) := by
      rw [← tail_drop, ← hgroups]
      rfl
    cases hsel : selectChannelByRoutingKey roll (cfg.candidates group) p.retry with
    | none =>
      -- the levels of the group are used up: the loop goes on with the next group, from the top
      have hlen : (cfg.levels group).length ≤ p.retry :=
        selectChannelByRoutingKey_eq_none_iff.1 hsel
      have hleaves : cfg.leaves group = true := by
        simp [Setup.leaves]
        omega
      have hahead : aheadFrom cfg p.retry (group :: groups) = aheadFrom cfg 0 groups := by
        rw [aheadFrom, tries_drop_eq_nil (Or.inl hlen), hleaves, aheadFrom_zero]
        rfl
      have hauto : autoSelect cfg roll start i (group :: groups) p cursor =
          autoSelect cfg roll start (i + 1) groups { p with retry := 0 } (some (i + 1)) := by
        simp only [autoSelect, hpriority, hsel]
      rw [hahead, hauto]
      rcases ih (some (i + 1)) (p := { p with retry := 0 }) hrest hp (zero_le _)
        (fun _ => rfl) with hnone | ⟨a, p', j, rest, hrest', hsome, hnext, hfirst⟩
      · exact Or.inl hnone
      · exact Or.inr ⟨a, p', j, rest, hrest', hsome, hnext, fun _ => hfirst rfl⟩
    | some c =>
      obtain ⟨-, hlevel⟩ := selectChannelByRoutingKey_spec hsel
      refine Or.inr ?_
      have hahead : aheadFrom cfg p.retry (group :: groups) =
          (group, c.effectivePriority) :: ((cfg.tries group).drop (p.retry + 1) ++
            if cfg.leaves group then schedule cfg groups else []) := by
        rw [aheadFrom, tries_drop hlevel hretry]
        rfl
      by_cases hcross : cfg.crossGroupRetry = true ∧ cfg.retryTimes ≤ p.retry
      · have hpos := hR hcross.1
        refine ⟨⟨group, c⟩, ⟨0, true⟩, i + 1, _, hahead, ?_,
          Next.move hgroups hpos hcross.1 hcross.2, fun h => ?_⟩
        · simp only [autoSelect, hpriority, hsel, hcross, and_self, if_true]
        · exact absurd hcross.2 (by omega)
      · refine ⟨⟨group, c⟩, p, i, _, hahead, ?_, Next.stay hgroups hp hlevel hcross, fun h => ?_⟩
        · simp only [autoSelect, hpriority, hsel, hcross, if_false]
        · cases p
          simp only at h hp
          rw [h, hp]

theorem cacheGet_spec (roll : Roll) (hR : cfg.crossGroupRetry = true → 0 < cfg.retryTimes)
    (cursor : Option ℕ) {p : RetryParam} (hp : p.resetNextTry = false)
    (hretry : p.retry ≤ cfg.retryTimes) :
    (aheadFrom cfg p.retry (cfg.groups.drop (cursor.getD 0)) = [] ∧
      (cacheGetRandomSatisfiedChannel cfg roll p cursor).1 = none) ∨
      ∃ a p' j rest,
        aheadFrom cfg p.retry (cfg.groups.drop (cursor.getD 0)) = a.place :: rest ∧
        cacheGetRandomSatisfiedChannel cfg roll p cursor = (some a, p', some j) ∧
        Next cfg p' j rest ∧ (p.retry = 0 → p' = ⟨0, false⟩) := by
  have hauto : cacheGetRandomSatisfiedChannel cfg roll p cursor =
      autoSelect cfg roll (cursor.getD 0) (cursor.getD 0) (cfg.groups.drop (cursor.getD 0)) p
        cursor := by
    unfold cacheGetRandomSatisfiedChannel
    split_ifs with hnil
    · simp [hnil, autoSelect]
    · rfl
  rw [hauto]
  exact autoSelect_spec roll hR _ cursor rfl hp hretry fun h => absurd h (lt_irrefl _)

/-! ### One turn -/

/-- The invariant of the loop: the channel in the context is the first of the schedule, and as long
as the loop goes on the counter carries no reset. -/
structure Inv (cfg : Setup) (s : State) : Prop where
  first : ∀ a ∈ s.selected, s.finished = false ∧ s.param = ⟨0, false⟩ ∧
    ∃ j rest, s.cursor = some j ∧ schedule cfg cfg.groups = a.place :: rest ∧
      Next cfg s.param j rest
  no_reset : s.finished = false → s.param.resetNextTry = false

variable {s : State}

/-- A loop without a channel in the context. -/
theorem Inv.of_selected (hselected : s.selected = none)
    (hreset : s.finished = false → s.param.resetNextTry = false) : Inv cfg s :=
  ⟨fun a ha => absurd (hselected.symm.trans ha) (by simp), hreset⟩

/-- What a turn leaves: when the attempt failed, the loop stands at the rest of what was ahead;
otherwise it has finished. -/
def After (cfg : Setup) (o : Outcome) (rest : List (String × ℤ)) (s : State) : Prop :=
  s.selected = none ∧ Inv cfg s ∧ if o.failed then ahead cfg s = rest else s.finished = true

theorem turn_attempt (hout : ∀ n e, outcome n = .failure e → Retryable policy e)
    {a : Attempt} {p : RetryParam} {j : ℕ} {rest : List (String × ℤ)}
    (hget : getChannel cfg rolls s = (some a, ⟨p, some j, none, s.attempts, false⟩))
    (hnext : Next cfg p j rest) :
    (turn cfg policy rolls outcome s).attempts = s.attempts ++ [a] ∧
      After cfg (outcome s.attempts.length) rest (turn cfg policy rolls outcome s) := by
  cases ho : outcome s.attempts.length with
  | success | aborted =>
    have hturn : turn cfg policy rolls outcome s = ⟨p, some j, none, s.attempts ++ [a], true⟩ := by
      simp only [turn, hget, ho]
    rw [hturn]
    exact ⟨rfl, rfl, Inv.of_selected rfl fun h => absurd h (by simp), rfl⟩
  | failure e =>
    by_cases hretry : shouldRetry policy e ((cfg.retryTimes : ℤ) - p.retry) = true
    · have hturn : turn cfg policy rolls outcome s =
          ⟨p.increaseRetry, some j, none, s.attempts ++ [a], false⟩ := by
        simp only [turn, hget, ho, hretry, if_true]
      rw [hturn]
      refine ⟨rfl, rfl, Inv.of_selected rfl fun _ => hnext.no_reset, ?_⟩
      simp only [Outcome.failed, if_true, ahead, Bool.false_eq_true, false_or]
      split_ifs with hend
      · exact (hnext.ends hend).symm
      · exact (hnext.goes_on (not_lt.1 hend)).symm
    · -- a failure that can be retried stops the loop only when the retries are used up
      have hstop : cfg.retryTimes ≤ p.retry := by
        by_contra hlt
        exact hretry ((hout _ e ho).shouldRetry (by omega))
      have hturn : turn cfg policy rolls outcome s = ⟨p, some j, none, s.attempts ++ [a], true⟩ := by
        simp only [turn, hget, ho, hretry, if_false, Bool.false_eq_true]
      rw [hturn]
      refine ⟨rfl, rfl, Inv.of_selected rfl fun h => absurd h (by simp), ?_⟩
      simp [Outcome.failed, ahead, hnext.stops hstop]

/-- **One turn.**  It makes the next attempt of what is ahead, or finishes when nothing is. -/
theorem turn_spec (rolls : ℕ → Roll) (hR : cfg.crossGroupRetry = true → 0 < cfg.retryTimes)
    (hout : ∀ n e, outcome n = .failure e → Retryable policy e) (h : Inv cfg s)
    (hc : Continues cfg s) :
    (ahead cfg s = [] ∧ (turn cfg policy rolls outcome s).finished = true ∧
      (turn cfg policy rolls outcome s).attempts = s.attempts) ∨
      ∃ a rest, ahead cfg s = a.place :: rest ∧
        (turn cfg policy rolls outcome s).attempts = s.attempts ++ [a] ∧
        After cfg (outcome s.attempts.length) rest (turn cfg policy rolls outcome s) := by
  obtain ⟨param, cursor, selected, attempts, finished⟩ := s
  obtain ⟨hfinished, hretry⟩ := hc
  cases selected with
  | some a =>
    -- the first turn: the channel is the one of the distributor
    obtain ⟨-, hparam, j, rest, hcursor, hschedule, hnext⟩ := h.first a rfl
    simp only at hfinished hparam hcursor
    subst hfinished hparam hcursor
    exact Or.inr ⟨a, rest, hschedule, turn_attempt hout rfl hnext⟩
  | none =>
    simp only at hfinished
    subst hfinished
    have hreset : param.resetNextTry = false := h.no_reset rfl
    have hahead : ahead cfg ⟨param, cursor, none, attempts, false⟩ =
        aheadFrom cfg param.retry (cfg.groups.drop (cursor.getD 0)) := by
      simp only [ahead, Bool.false_eq_true, false_or]
      exact if_neg (not_lt.2 hretry)
    rw [hahead]
    rcases cacheGet_spec (rolls attempts.length) hR cursor hreset hretry with
      ⟨hnil, hnone⟩ | ⟨a, p', j, rest, hcons, hsome, hnext, -⟩
    · refine Or.inl ⟨hnil, ?_⟩
      rcases hsel : cacheGetRandomSatisfiedChannel cfg (rolls attempts.length) param cursor with
        ⟨o, p', cursor'⟩
      rw [hsel] at hnone
      obtain rfl : o = none := hnone
      have hturn : turn cfg policy rolls outcome ⟨param, cursor, none, attempts, false⟩ =
          ⟨p', cursor', none, attempts, true⟩ := by
        simp only [turn, getChannel, hsel]
      rw [hturn]
      exact ⟨rfl, rfl⟩
    · refine Or.inr ⟨a, rest, hcons, turn_attempt hout ?_ hnext⟩
      simp only [getChannel, hsome]

/-! ### The whole loop -/

/-- The attempts that are made: those ahead, up to the first one that does not fail.  The first of
them is the `n`-th of the request. -/
def made (outcome : ℕ → Outcome) : ℕ → List (String × ℤ) → List (String × ℤ)
  | _, [] => []
  | n, a :: rest => a :: if (outcome n).failed then made outcome (n + 1) rest else []

theorem ahead_of_not_continues (h : Inv cfg s) (hc : ¬ Continues cfg s) : ahead cfg s = [] := by
  cases hselected : s.selected with
  | some a =>
    obtain ⟨hfinished, hparam, -⟩ := h.first a hselected
    exact absurd ⟨hfinished, by rw [hparam]; exact zero_le _⟩ hc
  | none =>
    simp only [ahead, hselected]
    refine if_pos ?_
    by_contra hnot
    simp only [not_or, Bool.not_eq_true, not_lt] at hnot
    exact hc hnot

/-- **The loop.**  With one turn more than there are attempts ahead it ends, and has made them up to
the first that did not fail. -/
theorem loop_spec (rolls : ℕ → Roll) (hR : cfg.crossGroupRetry = true → 0 < cfg.retryTimes)
    (hout : ∀ n e, outcome n = .failure e → Retryable policy e)
    (h : Inv cfg s) (hfuel : (ahead cfg s).length + 1 ≤ fuel) :
    ∃ s', Machine.loop (Continues cfg) (turn cfg policy rolls outcome) fuel s = some s' ∧
      s'.attempts.map Attempt.place =
        s.attempts.map Attempt.place ++ made outcome s.attempts.length (ahead cfg s) := by
  induction fuel generalizing s with
  | zero => omega
  | succ fuel ih =>
    by_cases hc : Continues cfg s
    · rw [Machine.loop_succ hc]
      rcases turn_spec rolls hR hout h hc with
        ⟨hnil, hfinished, hattempts⟩ | ⟨a, rest, hcons, hattempts, hselected, hinv, hafter⟩
      · refine ⟨_, Machine.loop_of_not fun hc' => ?_, ?_⟩
        · exact absurd (hc'.1.symm.trans hfinished) (by simp)
        · rw [hattempts, hnil]
          simp [made]
      · by_cases hfailed : (outcome s.attempts.length).failed = true
        · rw [if_pos hfailed] at hafter
          obtain ⟨s', hloop, hplaces⟩ := ih hinv (by
            rw [hafter]
            rw [hcons] at hfuel
            simp only [length_cons] at hfuel
            omega)
          refine ⟨s', hloop, ?_⟩
          rw [hplaces, hattempts, hafter, hcons]
          simp [made, hfailed]
        · rw [if_neg hfailed] at hafter
          refine ⟨_, Machine.loop_of_not fun hc' => ?_, ?_⟩
          · exact absurd (hc'.1.symm.trans hafter) (by simp)
          · rw [hattempts, hcons]
            simp [made, hfailed]
    · refine ⟨s, Machine.loop_of_not hc, ?_⟩
      rw [ahead_of_not_continues h hc]
      simp [made]

/-- The distributor leaves the loop before the first attempt of the schedule, or without any. -/
theorem distribute_spec (hR : cfg.crossGroupRetry = true → 0 < cfg.retryTimes) (roll : Roll) :
    Inv cfg (distribute cfg roll) ∧ ahead cfg (distribute cfg roll) = schedule cfg cfg.groups ∧
      (distribute cfg roll).attempts = [] := by
  have hzero : aheadFrom cfg 0 (cfg.groups.drop ((none : Option ℕ).getD 0)) =
      schedule cfg cfg.groups := aheadFrom_zero cfg.groups
  rcases cacheGet_spec roll hR none (p := ⟨0, false⟩) rfl (zero_le _) with
    ⟨hnil, hnone⟩ | ⟨a, p', j, rest, hcons, hsome, hnext, hfirst⟩
  · rw [hzero] at hnil
    rcases hsel : cacheGetRandomSatisfiedChannel cfg roll ⟨0, false⟩ none with ⟨o, p', cursor'⟩
    rw [hsel] at hnone
    obtain rfl : o = none := hnone
    have hstate : distribute cfg roll = ⟨⟨0, false⟩, cursor', none, [], true⟩ := by
      simp only [distribute, hsel]
      rfl
    rw [hstate]
    exact ⟨Inv.of_selected rfl fun _ => rfl, by simp [ahead, hnil], rfl⟩
  · rw [hzero] at hcons
    obtain rfl := hfirst rfl
    have hstate : distribute cfg roll = ⟨⟨0, false⟩, some j, some a, [], false⟩ := by
      simp only [distribute, hsome]
      rfl
    rw [hstate]
    refine ⟨⟨fun a' ha' => ?_, fun _ => rfl⟩, rfl, rfl⟩
    cases ha'
    exact ⟨rfl, rfl, j, rest, rfl, hcons, hnext⟩

/-- **The attempts of a request.**  The loop ends, and has made the attempts of the schedule up to
the first that did not fail. -/
theorem relay_attempts (cfg : Setup) (rolls : ℕ → Roll)
    (hR : cfg.crossGroupRetry = true → 0 < cfg.retryTimes)
    (hout : ∀ n e, outcome n = .failure e → Retryable policy e) (first : Roll)
    (hfuel : (schedule cfg cfg.groups).length + 1 ≤ fuel) :
    ∃ s, relay cfg policy first rolls outcome fuel = some s ∧
      s.attempts.map Attempt.place = made outcome 0 (schedule cfg cfg.groups) := by
  obtain ⟨hinv, hahead, hattempts⟩ := distribute_spec hR first
  rw [← hahead] at hfuel
  obtain ⟨s, hloop, hplaces⟩ := loop_spec rolls hR hout hinv hfuel
  refine ⟨s, hloop, ?_⟩
  rw [hplaces, hattempts, hahead]
  rfl

/-! ### The schedule -/

theorem made_initial (outcome : ℕ → Outcome) (n : ℕ) (l : List (String × ℤ)) :
    made outcome n l <+: l := by
  induction l generalizing n with
  | nil => exact prefix_rfl
  | cons a rest ih =>
    rw [made]
    split_ifs
    · exact cons_prefix_cons.2 ⟨rfl, ih (n + 1)⟩
    · exact cons_prefix_cons.2 ⟨rfl, nil_prefix⟩

theorem made_ne_nil {l : List (String × ℤ)} (h : l ≠ []) : made outcome n l ≠ [] := by
  cases l with
  | nil => exact absurd rfl h
  | cons a rest =>
    rw [made]
    split_ifs <;> simp

/-- What is made of two stretches: the second is reached when the first fails throughout. -/
theorem made_append (outcome : ℕ → Outcome) (n : ℕ) (l l' : List (String × ℤ)) :
    made outcome n (l ++ l') = made outcome n l ++
      if ∀ k < l.length, (outcome (n + k)).failed = true then made outcome (n + l.length) l'
      else [] := by
  induction l generalizing n with
  | nil => simp [made]
  | cons a l ih =>
    by_cases hfailed : (outcome n).failed = true
    · have hall : (∀ k < (a :: l).length, (outcome (n + k)).failed = true) ↔
          ∀ k < l.length, (outcome (n + 1 + k)).failed = true := by
        constructor
        · intro h k hk
          have := h (k + 1) (by simpa using hk)
          rwa [show n + 1 + k = n + (k + 1) by omega]
        · intro h k hk
          cases k with
          | zero => exact hfailed
          | succ k =>
            have := h k (by simpa using hk)
            rwa [show n + (k + 1) = n + 1 + k by omega]
      have hlen : n + (a :: l).length = n + 1 + l.length := by
        simp only [length_cons]
        omega
      rw [cons_append, made, if_pos hfailed, made, if_pos hfailed, ih (n + 1), hlen]
      simp only [hall, cons_append]
    · have hnot : ¬ ∀ k < (a :: l).length, (outcome (n + k)).failed = true :=
        fun h => hfailed (h 0 (by simp))
      rw [cons_append, made, if_neg hfailed, made, if_neg hfailed, if_neg hnot,
        append_nil]

theorem made_of_failed (h : ∀ k, (outcome k).failed = true)
    (l : List (String × ℤ)) : made outcome n l = l := by
  induction l generalizing n with
  | nil => rfl
  | cons a rest ih => rw [made, if_pos (h n), ih]

theorem length_tries (cfg : Setup) (group : String) :
    (cfg.tries group).length = min (cfg.retryTimes + 1) (cfg.levels group).length := by
  rw [Setup.tries, length_map, length_take]

theorem fst_of_mem_tries {x : String × ℤ} (h : x ∈ cfg.tries group) : x.1 = group := by
  obtain ⟨level, -, rfl⟩ := mem_map.1 h
  rfl

theorem nodup_tries (group : String) : (cfg.tries group).Nodup := by
  refine List.Nodup.map (fun a b h => (Prod.mk.inj h).2) ?_
  refine List.Sublist.nodup (take_sublist _ _) ?_
  exact (levels_pairwise _).imp fun h => ne_of_gt h

theorem schedule_cross (hcross : cfg.crossGroupRetry = true) (groups : List String) :
    schedule cfg groups = groups.flatMap cfg.tries := by
  induction groups with
  | nil => rfl
  | cons group groups ih => simp [schedule, Setup.leaves, hcross, ih]

theorem length_schedule (groups : List String) :
    (schedule cfg groups).length ≤ groups.length * (cfg.retryTimes + 1) := by
  induction groups with
  | nil => exact zero_le _
  | cons group groups ih =>
    have htries := length_tries cfg group
    have hrest : (if cfg.leaves group then schedule cfg groups else []).length ≤
        groups.length * (cfg.retryTimes + 1) := by
      split_ifs
      · exact ih
      · exact zero_le _
    rw [schedule, length_append, length_cons, add_mul]
    omega

theorem fst_of_mem_schedule {x : String × ℤ} (h : x ∈ schedule cfg groups) : x.1 ∈ groups := by
  induction groups with
  | nil => simp [schedule] at h
  | cons group groups ih =>
    rw [schedule] at h
    rcases mem_append.1 h with h | h
    · rw [fst_of_mem_tries h]
      exact mem_cons_self
    · split_ifs at h
      · exact mem_cons_of_mem _ (ih h)
      · simp at h

theorem nodup_schedule (hgroups : groups.Nodup) : (schedule cfg groups).Nodup := by
  induction groups with
  | nil => exact nodup_nil
  | cons group groups ih =>
    obtain ⟨hnot, hnodup⟩ := nodup_cons.1 hgroups
    rw [schedule]
    split_ifs
    · refine List.Nodup.append (nodup_tries group) (ih hnodup) fun x hx hx' => ?_
      rw [← fst_of_mem_tries hx] at hnot
      exact hnot (fst_of_mem_schedule hx')
    · rw [append_nil]
      exact nodup_tries group

/-! ### With the cross-group retry -/

/-- A server error that is retried. -/
def serverError : ApiError := ⟨false, false, 500, "bad_response_status_code"⟩

/-- Server errors are retried, and nothing forbids it. -/
def retryOnServerError : RetryPolicy := ⟨false, false, fun _ => false, fun code => code = 500⟩

/-- The token lists three groups, all of them selectable. -/
def threeGroups : AutoGroups := ⟨fun _ => true, [], some ["a", "b", "c"], 5⟩

/-- Group `a` has three levels, group `b` none, group `c` one. -/
def someCandidates (group : String) : List Candidate :=
  if group = "a" then [⟨1, 11, 500, 10⟩, ⟨2, 12, 700, 10⟩, ⟨3, 13, 100, 10⟩]
  else if group = "c" then [⟨4, 14, 300, 10⟩]
  else []

theorem retryable_serverError (n : ℕ) (e : ApiError)
    (h : (fun _ : ℕ => Outcome.failure serverError) n = .failure e) :
    Retryable retryOnServerError e := by
  obtain rfl : serverError = e := Outcome.failure.inj h
  rfl

/-- All attempts are in one group, and there are no more of them than `RetryTimes + 1`. -/
def StaysInGroup (retryTimes : ℕ) (s : State) : Prop :=
  (∀ a ∈ s.attempts, ∀ b ∈ s.attempts, a.group = b.group) ∧ s.attempts.length ≤ retryTimes + 1

/-- The groups from the first one with a channel on. -/
def Setup.served (cfg : Setup) : List String :=
  cfg.groups.dropWhile fun group => (cfg.levels group).isEmpty

/-- **When the request stays.**  The first group with a channel has a level for every retry, or no
later group has a channel, or an attempt on one of its levels does not fail. -/
def Stays (cfg : Setup) (outcome : ℕ → Outcome) : Prop :=
  match cfg.served with
  | [] => True
  | group :: later =>
    cfg.retryTimes + 1 ≤ (cfg.levels group).length ∨ (∀ g ∈ later, cfg.levels g = []) ∨
      ∃ n < (cfg.levels group).length, (outcome n).failed = false

/-- Groups without a channel are passed over. -/
theorem schedule_dropWhile (groups : List String) :
    schedule cfg (groups.dropWhile fun group => (cfg.levels group).isEmpty) =
      schedule cfg groups := by
  induction groups with
  | nil => rfl
  | cons group groups ih =>
    by_cases hempty : cfg.levels group = []
    · have htries : cfg.tries group = [] := by simp [Setup.tries, hempty]
      have hleaves : cfg.leaves group = true := by simp [Setup.leaves, hempty]
      rw [dropWhile_cons_of_pos (by simp [hempty]), ih, schedule, htries, hleaves]
      rfl
    · rw [dropWhile_cons_of_neg (by simpa using hempty)]

theorem schedule_eq_nil_iff (groups : List String) :
    schedule cfg groups = [] ↔ ∀ group ∈ groups, cfg.levels group = [] := by
  induction groups with
  | nil => simp [schedule]
  | cons group groups ih =>
    have htries : cfg.tries group = [] ↔ cfg.levels group = [] := by
      rw [← length_eq_zero_iff, length_tries, ← length_eq_zero_iff]
      omega
    rw [schedule, append_eq_nil_iff, htries, forall_mem_cons]
    constructor
    · rintro ⟨hempty, hrest⟩
      have hleaves : cfg.leaves group = true := by simp [Setup.leaves, hempty]
      rw [hleaves, if_pos rfl] at hrest
      exact ⟨hempty, ih.1 hrest⟩
    · rintro ⟨hempty, hrest⟩
      refine ⟨hempty, ?_⟩
      split_ifs
      · exact ih.2 hrest
      · rfl

theorem staysInGroup_iff {retryTimes : ℕ} :
    StaysInGroup retryTimes s ↔
      (∀ x ∈ s.attempts.map Attempt.place, ∀ y ∈ s.attempts.map Attempt.place, x.1 = y.1) ∧
        (s.attempts.map Attempt.place).length ≤ retryTimes + 1 := by
  simp only [StaysInGroup, length_map, forall_mem_map]
  rfl

theorem staysInGroup_of_initial
    (h : s.attempts.map Attempt.place <+: cfg.tries group) : StaysInGroup cfg.retryTimes s := by
  refine staysInGroup_iff.2 ⟨fun x hx y hy => ?_, ?_⟩
  · rw [fst_of_mem_tries (h.subset hx), fst_of_mem_tries (h.subset hy)]
  · have hlen := length_tries cfg group
    have := h.length_le
    omega

theorem Setup.levels_of_served (h : cfg.served = group :: later) : cfg.levels group ≠ [] := by
  have hnot := head?_dropWhile_not (fun g => (cfg.levels g).isEmpty) cfg.groups
  rw [Setup.served] at h
  rw [h] at hnot
  simpa using hnot

theorem not_staysInGroup
    (hattempts : s.attempts.map Attempt.place = made outcome 0 (schedule cfg (group :: later)))
    (hgroup : group ∉ later) (hlevels : cfg.levels group ≠ [])
    (hfew : (cfg.levels group).length ≤ cfg.retryTimes) (hlater : ¬ ∀ g ∈ later, cfg.levels g = [])
    (hfailed : ∀ n < (cfg.levels group).length, (outcome n).failed = true) :
    ¬ StaysInGroup cfg.retryTimes s := by
  have hlen : (cfg.tries group).length = (cfg.levels group).length := by
    rw [length_tries]
    omega
  have hleaves : cfg.leaves group = true := by simp [Setup.leaves, hfew]
  rw [schedule, if_pos hleaves, made_append, if_pos (by simpa [hlen] using hfailed)] at hattempts
  -- one attempt in the group, one in the later groups
  obtain ⟨x, hx⟩ : ∃ x, x ∈ made outcome 0 (cfg.tries group) := by
    refine exists_mem_of_ne_nil _ (made_ne_nil ?_)
    rw [← length_pos_iff, hlen]
    exact length_pos_of_ne_nil hlevels
  obtain ⟨y, hy⟩ : ∃ y, y ∈ made outcome (0 + (cfg.tries group).length) (schedule cfg later) :=
    exists_mem_of_ne_nil _ (made_ne_nil fun h => hlater ((schedule_eq_nil_iff later).1 h))
  intro hstays
  have hsame := (staysInGroup_iff.1 hstays).1
  rw [hattempts] at hsame
  have hfst := hsame x (mem_append_left _ hx) y (mem_append_right _ hy)
  refine hgroup ?_
  rw [← fst_of_mem_tries ((made_initial outcome _ _).subset hx), hfst]
  exact fst_of_mem_schedule ((made_initial outcome _ _).subset hy)

/-- The attempts end within the first group: it is not left, or nothing comes after it, or one of
its levels does not fail. -/
theorem made_initial_tries (hcross : cfg.crossGroupRetry = false)
    (h : cfg.retryTimes + 1 ≤ (cfg.levels group).length ∨ (∀ g ∈ later, cfg.levels g = []) ∨
      ∃ n < (cfg.levels group).length, (outcome n).failed = false) :
    made outcome 0 (schedule cfg (group :: later)) <+: cfg.tries group := by
  rw [schedule]
  by_cases hmany : cfg.retryTimes + 1 ≤ (cfg.levels group).length
  · have hleaves : cfg.leaves group = false := by
      simp [Setup.leaves, hcross]
      omega
    simp only [hleaves, Bool.false_eq_true, if_false, append_nil]
    exact made_initial outcome 0 _
  · rcases h with h | hempty | ⟨n, hn, hfine⟩
    · exact absurd h hmany
    · rw [(schedule_eq_nil_iff later).2 hempty, ite_self, append_nil]
      exact made_initial outcome 0 _
    · have hnot : ¬ ∀ k < (cfg.tries group).length, (outcome (0 + k)).failed = true := by
        intro hall
        have hfailed := hall n (by rw [length_tries]; omega)
        rw [zero_add, hfine] at hfailed
        exact Bool.false_ne_true hfailed
      rw [made_append, if_neg hnot, append_nil]
      exact made_initial outcome 0 _

/-- When the first group with a channel is the only one used. -/
theorem staysInGroup_served (hcross : cfg.crossGroupRetry = false)
    (hattempts : s.attempts.map Attempt.place = made outcome 0 (schedule cfg (group :: later)))
    (hgroup : group ∉ later) (hlevels : cfg.levels group ≠ []) :
    StaysInGroup cfg.retryTimes s ↔
      cfg.retryTimes + 1 ≤ (cfg.levels group).length ∨ (∀ g ∈ later, cfg.levels g = []) ∨
        ∃ n < (cfg.levels group).length, (outcome n).failed = false := by
  constructor
  · intro hstays
    by_contra hnot
    push Not at hnot
    obtain ⟨hfew, ⟨g, hg, hlevel⟩, hfailed⟩ := hnot
    refine not_staysInGroup hattempts hgroup hlevels (by omega) (fun h => hlevel (h g hg)) ?_ hstays
    intro n hn
    simpa using hfailed n hn
  · intro hcond
    exact staysInGroup_of_initial (hattempts ▸ made_initial_tries hcross hcond)

end NexusTok.Retry
