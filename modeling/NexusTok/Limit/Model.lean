import Mathlib.Algebra.Group.Int.Defs
import Mathlib.Algebra.Group.Nat.Defs
import NexusTok.Limit.Memory

/-!
# The success limit of model requests

`ModelRequestRateLimit` limits the successful requests of a user, with Redis or in memory, here for
the total limit `0`, which both handlers skip.

* `redisRateLimitHandler`, `memoryRateLimitHandler` : one request, with the times at which it comes
  and is handled.
* `SuccessLaw` : what the limit promises.  `redis_lawful` : with Redis it is kept.
* `SameSide` : at every request the requests handled and the successes are on the same side of the
  limit.  `sameAnswers_iff` : exactly then both handlers admit the same requests.
-/

namespace NexusTok

open Window List

/-- A request that comes and is handled at a time, in milliseconds. -/
structure ModelRequest where
  start : Int
  finish : Int
  /-- The status is below 400. -/
  succeeds : Bool
deriving DecidableEq, Repr

/-- `time.Now().Unix()`. -/
def unix (time : Int) : Int := time / 1000

def rateLimitDurationSeconds (durationMinutes : Int) : Int :=
  if durationMinutes ≤ 0 then 0
  else if durationMinutes > (2 ^ 63 - 1) / 60 then 2 ^ 63 - 1
  else durationMinutes * 60

/-- `time.Duration(durationMinutes) * time.Minute`, in nanoseconds. -/
def minutes (durationMinutes : Int) : Int := (durationMinutes * 60000000000).bmod (2 ^ 64)

/-! ### Redis -/

/-- The list of a user under the success key, the newest time first, until it expires. -/
structure SuccessList where
  times : List Int := []
  expiresAt : Int := 0
deriving DecidableEq, Repr

namespace SuccessList

variable (s : SuccessList)

/-- The list that a command at a time finds. -/
def live (now : Int) : List Int := if s.expiresAt < now then [] else s.times

/-- `Expire`, which deletes a key without a positive duration. -/
def expire (now expiration : Int) : SuccessList :=
  let seconds := expiration.tdiv 1000000000
  if seconds ≤ 0 then {} else { s with expiresAt := now + 1000 * seconds }

def checkRedisRateLimit (maxCount : Nat) (duration expiration now : Int) : SuccessList × Bool :=
  if maxCount = 0 then (s, true)
  else if (s.live now).length < maxCount then (s, true)
  else
    match (s.live now).getLast? with
    | none => (s, false)
    | some oldTime =>
      if (now - oldTime).tdiv 1000 < duration then
        (({ s with times := s.live now } : SuccessList).expire now expiration, false)
      else (s, true)

def recordRedisRequest (maxCount : Nat) (expiration now : Int) : SuccessList :=
  if maxCount = 0 then s
  else ({ s with times := (now :: s.live now).take maxCount } : SuccessList).expire now expiration

/-- `redisRateLimitHandler`, and whether the request is admitted. -/
def redisRateLimitHandler (durationMinutes : Int) (successMaxCount : Nat) (r : ModelRequest) :
    SuccessList × Bool :=
  let (s, allowed) := s.checkRedisRateLimit successMaxCount
    (rateLimitDurationSeconds durationMinutes) (minutes durationMinutes) r.start
  if allowed && r.succeeds then
    (s.recordRedisRequest successMaxCount (minutes durationMinutes) r.finish, allowed)
  else (s, allowed)

end SuccessList

/-! ### Memory -/

/-- `ModelRequestRateLimitSuccessCountMark + userId`. -/
def successKey (userId : Int) : String := "MRRLS" ++ toString userId

/-- `successKey + "_check"`. -/
def checkKey (userId : Int) : String := successKey userId ++ "_check"

/-- `memoryRateLimitHandler`, and whether the request is admitted. -/
def InMemoryRateLimiter.memoryRateLimitHandler (l : InMemoryRateLimiter) (durationMinutes : Int)
    (successMaxCount : Nat) (userId : Int) (r : ModelRequest) : InMemoryRateLimiter × Bool :=
  let duration := rateLimitDurationSeconds durationMinutes
  match l.request (checkKey userId) successMaxCount duration (unix r.start) with
  | (l, some true) =>
    if r.succeeds then
      ((l.request (successKey userId) successMaxCount duration (unix r.finish)).1, true)
    else (l, true)
  | (l, _) => (l, false)

/-! ### Runs -/

/-- A request, or a sweep of the in-memory limiter at a time. -/
inductive ModelCall
  | request (r : ModelRequest)
  | sweep (time : Int)
deriving DecidableEq, Repr

/-- One after the other, from a time on. -/
def InSequence : Int → List ModelCall → Prop
  | _, [] => True
  | now, .request r :: calls => now ≤ r.start ∧ r.start ≤ r.finish ∧ InSequence r.finish calls
  | now, .sweep time :: calls => now ≤ time ∧ InSequence time calls

/-- The requests, with the answers of the Redis handler. -/
def redisAnswers (durationMinutes : Int) (successMaxCount : Nat) :
    SuccessList → List ModelCall → List (ModelRequest × Bool)
  | _, [] => []
  | s, .sweep _ :: calls => redisAnswers durationMinutes successMaxCount s calls
  | s, .request r :: calls =>
    let (s, admitted) := s.redisRateLimitHandler durationMinutes successMaxCount r
    (r, admitted) :: redisAnswers durationMinutes successMaxCount s calls

/-- The requests, with the answers of the in-memory handler. -/
def memoryAnswers (durationMinutes : Int) (successMaxCount : Nat) (userId : Int) :
    InMemoryRateLimiter → List ModelCall → List (ModelRequest × Bool)
  | _, [] => []
  | l, .sweep time :: calls =>
    memoryAnswers durationMinutes successMaxCount userId (l.clearExpiredItems (unix time)) calls
  | l, .request r :: calls =>
    let (l, admitted) := l.memoryRateLimitHandler durationMinutes successMaxCount userId r
    (r, admitted) :: memoryAnswers durationMinutes successMaxCount userId l calls

/-- The times of the successes. -/
def successes (answers : List (ModelRequest × Bool)) : List Int :=
  (answers.filter fun a => a.2 && a.1.succeeds).map (·.1.finish)

/-- **What the limit promises**, for the duration in seconds. -/
structure SuccessLaw (duration : Int) (successMaxCount : Nat)
    (answers : List (ModelRequest × Bool)) : Prop where
  /-- At most `successMaxCount` successes in any window of the duration. -/
  window : 0 < successMaxCount → Bounded (1000 * duration) successMaxCount (successes answers)
  /-- A request is refused only if the last `successMaxCount` successes lie within the duration. -/
  refusal : ∀ before r rest, answers = before ++ (r, false) :: rest →
    successMaxCount ≤ (recent (1000 * duration) r.start (successes before)).length
  /-- The limit `0` means no limit. -/
  unlimited : successMaxCount = 0 → ∀ a ∈ answers, a.2 = true

/-- The in-memory handler counts the requests that it has handled, by the second in which they came,
and the Redis handler the successes, by the millisecond in which they were handled.  At every request
both are on the same side of the limit, and a limit `0` is a limit `1` in memory. -/
def SameSide (duration : Int) (successMaxCount : Nat) : List Int → List Int → List ModelCall → Prop
  | _, _, [] => True
  | handled, succeeded, .sweep _ :: calls => SameSide duration successMaxCount handled succeeded calls
  | handled, succeeded, .request r :: calls =>
    (max 1 successMaxCount ≤ (recent duration (unix r.start) handled).length ↔
      0 < successMaxCount ∧ successMaxCount ≤ (recent (1000 * duration) r.start succeeded).length) ∧
    if 0 < successMaxCount ∧
        successMaxCount ≤ (recent (1000 * duration) r.start succeeded).length then
      SameSide duration successMaxCount handled succeeded calls
    else
      SameSide duration successMaxCount (handled ++ [unix r.start])
        (if r.succeeds then succeeded ++ [r.finish] else succeeded) calls

/-! ### Durations -/

variable {durationMinutes : Int} {successMaxCount : Nat}

theorem rateLimitDurationSeconds_eq (hpos : 0 < durationMinutes)
    (hmax : durationMinutes ≤ 153722867) :
    rateLimitDurationSeconds durationMinutes = durationMinutes * 60 := by
  unfold rateLimitDurationSeconds
  rw [if_neg (by omega), if_neg (by omega)]

theorem minutes_seconds (hpos : 0 < durationMinutes) (hmax : durationMinutes ≤ 153722867) :
    (minutes durationMinutes).tdiv 1000000000 = durationMinutes * 60 := by
  have hbmod : minutes durationMinutes = durationMinutes * 60000000000 := by
    unfold minutes
    exact Int.bmod_eq_of_le (by omega) (by omega)
  rw [hbmod, Int.tdiv_eq_ediv_of_nonneg (by omega)]
  omega

/-- The seconds between two times are cut off. -/
theorem elapsed_lt_iff {now oldTime duration : Int} (hle : oldTime ≤ now) :
    (now - oldTime).tdiv 1000 < duration ↔ now - oldTime < 1000 * duration := by
  rw [Int.tdiv_eq_ediv_of_nonneg (by omega)]
  omega

/-! ### What Redis knows -/

/-- **What the list knows of the successes.** -/
structure SuccessList.Knows (durationMinutes : Int) (successMaxCount : Nat) (now : Int)
    (log : List Int) (s : SuccessList) : Prop where
  remembers : Remembers (1000 * (durationMinutes * 60)) now log s.times.reverse
  length : s.times.length ≤ successMaxCount
  /-- The list expires when its times are too old to count. -/
  expires : ∀ t ∈ s.times, t + 1000 * (durationMinutes * 60) ≤ s.expiresAt
  bounded : Bounded (1000 * (durationMinutes * 60)) successMaxCount log

namespace SuccessList.Knows

variable {now : Int} {log : List Int} {s : SuccessList}

section

variable (h : s.Knows durationMinutes successMaxCount now log)
include h

theorem later {now' : Int} (hle : now ≤ now') : s.Knows durationMinutes successMaxCount now' log :=
  ⟨h.remembers.later hle, h.length, h.expires, h.bounded⟩

theorem live :
    Remembers (1000 * (durationMinutes * 60)) now log (s.live now).reverse ∧
      (s.live now).length ≤ successMaxCount := by
  unfold SuccessList.live
  split
  · rename_i hexpired
    refine ⟨?_, Nat.zero_le _⟩
    have hforget : Remembers (1000 * (durationMinutes * 60)) now log (s.times.reverse ++ []) := by
      rw [append_nil]
      exact h.remembers
    refine hforget.forget s.times.reverse fun t ht => ?_
    have := h.expires t (mem_reverse.1 ht)
    omega
  · exact ⟨h.remembers, h.length⟩

/-- **The check**: a request is refused exactly if the limit of the successes are recent. -/
theorem check (hpos : 0 < durationMinutes)
    (hmax : durationMinutes ≤ 153722867) (hlimit : 0 < successMaxCount) :
    (s.checkRedisRateLimit successMaxCount (rateLimitDurationSeconds durationMinutes)
        (minutes durationMinutes) now).1.Knows durationMinutes successMaxCount now log ∧
      ((s.checkRedisRateLimit successMaxCount (rateLimitDurationSeconds durationMinutes)
          (minutes durationMinutes) now).2 = false ↔
        successMaxCount ≤ (recent (1000 * (durationMinutes * 60)) now log).length) := by
  obtain ⟨hlive, hlength⟩ := h.live
  have hrecent := hlive.recent_length_le
  rw [length_reverse] at hrecent
  rw [rateLimitDurationSeconds_eq hpos hmax, checkRedisRateLimit, if_neg (by omega)]
  by_cases hlen : (s.live now).length < successMaxCount
  · rw [if_pos hlen]
    refine ⟨h, by simp only [Bool.true_eq_false, false_iff]; omega⟩
  rw [if_neg hlen]
  rcases hlast : (s.live now).getLast? with _ | oldTime
  · rw [getLast?_eq_none_iff.1 hlast] at hlen
    exact absurd hlimit hlen
  obtain ⟨init, hinit⟩ := getLast?_eq_some_iff.1 hlast
  rw [hinit, reverse_append, reverse_singleton, singleton_append] at hlive
  have hhead := hlive.head_recent
  rw [length_reverse] at hhead
  have hinitLength : init.length + 1 = successMaxCount := by
    rw [hinit, length_append, length_singleton] at hlen hlength
    omega
  have hpast : oldTime ≤ now := hlive.kept_past oldTime (by simp)
  dsimp only
  by_cases hfresh : (now - oldTime).tdiv 1000 < durationMinutes * 60
  · rw [if_pos hfresh]
    have hfresh' := hhead.1 ((elapsed_lt_iff hpast).1 hfresh)
    refine ⟨?_, by simp only [true_iff]; omega⟩
    unfold expire
    rw [minutes_seconds hpos hmax]
    dsimp only
    rw [if_neg (by omega)]
    refine ⟨h.live.1, h.live.2, fun t ht => ?_, h.bounded⟩
    have := h.live.1.kept_past t (mem_reverse.2 ht)
    dsimp only
    omega
  · rw [if_neg hfresh]
    have hold : ¬init.length < (recent (1000 * (durationMinutes * 60)) now log).length :=
      fun hlt => hfresh ((elapsed_lt_iff hpast).2 (hhead.2 hlt))
    refine ⟨h, by simp only [Bool.true_eq_false, false_iff]; omega⟩

/-- **The record** of a success, when fewer than the limit are recent. -/
theorem record (hpos : 0 < durationMinutes) (hmax : durationMinutes ≤ 153722867)
    (hroom : (recent (1000 * (durationMinutes * 60)) now log).length < successMaxCount) :
    (s.recordRedisRequest successMaxCount (minutes durationMinutes) now).Knows durationMinutes
      successMaxCount now (log ++ [now]) := by
  obtain ⟨hlive, hlength⟩ := h.live
  have happend := hlive.append
  unfold recordRedisRequest expire
  rw [if_neg (by omega), minutes_seconds hpos hmax]
  dsimp only
  rw [if_neg (by omega)]
  refine ⟨?_, ?_, fun t ht => ?_, h.bounded.append hroom⟩
  · dsimp only
    rcases Nat.lt_or_eq_of_le hlength with hlt | hfull
    · rw [take_of_length_le (by rw [length_cons]; omega), reverse_cons]
      exact happend
    · -- the oldest time is dropped, and it is not recent
      rcases eq_nil_or_concat (s.live now) with hnil | ⟨init, oldTime, hinit⟩
      · rw [hnil] at hfull
        rw [← hfull] at hroom
        exact absurd hroom (Nat.not_lt_zero _)
      · rw [concat_eq_append] at hinit
        rw [hinit] at hfull hlive happend ⊢
        rw [reverse_append, reverse_singleton, singleton_append] at hlive happend
        have hhead := hlive.head_recent
        rw [length_reverse] at hhead
        rw [length_append, length_singleton] at hfull
        have htake : (now :: (init ++ [oldTime])).take successMaxCount = now :: init := by
          rw [← cons_append, take_left' (by simpa using hfull)]
        have hold : ¬init.length < (recent (1000 * (durationMinutes * 60)) now log).length := by
          omega
        rw [htake, reverse_cons]
        refine happend.forget [oldTime] fun t ht => ?_
        rw [mem_singleton.1 ht]
        have := fun hlt => hold (hhead.1 hlt)
        omega
  · exact length_take_le ..
  · have hmem := mem_of_mem_take ht
    have hle : t ≤ now := by
      rcases mem_cons.1 hmem with rfl | hold
      · exact Int.le_refl t
      · exact hlive.kept_past t (mem_reverse.2 hold)
    dsimp only
    omega

/-- **One request.** -/
theorem handle (hpos : 0 < durationMinutes)
    (hmax : durationMinutes ≤ 153722867) (hlimit : 0 < successMaxCount) {r : ModelRequest}
    (hstart : now ≤ r.start) (hfinish : r.start ≤ r.finish) :
    (s.redisRateLimitHandler durationMinutes successMaxCount r).1.Knows durationMinutes
        successMaxCount r.finish
        (if ((s.redisRateLimitHandler durationMinutes successMaxCount r).2 && r.succeeds) = true then
          log ++ [r.finish] else log) ∧
      ((s.redisRateLimitHandler durationMinutes successMaxCount r).2 = false ↔
        successMaxCount ≤ (recent (1000 * (durationMinutes * 60)) r.start log).length) := by
  obtain ⟨hcheck, hrefused⟩ := (h.later hstart).check hpos hmax hlimit
  unfold redisRateLimitHandler
  generalize s.checkRedisRateLimit successMaxCount (rateLimitDurationSeconds durationMinutes)
    (minutes durationMinutes) r.start = checked at hcheck hrefused ⊢
  obtain ⟨s', allowed⟩ := checked
  dsimp only at hcheck hrefused ⊢
  by_cases hsuccess : (allowed && r.succeeds) = true
  · simp only [hsuccess, if_true]
    have hallowed : allowed = true := by
      rw [Bool.and_eq_true] at hsuccess
      exact hsuccess.1
    have hroom : ¬successMaxCount ≤
        (recent (1000 * (durationMinutes * 60)) r.start log).length := by
      rw [← hrefused, hallowed]
      simp
    have hlater := recent_length_anti (1000 * (durationMinutes * 60)) log hfinish
    exact ⟨(hcheck.later hfinish).record hpos hmax (by omega), hrefused⟩
  · simp only [Bool.not_eq_true] at hsuccess
    simp only [hsuccess, Bool.false_eq_true, if_false]
    exact ⟨hcheck.later hfinish, hrefused⟩

end

end SuccessList.Knows

/-! ### What the memory knows -/

namespace InMemoryRateLimiter

variable {l : InMemoryRateLimiter} {key : String}

/-- There are no empty queues. -/
def Filled (l : InMemoryRateLimiter) : Prop := ∀ key, l.store key ≠ some []

theorem Filled.set (h : l.Filled) (key : String) {queue : List Int} (hne : queue ≠ []) :
    (l.set key queue).Filled := by
  intro key'
  unfold InMemoryRateLimiter.set
  by_cases hk : key' = key
  · subst hk
    simpa using hne
  · simpa [Function.update_of_ne hk] using h key'

theorem Filled.request (h : l.Filled) (key : String) (maxRequestNum duration now : Int) :
    (l.request key maxRequestNum duration now).1.Filled := by
  unfold InMemoryRateLimiter.request
  split
  · split
    · exact h.set key (by simp)
    · split
      · exact h
      · split
        · exact h.set key (by simp)
        · exact h
  · split
    · exact h
    · exact h.set key (by simp)

theorem Filled.clearExpiredItems (h : l.Filled) (now : Int) : (l.clearExpiredItems now).Filled := by
  intro key
  unfold InMemoryRateLimiter.clearExpiredItems
  split
  · intro hnil
    exact h key (Option.filter_eq_some_iff.1 hnil).1
  · exact h key

theorem request_zero (h : l.Filled) (key : String) (duration now : Int) (n : Nat) :
    l.request key n duration now = l.request key ((max 1 n : Nat) : Int) duration now := by
  rcases Nat.eq_zero_or_pos n with rfl | hpos
  · unfold request
    cases hq : l.store key with
    | none => rfl
    | some queue =>
      have hne : 0 < queue.length := length_pos_iff.2 fun hnil => h key (hnil ▸ hq)
      dsimp only
      rw [if_neg (by omega), if_neg (by omega)]
  · rw [Nat.max_eq_right hpos]

end InMemoryRateLimiter

theorem successKey_ne (userId : Int) : checkKey userId ≠ successKey userId := by
  intro h
  have hlen := congrArg String.length h
  simp [checkKey, String.length_append] at hlen

/-- **What the memory knows of the requests that have been handled.** -/
structure Counts (durationMinutes : Int) (successMaxCount : Nat) (userId expirationDuration : Int)
    (now : Int) (handled : List Int) (l : InMemoryRateLimiter) : Prop where
  filled : l.Filled
  knows : InMemoryRateLimiter.Knows
    (fun _ => (((max 1 successMaxCount : Nat) : Int), durationMinutes * 60)) (checkKey userId)
    expirationDuration now handled l

namespace Counts

variable {userId expirationDuration now : Int} {handled : List Int} {l : InMemoryRateLimiter}

theorem later (h : Counts durationMinutes successMaxCount userId expirationDuration now handled l)
    {now' : Int} (hle : now ≤ now') :
    Counts durationMinutes successMaxCount userId expirationDuration now' handled l :=
  ⟨h.filled, h.knows.expiration, h.knows.remembers.later hle, h.knows.length, h.knows.bounded⟩

/-- The durations that the sweep keeps. -/
theorem keepable (hkeep : expirationDuration ≤ 0 ∨
      durationMinutes * 60 ≤
        (InMemoryRateLimiter.init expirationDuration).expirationSeconds + 1) :
    InMemoryRateLimiter.Keepable expirationDuration ((max 1 successMaxCount : Nat) : Int)
      (durationMinutes * 60) :=
  ⟨by omega, hkeep⟩

section

variable (h : Counts durationMinutes successMaxCount userId expirationDuration now handled l)
include h

theorem sweep (hkeep : expirationDuration ≤ 0 ∨
      durationMinutes * 60 ≤
        (InMemoryRateLimiter.init expirationDuration).expirationSeconds + 1) :
    Counts durationMinutes successMaxCount userId expirationDuration now handled
      (l.clearExpiredItems now) := by
  have hstep := h.knows.step (keepable hkeep) .sweep
  have hnone : InMemoryRateLimiter.admits
      (fun _ => (((max 1 successMaxCount : Nat) : Int), durationMinutes * 60)) (checkKey userId) l
      (now, .sweep) = [] := if_neg (by simp)
  rw [hnone, append_nil] at hstep
  exact ⟨h.filled.clearExpiredItems now, hstep⟩

/-- **One request.** -/
theorem handle (hpos : 0 < durationMinutes) (hmax : durationMinutes ≤ 153722867)
    (hkeep : expirationDuration ≤ 0 ∨
      durationMinutes * 60 ≤
        (InMemoryRateLimiter.init expirationDuration).expirationSeconds + 1)
    {r : ModelRequest} (hstart : now ≤ unix r.start) (hfinish : r.start ≤ r.finish) :
    Counts durationMinutes successMaxCount userId expirationDuration (unix r.finish)
        (if (l.memoryRateLimitHandler durationMinutes successMaxCount userId r).2 = true then
          handled ++ [unix r.start] else handled)
        (l.memoryRateLimitHandler durationMinutes successMaxCount userId r).1 ∧
      ((l.memoryRateLimitHandler durationMinutes successMaxCount userId r).2 = false ↔
        max 1 successMaxCount ≤
          (recent (durationMinutes * 60) (unix r.start) handled).length) := by
  have hunix : unix r.start ≤ unix r.finish := by
    unfold unix
    omega
  have hlimit : (0 : Int) < ((max 1 successMaxCount : Nat) : Int) := by omega
  have hlater := h.later hstart
  have hstep := hlater.knows.request hlimit
  have hanswer := hlater.knows.answer hlimit
  unfold InMemoryRateLimiter.memoryRateLimitHandler
  rw [rateLimitDurationSeconds_eq hpos hmax]
  simp only [InMemoryRateLimiter.request_zero h.filled (checkKey userId) (durationMinutes * 60)
    (unix r.start) successMaxCount]
  have hfilled := h.filled.request (checkKey userId) ((max 1 successMaxCount : Nat) : Int)
    (durationMinutes * 60) (unix r.start)
  simp only [InMemoryRateLimiter.step, InMemoryRateLimiter.admits, true_and] at hstep hanswer
  generalize l.request (checkKey userId) ((max 1 successMaxCount : Nat) : Int)
    (durationMinutes * 60) (unix r.start) = checked at hstep hanswer hfilled ⊢
  obtain ⟨l', answer⟩ := checked
  dsimp only at hstep hanswer hfilled
  subst hanswer
  by_cases hroom : ((recent (durationMinutes * 60) (unix r.start) handled).length : Int) <
      ((max 1 successMaxCount : Nat) : Int)
  · rw [decide_eq_true hroom, if_pos rfl] at hstep
    simp only [decide_eq_true hroom]
    have hcounts : Counts durationMinutes successMaxCount userId expirationDuration
        (unix r.finish) (handled ++ [unix r.start]) l' :=
      Counts.later ⟨hfilled, hstep⟩ hunix
    by_cases hsuccess : r.succeeds = true
    · simp only [hsuccess, if_true]
      refine ⟨?_, by simp only [if_true, Bool.true_eq_false, false_iff]; omega⟩
      -- the success is recorded under a key that nothing reads
      have hqueue := InMemoryRateLimiter.request_queue_of_ne l' (successKey_ne userId)
        successMaxCount (durationMinutes * 60) (unix r.finish)
      refine ⟨hfilled.request _ _ _ _, ?_, ?_, ?_, hcounts.knows.bounded⟩
      · exact (InMemoryRateLimiter.request_expirationDuration ..).trans hcounts.knows.expiration
      · exact hqueue ▸ hcounts.knows.remembers
      · exact hqueue ▸ hcounts.knows.length
    · simp only [Bool.not_eq_true] at hsuccess
      simp only [hsuccess, Bool.false_eq_true, if_false, if_true]
      exact ⟨hcounts, by simp only [Bool.true_eq_false, false_iff]; omega⟩
  · rw [decide_eq_false hroom, if_neg (by simp), append_nil] at hstep
    simp only [decide_eq_false hroom, Bool.false_eq_true, if_false]
    exact ⟨Counts.later ⟨hfilled, hstep⟩ hunix, by simp only [true_iff]; omega⟩

end

end Counts

/-! ### Runs with Redis -/

/-- Without a limit a request is admitted. -/
theorem redis_admits (s : SuccessList) (r : ModelRequest) :
    (s.redisRateLimitHandler durationMinutes 0 r).2 = true := by
  unfold SuccessList.redisRateLimitHandler
  simp only [SuccessList.checkRedisRateLimit, if_true]
  split <;> rfl

theorem redis_handle {now : Int} {succeeded : List Int} {s : SuccessList}
    (hs : 0 < successMaxCount → s.Knows durationMinutes successMaxCount now succeeded)
    (hpos : 0 < durationMinutes) (hmax : durationMinutes ≤ 153722867) {r : ModelRequest}
    (hstart : now ≤ r.start) (hfinish : r.start ≤ r.finish) :
    (0 < successMaxCount →
      (s.redisRateLimitHandler durationMinutes successMaxCount r).1.Knows durationMinutes
        successMaxCount r.finish
        (if ((s.redisRateLimitHandler durationMinutes successMaxCount r).2 && r.succeeds) = true then
          succeeded ++ [r.finish] else succeeded)) ∧
      ((s.redisRateLimitHandler durationMinutes successMaxCount r).2 = false ↔
        0 < successMaxCount ∧
          successMaxCount ≤ (recent (1000 * (durationMinutes * 60)) r.start succeeded).length) := by
  rcases Nat.eq_zero_or_pos successMaxCount with rfl | hlimit
  · refine ⟨fun h => absurd h (Nat.lt_irrefl 0), ?_⟩
    rw [redis_admits]
    simp
  · obtain ⟨hknows, hrefused⟩ := (hs hlimit).handle hpos hmax hlimit hstart hfinish
    exact ⟨fun _ => hknows, by rw [hrefused]; simp only [hlimit, true_and]⟩

theorem successes_cons (a : ModelRequest × Bool) (answers : List (ModelRequest × Bool)) :
    successes (a :: answers) =
      (if (a.2 && a.1.succeeds) = true then [a.1.finish] else []) ++ successes answers := by
  unfold successes
  by_cases ha : (a.2 && a.1.succeeds) = true
  · rw [filter_cons_of_pos (by simpa using ha), if_pos ha]
    rfl
  · rw [filter_cons_of_neg (by simpa using ha), if_neg ha]
    rfl

/-- The answers after successes that are known. -/
theorem redis_run (hpos : 0 < durationMinutes) (hmax : durationMinutes ≤ 153722867)
    (hlimit : 0 < successMaxCount) (calls : List ModelCall) {now : Int} {succeeded : List Int}
    {s : SuccessList} (hs : s.Knows durationMinutes successMaxCount now succeeded)
    (hcalls : InSequence now calls) :
    Bounded (1000 * (durationMinutes * 60)) successMaxCount
        (succeeded ++ successes (redisAnswers durationMinutes successMaxCount s calls)) ∧
      ∀ before r rest,
        redisAnswers durationMinutes successMaxCount s calls = before ++ (r, false) :: rest →
          successMaxCount ≤ (recent (1000 * (durationMinutes * 60)) r.start
            (succeeded ++ successes before)).length := by
  induction calls generalizing now succeeded s with
  | nil =>
    refine ⟨?_, fun before r rest heq => ?_⟩
    · simpa [redisAnswers, successes] using hs.bounded
    · simp [redisAnswers] at heq
  | cons call calls ih =>
    cases call with
    | sweep time => exact ih (hs.later hcalls.1) hcalls.2
    | request r =>
      obtain ⟨hstart, hfinish, hrest⟩ := hcalls
      obtain ⟨hknows, hrefused⟩ := hs.handle hpos hmax hlimit hstart hfinish
      obtain ⟨hbounded, hrefusal⟩ := ih hknows hrest
      simp only [redisAnswers]
      generalize s.redisRateLimitHandler durationMinutes successMaxCount r = handled
        at hrefused hbounded hrefusal ⊢
      obtain ⟨s', admitted⟩ := handled
      dsimp only at hrefused hbounded hrefusal ⊢
      -- the log grows by the success of this request
      have hgrow : ∀ answers, succeeded ++ successes ((r, admitted) :: answers) =
          (if (admitted && r.succeeds) = true then succeeded ++ [r.finish] else succeeded) ++
            successes answers := by
        intro answers
        rw [successes_cons]
        split
        · rw [append_assoc]
        · rfl
      refine ⟨by rw [hgrow]; exact hbounded, fun before r' rest heq => ?_⟩
      cases before with
      | nil =>
        obtain ⟨hhead, -⟩ := List.cons.inj heq
        obtain ⟨rfl, hfalse⟩ := Prod.mk.inj hhead
        simpa [successes] using hrefused.1 hfalse
      | cons a before =>
        obtain ⟨rfl, htail⟩ := List.cons.inj heq
        rw [hgrow]
        exact hrefusal before r' rest htail

/-- A list of a user who has no successes. -/
theorem SuccessList.knows_empty (durationMinutes : Int) (successMaxCount : Nat) (now : Int) :
    ({} : SuccessList).Knows durationMinutes successMaxCount now [] :=
  ⟨Remembers.nil _ _, Nat.zero_le _, nofun, Bounded.nil _ _⟩

/-- Without a limit every request is admitted. -/
theorem redis_unlimited (s : SuccessList) (calls : List ModelCall) :
    ∀ a ∈ redisAnswers durationMinutes 0 s calls, a.2 = true := by
  induction calls generalizing s with
  | nil => nofun
  | cons call calls ih =>
    cases call with
    | sweep time => exact ih s
    | request r =>
      intro a ha
      rw [redisAnswers] at ha
      rcases mem_cons.1 ha with heq | ha
      · rw [heq]
        exact redis_admits s r
      · exact ih _ a ha

/-- **With Redis the limit keeps its promise** for requests one after the other. -/
theorem redis_lawful (hpos : 0 < durationMinutes) (hmax : durationMinutes ≤ 153722867)
    (calls : List ModelCall) {now : Int} (hcalls : InSequence now calls) :
    SuccessLaw (durationMinutes * 60) successMaxCount
      (redisAnswers durationMinutes successMaxCount {} calls) := by
  rcases Nat.eq_zero_or_pos successMaxCount with rfl | hlimit
  · exact ⟨fun h => absurd h (Nat.lt_irrefl 0), fun _ _ _ _ => Nat.zero_le _,
      fun _ => redis_unlimited {} calls⟩
  · obtain ⟨hbounded, hrefusal⟩ := redis_run hpos hmax hlimit calls
      (SuccessList.knows_empty durationMinutes successMaxCount now) hcalls
    exact ⟨fun _ => hbounded, hrefusal, fun hzero => absurd hzero (Nat.pos_iff_ne_zero.1 hlimit)⟩

/-! ### Both handlers -/

/-- Both answer alike exactly while both are on the same side of the limit. -/
theorem answers_eq_iff {userId expirationDuration : Int} (hpos : 0 < durationMinutes)
    (hmax : durationMinutes ≤ 153722867)
    (hkeep : expirationDuration ≤ 0 ∨
      durationMinutes * 60 ≤
        (InMemoryRateLimiter.init expirationDuration).expirationSeconds + 1)
    (calls : List ModelCall) {now : Int} {handled succeeded : List Int} {s : SuccessList}
    {l : InMemoryRateLimiter}
    (hs : 0 < successMaxCount → s.Knows durationMinutes successMaxCount now succeeded)
    (hl : Counts durationMinutes successMaxCount userId expirationDuration (unix now) handled l)
    (hcalls : InSequence now calls) :
    redisAnswers durationMinutes successMaxCount s calls =
        memoryAnswers durationMinutes successMaxCount userId l calls ↔
      SameSide (durationMinutes * 60) successMaxCount handled succeeded calls := by
  induction calls generalizing now handled succeeded s l with
  | nil => simp [redisAnswers, memoryAnswers, SameSide]
  | cons call calls ih =>
    cases call with
    | sweep time =>
      have hunix : unix now ≤ unix time := by
        have := hcalls.1
        unfold unix
        omega
      exact ih (fun hlimit => (hs hlimit).later hcalls.1) ((hl.later hunix).sweep hkeep) hcalls.2
    | request r =>
      obtain ⟨hstart, hfinish, hrest⟩ := hcalls
      have hunix : unix now ≤ unix r.start := by
        unfold unix
        omega
      obtain ⟨hknows, hredis⟩ := redis_handle hs hpos hmax hstart hfinish
      obtain ⟨hcounts, hmemory⟩ := hl.handle hpos hmax hkeep hunix hfinish
      have htail := ih hknows hcounts hrest
      simp only [redisAnswers, memoryAnswers, SameSide]
      generalize s.redisRateLimitHandler durationMinutes successMaxCount r = checked
        at hredis htail ⊢
      generalize l.memoryRateLimitHandler durationMinutes successMaxCount userId r = counted
        at hmemory htail ⊢
      obtain ⟨s', admitted⟩ := checked
      obtain ⟨l', admitted'⟩ := counted
      dsimp only at hredis hmemory htail ⊢
      simp only [List.cons.injEq, Prod.mk.injEq, ← hmemory, ← hredis, true_and]
      by_cases hsame : admitted = admitted'
      · subst hsame
        cases admitted with
        | false | true => simpa using htail
      · refine ⟨fun h => absurd h.1 hsame, fun h => absurd ?_ hsame⟩
        have := h.1
        cases admitted <;> cases admitted' <;> simp_all

/-- **The two handlers admit the same requests, and the limit keeps its promise for both**, exactly
if at every request both are on the same side of the limit. -/
theorem sameAnswers_iff (durationMinutes : Int) (successMaxCount : Nat)
    (userId expirationDuration now : Int) (calls : List ModelCall) (hpos : 0 < durationMinutes)
    (hmax : durationMinutes ≤ 153722867)
    (hkeep : expirationDuration ≤ 0 ∨
      durationMinutes * 60 ≤
        (InMemoryRateLimiter.init expirationDuration).expirationSeconds + 1)
    (hcalls : InSequence now calls) :
    (redisAnswers durationMinutes successMaxCount {} calls =
        memoryAnswers durationMinutes successMaxCount userId
          (InMemoryRateLimiter.init expirationDuration) calls ∧
      SuccessLaw (durationMinutes * 60) successMaxCount
        (redisAnswers durationMinutes successMaxCount {} calls) ∧
      SuccessLaw (durationMinutes * 60) successMaxCount
        (memoryAnswers durationMinutes successMaxCount userId
          (InMemoryRateLimiter.init expirationDuration) calls)) ↔
      SameSide (durationMinutes * 60) successMaxCount [] [] calls := by
  have hcounts : Counts durationMinutes successMaxCount userId expirationDuration (unix now) []
      (InMemoryRateLimiter.init expirationDuration) := by
    refine ⟨nofun, rfl, Remembers.nil _ _, ?_, Bounded.nil _ _⟩
    simp only [InMemoryRateLimiter.queue, InMemoryRateLimiter.init, Option.getD_none,
      List.length_nil]
    omega
  have hiff := answers_eq_iff hpos hmax hkeep calls
    (fun _ => SuccessList.knows_empty durationMinutes successMaxCount now) hcounts hcalls
  have hlaw : SuccessLaw (durationMinutes * 60) successMaxCount
      (redisAnswers durationMinutes successMaxCount {} calls) := redis_lawful hpos hmax calls hcalls
  rw [← hiff]
  exact ⟨fun h => h.1, fun heq => ⟨heq, hlaw, heq ▸ hlaw⟩⟩

/-- Two successes in a minute with a limit of one a minute. -/
theorem sameAnswers_twoSuccesses :
    redisAnswers 1 1 {} [.request ⟨0, 1000, true⟩, .request ⟨2000, 3000, true⟩] =
        memoryAnswers 1 1 7 (InMemoryRateLimiter.init 60000000000)
          [.request ⟨0, 1000, true⟩, .request ⟨2000, 3000, true⟩] ∧
      SuccessLaw 60 1 (redisAnswers 1 1 {} [.request ⟨0, 1000, true⟩, .request ⟨2000, 3000, true⟩]) ∧
      SuccessLaw 60 1 (memoryAnswers 1 1 7 (InMemoryRateLimiter.init 60000000000)
        [.request ⟨0, 1000, true⟩, .request ⟨2000, 3000, true⟩]) :=
  (sameAnswers_iff 1 1 7 60000000000 0 [.request ⟨0, 1000, true⟩, .request ⟨2000, 3000, true⟩]
    (by decide) (by decide) (.inr (by decide)) (by simp [InSequence])).2
    ⟨by decide, by decide, trivial⟩

/-- A request that fails uses up the limit in memory. -/
theorem failedFirst_differs :
    InSequence 0 [.request ⟨0, 1000, false⟩, .request ⟨2000, 3000, true⟩] ∧
      redisAnswers 1 1 {} [.request ⟨0, 1000, false⟩, .request ⟨2000, 3000, true⟩] ≠
        memoryAnswers 1 1 7 (InMemoryRateLimiter.init 60000000000)
          [.request ⟨0, 1000, false⟩, .request ⟨2000, 3000, true⟩] :=
  ⟨by simp [InSequence], by decide⟩

end NexusTok
