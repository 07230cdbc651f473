import Mathlib.Data.List.Induction
import Mathlib.Logic.Function.Basic
import NexusTok.Limit.Window

/-!
# The in-memory rate limiter

`InMemoryRateLimiter` keeps the times of the last admitted requests of each key.  A background sweep
drops the keys that have been idle for longer than the expiration of the first `Init`.

* `RateCall`, `step`, `after`, `admitted` : interleavings of requests and sweeps.
* `Law` : at most `maxRequestNum` admissions in any interval of `duration` seconds, and no refusal
  without `maxRequestNum` admissions in the last `duration` seconds.
* `law_iff` : the limits and durations for which the law holds of every run.
-/

namespace NexusTok

open Window List

/-- `InMemoryRateLimiter`.  The queues are in the order of the requests. -/
structure InMemoryRateLimiter where
  store : String → Option (List Int) := fun _ => none
  /-- In nanoseconds. -/
  expirationDuration : Int

namespace InMemoryRateLimiter

variable (l : InMemoryRateLimiter)

/-- `Init`, the first time. -/
def init (expirationDuration : Int) : InMemoryRateLimiter :=
  { expirationDuration := expirationDuration }

/-- `int64(l.expirationDuration.Seconds())`. -/
def expirationSeconds : Int := l.expirationDuration.tdiv 1000000000

/-- A queue in the store. -/
def set (key : String) (queue : List Int) : InMemoryRateLimiter :=
  { l with store := Function.update l.store key (some queue) }

/-- A queue that the sweep drops. -/
def idle (now : Int) (queue : List Int) : Bool :=
  match queue.getLast? with
  | none => true
  | some last => l.expirationSeconds < now - last

/-- One round of `clearExpiredItems`, which `Init` only starts with an expiration. -/
def clearExpiredItems (now : Int) : InMemoryRateLimiter :=
  if 0 < l.expirationDuration then
    { l with store := fun key => (l.store key).filter fun queue => !l.idle now queue }
  else l

/-- `Request`; `none` is a panic. -/
def request (key : String) (maxRequestNum duration now : Int) :
    InMemoryRateLimiter × Option Bool :=
  match l.store key with
  | some queue =>
    if (queue.length : Int) < maxRequestNum then (l.set key (queue ++ [now]), some true)
    else
      match queue with
      | [] => (l, none)
      | oldest :: rest =>
        if duration ≤ now - oldest then (l.set key (rest ++ [now]), some true)
        else (l, some false)
  | none =>
    -- `make` panics for a negative capacity
    if maxRequestNum < 0 then (l, none) else (l.set key [now], some true)

end InMemoryRateLimiter

/-- What happens at a time. -/
inductive RateCall
  | request (key : String)
  | sweep
deriving DecidableEq, Repr

namespace InMemoryRateLimiter

variable (limits : String → Int × Int)

/-- One call, with the limit and the duration of its key. -/
def step (l : InMemoryRateLimiter) (call : Int × RateCall) : InMemoryRateLimiter × Option Bool :=
  match call with
  | (now, .request key) => l.request key (limits key).1 (limits key).2 now
  | (now, .sweep) => (l.clearExpiredItems now, none)

def after (l : InMemoryRateLimiter) (calls : List (Int × RateCall)) : InMemoryRateLimiter :=
  calls.foldl (fun l call => (step limits l call).1) l

/-- The time of a call that admits a request of the key. -/
def admits (key : String) (l : InMemoryRateLimiter) (call : Int × RateCall) : List Int :=
  if call.2 = .request key ∧ (step limits l call).2 = some true then [call.1] else []

/-- The times at which requests of a key are admitted. -/
def admitted (key : String) : InMemoryRateLimiter → List (Int × RateCall) → List Int
  | _, [] => []
  | l, call :: calls => admits limits key l call ++ admitted key (step limits l call).1 calls

/-- **The law of a key in a run.** -/
structure Law (key : String) (l : InMemoryRateLimiter) (calls : List (Int × RateCall)) : Prop where
  /-- At most `maxRequestNum` requests are admitted in `duration` seconds. -/
  window : ∀ w, ((within (limits key).2 w (admitted limits key l calls)).length : Int) ≤
    (limits key).1
  /-- A request is refused only if `maxRequestNum` were admitted in the last `duration` seconds. -/
  refusal : ∀ before now rest, calls = before ++ (now, .request key) :: rest →
    (step limits (after limits l before) (now, .request key)).2 = some false →
      (limits key).1 ≤ (recent (limits key).2 now (admitted limits key l before)).length

variable {limits : String → Int × Int} {key : String}

/-! ### Runs -/

theorem after_append (l : InMemoryRateLimiter) (calls calls' : List (Int × RateCall)) :
    after limits l (calls ++ calls') = after limits (after limits l calls) calls' :=
  foldl_append ..

theorem admitted_append (l : InMemoryRateLimiter) (calls calls' : List (Int × RateCall)) :
    admitted limits key l (calls ++ calls') =
      admitted limits key l calls ++ admitted limits key (after limits l calls) calls' := by
  induction calls generalizing l with
  | nil => rfl
  | cons call calls ih => simp only [cons_append, admitted, ih, append_assoc, after,
      foldl_cons]

theorem admitted_snoc (l : InMemoryRateLimiter) (calls : List (Int × RateCall))
    (call : Int × RateCall) :
    admitted limits key l (calls ++ [call]) =
      admitted limits key l calls ++ admits limits key (after limits l calls) call := by
  rw [admitted_append]
  simp [admitted]

theorem after_snoc (l : InMemoryRateLimiter) (calls : List (Int × RateCall))
    (call : Int × RateCall) :
    after limits l (calls ++ [call]) = (step limits (after limits l calls) call).1 := by
  rw [after_append]
  rfl

/-! ### Queues -/

/-- The queue of a key, empty if there is none. -/
def queue (l : InMemoryRateLimiter) (key : String) : List Int := (l.store key).getD []

@[simp] theorem set_queue (l : InMemoryRateLimiter) (key key' : String) (q : List Int) :
    (l.set key q).queue key' = if key' = key then q else l.queue key' := by
  unfold set queue
  by_cases hk : key' = key
  · simp [hk]
  · simp [Function.update_of_ne hk, hk]

theorem request_queue_of_ne (l : InMemoryRateLimiter) {key key' : String} (hne : key' ≠ key)
    (maxRequestNum duration now : Int) :
    (l.request key maxRequestNum duration now).1.queue key' = l.queue key' := by
  unfold request
  split
  · split
    · simp [hne]
    · split
      · rfl
      · split
        · simp [hne]
        · rfl
  · split
    · rfl
    · simp [hne]

/-- **What a request does**, by the queue of its key. -/
theorem request_cases (l : InMemoryRateLimiter) (key : String) {maxRequestNum : Int}
    (hmax : 0 < maxRequestNum) (duration now : Int) :
    (((l.queue key).length : Int) < maxRequestNum ∧
      (l.request key maxRequestNum duration now).2 = some true ∧
        (l.request key maxRequestNum duration now).1.queue key = l.queue key ++ [now]) ∨
    ∃ oldest rest, l.queue key = oldest :: rest ∧ maxRequestNum ≤ (rest.length : Int) + 1 ∧
      (duration ≤ now - oldest ∧ (l.request key maxRequestNum duration now).2 = some true ∧
          (l.request key maxRequestNum duration now).1.queue key = rest ++ [now] ∨
        now - oldest < duration ∧ (l.request key maxRequestNum duration now).2 = some false ∧
          (l.request key maxRequestNum duration now).1 = l) := by
  unfold request
  cases hq : l.store key with
  | none =>
    have hempty : l.queue key = [] := by simp [queue, hq]
    dsimp only
    rw [if_neg (by omega), hempty]
    exact .inl ⟨by simpa using hmax, rfl, by simp⟩
  | some q =>
    have heq : l.queue key = q := by simp [queue, hq]
    dsimp only
    rw [heq]
    by_cases hlen : (q.length : Int) < maxRequestNum
    · rw [if_pos hlen]
      exact .inl ⟨hlen, rfl, by simp⟩
    · rw [if_neg hlen]
      cases q with
      | nil => exact absurd hmax (by simpa using hlen)
      | cons oldest rest =>
        refine .inr ⟨oldest, rest, rfl, ?_, ?_⟩
        · simp only [length_cons] at hlen
          push_cast at hlen
          omega
        · dsimp only
          by_cases hold : duration ≤ now - oldest
          · rw [if_pos hold]
            exact .inl ⟨hold, rfl, by simp⟩
          · rw [if_neg hold]
            exact .inr ⟨by omega, rfl, rfl⟩

/-- A sweep leaves the queue of a key or drops it because it has been idle. -/
theorem clearExpiredItems_cases (l : InMemoryRateLimiter) (key : String) (now : Int) :
    (l.clearExpiredItems now).queue key = l.queue key ∨
    (l.clearExpiredItems now).queue key = [] ∧ 0 < l.expirationDuration ∧
      ∃ last, (l.queue key).getLast? = some last ∧ l.expirationSeconds < now - last := by
  unfold clearExpiredItems
  split
  · rename_i hpos
    unfold queue
    dsimp only
    cases hq : l.store key with
    | none => exact .inl rfl
    | some q =>
      by_cases hidle : l.idle now q = true
      · cases hlast : q.getLast? with
        | none =>
          rw [getLast?_eq_none_iff.1 hlast]
          refine .inl ?_
          rw [Option.filter]
          split <;> rfl
        | some last =>
          refine .inr ⟨by simp [Option.filter, hidle], hpos, last, hlast, ?_⟩
          simpa [idle, hlast] using hidle
      · exact .inl (by simp [Option.filter, hidle])
  · exact .inl rfl

/-! ### The law -/

/-- The limit and the duration of a key are within what the limiter can keep: the limit is positive,
and a queue that the sweep drops has no time of the last `duration` seconds. -/
def Keepable (expirationDuration maxRequestNum duration : Int) : Prop :=
  0 < maxRequestNum ∧
    (expirationDuration ≤ 0 ∨ duration ≤ (init expirationDuration).expirationSeconds + 1)

/-- **What the limiter knows of a key**: the times at which its requests have been admitted. -/
structure Knows (limits : String → Int × Int) (key : String) (expirationDuration now : Int)
    (log : List Int) (l : InMemoryRateLimiter) : Prop where
  expiration : l.expirationDuration = expirationDuration
  remembers : Remembers (limits key).2 now log (l.queue key)
  length : ((l.queue key).length : Int) ≤ (limits key).1
  bounded : Bounded (limits key).2 (limits key).1.toNat log

variable {expirationDuration : Int}

theorem request_expirationDuration (l : InMemoryRateLimiter) (key : String)
    (maxRequestNum duration now : Int) :
    (l.request key maxRequestNum duration now).1.expirationDuration = l.expirationDuration := by
  unfold request
  split
  · split
    · rfl
    · split
      · rfl
      · split <;> rfl
  · split <;> rfl

/-- **A request is admitted exactly while fewer than the limit are recent.** -/
theorem Knows.answer {now : Int} {log : List Int} {l : InMemoryRateLimiter}
    (h : Knows limits key expirationDuration now log l) (hmax : 0 < (limits key).1) :
    (step limits l (now, .request key)).2 =
      some (decide (((recent (limits key).2 now log).length : Int) < (limits key).1)) := by
  rcases request_cases l key hmax (limits key).2 now with
    ⟨hlen, hanswer, -⟩ | ⟨oldest, rest, hq, hlen, hcase⟩
  · have hrecent := h.remembers.recent_length_le
    refine Eq.trans hanswer (congrArg some (decide_eq_true ?_).symm)
    omega
  · have hremembers := h.remembers
    have hlength := h.length
    rw [hq] at hremembers hlength
    have hhead := hremembers.head_recent
    simp only [length_cons] at hlength
    push_cast at hlength
    rcases hcase with ⟨hold, hanswer, -⟩ | ⟨hfresh, hanswer, -⟩
    · -- the oldest time makes room
      have hnot : ¬rest.length < (recent (limits key).2 now log).length := fun hlt => by
        have := hhead.2 hlt
        omega
      refine Eq.trans hanswer (congrArg some (decide_eq_true ?_).symm)
      omega
    · have hlt := hhead.1 hfresh
      refine Eq.trans hanswer (congrArg some (decide_eq_false ?_).symm)
      omega

theorem Knows.request {now : Int} {log : List Int} {l : InMemoryRateLimiter}
    (h : Knows limits key expirationDuration now log l) (hmax : 0 < (limits key).1) :
    Knows limits key expirationDuration now (log ++ admits limits key l (now, .request key))
      (step limits l (now, .request key)).1 := by
  have hanswer := h.answer hmax
  have hexp : (step limits l (now, .request key)).1.expirationDuration = expirationDuration :=
    (request_expirationDuration l key _ _ now).trans h.expiration
  by_cases hroom : ((recent (limits key).2 now log).length : Int) < (limits key).1
  · have hlog : admits limits key l (now, .request key) = [now] := by
      refine if_pos ⟨rfl, hanswer.trans ?_⟩
      rw [decide_eq_true hroom]
    have hbounded : Bounded (limits key).2 (limits key).1.toNat (log ++ [now]) :=
      h.bounded.append (by omega)
    rw [hlog]
    rcases request_cases l key hmax (limits key).2 now with
      ⟨hlen, -, hqueue⟩ | ⟨oldest, rest, hq, hlen, ⟨hold, -, hqueue⟩ | ⟨hfresh, hrefused, -⟩⟩
    · have hqueue' : (step limits l (now, .request key)).1.queue key = l.queue key ++ [now] :=
        hqueue
      refine ⟨hexp, ?_, ?_, hbounded⟩
      · rw [hqueue']
        exact h.remembers.append
      · rw [hqueue', length_append, length_singleton]
        push_cast
        omega
    · have hqueue' : (step limits l (now, .request key)).1.queue key = rest ++ [now] := hqueue
      have hremembers := h.remembers
      have hlength := h.length
      rw [hq] at hremembers hlength
      simp only [length_cons] at hlength
      push_cast at hlength
      have hforget : Remembers (limits key).2 now log rest := by
        refine hremembers.forget [oldest] fun t ht => ?_
        rw [mem_singleton.1 ht]
        exact hold
      refine ⟨hexp, ?_, ?_, hbounded⟩
      · rw [hqueue']
        exact hforget.append
      · rw [hqueue', length_append, length_singleton]
        push_cast
        omega
    · rw [decide_eq_true hroom] at hanswer
      exact absurd (hanswer.symm.trans hrefused) (by simp)
  · rw [decide_eq_false hroom] at hanswer
    have hlog : admits limits key l (now, .request key) = [] := by
      refine if_neg fun h => ?_
      rw [hanswer] at h
      exact absurd h.2 (by simp)
    rw [hlog, append_nil]
    rcases request_cases l key hmax (limits key).2 now with
      ⟨-, hadmitted, -⟩ | ⟨oldest, rest, -, -, ⟨-, hadmitted, -⟩ | ⟨-, -, hsame⟩⟩
    · exact absurd (hanswer.symm.trans hadmitted) (by simp)
    · exact absurd (hanswer.symm.trans hadmitted) (by simp)
    · have hsame' : (step limits l (now, .request key)).1 = l := hsame
      rw [hsame']
      exact h

theorem Knows.step {now : Int} {log : List Int} {l : InMemoryRateLimiter}
    (h : Knows limits key expirationDuration now log l)
    (hkeep : Keepable expirationDuration (limits key).1 (limits key).2) (call : RateCall) :
    Knows limits key expirationDuration now (log ++ admits limits key l (now, call))
      (step limits l (now, call)).1 := by
  cases call with
  | request key' =>
    by_cases hk : key' = key
    · subst hk
      exact h.request hkeep.1
    · have hnone : admits limits key l (now, .request key') = [] := by simp [admits, hk]
      have hqueue : (InMemoryRateLimiter.step limits l (now, .request key')).1.queue key =
          l.queue key := request_queue_of_ne l (Ne.symm hk) _ _ now
      rw [hnone, append_nil]
      refine ⟨?_, by rw [hqueue]; exact h.remembers, by rw [hqueue]; exact h.length, h.bounded⟩
      exact (request_expirationDuration l key' _ _ now).trans h.expiration
  | sweep =>
    have hnone : admits limits key l (now, .sweep) = [] := by simp [admits]
    rw [hnone, append_nil]
    have hexp : (l.clearExpiredItems now).expirationDuration = l.expirationDuration := by
      unfold clearExpiredItems
      split <;> rfl
    rcases clearExpiredItems_cases l key now with hsame | ⟨hempty, hpos, last, hlast, hidle⟩
    · refine ⟨hexp.trans h.expiration, ?_, ?_, h.bounded⟩
      · exact hsame ▸ h.remembers
      · exact hsame ▸ h.length
    · -- the times of a queue that is dropped are too old to count
      have hseconds : l.expirationSeconds = (init expirationDuration).expirationSeconds := by
        rw [expirationSeconds, h.expiration]
        rfl
      have hold : (limits key).2 ≤ now - last := by
        rw [h.expiration] at hpos
        have := hkeep.2
        omega
      refine ⟨hexp.trans h.expiration, ?_, ?_, h.bounded⟩
      · rw [show (InMemoryRateLimiter.step limits l (now, .sweep)).1.queue key = [] from hempty]
        exact h.remembers.clear hlast hold
      · rw [show (InMemoryRateLimiter.step limits l (now, .sweep)).1.queue key = [] from hempty]
        exact Int.le_of_lt hkeep.1

/-- **A run**: the limiter knows what has been admitted. -/
theorem knows_after (hkeep : Keepable expirationDuration (limits key).1 (limits key).2)
    (calls : List (Int × RateCall)) (hsorted : (calls.map Prod.fst).Pairwise (· ≤ ·)) (now : Int)
    (hnow : ∀ call ∈ calls, call.1 ≤ now) :
    Knows limits key expirationDuration now (admitted limits key (init expirationDuration) calls)
      (after limits (init expirationDuration) calls) := by
  induction calls using List.reverseRecOn generalizing now with
  | nil =>
    refine ⟨rfl, Remembers.nil _ _, ?_, Bounded.nil _ _⟩
    exact Int.le_of_lt hkeep.1
  | append_singleton calls call ih =>
    rw [map_append, pairwise_append] at hsorted
    have hpast : ∀ c ∈ calls, c.1 ≤ call.1 := fun c hc =>
      hsorted.2.2 c.1 (mem_map_of_mem hc) call.1 (by simp)
    have hstep := (ih hsorted.1 call.1 hpast).step hkeep call.2
    rw [admitted_snoc, after_snoc]
    exact ⟨hstep.expiration, hstep.remembers.later (hnow call (by simp)), hstep.length,
      hstep.bounded⟩

/-- The law holds of the keys whose limit and duration the limiter can keep. -/
theorem law_of_keepable (hkeep : Keepable expirationDuration (limits key).1 (limits key).2)
    (calls : List (Int × RateCall)) (hsorted : (calls.map Prod.fst).Pairwise (· ≤ ·)) :
    Law limits key (init expirationDuration) calls := by
  have hmax := hkeep.1
  constructor
  · intro w
    -- any time after the last call will do
    obtain ⟨now, hnow⟩ : ∃ now, ∀ call ∈ calls, call.1 ≤ now := by
      rcases eq_nil_or_concat calls with rfl | ⟨init, last, rfl⟩
      · exact ⟨0, nofun⟩
      · refine ⟨last.1, fun call hcall => ?_⟩
        rw [concat_eq_append, map_append, pairwise_append] at hsorted
        rcases mem_append.1 (concat_eq_append ▸ hcall) with hinit | hself
        · exact hsorted.2.2 call.1 (mem_map_of_mem hinit) last.1 (by simp)
        · exact Int.le_of_eq (congrArg Prod.fst (mem_singleton.1 hself))
    have := (knows_after hkeep calls hsorted now hnow).bounded w
    omega
  · rintro before now rest rfl hrefused
    rw [map_append, map_cons, pairwise_append] at hsorted
    have hpast : ∀ call ∈ before, call.1 ≤ now := fun call hcall =>
      hsorted.2.2 call.1 (mem_map_of_mem hcall) now (by simp)
    rw [(knows_after hkeep before hsorted.1 now hpast).answer hmax] at hrefused
    simpa using hrefused

/-- Without a duration no request is refused. -/
theorem law_of_noWindow (hmax : (limits key).1 = 0) (hduration : (limits key).2 ≤ 0)
    (calls : List (Int × RateCall)) : Law limits key (init expirationDuration) calls := by
  constructor
  · intro w
    have hnone : within (limits key).2 w (admitted limits key (init expirationDuration) calls) =
        [] := by
      refine filter_eq_nil_iff.2 fun t _ => ?_
      simp only [decide_eq_true_eq]
      omega
    rw [hnone, hmax]
    exact Int.le_refl 0
  · intro before now rest _ _
    rw [hmax]
    exact Int.natCast_nonneg _

/-! ### Where the law fails -/

/-- Requests at one time fill the queue of a key. -/
theorem burst (limits : String → Int × Int) (key : String) (l : InMemoryRateLimiter)
    (hempty : l.store key = none) (now : Int) (n : Nat) (hn : 0 < n)
    (hmax : (n : Int) ≤ (limits key).1) :
    (after limits l (List.replicate n (now, .request key))).store key =
        some (List.replicate n now) ∧
      (after limits l (List.replicate n (now, .request key))).expirationDuration =
        l.expirationDuration ∧
      admitted limits key l (List.replicate n (now, .request key)) = List.replicate n now := by
  induction n with
  | zero => exact absurd hn (Nat.lt_irrefl 0)
  | succ n ih =>
    rcases Nat.eq_zero_or_pos n with rfl | hpos
    · have hrequest : l.request key (limits key).1 (limits key).2 now =
          (l.set key [now], some true) := by
        unfold request
        rw [hempty]
        dsimp only
        rw [if_neg (by omega)]
      simp [after, admitted, admits, step, hrequest, set]
    · obtain ⟨hstore, hexp, hlog⟩ := ih hpos (by omega)
      rw [replicate_succ', replicate_succ', after_snoc, admitted_snoc, hlog]
      generalize after limits l (List.replicate n (now, .request key)) = l' at hstore hexp ⊢
      have hrequest : step limits l' (now, .request key) =
          (l'.set key (List.replicate n now ++ [now]), some true) := by
        simp only [step]
        rw [request, hstore]
        dsimp only
        rw [if_pos (by rw [length_replicate]; omega)]
      rw [hrequest, admits, hrequest, if_pos ⟨rfl, rfl⟩]
      exact ⟨by simp [set], hexp, rfl⟩

/-- The sweep drops a queue that is still full of recent times. -/
theorem dropped_unlawful (hpos : 0 < (limits key).1) (hexp : 0 < expirationDuration)
    (hlong : (init expirationDuration).expirationSeconds + 1 < (limits key).2) :
    ∃ calls : List (Int × RateCall), (calls.map Prod.fst).Pairwise (· ≤ ·) ∧
      ¬Law limits key (init expirationDuration) calls := by
  obtain ⟨n, hn⟩ := Int.eq_ofNat_of_zero_le (Int.le_of_lt hpos)
  have hseconds : 0 ≤ (init expirationDuration).expirationSeconds :=
    Int.tdiv_nonneg (Int.le_of_lt hexp) (by omega)
  obtain ⟨hstore, hsame, hlog⟩ := burst limits key (init expirationDuration)
    rfl 0 n (by omega) (by omega)
  generalize hlate : (init expirationDuration).expirationSeconds + 1 = late at hlong
  generalize hfull : after limits (init expirationDuration)
    (List.replicate n (0, .request key)) = full at hstore hsame
  have hdropped : (full.clearExpiredItems late).store key = none := by
    have hfullSeconds : full.expirationSeconds = (init expirationDuration).expirationSeconds := by
      rw [expirationSeconds, hsame]
      rfl
    have hidle : full.idle late (List.replicate n 0) = true := by
      have hlast : (List.replicate n (0 : Int)).getLast? = some 0 := by
        rw [getLast?_replicate, if_neg (by omega)]
      rw [idle, hlast, hfullSeconds]
      simp only [decide_eq_true_eq]
      omega
    rw [clearExpiredItems, hsame,
      if_pos (show 0 < (init expirationDuration).expirationDuration from hexp)]
    simp [hstore, hidle]
  have hsweep : admits limits key full (late, .sweep) = [] := if_neg (by simp)
  have hadmit : admits limits key (full.clearExpiredItems late) (late, .request key) = [late] := by
    refine if_pos ⟨rfl, ?_⟩
    simp only [step]
    rw [request, hdropped]
    dsimp only
    rw [if_neg (by omega)]
  refine ⟨List.replicate n (0, .request key) ++ [(late, .sweep)] ++ [(late, .request key)], ?_,
    fun hlaw => ?_⟩
  · simp only [map_append, map_replicate, map_cons, map_nil]
    rw [append_assoc]
    refine pairwise_append.2 ⟨pairwise_replicate.2 (.inr (Int.le_refl 0)), by simp, ?_⟩
    intro t ht t' ht'
    have h0 := eq_of_mem_replicate ht
    simp only [cons_append, nil_append, mem_cons, not_mem_nil, or_false] at ht'
    rcases ht' with rfl | rfl <;> omega
  · have hwindow := hlaw.window 0
    have hadmitted : admitted limits key (init expirationDuration)
        (List.replicate n (0, .request key) ++ [(late, .sweep)] ++ [(late, .request key)]) =
          List.replicate n 0 ++ [late] := by
      rw [admitted_snoc, admitted_snoc, after_snoc, hlog, hfull, hsweep, append_nil]
      exact congrArg _ hadmit
    have hall : within (limits key).2 0 (List.replicate n (0 : Int)) = List.replicate n 0 := by
      refine filter_eq_self.2 fun t ht => ?_
      rw [eq_of_mem_replicate ht]
      simp only [decide_eq_true_eq]
      omega
    have hlast : within (limits key).2 0 [late] = [late] := by
      refine filter_eq_self.2 fun t ht => ?_
      rw [mem_singleton.1 ht]
      simp only [decide_eq_true_eq]
      omega
    rw [hadmitted, within_append, length_append, hall, hlast, length_replicate,
      length_singleton] at hwindow
    push_cast at hwindow
    omega

/-- **A limit or a duration that the limiter cannot keep** breaks the law in some run. -/
theorem exists_unlawful
    (hkeep : ¬(Keepable expirationDuration (limits key).1 (limits key).2 ∨
      (limits key).1 = 0 ∧ (limits key).2 ≤ 0)) :
    ∃ calls : List (Int × RateCall), (calls.map Prod.fst).Pairwise (· ≤ ·) ∧
      ¬Law limits key (init expirationDuration) calls := by
  rw [not_or] at hkeep
  obtain ⟨hnot, hzero⟩ := hkeep
  rcases Int.lt_trichotomy (limits key).1 0 with hneg | hmax | hpos
  · -- no number of admissions is negative
    refine ⟨[], List.Pairwise.nil, fun hlaw => ?_⟩
    have := hlaw.window 0
    omega
  · -- the first request of a key is always admitted
    refine ⟨[(0, .request key)], pairwise_singleton .., fun hlaw => ?_⟩
    have hd : 0 < (limits key).2 := by
      by_contra hd
      exact hzero ⟨hmax, by omega⟩
    have hone := hlaw.window 0
    have hlog : admitted limits key (init expirationDuration) [(0, .request key)] = [0] := by
      simp [admitted, admits, step, request, init, hmax]
    rw [hlog, hmax] at hone
    simp [within, hd] at hone
  · have hexp : 0 < expirationDuration ∧
        (init expirationDuration).expirationSeconds + 1 < (limits key).2 := by
      by_contra hexp
      exact hnot ⟨hpos, by omega⟩
    exact dropped_unlawful hpos hexp.1 hexp.2

/-- **The law of the limiter**: it holds of a key in every run exactly if the limit is positive and
the sweep keeps queues for the duration, or there are no requests to count. -/
theorem law_iff (limits : String → Int × Int) (key : String) (expirationDuration : Int) :
    (∀ calls : List (Int × RateCall), (calls.map Prod.fst).Pairwise (· ≤ ·) →
      Law limits key (init expirationDuration) calls) ↔
    Keepable expirationDuration (limits key).1 (limits key).2 ∨
      (limits key).1 = 0 ∧ (limits key).2 ≤ 0 := by
  constructor
  · intro hlaw
    by_contra hkeep
    obtain ⟨calls, hsorted, hunlawful⟩ := exists_unlawful hkeep
    exact hunlawful (hlaw calls hsorted)
  · rintro (hkeep | ⟨hmax, hduration⟩) calls hsorted
    · exact law_of_keepable hkeep calls hsorted
    · exact law_of_noWindow hmax hduration calls

/-- One request an hour, with the expiration of twenty minutes that another limiter has chosen. -/
theorem hourly_unlawful :
    ¬Law (fun _ => (1, 3600)) "MRRL1" (init (1200 * 1000000000))
      [(1000, .request "MRRL1"), (1200, .sweep), (2400, .sweep), (2401, .request "MRRL1")] := by
  intro hlaw
  have hwindow := hlaw.window 1000
  revert hwindow
  decide

end InMemoryRateLimiter

end NexusTok
