import Mathlib.Algebra.BigOperators.Group.List.Basic
import Mathlib.Data.List.Induction
import Mathlib.Tactic.Linarith
import Mathlib.Tactic.Ring

/-!
# Buckets of tokens in Redis

`rate_limit.lua` decides on the calls of `Allow` for a key, each in one step of the server.  The
bucket of the key is full at first, is filled at a rate, and gives a call its tokens if it has them.

* `allow_iff` : a call is admitted exactly if it **keeps to the rate** since every call before it.
-/

namespace NexusTok

open List

/-- The hash of a key in `rate_limit.lua`. -/
structure Bucket where
  tokens : Int
  lastTime : Int
  deriving DecidableEq, Repr

/-- What the bucket has at a time, in seconds; a new one is full. -/
def available (rate capacity : Int) (b : Option Bucket) (now : Int) : Int :=
  match b with
  | none => capacity
  | some b => min capacity (b.tokens + (now - b.lastTime) * rate)

theorem available_some (rate capacity : Int) (b : Bucket) (now : Int) :
    available rate capacity (some b) now = min capacity (b.tokens + (now - b.lastTime) * rate) :=
  rfl

/-- `rate_limit.lua`; the numbers of Lua are exact up to `2 ^ 53`. -/
def rateLimitScript (requested rate capacity now : Int) (b : Option Bucket) : Bucket × Bool :=
  let tokens := available rate capacity b now
  if requested ≤ tokens then (⟨tokens - requested, now⟩, true) else (⟨tokens, now⟩, false)

namespace TokenBucket

/-- A call of `Allow`: when, and for how many tokens. -/
structure Call where
  now : Int
  requested : Int
  deriving DecidableEq, Repr

/-- The bucket of a key, and its calls with their answers. -/
structure State where
  bucket : Option Bucket := none
  past : List (Call × Bool) := []

variable (rate capacity : Int)

def State.allow (s : State) (call : Call) : State × Bool :=
  let (b, ok) := rateLimitScript call.requested rate capacity call.now s.bucket
  (⟨some b, s.past ++ [(call, ok)]⟩, ok)

def after (calls : List Call) : State :=
  calls.foldl (fun s call => (s.allow rate capacity call).1) {}

/-- The tokens that the calls were given. -/
def taken (past : List (Call × Bool)) : Int :=
  (past.map fun (call, ok) => if ok then call.requested else 0).sum

/-- The time of the first call, or `now` without one. -/
def firstTime (past : List (Call × Bool)) (now : Int) : Int :=
  (past.head?.map fun p => p.1.now).getD now

/-- **Keeping to the rate**: from any call on, the tokens given and these are no more than a full
bucket and what flows in. -/
def Keeps (past : List (Call × Bool)) (now tokens : Int) : Prop :=
  ∀ front back, past = front ++ back →
    taken back + tokens ≤ capacity + (now - firstTime back now) * rate

variable {rate capacity : Int}

theorem taken_append (past past' : List (Call × Bool)) :
    taken (past ++ past') = taken past + taken past' := by
  rw [taken, map_append, sum_append, taken, taken]

/-- The calls up to a call, from any of them on. -/
theorem keeps_snoc (past : List (Call × Bool)) (call : Call) (ok : Bool) (now tokens : Int) :
    Keeps rate capacity (past ++ [(call, ok)]) now tokens ↔
      tokens ≤ capacity ∧ Keeps rate capacity past call.now
        (tokens + (if ok then call.requested else 0) - (now - call.now) * rate) := by
  have hlast : taken [(call, ok)] = if ok then call.requested else 0 := by simp [taken]
  have hfirst : ∀ back, firstTime (back ++ [(call, ok)]) now = firstTime back call.now := by
    intro back
    cases back <;> rfl
  constructor
  · intro h
    refine ⟨by simpa [taken, firstTime] using h (past ++ [(call, ok)]) [] (append_nil _).symm, ?_⟩
    rintro front back rfl
    have := h front (back ++ [(call, ok)]) (append_assoc ..)
    rw [taken_append, hlast, hfirst] at this
    linarith
  · rintro ⟨hcapacity, h⟩ front back hpast
    rcases eq_nil_or_concat' back with rfl | ⟨back, last, rfl⟩
    · simpa [taken, firstTime] using hcapacity
    · rw [← append_assoc] at hpast
      obtain ⟨rfl, hlast'⟩ := append_inj' hpast rfl
      obtain rfl := (cons.inj hlast').1
      have := h front back rfl
      rw [taken_append, hlast, hfirst]
      linarith

theorem after_snoc (calls : List Call) (call : Call) :
    after rate capacity (calls ++ [call]) =
      ((after rate capacity calls).allow rate capacity call).1 :=
  foldl_append ..

/-- **What a bucket has** is what keeps to the rate. -/
theorem le_available_iff (calls : List Call) (now tokens : Int) :
    tokens ≤ available rate capacity (after rate capacity calls).bucket now ↔
      Keeps rate capacity (after rate capacity calls).past now tokens := by
  induction calls using reverseRecOn generalizing now tokens with
  | nil =>
    -- a new bucket is full, and no call was before
    change tokens ≤ capacity ↔ _
    constructor
    · intro h front back hpast
      obtain ⟨rfl, rfl⟩ := append_eq_nil_iff.1 hpast.symm
      simpa [taken, firstTime] using h
    · intro h
      simpa [taken, firstTime] using h [] [] rfl
  | append_singleton calls call ih =>
    rw [after_snoc, State.allow, rateLimitScript]
    -- what is left flows over at the capacity, or is what the calls before leave at their rate
    split_ifs with hok
    all_goals
      simp only [keeps_snoc, ← ih, available_some, le_min_iff]
      refine and_congr_right fun _ => ?_
    · rw [if_pos trivial]
      constructor <;> intro h <;> linarith
    · rw [if_neg Bool.false_ne_true]
      constructor <;> intro h <;> linarith

/-- **A call is admitted exactly if it keeps to the rate**, whatever the clock does. -/
theorem allow_iff (calls : List Call) (call : Call) :
    ((after rate capacity calls).allow rate capacity call).2 = true ↔
      Keeps rate capacity (after rate capacity calls).past call.now call.requested := by
  rw [← le_available_iff, State.allow, rateLimitScript]
  split_ifs with hok
  · exact iff_of_true rfl hok
  · exact iff_of_false id hok

end TokenBucket

end NexusTok
