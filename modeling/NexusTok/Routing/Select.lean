import Mathlib.Data.List.Dedup
import Mathlib.Data.List.Sort
import Mathlib.Order.Basic
import Mathlib.Tactic.Ring

/-!
# Selecting a channel by its keys

The keys that can serve a group and a model are *candidates*.  Their effective priorities, each once
and from the highest down, are the *levels* of the group; the retry count of a request is a position
in this list.  Among the candidates of a level one is drawn by weight.

* `selectChannelByRoutingKey_eq_none_iff` : nothing is selected exactly past the last level.
* `selectChannelByRoutingKey_spec` : what is selected is a candidate of the level asked for.
* `levels_pairwise`, `levels_eq` : the levels fall strictly, and are known by what they contain.
-/

namespace NexusTok

open List

/-- `routingKeyRouteCandidate`: a key that can be routed to, with its channel. -/
structure Candidate where
  channelId : ℤ
  keyId : ℤ
  effectivePriority : ℤ
  weight : ℤ
  deriving DecidableEq

def sortedUniqueEffectivePriorities (candidates : List Candidate) : List ℤ :=
  (candidates.map Candidate.effectivePriority).dedup.insertionSort (· ≥ ·)

/-- The random numbers of one selection, before they are cut to their ranges. -/
structure Roll where
  intn : ℕ
  int63n : ℕ
  deriving DecidableEq

/-- The weights that count. -/
def totalWeight (filtered : List Candidate) : ℤ :=
  (filtered.map fun c => if c.weight ≤ 0 then 0 else c.weight).sum

/-- Walk through the candidates until the drawn value is used up. -/
def walkWeights (value : ℤ) : List Candidate → Option Candidate
  | [] => none
  | c :: cs => if value - c.weight < 0 then some c else walkWeights (value - c.weight) cs

/-- Draw one of the candidates: by weight, or evenly when no weight counts. -/
def drawCandidate (roll : Roll) (filtered : List Candidate) : Option Candidate :=
  let even := filtered[roll.intn % filtered.length]?
  if 0 < totalWeight filtered then
    match walkWeights (roll.int63n % totalWeight filtered) filtered with
    | some c => some c
    | none => even
  else even

def selectChannelByRoutingKey (roll : Roll) (candidates : List Candidate) (retry : ℤ) :
    Option Candidate :=
  if candidates = [] then none
  else
    match (sortedUniqueEffectivePriorities candidates)[(max retry 0).toNat]? with
    | none => none
    | some targetPriority =>
      drawCandidate roll (candidates.filter fun c => c.effectivePriority = targetPriority)

/-! ### What is selected -/

theorem mem_levels {candidates : List Candidate} {priority : ℤ} :
    priority ∈ sortedUniqueEffectivePriorities candidates ↔
      ∃ c ∈ candidates, c.effectivePriority = priority := by
  rw [sortedUniqueEffectivePriorities, mem_insertionSort, mem_dedup, mem_map]

/-- The levels fall strictly. -/
theorem levels_pairwise (candidates : List Candidate) :
    (sortedUniqueEffectivePriorities candidates).Pairwise (· > ·) := by
  have hsorted : (sortedUniqueEffectivePriorities candidates).Pairwise (· ≥ ·) :=
    pairwise_insertionSort _ _
  have hnodup : (sortedUniqueEffectivePriorities candidates).Nodup :=
    (perm_insertionSort _ _).nodup_iff.2 (nodup_dedup _)
  refine (hsorted.and hnodup).imp ?_
  rintro a b ⟨hge, hne⟩
  exact lt_of_le_of_ne hge hne.symm

/-- The levels are known by what they contain. -/
theorem levels_eq {candidates : List Candidate} {l : List ℤ} (hl : l.Pairwise (· > ·))
    (h : ∀ priority, priority ∈ sortedUniqueEffectivePriorities candidates ↔ priority ∈ l) :
    sortedUniqueEffectivePriorities candidates = l := by
  have hlevels := levels_pairwise candidates
  have hperm : (sortedUniqueEffectivePriorities candidates).Perm l :=
    (perm_ext_iff_of_nodup (hlevels.imp ne_of_gt) (hl.imp ne_of_gt)).2 h
  exact hperm.eq_of_pairwise (fun a b _ _ hab hba => absurd hab (not_lt_of_gt hba)) hlevels hl

theorem walkWeights_mem {value : ℤ} {cs : List Candidate} {c : Candidate}
    (h : walkWeights value cs = some c) : c ∈ cs := by
  induction cs generalizing value with
  | nil => simp [walkWeights] at h
  | cons c' cs ih =>
    rw [walkWeights] at h
    split_ifs at h
    · rw [Option.some.inj h]
      exact mem_cons_self
    · exact mem_cons_of_mem _ (ih h)

theorem drawCandidate_mem {roll : Roll} {filtered : List Candidate} {c : Candidate}
    (h : drawCandidate roll filtered = some c) : c ∈ filtered := by
  simp only [drawCandidate] at h
  split at h
  · split at h
    · next hwalk =>
      rw [← Option.some.inj h]
      exact walkWeights_mem hwalk
    · exact mem_of_getElem? h
  · exact mem_of_getElem? h

theorem drawCandidate_ne_none (roll : Roll) {filtered : List Candidate} (h : filtered ≠ []) :
    drawCandidate roll filtered ≠ none := by
  have hlen : roll.intn % filtered.length < filtered.length :=
    Nat.mod_lt _ (length_pos_of_ne_nil h)
  simp only [drawCandidate, getElem?_eq_getElem hlen]
  split
  · split <;> simp
  · simp

theorem selectChannelByRoutingKey_spec {roll : Roll} {candidates : List Candidate} {retry : ℕ}
    {c : Candidate} (h : selectChannelByRoutingKey roll candidates retry = some c) :
    c ∈ candidates ∧
      (sortedUniqueEffectivePriorities candidates)[retry]? = some c.effectivePriority := by
  have hretry : (max (retry : ℤ) 0).toNat = retry := by omega
  simp only [selectChannelByRoutingKey, hretry] at h
  split at h
  · simp at h
  · split at h
    · simp at h
    · next target htarget =>
      have hmem := mem_filter.1 (drawCandidate_mem h)
      refine ⟨hmem.1, ?_⟩
      rw [htarget, of_decide_eq_true hmem.2]

/-- Nothing is selected exactly past the last level. -/
theorem selectChannelByRoutingKey_eq_none_iff {roll : Roll} {candidates : List Candidate}
    {retry : ℕ} :
    selectChannelByRoutingKey roll candidates retry = none ↔
      (sortedUniqueEffectivePriorities candidates).length ≤ retry := by
  have hretry : (max (retry : ℤ) 0).toNat = retry := by omega
  simp only [selectChannelByRoutingKey, hretry]
  constructor
  · intro h
    by_contra hlt
    have hlevel := getElem?_eq_getElem (not_le.1 hlt)
    obtain ⟨c, hc, hpriority⟩ := mem_levels.1 (mem_of_getElem? hlevel)
    rw [if_neg (ne_nil_of_mem hc), hlevel] at h
    refine drawCandidate_ne_none roll ?_ h
    exact ne_nil_of_mem (mem_filter.2 ⟨hc, decide_eq_true hpriority⟩)
  · intro h
    rw [getElem?_eq_none h]
    split <;> rfl

end NexusTok
