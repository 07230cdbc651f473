import Mathlib.Data.List.Basic

/-!
# Sliding windows

A log of times, and what of it has to be kept to know how many of its times lie within the last `d`.

* `Remembers` : a list that has forgotten only times that are at least `d` ago.
* `Remembers.head_recent` : the oldest time of a list of `n` kept times decides whether `n` times are
  recent.
* `Bounded`, `Bounded.append` : if a time is added only while fewer than `n` times are recent, every
  interval has at most `n` times.
-/

namespace NexusTok.Window

open List

/-- The times less than `d` ago. -/
def recent (d now : Int) (log : List Int) : List Int := log.filter fun t => now - t < d

/-- The times in the half-open interval of the length `d` from `w` on. -/
def within (d w : Int) (log : List Int) : List Int := log.filter fun t => w ≤ t ∧ t < w + d

/-- **What is left of a log**: all times that are forgotten are at least `d` ago. -/
structure Remembers (d now : Int) (log kept : List Int) : Prop where
  forgotten : ∃ old, log = old ++ kept ∧ ∀ t ∈ old, d ≤ now - t
  sorted : log.Pairwise (· ≤ ·)
  past : ∀ t ∈ log, t ≤ now

/-- Every interval of the length `d` has at most `n` times. -/
def Bounded (d : Int) (n : Nat) (log : List Int) : Prop := ∀ w, (within d w log).length ≤ n

variable {d now : Int} {log kept : List Int}

theorem recent_append (d now : Int) (log log' : List Int) :
    recent d now (log ++ log') = recent d now log ++ recent d now log' :=
  filter_append ..

theorem within_append (d w : Int) (log log' : List Int) :
    within d w (log ++ log') = within d w log ++ within d w log' :=
  filter_append ..

/-- Nothing is recent if everything is at least `d` ago. -/
theorem recent_eq_nil (h : ∀ t ∈ log, d ≤ now - t) : recent d now log = [] := by
  refine filter_eq_nil_iff.2 fun t ht => ?_
  have := h t ht
  simp only [decide_eq_true_eq]
  omega

/-- Everything is recent if it is less than `d` ago. -/
theorem recent_eq_self (h : ∀ t ∈ log, now - t < d) : recent d now log = log :=
  filter_eq_self.2 fun t ht => by simpa using h t ht

/-- Fewer times are recent later. -/
theorem recent_length_anti (d : Int) (log : List Int) {now now' : Int} (hle : now ≤ now') :
    (recent d now' log).length ≤ (recent d now log).length := by
  refine List.Sublist.length_le (monotone_filter_right _ fun t ht => ?_)
  simp only [decide_eq_true_eq] at ht ⊢
  omega

namespace Remembers

theorem nil (d now : Int) : Remembers d now [] [] :=
  ⟨⟨[], rfl, nofun⟩, List.Pairwise.nil, nofun⟩

theorem recent_eq (h : Remembers d now log kept) : recent d now log = recent d now kept := by
  obtain ⟨old, rfl, hold⟩ := h.forgotten
  rw [recent_append, recent_eq_nil hold, nil_append]

theorem later (h : Remembers d now log kept) {now' : Int} (hle : now ≤ now') :
    Remembers d now' log kept := by
  obtain ⟨old, heq, hold⟩ := h.forgotten
  refine ⟨⟨old, heq, fun t ht => ?_⟩, h.sorted, fun t ht => ?_⟩
  · have := hold t ht
    omega
  · have := h.past t ht
    omega

theorem append (h : Remembers d now log kept) : Remembers d now (log ++ [now]) (kept ++ [now]) := by
  obtain ⟨old, rfl, hold⟩ := h.forgotten
  refine ⟨⟨old, append_assoc .., hold⟩, ?_, fun t ht => ?_⟩
  · refine pairwise_append.2 ⟨h.sorted, pairwise_singleton .., fun t ht t' ht' => ?_⟩
    rw [mem_singleton.1 ht']
    exact h.past t ht
  · rcases mem_append.1 ht with ht | ht
    · exact h.past t ht
    · exact Int.le_of_eq (mem_singleton.1 ht)

/-- The first times that are kept may be forgotten if they are at least `d` ago. -/
theorem forget (front : List Int) {rest : List Int} (h : Remembers d now log (front ++ rest))
    (hfront : ∀ t ∈ front, d ≤ now - t) : Remembers d now log rest := by
  obtain ⟨old, heq, hold⟩ := h.forgotten
  refine ⟨⟨old ++ front, by rw [heq, append_assoc], fun t ht => ?_⟩, h.sorted, h.past⟩
  rcases mem_append.1 ht with ht | ht
  · exact hold t ht
  · exact hfront t ht

theorem kept_sorted (h : Remembers d now log kept) : kept.Pairwise (· ≤ ·) := by
  obtain ⟨old, rfl, -⟩ := h.forgotten
  exact (pairwise_append.1 h.sorted).2.1

theorem kept_past (h : Remembers d now log kept) : ∀ t ∈ kept, t ≤ now := by
  obtain ⟨old, rfl, -⟩ := h.forgotten
  exact fun t ht => h.past t (mem_append_right _ ht)

/-- Everything may be forgotten if the newest time is at least `d` ago. -/
theorem clear (h : Remembers d now log kept) {last : Int} (hlast : kept.getLast? = some last)
    (hold : d ≤ now - last) : Remembers d now log [] := by
  obtain ⟨init, rfl⟩ := getLast?_eq_some_iff.1 hlast
  refine forget (init ++ [last]) (by rwa [append_nil]) fun t ht => ?_
  have hle : t ≤ last := by
    rcases mem_append.1 ht with hinit | hself
    · exact (pairwise_append.1 h.kept_sorted).2.2 t hinit last (by simp)
    · exact Int.le_of_eq (mem_singleton.1 hself)
  omega

/-- **The oldest time decides**: it is recent exactly if all times that are kept are. -/
theorem head_recent {t : Int} {rest : List Int} (h : Remembers d now log (t :: rest)) :
    now - t < d ↔ rest.length < (recent d now log).length := by
  rw [h.recent_eq]
  constructor
  · intro hrecent
    have hall : ∀ t' ∈ t :: rest, now - t' < d := by
      intro t' ht'
      rcases mem_cons.1 ht' with rfl | hrest
      · exact hrecent
      · have := (pairwise_cons.1 h.kept_sorted).1 t' hrest
        omega
    rw [recent_eq_self hall]
    simp
  · intro hlt
    by_contra hold
    have : recent d now (t :: rest) = recent d now rest := by
      rw [recent, filter_cons_of_neg (by simpa using hold), ← recent]
    rw [this] at hlt
    have := length_filter_le (fun t => decide (now - t < d)) rest
    rw [recent] at hlt
    omega

/-- At most as many times are recent as are kept. -/
theorem recent_length_le (h : Remembers d now log kept) :
    (recent d now log).length ≤ kept.length := by
  rw [h.recent_eq]
  exact length_filter_le ..

end Remembers

/-- **A time that is added while fewer than `n` times are recent** leaves every interval with at most
`n` times. -/
theorem Bounded.append {n : Nat} (h : Bounded d n log)
    (hrecent : (recent d now log).length < n) : Bounded d n (log ++ [now]) := by
  intro w
  rw [within_append, length_append]
  by_cases hw : w ≤ now ∧ now < w + d
  · -- what is in an interval with `now` is recent
    have hsub : (within d w log).length ≤ (recent d now log).length := by
      refine List.Sublist.length_le (monotone_filter_right _ fun t ht => ?_)
      simp only [decide_eq_true_eq] at ht ⊢
      omega
    have hone : (within d w [now]).length ≤ 1 := length_filter_le ..
    omega
  · have hnone : within d w [now] = [] := by simp [within, hw]
    rw [hnone]
    exact h w

theorem Bounded.nil (d : Int) (n : Nat) : Bounded d n [] := fun _ => Nat.zero_le _

end NexusTok.Window
