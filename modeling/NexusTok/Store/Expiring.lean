import Mathlib.Data.List.Nodup

/-!
# Maps whose entries expire

A map from keys to values in which an entry may have a time at which it expires.

* `Expiring.put`, `Expiring.delete`, `Expiring.deleteAll` : an entry is replaced, or removed.
* `Expiring.get_later` : what has expired does not come back.
-/

namespace NexusTok

open List

/-- An entry; without `expiresAt` it does not expire. -/
structure ExpiringEntry (κ α : Type) where
  key : κ
  value : α
  expiresAt : Option Int
deriving Repr

/-- The entry has not expired. -/
def ExpiringEntry.live {κ α : Type} (e : ExpiringEntry κ α) (now : Int) : Bool :=
  e.expiresAt.all fun t => now < t

/-- **A map with entries that expire.** -/
structure Expiring (κ α : Type) where
  entries : List (ExpiringEntry κ α) := []
  nodup : (entries.map (·.key)).Nodup := by simp

namespace Expiring

variable {κ α : Type} [DecidableEq κ]

/-- The value of a key. -/
def get (m : Expiring κ α) (now : Int) (k : κ) : Option α :=
  (m.entries.find? fun e => e.key = k ∧ e.live now).map (·.value)

/-- Without the keys of a list. -/
def deleteAll (m : Expiring κ α) (ks : List κ) : Expiring κ α :=
  { entries := m.entries.filter fun e => e.key ∉ ks
    nodup := m.nodup.sublist (filter_sublist.map _) }

/-- Without a key. -/
def delete (m : Expiring κ α) (k : κ) : Expiring κ α := m.deleteAll [k]

def put (m : Expiring κ α) (e : ExpiringEntry κ α) : Expiring κ α :=
  { entries := e :: (m.delete e.key).entries
    nodup := by
      refine nodup_cons.2 ⟨fun h => ?_, (m.delete e.key).nodup⟩
      obtain ⟨e', he', hk⟩ := mem_map.1 h
      simp only [delete, deleteAll, mem_filter, mem_singleton, decide_eq_true_eq] at he'
      exact he'.2 hk }

/-- The keys that have a value. -/
def keys (m : Expiring κ α) (now : Int) : List κ := (m.entries.filter (·.live now)).map (·.key)

variable {m : Expiring κ α} {now : Int} {k : κ}

theorem get_eq_none : m.get now k = none ↔ ∀ e ∈ m.entries, e.key = k → e.live now = false := by
  simp only [get, Option.map_eq_none_iff, find?_eq_none, decide_eq_true_eq, not_and,
    Bool.not_eq_true]

/-- What has expired does not come back. -/
theorem get_later {now' : Int} (h : m.get now k = none) (hle : now ≤ now') :
    m.get now' k = none := by
  rw [get_eq_none] at h ⊢
  intro e he hk
  have hdead := h e he hk
  unfold ExpiringEntry.live at hdead ⊢
  rcases ht : e.expiresAt with _ | t
  · simp [ht] at hdead
  simp only [ht, Option.all_some, decide_eq_false_iff_not] at hdead ⊢
  omega

theorem get_deleteAll (m : Expiring κ α) (ks : List κ) (now : Int) (k : κ) :
    (m.deleteAll ks).get now k = if k ∈ ks then none else m.get now k := by
  by_cases hk : k ∈ ks
  · rw [if_pos hk, get_eq_none]
    intro e he heq
    simp only [deleteAll, mem_filter, decide_eq_true_eq] at he
    exact absurd hk (heq ▸ he.2)
  · rw [if_neg hk, get, get, deleteAll, find?_filter]
    congr 2
    funext e
    by_cases he : e.key = k
    · simp [he, hk]
    · simp [he]

@[simp] theorem get_delete (m : Expiring κ α) (k' : κ) (now : Int) (k : κ) :
    (m.delete k').get now k = if k = k' then none else m.get now k := by
  rw [delete, get_deleteAll]
  simp only [mem_singleton]

@[simp] theorem get_put (m : Expiring κ α) (e : ExpiringEntry κ α) (now : Int) (k : κ) :
    (m.put e).get now k =
      if k = e.key then (if e.live now then some e.value else none) else m.get now k := by
  have hrest := get_delete m e.key now k
  rw [get] at hrest
  rw [get, put, find?_cons]
  by_cases hk : k = e.key
  · subst hk
    rw [if_pos rfl] at hrest
    by_cases hl : e.live now = true
    · simp [hl]
    · simp only [if_true, hl, and_false, decide_false, Bool.false_eq_true, if_false]
      exact hrest
  · have hne : ¬e.key = k := fun h => hk h.symm
    rw [if_neg hk] at hrest ⊢
    simp only [hne, false_and, decide_false]
    exact hrest

/-- The keys are those with a value. -/
theorem mem_keys : k ∈ m.keys now ↔ (m.get now k).isSome := by
  rw [keys, mem_map, get, Option.isSome_map, find?_isSome]
  constructor
  · rintro ⟨e, he, rfl⟩
    obtain ⟨hmem, hlive⟩ := mem_filter.1 he
    exact ⟨e, hmem, by simp [hlive]⟩
  · rintro ⟨e, hmem, he⟩
    simp only [decide_eq_true_eq] at he
    exact ⟨e, mem_filter.2 ⟨hmem, he.2⟩, he.1⟩

theorem keys_nodup (m : Expiring κ α) (now : Int) : (m.keys now).Nodup :=
  m.nodup.sublist (filter_sublist.map _)

end Expiring

end NexusTok
