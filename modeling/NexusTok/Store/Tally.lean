import Mathlib.Algebra.BigOperators.Group.List.Basic
import Mathlib.Data.List.Dedup
import Mathlib.Tactic.Ring
import NexusTok.Store.Table

/-!
# Tallies

A tally adds up integers under keys.  It is the list of its entries, with at most one for a key; a
key without an entry stands at zero.

* `Tally.value_add` : adding to a key moves that key and no other.
* `Tally.foldl_once` : a fold that updates the rows of a table under keys that are all different
  updates every row at most once.
-/

namespace NexusTok

open List Table

/-- Integers under keys. -/
abbrev Tally (κ : Type*) := List (κ × ℤ)

namespace Tally

variable {κ : Type*} [DecidableEq κ]

/-- What stands under a key. -/
def value (t : Tally κ) (k : κ) : ℤ := ((Table.get Prod.fst k t).map Prod.snd).getD 0

def add (t : Tally κ) (k : κ) (n : ℤ) : Tally κ :=
  match Table.get Prod.fst k t with
  | none => t ++ [(k, n)]
  | some (_, old) => Table.put Prod.fst (k, old + n) t

def keys (t : Tally κ) : List κ := t.map Prod.fst

theorem value_add (t : Tally κ) (k k' : κ) (n : ℤ) :
    (t.add k n).value k' = t.value k' + if k' = k then n else 0 := by
  unfold add
  cases hk : Table.get Prod.fst k t with
  | none =>
    by_cases h : k' = k
    · subst h
      have hnew : Table.get Prod.fst k' (t ++ [(k', n)]) = some (k', n) := by
        rw [get_append_none hk, get_cons, if_pos rfl]
      simp [value, hnew, hk]
    · have hold : Table.get Prod.fst k' (t ++ [(k, n)]) = Table.get Prod.fst k' t := by
        cases hk' : Table.get Prod.fst k' t with
        | some x => exact get_append hk' _
        | none => rw [get_append_none hk', get_cons, if_neg (Ne.symm h), get_nil]
      simp [value, hold, h]
  | some e =>
    obtain ⟨k₀, old⟩ := e
    have hk₀ : k₀ = k := get_key hk
    subst hk₀
    by_cases h : k' = k₀
    · subst h
      have hput : Table.get Prod.fst k' (Table.put Prod.fst (k', old + n) t) =
          some (k', old + n) := get_put (r := (k', old + n)) hk
      simp [value, hput, hk]
    · have hput : Table.get Prod.fst k' (Table.put Prod.fst (k₀, old + n) t) =
          Table.get Prod.fst k' t := get_put_ne (r := (k₀, old + n)) h
      simp [value, hput, h]

/-- A key without an entry stands at zero. -/
theorem value_of_notMem {t : Tally κ} {k : κ} (h : k ∉ t.keys) : t.value k = 0 := by
  cases hk : Table.get Prod.fst k t with
  | none => simp [value, hk]
  | some e =>
    refine absurd ?_ h
    rw [← get_key hk]
    exact mem_map_of_mem (get_mem hk)

@[simp] theorem value_nil (k : κ) : value ([] : Tally κ) k = 0 := rfl

theorem value_cons (e : κ × ℤ) (t : Tally κ) (k : κ) :
    value (e :: t) k = if e.1 = k then e.2 else value t k := by
  by_cases hk : e.1 = k <;> simp [value, get_cons, hk]

theorem nodup_keys_add {t : Tally κ} (h : t.keys.Nodup) (k : κ) (n : ℤ) :
    (t.add k n).keys.Nodup := by
  unfold add
  cases hk : Table.get Prod.fst k t with
  | none =>
    have hnot : k ∉ t.keys := by
      intro hmem
      obtain ⟨e, he, rfl⟩ := mem_map.1 hmem
      exact absurd (find?_eq_none.1 hk e he) (by simp)
    show ((t ++ [(k, n)]).map Prod.fst).Nodup
    rw [map_append]
    exact List.Nodup.append h (nodup_singleton k) (by simpa [keys] using hnot)
  | some e =>
    show ((Table.put Prod.fst (k, e.2 + n) t).map Prod.fst).Nodup
    rw [keys_put]
    exact h

/-- With the keys apart, the entries under a key add up to what stands under it. -/
theorem sum_entries {t : Tally κ} (h : t.keys.Nodup) (k : κ) :
    (t.map fun e => if e.1 = k then e.2 else 0).sum = t.value k := by
  induction t with
  | nil => rfl
  | cons e t ih =>
    obtain ⟨he, ht⟩ := nodup_cons.1 (show (e.1 :: keys t).Nodup from h)
    rw [map_cons, sum_cons, ih ht, value_cons]
    by_cases hk : e.1 = k
    · rw [if_pos hk, if_pos hk, value_of_notMem (hk ▸ he), add_zero]
    · rw [if_neg hk, if_neg hk, zero_add]

/-- Over keys that are all different, what stands under one of them is counted once. -/
theorem sum_values {t : Tally κ} {ks : List κ} (h : ks.Nodup) {k : κ}
    (hk : k ∈ t.keys → k ∈ ks) :
    (ks.map fun k' => if k' = k then t.value k' else 0).sum = t.value k := by
  by_cases hmem : k ∈ ks
  · have heq : (fun k' => if k' = k then t.value k' else 0) =
        fun k' => if k' = k then t.value k else 0 := by
      funext k'
      by_cases hk' : k' = k <;> simp [hk']
    rw [heq, sum_map_ite_eq, count_eq_one_of_mem h hmem]
    simp
  · rw [value_of_notMem fun hkey => hmem (hk hkey)]
    refine sum_eq_zero fun x hx => ?_
    obtain ⟨k', hk', rfl⟩ := mem_map.1 hx
    rw [if_neg]
    rintro rfl
    exact hmem hk'

/-! ### Folds that update a table -/

variable {ρ : Type*} {key : ρ → κ}

/-- **One update a row.**  The rows under the keys `ks`, all different, are changed by `f`, one key
after the other: a row is changed once if its key is one of them, and not otherwise. -/
theorem foldl_once {f : ρ → ρ} (hf : ∀ r, key (f r) = key r) {ks : List κ} (hks : ks.Nodup)
    (rows : List ρ) :
    ks.foldl (fun rows k => Table.modify key k f rows) rows =
      rows.map fun r => if key r ∈ ks then f r else r := by
  induction ks generalizing rows with
  | nil => simp
  | cons k ks ih =>
    obtain ⟨hk, hks⟩ := nodup_cons.1 hks
    rw [foldl_cons, ih hks, Table.modify, map_map]
    refine map_congr_left fun r _ => ?_
    show (if key (if key r = k then f r else r) ∈ ks then f (if key r = k then f r else r)
      else if key r = k then f r else r) = _
    by_cases h : key r = k
    · have hnot : key (f r) ∉ ks := by rw [hf, h]; exact hk
      simp [h, hnot]
    · simp [h]

end Tally

end NexusTok
