import Mathlib.Data.List.Nodup
import Mathlib.Data.List.Sort

/-!
# Tables of keyed rows

A database table is the list of its rows.  A row is found by its key (`Table.get`), changed in
place (`Table.modify`), or written back whole (`Table.put`); several are changed by a condition
(`Table.update`), or found by one, in an order (`Table.select`).  The key of a row is given by a
function, so the same lemmas serve every table and every unique column of it.

The frame lemmas say what a write leaves alone: `get_modify_ne` for the other keys, `modify_eq`
for a write that changes nothing.
-/

namespace NexusTok.Table

open List

variable {κ ρ : Type*} [DecidableEq κ] (key : ρ → κ)

/-- The row with key `k`, the first one if there are several. -/
def get (k : κ) (rows : List ρ) : Option ρ := rows.find? fun r => decide (key r = k)

/-- Apply `f` to the rows with key `k`. -/
def modify (k : κ) (f : ρ → ρ) (rows : List ρ) : List ρ :=
  rows.map fun r => if key r = k then f r else r

/-- Write the row `r` back under its key. -/
def put (r : ρ) (rows : List ρ) : List ρ := modify key (key r) (fun _ => r) rows

variable {key}

variable {k : κ} {rows : List ρ} {r r' : ρ}

theorem get_mem (h : get key k rows = some r) : r ∈ rows :=
  mem_of_find?_eq_some h

theorem get_key (h : get key k rows = some r) : key r = k := by
  simpa using find?_some h

@[simp] theorem get_nil (k : κ) : get key k ([] : List ρ) = none := rfl

theorem get_cons (k : κ) (r : ρ) (rows : List ρ) :
    get key k (r :: rows) = if key r = k then some r else get key k rows := by
  by_cases h : key r = k <;> simp [get, h]

theorem modify_cons (k : κ) (f : ρ → ρ) (r : ρ) (rows : List ρ) :
    modify key k f (r :: rows) = (if key r = k then f r else r) :: modify key k f rows := rfl

variable {f : ρ → ρ}

theorem get_modify (h : get key k rows = some r)
    (hf : key (f r) = k) : get key k (modify key k f rows) = some (f r) := by
  induction rows with
  | nil => simp at h
  | cons x xs ih =>
    rw [get_cons] at h
    rw [modify_cons, get_cons]
    by_cases hx : key x = k
    · rw [if_pos hx, Option.some.injEq] at h
      subst h
      simp [hx, hf]
    · rw [if_neg hx] at h
      simp [hx, ih h]

theorem get_modify_ne {k' : κ} (hk : k' ≠ k) (hf : ∀ r ∈ rows, key r = k → key (f r) = k) :
    get key k' (modify key k f rows) = get key k' rows := by
  induction rows with
  | nil => rfl
  | cons x xs ih =>
    have hxs := ih fun r hr => hf r (mem_cons_of_mem _ hr)
    rw [modify_cons, get_cons, get_cons, hxs]
    by_cases hx : key x = k
    · have hfx := hf x mem_cons_self hx
      rw [if_pos hx, if_neg (by rw [hfx]; exact hk.symm), if_neg (by rw [hx]; exact hk.symm)]
    · rw [if_neg hx]

/-- A change that keeps every row with key `k` is no change. -/
theorem modify_eq (h : ∀ r ∈ rows, key r = k → f r = r) : modify key k f rows = rows := by
  induction rows with
  | nil => rfl
  | cons x xs ih =>
    rw [modify_cons, ih fun r hr => h r (mem_cons_of_mem _ hr)]
    by_cases hx : key x = k
    · rw [if_pos hx, h x mem_cons_self hx]
    · rw [if_neg hx]

theorem get_put (h : get key (key r) rows = some r') : get key (key r) (put key r rows) = some r :=
  get_modify h rfl

theorem get_put_ne (hk : k ≠ key r) : get key k (put key r rows) = get key k rows :=
  get_modify_ne hk fun _ _ _ => rfl

/-- With unique keys, writing a row back under the key of `r` replaces `r`. -/
theorem put_eq_map [DecidableEq ρ] (hn : (rows.map key).Nodup)
    (hr : r ∈ rows) (hk : key r' = key r) :
    put key r' rows = rows.map fun x => if x = r then r' else x := by
  refine map_congr_left fun x hx => ?_
  by_cases hxr : x = r
  · subst hxr; simp [hk]
  · have : key x ≠ key r' := fun h => hxr (inj_on_of_nodup_map hn hx hr (h.trans hk))
    simp [hxr, this]

/-- Writes keep the keys. -/
theorem keys_modify (hf : ∀ r, key r = k → key (f r) = k) :
    (modify key k f rows).map key = rows.map key := by
  rw [modify, map_map]
  refine map_congr_left fun r _ => ?_
  by_cases h : key r = k <;> simp [h, hf]

theorem keys_put (r : ρ) (rows : List ρ) : (put key r rows).map key = rows.map key :=
  keys_modify fun _ _ => rfl

/-- With unique keys, a row of the table is the one found under its key. -/
theorem get_of_mem (hn : (rows.map key).Nodup) (hr : r ∈ rows) : get key (key r) rows = some r := by
  cases h : get key (key r) rows with
  | none => exact absurd (find?_eq_none.1 h r hr) (by simp)
  | some x => rw [inj_on_of_nodup_map hn (get_mem h) hr (get_key h)]

/-- What is found after a change of every row that keeps the keys. -/
theorem get_map {h : ρ → ρ} (hh : ∀ r, key (h r) = key r) :
    get key k (rows.map h) = (get key k rows).map h := by
  have hkey : ((fun r => decide (key r = k)) ∘ h) = fun r => decide (key r = k) := by
    funext r
    show decide (key (h r) = k) = decide (key r = k)
    rw [hh]
  rw [get, find?_map, hkey]
  rfl

theorem get_append (h : get key k rows = some r)
    (rows' : List ρ) : get key k (rows ++ rows') = some r := by
  simp only [get] at h ⊢
  rw [find?_append, h]; rfl

theorem get_append_none (h : get key k rows = none) (rows' : List ρ) :
    get key k (rows ++ rows') = get key k rows' := by
  simp only [get] at h ⊢
  rw [find?_append, h]; rfl

/-! ### Statements with a condition -/

/-- `UPDATE … WHERE p`: change the rows that match. -/
def update (p : ρ → Bool) (f : ρ → ρ) (rows : List ρ) : List ρ :=
  rows.map fun r => if p r = true then f r else r

variable {p : ρ → Bool}

theorem mem_update (h : r ∈ update p f rows) :
    ∃ r' ∈ rows, (p r' = true ∧ r = f r') ∨ (p r' = false ∧ r = r') := by
  obtain ⟨r', hr', rfl⟩ := mem_map.1 h
  refine ⟨r', hr', ?_⟩
  cases hp : p r' with
  | true => exact .inl ⟨rfl, rfl⟩
  | false => exact .inr ⟨rfl, rfl⟩

theorem mem_update_of_mem (h : r ∈ rows) : (if p r = true then f r else r) ∈ update p f rows :=
  mem_map_of_mem h

omit [DecidableEq κ] in
theorem update_keys (hf : ∀ r, key (f r) = key r) : (update p f rows).map key = rows.map key := by
  rw [update, map_map]
  refine map_congr_left fun r _ => ?_
  simp only [Function.comp_apply]
  split_ifs
  · exact hf r
  · rfl

/-- With unique keys, a change of the rows with the key of one row changes just that row. -/
theorem update_split {x : ρ} {before after : List ρ} (hn : ((before ++ x :: after).map key).Nodup) :
    update (fun r => decide (key r = key x)) f (before ++ x :: after) = before ++ f x :: after := by
  rw [map_append, map_cons] at hn
  obtain ⟨-, hafter, hdisjoint⟩ := nodup_append.1 hn
  have hkeep : ∀ rows : List ρ, (∀ r ∈ rows, key r ≠ key x) →
      update (fun r => decide (key r = key x)) f rows = rows := by
    intro rows hne
    conv_rhs => rw [← map_id rows]
    refine map_congr_left fun r hr => ?_
    simp [hne r hr]
  have happend : update (fun r => decide (key r = key x)) f (before ++ x :: after) =
      update (fun r => decide (key r = key x)) f before ++
        f x :: update (fun r => decide (key r = key x)) f after := by
    simp [update]
  rw [happend, hkeep before, hkeep after]
  · exact fun r hr heq => (nodup_cons.1 hafter).1 (heq ▸ mem_map_of_mem hr)
  · exact fun r hr => hdisjoint _ (mem_map_of_mem hr) _ mem_cons_self

/-! ### Queries -/

/-- `SELECT … WHERE p ORDER BY le`; rows that the order does not tell apart keep their order. -/
def select (p : ρ → Bool) (le : ρ → ρ → Bool) (rows : List ρ) : List ρ :=
  (rows.filter p).insertionSort fun a b => le a b = true

theorem mem_select {le : ρ → ρ → Bool} : r ∈ select p le rows ↔ r ∈ rows ∧ p r = true := by
  rw [select, mem_insertionSort, mem_filter]

theorem length_select (p : ρ → Bool) (le : ρ → ρ → Bool) (rows : List ρ) :
    (select p le rows).length = (rows.filter p).length := length_insertionSort _ _

omit [DecidableEq κ] in
theorem keys_select_nodup {le : ρ → ρ → Bool}
    (hn : (rows.map key).Nodup) : ((select p le rows).map key).Nodup := by
  refine ((perm_insertionSort _ _).map key).nodup_iff.2 ?_
  exact List.Sublist.nodup (List.Sublist.map _ filter_sublist) hn

end NexusTok.Table
