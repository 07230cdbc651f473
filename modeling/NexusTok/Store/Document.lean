import Mathlib.Data.List.Infix
import Mathlib.Logic.Function.Basic

/-!
# Documents written at paths

A document is a leaf, an array or an object.  `put` writes a leaf at a path and makes the arrays and
objects on the way out of a leaf that counts as nothing, the *filler*; an array that is too short is
filled up with it.  A path that leads through another leaf, through an array by a name or through an
object by an index is refused.

* `shape_put` : what is at any path after a write, from what was there before.
* `put_comm`, `puts_perm` : **writes at unrelated paths commute**, so that their order does not
  matter.
* `Recorded.put` : what is at a path is what was written there since the last write above or
  below it.
* `Within.put` : the places of a document stay where the paths lead.
-/

namespace NexusTok

open List Option

/-- A document with keys and leaves. -/
inductive Document (Key Leaf : Type) where
  | leaf (x : Leaf)
  | array (elements : List (Document Key Leaf))
  | object (members : Key → Option (Document Key Leaf))

namespace Document

/-- A step from a document into one of its parts. -/
inductive Step (Key : Type) where
  | member (name : Key)
  | index (i : ℕ)
  deriving DecidableEq

/-- A path into a document. -/
abbrev Path (Key : Type) : Type := List (Step Key)

/-- What is at a place. -/
inductive Shape (Leaf : Type) where
  | absent
  | container
  | leaf (x : Leaf)
  deriving DecidableEq

variable {Key Leaf : Type}

/-! ### Reading -/

/-- The part of a document one step on. -/
def child : Document Key Leaf → Step Key → Option (Document Key Leaf)
  | .array elements, .index i => elements[i]?
  | .object members, .member k => members k
  | _, _ => none

/-- The part of a document at a path. -/
def get (d : Document Key Leaf) : Path Key → Option (Document Key Leaf)
  | [] => some d
  | s :: p =>
    match d.child s with
    | some c => c.get p
    | none => none

def top : Document Key Leaf → Shape Leaf
  | .leaf x => .leaf x
  | _ => .container

def shape (d : Document Key Leaf) (p : Path Key) : Shape Leaf :=
  match d.get p with
  | some c => c.top
  | none => .absent

/-- The leaf at a place, with the filler where there is none. -/
def Shape.scalar (filler : Leaf) : Shape Leaf → Leaf
  | .leaf x => x
  | _ => filler

@[simp] theorem shape_nil (d : Document Key Leaf) : d.shape [] = d.top := rfl

variable {d c e : Document Key Leaf}

theorem shape_cons_of_some {s : Step Key} (h : d.child s = some c)
    (p : Path Key) : d.shape (s :: p) = c.shape p := by
  simp only [shape, get, h]

theorem shape_cons_of_none {s : Step Key} (h : d.child s = none)
    (p : Path Key) : d.shape (s :: p) = .absent := by
  simp only [shape, get, h]

theorem shape_leaf_cons (x : Leaf) (s : Step Key) (p : Path Key) :
    (leaf x : Document Key Leaf).shape (s :: p) = .absent :=
  shape_cons_of_none (by cases s <;> rfl) p

theorem top_ne_absent (d : Document Key Leaf) : d.top ≠ .absent := by
  cases d <;> simp [top]

variable [DecidableEq Key] [DecidableEq Leaf] (filler : Leaf)

/-! ### Writing -/

/-- An array filled up to an index. -/
def pad (i : ℕ) (elements : List (Document Key Leaf)) : List (Document Key Leaf) :=
  elements ++ List.replicate (i + 1 - elements.length) (.leaf filler)

/-- The document made ready for a step. -/
def ready : Step Key → Document Key Leaf → Option (Document Key Leaf)
  | .index i, .array elements => some (.array (pad filler i elements))
  | .member _, .object members => some (.object members)
  | .index i, .leaf x => if x = filler then some (.array (pad filler i [])) else none
  | .member _, .leaf x => if x = filler then some (.object fun _ => none) else none
  | _, _ => none

/-- One part of a document replaced. -/
def replace (d : Document Key Leaf) (s : Step Key) (c : Document Key Leaf) : Document Key Leaf :=
  match d, s with
  | .array elements, .index i => .array (elements.set i c)
  | .object members, .member k => .object (Function.update members k (some c))
  | d, _ => d

/-- A leaf written at a path, by what it makes of the leaf that is there. -/
def put (new : Leaf → Leaf) : Path Key → Document Key Leaf → Option (Document Key Leaf)
  | [], d => some (.leaf (new (d.top.scalar filler)))
  | s :: p, d =>
    match ready filler s d with
    | none => none
    | some d' =>
      match put new p ((d'.child s).getD (.leaf filler)) with
      | none => none
      | some c => some (d'.replace s c)

/-- A value to be written at a path. -/
structure Write (Key α : Type) where
  path : Path Key
  value : α

variable {α : Type} (onto : α → Leaf → Leaf)

/-- The writes one after another.  `onto` says what a value makes of the leaf that is there. -/
def puts : List (Write Key α) → Document Key Leaf → Option (Document Key Leaf)
  | [], d => some d
  | w :: ws, d =>
    match put filler (onto w.value) w.path d with
    | none => none
    | some d' => puts ws d'

theorem puts_append (ws ws' : List (Write Key α)) (d : Document Key Leaf) :
    puts filler onto (ws ++ ws') d = (puts filler onto ws d).bind (puts filler onto ws') := by
  induction ws generalizing d with
  | nil => rfl
  | cons w ws ih =>
    simp only [cons_append, puts]
    cases put filler (onto w.value) w.path d with
    | none => rfl
    | some d' => exact ih d'

variable {filler} {onto}

variable {new : Leaf → Leaf} {p q : Path Key}

/-- **What a write inside a part does.** -/
theorem put_cons_eq_some_iff {s : Step Key} :
    put filler new (s :: p) d = some e ↔
      ∃ d' c, ready filler s d = some d' ∧
        put filler new p ((d'.child s).getD (.leaf filler)) = some c ∧ e = d'.replace s c := by
  rw [put]
  cases ready filler s d with
  | none => simp
  | some d' =>
    cases hput : put filler new p ((d'.child s).getD (.leaf filler)) with
    | none => simp [hput]
    | some c => simp [hput, eq_comm]

/-! ### One step -/

/-- An index below another: an array that is filled up to the other has it. -/
def precedes : Step Key → Step Key → Bool
  | .index j, .index i => j < i
  | _, _ => false

theorem precedes_self (s : Step Key) : precedes s s = false := by
  cases s with
  | member k => rfl
  | index i => exact decide_eq_false (Nat.lt_irrefl i)

omit [DecidableEq Key] [DecidableEq Leaf] in
theorem getElem?_pad (i j : ℕ) (elements : List (Document Key Leaf)) :
    (pad filler i elements)[j]? =
      if elements[j]? = none ∧ j ≤ i then some (.leaf filler) else elements[j]? := by
  rw [pad]
  by_cases hj : j < elements.length
  · have hsome : ¬elements[j]? = none := by simp [hj]
    rw [getElem?_append_left hj, if_neg fun h => hsome h.1]
  · have hnone : elements[j]? = none := getElem?_eq_none (Nat.le_of_not_lt hj)
    rw [getElem?_append_right (Nat.le_of_not_lt hj), getElem?_replicate, hnone]
    by_cases hji : j ≤ i
    · rw [if_pos (by omega), if_pos ⟨rfl, hji⟩]
    · rw [if_neg (by omega), if_neg fun h => hji h.2]

omit [DecidableEq Key] [DecidableEq Leaf] in
theorem lt_length_pad (i : ℕ) (elements : List (Document Key Leaf)) :
    i < (pad filler i elements).length := by
  rw [pad, length_append, length_replicate]
  omega

theorem ready_cases {s : Step Key} {d' : Document Key Leaf} (h : ready filler s d = some d') :
    (∃ i elements, s = .index i ∧ d' = .array (pad filler i elements) ∧
      (d = .array elements ∨ d = .leaf filler ∧ elements = [])) ∨
    ∃ k members, s = .member k ∧ d' = .object members ∧
      (d = .object members ∨ d = .leaf filler ∧ members = fun _ => none) := by
  cases s with
  | index i =>
    cases d with
    | array elements => exact .inl ⟨i, elements, rfl, (some.inj h).symm, .inl rfl⟩
    | object members => cases h
    | leaf x =>
      rw [ready] at h
      by_cases hx : x = filler
      · rw [if_pos hx] at h
        exact .inl ⟨i, [], rfl, (some.inj h).symm, .inr ⟨by rw [hx], rfl⟩⟩
      · rw [if_neg hx] at h
        cases h
  | member k =>
    cases d with
    | array elements => cases h
    | object members => exact .inr ⟨k, members, rfl, (some.inj h).symm, .inl rfl⟩
    | leaf x =>
      rw [ready] at h
      by_cases hx : x = filler
      · rw [if_pos hx] at h
        exact .inr ⟨k, fun _ => none, rfl, (some.inj h).symm, .inr ⟨by rw [hx], rfl⟩⟩
      · rw [if_neg hx] at h
        cases h

variable {s t : Step Key} {d d' : Document Key Leaf}

/-- Getting ready for a step adds the fillers before it. -/
theorem child_ready_of_ne (h : ready filler s d = some d') (hne : t ≠ s) :
    d'.child t =
      if d.child t = none ∧ precedes t s = true then some (.leaf filler) else d.child t := by
  rcases ready_cases h with ⟨i, elements, rfl, rfl, hd⟩ | ⟨k, members, rfl, rfl, hd⟩
  · have hchild : ∀ j, d.child (.index j) = elements[j]? := by
      intro j
      rcases hd with rfl | ⟨rfl, rfl⟩ <;> rfl
    have hmember : ∀ k, d.child (.member k) = none := by
      intro k
      rcases hd with rfl | ⟨rfl, rfl⟩ <;> rfl
    cases t with
    | index j =>
      have hji : j ≠ i := fun hji => hne (by rw [hji])
      have hlt : precedes (.index j : Step Key) (.index i) = true ↔ j < i := decide_eq_true_iff
      rw [hchild]
      refine (getElem?_pad i j elements).trans ?_
      by_cases hj : elements[j]? = none ∧ j < i
      · rw [if_pos ⟨hj.1, hj.2.le⟩, if_pos ⟨hj.1, hlt.2 hj.2⟩]
      · rw [if_neg fun h => hj ⟨h.1, lt_of_le_of_ne h.2 hji⟩, if_neg fun h => hj ⟨h.1, hlt.1 h.2⟩]
    | member k => rw [hmember, if_neg (fun h => by cases h.2)]; rfl
  · have hprecedes : precedes t (.member k) = false := by cases t <;> rfl
    rw [hprecedes, if_neg fun h => by cases h.2]
    rcases hd with rfl | ⟨rfl, rfl⟩
    · rfl
    · cases t <;> rfl

/-- Getting ready for a step leaves the parts, where one that is not there counts as the filler. -/
theorem getD_child_ready (h : ready filler s d = some d') (t : Step Key) :
    (d'.child t).getD (.leaf filler) = (d.child t).getD (.leaf filler) := by
  by_cases hts : t = s
  · subst hts
    rcases ready_cases h with ⟨i, elements, rfl, rfl, hd⟩ | ⟨k, members, rfl, rfl, hd⟩
    · have hchild : d.child (.index i) = elements[i]? := by
        rcases hd with rfl | ⟨rfl, rfl⟩ <;> rfl
      rw [hchild, child, getElem?_pad]
      cases elements[i]? with
      | none => rw [if_pos ⟨rfl, le_rfl⟩]; rfl
      | some c => rw [if_neg fun h => by cases h.1]
    · rcases hd with rfl | ⟨rfl, rfl⟩ <;> rfl
  · rw [child_ready_of_ne h hts]
    by_cases hnone : d.child t = none ∧ precedes t s = true
    · rw [if_pos hnone, hnone.1]
      rfl
    · rw [if_neg hnone]

theorem child_replace_self (h : ready filler s d = some d') (c : Document Key Leaf) :
    (d'.replace s c).child s = some c := by
  rcases ready_cases h with ⟨i, elements, rfl, rfl, -⟩ | ⟨k, members, rfl, rfl, -⟩
  · exact getElem?_set_self (lt_length_pad i elements)
  · exact Function.update_self ..

theorem child_replace_of_ne (hne : t ≠ s) (d c : Document Key Leaf) :
    (d.replace s c).child t = d.child t := by
  cases d with
  | leaf x => rfl
  | array elements =>
    cases s with
    | member k => rfl
    | index i =>
      cases t with
      | member k => rfl
      | index j => exact getElem?_set_ne fun hij => hne (by rw [hij])
  | object members =>
    cases s with
    | index i => rfl
    | member k =>
      cases t with
      | index i => rfl
      | member l => exact Function.update_of_ne (fun hkl => hne (by rw [hkl])) _ _

theorem top_replace (h : ready filler s d = some d') (c : Document Key Leaf) :
    (d'.replace s c).top = .container := by
  rcases ready_cases h with ⟨i, elements, rfl, rfl, -⟩ | ⟨k, members, rfl, rfl, -⟩ <;> rfl

theorem ready_replace_self (h : ready filler s d = some d') (c : Document Key Leaf) :
    ready filler s (d'.replace s c) = some (d'.replace s c) := by
  rcases ready_cases h with ⟨i, elements, rfl, rfl, -⟩ | ⟨k, members, rfl, rfl, -⟩
  · have hlength : i + 1 - ((pad filler i elements).set i c).length = 0 := by
      rw [length_set]
      exact Nat.sub_eq_zero_of_le (lt_length_pad i elements)
    rw [replace, ready, pad, hlength, replicate_zero, append_nil]
  · rfl

theorem replace_replace (d : Document Key Leaf) (s : Step Key) (c c' : Document Key Leaf) :
    (d.replace s c).replace s c' = d.replace s c' := by
  cases d with
  | leaf x => rfl
  | array elements =>
    cases s with
    | member k => rfl
    | index i => exact congrArg array (set_set ..)
  | object members =>
    cases s with
    | index i => rfl
    | member k => exact congrArg object (Function.update_idem ..)

/-! ### What a write does -/

/-- A write at the first path fills an array up to the second. -/
def fills : Path Key → Path Key → Bool
  | s :: p, t :: q => (q.isEmpty && precedes t s) || (s == t && fills p q)
  | _, _ => false

/-- What is at a path after a write. -/
def Shape.after (filler : Leaf) (new : Leaf → Leaf) (p q : Path Key) (x : Shape Leaf) :
    Shape Leaf :=
  if q = p then .leaf (new (x.scalar filler))
  else if q <+: p then .container
  else if p <+: q then .absent
  else if x = .absent ∧ fills p q = true then .leaf filler
  else x

theorem fills_cons_self (p q : Path Key) : fills (s :: p) (s :: q) = fills p q := by
  simp [fills, precedes_self]

theorem Shape.after_cons (new : Leaf → Leaf) (p q : Path Key) (x : Shape Leaf) :
    x.after filler new (s :: p) (s :: q) = x.after filler new p q := by
  simp only [Shape.after, List.cons.injEq, true_and, cons_prefix_cons, fills_cons_self]

/-- A part that is not there counts as the filler. -/
theorem Shape.after_filler (new : Leaf → Leaf) (p q : Path Key) :
    ((Document.leaf filler : Document Key Leaf).shape q).after filler new p q =
      Shape.absent.after filler new p q := by
  cases q with
  | cons t q => rw [shape_leaf_cons]
  | nil =>
    rw [shape_nil, top, Shape.after, Shape.after]
    by_cases hp : ([] : Path Key) = p
    · rw [if_pos hp, if_pos hp]
      rfl
    · rw [if_neg hp, if_neg hp, if_pos nil_prefix, if_pos nil_prefix]

/-- **What is at any path after a write**, from what was there before. -/
theorem shape_put (h : put filler new p d = some e) (q : Path Key) :
    e.shape q = (d.shape q).after filler new p q := by
  induction p generalizing d e q with
  | nil =>
    obtain rfl : leaf (new (d.top.scalar filler)) = e := some.inj h
    cases q with
    | nil => rfl
    | cons t q =>
      rw [shape_leaf_cons, Shape.after, if_neg (cons_ne_nil t q),
        if_neg fun hq => cons_ne_nil t q (prefix_nil.1 hq), if_pos nil_prefix]
  | cons s p ih =>
    obtain ⟨d', c, hready, hput, rfl⟩ := put_cons_eq_some_iff.1 h
    cases q with
    | nil =>
      rw [shape_nil, top_replace hready, Shape.after, if_neg (cons_ne_nil s p).symm,
        if_pos nil_prefix]
    | cons t q =>
      by_cases hts : t = s
      · subst hts
        rw [shape_cons_of_some (child_replace_self hready c), ih hput, getD_child_ready hready,
          Shape.after_cons]
        cases hchild : d.child t with
        | some b => rw [shape_cons_of_some hchild]; rfl
        | none => rw [shape_cons_of_none hchild]; exact Shape.after_filler new p q
      · -- beside the step, only fillers are added
        have hafter : ∀ x : Shape Leaf, x.after filler new (s :: p) (t :: q) =
            if x = .absent ∧ q = [] ∧ precedes t s = true then .leaf filler else x := by
          intro x
          have hfills : fills (s :: p) (t :: q) = true ↔ q = [] ∧ precedes t s = true := by
            simp [fills, Ne.symm hts]
          rw [Shape.after, if_neg fun h => hts (List.cons.inj h).1,
            if_neg fun h => hts (cons_prefix_cons.1 h).1,
            if_neg fun h => hts (cons_prefix_cons.1 h).1.symm]
          simp only [hfills]
        have hbeside := (child_replace_of_ne hts d' c).trans (child_ready_of_ne hready hts)
        rw [hafter]
        cases hchild : d.child t with
        | some b =>
          rw [hchild, if_neg fun h => by cases h.1] at hbeside
          have hb : d.shape (t :: q) = .absent → ¬q = [] := by
            rintro habsent rfl
            rw [shape_cons_of_some hchild, shape_nil] at habsent
            exact top_ne_absent b habsent
          rw [shape_cons_of_some hbeside, ← shape_cons_of_some hchild, if_neg fun h => hb h.1 h.2.1]
        | none =>
          rw [hchild] at hbeside
          rw [shape_cons_of_none hchild]
          by_cases hprecedes : precedes t s = true
          · rw [if_pos ⟨rfl, hprecedes⟩] at hbeside
            rw [shape_cons_of_some hbeside]
            cases q with
            | nil => rw [if_pos ⟨rfl, rfl, hprecedes⟩]; rfl
            | cons u q => rw [shape_leaf_cons, if_neg fun h => by cases h.2.1]
          · rw [if_neg fun h => hprecedes h.2] at hbeside
            rw [shape_cons_of_none hbeside, if_neg fun h => hprecedes h.2.2]

/-! ### Unrelated writes -/

/-- Neither path leads to or through the other. -/
def Unrelated (p q : Path Key) : Prop := ¬p <+: q ∧ ¬q <+: p

instance (p q : Path Key) : Decidable (Unrelated p q) := inferInstanceAs (Decidable (_ ∧ _))

theorem Unrelated.symm (h : Unrelated p q) : Unrelated q p := ⟨h.2, h.1⟩

theorem getElem?_pad_set (i k : ℕ) (elements : List (Document Key Leaf))
    (c : Document Key Leaf) :
    ((pad filler i elements).set i c)[k]? =
      if k = i then some c
      else if elements[k]? = none ∧ k ≤ i then some (.leaf filler) else elements[k]? := by
  by_cases hk : k = i
  · subst hk
    rw [if_pos rfl, getElem?_set_self (lt_length_pad k elements)]
  · rw [if_neg hk, getElem?_set_ne (Ne.symm hk), getElem?_pad]

/-- Two elements set in either order. -/
theorem pad_set_comm {i j : ℕ} (hij : i ≠ j) (elements : List (Document Key Leaf))
    (c c' : Document Key Leaf) :
    (pad filler i ((pad filler j elements).set j c')).set i c =
      (pad filler j ((pad filler i elements).set i c)).set j c' := by
  refine ext_getElem? fun k => ?_
  simp only [getElem?_pad_set]
  by_cases hi : k = i
  · have hj : k ≠ j := fun hj => hij (hi.symm.trans hj)
    simp [hi, hj, hij]
  · by_cases hj : k = j
    · simp [hj, Ne.symm hij]
    · cases elements[k]? with
      | some b => simp [hi, hj]
      | none => by_cases hki : k ≤ i <;> by_cases hkj : k ≤ j <;> simp [hi, hj, hki, hkj]

/-- Two parts set in either order. -/
theorem ready_replace_comm {e' : Document Key Leaf} (hs : ready filler s d = some d')
    (ht : ready filler t (d'.replace s c) = some e') (hne : t ≠ s) (c' : Document Key Leaf) :
    ∃ b' a', ready filler t d = some b' ∧ ready filler s (b'.replace t c') = some a' ∧
      a'.replace s c = e'.replace t c' := by
  rcases ready_cases hs with ⟨i, elements, rfl, rfl, hd⟩ | ⟨k, members, rfl, rfl, hd⟩
  · cases t with
    | member l => cases ht
    | index j =>
      obtain rfl := some.inj ht
      have hij : i ≠ j := fun h => hne (by rw [h])
      refine ⟨.array (pad filler j elements), _, ?_, rfl, ?_⟩
      · rcases hd with rfl | ⟨rfl, rfl⟩
        · rfl
        · exact if_pos rfl
      · exact congrArg array (pad_set_comm hij elements c c')
  · cases t with
    | index j => cases ht
    | member l =>
      obtain rfl := some.inj ht
      have hkl : k ≠ l := fun h => hne (by rw [h])
      refine ⟨.object members, _, ?_, rfl, ?_⟩
      · rcases hd with rfl | ⟨rfl, rfl⟩
        · rfl
        · exact if_pos rfl
      · exact congrArg object (Function.update_comm hkl.symm _ _ members)

/-- **Writes at unrelated paths commute.** -/
theorem put_comm {new' : Leaf → Leaf} (h : Unrelated p q)
    {f : Document Key Leaf} (hp : put filler new p d = some e) (hq : put filler new' q e = some f) :
    ∃ e', put filler new' q d = some e' ∧ put filler new p e' = some f := by
  induction p generalizing q d e f with
  | nil => exact absurd nil_prefix h.1
  | cons s p ih =>
    cases q with
    | nil => exact absurd nil_prefix h.2
    | cons t q =>
      obtain ⟨d', c, hready, hput, rfl⟩ := put_cons_eq_some_iff.1 hp
      obtain ⟨e', c', hready', hput', rfl⟩ := put_cons_eq_some_iff.1 hq
      by_cases hts : t = s
      · subst hts
        have hpq : Unrelated p q := ⟨fun hpq => h.1 (cons_prefix_cons.2 ⟨rfl, hpq⟩),
          fun hqp => h.2 (cons_prefix_cons.2 ⟨rfl, hqp⟩)⟩
        obtain rfl := some.inj ((ready_replace_self hready c).symm.trans hready')
        rw [child_replace_self hready, getD_some] at hput'
        obtain ⟨b, hb, hb'⟩ := ih hpq hput hput'
        refine ⟨d'.replace t b, put_cons_eq_some_iff.2 ⟨d', b, hready, hb, rfl⟩,
          put_cons_eq_some_iff.2 ⟨_, c', ready_replace_self hready b, ?_, ?_⟩⟩
        · rwa [child_replace_self hready, getD_some]
        · rw [replace_replace, replace_replace]
      · rw [getD_child_ready hready', child_replace_of_ne hts, getD_child_ready hready] at hput'
        rw [getD_child_ready hready] at hput
        obtain ⟨b', a', hb', ha', heq⟩ := ready_replace_comm hready hready' hts c'
        refine ⟨b'.replace t c', put_cons_eq_some_iff.2 ⟨b', c', hb', ?_, rfl⟩,
          put_cons_eq_some_iff.2 ⟨a', c, ha', ?_, heq.symm⟩⟩
        · rwa [getD_child_ready hb']
        · rwa [getD_child_ready ha', child_replace_of_ne (Ne.symm hts), getD_child_ready hb']

variable {ws ws' : List (Write Key α)}

/-- **The order of unrelated writes does not matter.** -/
theorem puts_perm (h : ws.Perm ws') (hws : ws.Pairwise fun w w' => Unrelated w.path w'.path)
    (hputs : puts filler onto ws d = some e) : puts filler onto ws' d = some e := by
  induction h generalizing d with
  | nil => exact hputs
  | cons w _ ih =>
    rw [puts] at hputs ⊢
    rcases hput : put filler (onto w.value) w.path d with _ | d'
    · rw [hput] at hputs; cases hputs
    rw [hput] at hputs
    exact ih (pairwise_cons.1 hws).2 hputs
  | swap w w' ws =>
    have hunrelated : Unrelated w'.path w.path :=
      (pairwise_cons.1 hws).1 w mem_cons_self
    simp only [puts] at hputs ⊢
    rcases hput : put filler (onto w'.value) w'.path d with _ | d'
    · rw [hput] at hputs; cases hputs
    rw [hput] at hputs
    rcases hput' : put filler (onto w.value) w.path d' with _ | d''
    · simp only [hput'] at hputs; cases hputs
    simp only [hput'] at hputs
    obtain ⟨e', he', he''⟩ := put_comm hunrelated hput hput'
    simpa only [he', he''] using hputs
  | trans hl _ ih ih' =>
    have hsymm : ∀ {w w' : Write Key α}, Unrelated w.path w'.path →
        Unrelated w'.path w.path := fun h => h.symm
    exact ih' (hl.pairwise hws hsymm) (ih hws hputs)

/-! ### What was written at a path -/

/-- The writes at a path since the last one at another path above or below it, where the last write
comes first. -/
def own (q : Path Key) : List (Write Key α) → List α
  | [] => []
  | w :: ws =>
    if w.path = q then w.value :: own q ws
    else if w.path <+: q ∨ q <+: w.path then []
    else own q ws

/-- What values make of the filler, where the last value comes first. -/
def overlay (filler : Leaf) (onto : α → Leaf → Leaf) (values : List α) : Leaf :=
  values.foldr onto filler

/-- **The document holds what was written**, where the last write comes first.  A path without a
write of its own has no leaf, or a filler that a write put there. -/
structure Recorded (filler : Leaf) (onto : α → Leaf → Leaf) (d : Document Key Leaf)
    (ws : List (Write Key α)) : Prop where
  written : ∀ q, own q ws ≠ [] → d.shape q = .leaf (overlay filler onto (own q ws))
  unwritten : ∀ q x, own q ws = [] → d.shape q = .leaf x →
    x = filler ∧ ∃ w ∈ ws, fills w.path q = true

theorem Recorded.scalar (h : Recorded filler onto d ws) (q : Path Key) :
    (d.shape q).scalar filler = overlay filler onto (own q ws) := by
  by_cases hown : own q ws = []
  · rw [hown]
    cases hshape : d.shape q with
    | absent | container => rfl
    | leaf x => exact (h.unwritten q x hown hshape).1
  · rw [h.written q hown]
    rfl

/-- **A write keeps the record.** -/
theorem Recorded.put (h : Recorded filler onto d ws) {w : Write Key α}
    (hput : Document.put filler (onto w.value) w.path d = some e) :
    Recorded filler onto e (w :: ws) := by
  have hshape := shape_put hput
  constructor
  · intro q hown
    rw [hshape q, Shape.after]
    rw [own] at hown ⊢
    by_cases hq : w.path = q
    · rw [if_pos hq, if_pos hq.symm, h.scalar q]
      rfl
    · rw [if_neg hq] at hown ⊢
      by_cases hrelated : w.path <+: q ∨ q <+: w.path
      · exact absurd (if_pos hrelated) hown
      · rw [if_neg hrelated] at hown ⊢
        rw [if_neg (Ne.symm hq), if_neg fun h => hrelated (.inr h),
          if_neg fun h => hrelated (.inl h), h.written q hown, if_neg fun h => by cases h.1]
  · intro q x hown hx
    rw [hshape q, Shape.after] at hx
    rw [own] at hown
    by_cases hq : w.path = q
    · rw [if_pos hq] at hown
      cases hown
    · rw [if_neg (Ne.symm hq)] at hx
      by_cases habove : q <+: w.path
      · rw [if_pos habove] at hx
        cases hx
      · rw [if_neg habove] at hx
        by_cases hbelow : w.path <+: q
        · rw [if_pos hbelow] at hx
          cases hx
        · rw [if_neg hbelow] at hx
          rw [if_neg hq, if_neg (not_or.2 ⟨hbelow, habove⟩)] at hown
          by_cases hfills : d.shape q = .absent ∧ fills w.path q = true
          · rw [if_pos hfills] at hx
            exact ⟨(Shape.leaf.inj hx).symm, w, mem_cons_self, hfills.2⟩
          · rw [if_neg hfills] at hx
            obtain ⟨rfl, w', hw', hfills'⟩ := h.unwritten q x hown hx
            exact ⟨rfl, w', mem_cons_of_mem w hw', hfills'⟩

/-- **A run of writes keeps the record.** -/
theorem Recorded.puts (h : Recorded filler onto d ws)
    (hputs : Document.puts filler onto ws' d = some e) :
    Recorded filler onto e (ws'.reverse ++ ws) := by
  induction ws' generalizing d ws with
  | nil =>
    obtain rfl := some.inj hputs
    exact h
  | cons w ws' ih =>
    rw [Document.puts] at hputs
    rcases hput : Document.put filler (onto w.value) w.path d with _ | d'
    · rw [hput] at hputs; cases hputs
    rw [hput] at hputs
    rw [reverse_cons, append_assoc]
    exact ih (h.put hput) hputs

theorem recorded_empty (filler : Leaf) (onto : α → Leaf → Leaf) :
    Recorded filler onto (object fun _ => none : Document Key Leaf) [] := by
  refine ⟨fun q hq => absurd rfl hq, fun q x _ hx => ?_⟩
  cases q with
  | nil => cases hx
  | cons s q =>
    rw [shape_cons_of_none (by cases s <;> rfl)] at hx
    cases hx

/-! ### Places -/

/-- All places of the document have steps of a kind. -/
def Within (B : Step Key → Prop) (d : Document Key Leaf) : Prop :=
  ∀ q, d.shape q ≠ .absent → ∀ s ∈ q, B s

theorem forall_of_fills {B : Step Key → Prop}
    (hB : ∀ i j, j < i → B (.index i) → B (.index j)) (hp : ∀ s ∈ p, B s)
    (h : fills p q = true) : ∀ s ∈ q, B s := by
  induction p generalizing q with
  | nil => cases h
  | cons s p ih =>
    cases q with
    | nil => cases h
    | cons t q =>
      have hs := hp s mem_cons_self
      rw [fills, Bool.or_eq_true, Bool.and_eq_true, Bool.and_eq_true, List.isEmpty_iff,
        beq_iff_eq] at h
      rw [forall_mem_cons]
      rcases h with ⟨rfl, hprecedes⟩ | ⟨rfl, hfills⟩
      · refine ⟨?_, fun _ h => absurd h not_mem_nil⟩
        cases s with
        | member k => cases t <;> cases hprecedes
        | index i =>
          cases t with
          | member k => cases hprecedes
          | index j => exact hB i j (of_decide_eq_true hprecedes) hs
      · exact ⟨hs, ih (fun u hu => hp u (mem_cons_of_mem s hu)) hfills⟩

/-- **A write along steps of a kind adds no other places.** -/
theorem Within.put {B : Step Key → Prop} (hB : ∀ i j, j < i → B (.index i) → B (.index j))
    (h : Within B d) (hp : ∀ s ∈ p, B s)
    (hput : Document.put filler new p d = some e) : Within B e := by
  intro q hq
  rw [shape_put hput q, Shape.after] at hq
  by_cases hqp : q = p
  · rwa [hqp]
  · rw [if_neg hqp] at hq
    by_cases habove : q <+: p
    · exact fun s hs => hp s (habove.subset hs)
    · rw [if_neg habove] at hq
      by_cases hbelow : p <+: q
      · rw [if_pos hbelow] at hq
        exact absurd rfl hq
      · rw [if_neg hbelow] at hq
        by_cases hfills : d.shape q = .absent ∧ fills p q = true
        · exact forall_of_fills hB hp hfills.2
        · rw [if_neg hfills] at hq
          exact h q hq

/-- **A run of writes along steps of a kind adds no other places.** -/
theorem Within.puts {B : Step Key → Prop} (hB : ∀ i j, j < i → B (.index i) → B (.index j))
    (h : Within B d) (hws : ∀ w ∈ ws, ∀ s ∈ w.path, B s)
    (hputs : Document.puts filler onto ws d = some e) : Within B e := by
  induction ws generalizing d with
  | nil =>
    obtain rfl := some.inj hputs
    exact h
  | cons w ws ih =>
    rw [Document.puts] at hputs
    rcases hput : Document.put filler (onto w.value) w.path d with _ | d'
    · rw [hput] at hputs; cases hputs
    rw [hput] at hputs
    exact ih (h.put hB (hws w mem_cons_self) hput)
      (fun w' hw' => hws w' (mem_cons_of_mem w hw')) hputs

theorem within_empty (B : Step Key → Prop) :
    Within B (object fun _ => none : Document Key Leaf) := by
  intro q hq
  cases q with
  | nil => exact fun s hs => absurd hs not_mem_nil
  | cons s q => exact absurd (shape_cons_of_none (by cases s <;> rfl) q) hq

/-- A write below the root of an object leaves an object. -/
theorem put_object (hp : p ≠ []) {members : Key → Option (Document Key Leaf)}
    (h : put filler new p (.object members) = some e) : ∃ members', e = .object members' := by
  cases p with
  | nil => exact absurd rfl hp
  | cons s p =>
    obtain ⟨d', c, hready, -, rfl⟩ := put_cons_eq_some_iff.1 h
    cases s with
    | index i => cases hready
    | member k =>
      obtain rfl := some.inj hready
      exact ⟨_, rfl⟩

end Document

end NexusTok
