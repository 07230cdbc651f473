import Mathlib.Logic.Function.Basic
import NexusTok.Convert.Responses

/-!
# Well-formed Responses streams

A client of a Responses stream follows `response.created`, output items that are added, extended and
done, and one terminal event.

* `ResponsesClient` : where a client stands: the items that are open, the next output index, the
  next sequence number.
* `WellFormedStream` : all events are accepted and the last one is terminal.
* `ResponsesClient.Shows` : the client of a producer that keeps its items in a list, at the places of
  their output indexes, and knows which of them are open.
-/

namespace NexusTok.Convert

open List Function

variable {J U R : Type}

structure ResponsesClient where
  /-- The events carry sequence numbers. -/
  numbered : Bool
  /-- The next sequence number. -/
  sequence : Nat := 0
  created : Bool := false
  /-- The next output index. -/
  next : Nat := 0
  /-- The output indexes of the open items. -/
  opened : List Int := []
  ended : Bool := false
deriving DecidableEq, Repr

namespace ResponsesClient

/-- The step of a client for an event with the right sequence number, by its type. -/
def follow (c : ResponsesClient) (e : ResponsesStreamResponse J U) : Option ResponsesClient :=
  match e.type with
  | "response.created" => if c.created then none else some { c with created := true }
  | "response.output_item.added" =>
    if c.created ∧ e.outputIndex = some (c.next : Int) then
      some { c with next := c.next + 1, opened := c.next :: c.opened }
    else none
  | "response.output_item.done" =>
    match e.outputIndex with
    | some i =>
      if c.created ∧ i ∈ c.opened then some { c with opened := c.opened.filter (· ≠ i) } else none
    | none => none
  | "error" => if c.created then some c else none
  | "response.completed" | "response.incomplete" | "response.failed" =>
    if c.created ∧ c.opened = [] then some { c with ended := true } else none
  | _ =>
    match e.outputIndex with
    | some i => if c.created ∧ i ∈ c.opened then some c else none
    | none => none

/-- One event; after a terminal event there is none. -/
def accept (c : ResponsesClient) (e : ResponsesStreamResponse J U) : Option ResponsesClient :=
  if c.ended then none
  else if e.sequenceNumber = if c.numbered then some c.sequence else none then
    follow { c with sequence := if c.numbered then c.sequence + 1 else c.sequence } e
  else none

/-- The events one after the other. -/
def run (c : ResponsesClient) (es : List (ResponsesStreamResponse J U)) : Option ResponsesClient :=
  es.foldlM accept c

@[simp] theorem run_nil (c : ResponsesClient) :
    c.run ([] : List (ResponsesStreamResponse J U)) = some c := rfl

theorem run_cons (c : ResponsesClient) (e : ResponsesStreamResponse J U)
    (es : List (ResponsesStreamResponse J U)) :
    c.run (e :: es) = (c.accept e).bind fun c' => c'.run es := rfl

theorem run_append {c c' : ResponsesClient} {es es' : List (ResponsesStreamResponse J U)}
    (h : c.run es = some c') : c.run (es ++ es') = c'.run es' := by
  rw [run, foldlM_append, ← run, h]
  rfl

/-- The types of events that are not about an open item. -/
def specialTypes : List String :=
  ["response.created", "response.output_item.added", "response.output_item.done", "error",
    "response.completed", "response.incomplete", "response.failed"]

theorem follow_other (c : ResponsesClient) {e : ResponsesStreamResponse J U}
    (he : e.type ∉ specialTypes) {i : Int} (hi : e.outputIndex = some i) :
    c.follow e = if c.created ∧ i ∈ c.opened then some c else none := by
  simp only [specialTypes, mem_cons, not_mem_nil, or_false, not_or] at he
  obtain ⟨h₁, h₂, h₃, h₄, h₅, h₆, h₇⟩ := he
  unfold follow
  split <;> simp_all

/-- **The client of a producer** with the items `order`, of which those with `isOpen` are open. -/
structure Shows (c : ResponsesClient) (created numbered : Bool) (sequence : Nat) (order : List R)
    (isOpen : R → Bool) : Prop where
  ended : c.ended = false
  created : c.created = created
  numbered : c.numbered = numbered
  sequence : c.sequence = sequence
  next : c.next = order.length
  opened : ∀ i : Int, i ∈ c.opened ↔
    ∃ (k : Nat) (r : R), order[k]? = some r ∧ isOpen r = true ∧ i = k

variable {c : ResponsesClient} {created numbered : Bool} {sequence : Nat} {order : List R}
  {isOpen : R → Bool} {e : ResponsesStreamResponse J U}

/-- The sequence number of the next event. -/
def Numbers (e : ResponsesStreamResponse J U) (numbered : Bool) (sequence : Nat) : Prop :=
  e.sequenceNumber = if numbered then some sequence else none

/-- The sequence number after an event. -/
def after (numbered : Bool) (sequence : Nat) : Nat := if numbered then sequence + 1 else sequence

theorem Shows.accept_eq (h : c.Shows created numbered sequence order isOpen)
    (he : Numbers e numbered sequence) :
    c.accept e = follow { c with sequence := after numbered sequence } e := by
  have hn := h.numbered
  have hs := h.sequence
  subst hn hs
  unfold Numbers at he
  unfold accept
  rw [h.ended, if_neg Bool.false_ne_true, if_pos he]
  rfl

theorem Shows.step (h : c.Shows created numbered sequence order isOpen) :
    ({ c with sequence := after numbered sequence } : ResponsesClient).Shows created numbered
      (after numbered sequence) order isOpen :=
  ⟨h.ended, h.created, h.numbered, rfl, h.next, h.opened⟩

theorem Shows.accept_created (h : c.Shows false numbered sequence order isOpen)
    (he : Numbers e numbered sequence) (ht : e.type = "response.created") :
    ∃ c', c.accept e = some c' ∧ c'.Shows true numbered (after numbered sequence) order isOpen := by
  have hc := h.created
  refine ⟨{ c with sequence := after numbered sequence, created := true }, ?_, h.ended, rfl,
    h.numbered, rfl, h.next, h.opened⟩
  rw [h.accept_eq he]
  simp [follow, ht, hc]

section

variable (h : c.Shows true numbered sequence order isOpen)
include h

theorem Shows.accept_item
    (he : Numbers e numbered sequence) (ht : e.type ∉ specialTypes) {k : Nat} {r : R}
    (hk : order[k]? = some r) (hr : isOpen r = true) (hi : e.outputIndex = some (k : Int)) :
    ∃ c', c.accept e = some c' ∧ c'.Shows true numbered (after numbered sequence) order isOpen := by
  have hmem : (k : Int) ∈ c.opened := (h.opened k).2 ⟨k, r, hk, hr, rfl⟩
  refine ⟨_, ?_, h.step⟩
  rw [h.accept_eq he, follow_other _ ht hi, if_pos ⟨h.created, hmem⟩]

theorem Shows.accept_added [DecidableEq R]
    (he : Numbers e numbered sequence) (ht : e.type = "response.output_item.added") {r : R}
    (hr : r ∉ order) (hi : e.outputIndex = some (order.length : Int)) :
    ∃ c', c.accept e = some c' ∧ c'.Shows true numbered (after numbered sequence) (order ++ [r])
      (Function.update isOpen r true) := by
  refine ⟨{ c with
    sequence := after numbered sequence
    next := c.next + 1
    opened := c.next :: c.opened }, ?_, h.ended, h.created, h.numbered, rfl, ?_, fun i => ?_⟩
  · rw [h.accept_eq he]
    simp [follow, ht, h.created, hi, h.next]
  · simp [h.next]
  · rw [mem_cons, h.opened, h.next]
    constructor
    · rintro (rfl | ⟨k, r', hk, hr', rfl⟩)
      · exact ⟨order.length, r, by simp, by simp, rfl⟩
      · have hne : r' ≠ r := by
          rintro rfl
          exact hr (mem_of_getElem? hk)
        refine ⟨k, r', ?_, ?_, rfl⟩
        · rw [List.getElem?_append_left (List.getElem?_eq_some_iff.1 hk).1, hk]
        · rw [update_of_ne hne, hr']
    · rintro ⟨k, r', hk, hr', rfl⟩
      rcases Nat.lt_or_ge k order.length with hlt | hge
      · rw [getElem?_append_left hlt] at hk
        have hne : r' ≠ r := by
          rintro rfl
          exact hr (mem_of_getElem? hk)
        rw [update_of_ne hne] at hr'
        exact .inr ⟨k, r', hk, hr', rfl⟩
      · have := (List.getElem?_eq_some_iff.1 hk).1
        simp only [length_append, length_singleton] at this
        exact .inl (by omega)

theorem Shows.accept_done [DecidableEq R] (hnodup : order.Nodup) (he : Numbers e numbered sequence)
    (ht : e.type = "response.output_item.done") {k : Nat} {r : R} (hk : order[k]? = some r)
    (hr : isOpen r = true) (hi : e.outputIndex = some (k : Int)) :
    ∃ c', c.accept e = some c' ∧ c'.Shows true numbered (after numbered sequence) order
      (Function.update isOpen r false) := by
  have hmem : (k : Int) ∈ c.opened := (h.opened k).2 ⟨k, r, hk, hr, rfl⟩
  refine ⟨{ c with
    sequence := after numbered sequence
    opened := c.opened.filter (· ≠ (k : Int)) }, ?_, h.ended, h.created, h.numbered, rfl, h.next,
    fun i => ?_⟩
  · rw [h.accept_eq he]
    simp [follow, ht, h.created, hi, hmem]
  · rw [mem_filter, h.opened]
    constructor
    · rintro ⟨⟨k', r', hk', hr', rfl⟩, hne⟩
      have hkk : k' ≠ k := by
        rintro rfl
        simp at hne
      have hrr : r' ≠ r := by
        rintro rfl
        refine hkk ((getElem?_inj ?_ hnodup).1 (hk'.trans hk.symm))
        exact (List.getElem?_eq_some_iff.1 hk').1
      exact ⟨k', r', hk', by rw [update_of_ne hrr, hr'], rfl⟩
    · rintro ⟨k', r', hk', hr', rfl⟩
      have hrr : r' ≠ r := by
        rintro rfl
        rw [update_self] at hr'
        cases hr'
      rw [update_of_ne hrr] at hr'
      refine ⟨⟨k', r', hk', hr', rfl⟩, ?_⟩
      have hkk : k' ≠ k := by
        rintro rfl
        rw [hk] at hk'
        exact hrr (Option.some.inj hk').symm
      have hcast : (k' : Int) ≠ k := by omega
      simpa using hcast

theorem Shows.accept_error (he : Numbers e numbered sequence) (ht : e.type = "error") :
    ∃ c', c.accept e = some c' ∧ c'.Shows true numbered (after numbered sequence) order isOpen := by
  refine ⟨_, ?_, h.step⟩
  rw [h.accept_eq he]
  simp [follow, ht, h.created]

/-- A terminal event, when no item is open. -/
theorem Shows.accept_terminal (he : Numbers e numbered sequence)
    (ht : e.type ∈ ["response.completed", "response.incomplete", "response.failed"])
    (hclosed : ∀ r ∈ order, isOpen r = false) : ∃ c', c.accept e = some c' ∧ c'.ended = true := by
  have hnone : c.opened = [] := by
    rw [eq_nil_iff_forall_not_mem]
    intro i hi
    obtain ⟨k, r, hk, hr, -⟩ := (h.opened i).1 hi
    rw [hclosed r (mem_of_getElem? hk)] at hr
    cases hr
  refine ⟨{ c with sequence := after numbered sequence, ended := true }, ?_, rfl⟩
  rw [h.accept_eq he]
  simp only [mem_cons, not_mem_nil, or_false] at ht
  rcases ht with ht | ht | ht <;> simp [follow, ht, h.created, hnone]

end

end ResponsesClient

/-- **A well-formed Responses stream**: `response.created` first and once, every output index from
`0` on added once, done once, and mentioned only in between, the sequence numbers from `0` on if
there are any, and one terminal event, the last one. -/
def WellFormedStream (numbered : Bool) (es : List (ResponsesStreamResponse J U)) : Prop :=
  ∃ c, ({ numbered := numbered } : ResponsesClient).run es = some c ∧ c.ended = true

end NexusTok.Convert
