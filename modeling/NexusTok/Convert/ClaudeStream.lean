import Mathlib.Logic.Function.Basic
import NexusTok.Convert.Claude

/-!
# Legal Claude streams

A client of a Claude stream follows `message_start`, blocks that are started, extended by deltas of
their kind and stopped, `message_delta`, `message_stop`.

* `ClaudeClient` : where a client stands: the stage, the open blocks, the block indexes used.
* `ClaudeClient.accept` : one event, `none` if it is illegal.
* `LegalStream` : all events are accepted and the last one is `message_stop`.
-/

namespace NexusTok.Convert

open List

variable {J C : Type}

/-- How far the stream is. -/
inductive ClaudeStage
  | before
  | during
  | ending
  | stopped
deriving DecidableEq, Repr

structure ClaudeClient where
  stage : ClaudeStage := .before
  /-- The open blocks, with their types. -/
  opened : List (Int × String) := []
  /-- The indexes of all blocks. -/
  used : List Int := []
deriving DecidableEq, Repr

/-- The deltas that belong to a block of a type. -/
def deltaFits (blockType deltaType : String) : Bool :=
  match blockType with
  | "text" => deltaType == "text_delta" || deltaType == "citations_delta"
  | "thinking" => deltaType == "thinking_delta" || deltaType == "signature_delta"
  | "tool_use" => deltaType == "input_json_delta"
  | _ => false

namespace ClaudeClient

/-- The block `i` is started. -/
def start (c : ClaudeClient) (i : Int) (blockType : String) : Option ClaudeClient :=
  if c.stage = .during ∧ i ∉ c.used then
    some { c with opened := (i, blockType) :: c.opened, used := i :: c.used }
  else none

/-- The block `i` gets a delta. -/
def delta (c : ClaudeClient) (i : Int) (deltaType : String) : Option ClaudeClient :=
  match c.opened.lookup i with
  | some blockType => if c.stage = .during ∧ deltaFits blockType deltaType then some c else none
  | none => none

/-- The block `i` is stopped. -/
def stop (c : ClaudeClient) (i : Int) : Option ClaudeClient :=
  match c.opened.lookup i with
  | some _ =>
    if c.stage = .during then some { c with opened := c.opened.filter (·.1 != i) } else none
  | none => none

def accept (c : ClaudeClient) (e : ClaudeResponse J C) : Option ClaudeClient :=
  match e.type with
  | "message_start" => if c.stage = .before then some { c with stage := .during } else none
  | "content_block_start" =>
    match e.index, e.contentBlock with
    | some i, some block => c.start i block.type
    | _, _ => none
  | "content_block_delta" =>
    match e.index, e.delta with
    | some i, some delta => c.delta i delta.type
    | _, _ => none
  | "content_block_stop" =>
    match e.index with
    | some i => c.stop i
    | none => none
  | "message_delta" =>
    if c.stage = .during ∧ c.opened = [] then some { c with stage := .ending } else none
  | "message_stop" => if c.stage = .ending then some { c with stage := .stopped } else none
  | _ => none

/-- The events one after the other. -/
def run (c : ClaudeClient) (es : List (ClaudeResponse J C)) : Option ClaudeClient :=
  es.foldlM accept c

@[simp] theorem run_nil (c : ClaudeClient) : c.run ([] : List (ClaudeResponse J C)) = some c := rfl

theorem run_cons (c : ClaudeClient) (e : ClaudeResponse J C) (es : List (ClaudeResponse J C)) :
    c.run (e :: es) = (c.accept e).bind fun c' => c'.run es := rfl

theorem run_append {c c' : ClaudeClient} {es es' : List (ClaudeResponse J C)}
    (h : c.run es = some c') : c.run (es ++ es') = c'.run es' := by
  rw [run, foldlM_append, ← run, h]
  rfl

/-- Where a client stands in the middle of a message: the open blocks by their indexes, and the
indexes used. -/
structure At (c : ClaudeClient) (blocks : Int → Option String) (used : Int → Prop) : Prop where
  stage : c.stage = .during
  opened : ∀ i, c.opened.lookup i = blocks i
  used : ∀ i ∈ c.used, used i

variable {c : ClaudeClient} {blocks : Int → Option String} {used : Int → Prop}

theorem At.imp (h : c.At blocks used) {used' : Int → Prop} (hu : ∀ i, used i → used' i) :
    c.At blocks used' :=
  ⟨h.stage, h.opened, fun i hi => hu i (h.used i hi)⟩

theorem At.start (h : c.At blocks used) {i : Int} (hi : ¬used i)
    (block : ClaudeMediaMessage J C) :
    ∃ c', c.accept ({ type := "content_block_start", index := some i
                      contentBlock := some block } : ClaudeResponse J C) = some c' ∧
      c'.At (Function.update blocks i (some block.type)) (fun j => used j ∨ j = i) := by
  refine ⟨{ c with opened := (i, block.type) :: c.opened, used := i :: c.used }, ?_, h.stage, ?_,
    ?_⟩
  · have hu : i ∉ c.used := fun hm => hi (h.used i hm)
    simp [accept, ClaudeClient.start, h.stage, hu]
  · intro j
    rw [lookup_cons]
    by_cases hj : j = i
    · subst hj
      simp
    · have hne : (j == i) = false := by simpa using hj
      rw [hne, Function.update_of_ne hj]
      exact h.opened j
  · intro j hj
    rcases mem_cons.1 hj with rfl | hj
    · exact .inr rfl
    · exact .inl (h.used j hj)

theorem At.delta (h : c.At blocks used) {i : Int} {blockType : String}
    (hi : blocks i = some blockType) (d : ClaudeMediaMessage J C)
    (hd : deltaFits blockType d.type = true) :
    c.accept ({ type := "content_block_delta", index := some i, delta := some d } :
      ClaudeResponse J C) = some c := by
  simp [accept, ClaudeClient.delta, h.opened, hi, h.stage, hd]

theorem lookup_filter (l : List (Int × String)) (i j : Int) :
    (l.filter (·.1 != i)).lookup j = if j = i then none else l.lookup j := by
  induction l with
  | nil => simp
  | cons p l ih =>
    by_cases hp : p.1 = i
    · rw [filter_cons_of_neg (by simp [hp]), ih]
      by_cases hj : j = i
      · rw [if_pos hj, if_pos hj]
      · have hne : (j == p.1) = false := by rw [hp]; simpa using hj
        rw [if_neg hj, if_neg hj, lookup_cons, hne]
    · rw [filter_cons_of_pos (by simp [hp]), lookup_cons, lookup_cons, ih]
      by_cases hj : j = i
      · have hne : (j == p.1) = false := by simpa [hj] using fun h => hp h.symm
        simp only [hne, if_pos hj]
      · rw [if_neg hj, if_neg hj]

theorem At.stop (h : c.At blocks used) {i : Int} {blockType : String}
    (hi : blocks i = some blockType) :
    ∃ c', c.accept ({ type := "content_block_stop", index := some i } : ClaudeResponse J C) =
        some c' ∧ c'.At (Function.update blocks i none) used := by
  refine ⟨{ c with opened := c.opened.filter (·.1 != i) }, ?_, h.stage, ?_, h.used⟩
  · simp [accept, ClaudeClient.stop, h.opened, hi, h.stage]
  · intro j
    rw [lookup_filter]
    by_cases hj : j = i
    · subst hj
      simp
    · rw [if_neg hj, Function.update_of_ne hj]
      exact h.opened j

/-- Without an open block the message ends. -/
theorem At.finish (h : c.At blocks used) (hnone : ∀ i, blocks i = none)
    (d : ClaudeResponse J C) (s : ClaudeResponse J C) (hd : d.type = "message_delta")
    (hs : s.type = "message_stop") :
    ∃ c', c.run [d, s] = some c' ∧ c'.stage = .stopped := by
  have hopened : c.opened = [] := by
    cases ho : c.opened with
    | nil => rfl
    | cons p l =>
      have := h.opened p.1
      rw [ho, hnone, lookup_cons, beq_self_eq_true] at this
      cases this
  refine ⟨{ c with stage := .stopped }, ?_, rfl⟩
  simp [run_cons, accept, hd, hs, h.stage, hopened]

end ClaudeClient

/-- **A legal Claude stream.** -/
def LegalStream (es : List (ClaudeResponse J C)) : Prop :=
  ∃ c, ({} : ClaudeClient).run es = some c ∧ c.stage = .stopped

end NexusTok.Convert
