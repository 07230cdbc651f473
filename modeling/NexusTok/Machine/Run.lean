import Mathlib.Logic.Basic
import Mathlib.Data.List.Basic

/-!
# Runs of a deterministic machine

Every stateful part of the development is a *machine*: a total function `step : S → E → S` that
takes a state and an event (a call with its arguments and the faults met on the way) to the next
state.  A run is a list of events.  The notions below are stated once, for an arbitrary `step`.

## Main definitions

* `Always step P s es` : `P` holds in every state the run reaches, the first one included.
* `Meets step C s es` : every event of the run is taken in a state that meets `C`.

## Main results

* `Always.of_meets` : the invariant rule, for runs whose events are all taken under a condition.
* `always_iff_meets` : when the condition says exactly which steps keep the property, a run keeps
  the property iff all its events are taken under the condition.
-/

namespace NexusTok.Machine

variable {S E : Type*} (step : S → E → S)

/-- The state reached from `s` by the events `es`. -/
def run (s : S) (es : List E) : S := es.foldl step s

/-- `P` holds in every state of the run, from the first one to the last. -/
def Always (P : S → Prop) : S → List E → Prop
  | s, [] => P s
  | s, e :: es => P s ∧ Always P (step s e) es

/-- Every event of the run is taken in a state that meets `C`. -/
def Meets (C : S → E → Prop) : S → List E → Prop
  | _, [] => True
  | s, e :: es => C s e ∧ Meets C (step s e) es

variable {step}

instance Meets.decidable {C : S → E → Prop} [∀ s e, Decidable (C s e)] :
    (s : S) → (es : List E) → Decidable (Meets step C s es)
  | _, [] => inferInstanceAs (Decidable True)
  | s, e :: es =>
    have := Meets.decidable (C := C) (step s e) es
    inferInstanceAs (Decidable (_ ∧ _))

@[simp] theorem run_nil (s : S) : run step s [] = s := rfl

@[simp] theorem run_cons (s : S) (e : E) (es : List E) :
    run step s (e :: es) = run step (step s e) es := rfl

theorem run_append (s : S) (es es' : List E) :
    run step s (es ++ es') = run step (run step s es) es' := by
  simp [run, List.foldl_append]

variable {P I J : S → Prop} {s : S} {es : List E}

theorem Always.head (h : Always step P s es) : P s := by
  cases es with
  | nil => exact h
  | cons e es => exact h.1

theorem Always.run (h : Always step P s es) : P (run step s es) := by
  induction es generalizing s with
  | nil => exact h
  | cons e es ih => exact ih h.2

theorem Always.imp {Q : S → Prop} (hPQ : ∀ s, P s → Q s)
    (h : Always step P s es) : Always step Q s es := by
  induction es generalizing s with
  | nil => exact hPQ s h
  | cons e es ih => exact ⟨hPQ s h.1, ih h.2⟩

variable {C D : S → E → Prop}

/-- **The invariant rule.**  If `I` holds at the start and is kept by every step taken under `C`,
it holds in every state of a run whose events are all taken under `C`. -/
theorem Always.of_meets (hstep : ∀ s e, I s → C s e → I (step s e)) (h₀ : I s)
    (h : Meets step C s es) : Always step I s es := by
  induction es generalizing s with
  | nil => exact h₀
  | cons e es ih => exact ⟨h₀, ih (hstep s e h₀ h.1) h.2⟩

/-- The invariant rule for steps that keep `I` without a condition. -/
theorem Always.of_step (hstep : ∀ s e, I s → I (step s e)) (h₀ : I s)
    (es : List E) : Always step I s es := by
  induction es generalizing s with
  | nil => exact h₀
  | cons e es ih => exact ⟨h₀, ih (hstep s e h₀)⟩

/-- **The exact invariant rule.**  `J` strengthens the property `I`, and the run is known to meet
`R`.  If, from a state in `J`, a step under `C` stays in `J` and a step outside `C` leaves `I`, then
a run from `J` keeps `I` iff all its events are taken under `C`. -/
theorem always_iff_meets_of {R : S → E → Prop} (hJ : ∀ s, J s → I s)
    (hkeep : ∀ s e, J s → R s e → C s e → J (step s e))
    (hleave : ∀ s e, J s → R s e → I (step s e) → C s e) (h₀ : J s)
    (hR : Meets step R s es) : Always step I s es ↔ Meets step C s es := by
  induction es generalizing s with
  | nil => exact ⟨fun _ => trivial, fun _ => hJ s h₀⟩
  | cons e es ih =>
    constructor
    · rintro ⟨-, h⟩
      have hc := hleave s e h₀ hR.1 h.head
      exact ⟨hc, (ih (hkeep s e h₀ hR.1 hc) hR.2).1 h⟩
    · rintro ⟨hc, h⟩
      exact ⟨hJ s h₀, (ih (hkeep s e h₀ hR.1 hc) hR.2).2 h⟩

theorem meets_true (s : S) (es : List E) : Meets step (fun _ _ => True) s es := by
  induction es generalizing s with
  | nil => trivial
  | cons e es ih => exact ⟨trivial, ih _⟩

/-- A condition on the events alone. -/
theorem meets_of_forall {C : E → Prop} (h : ∀ e ∈ es, C e) : Meets step (fun _ e => C e) s es := by
  induction es generalizing s with
  | nil => trivial
  | cons e es ih =>
    exact ⟨h e List.mem_cons_self, ih fun e' he' => h e' (List.mem_cons_of_mem e he')⟩

theorem Meets.and (h : Meets step C s es)
    (h' : Meets step D s es) : Meets step (fun s e => C s e ∧ D s e) s es := by
  induction es generalizing s with
  | nil => trivial
  | cons e es ih => exact ⟨⟨h.1, h'.1⟩, ih h.2 h'.2⟩

/-- What the events of a run meet, in states that have an invariant. -/
theorem Meets.imp (hCD : ∀ s e, I s → C s e → D s e)
    (hI : Always step I s es) (h : Meets step C s es) : Meets step D s es := by
  induction es generalizing s with
  | nil => trivial
  | cons e es ih => exact ⟨hCD s e hI.1 h.1, ih hI.2 h.2⟩

theorem meets_append {es' : List E} :
    Meets step C s (es ++ es') ↔ Meets step C s es ∧ Meets step C (run step s es) es' := by
  induction es generalizing s with
  | nil => exact ⟨fun h => ⟨trivial, h⟩, fun h => h.2⟩
  | cons e es ih =>
    constructor
    · rintro ⟨hc, h⟩
      exact ⟨⟨hc, (ih.1 h).1⟩, (ih.1 h).2⟩
    · rintro ⟨⟨hc, h⟩, h'⟩
      exact ⟨hc, ih.2 ⟨h, h'⟩⟩

/-- The exact invariant rule for all runs. -/
theorem always_iff_meets (hJ : ∀ s, J s → I s)
    (hkeep : ∀ s e, J s → C s e → J (step s e)) (hleave : ∀ s e, J s → I (step s e) → C s e)
    (h₀ : J s) : Always step I s es ↔ Meets step C s es :=
  always_iff_meets_of hJ (fun s e hs _ => hkeep s e hs) (fun s e hs _ => hleave s e hs) h₀
    (meets_true s es)

end NexusTok.Machine
