import Mathlib.Data.List.Forall2

/-!
# Computations that may fail

An `Action σ ε α` takes a state to a result or an error, and to the state it leaves either way.

* `Keeps I V x` : from a state with `I` the action leaves one with `I`, and its result has `V`.
* `Lockstep E R x y` : from states related by `R` the two actions have the same outcome and leave
  related states, unless the first one leaves a state in which `E` holds.  Such a state is final:
  nothing that the first one does takes it out of `E`.
* `Simulates E R x y` : the same in one direction, for actions with errors of their own.  What the
  first action gives, the second one gives; what it fails at is left open.

Each notion has one rule for each way to build an action, so that it carries over to an interpreter,
constructor by constructor.
-/

namespace NexusTok.Machine

/-- A computation over a state `σ`.  A failure keeps the state that it happened in. -/
def Action (σ ε α : Type) : Type := σ → Except ε α × σ

namespace Action

variable {σ τ ε α β : Type}

/-- The outcome is known. -/
def lift (r : Except ε α) : Action σ ε α := fun s => (r, s)

/-- A change of the state. -/
def modify (f : σ → σ) : Action σ ε Unit := fun s => (.ok (), f s)

/-- One action after another. -/
def andThen (x : Action σ ε α) (f : α → Action σ ε β) : Action σ ε β := fun s =>
  match x s with
  | (.ok a, s') => f a s'
  | (.error e, s') => (.error e, s')

instance : Monad (Action σ ε) where
  pure a := lift (.ok a)
  bind := andThen

/-- All the actions, from the first to the last. -/
def sequence : List (Action σ ε α) → Action σ ε (List α)
  | [] => pure []
  | x :: xs => do
    let a ← x
    let as ← sequence xs
    pure (a :: as)

theorem pure_apply (a : α) (s : σ) : (pure a : Action σ ε α) s = (.ok a, s) := rfl

theorem lift_apply (r : Except ε α) (s : σ) : (lift r : Action σ ε α) s = (r, s) := rfl

theorem bind_apply (x : Action σ ε α) (f : α → Action σ ε β) (s : σ) :
    (x >>= f) s = match x s with
      | (.ok a, s') => f a s'
      | (.error e, s') => (.error e, s') := rfl

variable {x : Action σ ε α} {f : α → Action σ ε β}

theorem bind_of_ok {s s' : σ} {a : α} (h : x s = (.ok a, s')) : (x >>= f) s = f a s' := by
  rw [bind_apply, h]

/-- A sequence that succeeds went through its first part. -/
theorem bind_ok {s t : σ} {b : β}
    (h : (x >>= f) s = (.ok b, t)) : ∃ a s', x s = (.ok a, s') ∧ f a s' = (.ok b, t) := by
  rw [bind_apply] at h
  split at h
  · rename_i a s' hx
    exact ⟨a, s', hx, h⟩
  · cases h

theorem lift_ok {r : Except ε α} {s t : σ} {a : α} (h : lift r s = (.ok a, t)) :
    r = .ok a ∧ t = s := by
  cases h
  exact ⟨rfl, rfl⟩

instance : LawfulMonad (Action σ ε) := by
  refine LawfulMonad.mk' _ (fun x => ?_) (fun _ _ => rfl) (fun x f g => ?_)
  · funext s
    change (x >>= pure) s = x s
    rw [bind_apply]
    split <;> simp_all [pure_apply]
  · funext s
    simp only [bind_apply]
    split
    · rename_i heq
      split at heq <;> simp_all
    · rename_i heq
      split at heq <;> simp_all

/-! ### What an action keeps -/

/-- The action keeps `I`, and a result of it has `V`. -/
def Keeps (I : σ → Prop) (V : α → Prop) (x : Action σ ε α) : Prop :=
  ∀ s, I s → I (x s).2 ∧ ∀ a, (x s).1 = .ok a → V a

section Keeps

variable {I : σ → Prop} {V : α → Prop} {W : β → Prop}

theorem Keeps.lift {r : Except ε α} (h : ∀ a, r = .ok a → V a) :
    Keeps I V (lift r : Action σ ε α) :=
  fun _ hI => ⟨hI, h⟩

theorem Keeps.pure {a : α} (h : V a) : Keeps I V (pure a : Action σ ε α) := by
  refine Keeps.lift fun b hb => ?_
  cases hb
  exact h

theorem Keeps.bind (hx : Keeps I V x) (hf : ∀ a, V a → Keeps I W (f a)) : Keeps I W (x >>= f) := by
  intro s hI
  obtain ⟨hs, hv⟩ := hx s hI
  rw [bind_apply]
  split
  · rename_i a s' heq
    rw [heq] at hs hv
    exact hf a (hv a rfl) s' hs
  · rename_i e s' heq
    rw [heq] at hs
    exact ⟨hs, nofun⟩

theorem Keeps.sequence : ∀ {xs : List (Action σ ε α)}, (∀ x ∈ xs, Keeps I V x) →
    Keeps I (fun as => ∀ a ∈ as, V a) (Action.sequence xs) := by
  intro xs
  induction xs with
  | nil => exact fun _ => Keeps.pure fun a ha => absurd ha List.not_mem_nil
  | cons x xs ih =>
    intro h
    refine Keeps.bind (h x List.mem_cons_self) fun a ha => ?_
    refine Keeps.bind (ih fun y hy => h y (List.mem_cons_of_mem x hy)) fun as has => ?_
    refine Keeps.pure fun b hb => ?_
    rcases List.mem_cons.1 hb with rfl | hb
    · exact ha
    · exact has b hb

end Keeps

/-! ### Two actions in lockstep -/

/-- Related states lead to the same outcome and to related states, or the first action ends up in
`E`, which it never leaves. -/
def Lockstep (E : σ → Prop) (R : σ → τ → Prop) (x : Action σ ε α) (y : Action τ ε α) : Prop :=
  (∀ s, E s → E (x s).2) ∧
    ∀ s t, R s t → E (x s).2 ∨ (x s).1 = (y t).1 ∧ R (x s).2 (y t).2

section Lockstep

variable {E : σ → Prop} {R : σ → τ → Prop}

theorem Lockstep.lift (r : Except ε α) :
    Lockstep E R (lift r : Action σ ε α) (Action.lift r : Action τ ε α) :=
  ⟨fun _ h => h, fun _ _ h => .inr ⟨rfl, h⟩⟩

theorem Lockstep.pure (a : α) :
    Lockstep E R (pure a : Action σ ε α) (pure a : Action τ ε α) :=
  Lockstep.lift (.ok a)

theorem Lockstep.bind {y : Action τ ε α}
    {g : α → Action τ ε β} (hx : Lockstep E R x y) (hf : ∀ a, Lockstep E R (f a) (g a)) :
    Lockstep E R (x >>= f) (y >>= g) := by
  refine ⟨fun s hE => ?_, fun s t hR => ?_⟩
  · have hs := hx.1 s hE
    rw [bind_apply]
    split
    · rename_i a s' heq
      rw [heq] at hs
      exact (hf a).1 s' hs
    · rename_i e s' heq
      rw [heq] at hs
      exact hs
  · have hst := hx.2 s t hR
    rw [bind_apply, bind_apply]
    cases hxs : x s with
    | mk r s' =>
      cases hyt : y t with
      | mk r' t' =>
        rw [hxs, hyt] at hst
        rcases hst with hE | ⟨rfl, hR'⟩
        · -- the rest of the first run stays in `E`, whatever the second run does
          left
          cases r with
          | error e => exact hE
          | ok a => exact (hf a).1 s' hE
        · cases r with
          | error e => exact .inr ⟨rfl, hR'⟩
          | ok a => exact (hf a).2 s' t' hR'

theorem Lockstep.sequence {xs : List (Action σ ε α)} {ys : List (Action τ ε α)}
    (h : List.Forall₂ (Lockstep E R) xs ys) :
    Lockstep E R (Action.sequence xs) (Action.sequence ys) := by
  induction h with
  | nil => exact Lockstep.pure []
  | cons hx _ ih =>
    exact Lockstep.bind hx fun a => Lockstep.bind ih fun as => Lockstep.pure (a :: as)

/-- A change of the first state only. -/
theorem Lockstep.modify_left {f : σ → σ} {y : Action τ ε α}
    (hE : ∀ s, E s → E (f s)) (hR : ∀ s t, R s t → E (f s) ∨ R (f s) t) (h : Lockstep E R x y) :
    Lockstep E R (modify f >>= fun _ => x) y := by
  refine ⟨fun s hs => h.1 (f s) (hE s hs), fun s t hst => ?_⟩
  rcases hR s t hst with hs | hst'
  · exact .inl (h.1 (f s) hs)
  · exact h.2 (f s) t hst'

end Lockstep

/-! ### What one action gives, another one gives -/

/-- From related states a result of the first action is one of the second, with related states, or
the first action ends up in `E`, which it never leaves. -/
def Simulates {δ : Type} (E : σ → Prop) (R : σ → τ → Prop) (x : Action σ δ α)
    (y : Action τ ε α) : Prop :=
  (∀ s, E s → E (x s).2) ∧
    ∀ s t a s', R s t → x s = (.ok a, s') → E s' ∨ ∃ t', y t = (.ok a, t') ∧ R s' t'

section Simulates

variable {δ : Type} {E : σ → Prop} {R : σ → τ → Prop}

theorem Simulates.lift {r : Except δ α} {r' : Except ε α} (h : ∀ a, r = .ok a → r' = .ok a) :
    Simulates E R (lift r : Action σ δ α) (Action.lift r' : Action τ ε α) := by
  refine ⟨fun _ hE => hE, fun s t a s' hR hx => .inr ⟨t, ?_, ?_⟩⟩
  · obtain ⟨hr, -⟩ := lift_ok hx
    rw [h a hr, lift_apply]
  · obtain ⟨-, rfl⟩ := lift_ok hx
    exact hR

theorem Simulates.pure (a : α) :
    Simulates E R (pure a : Action σ δ α) (pure a : Action τ ε α) :=
  Simulates.lift fun _ h => by cases h; rfl

theorem Simulates.fail (e : δ) (y : Action τ ε α) :
    Simulates E R (Action.lift (.error e) : Action σ δ α) y :=
  ⟨fun _ hE => hE, fun _ _ _ _ _ hx => by cases hx⟩

theorem Simulates.bind {x : Action σ δ α} {y : Action τ ε α} {f : α → Action σ δ β}
    {g : α → Action τ ε β} (hx : Simulates E R x y) (hf : ∀ a, Simulates E R (f a) (g a)) :
    Simulates E R (x >>= f) (y >>= g) := by
  refine ⟨fun s hE => ?_, fun s t b s' hR hb => ?_⟩
  · have hs := hx.1 s hE
    rw [bind_apply]
    split
    · rename_i a s₁ heq
      rw [heq] at hs
      exact (hf a).1 s₁ hs
    · rename_i e s₁ heq
      rw [heq] at hs
      exact hs
  · obtain ⟨a, s₁, hxs, hfs⟩ := bind_ok hb
    rcases hx.2 s t a s₁ hR hxs with hE | ⟨t₁, hyt, hR₁⟩
    · left
      have := (hf a).1 s₁ hE
      rwa [hfs] at this
    · rw [bind_of_ok hyt]
      exact (hf a).2 s₁ t₁ b s' hR₁ hfs

/-- More that the first action does to its result. -/
theorem Simulates.bind_left {x : Action σ δ α} {y : Action τ ε α} {f : α → Action σ δ α}
    (hx : Simulates E R x y) (hf : ∀ a, Simulates E R (f a) (Pure.pure a : Action τ ε α)) :
    Simulates E R (x >>= f) y := by
  have h := Simulates.bind hx hf
  rwa [bind_pure] at h

theorem Simulates.modify {f : σ → σ} {g : τ → τ} {x : Action σ δ α} {y : Action τ ε α}
    (hE : ∀ s, E s → E (f s)) (hR : ∀ s t, R s t → E (f s) ∨ R (f s) (g t))
    (h : Simulates E R x y) :
    Simulates E R (modify f >>= fun _ => x) (Action.modify g >>= fun _ => y) := by
  refine ⟨fun s hs => h.1 (f s) (hE s hs), fun s t a s' hst hx => ?_⟩
  rcases hR s t hst with hs | hst'
  · left
    have := h.1 (f s) hs
    rwa [show x (f s) = (.ok a, s') from hx] at this
  · exact h.2 (f s) (g t) a s' hst' hx

end Simulates

end Action

end NexusTok.Machine
