import NexusTok.Expr.Eval

/-!
# Rules for meanings

One rule for each way to build a meaning, for the two notions of `Machine.Action`: what an evaluation
keeps, and when two evaluations run in lockstep.
-/

namespace NexusTok.Expr

open Machine Machine.Action List

variable {κ ω σ τ : Type} {L : Lang κ ω}

/-! ### Lockstep -/

section Lockstep

variable {E : σ → Prop} {R : σ → τ → Prop}

theorem nameMeaning_lockstep (params : Token → ℚ) (name : Name) (sc : L.Scope) :
    Lockstep E R (nameMeaning params name sc : Action σ RunError (Value ω))
      (nameMeaning params name sc : Action τ RunError (Value ω)) := by
  cases name with
  | other s => exact Lockstep.lift _
  | _ => exact Lockstep.pure _

variable {c a b d : Meaning L σ} {c' a' b' d' : Meaning L τ}

theorem unaryMeaning_lockstep (op : UnaryOp) (h : ∀ sc, Lockstep E R (d sc) (d' sc)) (sc : L.Scope) :
    Lockstep E R (unaryMeaning op d sc) (unaryMeaning op d' sc) :=
  Lockstep.bind (h sc) fun _ => Lockstep.lift _

theorem binaryMeaning_lockstep (op : BinaryOp) (ha : ∀ sc, Lockstep E R (a sc) (a' sc))
    (hb : ∀ sc, Lockstep E R (b sc) (b' sc)) (sc : L.Scope) :
    Lockstep E R (binaryMeaning op a b sc) (binaryMeaning op a' b' sc) := by
  refine Lockstep.bind (ha sc) fun v => ?_
  cases op with
  | and =>
    refine Lockstep.bind (Lockstep.lift _) fun t => ?_
    cases t
    · exact Lockstep.pure v
    · exact hb sc
  | or =>
    refine Lockstep.bind (Lockstep.lift _) fun t => ?_
    cases t
    · exact hb sc
    · exact Lockstep.pure v
  | _ => exact Lockstep.bind (hb sc) fun _ => Lockstep.lift _

theorem branch_lockstep (ha : ∀ sc, Lockstep E R (a sc) (a' sc))
    (hb : ∀ sc, Lockstep E R (b sc) (b' sc)) (sc : L.Scope) (v : Value ω) :
    Lockstep E R (do if ← lift (truth v) then a sc else b sc)
      (do if ← lift (truth v) then a' sc else b' sc) := by
  refine Lockstep.bind (Lockstep.lift _) fun t => ?_
  cases t
  · exact hb sc
  · exact ha sc

theorem conditionalMeaning_lockstep (hc : ∀ sc, Lockstep E R (c sc) (c' sc))
    (ha : ∀ sc, Lockstep E R (a sc) (a' sc)) (hb : ∀ sc, Lockstep E R (b sc) (b' sc))
    (sc : L.Scope) :
    Lockstep E R (conditionalMeaning c a b sc) (conditionalMeaning c' a' b' sc) :=
  Lockstep.bind (hc sc) fun v => branch_lockstep ha hb sc v

theorem callMeaning_lockstep {host : Host ω σ} {host' : Host ω τ}
    (hhost : ∀ f vs, Lockstep E R (host f vs) (host' f vs)) (forms : List Form)
    (hd : ∀ sc, Lockstep E R (d sc) (d' sc)) {xs : List (Meaning L σ)} {ys : List (Meaning L τ)}
    (h : List.Forall₂ (fun x y => ∀ sc, Lockstep E R (x sc) (y sc)) xs ys) (sc : L.Scope) :
    Lockstep E R (callMeaning host forms d xs sc) (callMeaning host' forms d' ys sc) := by
  have hargs : List.Forall₂ (Lockstep E R) (xs.map (· sc)) (ys.map (· sc)) := by
    rw [forall₂_map_left_iff, forall₂_map_right_iff]
    exact h.imp fun _ _ hxy => hxy sc
  refine Lockstep.bind (Lockstep.sequence hargs) fun vs => ?_
  refine Lockstep.bind (hd sc) fun f => ?_
  cases f with
  | func f => exact Lockstep.bind (Lockstep.lift _) fun vs => hhost f vs
  | _ => exact Lockstep.lift _

theorem evalList_eq_map (params : Token → ℚ) (host : Host ω σ) (xs : List (Node κ)) :
    (evalList params host xs : List (Meaning L σ)) = xs.map (eval params host) := by
  induction xs with
  | nil => rfl
  | cons x xs ih => rw [evalList, map_cons, ih]

theorem eval_lockstep (params : Token → ℚ) {host : Host ω σ} {host' : Host ω τ}
    (hhost : ∀ f vs, Lockstep E R (host f vs) (host' f vs)) (n : Node κ) :
    ∀ sc : L.Scope, Lockstep E R (eval params host n sc) (eval params host' n sc) := by
  have hlist : ∀ {xs : List (Node κ)},
      (∀ x ∈ xs, ∀ sc : L.Scope, Lockstep E R (eval params host x sc) (eval params host' x sc)) →
        List.Forall₂ (fun d e => ∀ sc, Lockstep E R (d sc) (e sc))
          (evalList (L := L) params host xs) (evalList params host' xs) := by
    intro xs h
    rw [evalList_eq_map, evalList_eq_map, forall₂_map_left_iff, forall₂_map_right_iff]
    exact forall₂_same.2 h
  induction n using Node.induct with
  | nil | bool | integer | float | string => exact fun _ => Lockstep.pure _
  | identifier name => exact nameMeaning_lockstep _ name
  | unary op x ih => exact unaryMeaning_lockstep op ih
  | binary op l r ihl ihr => exact binaryMeaning_lockstep op ihl ihr
  | conditional t c a b ihc iha ihb => exact conditionalMeaning_lockstep ihc iha ihb
  | call f args ihf ihargs => exact callMeaning_lockstep hhost _ ihf (hlist ihargs)
  | other k children ih => exact L.other_lockstep _ _ k _ _ (hlist ih)

/-- What the functions of a host keep, every evaluation keeps. -/
theorem eval_invariant (params : Token → ℚ) {host : Host ω σ} {I : σ → Prop}
    (hhost : ∀ f vs s, I s → I (host f vs s).2) (n : Node κ) (sc : L.Scope) {s : σ} (h : I s) :
    I (eval params host n sc s).2 := by
  have hself : ∀ f vs, Lockstep (fun _ => False) (fun s t => s = t ∧ I s) (host f vs) (host f vs) := by
    refine fun f vs => ⟨fun _ h => h, fun s t hst => .inr ?_⟩
    obtain ⟨rfl, hI⟩ := hst
    exact ⟨rfl, rfl, hhost f vs s hI⟩
  rcases (eval_lockstep params hself n sc).2 s s ⟨rfl, h⟩ with h | h
  · exact h.elim
  · exact h.2.2

end Lockstep

/-! ### What is kept -/

section Keeps

variable (F : Func → Prop)

/-- A value that does not hold a function of the kind `F`. -/
def Free (L : Lang κ ω) (v : Value ω) : Prop := ¬ v.Holds L.holdsIn F

variable {F} {I : σ → Prop}

theorem truth_bool {v : Value ω} {b : Bool} (h : truth v = .ok b) : v = .bool b := by
  cases v with
  | bool a =>
    cases h
    rfl
  | _ => cases h

/-- What a meaning without functions of the kind `F` does: evaluated in a scope without them it
keeps `I`, and its value does not hold them. -/
def Tame (I : σ → Prop) (F : Func → Prop) (d : Meaning L σ) : Prop :=
  ∀ sc, ¬ L.scopeHolds F sc → Keeps I (Free F L) (d sc)

theorem nameMeaning_tame (params : Token → ℚ) {name : Name} (hfunc : ∀ f, name = .func f → ¬ F f)
    (henv : name ≠ .env) : Tame I F (nameMeaning params name : Meaning L σ) := by
  intro sc hsc
  cases name with
  | token t => exact Keeps.pure id
  | func f => exact Keeps.pure (hfunc f rfl)
  | env => exact absurd rfl henv
  | other s => exact Keeps.lift fun v hv hholds => hsc (L.ident_holds F s sc v hv hholds)

theorem unary_free {op : UnaryOp} {v r : Value ω} (h : unary L op v = .ok r) (hv : Free F L v) :
    Free F L r := by
  unfold unary at h
  split at h
  · cases h; exact id
  · cases h; exact id
  · cases h; exact id
  · cases h; exact id
  · cases h; exact id
  · exact fun hr => hv (L.unary_holds F _ _ _ h hr)

/-- The operators that the language itself defines give numbers, strings and truth values. -/
theorem binary?_free {op : BinaryOp} {v w r : Value ω} (h : binary? op v w = some r) :
    Free F L r := by
  have hbool : ∀ {o : Option Bool} {g : Bool → Bool}, (o.map fun b => Value.bool (g b)) = some r →
      Free F L r := by
    intro o g ho
    obtain ⟨b, -, rfl⟩ := Option.map_eq_some_iff.1 ho
    exact id
  have harith : ∀ {f : ℤ → ℤ → ℤ} {g : ℚ → ℚ → ℚ}, arithmetic f g v w = some r → Free F L r := by
    intro f g ho
    unfold arithmetic at ho
    split at ho
    · cases ho; exact id
    · split at ho
      · cases ho; exact id
      · cases ho
  cases op with
  | eq | lt | le | gt | ge => exact hbool (g := id) h
  | ne => exact hbool (g := fun b => !b) h
  | add =>
    change plus v w = some r at h
    unfold plus at h
    split at h
    · cases h; exact id
    · exact harith h
  | sub | mul => exact harith h
  | div =>
    change quotient v w = some r at h
    unfold quotient at h
    split at h
    · split_ifs at h
      cases h; exact id
    · cases h
  | mod =>
    change remainder v w = some r at h
    unfold remainder at h
    split at h
    · split_ifs at h
      cases h; exact id
    · cases h
  | and | or => cases h

theorem binary_free {op : BinaryOp} {v w r : Value ω} (h : binary L op v w = .ok r)
    (hv : Free F L v) (hw : Free F L w) : Free F L r := by
  unfold binary at h
  split at h
  · rename_i r' hr'
    cases h
    exact binary?_free hr'
  · intro hr
    rcases L.binary_holds F _ _ _ _ h hr with h | h
    · exact hv h
    · exact hw h

variable {c a b d : Meaning L σ}

theorem unaryMeaning_tame (op : UnaryOp) (h : Tame I F d) : Tame I F (unaryMeaning op d) := by
  intro sc hsc
  exact Keeps.bind (h sc hsc) fun v hv => Keeps.lift fun r hr => unary_free hr hv

theorem binaryMeaning_tame (op : BinaryOp) (ha : Tame I F a) (hb : Tame I F b) :
    Tame I F (binaryMeaning op a b) := by
  intro sc hsc
  refine Keeps.bind (ha sc hsc) fun v hv => ?_
  cases op with
  | and =>
    refine Keeps.bind (V := fun _ => True) (Keeps.lift fun _ _ => trivial) fun t _ => ?_
    cases t
    · exact Keeps.pure hv
    · exact hb sc hsc
  | or =>
    refine Keeps.bind (V := fun _ => True) (Keeps.lift fun _ _ => trivial) fun t _ => ?_
    cases t
    · exact hb sc hsc
    · exact Keeps.pure hv
  | _ =>
    exact Keeps.bind (hb sc hsc) fun w hw => Keeps.lift fun r hr => binary_free hr hv hw

theorem conditionalMeaning_tame (hc : Tame I F c) (ha : Tame I F a) (hb : Tame I F b) :
    Tame I F (conditionalMeaning c a b) := by
  intro sc hsc
  refine Keeps.bind (hc sc hsc) fun v _ => ?_
  refine Keeps.bind (V := fun _ => True) (Keeps.lift fun _ _ => trivial) fun t _ => ?_
  cases t
  · exact hb sc hsc
  · exact ha sc hsc

theorem argument_free {kind : Kind} {form : Form} {v r : Value ω}
    (h : argument L kind form v = .ok r) (hv : Free F L v) : Free F L r := by
  unfold argument at h
  split at h
  · cases h; exact hv
  · exact L.zero_holds F _ _ h
  · cases h; exact id
  · split_ifs at h
    cases h; exact id
  · cases h; exact id
  · cases h; exact id
  · cases h; exact id
  · cases h

theorem arguments_free {kinds : List Kind} {forms : List Form} {vs rs : List (Value ω)}
    (h : arguments L kinds forms vs = .ok rs) (hv : ∀ v ∈ vs, Free F L v) :
    ∀ r ∈ rs, Free F L r := by
  induction kinds generalizing forms vs rs with
  | nil =>
    cases vs with
    | nil =>
      cases h
      exact fun r hr => absurd hr not_mem_nil
    | cons v vs => cases h
  | cons kind kinds ih =>
    cases forms with
    | nil => cases vs <;> cases h
    | cons form forms =>
      cases vs with
      | nil => cases h
      | cons v vs =>
        unfold arguments at h
        rcases harg : argument L kind form v with _ | r
        · rw [harg] at h
          cases h
        rcases hrest : arguments L kinds forms vs with _ | rs'
        · rw [harg, hrest] at h
          cases h
        rw [harg, hrest] at h
        cases h
        intro x hx
        rcases mem_cons.1 hx with rfl | hx
        · exact argument_free harg (hv v mem_cons_self)
        · exact ih hrest (fun y hy => hv y (mem_cons_of_mem v hy)) x hx

theorem callMeaning_tame {host : Host ω σ} (hhost : ∀ f vs, ¬ F f → (∀ v ∈ vs, Free F L v) →
      Keeps I (Free F L) (host f vs)) (forms : List Form) (hd : Tame I F d)
    {xs : List (Meaning L σ)} (h : ∀ x ∈ xs, Tame I F x) : Tame I F (callMeaning host forms d xs) := by
  intro sc hsc
  have hargs : ∀ x ∈ xs.map (· sc), Keeps I (Free F L) x := by
    intro x hx
    obtain ⟨y, hy, rfl⟩ := mem_map.1 hx
    exact h y hy sc hsc
  refine Keeps.bind (Keeps.sequence hargs) fun vs hvs => ?_
  refine Keeps.bind (hd sc hsc) fun f hf => ?_
  have happly : Keeps I (Free F L) (lift (L.apply f vs)) := by
    refine Keeps.lift fun r hr hholds => ?_
    rcases L.apply_holds F _ _ _ hr hholds with hh | ⟨v, hv, hh⟩
    · exact hf hh
    · exact hvs v hv hh
  cases f with
  | func f =>
    refine Keeps.bind (V := fun vs => ∀ v ∈ vs, Free F L v) (Keeps.lift fun rs hrs => ?_)
      fun rs hrs => hhost f rs hf hrs
    exact arguments_free hrs hvs
  | _ => exact happly

/-- A tree without the names of functions of the kind `F` and without `$env`, of a host whose other
functions keep `I`. -/
theorem eval_tame (params : Token → ℚ) {host : Host ω σ} (hhost : ∀ f vs, ¬ F f →
      (∀ v ∈ vs, Free F L v) → Keeps I (Free F L) (host f vs)) (n : Node κ)
    (hnames : ∀ f, .func f ∈ n.names → ¬ F f) (henv : .env ∉ n.names) :
    Tame I F (eval params host n : Meaning L σ) := by
  have hlist : ∀ {xs : List (Node κ)}, (∀ x ∈ xs, (∀ f, .func f ∈ x.names → ¬ F f) →
      .env ∉ x.names → Tame I F (eval params host x : Meaning L σ)) →
        (∀ f, .func f ∈ Node.namesList xs → ¬ F f) → .env ∉ Node.namesList xs →
          ∀ d ∈ evalList (L := L) params host xs, Tame I F d := by
    intro xs h hnames henv d hd
    rw [evalList_eq_map] at hd
    obtain ⟨x, hx, rfl⟩ := mem_map.1 hd
    exact h x hx (fun f hf => hnames f (Node.mem_namesList.2 ⟨x, hx, hf⟩))
      fun he => henv (Node.mem_namesList.2 ⟨x, hx, he⟩)
  have hpure : ∀ v : Value ω, Free F L v → Tame I F (fun _ => pure v : Meaning L σ) :=
    fun v hv sc _ => Keeps.pure hv
  induction n using Node.induct with
  | nil | bool | integer | float | string => exact hpure _ id
  | identifier name =>
    refine nameMeaning_tame _ (fun f hf => hnames f ?_) fun he => henv ?_
    · rw [hf]
      exact mem_singleton_self _
    · rw [he]
      exact mem_singleton_self _
  | unary op x ih => exact unaryMeaning_tame op (ih hnames henv)
  | binary op l r ihl ihr =>
    simp only [Node.names, mem_append] at hnames henv
    exact binaryMeaning_tame op
      (ihl (fun f hf => hnames f (.inl hf)) fun he => henv (.inl he))
      (ihr (fun f hf => hnames f (.inr hf)) fun he => henv (.inr he))
  | conditional t c a b ihc iha ihb =>
    simp only [Node.names, mem_append] at hnames henv
    exact conditionalMeaning_tame
      (ihc (fun f hf => hnames f (.inl (.inl hf))) fun he => henv (.inl (.inl he)))
      (iha (fun f hf => hnames f (.inl (.inr hf))) fun he => henv (.inl (.inr he)))
      (ihb (fun f hf => hnames f (.inr hf)) fun he => henv (.inr he))
  | call f args ihf ihargs =>
    simp only [Node.names, mem_append] at hnames henv
    exact callMeaning_tame hhost _
      (ihf (fun f hf => hnames f (.inl hf)) fun he => henv (.inl he))
      (hlist ihargs (fun f hf => hnames f (.inr hf)) fun he => henv (.inr he))
  | other k children ih =>
    exact L.other_keeps F I k _ fun d hd sc hsc => hlist ih hnames henv d hd sc hsc

end Keeps

/-! ### A small language -/

/-- The compiler turns integer literals under signs and operators into floats. -/
def Form.hasInteger : Form → Bool
  | .integer => true
  | .unary _ x => x.hasInteger
  | .binary _ l r => l.hasInteger || r.hasInteger
  | .atom => false

/-- A member of a value: `$env` has the functions of the environment. -/
def member (f : Func) (ds : List (Unit → Action σ RunError (Value Unit))) (_ : Unit) :
    Action σ RunError (Value Unit) :=
  match ds with
  | [d] => d () >>= fun v =>
    match v with
    | .other () => pure (.func f)
    | _ => lift (.error .failed)
  | _ => lift (.error .failed)

/-- The language with no other nodes than members of `$env`. -/
def memberLang : Lang Func Unit where
  text _ := ""
  Scope := Unit
  top := ()
  env := ()
  ident _ _ := .error .failed
  unary _ _ := .error .failed
  binary _ _ _ := .error .failed
  apply _ _ := .error .failed
  zero _ := .error .failed
  floats := Form.hasInteger
  floats_integer := rfl
  other := member
  other_lockstep := by
    intro σ τ E R k ds es h sc
    cases h with
    | nil => exact Lockstep.lift _
    | cons hd h =>
      cases h with
      | nil =>
        refine Lockstep.bind (hd ()) fun v => ?_
        cases v with
        | other o => exact Lockstep.pure _
        | _ => exact Lockstep.lift _
      | cons _ _ => exact Lockstep.lift _
  holdsIn F _ := ∃ f, F f
  scopeHolds _ _ := False
  top_holds _ := id
  ident_holds _ _ _ _ := nofun
  unary_holds _ _ _ _ := nofun
  binary_holds _ _ _ _ _ := nofun
  apply_holds _ _ _ _ := nofun
  zero_holds _ _ _ := nofun
  other_keeps := by
    intro σ F I k ds h sc hsc
    have herror : Keeps I (fun v : Value Unit => ¬ v.Holds (fun F _ => ∃ f, F f) F)
        (lift (.error RunError.failed)) := Keeps.lift nofun
    match ds with
    | [] => exact herror
    | [d] =>
      refine Keeps.bind (h d mem_cons_self () hsc) fun v hv => ?_
      cases v with
      | other o => exact Keeps.pure fun hk => hv ⟨k, hk⟩
      | _ => exact herror
    | _ :: _ :: _ => exact herror

/-- No tokens, and a request without headers and without a body. -/
def noRequest : Context memberLang where
  params := ⟨0, 0, 0, 0, 0, 0, 0, 0, 0, 0⟩
  headers := []
  body := none
  usage := none
  lower := id
  sprint _ := ""
  contains _ _ := false
  clock _ _ := 0
  body_data _ _ _ _ := nofun
  usage_data _ _ _ := nofun

end NexusTok.Expr
