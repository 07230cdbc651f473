import NexusTok.Expr.Agreement

/-!
# The price that the browser shows and the price that is charged

* `evaluate_simulates` : what the browser makes of an expression, the billing engine makes of it as
  it was written, with the same trace, unless the browser meets a step at which the two part.
* `Step.Parts` : they part where `u` reads another fact, its name being trimmed on one side only, where a header is read differently,
  where an integer that is no literal is passed as a number, where the order of two strings by code
  units is another one than by characters, and where a request rule with an integer and a fraction
  selects the integer.
-/

namespace NexusTok.Expr.Browser

open Machine Machine.Action List

variable {κ ω : Type} {L : Lang κ ω}

/-! ### Where the two sides part -/

/-- The simulation has the inputs of a run.  The order of headers is left open, and so is what the
browser does not know or does not support. -/
structure SameContext (sim : BillingSimulationContext ω) (ctx : Context L) : Prop where
  tokens : ∀ name x, sim.tokens name = some x → name.read ctx.params = x
  headers : ∀ request, sim.request = some request → ctx.headers.Perm request.headers
  path : ∀ request path v, sim.request = some request → request.path path = some v →
    param ctx path = unmarked v
  usage : ∀ facts, sim.usage = some facts → ctx.usage = some facts
  now : ∀ f zone n, sim.now f (trim zone) = some n → ctx.clock f (trimSpace zone) = n
  billingString : ∀ v text, sim.billingString v = some text → ctx.sprint v = text
  includes : ∀ text substring, ctx.contains text substring = sim.includes text substring

/-- The literal is written without a fraction. -/
def ExpressionNode.isInteger : ExpressionNode → Bool
  | .literal (.integer _) => true
  | _ => false

/-- The billing engine makes something else of a step. -/
def Step.Parts (sim : BillingSimulationContext ω) (ctx : Context L) : Step → Prop
  | .header name => readHeader sim name ≠ Expr.header ctx name
  | .usage name => ∃ facts, sim.usage = some facts ∧ unmarked (facts name) ≠ Expr.u ctx name
  | .integer form => L.floats form = false
  | .order s t => stringLt s t ≠ stringBefore s t ∨ stringLt t s ≠ stringBefore t s
  | .rule yes no held =>
    yes.isInteger ≠ no.isInteger ∧ (if held then yes else no).isInteger = true

/-- `nil` is equal to no object. -/
structure NilApart (L : Lang κ ω) : Prop where
  eq_nil : ∀ o, L.binary .eq (.other o) .nil = .ok (.bool false)
  nil_eq : ∀ o, L.binary .eq .nil (.other o) = .ok (.bool false)
  ne_nil : ∀ o, L.binary .ne (.other o) .nil = .ok (.bool true)
  nil_ne : ∀ o, L.binary .ne .nil (.other o) = .ok (.bool true)

/-- The rules of a run, of which those with the numbers in `held` are marked. -/
def markRules (held : List ℕ) (rules : List BillingRequestRule) : List BillingRequestRule :=
  rules.mapIdx fun i r => { r with matched := r.matched || held.contains i }

/-- The state of the browser and that of a watched run of the billing engine. -/
structure Related (rules : List BillingRequestRule) (s : Runtime) (w : Watch) : Prop where
  matchedTier : w.world.trace.matchedTier = s.matchedTier
  billingUnit : w.world.trace.billingUnit = s.billingUnit
  fixedPrice : w.world.trace.fixedPrice = s.fixedPrice
  requestRules : s.requestRules = markRules w.held rules
  apart : w.apart = false

section Parted

variable (sim : BillingSimulationContext ω) (ctx : Context L)

/-- The browser has met a step at which the two sides part. -/
def Parted (s : Runtime) : Prop := ∃ step ∈ s.steps, step.Parts sim ctx

variable {sim ctx} {rules : List BillingRequestRule}

theorem parted_of_steps {s s' : Runtime} (h : s'.steps = s.steps) (hs : Parted sim ctx s) :
    Parted sim ctx s' := by
  unfold Parted
  rw [h]
  exact hs

theorem parted_append {s s' : Runtime} {step : Step} (h : s'.steps = s.steps ++ [step])
    (hs : Parted sim ctx s) : Parted sim ctx s' := by
  obtain ⟨met, hmet, hparts⟩ := hs
  exact ⟨met, h ▸ mem_append_left _ hmet, hparts⟩

theorem parted_of_parts {s s' : Runtime} {step : Step} (h : s'.steps = s.steps ++ [step])
    (hstep : step.Parts sim ctx) : Parted sim ctx s' :=
  ⟨step, h ▸ mem_append_right _ (mem_singleton_self _), hstep⟩

/-- A step is recorded, and what follows may take it for one at which the two sides agree. -/
theorem note_simulates {α : Type} {step : Step} {x : Run α} {y : Action Watch RunError α}
    (hx : ∀ s, Parted sim ctx s → Parted sim ctx (x s).2)
    (h : ¬ step.Parts sim ctx → Simulates (Parted sim ctx) (Related rules) x y) :
    Simulates (Parted sim ctx) (Related rules) (modify (Runtime.note step) >>= fun _ => x) y := by
  refine ⟨fun s hs => hx _ (parted_append rfl hs), fun s w a s' hR hrun => ?_⟩
  by_cases hstep : step.Parts sim ctx
  · left
    have hpart := hx (Runtime.note step s) (parted_of_parts rfl hstep)
    rwa [show x (Runtime.note step s) = (.ok a, s') from hrun] at hpart
  · have hR' : Related rules (Runtime.note step s) w :=
      ⟨hR.matchedTier, hR.billingUnit, hR.fixedPrice, hR.requestRules, hR.apart⟩
    exact (h hstep).2 _ w a s' hR' hrun

end Parted

/-! ### Operators -/

section Operators

variable {sim : BillingSimulationContext ω} {ctx : Context L} {rules : List BillingRequestRule}

theorem unaryValue_eq {op : UnaryOp} {v r : Value ω} (h : unaryValue op v = .ok r) :
    Expr.unary L op v = .ok r := by
  unfold unaryValue at h
  split at h
  · cases h; rfl
  · cases h; rfl
  · cases h; rfl
  · cases h; rfl
  · cases h; rfl
  · cases h

theorem binary_of_some {op : BinaryOp} {v w r : Value ω} (h : binary? op v w = some r) :
    Expr.binary L op v w = .ok r := by
  unfold Expr.binary
  rw [h]

theorem arithmeticValue_eq {f : ℤ → ℤ → ℤ} {g : ℚ → ℚ → ℚ} {v w r : Value ω}
    (h : arithmeticValue f g v w = .ok r) : arithmetic f g v w = some r := by
  cases v with
  | int | float => cases w <;> cases h <;> rfl
  | _ => cases h

theorem strictEqual_eq (hL : NilApart L) {v w : Value ω} {b : Bool} (h : strictEqual v w = .ok b) :
    Expr.binary L .eq v w = .ok (.bool b) ∧ Expr.binary L .ne v w = .ok (.bool !b) := by
  cases v with
  | func f => cases h
  | other o =>
    cases w with
    | nil =>
      cases h
      exact ⟨hL.eq_nil o, hL.ne_nil o⟩
    | _ => cases h
  | nil =>
    cases w with
    | func f => cases h
    | other o =>
      cases h
      exact ⟨hL.nil_eq o, hL.nil_ne o⟩
    | _ =>
      cases h
      exact ⟨rfl, rfl⟩
  | int m =>
    cases w with
    | func | other => cases h
    | int n =>
      -- integers are compared as numbers
      have hcast : ((m : ℚ) == (n : ℚ)) = (m == n) := by
        rw [Bool.eq_iff_iff]
        simp
      cases h
      rw [hcast]
      exact ⟨rfl, rfl⟩
    | _ =>
      cases h
      exact ⟨rfl, rfl⟩
  | _ =>
    cases w with
    | func | other => cases h
    | _ =>
      cases h
      exact ⟨rfl, rfl⟩

theorem orderValue_simulates {op : BinaryOp} {lt : ℚ → ℚ → Bool} {ltStr ltStr' : String → String → Bool}
    (hop : ∀ v w : Value ω, binary? op v w = (compare lt ltStr' v w).map .bool)
    (hstr : ∀ s t, ¬ (Step.order s t).Parts sim ctx → ltStr s t = ltStr' s t) (v w : Value ω) :
    Simulates (Parted sim ctx) (Related rules) (orderValue lt ltStr v w)
      (lift (Expr.binary L op v w)) := by
  have hnumber : ∀ x y, v.number = some x → w.number = some y →
      Simulates (Parted sim ctx) (Related rules) (pure (.bool (lt x y)) : Run (Value ω))
        (lift (Expr.binary L op v w)) := by
    intro x y hx hy
    have hcompare : compare lt ltStr' v w = some (lt x y) := by
      unfold compare
      split
      · cases hx
      · rw [hx, hy]
    rw [binary_of_some (r := .bool (lt x y)) (by rw [hop, hcompare]; rfl)]
    exact Simulates.pure _
  unfold orderValue
  split
  · rename_i s t
    refine note_simulates (fun _ h => h) fun hagree => ?_
    rw [binary_of_some (r := .bool (ltStr' s t)) (by rw [hop]; rfl), hstr s t hagree]
    exact Simulates.pure _
  · split
    · rename_i x y hx hy
      exact hnumber x y hx hy
    · exact Simulates.fail _ _

theorem stringLt_eq {s t : String} (h : ¬ (Step.order s t).Parts sim ctx) :
    stringLt s t = stringBefore s t ∧ stringLt t s = stringBefore t s := by
  simpa only [Step.Parts, ne_eq, not_or, not_not] using h

theorem binaryValue_simulates (hL : NilApart L) (op : BinaryOp) (v w : Value ω) :
    Simulates (Parted sim ctx) (Related rules) (binaryValue op v w)
      (lift (Expr.binary L op v w)) := by
  have harith : ∀ {op : BinaryOp} {f : ℤ → ℤ → ℤ} {g : ℚ → ℚ → ℚ},
      (∀ r, arithmetic f g v w = some r → binary? op v w = some r) →
        Simulates (Parted sim ctx) (Related rules) (lift (arithmeticValue f g v w) : Run (Value ω))
          (lift (Expr.binary L op v w)) := by
    intro op f g hop
    exact Simulates.lift fun r hr => binary_of_some (hop r (arithmeticValue_eq hr))
  cases op with
  | eq =>
    refine Simulates.lift fun r hr => ?_
    rcases hv : strictEqual v w with _ | b
    · rw [hv] at hr; cases hr
    rw [hv] at hr
    rcases hr
    exact (strictEqual_eq hL hv).1
  | ne =>
    refine Simulates.lift fun r hr => ?_
    rcases hv : strictEqual v w with _ | b
    · rw [hv] at hr; cases hr
    rw [hv] at hr
    cases hr
    exact (strictEqual_eq hL hv).2
  | lt => exact orderValue_simulates (fun _ _ => rfl) (fun s t h => (stringLt_eq h).1) v w
  | le =>
    exact orderValue_simulates (fun _ _ => rfl) (fun s t h => congrArg not (stringLt_eq h).2) v w
  | gt => exact orderValue_simulates (fun _ _ => rfl) (fun s t h => (stringLt_eq h).2) v w
  | ge =>
    exact orderValue_simulates (fun _ _ => rfl) (fun s t h => congrArg not (stringLt_eq h).1) v w
  | add =>
    simp only [binaryValue]
    split
    · rename_i s t
      rw [binary_of_some (r := .str (s ++ t)) rfl]
      exact Simulates.pure _
    · rename_i hstr
      refine harith fun r hr => ?_
      change plus v w = some r
      unfold plus
      split
      · exact absurd rfl (hstr _ _ rfl)
      · exact hr
  | sub | mul => exact harith fun _ hr => hr
  | div =>
    simp only [binaryValue]
    split
    · rename_i x y hx hy
      split_ifs with h0
      · exact Simulates.fail _ _
      · have hquot : quotient v w = some (.float (x / y)) := by
          unfold quotient
          rw [hx, hy]
          exact if_neg h0
        rw [binary_of_some (show binary? .div v w = _ from hquot)]
        exact Simulates.pure _
    · exact Simulates.fail _ _
  | mod =>
    simp only [binaryValue]
    split
    · rename_i m n
      split_ifs with h0
      · exact Simulates.fail _ _
      · have hrem : binary? .mod (.int m : Value ω) (.int n) = some (.int (m.tmod n)) := if_neg h0
        rw [binary_of_some hrem]
        exact Simulates.pure _
    · exact Simulates.fail _ _
  | and | or => exact Simulates.fail _ _

end Operators

/-! ### Calls -/

section Calls

variable {sim : BillingSimulationContext ω} {ctx : Context L} {rules : List BillingRequestRule}

/-- A number is what the parameter for it gets, unless the two sides part there. -/
theorem numberArgument_simulates {α : Type} {form : Form} {v : Value ω} {k : ℚ → Run α}
    {y : Action Watch RunError α} (hk : ∀ x s, Parted sim ctx s → Parted sim ctx (k x s).2)
    (h : ∀ x, argument L .float form v = .ok (.float x) →
      Simulates (Parted sim ctx) (Related rules) (k x) y) :
    Simulates (Parted sim ctx) (Related rules) (numberArgument form v >>= k) y := by
  cases v with
  | int n =>
    refine note_simulates (x := k n) (hk n) fun hagree => h n ?_
    have hfloats : L.floats form = true := by
      simpa only [Step.Parts, Bool.not_eq_false] using hagree
    simp only [argument, hfloats, if_true]
  | float x => exact h x rfl
  | _ => exact Simulates.fail _ _

theorem callValue_of_ok {f : Func} {forms : List Form} {vs vs' : List (Value ω)}
    (h : arguments L f.params forms vs = .ok vs') :
    callValue (L := L) (watchHost ctx) forms (.func f) vs = watchHost ctx f vs' := by
  change (lift (arguments L f.params forms vs) >>= fun vs => watchHost ctx f vs) = _
  rw [h]
  rfl

/-- A function that leaves the trace as it is. -/
theorem host_pure {f : Func} {vs : List (Value ω)} {r : Value ω}
    (h : ∀ w, call ctx f vs w = (.ok r, w)) (hf : f ≠ .trace ∧ f ≠ .traceInt) :
    Simulates (Parted sim ctx) (Related rules) (pure r : Run (Value ω)) (watchHost ctx f vs) := by
  refine ⟨fun _ hs => hs, fun s w a s' hR hrun => .inr ?_⟩
  cases hrun
  refine ⟨{ w with world := w.world, apart := w.apart || f == .trace || f == .traceInt }, ?_, ?_⟩
  · unfold watchHost
    rw [h]
  · refine ⟨hR.matchedTier, hR.billingUnit, hR.fixedPrice, hR.requestRules, ?_⟩
    change (w.apart || f == .trace || f == .traceInt) = false
    rw [hR.apart, beq_false_of_ne hf.1, beq_false_of_ne hf.2]
    rfl

/-- A function that records a pricing call. -/
theorem host_record {f : Func} {vs : List (Value ω)} {r : Value ω} {p : PricingCall}
    {g : Runtime → Runtime} (h : ∀ w, call ctx f vs w = (.ok r, w.record p))
    (hf : f ≠ .trace ∧ f ≠ .traceInt) (hsteps : ∀ s, (g s).steps = s.steps)
    (hg : ∀ s w, Related rules s w → Related rules (g s) { w with world := w.world.record p }) :
    Simulates (Parted sim ctx) (Related rules) (modify g >>= fun _ => pure r : Run (Value ω))
      (watchHost ctx f vs) := by
  refine ⟨fun s hs => parted_of_steps (hsteps s) hs, fun s w a s' hR hrun => .inr ?_⟩
  have hrun' : (Except.ok r, g s) = (Except.ok a, s') := hrun
  cases hrun'
  have happart : (w.apart || f == .trace || f == .traceInt) = w.apart := by
    rw [beq_false_of_ne hf.1, beq_false_of_ne hf.2, Bool.or_false, Bool.or_false]
  refine ⟨{ w with world := w.world.record p }, ?_, hg s w hR⟩
  unfold watchHost
  rw [h, happart]

/-- A string is what the parameter for it gets. -/
theorem string_simulates {α : Type} {v : Value ω} {k : String → Run α}
    {y : Action Watch RunError α}
    (h : ∀ s, v = .str s → Simulates (Parted sim ctx) (Related rules) (k s) y) :
    Simulates (Parted sim ctx) (Related rules) (lift (string v) >>= k) y := by
  cases v with
  | str s => exact h s rfl
  | _ => exact Simulates.fail _ _

theorem readHeader_parts (name : String) (h : ¬ (Step.header name).Parts sim ctx) :
    readHeader sim name = Expr.header ctx name := by
  simpa only [Step.Parts, ne_eq, not_not] using h

theorem call₁_simulates (hsame : SameContext sim ctx) (name : Func₁) (form : Form) (v : Value ω) :
    Simulates (Parted sim ctx) (Related rules) (call₁ sim name form v)
      (callValue (L := L) (watchHost ctx) [form] (.func name.func) [v]) := by
  have hnumber : ∀ {f : Func} {x : ℚ}, f.params = [.float] →
      argument L .float form v = .ok (.float x) →
        callValue (L := L) (watchHost ctx) [form] (.func f) [v] = watchHost ctx f [.float x] := by
    intro f x hparams harg
    refine callValue_of_ok ?_
    rw [hparams]
    simp only [arguments, harg]
    rfl
  cases name with
  | fixed =>
    refine numberArgument_simulates (fun x s hs => hs) fun x harg => ?_
    rw [Func₁.func, hnumber rfl harg]
    refine host_record (p := .fixed x) (fun w => rfl) ⟨by simp, by simp⟩ (fun _ => rfl)
      fun s w hR => ?_
    exact ⟨hR.matchedTier, rfl, rfl, hR.requestRules, hR.apart⟩
  | param =>
    refine string_simulates fun path hv => ?_
    subst hv
    cases hreq : sim.request with
    | none => exact Simulates.fail _ _
    | some request =>
      cases hpath : request.path path with
      | none =>
        simp only [hpath]
        exact Simulates.fail _ _
      | some value =>
        have hparam := hsame.path request path value hreq hpath
        simp only [hpath]
        change Simulates _ _ _ (watchHost ctx .param [.str path])
        refine host_pure (fun w => ?_) ⟨by simp, by simp⟩
        rw [← hparam]
        rfl
  | header =>
    refine string_simulates fun name hv => ?_
    subst hv
    cases hreq : sim.request with
    | none => exact Simulates.fail _ _
    | some request =>
      refine note_simulates (fun _ h => h) fun hagree => ?_
      rw [readHeader_parts name hagree]
      change Simulates _ _ _ (watchHost ctx .header [.str name])
      exact host_pure (fun w => rfl) ⟨by simp, by simp⟩
  | u =>
    refine string_simulates fun name hv => ?_
    subst hv
    cases husage : sim.usage with
    | none => exact Simulates.fail _ _
    | some facts =>
      refine note_simulates (fun _ h => h) fun hagree => ?_
      have hu : unmarked (facts name) = Expr.u ctx name := by
        by_contra hne
        exact hagree ⟨facts, husage, hne⟩
      rw [hu]
      change Simulates _ _ _ (watchHost ctx .u [.str name])
      exact host_pure (fun w => rfl) ⟨by simp, by simp⟩
  | time f =>
    refine string_simulates fun zone hv => ?_
    subst hv
    cases hnow : sim.now f (trim zone) with
    | none => exact Simulates.fail _ _
    | some n =>
      rw [← hsame.now f zone n hnow]
      change Simulates _ _ _ (watchHost ctx (.time f) [.str zone])
      exact host_pure (fun w => rfl) ⟨by simp, by simp⟩
  | abs | ceil | floor =>
    refine numberArgument_simulates (fun x s hs => hs) fun x harg => ?_
    rw [Func₁.func, hnumber rfl harg]
    exact host_pure (fun w => rfl) ⟨by simp, by simp⟩

/-- What is met stays met. -/
theorem numberArgument_keeps (form : Form) (v : Value ω) :
    Keeps (Parted sim ctx) (fun _ => True) (numberArgument form v) := by
  cases v with
  | int n => exact fun s hs => ⟨parted_append rfl hs, fun _ _ => trivial⟩
  | _ => exact fun s hs => ⟨hs, fun _ _ => trivial⟩

theorem call₂_simulates (hsame : SameContext sim ctx) (name : Func₂) (form₁ form₂ : Form)
    {x y : Run (Value ω)} {d e : Action Watch RunError (Value ω)}
    (hx : Simulates (Parted sim ctx) (Related rules) x d)
    (hy : Simulates (Parted sim ctx) (Related rules) y e) :
    Simulates (Parted sim ctx) (Related rules) (call₂ sim name form₁ form₂ x y) (do
      let v ← d
      let w ← e
      callValue (L := L) (watchHost ctx) [form₁, form₂] (.func name.func) [v, w]) := by
  -- `min` and `max` check their first argument before they evaluate the second one
  have hnumbers : ∀ {f : Func} {g : ℚ → ℚ → ℚ}, f.params = [.float, .float] →
      (∀ a b w, call ctx f [.float a, .float b] w = (.ok (.float (g a b)), w)) →
      (f ≠ .trace ∧ f ≠ .traceInt) →
        Simulates (Parted sim ctx) (Related rules)
          (do
            let v ← x
            let a ← numberArgument form₁ v
            let w ← y
            let b ← numberArgument form₂ w
            pure (.float (g a b)) : Run (Value ω))
          (do
            let v ← d
            let w ← e
            callValue (L := L) (watchHost ctx) [form₁, form₂] (.func f) [v, w]) := by
    intro f g hparams hcall hf
    refine Simulates.bind hx fun v => ?_
    refine numberArgument_simulates (fun a s hs => ?_) fun a ha => ?_
    · have hkeeps : Keeps (Parted sim ctx) (fun _ => True) (do
          let w ← y
          let b ← numberArgument form₂ w
          pure (.float (g a b)) : Run (Value ω)) :=
        Keeps.bind (V := fun _ => True) (fun s hs => ⟨hy.1 s hs, fun _ _ => trivial⟩) fun w _ =>
          Keeps.bind (numberArgument_keeps form₂ w) fun b _ => Keeps.pure trivial
      exact (hkeeps s hs).1
    · refine Simulates.bind hy fun w => ?_
      refine numberArgument_simulates (fun b s hs => hs) fun b hb => ?_
      have hargs : arguments L f.params [form₁, form₂] [v, w] = .ok [.float a, .float b] := by
        rw [hparams]
        simp only [arguments, ha, hb]
        rfl
      rw [callValue_of_ok hargs]
      exact host_pure (hcall a b) hf
  cases name with
  | tier =>
    refine Simulates.bind hx fun v => ?_
    refine string_simulates fun name hv => ?_
    subst hv
    refine Simulates.bind hy fun w => ?_
    refine numberArgument_simulates (fun a s hs => hs) fun a ha => ?_
    have hargs : arguments L Func.tier.params [form₁, form₂] [.str name, w] =
        .ok [.str name, .float a] := by
      simp only [Func.params, arguments, ha]
      rfl
    rw [Func₂.func, callValue_of_ok hargs]
    refine host_record (p := .tier name a) (fun w => rfl) ⟨by simp, by simp⟩ (fun _ => rfl)
      fun s w hR => ?_
    exact ⟨rfl, hR.billingUnit, hR.fixedPrice, hR.requestRules, hR.apart⟩
  | has =>
    refine Simulates.bind hx fun source => ?_
    refine Simulates.bind hy fun w => ?_
    refine string_simulates fun substring hw => ?_
    subst hw
    have hargs : arguments L Func.has.params [form₁, form₂] [source, .str substring] =
        .ok [source, .str substring] := rfl
    have hhas : ∀ b, has ctx source substring = b →
        Simulates (Parted sim ctx) (Related rules) (pure (.bool b) : Run (Value ω))
          (callValue (L := L) (watchHost ctx) [form₁, form₂] (.func .has)
            [source, .str substring]) := by
      rintro b rfl
      rw [callValue_of_ok hargs]
      exact host_pure (fun w => rfl) ⟨by simp, by simp⟩
    -- what the browser does with a source that is not `nil`
    have hsource : source ≠ .nil → Simulates (Parted sim ctx) (Related rules)
        (lift (searched sim source substring) : Run (Value ω))
        (callValue (L := L) (watchHost ctx) [form₁, form₂] (.func .has)
          [source, .str substring]) := by
      intro hnil
      have hreads : has ctx source substring =
          (substring != "" && ctx.contains (ctx.sprint source) substring) := by
        cases source with
        | nil => exact absurd rfl hnil
        | _ => rfl
      unfold searched
      split_ifs with hempty
      · exact hhas false (by rw [hreads, hempty]; rfl)
      · cases htext : sim.billingString source with
        | none => exact Simulates.fail _ _
        | some text =>
          refine hhas _ ?_
          rw [hreads, bne_iff_ne.2 hempty, Bool.true_and, hsame.billingString source text htext,
            hsame.includes]
    cases source with
    | nil => exact hhas false rfl
    | _ => exact hsource (by simp)
  | min | max => exact hnumbers rfl (fun _ _ _ => rfl) ⟨by simp [Func₂.func], by simp [Func₂.func]⟩

end Calls

/-! ### Evaluation -/

section Evaluate

variable {sim : BillingSimulationContext ω} {ctx : Context L} {rules : List BillingRequestRule}

theorem checkValue_eq {v r : Value ω} (h : checkValue v = .ok r) : r = v := by
  unfold checkValue at h
  split at h
  · split_ifs at h
    exact (Except.ok.inj h).symm
  · exact (Except.ok.inj h).symm

theorem guarded_simulates (depth : ℕ) {x : Run (Value ω)} {y : Action Watch RunError (Value ω)}
    (h : Simulates (Parted sim ctx) (Related rules) x y) :
    Simulates (Parted sim ctx) (Related rules) (guarded depth x) y := by
  unfold guarded
  split_ifs
  · exact Simulates.fail _ _
  · exact Simulates.bind_left h fun v => Simulates.lift fun r hr => by rw [checkValue_eq hr]

theorem readToken_simulates (hsame : SameContext sim ctx) (name : Token) (sc : L.Scope) :
    Simulates (Parted sim ctx) (Related rules) (lift (readToken sim name) : Run (Value ω))
      (nameMeaning (fun t => t.read ctx.params) (.token name) sc) := by
  refine Simulates.lift fun v hv => ?_
  unfold readToken at hv
  rcases htoken : sim.tokens name with _ | x
  · rw [htoken] at hv
    cases hv
  rw [htoken] at hv
  simp only at hv
  split_ifs at hv
  cases hv
  exact congrArg (fun q => Except.ok (Value.float q)) (hsame.tokens name x htoken)

/-- `&&` and `||` are stricter in the browser. -/
theorem binary_simulates (hL : NilApart L) (op : BinaryOp) {x y : Run (Value ω)}
    {d e : Meaning L Watch} {sc : L.Scope}
    (hx : Simulates (Parted sim ctx) (Related rules) x (d sc))
    (hy : Simulates (Parted sim ctx) (Related rules) y (e sc)) :
    Simulates (Parted sim ctx) (Related rules) (binary op x y) (binaryMeaning op d e sc) := by
  have hright : Simulates (Parted sim ctx) (Related rules) (do
      let w ← y
      let b ← lift (boolean w)
      pure (.bool b) : Run (Value ω)) (e sc) := by
    refine Simulates.bind_left hy fun w => ?_
    cases w with
    | bool b => exact Simulates.pure _
    | _ => exact Simulates.fail _ _
  cases op with
  | and =>
    refine Simulates.bind hx fun v => ?_
    cases v with
    | bool b =>
      cases b with
      | true => exact hright
      | false => exact Simulates.pure _
    | _ => exact Simulates.fail _ _
  | or =>
    refine Simulates.bind hx fun v => ?_
    cases v with
    | bool b =>
      cases b with
      | true => exact Simulates.pure _
      | false => exact hright
    | _ => exact Simulates.fail _ _
  | _ =>
    refine Simulates.bind hx fun v => ?_
    exact Simulates.bind hy fun w => binaryValue_simulates hL _ v w

theorem markRules_append (held : List ℕ) (k : ℕ) (rules : List BillingRequestRule) :
    markRules (held ++ [k]) rules =
      (markRules held rules).modify k fun r => { r with matched := true } := by
  refine ext_getElem (by simp [markRules]) fun i h₁ h₂ => ?_
  simp only [markRules, getElem_mapIdx, getElem_modify]
  by_cases hik : k = i
  · subst hik
    simp
  · simp [hik, contains_eq_mem, Ne.symm hik]

theorem isInteger_toNode (node : ExpressionNode) :
    (node.toNode : Node κ).isInteger = node.isInteger := by
  cases node with
  | literal value => cases value <;> rfl
  | _ => rfl

/-- Both sides note the condition of a rule, or part over its literals. -/
theorem related_select (k : ℕ) (yes no : ExpressionNode) (held : Bool) {s : Runtime} {w : Watch}
    (h : Related rules s w) :
    Parted sim ctx (s.select k yes no held) ∨
      Related rules (s.select k yes no held)
        (noteRule L k yes.toNode no.toNode (.bool held) w) := by
  by_cases hparts : (Step.rule yes no held).Parts sim ctx
  · exact .inl (parted_of_parts (s := s) rfl hparts)
  · right
    have hlit : comesApart L (yes.toNode : Node κ) no.toNode (.bool held : Value ω) = false := by
      cases hc : comesApart L (yes.toNode : Node κ) no.toNode (.bool held : Value ω) with
      | false => rfl
      | true =>
        refine absurd ?_ hparts
        simp only [comesApart, Bool.and_eq_true, bne_iff_ne, ne_eq, isInteger_toNode] at hc
        refine ⟨hc.1, ?_⟩
        cases held with
        | true => exact (isInteger_toNode yes).symm.trans hc.2
        | false => exact (isInteger_toNode no).symm.trans hc.2
    refine ⟨h.matchedTier, h.billingUnit, h.fixedPrice, ?_, ?_⟩
    · cases held with
      | true =>
        change s.requestRules.modify k _ = markRules (w.held ++ [k]) rules
        rw [h.requestRules, markRules_append]
      | false => exact h.requestRules
    · change (w.apart || comesApart L (yes.toNode : Node κ) no.toNode (.bool held)) = false
      rw [h.apart, hlit]
      rfl

theorem conditional_simulates {k k' : ℕ} (hk : k = k') (c y n : ExpressionNode) {x a b : Run (Value ω)}
    {d e f : Meaning L Watch} {sc : L.Scope}
    (hx : Simulates (Parted sim ctx) (Related rules) x (d sc))
    (ha : Simulates (Parted sim ctx) (Related rules) a (e sc))
    (hb : Simulates (Parted sim ctx) (Related rules) b (f sc)) :
    Simulates (Parted sim ctx) (Related rules)
      (conditional ((requestRule? (.conditional c y n)).map fun _ => k) y n x a b)
      (watchedConditional
        (fun v s =>
          if true && isRule (c.toNode : Node κ) y.toNode n.toNode then
            noteRule L k' y.toNode n.toNode v s
          else s) d e f sc) := by
  subst hk
  refine Simulates.bind hx fun v => ?_
  cases v with
  | bool held =>
    refine Simulates.modify (x := if held then a else b) (fun s hs => ?_) (fun s w hR => ?_) ?_
    · rw [requestRule?_eq (κ := κ)]
      cases isRule (c.toNode : Node κ) y.toNode n.toNode with
      | true => exact parted_append rfl hs
      | false => exact hs
    · rw [requestRule?_eq (κ := κ)]
      cases isRule (c.toNode : Node κ) y.toNode n.toNode with
      | true => exact related_select k y n held hR
      | false => exact .inr hR
    · cases held with
      | true => exact ha
      | false => exact hb
  | _ => exact Simulates.fail _ _

theorem callMeaning_one (f : Func) (form : Form) (d : Meaning L Watch) (sc : L.Scope)
    (params : Token → ℚ) :
    callMeaning (watchHost ctx) [form] (nameMeaning params (.func f)) [d] sc = (do
      let v ← d sc
      callValue (L := L) (watchHost ctx) [form] (.func f) [v]) := by
  simp [callMeaning, nameMeaning, Action.sequence]

theorem callMeaning_two (f : Func) (form form' : Form) (d e : Meaning L Watch) (sc : L.Scope)
    (params : Token → ℚ) :
    callMeaning (watchHost ctx) [form, form'] (nameMeaning params (.func f)) [d, e] sc = (do
      let v ← d sc
      let w ← e sc
      callValue (L := L) (watchHost ctx) [form, form'] (.func f) [v, w]) := by
  simp [callMeaning, nameMeaning, Action.sequence]

/-- **What the browser makes of a tree, the billing engine makes of it**, as the tree was written,
unless they part. -/
theorem evaluate_simulates (hL : NilApart L) (hsame : SameContext sim ctx) (node : ExpressionNode) :
    ∀ i depth sc, Simulates (Parted sim ctx) (Related rules) (evaluate sim i depth node)
      (watch ctx i node.toNode sc) := by
  induction node with
  | literal value =>
    intro i depth sc
    cases value <;> exact guarded_simulates depth (Simulates.pure _)
  | «variable» name =>
    exact fun i depth sc => guarded_simulates depth (readToken_simulates hsame name sc)
  | call₁ name x ih =>
    intro i depth sc
    refine guarded_simulates depth ?_
    simp only [ExpressionNode.toNode, watch, watchList, argumentForms, map_cons, map_nil,
      callMeaning_one, form_toNode]
    exact Simulates.bind (ih i (depth + 1) sc) fun v => call₁_simulates hsame name x.form v
  | call₂ name x y ihx ihy =>
    intro i depth sc
    refine guarded_simulates depth ?_
    simp only [ExpressionNode.toNode, watch, watchList, argumentForms, map_cons, map_nil,
      callMeaning_two, form_toNode]
    refine call₂_simulates hsame name x.form y.form (ihx i (depth + 1) sc) ?_
    rw [length_requestRules (κ := κ)]
    exact ihy (i + _) (depth + 1) sc
  | unary op x ih =>
    intro i depth sc
    refine guarded_simulates depth (Simulates.bind (ih i (depth + 1) sc) fun v => ?_)
    exact Simulates.lift fun r hr => unaryValue_eq hr
  | binary op l r ihl ihr =>
    intro i depth sc
    refine guarded_simulates depth (binary_simulates hL op (ihl i (depth + 1) sc) ?_)
    rw [length_requestRules (κ := κ)]
    exact ihr _ (depth + 1) sc
  | conditional c y n ihc ihy ihn =>
    intro i depth sc
    simp only [evaluate, length_requestRules (κ := κ)]
    exact guarded_simulates depth (conditional_simulates rfl c y n (ihc i (depth + 1) sc)
      (ihy _ (depth + 1) sc) (ihn _ (depth + 1) sc))

end Evaluate

end NexusTok.Expr.Browser
