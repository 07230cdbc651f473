import NexusTok.Expr.Simulation

/-!
# The price shown and the price charged

* `shown_iff_charged` : the browser and the billing engine accept the same prices, find the same
  request rules, and come to the same cost and the same trace, unless the browser meets a step at
  which the two part.
* `usageTest` : where they part over a name of `u`, an expression with another price.
* `tierOf` : where they part over an integer, an expression that the billing engine fails at.
-/

namespace NexusTok.Expr.Browser

open Machine Machine.Action List

variable {κ ω : Type} {L : Lang κ ω} {sim : BillingSimulationContext ω} {ctx : Context L}

/-! ### Compilation -/

variable {node : ExpressionNode} {rules : List RequestRule}

theorem compile_ok (h : compileBillingExpression node = .ok rules) :
    rules = requestRules node ∧ node.height ≤ 256 ∧
      (node.functions.contains .fixed = true → validateFixedPricingTree node = .ok ()) := by
  unfold compileBillingExpression expressionDependencies visitExpression at h
  by_cases hheight : node.height ≤ 256
  · rw [if_pos hheight] at h
    rcases htypes : checkExpressionTypes node with _ | t
    · rw [htypes] at h
      cases h
    rw [htypes] at h
    change (if node.functions.contains .fixed = true then
      (validateFixedPricingTree node).bind fun _ => .ok (requestRules node)
      else .ok (requestRules node)) = .ok rules at h
    split_ifs at h with hfixed
    · rcases hvalid : validateFixedPricingTree node with _ | u
      · rw [hvalid] at h
        cases h
      rw [hvalid] at h
      exact ⟨(Except.ok.inj h).symm, hheight, fun _ => rfl⟩
    · exact ⟨(Except.ok.inj h).symm, hheight, fun hf => absurd hf hfixed⟩
  · rw [if_neg hheight] at h
    cases h

/-- An expression of the browser names no function that leaves a trace. -/
theorem restricted_toNode (node : ExpressionNode) : (node.toNode : Node κ).restricted = false := by
  unfold Node.restricted
  rw [any_names node _ fun _ => rfl, any_eq_false]
  intro f hf
  have hfunc : ∀ node : ExpressionNode, ∀ f ∈ node.functions, f ≠ .trace ∧ f ≠ .traceInt := by
    intro node
    induction node with
    | call₁ name x ih =>
      intro f hf
      rcases mem_append.1 hf with hf | hf
      · exact ih f hf
      · rw [mem_singleton.1 hf]
        cases name <;> exact ⟨nofun, nofun⟩
    | call₂ name x y ihx ihy =>
      intro f hf
      rcases mem_append.1 hf with hf | hf
      · rcases mem_append.1 hf with hf | hf
        · exact ihx f hf
        · exact ihy f hf
      · rw [mem_singleton.1 hf]
        cases name <;> exact ⟨nofun, nofun⟩
    | unary op x ih => exact ih
    | binary op l r ihl ihr =>
      intro f hf
      rcases mem_append.1 hf with hf | hf
      · exact ihl f hf
      · exact ihr f hf
    | conditional c y n ihc ihy ihn =>
      intro f hf
      rcases mem_append.1 hf with hf | hf
      · rcases mem_append.1 hf with hf | hf
        · exact ihc f hf
        · exact ihy f hf
      · exact ihn f hf
    | _ => exact fun f hf => absurd hf not_mem_nil
  obtain ⟨htrace, htraceInt⟩ := hfunc node f hf
  simp [htrace, htraceInt]

theorem fixedPricing_toNode (node : ExpressionNode) :
    (node.toNode : Node κ).fixedPricing = node.functions.contains .fixed := by
  unfold Node.fixedPricing
  rw [any_names node _ fun _ => rfl, ← any_beq']
  congr 1
  funext f
  rw [Bool.eq_iff_iff]
  simp

/-- The billing engine takes what the browser has compiled. -/
theorem compile_toNode (h : compileBillingExpression node = .ok rules) :
    compile L node.toNode = some (patch L.text [] node.toNode) := by
  obtain ⟨-, hheight, hfixed⟩ := compile_ok h
  have hvalid : ((node.toNode : Node κ).fixedPricing &&
      !Expr.validateFixedPricingTree (node.toNode : Node κ)) = false := by
    rw [fixedPricing_toNode]
    cases hf : node.functions.contains .fixed with
    | false => rfl
    | true => rw [(validate_toNode hheight).1 (hfixed hf)]; rfl
  unfold compile
  rw [hvalid, restricted_toNode]
  rfl

/-! ### Runs -/

theorem markRules_nil (rules : List BillingRequestRule) : markRules [] rules = rules := by
  unfold markRules
  refine ext_getElem (by simp) fun i h₁ h₂ => ?_
  simp

/-- A part of an expression that the browser evaluates and that the two sides agree on, in the
patched expression. -/
theorem patched_of_evaluate (hL : NilApart L) (hsame : SameContext sim ctx) (node : ExpressionNode)
    {found : List RequestRuleTrace}
    (hfound : (node.toNode : Node κ).ruleCount ≤ found.length) {depth : ℕ} {v : Value ω} {s : Runtime}
    (hrun : evaluate sim 0 depth node (Runtime.start rules) = (.ok v, s))
    (hagree : ¬ Parted sim ctx s) :
    ∃ w world, Related (Runtime.start rules).requestRules s w ∧
      patched ctx [] node.toNode L.top (World.start found) = (.ok v, world) ∧
      Marked found w world := by
  have hstart : Related (Runtime.start rules).requestRules (Runtime.start rules)
      (Watch.start found) := ⟨rfl, rfl, rfl, (markRules_nil _).symm, rfl⟩
  rcases (evaluate_simulates hL hsame node 0 depth L.top).2 _ _ v s hstart hrun with
    hparted | ⟨w, hwatch, hrelated⟩
  · exact absurd hparted hagree
  · have happart : (watch ctx 0 node.toNode L.top (Watch.start found)).2.apart = false := by
      rw [hwatch]
      exact hrelated.apart
    obtain ⟨hresult, hmarked⟩ := (watch_spec ctx node.toNode found hfound).2 happart
    rw [hwatch] at hresult hmarked
    exact ⟨w, _, hrelated, Prod.ext hresult.symm rfl, hmarked⟩

theorem marks_eq {text : Node κ → String} {found : List RequestRuleTrace}
    (h : List.Forall₂ (SameRule text) rules found) (held : List ℕ) :
    (markAll held found).map (fun r => (r.multiplier, r.matched)) =
      (markRules held (Runtime.start rules).requestRules).map fun r => (r.multiplier, r.matched) := by
  have hlen : rules.length = found.length := h.length_eq
  refine ext_getElem (by simp [markAll, markRules, Runtime.start, hlen]) fun i h₁ h₂ => ?_
  have hi : i < found.length := by simpa [markAll] using h₁
  obtain ⟨before, hsame⟩ := h.get (hlen ▸ hi) hi
  simp only [get_eq_getElem] at hsame
  simp [markAll, markRules, Runtime.start, hsame]

/-- The billing engine charges what the browser shows. -/
def Charges (ctx : Context L) (node : ExpressionNode) (shown : BillingEvaluation) : Prop :=
  ∃ prog rules world, compile L node.toNode = some (prog, rules) ∧
    runProgram ctx prog rules = (.ok shown.cost, world) ∧
    world.trace.matchedTier = shown.runtime.matchedTier ∧
    world.trace.billingUnit = shown.runtime.billingUnit ∧
    world.trace.fixedPrice = shown.runtime.fixedPrice ∧
    world.trace.requestRules.map (fun r => (r.multiplier, r.matched)) =
      shown.runtime.requestRules.map fun r => (r.multiplier, r.matched)

theorem evaluate_ok {shown : BillingEvaluation}
    (h : evaluateBillingExpression sim node = .ok shown) :
    ∃ v, compileBillingExpression node = .ok (requestRules node) ∧
      evaluate sim 0 1 node (Runtime.start (requestRules node)) = (.ok v, shown.runtime) ∧
      v.number = some shown.cost := by
  unfold evaluateBillingExpression at h
  rcases hcompile : compileBillingExpression node with _ | rules
  · rw [hcompile] at h
    cases h
  obtain ⟨rfl, -, -⟩ := compile_ok hcompile
  rw [hcompile] at h
  change (if _ then _ else _) = _ at h
  split_ifs at h
  cases hrun : evaluate sim 0 1 node (Runtime.start (requestRules node)) with
  | mk r s =>
    rw [hrun] at h
    rcases r with _ | v
    · cases h
    simp only [checkCost] at h
    rcases hv : v.number with _ | x
    · rw [hv] at h
      cases h
    rw [hv] at h
    by_cases hx : x < 0
    · simp only [if_pos hx] at h
      cases h
    simp only [if_neg hx] at h
    have hshown : (⟨x, s⟩ : BillingEvaluation) = shown := Except.ok.inj h
    subst hshown
    exact ⟨v, rfl, rfl, hv⟩

theorem asFloat64_eq {v : Value ω} {x : ℚ} (h : v.number = some x) : asFloat64 v = .ok x := by
  cases v with
  | int | float => cases h; rfl
  | _ => cases h

/-- **What the browser shows is charged**, unless it met a step at which the two sides part. -/
theorem charges_of_agree (hL : NilApart L) (hsame : SameContext sim ctx)
    {shown : BillingEvaluation} (h : evaluateBillingExpression sim node = .ok shown)
    (hagree : ¬ Parted sim ctx shown.runtime) : Charges ctx node shown := by
  obtain ⟨v, hcompile, hrun, hcost⟩ := evaluate_ok h
  have hN : (node.toNode : Node κ).ruleCount ≤ (patch L.text [] node.toNode).2.length :=
    (rules_length node.toNode).ge
  obtain ⟨w, world, hrelated, hpatched, hmarked⟩ := patched_of_evaluate hL hsame node hN hrun hagree
  refine ⟨_, _, world, compile_toNode hcompile, ?_, ?_⟩
  · rw [runProgram_apply, show eval _ _ _ _ _ = (.ok v, world) from hpatched]
    exact congrArg (·, world) (asFloat64_eq hcost)
  · rw [hmarked.2]
    refine ⟨hrelated.matchedTier, hrelated.billingUnit, hrelated.fixedPrice, ?_⟩
    rw [hrelated.requestRules]
    exact marks_eq (requestRules_toNode node) w.held

/-! ### Where the two sides part over a name -/

/-- `u(name) == nil ? 1 : 2`. -/
def usageTest (name : String) : ExpressionNode :=
  .conditional (.binary .eq (.call₁ .u (.literal (.string name))) (.literal .null))
    (.literal (.integer 1)) (.literal (.integer 2))

/-- The value is `nil`. -/
def isNil : Value ω → Bool
  | .nil => true
  | _ => false

theorem strictEqual_nil {v : Value ω} (hv : ∀ f, v ≠ .func f) :
    strictEqual (unmarked v) .nil = .ok (isNil v) := by
  cases v with
  | func f => exact absurd rfl (hv f)
  | _ => rfl

variable {facts : String → Value ω}

theorem usageTest_shown (husage : sim.usage = some facts)
    (htokens : ∀ name x, sim.tokens name = some x → 0 ≤ x) {name : String}
    (hv : ∀ f, facts name ≠ .func f) :
    ∃ shown, evaluateBillingExpression sim (usageTest name) = .ok shown ∧
      shown.cost = if isNil (facts name) then 1 else 2 := by
  have hvalid : (tokenVariables.any fun name => (sim.tokens name).any (· < 0)) = false := by
    rw [any_eq_false]
    intro name _
    cases htoken : sim.tokens name with
    | none => simp
    | some x => simpa using htokens name x htoken
  have hcompile : compileBillingExpression (usageTest name) = .ok [] := rfl
  have hu : evaluate sim 0 3 (.call₁ .u (.literal (.string name))) (Runtime.start []) =
      (.ok (unmarked (facts name)), Runtime.note (.usage name) (Runtime.start [])) := by
    have hcheck : checkValue (unmarked (facts name)) = .ok (unmarked (facts name)) := by
      cases facts name <;> rfl
    have hcall : call₁ sim .u .atom (.str name) (Runtime.start []) =
        (.ok (unmarked (facts name)), Runtime.note (.usage name) (Runtime.start [])) := by
      unfold call₁
      rw [husage]
      rfl
    refine (bind_of_ok (a := unmarked (facts name)) ?_).trans (congrArg (·, _) hcheck)
    exact (bind_of_ok (a := Value.str name) rfl).trans hcall
  have heq : evaluate sim 0 2 (.binary .eq (.call₁ .u (.literal (.string name))) (.literal .null))
      (Runtime.start []) =
        (.ok (.bool (isNil (facts name))), Runtime.note (.usage name) (Runtime.start [])) := by
    refine (bind_of_ok (a := Value.bool (isNil (facts name))) ?_).trans rfl
    refine (bind_of_ok hu).trans ?_
    change (Except.map Value.bool (strictEqual (unmarked (facts name)) .nil), _) = _
    rw [strictEqual_nil hv]
    rfl
  have hrun : ∃ s, evaluate sim 0 1 (usageTest name) (Runtime.start []) =
      (.ok (.int (if isNil (facts name) then 1 else 2)), s) := by
    refine ⟨Runtime.note (.usage name) (Runtime.start []), ?_⟩
    cases hnil : isNil (facts name) with
    | true =>
      rw [hnil] at heq
      have hone : conditional (ω := ω) none (.literal (.integer 1)) (.literal (.integer 2)) _
          (evaluate sim 0 2 (.literal (.integer 1))) (evaluate sim 0 2 (.literal (.integer 2)))
          (Runtime.start []) = (.ok (.int 1), Runtime.note (.usage name) (Runtime.start [])) :=
        bind_of_ok heq
      exact bind_of_ok hone
    | false =>
      rw [hnil] at heq
      have htwo : conditional (ω := ω) none (.literal (.integer 1)) (.literal (.integer 2)) _
          (evaluate sim 0 2 (.literal (.integer 1))) (evaluate sim 0 2 (.literal (.integer 2)))
          (Runtime.start []) = (.ok (.int 2), Runtime.note (.usage name) (Runtime.start [])) :=
        bind_of_ok heq
      exact bind_of_ok htwo
  obtain ⟨s, hrun⟩ := hrun
  refine ⟨⟨if isNil (facts name) then 1 else 2, s⟩, ?_, rfl⟩
  unfold evaluateBillingExpression
  rw [hcompile]
  change (if _ then _ else _) = _
  rw [hvalid, hrun]
  cases isNil (facts name) <;> rfl

theorem usageTest_charged (hL : NilApart L)
    (husage : ctx.usage = some facts) {name : String} (hv : ∀ f, facts (trimSpace name) ≠ .func f) :
    ∃ world, runProgram ctx (patch L.text [] (usageTest name).toNode).1
      (patch L.text [] (usageTest name).toNode).2 =
        (.ok (if isNil (facts (trimSpace name)) then 1 else 2), world) := by
  have hu : eval (fun t => t.read ctx.params) (call ctx)
      (ExpressionNode.toNode (.call₁ .u (.literal (.string name))) : Node κ) L.top
      (World.start []) = (.ok (facts (trimSpace name)), World.start []) := by
    change (Except.ok (Expr.u ctx name), World.start []) = _
    unfold Expr.u
    rw [husage]
  have hsame : Expr.binary L .eq (facts (trimSpace name)) .nil =
      .ok (.bool (isNil (facts (trimSpace name)))) := by
    cases hfact : facts (trimSpace name) with
    | func f => exact absurd hfact (hv f)
    | other o => exact hL.eq_nil o
    | _ => rfl
  have heq : eval (fun t => t.read ctx.params) (call ctx)
      (ExpressionNode.toNode (.binary .eq (.call₁ .u (.literal (.string name))) (.literal .null)) :
        Node κ) L.top (World.start []) =
          (.ok (.bool (isNil (facts (trimSpace name)))), World.start []) := by
    refine (bind_of_ok hu).trans ?_
    exact congrArg (·, _) hsame
  refine ⟨World.start [], ?_⟩
  cases hnil : isNil (facts (trimSpace name)) with
  | true =>
    rw [hnil] at heq
    have hone : eval (fun t => t.read ctx.params) (call ctx)
        ((usageTest name).toNode : Node κ) L.top (World.start []) =
          (.ok (.int 1), World.start []) := bind_of_ok heq
    refine (bind_of_ok hone).trans ?_
    exact congrArg (fun q => (Except.ok q, _)) Int.cast_one
  | false =>
    rw [hnil] at heq
    have htwo : eval (fun t => t.read ctx.params) (call ctx)
        ((usageTest name).toNode : Node κ) L.top (World.start []) =
          (.ok (.int 2), World.start []) := bind_of_ok heq
    refine (bind_of_ok htwo).trans ?_
    exact congrArg (fun q => (Except.ok q, _)) (Int.cast_ofNat 2)

/-- A test of a fact is not charged as shown where its name, trimmed on one side only, is that of a
fact on one side only. -/
theorem usageTest_not_charged (hL : NilApart L) (hsame : SameContext sim ctx)
    (husage : sim.usage = some facts)
    (htokens : ∀ name x, sim.tokens name = some x → 0 ≤ x) (name : String) :
    ∃ shown, evaluateBillingExpression sim (usageTest name) = .ok shown ∧
      (¬ isNil (facts name) = isNil (facts (trimSpace name)) → ¬ Charges ctx (usageTest name) shown) := by
  have hfacts : ∀ name f, facts name ≠ .func f := by
    intro name f hf
    refine ctx.usage_data facts name (fun _ => True) (hsame.usage facts husage) ?_
    rw [hf]
    trivial
  obtain ⟨shown, hshown, hcost⟩ := usageTest_shown husage htokens (hfacts name)
  refine ⟨shown, hshown, fun hne hcharges => hne ?_⟩
  obtain ⟨world, hrun⟩ := usageTest_charged (κ := κ) hL (hsame.usage facts husage)
    (hfacts (trimSpace name))
  obtain ⟨v, hcompile, -, -⟩ := evaluate_ok hshown
  obtain ⟨prog, rules, world', hprog, hrun', -⟩ := hcharges
  have hpatch : patch L.text [] (usageTest name).toNode = (prog, rules) :=
    Option.some.inj ((compile_toNode hcompile).symm.trans hprog)
  rw [hpatch, hrun', hcost] at hrun
  have hprice := Except.ok.inj (congrArg Prod.fst hrun)
  -- one price is 1 and the other one 2, unless both facts are there or neither is
  cases hraw : isNil (facts name) with
  | true =>
    cases htrimmed : isNil (facts (trimSpace name)) with
    | true => rfl
    | false => rw [hraw, htrimmed] at hprice; norm_num at hprice
  | false =>
    cases htrimmed : isNil (facts (trimSpace name)) with
    | true => rw [hraw, htrimmed] at hprice; norm_num at hprice
    | false => rfl

/-! ### Where the two sides part over an integer -/

/-- `tier(name, price)`. -/
def tierOf (name : String) (price : ExpressionNode) : ExpressionNode :=
  .call₂ .tier (.literal (.string name)) price

/-- A price that the browser finds to be an integer, and that the billing engine does not take. -/
theorem tierOf_not_charged (hL : NilApart L) (hsame : SameContext sim ctx) (name : String)
    {price : ExpressionNode} {n : ℤ} {s : Runtime}
    (hrun : evaluate sim 0 2 price (Runtime.start (requestRules price)) = (.ok (.int n), s))
    (hagree : ¬ Parted sim ctx s) (hform : L.floats price.form = false)
    (shown : BillingEvaluation) : ¬ Charges ctx (tierOf name price) shown := by
  rintro ⟨prog, rules, world, hprog, hcharged, -⟩
  -- the call of `tier`, in the patched tree as in the tree itself
  have hpatch : patch L.text [] (tierOf name price).toNode =
      (.call (.identifier (.func .tier)) [.string name, (patch L.text [] price.toNode).1],
        (patch L.text [] price.toNode).2) := rfl
  have hcompiled : (prog, rules) = patch L.text [] (tierOf name price).toNode := by
    unfold compile at hprog
    split_ifs at hprog
    exact (Option.some.inj hprog).symm
  rw [hpatch] at hcompiled
  cases hcompiled
  have hN : (price.toNode : Node κ).ruleCount ≤ (patch L.text [] price.toNode).2.length :=
    (rules_length price.toNode).ge
  obtain ⟨w, world', -, hprice, -⟩ := patched_of_evaluate hL hsame price hN hrun hagree
  have hforms : ((patch L.text [] price.toNode).1).form = price.form :=
    (alike_patch L.text price.toNode []).form.trans (form_toNode price)
  have hargs : arguments L Func.tier.params [.atom, price.form] [.str name, .int n] =
      .error .failed := by
    simp only [Func.params, arguments, argument, hform]
    rfl
  have htier : eval (fun t => t.read ctx.params) (call ctx)
      (.call (.identifier (.func .tier)) [.string name, (patch L.text [] price.toNode).1]) L.top
      (World.start (patch L.text [] price.toNode).2) = (.error .failed, world') := by
    refine (bind_of_ok (a := [.str name, .int n]) (?_ : _ = (_, world'))).trans ?_
    · refine (bind_of_ok (a := Value.str name) rfl).trans ?_
      refine (bind_of_ok (a := [Value.int n]) (?_ : _ = (_, world'))).trans rfl
      exact (bind_of_ok hprice).trans rfl
    · refine (bind_of_ok (a := Value.func .tier) rfl).trans ?_
      change (lift (arguments L Func.tier.params [.atom, (patch L.text [] price.toNode).1.form]
        [.str name, .int n]) >>= fun vs => call ctx .tier vs) world' = _
      rw [hforms, hargs]
      rfl
  rw [runProgram_apply, htier] at hcharged
  cases hcharged

/-- **The browser and the billing engine accept the same fixed prices and find the same request
rules, and what the browser shows is charged**, unless the browser meets a step at which they part.
Where a name of `u` is trimmed on one side only, and where an integer is passed as a price, there are
expressions that are charged otherwise. -/
theorem shown_charged (hL : NilApart L) (ctx : Context L) :
    (∀ node : ExpressionNode, node.height ≤ 256 →
      (validateFixedPricingTree node = .ok () ↔
        Expr.validateFixedPricingTree (node.toNode : Node κ) = true)) ∧
    (∀ node : ExpressionNode,
      List.Forall₂ (SameRule L.text) (requestRules node) (patch L.text [] node.toNode).2) ∧
    ∀ sim, SameContext sim ctx →
      (∀ node shown, evaluateBillingExpression sim node = .ok shown →
        ¬ Parted sim ctx shown.runtime → Charges ctx node shown) ∧
      (∀ facts, sim.usage = some facts → (∀ name x, sim.tokens name = some x → 0 ≤ x) →
        ∀ name, ∃ shown, evaluateBillingExpression sim (usageTest name) = .ok shown ∧
          (¬ isNil (facts name) = isNil (facts (trimSpace name)) →
            ¬ Charges ctx (usageTest name) shown)) ∧
      ∀ name price n s,
        evaluate sim 0 2 price (Runtime.start (requestRules price)) = (.ok (.int n), s) →
        ¬ Parted sim ctx s → L.floats price.form = false →
        ∀ shown, ¬ Charges ctx (tierOf name price) shown := by
  refine ⟨fun node => validate_toNode, fun node => requestRules_toNode node, fun sim hsame => ⟨?_, ?_, ?_⟩⟩
  · exact fun node shown => charges_of_agree hL hsame
  · exact fun facts husage htokens => usageTest_not_charged hL hsame husage htokens
  · exact fun name price n s hrun hagree hform =>
      tierOf_not_charged hL hsame name hrun hagree hform

/-! ### A name with spaces around it -/

/-- Comparisons of an object with `nil`. -/
def compareNil (op : BinaryOp) (v w : Value Unit) : Except RunError (Value Unit) :=
  match op, v, w with
  | .eq, .other _, .nil | .eq, .nil, .other _ => .ok (.bool false)
  | .ne, .other _, .nil | .ne, .nil, .other _ => .ok (.bool true)
  | _, _, _ => .error .failed

/-- The small language, with comparisons of objects. -/
def nilLang : Lang Func Unit :=
  { memberLang with
    binary := compareNil
    binary_holds := by
      intro F op v w r h hr
      unfold compareNil at h
      split at h <;> cases h <;> cases hr }

theorem nilLang_apart : NilApart nilLang := ⟨fun _ => rfl, fun _ => rfl, fun _ => rfl, fun _ => rfl⟩

/-- A task of five seconds. -/
def fiveSeconds (name : String) : Value Unit := if name = "s" then .float 5 else .nil

theorem fiveSeconds_func (name : String) (f : Func) : fiveSeconds name ≠ .func f := by
  unfold fiveSeconds
  split_ifs <;> exact nofun

def taskContext : Context nilLang where
  params := ⟨0, 0, 0, 0, 0, 0, 0, 0, 0, 0⟩
  headers := []
  body := none
  usage := some fiveSeconds
  lower := id
  sprint _ := ""
  contains _ _ := false
  clock _ _ := 0
  body_data _ _ _ _ := nofun
  usage_data := by
    intro facts name F hfacts
    cases hfacts
    unfold fiveSeconds
    split_ifs <;> exact id

def taskSimulation : BillingSimulationContext Unit where
  tokens _ := none
  request := none
  usage := some fiveSeconds
  now _ _ := none
  toLowerCase := id
  billingString _ := none
  includes _ _ := false

theorem task_same : SameContext taskSimulation taskContext where
  tokens _ _ := nofun
  headers _ := nofun
  path _ _ _ := nofun
  usage _ h := h
  now _ _ _ := nofun
  billingString _ _ := nofun
  includes _ _ := rfl

theorem shown_charged_task :
    ∃ shown, evaluateBillingExpression taskSimulation (usageTest " s ") = .ok shown ∧
      ¬ Charges taskContext (usageTest " s ") shown := by
  obtain ⟨-, -, h⟩ := shown_charged nilLang_apart taskContext
  obtain ⟨shown, hshown, hnot⟩ :=
    (h taskSimulation task_same).2.1 fiveSeconds rfl (fun _ _ h => by cases h) " s "
  exact ⟨shown, hshown, hnot (by decide)⟩

/-- `u(" s ") == nil ? 1 : 2` is shown as 1 and charged as 2. -/
theorem padded_name_charged :
    (∃ shown, evaluateBillingExpression taskSimulation (usageTest " s ") = .ok shown ∧
      shown.cost = 1) ∧
    compile nilLang (usageTest " s ").toNode =
      some (patch nilLang.text [] (usageTest " s ").toNode) ∧
    ∃ world, runProgram taskContext (patch nilLang.text [] (usageTest " s ").toNode).1
      (patch nilLang.text [] (usageTest " s ").toNode).2 = (.ok 2, world) := by
  have hcompile : compileBillingExpression (usageTest " s ") = .ok [] := rfl
  have hsimulated : taskSimulation.usage = some fiveSeconds := rfl
  have hcharged : taskContext.usage = some fiveSeconds := rfl
  refine ⟨?_, compile_toNode hcompile, ?_⟩
  · exact usageTest_shown hsimulated (fun _ _ h => by cases h) (fiveSeconds_func _)
  · exact usageTest_charged nilLang_apart hcharged (fiveSeconds_func _)

end NexusTok.Expr.Browser
