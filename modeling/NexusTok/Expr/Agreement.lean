import NexusTok.Expr.Browser
import NexusTok.Expr.Watch

/-!
# The browser and the billing engine on one expression

* `validate_toNode` : the two validators of fixed prices accept the same trees.
* `requestRules_toNode` : the two sides find the same request rules, in the same order.
-/

namespace NexusTok.Expr.Browser

open Machine Machine.Action List

variable {κ ω : Type}

/-! ### One tree for both sides -/

def Literal.toNode : Literal → Node κ
  | .null => .nil
  | .boolean b => .bool b
  | .integer n => .integer n
  | .float x => .float x
  | .string s => .string s

/-- The tree that the billing engine has for the same expression. -/
def ExpressionNode.toNode : ExpressionNode → Node κ
  | .literal value => value.toNode
  | .variable name => .identifier (.token name)
  | .call₁ name x => .call (.identifier (.func name.func)) [x.toNode]
  | .call₂ name x y => .call (.identifier (.func name.func)) [x.toNode, y.toNode]
  | .unary op x => .unary op x.toNode
  | .binary op l r => .binary op l.toNode r.toNode
  | .conditional c y n => .conditional true c.toNode y.toNode n.toNode

theorem names_literal (value : Literal) : (value.toNode : Node κ).names = [] := by
  cases value <;> rfl

variable (node : ExpressionNode)

/-- The functions that a tree calls are those that the other tree names. -/
theorem any_names (P : Name → Bool) (hP : ∀ t, P (.token t) = false) :
    (node.toNode : Node κ).names.any P = node.functions.any fun f => P (.func f) := by
  induction node with
  | literal value =>
    rw [ExpressionNode.toNode, names_literal]
    rfl
  | «variable» name => simp [ExpressionNode.toNode, Node.names, ExpressionNode.functions, hP]
  | call₁ name x ih =>
    simp [ExpressionNode.toNode, Node.names, Node.namesList, ExpressionNode.functions, ih,
      Bool.or_comm]
  | call₂ name x y ihx ihy =>
    simp [ExpressionNode.toNode, Node.names, Node.namesList, ExpressionNode.functions, ihx, ihy,
      Bool.or_comm, Bool.or_left_comm]
  | unary op x ih => exact ih
  | binary op l r ihl ihr =>
    simp [ExpressionNode.toNode, Node.names, ExpressionNode.functions, ihl, ihr]
  | conditional c y n ihc ihy ihn =>
    simp [ExpressionNode.toNode, Node.names, ExpressionNode.functions, ihc, ihy, ihn]

theorem number_toNode : (node.toNode : Node κ).number = node.number := by
  cases node with
  | literal value => cases value <;> rfl
  | _ => rfl

theorem form_toNode : (node.toNode : Node κ).form = node.form := by
  induction node with
  | literal value => cases value <;> rfl
  | unary op x ih => simp only [ExpressionNode.toNode, Node.form, ExpressionNode.form, ih]
  | binary op l r ihl ihr =>
    simp only [ExpressionNode.toNode, Node.form, ExpressionNode.form, ihl, ihr]
  | _ => rfl

theorem probe_toNode : usesRequestProbe (node.toNode : Node κ) = node.functions.any isProbe := by
  unfold usesRequestProbe
  rw [any_names node _ fun _ => rfl]
  congr 1
  funext f
  cases f <;> rfl

theorem requestRule?_eq (c y n : ExpressionNode) :
    requestRule? (.conditional c y n) =
      if isRule (c.toNode : Node κ) y.toNode n.toNode then some ⟨c, y.number.getD 0⟩
      else none := by
  simp only [requestRule?, isRule, probe_toNode, number_toNode]
  cases y.number with
  | none => simp
  | some multiplier =>
    by_cases hn : n.number = some 1
    · cases c.functions.any isProbe with
      | true | false => simp [hn]
    · simp [hn]

/-! ### Fixed prices -/

theorem marker_toNode :
    Expr.containsPricingMarker (node.toNode : Node κ) =
      (node.functions.contains .tier || node.functions.contains .fixed) := by
  unfold Expr.containsPricingMarker
  have hname : ∀ f g : Func, (Name.func f == Name.func g) = (f == g) := by
    intro f g
    rw [Bool.eq_iff_iff]
    simp
  rw [any_names node _ fun _ => rfl, ← any_beq', ← any_beq']
  simp only [hname]
  induction node.functions with
  | nil => rfl
  | cons f fs ih =>
    simp only [any_cons] at ih ⊢
    rw [ih]
    simp only [Bool.or_assoc, Bool.or_left_comm]

theorem containsPricingMarker_eq {node : ExpressionNode} (h : node.height ≤ 256) :
    containsPricingMarker node = .ok (Expr.containsPricingMarker (node.toNode : Node κ)) := by
  rw [marker_toNode]
  unfold containsPricingMarker expressionDependencies visitExpression
  rw [if_pos h]
  rfl

theorem isRequestPriceMultiplier_conditional (t : Bool) (c a b : Node κ) :
    isRequestPriceMultiplier (.conditional t c a b) =
      (isRule c a b && !Expr.containsPricingMarker c && decide (0 ≤ a.number.getD 0)) := by
  simp only [isRequestPriceMultiplier, isRule]
  cases usesRequestProbe c with
  | false => rfl
  | true =>
    cases Expr.containsPricingMarker c with
    | true => simp
    | false =>
      cases a.number with
      | none => simp
      | some multiplier =>
        cases b.number with
        | none | some => simp

theorem isPriceMultiplier_eq {node : ExpressionNode} (h : node.height ≤ 256) :
    isPriceMultiplier node = .ok (isRequestPriceMultiplier (node.toNode : Node κ)) := by
  cases node with
  | conditional c y n =>
    simp only [ExpressionNode.height] at h
    have hc := containsPricingMarker_eq (κ := κ) (show c.height ≤ 256 by omega)
    rw [ExpressionNode.toNode, isRequestPriceMultiplier_conditional, number_toNode]
    unfold isPriceMultiplier
    rw [requestRule?_eq (κ := κ)]
    cases isRule (c.toNode : Node κ) y.toNode n.toNode with
    | false => rfl
    | true =>
      simp only [if_true, hc, Bool.true_and]
      by_cases hm : 0 ≤ y.number.getD 0
      · rw [if_pos hm, decide_eq_true hm, Bool.and_true]
        rfl
      · rw [if_neg hm, decide_eq_false hm, Bool.and_false]
  | literal value => cases value <;> rfl
  | _ => rfl

theorem validatePrice_iff {price : ExpressionNode} (h : price.height ≤ 256) :
    validatePrice price = .ok () ↔ isLeafPrice (price.toNode : Node κ) = true := by
  have hmark : ((do if ← containsPricingMarker price then .error .type else .ok ()) :
      Except DiagnosticCode Unit) = .ok () ↔
        (!Expr.containsPricingMarker (price.toNode : Node κ)) = true := by
    rw [containsPricingMarker_eq (κ := κ) h]
    cases Expr.containsPricingMarker (price.toNode : Node κ) with
    | false => exact ⟨fun _ => rfl, fun _ => rfl⟩
    | true => exact ⟨by intros; contradiction, by intros; contradiction⟩
  cases price with
  | call₁ name amount =>
    cases name with
    | fixed =>
      simp only [validatePrice, ExpressionNode.toNode, Func₁.func, isLeafPrice]
      rw [number_toNode]
      cases amount.number with
      | none => exact ⟨by intros; contradiction, by intros; contradiction⟩
      | some x => by_cases hx : 0 ≤ x <;> simp [hx]
    | _ => exact hmark
  | literal value => cases value <;> exact hmark
  | call₂ name x y => cases name <;> exact hmark
  | _ => exact hmark

/-- **The two validators of fixed prices accept the same trees.** -/
theorem validate_toNode {node : ExpressionNode} (h : node.height ≤ 256) :
    validateFixedPricingTree node = .ok () ↔
      Expr.validateFixedPricingTree (node.toNode : Node κ) = true := by
  induction node with
  | conditional c y n _ ihy ihn =>
    simp only [ExpressionNode.height] at h
    simp only [validateFixedPricingTree, ExpressionNode.toNode, Expr.validateFixedPricingTree]
    rw [containsPricingMarker_eq (κ := κ) (by omega)]
    cases Expr.containsPricingMarker (c.toNode : Node κ) with
    | true => exact ⟨nofun, nofun⟩
    | false =>
      simp only [Bool.false_eq_true, if_false, Bool.and_eq_true]
      rw [← ihy (by omega), ← ihn (by omega)]
      change (validateFixedPricingTree y).bind (fun _ => validateFixedPricingTree n) = .ok () ↔ _
      cases validateFixedPricingTree y with
      | error e => exact ⟨nofun, nofun⟩
      | ok u => exact ⟨fun h => ⟨rfl, h⟩, And.right⟩
  | binary op l r ihl ihr =>
    simp only [ExpressionNode.height] at h
    cases op with
    | mul =>
      simp only [validateFixedPricingTree, ExpressionNode.toNode, Expr.validateFixedPricingTree]
      rw [isPriceMultiplier_eq (κ := κ) (show r.height ≤ 256 by omega),
        isPriceMultiplier_eq (κ := κ) (show l.height ≤ 256 by omega)]
      cases isRequestPriceMultiplier (r.toNode : Node κ) with
      | true => exact ihl (by omega)
      | false =>
        cases isRequestPriceMultiplier (l.toNode : Node κ) with
        | true => exact ihr (by omega)
        | false => exact ⟨nofun, nofun⟩
    | _ => exact ⟨nofun, nofun⟩
  | call₂ name x y =>
    simp only [ExpressionNode.height] at h
    cases name with
    | tier =>
      simp only [validateFixedPricingTree, ExpressionNode.toNode, Func₂.func,
        Expr.validateFixedPricingTree, Bool.and_eq_true, Bool.not_eq_true']
      rw [containsPricingMarker_eq (κ := κ) (show x.height ≤ 256 by omega)]
      cases Expr.containsPricingMarker (x.toNode : Node κ) with
      | true => exact ⟨nofun, nofun⟩
      | false => exact (validatePrice_iff (κ := κ) (by omega)).trans (by simp)
    | _ => exact ⟨nofun, nofun⟩
  | call₁ name x => cases name <;> exact ⟨nofun, nofun⟩
  | literal value => cases value <;> exact ⟨nofun, nofun⟩
  | _ => exact ⟨nofun, nofun⟩

/-! ### Request rules -/

/-- The rule that the patch leaves for a rule of the browser: it has the same multiplier and, as its
text, that of the same condition, in which rules may have been patched before. -/
def SameRule (text : Node κ → String) (rule : RequestRule) (r : RequestRuleTrace) : Prop :=
  ∃ before, r = ⟨text (patch text before rule.condition.toNode).1, rule.multiplier, false⟩

/-- The rules of the browser come, in their order, after those found before. -/
def Extends (text : Node κ → String) (rules : List RequestRule) (before found : List RequestRuleTrace) :
    Prop :=
  ∃ new, found = before ++ new ∧ List.Forall₂ (SameRule text) rules new

section Rules

variable {text : Node κ → String}

theorem Extends.nil (before : List RequestRuleTrace) : Extends text [] before before :=
  ⟨[], (append_nil before).symm, .nil⟩

theorem Extends.append {rules rules' : List RequestRule} {a b c : List RequestRuleTrace}
    (h : Extends text rules a b) (h' : Extends text rules' b c) :
    Extends text (rules ++ rules') a c := by
  obtain ⟨new, rfl, hnew⟩ := h
  obtain ⟨new', rfl, hnew'⟩ := h'
  exact ⟨new ++ new', append_assoc _ _ _, rel_append hnew hnew'⟩

theorem Extends.length {rules : List RequestRule} {before found : List RequestRuleTrace}
    (h : Extends text rules before found) : found.length = before.length + rules.length := by
  obtain ⟨new, rfl, hnew⟩ := h
  rw [length_append, hnew.length_eq]

/-- The patch of a conditional finds the rule that the browser finds. -/
theorem extends_visit (rules : List RequestRuleTrace) (c y n : ExpressionNode) (c' y' n' : Node κ)
    (before : List RequestRuleTrace) (hc' : c' = (patch text before c.toNode).1)
    (hy' : Alike y.toNode y') (hn' : Alike n.toNode n') :
    Extends text (requestRule? (.conditional c y n)).toList rules
      (visit text rules (.conditional true c' y' n')).2 := by
  have hc : Alike c.toNode c' := hc' ▸ alike_patch text c.toNode before
  rw [visit_conditional, Alike.isRule hc hy' hn', requestRule?_eq (κ := κ), hy'.number,
    number_toNode, Bool.true_and]
  cases isRule (c.toNode : Node κ) y.toNode n.toNode with
  | false => exact Extends.nil rules
  | true => exact ⟨[_], rfl, .cons ⟨before, by rw [hc']⟩ .nil⟩

/-- **Both sides find the same request rules, in the same order.** -/
theorem extends_patch :
    ∀ before, Extends text (requestRules node) before (patch text before node.toNode).2 := by
  induction node with
  | literal value =>
    intro before
    cases value <;> exact Extends.nil before
  | «variable» name => exact Extends.nil
  | call₁ name x ih => exact ih
  | call₂ name x y ihx ihy => exact fun before => (ihx before).append (ihy _)
  | unary op x ih => exact ih
  | binary op l r ihl ihr => exact fun before => (ihl before).append (ihr _)
  | conditional c y n ihc ihy ihn =>
    intro before
    exact (((ihc before).append (ihy _)).append (ihn _)).append
      (extends_visit _ c y n _ _ _ before rfl (alike_patch text _ _) (alike_patch text _ _))

theorem requestRules_toNode :
    List.Forall₂ (SameRule text) (requestRules node) (patch text [] node.toNode).2 := by
  obtain ⟨new, hnew, h⟩ := extends_patch node []
  rw [hnew]
  exact h

/-- The browser numbers rules as the patch does. -/
theorem length_requestRules : (requestRules node).length = (node.toNode : Node κ).ruleCount := by
  have h := (show Extends (fun _ : Node κ => "") _ _ _ from extends_patch node []).length
  have h' := (finds_patch (fun _ : Node κ => "") node.toNode []).length
  simp only [length_nil] at h h'
  omega

end Rules

end NexusTok.Expr.Browser
