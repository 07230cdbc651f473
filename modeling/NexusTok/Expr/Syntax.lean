import Mathlib.Algebra.Order.Ring.Rat

/-!
# Billing expressions

The trees that the expression language parses, and what the billing engine does to them before a
run: `validateFixedPricingTree` keeps fixed prices to one pricing leaf per execution, and
`requestRulePatcher` replaces each request multiplier by a call that leaves a trace.

A tree is generic in the nodes that the billing engine does not look at (`Node.other`): members,
slices, arrays, predicates, `let`, and so on.  Numbers are exact rationals, so that the tests for
infinities and for what is not a number always pass.
-/

namespace NexusTok.Expr

/-! ### Trees -/

/-- The fields of `TokenParams`. -/
inductive Token where
  | p | c | len | cr | cc | cc1h | img | imgO | ai | ao
  deriving DecidableEq

/-- The functions that read the clock. -/
inductive TimeFunc where
  | hour | minute | weekday | month | day
  deriving DecidableEq

/-- The functions of the environment. -/
inductive Func where
  | tier | fixed | trace | traceInt | header | param | u | has
  | time (f : TimeFunc)
  | max | min | abs | ceil | floor
  deriving DecidableEq

/-- The value of an `IdentifierNode`: a variable or a function of the environment, `$env`, or a name
of the expression's own. -/
inductive Name where
  | token (t : Token)
  | func (f : Func)
  | env
  | other (s : String)
  deriving DecidableEq

inductive UnaryOp where
  | not | neg | pos
  deriving DecidableEq

inductive BinaryOp where
  | or | and | eq | ne | lt | le | gt | ge | add | sub | mul | div | mod
  deriving DecidableEq

/-- `ast.Node`. -/
inductive Node (κ : Type) where
  | nil
  | bool (b : Bool)
  | integer (n : ℤ)
  | float (x : ℚ)
  | string (s : String)
  | identifier (name : Name)
  | unary (op : UnaryOp) (x : Node κ)
  | binary (op : BinaryOp) (left right : Node κ)
  | conditional (ternary : Bool) (cond exp1 exp2 : Node κ)
  | call (callee : Node κ) (args : List (Node κ))
  | other (kind : κ) (children : List (Node κ))

variable {κ : Type}

/-- Induction over a tree and over the lists of its nodes. -/
theorem Node.induct {P : Node κ → Prop} (nil : P .nil) (bool : ∀ b, P (.bool b))
    (integer : ∀ n, P (.integer n)) (float : ∀ x, P (.float x)) (string : ∀ s, P (.string s))
    (identifier : ∀ name, P (.identifier name)) (unary : ∀ op x, P x → P (.unary op x))
    (binary : ∀ op l r, P l → P r → P (.binary op l r))
    (conditional : ∀ t c a b, P c → P a → P b → P (.conditional t c a b))
    (call : ∀ f args, P f → (∀ x ∈ args, P x) → P (.call f args))
    (other : ∀ k children, (∀ x ∈ children, P x) → P (.other k children)) : ∀ n, P n := by
  refine Node.rec (motive_2 := fun xs => ∀ x ∈ xs, P x) nil bool integer float string identifier
    unary binary conditional call other (fun x hx => absurd hx List.not_mem_nil) ?_
  intro x xs hx hxs y hy
  rcases List.mem_cons.1 hy with rfl | hy
  · exact hx
  · exact hxs y hy

mutual

/-- The identifiers in a tree, as `ast.Find` meets them. -/
def Node.names : Node κ → List Name
  | .identifier name => [name]
  | .unary _ x => x.names
  | .binary _ l r => l.names ++ r.names
  | .conditional _ c a b => c.names ++ a.names ++ b.names
  | .call f args => f.names ++ Node.namesList args
  | .other _ children => Node.namesList children
  | _ => []

def Node.namesList : List (Node κ) → List Name
  | [] => []
  | x :: xs => x.names ++ Node.namesList xs

end

theorem Node.mem_namesList {name : Name} {xs : List (Node κ)} :
    name ∈ Node.namesList xs ↔ ∃ x ∈ xs, name ∈ x.names := by
  induction xs with
  | nil => simp [Node.namesList]
  | cons x xs ih => simp [Node.namesList, ih]

/-- `requestRuleNumber`. -/
def Node.number : Node κ → Option ℚ
  | .integer n => some n
  | .float x => some x
  | _ => none

/-! ### Request multipliers -/

/-- What `usesRequestProbe` looks for. -/
def Name.isProbe : Name → Bool
  | .func .param | .func .header | .func (.time _) => true
  | _ => false

def usesRequestProbe (node : Node κ) : Bool := node.names.any Name.isProbe

structure RequestRuleTrace where
  cond : String
  multiplier : ℚ
  matched : Bool
  deriving DecidableEq

section Patch

variable (text : Node κ → String)

/-- `requestRulePatcher.Visit`, `text` being how the language writes a tree out: the node that it
leaves, and the rules found by then. -/
def visit (rules : List RequestRuleTrace) (node : Node κ) : Node κ × List RequestRuleTrace :=
  match node with
  | .conditional true cond exp1 exp2 =>
    if usesRequestProbe cond then
      match exp1.number, exp2.number with
      | some multiplier, some fallback =>
        if fallback = 1 then
          let found := rules ++ [⟨text cond, multiplier, false⟩]
          match exp1, exp2 with
          | .integer n, .integer _ =>
            (.call (.identifier (.func .traceInt)) [.integer rules.length, cond, .integer n], found)
          | _, _ =>
            (.call (.identifier (.func .trace)) [.integer rules.length, cond, .float multiplier],
              found)
        else (node, rules)
      | _, _ => (node, rules)
    else (node, rules)
  | _ => (node, rules)

mutual

/-- `ast.Walk` with the patcher: children first, from left to right. -/
def patch (rules : List RequestRuleTrace) : Node κ → Node κ × List RequestRuleTrace
  | .unary op x =>
    let (x, rules) := patch rules x
    visit text rules (.unary op x)
  | .binary op l r =>
    let (l, rules) := patch rules l
    let (r, rules) := patch rules r
    visit text rules (.binary op l r)
  | .conditional t c a b =>
    let (c, rules) := patch rules c
    let (a, rules) := patch rules a
    let (b, rules) := patch rules b
    visit text rules (.conditional t c a b)
  | .call f args =>
    let (f, rules) := patch rules f
    let (args, rules) := patchList rules args
    visit text rules (.call f args)
  | .other k children =>
    let (children, rules) := patchList rules children
    visit text rules (.other k children)
  | node => visit text rules node

def patchList (rules : List RequestRuleTrace) : List (Node κ) → List (Node κ) × List RequestRuleTrace
  | [] => ([], rules)
  | x :: xs =>
    let (x, rules) := patch rules x
    let (xs, rules) := patchList rules xs
    (x :: xs, rules)

end

end Patch

/-- `restrictedIdentifier` is set: the tree names one of the functions that leave a trace. -/
def Node.restricted (node : Node κ) : Bool :=
  node.names.any fun name => name == .func .trace || name == .func .traceInt

/-! ### Fixed prices -/

def containsPricingMarker (node : Node κ) : Bool :=
  node.names.any fun name => name == .func .tier || name == .func .fixed

def isRequestPriceMultiplier (node : Node κ) : Bool :=
  match node with
  | .conditional _ cond exp1 exp2 =>
    if !usesRequestProbe cond || containsPricingMarker cond then false
    else
      match exp1.number, exp2.number with
      | some multiplier, some fallback => fallback == 1 && decide (0 ≤ multiplier)
      | _, _ => false
  | _ => false

/-- The last case of `validateFixedPricingTree`: the price of a leaf is `fixed` of a number that is
not negative, or names neither pricing function. -/
def isLeafPrice (price : Node κ) : Bool :=
  match price with
  | .call (.identifier (.func .fixed)) [amount] =>
    match amount.number with
    | some amount => decide (0 ≤ amount)
    | none => false
  | price => !containsPricingMarker price

def validateFixedPricingTree : Node κ → Bool
  | .conditional _ cond exp1 exp2 =>
    if containsPricingMarker cond then false
    else validateFixedPricingTree exp1 && validateFixedPricingTree exp2
  | .binary .mul left right =>
    if isRequestPriceMultiplier right then validateFixedPricingTree left
    else if isRequestPriceMultiplier left then validateFixedPricingTree right
    else false
  | .call (.identifier (.func .tier)) [name, price] =>
    !containsPricingMarker name && isLeafPrice price
  | _ => false

/-- The expression names `fixed`. -/
def Node.fixedPricing (node : Node κ) : Bool := node.names.any (· == .func .fixed)

end NexusTok.Expr
