import Mathlib.Data.Rat.Floor
import NexusTok.Expr.Syntax
import NexusTok.Machine.Effect
import NexusTok.Tokens.Tiered

/-!
# The evaluation of billing expressions

`eval` gives a tree its meaning: an action on the state of a host, whose functions it calls.
`runProgram` is the evaluation with the functions of the billing engine.

The expression language is a parameter, `Lang`, as far as the billing engine leaves it open: the
nodes that are not modelled, operators on other values than numbers, strings and truth values, and
what becomes of a `nil` argument.  Integers and floats are kept apart; both are exact.  A float
parameter takes no integer, except where the compiler turns an integer literal into a float
(`Lang.floats`, which sees the unary and binary nodes of an argument and the literals in it).  The
errors of the language are not told apart.
-/

namespace NexusTok.Expr

open Machine Machine.Action

/-! ### Values and the language -/

inductive Value (ω : Type) where
  | nil
  | bool (b : Bool)
  | int (n : ℤ)
  | float (x : ℚ)
  | str (s : String)
  | func (f : Func)
  | other (o : ω)
  deriving DecidableEq

/-- The value is a function of the kind `F`, or has one in it. -/
def Value.Holds {ω : Type} (holdsIn : (Func → Prop) → ω → Prop) (F : Func → Prop) : Value ω → Prop
  | .func f => F f
  | .other o => holdsIn F o
  | _ => False

/-- An evaluation fails. -/
inductive RunError where
  | failed
  deriving DecidableEq

/-- What the compiler sees of an argument. -/
inductive Form where
  | integer
  | unary (op : UnaryOp) (x : Form)
  | binary (op : BinaryOp) (left right : Form)
  | atom
  deriving DecidableEq

/-- The types of parameters. -/
inductive Kind where
  | int | float | bool | str | any
  deriving DecidableEq

/-- The expression language, as far as the billing engine leaves it open. -/
structure Lang (κ ω : Type) where
  /-- How a tree is written out. -/
  text : Node κ → String
  /-- What the names of an expression's own stand for. -/
  Scope : Type
  top : Scope
  /-- `$env`. -/
  env : ω
  ident : String → Scope → Except RunError (Value ω)
  /-- Operators on further types of values. -/
  unary : UnaryOp → Value ω → Except RunError (Value ω)
  binary : BinaryOp → Value ω → Value ω → Except RunError (Value ω)
  /-- A call of a value that is no function of the environment. -/
  apply : Value ω → List (Value ω) → Except RunError (Value ω)
  /-- What a parameter makes of `nil`. -/
  zero : Kind → Except RunError (Value ω)
  /-- An integer argument of this form is a float by the time a float parameter gets it. -/
  floats : Form → Bool
  floats_integer : floats .integer = true
  /-- The other nodes.  Their children may be evaluated any number of times, in any scope. -/
  other : {σ : Type} → κ → List (Scope → Action σ RunError (Value ω)) → Scope →
    Action σ RunError (Value ω)
  /-- They reach the state of the host through their children only. -/
  other_lockstep : ∀ {σ τ : Type} (E : σ → Prop) (R : σ → τ → Prop) (k : κ)
    (ds : List (Scope → Action σ RunError (Value ω)))
    (es : List (Scope → Action τ RunError (Value ω))),
    List.Forall₂ (fun d e => ∀ sc, Lockstep E R (d sc) (e sc)) ds es →
      ∀ sc, Lockstep E R (other k ds sc) (other k es sc)
  holdsIn : (Func → Prop) → ω → Prop
  scopeHolds : (Func → Prop) → Scope → Prop
  top_holds : ∀ F, ¬ scopeHolds F top
  /-- No operation makes up a function. -/
  ident_holds : ∀ F s sc v, ident s sc = .ok v → v.Holds holdsIn F → scopeHolds F sc
  unary_holds : ∀ F op v r, unary op v = .ok r → r.Holds holdsIn F → v.Holds holdsIn F
  binary_holds : ∀ F op v w r, binary op v w = .ok r → r.Holds holdsIn F →
    v.Holds holdsIn F ∨ w.Holds holdsIn F
  apply_holds : ∀ F v args r, apply v args = .ok r → r.Holds holdsIn F →
    v.Holds holdsIn F ∨ ∃ a ∈ args, a.Holds holdsIn F
  zero_holds : ∀ F k v, zero k = .ok v → ¬ v.Holds holdsIn F
  other_keeps : ∀ {σ : Type} (F : Func → Prop) (I : σ → Prop) (k : κ)
    (ds : List (Scope → Action σ RunError (Value ω))),
    (∀ d ∈ ds, ∀ sc, ¬ scopeHolds F sc → Keeps I (fun v => ¬ v.Holds holdsIn F) (d sc)) →
      ∀ sc, ¬ scopeHolds F sc → Keeps I (fun v => ¬ v.Holds holdsIn F) (other k ds sc)

variable {κ ω : Type} (L : Lang κ ω)

namespace Value

/-- `==`, where the language itself says what it is. -/
def same : Value ω → Value ω → Option Bool
  | .func _, _ | _, .func _ | .other _, _ | _, .other _ => none
  | .nil, .nil => some true
  | .bool a, .bool b => some (a == b)
  | .int m, .int n => some (m == n)
  | .int m, .float y => some ((m : ℚ) == y)
  | .float x, .int n => some (x == (n : ℚ))
  | .float x, .float y => some (x == y)
  | .str s, .str t => some (s == t)
  | _, _ => some false

/-- A number, whatever its kind. -/
def number : Value ω → Option ℚ
  | .int n => some n
  | .float x => some x
  | _ => none

end Value

/-- Unary operators. -/
def unary (op : UnaryOp) (v : Value ω) : Except RunError (Value ω) :=
  match op, v with
  | .not, .bool b => .ok (.bool !b)
  | .neg, .int n => .ok (.int (-n))
  | .neg, .float x => .ok (.float (-x))
  | .pos, .int n => .ok (.int n)
  | .pos, .float x => .ok (.float x)
  | op, v => L.unary op v

/-- The order of two strings, by their characters. -/
def stringBefore (s t : String) : Bool := s.toList.lex t.toList fun a b => a.toNat < b.toNat

/-- The order of two numbers or of two strings. -/
def compare (lt : ℚ → ℚ → Bool) (ltStr : String → String → Bool) (v w : Value ω) : Option Bool :=
  match v, w with
  | .str s, .str t => some (ltStr s t)
  | v, w =>
    match v.number, w.number with
    | some x, some y => some (lt x y)
    | _, _ => none

/-- `+`, `-` and `*` of two numbers, of integers an integer. -/
def arithmetic (f : ℤ → ℤ → ℤ) (g : ℚ → ℚ → ℚ) (v w : Value ω) : Option (Value ω) :=
  match v, w with
  | .int m, .int n => some (.int (f m n))
  | v, w =>
    match v.number, w.number with
    | some x, some y => some (.float (g x y))
    | _, _ => none

/-- `+`, which also joins strings. -/
def plus (v w : Value ω) : Option (Value ω) :=
  match v, w with
  | .str s, .str t => some (.str (s ++ t))
  | v, w => arithmetic (· + ·) (· + ·) v w

/-- `/`, whose result is a float.  A quotient by zero is no number. -/
def quotient (v w : Value ω) : Option (Value ω) :=
  match v.number, w.number with
  | some x, some y => if y = 0 then none else some (.float (x / y))
  | _, _ => none

/-- `%`, of integers only. -/
def remainder (v w : Value ω) : Option (Value ω) :=
  match v, w with
  | .int m, .int n => if n = 0 then none else some (.int (m.tmod n))
  | _, _ => none

/-- Binary operators on two values, where the language itself says what they are. -/
def binary? (op : BinaryOp) (v w : Value ω) : Option (Value ω) :=
  match op with
  | .eq => (v.same w).map .bool
  | .ne => (v.same w).map fun b => .bool !b
  | .lt => (compare (fun x y => x < y) stringBefore v w).map .bool
  | .le => (compare (fun x y => x ≤ y) (fun s t => !stringBefore t s) v w).map .bool
  | .gt => (compare (fun x y => y < x) (fun s t => stringBefore t s) v w).map .bool
  | .ge => (compare (fun x y => y ≤ x) (fun s t => !stringBefore s t) v w).map .bool
  | .add => plus v w
  | .sub => arithmetic (· - ·) (· - ·) v w
  | .mul => arithmetic (· * ·) (· * ·) v w
  | .div => quotient v w
  | .mod => remainder v w
  | .and | .or => none

/-- Binary operators on two values. -/
def binary (op : BinaryOp) (v w : Value ω) : Except RunError (Value ω) :=
  match binary? op v w with
  | some r => .ok r
  | none => L.binary op v w

/-- The truth value that a condition must have. -/
def truth : Value ω → Except RunError Bool
  | .bool b => .ok b
  | _ => .error .failed

/-! ### Calls -/

/-- The parameters of a function of the environment. -/
def Func.params : Func → List Kind
  | .tier => [.str, .float]
  | .fixed | .abs | .ceil | .floor => [.float]
  | .trace => [.int, .bool, .float]
  | .traceInt => [.int, .bool, .int]
  | .header | .param | .u | .time _ => [.str]
  | .has => [.any, .str]
  | .max | .min => [.float, .float]

/-- An argument as its parameter gets it. -/
def argument (kind : Kind) (form : Form) (v : Value ω) : Except RunError (Value ω) :=
  match kind, v with
  | .any, v => .ok v
  | kind, .nil => L.zero kind
  | .float, .float x => .ok (.float x)
  | .float, .int n => if L.floats form then .ok (.float n) else .error .failed
  | .int, .int n => .ok (.int n)
  | .bool, .bool b => .ok (.bool b)
  | .str, .str s => .ok (.str s)
  | _, _ => .error .failed

/-- The arguments of a call. -/
def arguments : List Kind → List Form → List (Value ω) → Except RunError (List (Value ω))
  | [], _, [] => .ok []
  | kind :: kinds, form :: forms, v :: vs => do
    let v ← argument L kind form v
    let vs ← arguments kinds forms vs
    .ok (v :: vs)
  | _, _, _ => .error .failed

/-- What a compiler sees of a node. -/
def Node.form : Node κ → Form
  | .integer _ => .integer
  | .unary op x => .unary op x.form
  | .binary op l r => .binary op l.form r.form
  | _ => .atom

/-! ### Evaluation -/

/-- What a node means: an action for each scope. -/
abbrev Meaning (σ : Type) : Type := L.Scope → Action σ RunError (Value ω)

/-- The functions of the environment, as actions on the state of a host. -/
abbrev Host (ω σ : Type) : Type := Func → List (Value ω) → Action σ RunError (Value ω)

section Meaning

variable {L} {σ : Type} (host : Host ω σ)

/-- The value of a name.  The variables of the environment are `params`. -/
def nameMeaning (params : Token → ℚ) (name : Name) : Meaning L σ := fun sc =>
  match name with
  | .token t => pure (.float (params t))
  | .func f => pure (.func f)
  | .env => pure (.other L.env)
  | .other s => lift (L.ident s sc)

def unaryMeaning (op : UnaryOp) (x : Meaning L σ) : Meaning L σ := fun sc => do
  let v ← x sc
  lift (unary L op v)

/-- `&&` and `||` evaluate their right operand only if they need it. -/
def binaryMeaning (op : BinaryOp) (l r : Meaning L σ) : Meaning L σ := fun sc => do
  let v ← l sc
  match op with
  | .and => if ← lift (truth v) then r sc else pure v
  | .or => if ← lift (truth v) then pure v else r sc
  | op =>
    let w ← r sc
    lift (binary L op v w)

def conditionalMeaning (c a b : Meaning L σ) : Meaning L σ := fun sc => do
  let v ← c sc
  if ← lift (truth v) then a sc else b sc

def callValue (forms : List Form) (f : Value ω) (vs : List (Value ω)) :
    Action σ RunError (Value ω) :=
  match f with
  | .func f => do
    let vs ← lift (arguments L f.params forms vs)
    host f vs
  | f => lift (L.apply f vs)

/-- Arguments come first, and the function that they are passed to last. -/
def callMeaning (forms : List Form) (f : Meaning L σ) (args : List (Meaning L σ)) : Meaning L σ :=
  fun sc => do
    let vs ← Action.sequence (args.map (· sc))
    let f ← f sc
    callValue (L := L) host forms f vs

end Meaning

/-- The compiler knows the parameters of a function that is called by its name. -/
def argumentForms (callee : Node κ) (args : List (Node κ)) : List Form :=
  match callee with
  | .identifier (.func _) => args.map Node.form
  | _ => args.map fun _ => .atom

section Eval

variable {L} {σ : Type} (params : Token → ℚ) (host : Host ω σ)

mutual

/-- The meaning of a tree. -/
def eval : Node κ → Meaning L σ
  | .nil => fun _ => pure .nil
  | .bool b => fun _ => pure (.bool b)
  | .integer n => fun _ => pure (.int n)
  | .float x => fun _ => pure (.float x)
  | .string s => fun _ => pure (.str s)
  | .identifier name => nameMeaning params name
  | .unary op x => unaryMeaning op (eval x)
  | .binary op l r => binaryMeaning op (eval l) (eval r)
  | .conditional _ c a b => conditionalMeaning (eval c) (eval a) (eval b)
  | .call f args => callMeaning host (argumentForms f args) (eval f) (evalList args)
  | .other k children => L.other k (evalList children)

def evalList : List (Node κ) → List (Meaning L σ)
  | [] => []
  | x :: xs => eval x :: evalList xs

end

end Eval

/-! ### The billing engine -/

inductive BillingUnit where
  | token | request
  deriving DecidableEq

structure TraceResult where
  billingUnit : BillingUnit
  fixedPrice : Option ℚ
  matchedTier : String
  requestRules : List RequestRuleTrace
  cost : ℚ
  deriving DecidableEq

/-- A call of a pricing function. -/
inductive PricingCall where
  | tier (name : String) (value : ℚ)
  | fixed (amount : ℚ)
  deriving DecidableEq

/-- The state of a run: its trace, and a record of its pricing calls that no code reads. -/
structure World where
  trace : TraceResult
  calls : List PricingCall

/-- What a pricing function does to the trace. -/
def World.record (w : World) (call : PricingCall) : World where
  trace :=
    match call with
    | .tier name value => { w.trace with matchedTier := name, cost := value }
    | .fixed amount => { w.trace with billingUnit := .request, fixedPrice := some amount }
  calls := w.calls ++ [call]

/-- `TokenParams`, by variable. -/
def Token.read (params : Tokens.TokenParams) : Token → ℚ
  | .p => params.p
  | .c => params.c
  | .len => params.len
  | .cr => params.cr
  | .cc => params.cc
  | .cc1h => params.cc1h
  | .img => params.img
  | .imgO => params.imgO
  | .ai => params.ai
  | .ao => params.ao

/-- What a run depends on besides its expression: `TokenParams`, `RequestInput` and the libraries.
`body` reads a path of a body that is not empty. -/
structure Context (L : Lang κ ω) where
  params : Tokens.TokenParams
  headers : List (String × String)
  body : Option (String → Option (Value ω))
  usage : Option (String → Value ω)
  /-- `strings.ToLower`. -/
  lower : String → String
  /-- `fmt.Sprint`. -/
  sprint : Value ω → String
  /-- `strings.Contains`. -/
  contains : String → String → Bool
  /-- The clock in a time zone, given by its trimmed name. -/
  clock : TimeFunc → String → ℤ
  body_data : ∀ read path v F, body = some read → read path = some v → ¬ v.Holds L.holdsIn F
  usage_data : ∀ facts name F, usage = some facts → ¬ (facts name).Holds L.holdsIn F

/-- `normalizeHeaders`; a later entry replaces an earlier one of the same key. -/
def normalizeHeaders (lower : String → String) (headers : List (String × String)) :
    List (String × String) :=
  (headers.map fun (key, value) => (lower (trimSpace key), trimSpace value)).filter
    fun (k, v) => k != "" && v != ""

/-- The value of a key of a map that was filled entry by entry, or `""`. -/
def lookup (entries : List (String × String)) (key : String) : String :=
  ((entries.reverse.find? (·.1 == key)).map (·.2)).getD ""

section Engine

variable {L} (ctx : Context L)

def header (key : String) : String :=
  lookup (normalizeHeaders ctx.lower ctx.headers) (ctx.lower (trimSpace key))

def param (path : String) : Value ω :=
  let path := trimSpace path
  if path = "" then .nil
  else
    match ctx.body with
    | none => .nil
    | some read => (read path).getD .nil

def u (name : String) : Value ω :=
  match ctx.usage with
  | none => .nil
  | some facts => facts (trimSpace name)

def has (source : Value ω) (substr : String) : Bool :=
  match source with
  | .nil => false
  | source => substr != "" && ctx.contains (ctx.sprint source) substr

/-- What the functions that leave a trace do to it: a rule that held is marked. -/
def markRule (matched : Bool) (ruleIndex : ℤ) (w : World) : World :=
  if matched ∧ 0 ≤ ruleIndex ∧ ruleIndex < w.trace.requestRules.length then
    let rules := w.trace.requestRules.modify ruleIndex.toNat fun r => { r with matched := true }
    { w with trace := { w.trace with requestRules := rules } }
  else w

/-- The functions of `compileEnvPrototypeV1`, as `runProgram` has them, on arguments of the types of
their parameters. -/
def call (f : Func) (args : List (Value ω)) : Action World RunError (Value ω) :=
  match f, args with
  | .tier, [.str name, .float value] => do
    modify (·.record (.tier name value))
    pure (.float value)
  | .fixed, [.float amount] => do
    modify (·.record (.fixed amount))
    pure (.float (amount * 1000000))
  | .trace, [.int ruleIndex, .bool matched, .float multiplier] => do
    modify (markRule matched ruleIndex)
    pure (if matched then .float multiplier else .float 1)
  | .traceInt, [.int ruleIndex, .bool matched, .int multiplier] => do
    modify (markRule matched ruleIndex)
    pure (if matched then .int multiplier else .int 1)
  | .header, [.str key] => pure (.str (header ctx key))
  | .param, [.str path] => pure (param ctx path)
  | .u, [.str name] => pure (u ctx name)
  | .has, [source, .str substr] => pure (.bool (has ctx source substr))
  | .time f, [.str tz] => pure (.int (ctx.clock f (trimSpace tz)))
  | .max, [.float x, .float y] => pure (.float (Max.max x y))
  | .min, [.float x, .float y] => pure (.float (Min.min x y))
  | .abs, [.float x] => pure (.float |x|)
  | .ceil, [.float x] => pure (.float ⌈x⌉)
  | .floor, [.float x] => pure (.float ⌊x⌋)
  | _, _ => lift (.error .failed)

/-- What a function does: it records a pricing call, or leaves the trace of a rule, or leaves the
state as it is. -/
theorem call_cases (f : Func) (vs : List (Value ω)) :
    (∃ name value, f = .tier ∧ vs = [.str name, .float value] ∧ ∀ w,
      call ctx f vs w = (.ok (.float value), w.record (.tier name value))) ∨
    (∃ amount, f = .fixed ∧ vs = [.float amount] ∧ ∀ w,
      call ctx f vs w = (.ok (.float (amount * 1000000)), w.record (.fixed amount))) ∨
    (∃ r t i, (f = .trace ∨ f = .traceInt) ∧ ∀ w, call ctx f vs w = (r, markRule t i w)) ∨
    ∃ r, (∀ v, r = .ok v → f ≠ .tier ∧ f ≠ .fixed) ∧ ∀ w, call ctx f vs w = (r, w) := by
  unfold call
  split
  · rename_i name value
    exact .inl ⟨name, value, rfl, rfl, fun _ => rfl⟩
  · rename_i amount
    exact .inr (.inl ⟨amount, rfl, rfl, fun _ => rfl⟩)
  · exact .inr (.inr (.inl ⟨_, _, _, .inl rfl, fun _ => rfl⟩))
  · exact .inr (.inr (.inl ⟨_, _, _, .inr rfl, fun _ => rfl⟩))
  all_goals
    refine .inr (.inr (.inr ⟨_, fun v hv => ?_, fun _ => rfl⟩))
    first
      | (cases hv; done)
      | exact ⟨nofun, nofun⟩

/-- The state that a run starts from. -/
def World.start (requestRules : List RequestRuleTrace) : World where
  trace := ⟨.token, none, "", requestRules, 0⟩
  calls := []

/-- What `expr.AsFloat64` makes of a result. -/
def asFloat64 : Value ω → Except RunError ℚ
  | .int n => .ok n
  | .float x => .ok x
  | _ => .error .failed

/-- The evaluation of a program with the functions of the billing engine. -/
def program (node : Node κ) : Action World RunError ℚ := do
  let v ← eval (L := L) (fun t => t.read ctx.params) (call ctx) node L.top
  lift (asFloat64 v)

/-- `compileEntryFromCacheByHash`: the program and the rules of a tree that the billing engine takes.
The type checks of the language itself are left out. -/
def compile (L : Lang κ ω) (tree : Node κ) : Option (Node κ × List RequestRuleTrace) :=
  if tree.fixedPricing && !validateFixedPricingTree tree then none
  else if tree.restricted then none
  else some (patch L.text [] tree)

def runProgram (prog : Node κ) (requestRules : List RequestRuleTrace) :
    Except RunError ℚ × World :=
  program ctx prog (World.start requestRules)

end Engine

end NexusTok.Expr
