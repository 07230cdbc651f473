import NexusTok.Expr.Eval

/-!
# Billing expressions in the browser

What the browser makes of the tree of a billing expression: `checkExpressionTypes`,
`validateFixedPricingTree`, the request rules of `compileBillingExpression`, and the run of
`evaluateBillingExpression`.

Numbers are exact rationals with a mark on integers, as in `Value`, so that infinities are left out
but for the quotient by zero.  The source texts of nodes are left out, and a node that is a request
rule is known by the number of rules that `visitExpression` meets before it.  The cache of times in a
zone is left out as well.
-/

namespace NexusTok.Expr.Browser

open Machine Machine.Action

/-! ### Trees -/

/-- The functions of `BILLING_FUNCTIONS` with one argument. -/
inductive Func₁ where
  | fixed | param | header | u
  | time (f : TimeFunc)
  | abs | ceil | floor
  deriving DecidableEq

/-- The functions of `BILLING_FUNCTIONS` with two arguments. -/
inductive Func₂ where
  | tier | has | min | max
  deriving DecidableEq

inductive Literal where
  | null
  | boolean (b : Bool)
  | integer (n : ℤ)
  | float (x : ℚ)
  | string (s : String)
  deriving DecidableEq

/-- `ExpressionNode`.  Calls have as many arguments as the parser asks for. -/
inductive ExpressionNode where
  | literal (value : Literal)
  | variable (name : Token)
  | call₁ (name : Func₁) (arg : ExpressionNode)
  | call₂ (name : Func₂) (arg₁ arg₂ : ExpressionNode)
  | unary (operator : UnaryOp) (operand : ExpressionNode)
  | binary (operator : BinaryOp) (left right : ExpressionNode)
  | conditional (condition yes no : ExpressionNode)
  deriving DecidableEq

def Func₁.func : Func₁ → Func
  | .fixed => .fixed
  | .param => .param
  | .header => .header
  | .u => .u
  | .time f => .time f
  | .abs => .abs
  | .ceil => .ceil
  | .floor => .floor

def Func₂.func : Func₂ → Func
  | .tier => .tier
  | .has => .has
  | .min => .min
  | .max => .max

/-- `DiagnosticCode`, but for the errors of the parser. -/
inductive DiagnosticCode where
  | unsupported | missing_context | type | number | limit
  deriving DecidableEq

def Literal.number : Literal → Option ℚ
  | .integer n => some n
  | .float x => some x
  | _ => none

namespace ExpressionNode

/-- How deep `visitExpression` goes below the root. -/
def height : ExpressionNode → ℕ
  | .literal _ | .variable _ => 0
  | .call₁ _ x => x.height + 1
  | .call₂ _ x y => max x.height y.height + 1
  | .unary _ x => x.height + 1
  | .binary _ l r => max l.height r.height + 1
  | .conditional c y n => max c.height (max y.height n.height) + 1

/-- The functions that are called in a tree. -/
def functions : ExpressionNode → List Func
  | .literal _ | .variable _ => []
  | .call₁ name x => x.functions ++ [name.func]
  | .call₂ name x y => x.functions ++ y.functions ++ [name.func]
  | .unary _ x => x.functions
  | .binary _ l r => l.functions ++ r.functions
  | .conditional c y n => c.functions ++ y.functions ++ n.functions

/-- The number that the node is, if it is a literal. -/
def number : ExpressionNode → Option ℚ
  | .literal value => value.number
  | _ => none

end ExpressionNode

/-! ### Compilation -/

/-- `visitExpression` reaches every node. -/
def visitExpression (node : ExpressionNode) : Except DiagnosticCode Unit :=
  if node.height ≤ 256 then .ok () else .error .limit

/-- The functions of `expressionDependencies`. -/
def expressionDependencies (node : ExpressionNode) : Except DiagnosticCode (List Func) := do
  visitExpression node
  .ok node.functions

inductive ExpressionType where
  | number | string | boolean | nil | dynamic
  deriving DecidableEq

def requireType (actual expected : ExpressionType) : Except DiagnosticCode Unit :=
  if actual ≠ expected ∧ actual ≠ .dynamic then .error .type else .ok ()

def Literal.type : Literal → ExpressionType
  | .null => .nil
  | .boolean _ => .boolean
  | .integer _ | .float _ => .number
  | .string _ => .string

/-- The type of a binary node, from those of its operands. -/
def binaryType (operator : BinaryOp) (left right : ExpressionType) :
    Except DiagnosticCode ExpressionType :=
  match operator with
  | .and | .or => do
    requireType left .boolean
    requireType right .boolean
    .ok .boolean
  | .eq | .ne | .lt | .le | .gt | .ge => .ok .boolean
  | operator =>
    if operator = .add ∧ left = .string ∧ right = .string then .ok .string
    else do
      requireType left .number
      requireType right .number
      .ok .number

/-- The type of a call, from those of its arguments. -/
def Func₁.type (name : Func₁) (arg : ExpressionType) : Except DiagnosticCode ExpressionType :=
  match name with
  | .param | .u => do
    requireType arg .string
    .ok .dynamic
  | .header => do
    requireType arg .string
    .ok .string
  | .time _ => do
    requireType arg .string
    .ok .number
  | .fixed | .abs | .ceil | .floor => do
    requireType arg .number
    .ok .number

def Func₂.type (name : Func₂) (arg₁ arg₂ : ExpressionType) :
    Except DiagnosticCode ExpressionType :=
  match name with
  | .has => do
    requireType arg₂ .string
    .ok .boolean
  | .tier => do
    requireType arg₁ .string
    requireType arg₂ .number
    .ok .number
  | .min | .max => do
    requireType arg₁ .number
    requireType arg₂ .number
    .ok .number

/-- `checkExpressionTypes`, which gives each node a type. -/
def checkExpressionTypes : ExpressionNode → Except DiagnosticCode ExpressionType
  | .literal value => .ok value.type
  | .variable _ => .ok .number
  | .call₁ name x => do
    let arg ← checkExpressionTypes x
    name.type arg
  | .call₂ name x y => do
    let arg₁ ← checkExpressionTypes x
    let arg₂ ← checkExpressionTypes y
    name.type arg₁ arg₂
  | .unary operator x => do
    let operand ← checkExpressionTypes x
    let result := if operator = .not then .boolean else .number
    requireType operand result
    .ok result
  | .binary operator l r => do
    let left ← checkExpressionTypes l
    let right ← checkExpressionTypes r
    binaryType operator left right
  | .conditional c y n => do
    let condition ← checkExpressionTypes c
    let yes ← checkExpressionTypes y
    let no ← checkExpressionTypes n
    requireType condition .boolean
    .ok (if yes = no then yes else .dynamic)

/-- A function that a request rule looks at a request or at the clock with. -/
def isProbe : Func → Bool
  | .param | .header | .time _ => true
  | _ => false

/-- A rule among the `requestRules` of a compiled expression. -/
structure RequestRule where
  condition : ExpressionNode
  multiplier : ℚ

/-- What `compileBillingExpression` makes of a node that it visits: a request rule, or nothing. -/
def requestRule? : ExpressionNode → Option RequestRule
  | .conditional condition yes no =>
    match yes.number with
    | none => none
    | some multiplier =>
      if no.number = some 1 then
        if condition.functions.any isProbe then some ⟨condition, multiplier⟩ else none
      else none
  | _ => none

/-- The request rules of a tree, in the order of `visitExpression`. -/
def requestRules : ExpressionNode → List RequestRule
  | .literal _ | .variable _ => []
  | .call₁ _ x => requestRules x
  | .call₂ _ x y => requestRules x ++ requestRules y
  | .unary _ x => requestRules x
  | .binary _ l r => requestRules l ++ requestRules r
  | .conditional c y n =>
    requestRules c ++ requestRules y ++ requestRules n ++
      (requestRule? (.conditional c y n)).toList

def containsPricingMarker (node : ExpressionNode) : Except DiagnosticCode Bool := do
  let calls ← expressionDependencies node
  .ok (calls.contains .tier || calls.contains .fixed)

/-- The factor of a product is a request rule that a price may be multiplied by. -/
def isPriceMultiplier (factor : ExpressionNode) : Except DiagnosticCode Bool :=
  match requestRule? factor with
  | none => .ok false
  | some rule =>
    if 0 ≤ rule.multiplier then do
      let marked ← containsPricingMarker rule.condition
      .ok (!marked)
    else .ok false

/-- The price of a `tier` call in `validateFixedPricingTree`. -/
def validatePrice (price : ExpressionNode) : Except DiagnosticCode Unit :=
  match price with
  | .call₁ .fixed amount =>
    match amount.number with
    | some amount => if 0 ≤ amount then .ok () else .error .type
    | none => .error .type
  | price => do
    if ← containsPricingMarker price then .error .type else .ok ()

def validateFixedPricingTree : ExpressionNode → Except DiagnosticCode Unit
  | .conditional c y n => do
    if ← containsPricingMarker c then .error .type
    else
      validateFixedPricingTree y
      validateFixedPricingTree n
  | .binary .mul l r => do
    if ← isPriceMultiplier r then validateFixedPricingTree l
    else if ← isPriceMultiplier l then validateFixedPricingTree r
    else .error .type
  | .call₂ .tier name price => do
    if ← containsPricingMarker name then .error .type else validatePrice price
  | _ => .error .type

/-- `compileBillingExpression`, from the tree of its source on: the request rules. -/
def compileBillingExpression (ast : ExpressionNode) : Except DiagnosticCode (List RequestRule) := do
  visitExpression ast
  let _ ← checkExpressionTypes ast
  let functions ← expressionDependencies ast
  if functions.contains .fixed then validateFixedPricingTree ast
  .ok (requestRules ast)

/-! ### Runs -/

/-- White space of `String.prototype.trim`. -/
def isWhiteSpace (c : Char) : Bool :=
  let n := c.toNat
  (9 ≤ n && n ≤ 13) || n == 0x20 || n == 0xA0 || n == 0x1680 || (0x2000 ≤ n && n ≤ 0x200A) ||
    n == 0x2028 || n == 0x2029 || n == 0x202F || n == 0x205F || n == 0x3000 || n == 0xFEFF

/-- `String.prototype.trim`. -/
def trim (s : String) : String :=
  String.ofList (((s.toList.dropWhile isWhiteSpace).reverse.dropWhile isWhiteSpace).reverse)

def codeUnits (s : String) : List ℕ :=
  s.toList.flatMap fun c =>
    let n := c.toNat
    if n < 0x10000 then [n]
    else [0xD800 + (n - 0x10000) / 0x400, 0xDC00 + (n - 0x10000) % 0x400]

/-- `<` of strings. -/
def stringLt (s t : String) : Bool := (codeUnits s).lex (codeUnits t) fun m n => m < n

/-- A simulated request.  `path` is `readRequestPath` of its body, which does not support every
path. -/
structure SimulatedRequest (ω : Type) where
  headers : List (String × String)
  path : String → Option (Value ω)

/-- `BillingSimulationContext` and the libraries that a run uses. -/
structure BillingSimulationContext (ω : Type) where
  tokens : Token → Option ℚ
  request : Option (SimulatedRequest ω)
  usage : Option (String → Value ω)
  /-- `timeInBillingZone` at the time of the simulation; some zones are not supported. -/
  now : TimeFunc → String → Option ℤ
  toLowerCase : String → String
  /-- `billingString`, up to its limit. -/
  billingString : Value ω → Option String
  includes : String → String → Bool

structure BillingRequestRule where
  condition : ExpressionNode
  multiplier : ℚ
  matched : Bool

/-- What a run meets on its way. -/
inductive Step where
  | header (name : String)
  | usage (name : String)
  /-- An integer in the place of a number, and the form of the argument. -/
  | integer (form : Form)
  | order (s t : String)
  /-- The branches of a request rule, and which one was selected. -/
  | rule (yes no : ExpressionNode) (held : Bool)

/-- The state of `BillingRuntime`, and a record of its steps that no code reads. -/
structure Runtime where
  requestRules : List BillingRequestRule
  matchedTier : String
  billingUnit : BillingUnit
  fixedPrice : Option ℚ
  steps : List Step

/-- A step is recorded. -/
def Runtime.note (step : Step) (s : Runtime) : Runtime := { s with steps := s.steps ++ [step] }

variable {ω : Type}

/-- A part of a run. -/
abbrev Run (α : Type) : Type := Action Runtime DiagnosticCode α

def Literal.value : Literal → Value ω
  | .null => .nil
  | .boolean b => .bool b
  | .integer n => .int n
  | .float x => .float x
  | .string s => .str s

/-- What a compiler sees of a node. -/
def ExpressionNode.form : ExpressionNode → Form
  | .literal (.integer _) => .integer
  | .unary op x => .unary op x.form
  | .binary op l r => .binary op l.form r.form
  | _ => .atom

def boolean : Value ω → Except DiagnosticCode Bool
  | .bool b => .ok b
  | _ => .error .type

def numeric (v : Value ω) : Except DiagnosticCode ℚ :=
  match v.number with
  | some x => .ok x
  | none => .error .type

def string : Value ω → Except DiagnosticCode String
  | .str s => .ok s
  | _ => .error .type

/-- `Number.MAX_SAFE_INTEGER`. -/
def maxSafeInteger : ℤ := 2 ^ 53 - 1

/-- A value of the request or of the task, whose numbers have no mark. -/
def unmarked : Value ω → Value ω
  | .int n => .float n
  | v => v

/-- What `evaluate` checks of a value. -/
def checkValue (v : Value ω) : Except DiagnosticCode (Value ω) :=
  match v with
  | .int n => if |n| ≤ maxSafeInteger then .ok v else .error .unsupported
  | v => .ok v

def unaryValue (operator : UnaryOp) (v : Value ω) : Except DiagnosticCode (Value ω) :=
  match operator, v with
  | .not, .bool b => .ok (.bool !b)
  | .neg, .int n => .ok (.int (-n))
  | .neg, .float x => .ok (.float (-x))
  | .pos, .int n => .ok (.int n)
  | .pos, .float x => .ok (.float x)
  | _, _ => .error .type

/-- `===`.  Objects are compared with `nil` only. -/
def strictEqual (v w : Value ω) : Except DiagnosticCode Bool :=
  match v, w with
  | .func _, _ | _, .func _ => .error .unsupported
  | .nil, .nil => .ok true
  | .nil, _ | _, .nil => .ok false
  | .other _, _ | _, .other _ => .error .unsupported
  | .bool a, .bool b => .ok (a == b)
  | .str s, .str t => .ok (s == t)
  | v, w =>
    match v.number, w.number with
    | some x, some y => .ok (x == y)
    | _, _ => .ok false

/-- `<`, `<=`, `>` and `>=`, and the strings that were compared. -/
def orderValue (lt : ℚ → ℚ → Bool) (ltStr : String → String → Bool) (v w : Value ω) :
    Run (Value ω) :=
  match v, w with
  | .str s, .str t => do
    modify (Runtime.note (.order s t))
    pure (.bool (ltStr s t))
  | v, w =>
    match v.number, w.number with
    | some x, some y => pure (.bool (lt x y))
    | _, _ => lift (.error .type)

/-- `+`, `-` and `*` of two numbers. -/
def arithmeticValue (f : ℤ → ℤ → ℤ) (g : ℚ → ℚ → ℚ) (v w : Value ω) :
    Except DiagnosticCode (Value ω) :=
  match v, w with
  | .int m, .int n => .ok (.int (f m n))
  | v, w =>
    match v.number, w.number with
    | some x, some y => .ok (.float (g x y))
    | _, _ => .error .type

/-- `binary`, from the values of both operands on. -/
def binaryValue (operator : BinaryOp) (v w : Value ω) : Run (Value ω) :=
  match operator with
  | .eq => lift ((strictEqual v w).map .bool)
  | .ne => lift ((strictEqual v w).map fun b => .bool !b)
  | .lt => orderValue (fun x y => x < y) (fun s t => stringLt s t) v w
  | .le => orderValue (fun x y => x ≤ y) (fun s t => !stringLt t s) v w
  | .gt => orderValue (fun x y => y < x) (fun s t => stringLt t s) v w
  | .ge => orderValue (fun x y => y ≤ x) (fun s t => !stringLt s t) v w
  | .add =>
    match v, w with
    | .str s, .str t => pure (.str (s ++ t))
    | v, w => lift (arithmeticValue (· + ·) (· + ·) v w)
  | .sub => lift (arithmeticValue (· - ·) (· - ·) v w)
  | .mul => lift (arithmeticValue (· * ·) (· * ·) v w)
  | .div =>
    match v.number, w.number with
    | some x, some y => if y = 0 then lift (.error .number) else pure (.float (x / y))
    | _, _ => lift (.error .type)
  | .mod =>
    match v, w with
    | .int m, .int n => if n = 0 then lift (.error .number) else pure (.int (m.tmod n))
    | _, _ => lift (.error .type)
  | .and | .or => lift (.error .unsupported)

def numberArgument (form : Form) (v : Value ω) : Run ℚ :=
  match v with
  | .int n => do
    modify (Runtime.note (.integer form))
    pure (n : ℚ)
  | v => lift (numeric v)

section Evaluate

variable (sim : BillingSimulationContext ω)

/-- The entries of `headers`. -/
def headerEntries : List (String × String) :=
  match sim.request with
  | none => []
  | some request =>
    (request.headers.map fun (name, rawValue) =>
      (sim.toLowerCase (trim name), trim rawValue)).filter fun (k, v) => k != "" && v != ""

/-- The value of a header. -/
def readHeader (name : String) : String :=
  lookup (headerEntries sim) (sim.toLowerCase (trim name))

/-- `call` of a function with one argument, from its value on. -/
def call₁ (name : Func₁) (form : Form) (v : Value ω) : Run (Value ω) :=
  match name with
  | .fixed => do
    let amount ← numberArgument form v
    modify fun s => { s with billingUnit := .request, fixedPrice := some amount }
    pure (.float (amount * 1000000))
  | .param => do
    let path ← lift (string v)
    match sim.request with
    | none => lift (.error .missing_context)
    | some request =>
      match request.path path with
      | none => lift (.error .unsupported)
      | some value => pure (unmarked value)
  | .header => do
    let name ← lift (string v)
    match sim.request with
    | none => lift (.error .missing_context)
    | some _ =>
      modify (Runtime.note (.header name))
      pure (.str (readHeader sim name))
  | .u => do
    let name ← lift (string v)
    match sim.usage with
    | none => lift (.error .missing_context)
    | some facts =>
      modify (Runtime.note (.usage name))
      pure (unmarked (facts name))
  | .time f => do
    let zone ← lift (string v)
    match sim.now f (trim zone) with
    | none => lift (.error .unsupported)
    | some n => pure (.int n)
  | .abs => do
    let x ← numberArgument form v
    pure (.float |x|)
  | .ceil => do
    let x ← numberArgument form v
    pure (.float ⌈x⌉)
  | .floor => do
    let x ← numberArgument form v
    pure (.float ⌊x⌋)

/-- `has`, of a source that is not `nil`. -/
def searched (source : Value ω) (substring : String) : Except DiagnosticCode (Value ω) :=
  if substring = "" then .ok (.bool false)
  else
    match sim.billingString source with
    | none => .error .limit
    | some text => .ok (.bool (sim.includes text substring))

/-- `call` of a function with two arguments, from their evaluation on. -/
def call₂ (name : Func₂) (form₁ form₂ : Form) (arg₁ arg₂ : Run (Value ω)) : Run (Value ω) :=
  match name with
  | .tier => do
    let v ← arg₁
    let name ← lift (string v)
    let w ← arg₂
    let value ← numberArgument form₂ w
    modify fun s => { s with matchedTier := name }
    pure (.float value)
  | .has => do
    let source ← arg₁
    let w ← arg₂
    let substring ← lift (string w)
    match source with
    | .nil => pure (.bool false)
    | source => lift (searched sim source substring)
  | .min => do
    let v ← arg₁
    let x ← numberArgument form₁ v
    let w ← arg₂
    let y ← numberArgument form₂ w
    pure (.float (Min.min x y))
  | .max => do
    let v ← arg₁
    let x ← numberArgument form₁ v
    let w ← arg₂
    let y ← numberArgument form₂ w
    pure (.float (Max.max x y))

/-- The value of a variable. -/
def readToken (name : Token) : Except DiagnosticCode (Value ω) :=
  match sim.tokens name with
  | none => .error .missing_context
  | some value => if value < 0 then .error .number else .ok (.float value)

/-- `binary`, from the evaluation of the operands on. -/
def binary (operator : BinaryOp) (left right : Run (Value ω)) : Run (Value ω) :=
  match operator with
  | .and => do
    let v ← left
    if ← lift (boolean v) then
      let w ← right
      let b ← lift (boolean w)
      pure (.bool b)
    else pure (.bool false)
  | .or => do
    let v ← left
    if ← lift (boolean v) then pure (.bool true)
    else
      let w ← right
      let b ← lift (boolean w)
      pure (.bool b)
  | operator => do
    let v ← left
    let w ← right
    binaryValue operator v w

/-- The condition of a rule has been evaluated. -/
def Runtime.select (ruleIndex : ℕ) (yes no : ExpressionNode) (held : Bool) (s : Runtime) :
    Runtime where
  requestRules :=
    if held then s.requestRules.modify ruleIndex fun r => { r with matched := true }
    else s.requestRules
  matchedTier := s.matchedTier
  billingUnit := s.billingUnit
  fixedPrice := s.fixedPrice
  steps := s.steps ++ [.rule yes no held]

/-- A conditional, which is the rule `ruleIndex` or none. -/
def conditional (ruleIndex : Option ℕ) (yes no : ExpressionNode) (c y n : Run (Value ω)) :
    Run (Value ω) := do
  let v ← c
  let held ← lift (boolean v)
  modify fun s =>
    match ruleIndex with
    | some ruleIndex => s.select ruleIndex yes no held
    | none => s
  if held then y else n

/-- `evaluate` around `evaluateNode`, at a depth. -/
def guarded (depth : ℕ) (x : Run (Value ω)) : Run (Value ω) :=
  if 256 < depth then lift (.error .limit)
  else do
    let v ← x
    lift (checkValue v)

/-- `evaluate` of a tree that follows `ruleIndex` request rules, at a depth. -/
def evaluate (ruleIndex depth : ℕ) : ExpressionNode → Run (Value ω)
  | .literal value => guarded depth (pure value.value)
  | .variable name => guarded depth (lift (readToken sim name))
  | .call₁ name x =>
    guarded depth do
      let v ← evaluate ruleIndex (depth + 1) x
      call₁ sim name x.form v
  | .call₂ name x y =>
    guarded depth <| call₂ sim name x.form y.form (evaluate ruleIndex (depth + 1) x)
      (evaluate (ruleIndex + (requestRules x).length) (depth + 1) y)
  | .unary operator x =>
    guarded depth do
      let v ← evaluate ruleIndex (depth + 1) x
      lift (unaryValue operator v)
  | .binary operator l r =>
    guarded depth <| binary operator (evaluate ruleIndex (depth + 1) l)
      (evaluate (ruleIndex + (requestRules l).length) (depth + 1) r)
  | .conditional c y n =>
    let afterC := ruleIndex + (requestRules c).length
    let afterY := afterC + (requestRules y).length
    let afterN := afterY + (requestRules n).length
    let rule := (requestRule? (.conditional c y n)).map fun _ => afterN
    guarded depth <| conditional rule y n (evaluate ruleIndex (depth + 1) c)
      (evaluate afterC (depth + 1) y) (evaluate afterY (depth + 1) n)

/-- A new `BillingRuntime`. -/
def Runtime.start (rules : List RequestRule) : Runtime where
  requestRules := rules.map fun rule => ⟨rule.condition, rule.multiplier, false⟩
  matchedTier := ""
  billingUnit := .token
  fixedPrice := none
  steps := []

/-- `TOKEN_VARIABLES`. -/
def tokenVariables : List Token := [.p, .c, .len, .cr, .cc, .cc1h, .img, .imgO, .ai, .ao]

/-- The successful result of `evaluateBillingExpression`. -/
structure BillingEvaluation where
  cost : ℚ
  runtime : Runtime

/-- The cost that a value is, if it is one. -/
def checkCost (v : Value ω) : Except DiagnosticCode ℚ :=
  match v.number with
  | none => .error .number
  | some x => if x < 0 then .error .number else .ok x

def evaluateBillingExpression (ast : ExpressionNode) : Except DiagnosticCode BillingEvaluation := do
  let rules ← compileBillingExpression ast
  if tokenVariables.any fun name => (sim.tokens name).any (· < 0) then .error .number
  else
    match evaluate sim 0 1 ast (Runtime.start rules) with
    | (.error code, _) => .error code
    | (.ok v, runtime) => do
      let cost ← checkCost v
      .ok ⟨cost, runtime⟩

end Evaluate

end NexusTok.Expr.Browser
