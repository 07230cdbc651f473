import Mathlib.Algebra.Order.BigOperators.GroupWithZero.List
import NexusTok.Expr.Meaning
import NexusTok.Expr.Patch

/-!
# One pricing leaf per execution

`validateFixedPricingTree` keeps fixed prices to trees of conditionals and request multipliers over
`tier` leaves, and the pricing functions out of everything else by looking for their names.

* `run_spec` : a run of such a tree is a leaf times multipliers, and records the calls of the leaf
  among those that it makes.
* `fixedPricing_iff` : the leaf's calls are all of them, and the billing unit is that of the leaf,
  exactly when no condition, tier name or token price calls a pricing function (`Clean`).  None does
  in a tree without `$env`, which reaches the functions by other names.
-/

namespace NexusTok.Expr

open Machine Machine.Action List

variable {κ ω : Type} {L : Lang κ ω} (ctx : Context L)

/-! ### The record of a run -/

/-- The state without the marks of the rules. -/
def World.unmarked (w : World) : World := { w with trace := { w.trace with requestRules := [] } }

/-- The second state is the first one after the pricing calls `calls`. -/
def Extends (calls : List PricingCall) (w w' : World) : Prop :=
  w'.unmarked = calls.foldl World.record w.unmarked

theorem Extends.refl (w : World) : Extends [] w w := rfl

variable {w w' w₁ w₂ : World}

theorem Extends.trans {calls calls' : List PricingCall} {w'' : World}
    (h : Extends calls w w') (h' : Extends calls' w' w'') : Extends (calls ++ calls') w w'' := by
  unfold Extends at *
  rw [h', h, foldl_append]

theorem Extends.record (w : World) (c : PricingCall) : Extends [c] w (w.record c) := by
  cases c <;> rfl

theorem calls_foldl (calls : List PricingCall) (w : World) :
    (calls.foldl World.record w).calls = w.calls ++ calls := by
  induction calls generalizing w with
  | nil => exact (append_nil _).symm
  | cons c calls ih =>
    rw [foldl_cons, ih]
    exact append_assoc w.calls [c] calls

theorem Extends.calls {calls : List PricingCall} (h : Extends calls w w') :
    w'.calls = w.calls ++ calls := by
  have hcalls := calls_foldl calls w.unmarked
  rw [← show w'.unmarked = _ from h] at hcalls
  exact hcalls

/-- No calls have been made since if the record is the same. -/
theorem Extends.eq_nil {calls : List PricingCall} (h : Extends calls w w') :
    w'.calls = w.calls ↔ calls = [] := by
  rw [h.calls, append_right_eq_self]

theorem markRule_unmarked (t : Bool) (i : ℤ) (w : World) : (markRule t i w).unmarked = w.unmarked := by
  unfold markRule
  split_ifs <;> rfl

/-- Every evaluation adds to the record the calls that it makes. -/
theorem eval_extends (n : Node κ) (sc : L.Scope) (w : World) :
    ∃ calls, Extends calls w (eval (fun t => t.read ctx.params) (call ctx) n sc w).2 := by
  refine eval_invariant (I := fun w' => ∃ calls, Extends calls w w') _ (fun f vs s hs => ?_) n sc
    ⟨[], Extends.refl w⟩
  obtain ⟨calls, hcalls⟩ := hs
  rcases call_cases ctx f vs with ⟨_, _, -, -, h⟩ | ⟨_, -, -, h⟩ | ⟨_, t, i, -, h⟩ | ⟨_, -, h⟩
  · rw [h]
    exact ⟨_, hcalls.trans (Extends.record s _)⟩
  · rw [h]
    exact ⟨_, hcalls.trans (Extends.record s _)⟩
  · rw [h]
    exact ⟨calls, (markRule_unmarked t i s).trans hcalls⟩
  · rw [h]
    exact ⟨_, hcalls⟩

variable {n r a b price f leaf : Node κ}

theorem extends_of_eval {sc : L.Scope} {r : Except RunError (Value ω)}
    (h : eval (fun t => t.read ctx.params) (call ctx) n sc w = (r, w')) :
    ∃ calls, Extends calls w w' := by
  obtain ⟨calls, hcalls⟩ := eval_extends ctx n sc w
  have hw : (eval (fun t => t.read ctx.params) (call ctx) n sc w).2 = w' := congrArg Prod.snd h
  exact ⟨calls, hw ▸ hcalls⟩

/-! ### The leaf that a run selects -/

/-- The amount of a fixed price. -/
def fixedAmount : Node κ → Option ℚ
  | .call (.identifier (.func .fixed)) [amount] => amount.number
  | _ => none

/-- The fixed price of a leaf. -/
def leafAmount : Node κ → Option ℚ
  | .call (.identifier (.func .tier)) [_, price] => fixedAmount price
  | _ => none

/-- A factor of the price. -/
def factor : Except RunError (Value ω) → Option ℚ
  | .ok v => v.number
  | .error _ => none

/-- The leaf that a run from `w` selects, and the multipliers that it meets. -/
def selected (rules : List RequestRuleTrace) : Node κ → World → Option (Node κ × List ℚ)
  | .conditional _ c a b, w =>
    let found := (patch L.text rules c).2
    match patched ctx rules c L.top w with
    | (.ok (.bool true), w) => selected found a w
    | (.ok (.bool false), w) => selected (patch L.text found a).2 b w
    | _ => none
  | .binary .mul l r, w =>
    let found := (patch L.text rules l).2
    let (x, w') := patched ctx rules l L.top w
    if isRequestPriceMultiplier r then
      (selected rules l w).bind fun (leaf, factors) =>
        (factor (patched ctx found r L.top w').1).map fun q => (leaf, factors ++ [q])
    else
      (selected found r w').bind fun (leaf, factors) =>
        (factor x).map fun q => (leaf, q :: factors)
  | leaf, _ => some (leaf, [])

/-- No condition, tier name or token price that a run from `w` evaluates calls a pricing
function. -/
def Clean (rules : List RequestRuleTrace) : Node κ → World → Prop
  | .conditional _ c a b, w =>
    let found := (patch L.text rules c).2
    let (x, w') := patched ctx rules c L.top w
    w'.calls = w.calls ∧
      match x with
      | .ok (.bool true) => Clean found a w'
      | .ok (.bool false) => Clean (patch L.text found a).2 b w'
      | _ => True
  | .binary .mul l r, w =>
    let found := (patch L.text rules l).2
    let (_, w') := patched ctx rules l L.top w
    if isRequestPriceMultiplier r then
      Clean rules l w ∧ (patched ctx found r L.top w').2.calls = w'.calls
    else w'.calls = w.calls ∧ Clean found r w'
  | .call (.identifier (.func .tier)) [name, price], w =>
    let (_, w') := patched ctx rules name L.top w
    w'.calls = w.calls ∧
      (fixedAmount price = none →
        (patched ctx (patch L.text rules name).2 price L.top w').2.calls = w'.calls)
  | _, _ => True

/-- The calls of a leaf with the value `x`. -/
def leafCalls (leaf : Node κ) (name : String) (x : ℚ) : List PricingCall :=
  match leafAmount leaf with
  | some amount => [.fixed amount, .tier name x]
  | none => [.tier name x]

/-! ### Multipliers -/

theorem isRequestPriceMultiplier_cases (h : isRequestPriceMultiplier r = true) :
    ∃ t c a b m, r = .conditional t c a b ∧ isRule c a b = true ∧ containsPricingMarker c = false ∧
      a.number = some m ∧ 0 ≤ m ∧ b.number = some 1 := by
  cases r with
  | conditional t c a b =>
    unfold isRequestPriceMultiplier at h
    simp only at h
    split_ifs at h with hc
    · simp only [Bool.or_eq_true, Bool.not_eq_true', not_or, Bool.not_eq_false,
        Bool.not_eq_true] at hc
      split at h
      · rename_i m x ha hb
        simp only [Bool.and_eq_true, beq_iff_eq, decide_eq_true_eq] at h
        obtain ⟨rfl, hm⟩ := h
        exact ⟨t, c, a, b, m, rfl, by simp [isRule, hc.1, ha, hb], hc.2, ha, hm, hb⟩
      · cases h
  | _ => cases h

variable {m x q : ℚ} {v v' : Value ω}

/-- The value of a call that takes the place of a multiplier. -/
theorem ruleMeaning_number (ha : a.number = some m) (k : ℕ) (form : Form) (u : Value ω)
    (h : ruleMeaning (L := L) (call ctx) k form a b u w = (.ok v, w')) :
    v.number = some m ∨ v.number = some 1 := by
  have hone : ((1 : ℤ) : ℚ) = 1 := Int.cast_one
  unfold ruleMeaning at h
  split at h
  · rename_i n _
    obtain rfl : (n : ℚ) = m := Option.some.inj ha
    simp only [callValue, Func.params, arguments] at h
    rcases harg : argument L .bool form u with _ | t
    · rw [harg] at h
      cases h
    rw [harg] at h
    cases t with
    | bool t => cases t <;> cases h <;> simp [Value.number]
    | _ => cases h
  · simp only [callValue, Func.params, arguments] at h
    rw [ha] at h
    rcases harg : argument L .bool form u with _ | t
    · rw [harg] at h
      cases h
    rw [harg] at h
    cases t with
    | bool t => cases t <;> cases h <;> simp [Value.number]
    | _ => cases h

variable {rules : List RequestRuleTrace}

theorem eval_number (ha : a.number = some m)
    {sc : L.Scope} (h : patched ctx rules a sc w = (.ok v, w')) : v.number = some m ∧ w' = w := by
  cases a with
  | integer | float =>
    cases h
    exact ⟨ha, rfl⟩
  | _ => cases ha

/-- **The value of a multiplier** is its number or one. -/
theorem multiplier_spec (h : isRequestPriceMultiplier r = true)
    (hrun : patched ctx rules r L.top w = (.ok v, w')) : ∃ q, v.number = some q ∧ 0 ≤ q := by
  obtain ⟨t, c, a, b, m, rfl, hrule, -, ha, hm, hb⟩ := isRequestPriceMultiplier_cases h
  have hend : v.number = some m ∨ v.number = some 1 := by
    change eval _ _ (visit L.text _ (.conditional t _ _ _)).1 L.top w = _ at hrun
    rw [visit_conditional] at hrun
    split_ifs at hrun with ht
    · rw [eval_ruleCall] at hrun
      obtain ⟨u, w₁, -, hrun⟩ := bind_ok hrun
      refine ruleMeaning_number ctx ?_ _ _ u hrun
      rw [(alike_patch L.text a _).number, ha]
    · obtain ⟨u, w₁, -, hrun⟩ := bind_ok hrun
      obtain ⟨s, w₂, -, hrun⟩ := bind_ok hrun
      cases s with
      | true => exact .inl (eval_number ctx ha hrun).1
      | false => exact .inr (eval_number ctx hb hrun).1
  rcases hend with hv | hv
  · exact ⟨m, hv, hm⟩
  · exact ⟨1, hv, zero_le_one⟩

theorem binary_mul_left (hv : v.number = some q) :
    binary L .mul (.float x) v = .ok (.float (x * q)) := by
  have h : binary? .mul (.float x) v = some (.float (x * q)) := by
    cases v <;> cases hv <;> rfl
  rw [binary, h]

theorem binary_mul_right (hv : v.number = some q) :
    binary L .mul v (.float x) = .ok (.float (q * x)) := by
  have h : binary? .mul v (.float x) = some (.float (q * x)) := by
    cases v <;> cases hv <;> rfl
  rw [binary, h]

/-! ### Leaves -/

theorem call_tier_ok {args : List (Value ω)} (h : call ctx .tier args w = (.ok v, w')) :
    ∃ name x, args = [.str name, .float x] ∧ v = .float x ∧ w' = w.record (.tier name x) := by
  rcases call_cases ctx .tier args with
    ⟨name, x, -, rfl, hcall⟩ | ⟨_, hf, -⟩ | ⟨_, _, _, hf, -⟩ | ⟨r, hr, hcall⟩
  · rw [hcall] at h
    cases h
    exact ⟨name, x, rfl, rfl, rfl⟩
  · cases hf
  · rcases hf with hf | hf <;> cases hf
  · rw [hcall] at h
    cases h
    exact absurd rfl (hr v rfl).1

theorem eval_fixed (h : fixedAmount price = some q) (rules : List RequestRuleTrace) (w : World) :
    patched ctx rules price L.top w = (.ok (.float (q * 1000000)), w.record (.fixed q)) := by
  unfold fixedAmount at h
  split at h
  · rename_i amount
    cases amount with
    | integer n =>
      obtain rfl : (n : ℚ) = q := Option.some.inj h
      have harg : arguments L [.float] [.integer] [.int n] = .ok [Value.float n] := by
        simp [arguments, argument, L.floats_integer, bind, Except.bind]
      change callValue (L := L) (call ctx) [.integer] (.func .fixed) [.int n] w = _
      simp only [callValue, Func.params, harg]
      rfl
    | float x =>
      obtain rfl : x = q := Option.some.inj h
      rfl
    | _ => cases h
  · cases h

/-- A leaf is a call of `tier` with a name and a price that name no pricing function, except that
the price may be a fixed one. -/
theorem validateLeaf_cases {args : List (Node κ)}
    (h : validateFixedPricingTree (.call f args) = true) :
    ∃ name price, f = .identifier (.func .tier) ∧ args = [name, price] ∧
      containsPricingMarker name = false ∧
      ((∃ q, fixedAmount price = some q ∧ 0 ≤ q) ∨
        fixedAmount price = none ∧ containsPricingMarker price = false) := by
  unfold validateFixedPricingTree at h
  split at h
  · rename_i heq
    cases heq
  · rename_i heq
    cases heq
  · rename_i name price heq
    cases heq
    simp only [Bool.and_eq_true, Bool.not_eq_true'] at h
    refine ⟨name, price, rfl, rfl, h.1, ?_⟩
    have hprice := h.2
    unfold isLeafPrice at hprice
    split at hprice
    · rename_i amount
      split at hprice
      · rename_i q hq
        exact .inl ⟨q, hq, of_decide_eq_true hprice⟩
      · cases hprice
    · rename_i hother
      right
      rw [Bool.not_eq_true'] at hprice
      refine ⟨?_, hprice⟩
      unfold fixedAmount
      split
      · rename_i amount
        exact absurd rfl (hother amount)
      · rfl
  · cases h

/-! ### Runs -/

/-- What a run of a valid tree leaves: the leaf that it selects times the multipliers that it meets,
and the calls of the leaf among those that it makes. -/
structure Priced (rules : List RequestRuleTrace) (n : Node κ) (w w' : World) (v : Value ω)
    (leaf : Node κ) (factors : List ℚ) (name : String) (x : ℚ) (calls : List PricingCall) :
    Prop where
  selected : selected ctx rules n w = some (leaf, factors)
  value : v = .float (x * factors.prod)
  nonneg : ∀ q ∈ factors, 0 ≤ q
  extends_ : Extends calls w w'
  sublist : (leafCalls leaf name x).Sublist calls
  clean : Clean ctx rules n w ↔ calls = leafCalls leaf name x
  amount : ∀ q, leafAmount leaf = some q → 0 ≤ q ∧ x = q * 1000000

theorem append_eq_leafCalls {calls before after : List PricingCall} {leaf : List PricingCall}
    (h : leaf.Sublist calls) :
    before ++ calls ++ after = leaf ↔ before = [] ∧ after = [] ∧ calls = leaf := by
  constructor
  · intro heq
    have hlen := congrArg List.length heq
    have hle := h.length_le
    simp only [length_append] at hlen
    have hbefore : before = [] := eq_nil_of_length_eq_zero (by omega)
    have hafter : after = [] := eq_nil_of_length_eq_zero (by omega)
    subst hbefore hafter
    exact ⟨rfl, rfl, by simpa using heq⟩
  · rintro ⟨rfl, rfl, rfl⟩
    simp

theorem eval_call_two {f : Func} {x y : Node κ} {sc : L.Scope}
    (h : eval (fun t => t.read ctx.params) (call ctx) (.call (.identifier (.func f)) [x, y]) sc w =
      (.ok v, w')) :
    ∃ vx w₁ vy w₂ args, eval (fun t => t.read ctx.params) (call ctx) x sc w = (.ok vx, w₁) ∧
      eval (fun t => t.read ctx.params) (call ctx) y sc w₁ = (.ok vy, w₂) ∧
      arguments L f.params [x.form, y.form] [vx, vy] = .ok args ∧
      call ctx f args w₂ = (.ok v, w') := by
  obtain ⟨vs, w₂, hargs, h₁⟩ := bind_ok h
  obtain ⟨vx, w₁, hx, hargs₁⟩ := bind_ok hargs
  obtain ⟨_, _, hargs₂, hargs₃⟩ := bind_ok hargs₁
  obtain ⟨vy, _, hy, hargs₄⟩ := bind_ok hargs₂
  cases hargs₄
  cases hargs₃
  obtain ⟨_, _, hf, h₂⟩ := bind_ok h₁
  cases hf
  obtain ⟨args, _, hlift, h₃⟩ := bind_ok h₂
  obtain ⟨hconv, rfl⟩ := lift_ok hlift
  exact ⟨vx, w₁, vy, _, args, hx, hy, hconv, h₃⟩

theorem arguments_two {k k' : Kind} {form form' : Form} {a a' : Value ω}
    (h : arguments L [k, k'] [form, form'] [v, v'] = .ok [a, a']) :
    argument L k' form' v' = .ok a' := by
  simp only [arguments] at h
  rcases hv : argument L k form v with _ | b
  · rw [hv] at h
    cases h
  rw [hv] at h
  rcases hv' : argument L k' form' v' with _ | b'
  · rw [hv'] at h
    cases h
  rw [hv'] at h
  cases h
  rfl

theorem clean_leaf {name : Node κ}
    {r r' : Except RunError (Value ω)} (h : patched ctx rules name L.top w = (r, w₁))
    (h' : patched ctx (patch L.text rules name).2 price L.top w₁ = (r', w₂)) :
    Clean ctx rules (.call (.identifier (.func .tier)) [name, price]) w ↔
      w₁.calls = w.calls ∧ (fixedAmount price = none → w₂.calls = w₁.calls) := by
  simp only [Clean, h, h']

theorem leaf_priced {args : List (Node κ)}
    (h : validateFixedPricingTree (.call f args) = true) (rules : List RequestRuleTrace)
    (hrun : patched ctx rules (.call f args) L.top w = (.ok v, w')) :
    ∃ name x calls, Priced ctx rules (.call f args) w w' v (.call f args) [] name x calls := by
  obtain ⟨name, price, rfl, rfl, -, hprice⟩ := validateLeaf_cases h
  obtain ⟨vn, w₁, vp, w₂, args, hn, hp, hargs, hcall⟩ := eval_call_two ctx hrun
  obtain ⟨s, x, rfl, rfl, rfl⟩ := call_tier_ok ctx hcall
  have hx := arguments_two hargs
  obtain ⟨e₁, he₁⟩ := extends_of_eval ctx hn
  have hname : patched ctx rules name L.top w = (.ok vn, w₁) := hn
  have hpriceRun : patched ctx (patch L.text rules name).2 price L.top w₁ = (.ok vp, w₂) := hp
  rcases hprice with ⟨q, hq, hpos⟩ | ⟨hnone, -⟩
  · -- a fixed price
    have hamount : leafAmount (.call (.identifier (.func .tier)) [name, price]) = some q := hq
    have hfixed := eval_fixed ctx hq (patch L.text rules name).2 w₁
    have hclean := clean_leaf ctx hname hfixed
    cases hpriceRun.symm.trans hfixed
    cases hx
    have hleaf : leafCalls (.call (.identifier (.func .tier)) [name, price]) s (q * 1000000) =
        [.fixed q, .tier s (q * 1000000)] := by rw [leafCalls, hamount]
    refine ⟨s, q * 1000000, e₁ ++ [.fixed q] ++ [.tier s (q * 1000000)], rfl, by simp, nofun,
      (he₁.trans (Extends.record w₁ _)).trans (Extends.record _ _), ?_, ?_, ?_⟩
    · rw [hleaf, append_assoc]
      exact sublist_append_right _ _
    · rw [hleaf, hclean, he₁.eq_nil, append_assoc]
      simp only [cons_append, nil_append, append_left_eq_self, and_iff_left_iff_imp]
      intro _ hnone
      rw [hq] at hnone
      cases hnone
    · intro q' hq'
      rw [hamount] at hq'
      cases hq'
      exact ⟨hpos, rfl⟩
  · -- a price in tokens
    have hamount : leafAmount (.call (.identifier (.func .tier)) [name, price]) = none := hnone
    obtain ⟨e₂, he₂⟩ := extends_of_eval ctx hp
    have hleaf : leafCalls (.call (.identifier (.func .tier)) [name, price]) s x = [.tier s x] := by
      rw [leafCalls, hamount]
    refine ⟨s, x, e₁ ++ e₂ ++ [.tier s x], rfl, by simp, nofun,
      (he₁.trans he₂).trans (Extends.record w₂ _), ?_, ?_, ?_⟩
    · rw [hleaf]
      exact sublist_append_right _ _
    · rw [hleaf, clean_leaf ctx hname hpriceRun, he₁.eq_nil, he₂.eq_nil]
      simp only [append_left_eq_self, append_eq_nil_iff]
      exact and_congr_right fun _ => ⟨fun h => h hnone, fun h _ => h⟩
    · intro q' hq'
      rw [hamount] at hq'
      cases hq'

theorem Priced.around {rules' : List RequestRuleTrace} {m : Node κ}
    {factors factors' : List ℚ} {name : String} {calls before after : List PricingCall}
    (h : Priced ctx rules' m w₁ w₂ v leaf factors name x calls) (hbefore : Extends before w w₁)
    (hafter : Extends after w₂ w') (hselected : Expr.selected ctx rules n w = some (leaf, factors'))
    (hvalue : v' = .float (x * factors'.prod)) (hnonneg : ∀ q ∈ factors', 0 ≤ q)
    (hclean : Clean ctx rules n w ↔
      w₁.calls = w.calls ∧ w'.calls = w₂.calls ∧ Clean ctx rules' m w₁) :
    Priced ctx rules n w w' v' leaf factors' name x (before ++ calls ++ after) where
  selected := hselected
  value := hvalue
  nonneg := hnonneg
  extends_ := (hbefore.trans h.extends_).trans hafter
  sublist := by
    refine (h.sublist.trans ?_)
    rw [append_assoc]
    exact (sublist_append_left _ _).trans (sublist_append_right _ _)
  clean := by
    rw [hclean, hbefore.eq_nil, hafter.eq_nil, h.clean, append_eq_leafCalls h.sublist]
  amount := h.amount

theorem number_of_valid (h : validateFixedPricingTree n = true) : n.number = none := by
  cases n with
  | integer | float => cases h
  | _ => rfl

/-- A conditional of pricing trees is no multiplier. -/
theorem patched_conditional {t : Bool} {c : Node κ} (ha : a.number = none)
    (rules : List RequestRuleTrace) :
    patched ctx rules (.conditional t c a b) =
      conditionalMeaning (patched ctx rules c) (patched ctx (patch L.text rules c).2 a)
        (patched ctx (patch L.text (patch L.text rules c).2 a).2 b) := by
  have hrule : isRule (patch L.text rules c).1 (patch L.text (patch L.text rules c).2 a).1
      (patch L.text (patch L.text (patch L.text rules c).2 a).2 b).1 = false := by
    simp [isRule, (alike_patch L.text a _).number, ha]
  change eval _ _ (visit L.text _ (.conditional t _ _ _)).1 = _
  rw [visit_conditional, hrule, Bool.and_false, if_neg Bool.false_ne_true]
  rfl

/-- **A run of a valid tree is priced.** -/
theorem run_priced (n : Node κ) : validateFixedPricingTree n = true → ∀ rules v w w',
    patched ctx rules n L.top w = (.ok v, w') →
      ∃ leaf factors name x calls, Priced ctx rules n w w' v leaf factors name x calls := by
  induction n using Node.induct with
  | nil | bool | integer | float | string | identifier | unary | other => exact nofun
  | binary op l r ihl ihr =>
    intro h rules v w w' hrun
    cases op with
    | mul =>
      obtain ⟨vl, w₁, hl, hrun₁⟩ := bind_ok hrun
      obtain ⟨vr, w₂, hr, hrun₂⟩ := bind_ok hrun₁
      obtain ⟨hmul, hw⟩ := lift_ok hrun₂
      subst hw
      have hl' : patched ctx rules l L.top w = (.ok vl, w₁) := hl
      have hr' : patched ctx (patch L.text rules l).2 r L.top w₁ = (.ok vr, w') := hr
      unfold validateFixedPricingTree at h
      by_cases hright : isRequestPriceMultiplier r = true
      · -- the multiplier stands on the right
        rw [if_pos hright] at h
        obtain ⟨leaf, factors, name, x, calls, hpriced⟩ := ihl h rules vl w w₁ hl'
        obtain ⟨q, hq, hpos⟩ := multiplier_spec ctx hright hr'
        obtain ⟨after, hafter⟩ := extends_of_eval ctx hr
        refine ⟨leaf, factors ++ [q], name, x, _,
          hpriced.around ctx (Extends.refl w) hafter ?_ ?_ ?_ ?_⟩
        · simp only [selected, hl', hr', hright, if_true, hpriced.selected, factor, hq]
          rfl
        · rw [hpriced.value, binary_mul_left hq] at hmul
          cases hmul
          rw [prod_append, prod_singleton, mul_assoc]
        · intro q' hq'
          rcases mem_append.1 hq' with hq' | hq'
          · exact hpriced.nonneg q' hq'
          · rw [mem_singleton.1 hq']
            exact hpos
        · simp only [Clean, hl', hr', hright, if_true, true_and]
          exact and_comm
      · -- the multiplier stands on the left
        rw [if_neg hright] at h
        split_ifs at h with hleft
        obtain ⟨leaf, factors, name, x, calls, hpriced⟩ := ihr h _ vr w₁ w' hr'
        obtain ⟨q, hq, hpos⟩ := multiplier_spec ctx hleft hl'
        obtain ⟨before, hbefore⟩ := extends_of_eval ctx hl
        refine ⟨leaf, q :: factors, name, x, _,
          hpriced.around ctx hbefore (Extends.refl w') ?_ ?_ ?_ ?_⟩
        · simp only [selected, hl', hright, Bool.false_eq_true, if_false, hpriced.selected, factor,
            hq]
          rfl
        · rw [hpriced.value, binary_mul_right hq] at hmul
          cases hmul
          rw [prod_cons, mul_left_comm]
        · intro q' hq'
          rcases mem_cons.1 hq' with rfl | hq'
          · exact hpos
          · exact hpriced.nonneg q' hq'
        · simp only [Clean, hl', hright, Bool.false_eq_true, if_false, true_and]
    | _ => cases h
  | conditional t c a b _ iha ihb =>
    intro h rules v w w' hrun
    unfold validateFixedPricingTree at h
    split_ifs at h
    rw [Bool.and_eq_true] at h
    rw [patched_conditional ctx (number_of_valid h.1)] at hrun
    obtain ⟨u, w₁, hc, hrun₁⟩ := bind_ok hrun
    obtain ⟨s, w₂, hs, hrun₂⟩ := bind_ok hrun₁
    obtain ⟨htruth, hw⟩ := lift_ok hs
    subst hw
    obtain rfl := truth_bool htruth
    obtain ⟨before, hbefore⟩ := extends_of_eval ctx hc
    cases s with
    | true =>
      obtain ⟨leaf, factors, name, x, calls, hpriced⟩ := iha h.1 _ v w₂ w' hrun₂
      refine ⟨leaf, factors, name, x, _, hpriced.around ctx hbefore (Extends.refl w') ?_
        hpriced.value hpriced.nonneg ?_⟩
      · simp only [selected, hc, hpriced.selected]
      · simp only [Clean, hc, true_and]
    | false =>
      obtain ⟨leaf, factors, name, x, calls, hpriced⟩ := ihb h.2 _ v w₂ w' hrun₂
      refine ⟨leaf, factors, name, x, _, hpriced.around ctx hbefore (Extends.refl w') ?_
        hpriced.value hpriced.nonneg ?_⟩
      · simp only [selected, hc, hpriced.selected]
      · simp only [Clean, hc, true_and]
  | call f args _ _ =>
    intro h rules v w w' hrun
    obtain ⟨name, x, calls, hpriced⟩ := leaf_priced ctx h rules hrun
    exact ⟨_, _, name, x, calls, hpriced⟩

/-! ### Trees without `$env` -/

/-- The pricing functions. -/
def Func.IsPricing (f : Func) : Prop := f = .tier ∨ f = .fixed

/-- The data of a request holds no function. -/
theorem param_free {F : Func → Prop} (path : String) : Free F L (param ctx path) := by
  unfold param
  dsimp only
  split_ifs
  · exact id
  · split
    · exact id
    · rename_i read hbody
      cases hv : read (trimSpace path) with
      | none => exact id
      | some v => exact ctx.body_data read _ v F hbody hv

theorem u_free {F : Func → Prop} (name : String) : Free F L (u ctx name) := by
  unfold u
  cases husage : ctx.usage with
  | none => exact id
  | some facts => exact ctx.usage_data facts _ F husage

/-- The functions of the environment give data. -/
theorem call_free {F : Func → Prop} (f : Func) (vs : List (Value ω)) :
    ∀ w v, (call ctx f vs w).1 = .ok v → Free F L v := by
  unfold call
  split
  case h_3 =>
    rename_i t _
    intro w v h
    cases t <;> cases h <;> exact id
  case h_4 =>
    rename_i t _
    intro w v h
    cases t <;> cases h <;> exact id
  case h_6 =>
    intro w v h
    cases h
    exact param_free ctx _
  case h_7 =>
    intro w v h
    cases h
    exact u_free ctx _
  all_goals
    intro w v h
    cases h
    try exact id

theorem call_keeps {f : Func} (hf : ¬ f.IsPricing) (vs : List (Value ω))
    (calls : List PricingCall) :
    Keeps (fun w => w.calls = calls) (Free Func.IsPricing L) (call ctx f vs) := by
  intro w hw
  refine ⟨?_, fun v => call_free ctx f vs w v⟩
  rcases call_cases ctx f vs with ⟨_, _, hf', -⟩ | ⟨_, hf', -⟩ | ⟨r, t, i, -, h⟩ | ⟨r, -, h⟩
  · exact absurd (.inl hf') hf
  · exact absurd (.inr hf') hf
  · rw [h]
    unfold markRule
    split_ifs <;> exact hw
  · rw [h]
    exact hw

/-- A part without the names of the pricing functions and without `$env` calls none of them. -/
theorem calls_of_unmarked (hmarker : containsPricingMarker n = false)
    (henv : .env ∉ n.names) (rules : List RequestRuleTrace) (w : World) :
    (patched ctx rules n L.top w).2.calls = w.calls := by
  have hnames : ∀ f, .func f ∈ (patch L.text rules n).1.names → ¬ f.IsPricing := by
    intro f hf hpricing
    rcases names_patch L.text n rules _ hf with hf | hf | hf
    · unfold containsPricingMarker at hmarker
      rw [any_eq_false] at hmarker
      have := hmarker _ hf
      rcases hpricing with rfl | rfl <;> simp at this
    · cases hf
      rcases hpricing with h | h <;> cases h
    · cases hf
      rcases hpricing with h | h <;> cases h
  have henv' : .env ∉ (patch L.text rules n).1.names := by
    intro he
    rcases names_patch L.text n rules _ he with he | he | he
    · exact henv he
    · cases he
    · cases he
  exact (eval_tame (I := fun w' => w'.calls = w.calls) _
    (fun f vs hf _ => call_keeps ctx hf vs w.calls) _ hnames henv' L.top (L.top_holds _) w rfl).1

/-- **No part of a tree without `$env` calls a pricing function.** -/
theorem clean_of_no_env (n : Node κ) : validateFixedPricingTree n = true → .env ∉ n.names →
    ∀ rules w, Clean ctx rules n w := by
  induction n using Node.induct with
  | nil | bool | integer | float | string | identifier | unary | other => intros; contradiction
  | binary op l r ihl ihr =>
    intro h henv rules w
    simp only [Node.names, mem_append, not_or] at henv
    cases op with
    | mul =>
      -- the condition of a multiplier names no pricing function, and its numbers name nothing
      have hmultiplier : ∀ {x : Node κ} (rules : List RequestRuleTrace) (w : World),
          isRequestPriceMultiplier x = true → .env ∉ x.names →
            (patched ctx rules x L.top w).2.calls = w.calls := by
        intro x rules w hx hxenv
        obtain ⟨t, c, a, b, m, rfl, -, hmarker, ha, -, hb⟩ := isRequestPriceMultiplier_cases hx
        refine calls_of_unmarked ctx ?_ hxenv rules w
        have hnames : ∀ {y : Node κ} {q : ℚ}, y.number = some q → y.names = [] := by
          intro y q hy
          cases y with
          | integer | float => rfl
          | _ => cases hy
        unfold containsPricingMarker at hmarker ⊢
        simp only [Node.names, hnames ha, hnames hb, append_nil]
        exact hmarker
      unfold validateFixedPricingTree at h
      simp only [Clean]
      by_cases hright : isRequestPriceMultiplier r = true
      · rw [if_pos hright] at h ⊢
        exact ⟨ihl h henv.1 rules w, hmultiplier _ _ hright henv.2⟩
      · rw [if_neg hright] at h ⊢
        split_ifs at h with hleft
        exact ⟨hmultiplier _ _ hleft henv.1, ihr h henv.2 _ _⟩
    | _ => cases h
  | conditional t c a b _ iha ihb =>
    intro h henv rules w
    simp only [Node.names, mem_append, not_or] at henv
    unfold validateFixedPricingTree at h
    split_ifs at h with hmarker
    rw [Bool.and_eq_true] at h
    simp only [Clean]
    refine ⟨calls_of_unmarked ctx (by simpa using hmarker) henv.1.1 rules w, ?_⟩
    split
    · exact iha h.1 henv.1.2 _ _
    · exact ihb h.2 henv.2 _ _
    · trivial
  | call f args _ _ =>
    intro h henv rules w
    obtain ⟨name, price, rfl, rfl, hname, hprice⟩ := validateLeaf_cases h
    simp only [Node.names, Node.namesList, mem_append, not_or] at henv
    simp only [Clean]
    refine ⟨calls_of_unmarked ctx hname henv.2.1 rules w, fun hnone => ?_⟩
    rcases hprice with ⟨q, hq, -⟩ | ⟨-, hmarker⟩
    · rw [hq] at hnone
      cases hnone
    · exact calls_of_unmarked ctx hmarker henv.2.2.1 _ _

/-! ### One price -/

/-- A call of `tier`. -/
def PricingCall.isTier : PricingCall → Bool
  | .tier _ _ => true
  | .fixed _ => false

/-- The state that a run of a tree starts from. -/
def startOf (L : Lang κ ω) (tree : Node κ) : World := World.start (patch L.text [] tree).2

/-- What fixed pricing promises of a run with the result `value` that ends in `w`: one call of `tier`
and at most one of `fixed`, the value of the selected leaf times multipliers that are not negative,
and the billing unit, and the fixed price, of that leaf. -/
def SinglePrice (tree : Node κ) (value : ℚ) (w : World) : Prop :=
  ∃ leaf factors name x, selected ctx [] tree (startOf L tree) = some (leaf, factors) ∧
    w.calls.filter PricingCall.isTier = [.tier name x] ∧
    w.calls.countP (!·.isTier) ≤ 1 ∧
    value = x * factors.prod ∧ (∀ q ∈ factors, 0 ≤ q) ∧
    (w.trace.billingUnit = .request ↔ (leafAmount leaf).isSome = true) ∧
    ∀ q, leafAmount leaf = some q → 0 ≤ value ∧
      ∃ price, w.trace.fixedPrice = some price ∧ value = price * 1000000 * factors.prod

theorem billingUnit_foldl (calls : List PricingCall) (w : World) :
    (calls.foldl World.record w).trace.billingUnit = .request ↔
      w.trace.billingUnit = .request ∨ ∃ c ∈ calls, c.isTier = false := by
  induction calls generalizing w with
  | nil => simp
  | cons c calls ih =>
    rw [foldl_cons, ih]
    cases c with
    | tier | fixed => simp [World.record, PricingCall.isTier]

theorem eq_leafCalls {name : String} {calls : List PricingCall}
    (hsub : (leafCalls leaf name x).Sublist calls)
    (htier : (calls.filter PricingCall.isTier).length = 1)
    (hfixed : calls.countP (!·.isTier) ≤ if (leafAmount leaf).isSome then 1 else 0) :
    calls = leafCalls leaf name x := by
  refine (hsub.eq_of_length ?_).symm
  have hle := hsub.length_le
  have hlen : calls.length = calls.countP PricingCall.isTier + calls.countP (!·.isTier) := by
    rw [length_eq_countP_add_countP PricingCall.isTier]
    simp
  rw [← countP_eq_length_filter] at htier
  unfold leafCalls at hle ⊢
  cases hamount : leafAmount leaf with
  | none =>
    simp only [hamount, Option.isSome_none, Bool.false_eq_true, if_false] at hfixed hle ⊢
    simp only [length_singleton] at hle ⊢
    omega
  | some q =>
    simp only [hamount, Option.isSome_some, if_true] at hfixed hle ⊢
    simp only [length_cons, length_nil] at hle ⊢
    omega

/-- **One price for each execution.**  A run of a valid tree has a single price exactly when no
condition, tier name or token price that it evaluates calls a pricing function; and none does in a
tree without `$env`. -/
theorem fixedPricing_iff (ctx : Context L) (tree : Node κ)
    (hvalid : validateFixedPricingTree tree = true) :
    (∀ value, (runProgram ctx (patch L.text [] tree).1 (patch L.text [] tree).2).1 = .ok value →
      (SinglePrice ctx tree value
          (runProgram ctx (patch L.text [] tree).1 (patch L.text [] tree).2).2 ↔
        Clean ctx [] tree (startOf L tree))) ∧
    (.env ∉ tree.names → Clean ctx [] tree (startOf L tree)) := by
  refine ⟨fun value hrun => ?_, fun henv => clean_of_no_env ctx tree hvalid henv _ _⟩
  obtain ⟨w, hprogram⟩ : ∃ w, runProgram ctx (patch L.text [] tree).1 (patch L.text [] tree).2 =
      (.ok value, w) := ⟨_, by rw [← hrun]⟩
  obtain ⟨v, w', heval, hlift⟩ := bind_ok hprogram
  obtain ⟨hvalue, hw⟩ := lift_ok hlift
  subst hw
  obtain ⟨leaf, factors, name, x, calls, h⟩ := run_priced ctx tree hvalid [] v _ w heval
  have hx : value = x * factors.prod := by
    rw [h.value] at hvalue
    exact (Except.ok.inj hvalue).symm
  have hcalls : w.calls = calls := h.extends_.calls
  have hunit : w.trace.billingUnit = .request ↔ ∃ c ∈ calls, c.isTier = false := by
    have hfold := billingUnit_foldl calls (startOf L tree).unmarked
    rw [← show w.unmarked = calls.foldl World.record (startOf L tree).unmarked from h.extends_]
      at hfold
    refine hfold.trans (or_iff_right ?_)
    exact nofun
  rw [hprogram]
  constructor
  · rintro ⟨leaf', factors', name', x', hselected, htier, hfixed, -, -, hrequest, -⟩
    rw [show selected ctx [] tree (startOf L tree) = some (leaf, factors) from h.selected]
      at hselected
    cases hselected
    rw [hcalls] at htier hfixed
    refine h.clean.2 (eq_leafCalls h.sublist (by rw [htier]; rfl) ?_)
    split_ifs with hamount
    · exact hfixed
    · -- `fixed` is called only if the leaf is a fixed one
      refine Nat.le_zero.2 (List.countP_eq_zero.2 fun c hc htrue => ?_)
      exact hamount (hrequest.1 (hunit.2 ⟨c, hc, by simpa using htrue⟩))
  · intro hclean
    have hleaf : calls = leafCalls leaf name x := h.clean.1 hclean
    refine ⟨leaf, factors, name, x, h.selected, ?_, ?_, hx, h.nonneg, ?_, fun q hq => ?_⟩
    · rw [hcalls, hleaf]
      unfold leafCalls
      split <;> rfl
    · rw [hcalls, hleaf]
      unfold leafCalls
      split <;> simp [PricingCall.isTier]
    · rw [hunit, hleaf]
      unfold leafCalls
      cases leafAmount leaf <;> simp [PricingCall.isTier]
    · obtain ⟨hpos, rfl⟩ := h.amount q hq
      have hprod : 0 ≤ factors.prod := List.prod_nonneg h.nonneg
      refine ⟨by rw [hx]; positivity, q, ?_, hx⟩
      have hend : w.unmarked = calls.foldl World.record (startOf L tree).unmarked := h.extends_
      rw [hleaf, leafCalls, hq] at hend
      exact congrArg (·.trace.fixedPrice) hend

/-- `tier("request", fixed(3))`. -/
def requestTier : Node Func :=
  .call (.identifier (.func .tier))
    [.string "request", .call (.identifier (.func .fixed)) [.integer 3]]

theorem fixedPricing_iff_request :
    (∀ value, (runProgram noRequest (patch memberLang.text [] requestTier).1
        (patch memberLang.text [] requestTier).2).1 = .ok value →
      (SinglePrice noRequest requestTier value
          (runProgram noRequest (patch memberLang.text [] requestTier).1
            (patch memberLang.text [] requestTier).2).2 ↔
        Clean noRequest [] requestTier (startOf memberLang requestTier))) ∧
    (.env ∉ requestTier.names → Clean noRequest [] requestTier (startOf memberLang requestTier)) :=
  fixedPricing_iff noRequest requestTier (by decide +kernel)

/-- `tier("token", $env.fixed(3.0))`, which names no pricing function in its price. -/
def hiddenFixed : Node Func :=
  .call (.identifier (.func .tier))
    [.string "token", .call (.other .fixed [.identifier .env]) [.float 3]]

/-- The leaf has a price in tokens, and the run is billed by request. -/
theorem hiddenFixed_request :
    validateFixedPricingTree hiddenFixed = true ∧
      (runProgram noRequest (patch memberLang.text [] hiddenFixed).1
        (patch memberLang.text [] hiddenFixed).2).1 = .ok 3000000 ∧
      (runProgram noRequest (patch memberLang.text [] hiddenFixed).1
        (patch memberLang.text [] hiddenFixed).2).2.trace.billingUnit = .request ∧
      selected noRequest [] hiddenFixed (startOf memberLang hiddenFixed) = some (hiddenFixed, []) ∧
      leafAmount hiddenFixed = none :=
  ⟨by decide +kernel, by decide +kernel, by decide +kernel, rfl, rfl⟩

end NexusTok.Expr
