import NexusTok.Expr.Eval

/-!
# The patch of request multipliers

The billing engine runs a tree in which each request multiplier `probe ? number : 1` has become a
call that also leaves a trace.

* `alike_patch` : the patch does not change what the compiler and the billing engine look at.
* `finds_patch` : the rules it finds are as many as the multipliers of the tree, and none of them
  has matched.
-/

namespace NexusTok.Expr

open Machine Machine.Action List

variable {κ : Type}

/-! ### What the patch leaves in place -/

/-- The node is a number that is written without a fraction. -/
def Node.isInteger : Node κ → Bool
  | .integer _ => true
  | _ => false

/-- A request multiplier. -/
def isRule (cond exp1 exp2 : Node κ) : Bool :=
  usesRequestProbe cond && exp1.number.isSome && exp2.number == some 1

/-- The call that takes the place of a request multiplier. -/
def ruleCall (ruleIndex : ℕ) (cond exp1 exp2 : Node κ) : Node κ :=
  match exp1, exp2 with
  | .integer n, .integer _ =>
    .call (.identifier (.func .traceInt)) [.integer ruleIndex, cond, .integer n]
  | exp1, _ =>
    .call (.identifier (.func .trace)) [.integer ruleIndex, cond, .float (exp1.number.getD 0)]

mutual

/-- The number of request multipliers in a tree. -/
def Node.ruleCount : Node κ → ℕ
  | .unary _ x => x.ruleCount
  | .binary _ l r => l.ruleCount + r.ruleCount
  | .conditional t c a b =>
    c.ruleCount + a.ruleCount + b.ruleCount + if t && isRule c a b then 1 else 0
  | .call f args => f.ruleCount + Node.ruleCountList args
  | .other _ children => Node.ruleCountList children
  | _ => 0

def Node.ruleCountList : List (Node κ) → ℕ
  | [] => 0
  | x :: xs => x.ruleCount + Node.ruleCountList xs

end

section Patch

variable (text : Node κ → String)

theorem visit_conditional (rules : List RequestRuleTrace) (t : Bool) (c a b : Node κ) :
    visit text rules (.conditional t c a b) =
      if t && isRule c a b then
        (ruleCall rules.length c a b, rules ++ [⟨text c, a.number.getD 0, false⟩])
      else (.conditional t c a b, rules) := by
  cases t with
  | false => rfl
  | true =>
    unfold isRule
    cases hprobe : usesRequestProbe c with
    | false => simp [visit, hprobe]
    | true =>
      cases ha : a.number with
      | none => simp [visit, ha]
      | some m =>
        cases hb : b.number with
        | none => simp [visit, hb]
        | some x =>
          by_cases hx : x = 1
          · cases a <;> cases b <;> simp_all [visit, ruleCall, Node.number]
          · simp [visit, ha, hb, hx]

/-- What is no conditional stays as it is. -/
theorem visit_of_not (rules : List RequestRuleTrace) {n : Node κ}
    (h : ∀ t c a b, n ≠ .conditional t c a b) : visit text rules n = (n, rules) := by
  cases n with
  | conditional t c a b => exact absurd rfl (h t c a b)
  | _ => rfl

end Patch

/-- The node is the name of a function of the environment. -/
def Node.isFunc : Node κ → Bool
  | .identifier (.func _) => true
  | _ => false

/-- What the billing engine and the compiler see of a tree does not change. -/
structure Alike (n n' : Node κ) : Prop where
  isFunc : n'.isFunc = n.isFunc
  probe : usesRequestProbe n' = usesRequestProbe n
  number : n'.number = n.number
  isInteger : n'.isInteger = n.isInteger
  form : n'.form = n.form

theorem Alike.refl (n : Node κ) : Alike n n := ⟨rfl, rfl, rfl, rfl, rfl⟩

theorem Alike.trans {n m k : Node κ} (h : Alike n m) (h' : Alike m k) : Alike n k :=
  ⟨h'.isFunc.trans h.isFunc, h'.probe.trans h.probe, h'.number.trans h.number, h'.isInteger.trans h.isInteger,
    h'.form.trans h.form⟩

theorem Alike.isRule {c a b c' a' b' : Node κ} (hc : Alike c c') (ha : Alike a a')
    (hb : Alike b b') : isRule c' a' b' = isRule c a b := by
  unfold Expr.isRule
  rw [hc.probe, ha.number, hb.number]

theorem alike_ruleCall (i : ℕ) {c a b : Node κ} (h : isRule c a b = true) :
    Alike (.conditional true c a b) (ruleCall i c a b) := by
  have hc : c.names.any Name.isProbe = true := by
    unfold isRule usesRequestProbe at h
    simp only [Bool.and_eq_true] at h
    exact h.1.1
  unfold ruleCall
  split <;> exact ⟨rfl, by simp [usesRequestProbe, Node.names, Node.namesList, hc], rfl, rfl, rfl⟩

theorem alike_visit (text : Node κ → String) (rules : List RequestRuleTrace) (n : Node κ) :
    Alike n (visit text rules n).1 := by
  by_cases hn : ∀ t c a b, n ≠ .conditional t c a b
  · rw [visit_of_not text rules hn]
    exact Alike.refl n
  · push Not at hn
    obtain ⟨t, c, a, b, rfl⟩ := hn
    rw [visit_conditional]
    split_ifs with h
    · rw [Bool.and_eq_true] at h
      obtain ⟨rfl, h⟩ := h
      exact alike_ruleCall _ h
    · exact Alike.refl _

theorem probe_list {xs ys : List (Node κ)} (h : List.Forall₂ Alike xs ys) :
    (Node.namesList ys).any Name.isProbe = (Node.namesList xs).any Name.isProbe := by
  induction h with
  | nil => rfl
  | cons hx _ ih =>
    have hx' := hx.probe
    unfold usesRequestProbe at hx'
    simp only [Node.namesList, any_append, hx', ih]

section

variable (text : Node κ → String)

theorem patchList_of {P : Node κ → Node κ → Prop} {xs : List (Node κ)}
    (h : ∀ x ∈ xs, ∀ rules, P x (patch text rules x).1) (rules : List RequestRuleTrace) :
    List.Forall₂ P xs (patchList text rules xs).1 := by
  induction xs generalizing rules with
  | nil => exact .nil
  | cons x xs ih =>
    refine .cons (h x mem_cons_self rules) (ih (fun y hy => ?_) _)
    exact h y (mem_cons_of_mem x hy)

theorem alike_patch (n : Node κ) : ∀ rules, Alike n (patch text rules n).1 := by
  induction n using Node.induct with
  | nil | bool | integer | float | string | identifier => exact fun _ => Alike.refl _
  | unary op x ih =>
    intro rules
    have hx := ih rules
    have h : Alike (.unary op x) (.unary op (patch text rules x).1) :=
      ⟨rfl, hx.probe, rfl, rfl, by simp only [Node.form, hx.form]⟩
    exact h.trans (alike_visit text (patch text rules x).2 _)
  | binary op l r ihl ihr =>
    intro rules
    have hl := ihl rules
    have hr := ihr (patch text rules l).2
    have h : Alike (.binary op l r)
        (.binary op (patch text rules l).1 (patch text (patch text rules l).2 r).1) := by
      refine ⟨rfl, ?_, rfl, rfl, by simp only [Node.form, hl.form, hr.form]⟩
      have hlp := hl.probe
      have hrp := hr.probe
      unfold usesRequestProbe at hlp hrp ⊢
      simp only [Node.names, any_append, hlp, hrp]
    exact h.trans (alike_visit text (patch text (patch text rules l).2 r).2 _)
  | conditional t c a b ihc iha ihb =>
    intro rules
    have hc := (ihc rules).probe
    have ha := (iha (patch text rules c).2).probe
    have hb := (ihb (patch text (patch text rules c).2 a).2).probe
    have h : Alike (.conditional t c a b) (.conditional t (patch text rules c).1
        (patch text (patch text rules c).2 a).1
        (patch text (patch text (patch text rules c).2 a).2 b).1) := by
      refine ⟨rfl, ?_, rfl, rfl, rfl⟩
      unfold usesRequestProbe at hc ha hb ⊢
      simp only [Node.names, any_append, hc, ha, hb]
    exact h.trans (alike_visit text (patch text (patch text (patch text rules c).2 a).2 b).2 _)
  | call f args ihf ihargs =>
    intro rules
    have hf := (ihf rules).probe
    have hargs := probe_list (patchList_of text ihargs (patch text rules f).2)
    have h : Alike (.call f args)
        (.call (patch text rules f).1 (patchList text (patch text rules f).2 args).1) := by
      refine ⟨rfl, ?_, rfl, rfl, rfl⟩
      unfold usesRequestProbe at hf ⊢
      simp only [Node.names, any_append, hf, hargs]
    exact h.trans (alike_visit text (patchList text (patch text rules f).2 args).2 _)
  | other k children ih =>
    intro rules
    have hchildren := probe_list (patchList_of text ih rules)
    have h : Alike (.other k children) (.other k (patchList text rules children).1) := by
      refine ⟨rfl, ?_, rfl, rfl, rfl⟩
      unfold usesRequestProbe
      simp only [Node.names, hchildren]
    exact h.trans (alike_visit text (patchList text rules children).2 _)

theorem names_patch (n : Node κ) : ∀ rules, ∀ name ∈ (patch text rules n).1.names,
    name ∈ n.names ∨ name = .func .trace ∨ name = .func .traceInt := by
  have hlist : ∀ {xs : List (Node κ)}, (∀ x ∈ xs, ∀ rules, ∀ name ∈ (patch text rules x).1.names,
      name ∈ x.names ∨ name = .func .trace ∨ name = .func .traceInt) →
        ∀ rules, ∀ name ∈ Node.namesList (patchList text rules xs).1,
          name ∈ Node.namesList xs ∨ name = .func .trace ∨ name = .func .traceInt := by
    intro xs h
    induction xs with
    | nil => exact fun _ name hname => .inl hname
    | cons x xs ih =>
      intro rules name hname
      change name ∈ (patch text rules x).1.names ++
        Node.namesList (patchList text (patch text rules x).2 xs).1 at hname
      have hx := h x mem_cons_self rules name
      have hxs := ih (fun y hy => h y (mem_cons_of_mem x hy)) (patch text rules x).2 name
      simp only [Node.namesList, mem_append] at hname ⊢
      tauto
  induction n using Node.induct with
  | nil | bool | integer | float | string | identifier => exact fun _ _ h => .inl h
  | unary op x ih => exact ih
  | binary op l r ihl ihr =>
    intro rules name hname
    change name ∈ (patch text rules l).1.names ++ (patch text (patch text rules l).2 r).1.names
      at hname
    have hl := ihl rules name
    have hr := ihr (patch text rules l).2 name
    simp only [Node.names, mem_append] at hname ⊢
    tauto
  | conditional t c a b ihc iha ihb =>
    intro rules name hname
    have hc := ihc rules name
    have ha := iha (patch text rules c).2 name
    have hb := ihb (patch text (patch text rules c).2 a).2 name
    change name ∈ (visit text _ (.conditional t _ _ _)).1.names at hname
    rw [visit_conditional] at hname
    simp only [Node.names, mem_append]
    split_ifs at hname
    · unfold ruleCall at hname
      split at hname
      · simp only [Node.names, Node.namesList, mem_append, mem_singleton,
          not_mem_nil] at hname
        tauto
      · simp only [Node.names, Node.namesList, mem_append, mem_singleton,
          not_mem_nil] at hname
        tauto
    · simp only [Node.names, mem_append] at hname
      tauto
  | call f args ihf ihargs =>
    intro rules name hname
    change name ∈ (patch text rules f).1.names ++
      Node.namesList (patchList text (patch text rules f).2 args).1 at hname
    have hf := ihf rules name
    have hargs := hlist ihargs (patch text rules f).2 name
    simp only [Node.names, mem_append] at hname ⊢
    tauto
  | other k children ih => exact hlist ih

theorem patch_number {n : Node κ} (h : n.number.isSome = true) (rules : List RequestRuleTrace) :
    patch text rules n = (n, rules) := by
  cases n with
  | integer | float => rfl
  | _ => cases h

theorem argumentForms_eq (f : Node κ) (args : List (Node κ)) :
    argumentForms f args = args.map fun x => if f.isFunc then x.form else .atom := by
  cases f with
  | identifier name => cases name <;> simp [argumentForms, Node.isFunc]
  | _ => simp [argumentForms, Node.isFunc]

/-- The compiler sees the arguments of a call as it did. -/
theorem argumentForms_alike {f f' : Node κ} {args args' : List (Node κ)} (hf : Alike f f')
    (h : List.Forall₂ Alike args args') : argumentForms f' args' = argumentForms f args := by
  rw [argumentForms_eq, argumentForms_eq, hf.isFunc]
  induction h with
  | nil => rfl
  | cons hx _ ih => rw [map_cons, map_cons, hx.form, ih]

/-! ### The rules that the patch finds -/

/-- The rules found in a tree come after those found before, are numbered by `ruleCount`, and have
not matched. -/
def Finds (rules : List RequestRuleTrace) (n : ℕ) (found : List RequestRuleTrace) : Prop :=
  ∃ new : List RequestRuleTrace, found = rules ++ new ∧ new.length = n ∧
    ∀ r ∈ new, r.matched = false

theorem Finds.zero (rules : List RequestRuleTrace) : Finds rules 0 rules :=
  ⟨[], (append_nil rules).symm, rfl, fun _ hr => absurd hr not_mem_nil⟩

theorem Finds.trans {rules found found' : List RequestRuleTrace} {m n : ℕ}
    (h : Finds rules m found) (h' : Finds found n found') : Finds rules (m + n) found' := by
  obtain ⟨new, rfl, hlen, hnew⟩ := h
  obtain ⟨new', rfl, hlen', hnew'⟩ := h'
  refine ⟨new ++ new', append_assoc _ _ _, by rw [length_append, hlen, hlen'], ?_⟩
  intro r hr
  rcases mem_append.1 hr with hr | hr
  · exact hnew r hr
  · exact hnew' r hr

theorem Finds.length {rules found : List RequestRuleTrace} {n : ℕ} (h : Finds rules n found) :
    found.length = rules.length + n := by
  obtain ⟨new, rfl, rfl, -⟩ := h
  exact length_append

theorem finds_visit (rules : List RequestRuleTrace) (t : Bool) (c a b : Node κ) :
    Finds rules (if t && isRule c a b then 1 else 0) (visit text rules (.conditional t c a b)).2 := by
  rw [visit_conditional]
  split_ifs
  · exact ⟨[_], rfl, rfl, fun _ hr => by rw [mem_singleton.1 hr]⟩
  · exact Finds.zero rules

theorem finds_list {xs : List (Node κ)}
    (h : ∀ x ∈ xs, ∀ rules, Finds rules x.ruleCount (patch text rules x).2)
    (rules : List RequestRuleTrace) :
    Finds rules (Node.ruleCountList xs) (patchList text rules xs).2 := by
  induction xs generalizing rules with
  | nil => exact Finds.zero rules
  | cons x xs ih =>
    exact (h x mem_cons_self rules).trans
      (ih (fun y hy => h y (mem_cons_of_mem x hy)) _)

theorem finds_patch (n : Node κ) : ∀ rules, Finds rules n.ruleCount (patch text rules n).2 := by
  induction n using Node.induct with
  | nil | bool | integer | float | string | identifier => exact Finds.zero
  | unary op x ih => exact ih
  | binary op l r ihl ihr => exact fun rules => (ihl rules).trans (ihr _)
  | conditional t c a b ihc iha ihb =>
    intro rules
    have hvisit := finds_visit text (patch text (patch text (patch text rules c).2 a).2 b).2 t
      (patch text rules c).1 (patch text (patch text rules c).2 a).1
      (patch text (patch text (patch text rules c).2 a).2 b).1
    rw [Alike.isRule (alike_patch text c rules) (alike_patch text a _) (alike_patch text b _)]
      at hvisit
    exact (((ihc rules).trans (iha _)).trans (ihb _)).trans hvisit
  | call f args ihf ihargs => exact fun rules => (ihf rules).trans (finds_list text ihargs _)
  | other k children ih => exact finds_list text ih

end

/-! ### The meaning of a patched tree -/

variable {ω : Type} {L : Lang κ ω}

/-- The call that takes the place of a multiplier, from the value of its condition on. -/
def ruleMeaning {σ : Type} (host : Host ω σ) (k : ℕ) (form : Form) (a b : Node κ) (v : Value ω) :
    Action σ RunError (Value ω) :=
  match a, b with
  | .integer n, .integer _ =>
    callValue (L := L) host [.integer, form, .integer] (.func .traceInt) [.int k, v, .int n]
  | a, _ =>
    callValue (L := L) host [.integer, form, .atom] (.func .trace)
      [.int k, v, .float (a.number.getD 0)]

theorem eval_ruleCall {σ : Type} (params : Token → ℚ) (host : Host ω σ) (k : ℕ) (c a b : Node κ)
    (sc : L.Scope) :
    eval params host (ruleCall k c a b) sc =
      eval params host c sc >>= ruleMeaning (L := L) host k c.form a b := by
  unfold ruleCall ruleMeaning
  split
  · simp [eval, evalList, callMeaning, argumentForms, nameMeaning, Action.sequence, Node.form]
  · simp [eval, evalList, callMeaning, argumentForms, nameMeaning, Action.sequence, Node.form]

/-- The meaning of a patched tree, whose rules come after `rules`. -/
abbrev patched (ctx : Context L) (rules : List RequestRuleTrace)
    (n : Node κ) : Meaning L World :=
  eval (fun t => t.read ctx.params) (call ctx) (patch L.text rules n).1

end NexusTok.Expr
