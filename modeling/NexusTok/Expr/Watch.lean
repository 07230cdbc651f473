import NexusTok.Expr.Meaning
import NexusTok.Expr.Patch

/-!
# Request multipliers under the patch

`watch` is the evaluation of a tree as it was written, with a record of the request multipliers whose
condition held (`Watch.held`), by the number that the patch gives them.

* `watch_lockstep` : watching a tree does not change its evaluation.
* `patch_lockstep` : the patched tree runs in lockstep with the watched one, and marks the rules that
  held, until the two come apart.
* `Watch.apart` : they come apart where a multiplier has an integer and a float and its condition
  selects the integer, of which the patched tree makes a float; where a condition is `nil` and the
  language passes that to a parameter for truth values; and where the tree calls a function that
  leaves a trace, which it can reach through `$env`.
-/

namespace NexusTok.Expr

open Machine Machine.Action List

variable {κ ω : Type} {L : Lang κ ω} (ctx : Context L)

/-- The state of a watched run. -/
structure Watch where
  world : World
  held : List ℕ
  apart : Bool

/-- The functions of the environment in a watched run. -/
def watchHost : Host ω Watch := fun f vs s =>
  ((call ctx f vs s.world).1,
    { world := (call ctx f vs s.world).2
      held := s.held
      apart := s.apart || f == .trace || f == .traceInt })

/-- The condition of a multiplier has a value of which the patched tree makes something else. -/
def comesApart (L : Lang κ ω) (exp1 exp2 : Node κ) (v : Value ω) : Bool :=
  match v with
  | .nil => (L.zero .bool).isOk
  | .bool held => exp1.isInteger != exp2.isInteger && (if held then exp1 else exp2).isInteger
  | _ => false

/-- The condition of a multiplier has been evaluated. -/
def noteRule (L : Lang κ ω) (ruleIndex : ℕ) (exp1 exp2 : Node κ) (v : Value ω) (s : Watch) :
    Watch where
  world := s.world
  held := match v with
    | .bool true => s.held ++ [ruleIndex]
    | _ => s.held
  apart := s.apart || comesApart L exp1 exp2 v

/-- A conditional that notes the value of its condition. -/
def watchedConditional (note : Value ω → Watch → Watch) (c a b : Meaning L Watch) :
    Meaning L Watch := fun sc => do
  let v ← c sc
  modify (note v)
  if ← lift (truth v) then a sc else b sc

mutual

/-- The evaluation of a tree that follows `ruleIndex` request multipliers. -/
def watch (ruleIndex : ℕ) : Node κ → Meaning L Watch
  | .nil => fun _ => pure .nil
  | .bool b => fun _ => pure (.bool b)
  | .integer n => fun _ => pure (.int n)
  | .float x => fun _ => pure (.float x)
  | .string s => fun _ => pure (.str s)
  | .identifier name => nameMeaning (fun t => t.read ctx.params) name
  | .unary op x => unaryMeaning op (watch ruleIndex x)
  | .binary op l r => binaryMeaning op (watch ruleIndex l) (watch (ruleIndex + l.ruleCount) r)
  | .conditional t c a b =>
    watchedConditional
      (fun v s =>
        if t && isRule c a b then
          noteRule L (ruleIndex + c.ruleCount + a.ruleCount + b.ruleCount) a b v s
        else s)
      (watch ruleIndex c) (watch (ruleIndex + c.ruleCount) a)
      (watch (ruleIndex + c.ruleCount + a.ruleCount) b)
  | .call f args =>
    callMeaning (watchHost ctx) (argumentForms f args) (watch ruleIndex f)
      (watchList (ruleIndex + f.ruleCount) args)
  | .other k children => L.other k (watchList ruleIndex children)

def watchList (ruleIndex : ℕ) : List (Node κ) → List (Meaning L Watch)
  | [] => []
  | x :: xs => watch ruleIndex x :: watchList (ruleIndex + x.ruleCount) xs

end

/-- A watched run of the tree as it was written, which has the rules that the patch finds in it. -/
def watchProgram (tree : Node κ) : Except RunError ℚ × Watch :=
  (do
    let v ← watch ctx 0 tree L.top
    lift (asFloat64 v) : Action Watch RunError ℚ)
  ⟨World.start (patch L.text [] tree).2, [], false⟩

/-! ### Watching changes nothing -/

/-- The state of the host, as it is watched. -/
def Watched (s : Watch) (w : World) : Prop := s.world = w

theorem watchHost_lockstep (f : Func) (vs : List (Value ω)) :
    Lockstep (fun _ => False) Watched (watchHost ctx f vs) (call ctx f vs) := by
  refine ⟨fun _ h => h, fun s w h => .inr ?_⟩
  cases h
  exact ⟨rfl, rfl⟩

theorem watchList_lockstep {σ : Type} {E : Watch → Prop} {R : Watch → σ → Prop}
    {mean : Node κ → Meaning L σ} {xs : List (Node κ)}
    (h : ∀ x ∈ xs, ∀ i sc, Lockstep E R (watch ctx i x sc) (mean x sc)) (i : ℕ) :
    List.Forall₂ (fun d e => ∀ sc, Lockstep E R (d sc) (e sc)) (watchList ctx i xs)
      (xs.map mean) := by
  induction xs generalizing i with
  | nil => exact .nil
  | cons x xs ih =>
    refine .cons (h x mem_cons_self i) (ih (fun y hy => ?_) _)
    exact h y (mem_cons_of_mem x hy)

/-- **Watching a tree does not change its evaluation.** -/
theorem watch_lockstep (n : Node κ) : ∀ i sc, Lockstep (fun _ => False) Watched (watch ctx i n sc)
    (eval (fun t => t.read ctx.params) (call ctx) n sc) := by
  induction n using Node.induct with
  | nil | bool | integer | float | string => exact fun _ _ => Lockstep.pure _
  | identifier name => exact fun _ => nameMeaning_lockstep _ name
  | unary op x ih => exact fun i => unaryMeaning_lockstep op (ih i)
  | binary op l r ihl ihr => exact fun i => binaryMeaning_lockstep op (ihl i) (ihr _)
  | conditional t c a b ihc iha ihb =>
    intro i sc
    refine Lockstep.bind (ihc i sc) fun v => ?_
    refine Lockstep.modify_left (fun _ h => h) (fun s w h => .inr ?_)
      (branch_lockstep (iha _) (ihb _) sc v)
    cases h
    dsimp only
    split_ifs <;> rfl
  | call f args ihf ihargs =>
    intro i
    refine callMeaning_lockstep (watchHost_lockstep ctx) _ (ihf i) ?_
    rw [evalList_eq_map]
    exact watchList_lockstep ctx ihargs _
  | other k children ih =>
    intro i
    refine L.other_lockstep _ _ k _ _ ?_
    rw [evalList_eq_map]
    exact watchList_lockstep ctx ih i

/-! ### The patched tree -/

/-- The rules of a list that have the numbers in `held` are marked. -/
def markAll (held : List ℕ) (rules : List RequestRuleTrace) : List RequestRuleTrace :=
  rules.mapIdx fun i r => { r with matched := r.matched || held.contains i }

theorem length_markAll (held : List ℕ) (rules : List RequestRuleTrace) :
    (markAll held rules).length = rules.length := length_mapIdx

theorem markAll_append (held : List ℕ) (k : ℕ) (rules : List RequestRuleTrace) :
    markAll (held ++ [k]) rules =
      (markAll held rules).modify k fun r => { r with matched := true } := by
  refine ext_getElem (by simp [markAll]) fun i h₁ h₂ => ?_
  simp only [markAll, getElem_mapIdx, getElem_modify]
  by_cases hik : k = i
  · subst hik
    simp
  · have hki : (i == k) = false := by simp [Ne.symm hik]
    simp [hik, contains_eq_mem, Ne.symm hik]

/-- The state of the patched run: of the rules `all`, those whose condition held are marked. -/
def Marked (all : List RequestRuleTrace) (s : Watch) (w : World) : Prop :=
  s.world.trace.requestRules = all ∧
    w = { s.world with trace := { s.world.trace with requestRules := markAll s.held all } }

/-- The two runs have come apart. -/
def Apart (s : Watch) : Prop := s.apart = true

theorem watchHost_marked (all : List RequestRuleTrace) (f : Func) (vs : List (Value ω)) :
    Lockstep Apart (Marked all) (watchHost ctx f vs) (call ctx f vs) := by
  refine ⟨fun s h => ?_, fun s w h => ?_⟩
  · change (s.apart || f == .trace || f == .traceInt) = true
    rw [show s.apart = true from h, Bool.true_or, Bool.true_or]
  · by_cases hf : f ≠ .trace ∧ f ≠ .traceInt
    · obtain ⟨hall, rfl⟩ := h
      right
      unfold watchHost
      rcases call_cases ctx f vs with ⟨_, _, -, -, h⟩ | ⟨_, -, -, h⟩ | ⟨_, _, _, hf', -⟩ | ⟨_, -, h⟩
      · rw [h, h]
        exact ⟨rfl, hall, rfl⟩
      · rw [h, h]
        exact ⟨rfl, hall, rfl⟩
      · exact absurd hf' (not_or.2 hf)
      · rw [h, h]
        exact ⟨rfl, hall, rfl⟩
    · left
      have hf' : f = .trace ∨ f = .traceInt := by
        by_contra hne
        exact hf (not_or.1 hne)
      change (s.apart || f == .trace || f == .traceInt) = true
      rcases hf' with rfl | rfl <;> simp

variable {all : List RequestRuleTrace}

theorem markRule_marked {k : ℕ} (hk : k < all.length) {s : Watch}
    {w : World} (h : Marked all s w) (t : Bool) (a b : Node κ) :
    Marked all (noteRule L k a b (.bool t) s) (markRule t k w) := by
  obtain ⟨hall, rfl⟩ := h
  refine ⟨hall, ?_⟩
  unfold markRule
  cases t with
  | false => rfl
  | true =>
    have hk' : (k : ℤ) < (markAll s.held all).length := by
      rw [length_markAll]
      exact_mod_cast hk
    rw [if_pos ⟨rfl, Int.natCast_nonneg k, hk'⟩]
    have hmark := markAll_append s.held k all
    simp only [noteRule, Int.toNat_natCast, hmark]

theorem noteRule_apart {s : Watch} (h : Apart s) (k : ℕ) (a b : Node κ) (v : Value ω) :
    Apart (noteRule L k a b v s) := by
  have hs : s.apart = true := h
  change (s.apart || comesApart L a b v) = true
  rw [hs, Bool.true_or]

/-- A condition that the parameter for it does not take. -/
theorem ruleMeaning_error {form : Form} {v : Value ω} (h : argument L .bool form v = .error .failed)
    (k : ℕ) (a b : Node κ) (w : World) :
    ruleMeaning (L := L) (call ctx) k form a b v w = (.error .failed, w) := by
  unfold ruleMeaning
  split
  · simp only [callValue, Func.params, arguments, h]
    rfl
  · simp only [callValue, Func.params, arguments, h]
    rfl

/-- What a multiplier comes to if its condition has a truth value. -/
theorem rule_lockstep_bool {k : ℕ} (hk : k < all.length) (form : Form) {a b : Node κ}
    (ha : a.number.isSome = true) (hb : b.number = some 1) (t : Bool) (i j : ℕ) (sc : L.Scope)
    {s : Watch} {w : World} (h : Marked all s w) :
    let x : Action Watch RunError (Value ω) := if t then watch ctx i a sc else watch ctx j b sc
    Apart (x (noteRule L k a b (.bool t) s)).2 ∨
      (x (noteRule L k a b (.bool t) s)).1 =
          (ruleMeaning (L := L) (call ctx) k form a b (.bool t) w).1 ∧
        Marked all (x (noteRule L k a b (.bool t) s)).2
          (ruleMeaning (L := L) (call ctx) k form a b (.bool t) w).2 := by
  have hmark : Marked all (noteRule L k a b (.bool t) s) (markRule t k w) :=
    markRule_marked hk h t a b
  -- where the literals differ in kind, the integer is where the runs come apart
  have hapart : comesApart L a b (.bool t) = true → Apart (noteRule L k a b (.bool t) s) := by
    intro hc
    change (s.apart || comesApart L a b (.bool t)) = true
    rw [hc, Bool.or_true]
  cases a with
  | integer m =>
    cases b with
    | integer m' =>
      obtain rfl : m' = 1 := by
        simpa only [Node.number, Option.some.injEq, Int.cast_eq_one] using hb
      cases t <;> exact .inr ⟨rfl, hmark⟩
    | float x =>
      obtain rfl : x = 1 := Option.some.inj hb
      cases t with
      | true => exact .inl (hapart rfl)
      | false => exact .inr ⟨rfl, hmark⟩
    | _ => cases hb
  | float x =>
    cases b with
    | integer m' =>
      cases t with
      | true => exact .inr ⟨rfl, hmark⟩
      | false => exact .inl (hapart rfl)
    | float y =>
      obtain rfl : y = 1 := Option.some.inj hb
      cases t <;> exact .inr ⟨rfl, hmark⟩
    | _ => cases hb
  | _ => cases ha

/-- A multiplier from the value of its condition on, in the tree as it was written and in the
patched one. -/
theorem rule_lockstep {k : ℕ} (hk : k < all.length) (form : Form) {a b : Node κ}
    (ha : a.number.isSome = true) (hb : b.number = some 1) (v : Value ω) (i j : ℕ) (sc : L.Scope) :
    Lockstep Apart (Marked all)
      (do
        modify (noteRule L k a b v)
        if ← lift (truth v) then watch ctx i a sc else watch ctx j b sc)
      (ruleMeaning (L := L) (call ctx) k form a b v) := by
  refine ⟨fun s hs => ?_, fun s w h => ?_⟩
  · have hs' : Apart (noteRule L k a b v s) := noteRule_apart hs k a b v
    cases v with
    | bool t =>
      -- a literal has no effect
      have hlit : ∀ (x : Node κ) i, x.number.isSome = true →
          (watch ctx i x sc (noteRule L k a b (.bool t) s)).2 = noteRule L k a b (.bool t) s := by
        intro x i hx
        cases x with
        | integer | float => rfl
        | _ => cases hx
      have hb' : b.number.isSome = true := by rw [hb]; rfl
      cases t with
      | true => exact (hlit a i ha).symm ▸ hs'
      | false => exact (hlit b j hb').symm ▸ hs'
    | _ => exact hs'
  · cases v with
    | bool t => exact rule_lockstep_bool ctx hk form ha hb t i j sc h
    | nil =>
      cases hz : L.zero .bool with
      | ok v =>
        left
        change (s.apart || (L.zero .bool).isOk) = true
        rw [hz]
        exact Bool.or_true _
      | error e =>
        right
        rw [ruleMeaning_error ctx (show argument L .bool form .nil = .error .failed from hz)]
        exact ⟨rfl, h⟩
    | _ =>
      right
      rw [ruleMeaning_error ctx rfl]
      exact ⟨rfl, h⟩

theorem patchList_lockstep {xs : List (Node κ)}
    (h : ∀ x ∈ xs, ∀ rules : List RequestRuleTrace, rules.length + x.ruleCount ≤ all.length →
      ∀ sc, Lockstep Apart (Marked all) (watch ctx rules.length x sc) (patched ctx rules x sc))
    (rules : List RequestRuleTrace) (hN : rules.length + Node.ruleCountList xs ≤ all.length) :
    List.Forall₂ (fun d e => ∀ sc, Lockstep Apart (Marked all) (d sc) (e sc))
      (watchList ctx rules.length xs)
      (evalList (fun t => t.read ctx.params) (call ctx) (patchList L.text rules xs).1) := by
  induction xs generalizing rules with
  | nil => exact .nil
  | cons x xs ih =>
    have hx := finds_patch L.text x rules
    simp only [Node.ruleCountList] at hN
    refine .cons (h x mem_cons_self rules (by omega)) ?_
    rw [← hx.length]
    exact ih (fun y hy => h y (mem_cons_of_mem x hy)) _ (by rw [hx.length]; omega)

/-- **The patched tree runs in lockstep with the watched one, and marks the rules that held.** -/
theorem patch_lockstep (n : Node κ) : ∀ rules : List RequestRuleTrace,
    rules.length + n.ruleCount ≤ all.length →
      ∀ sc, Lockstep Apart (Marked all) (watch ctx rules.length n sc) (patched ctx rules n sc) := by
  induction n using Node.induct with
  | nil | bool | integer | float | string => exact fun _ _ _ => Lockstep.pure _
  | identifier name => exact fun _ _ => nameMeaning_lockstep _ name
  | unary op x ih => exact fun rules hN => unaryMeaning_lockstep op (ih rules hN)
  | binary op l r ihl ihr =>
    intro rules hN
    have hl := finds_patch L.text l rules
    simp only [Node.ruleCount] at hN
    have hr := ihr (patch L.text rules l).2 (by rw [hl.length]; omega)
    rw [hl.length] at hr
    exact binaryMeaning_lockstep op (ihl rules (by omega)) hr
  | conditional t c a b ihc iha ihb =>
    intro rules hN sc
    have hc := (finds_patch L.text c rules).length
    have ha := (finds_patch L.text a (patch L.text rules c).2).length
    have hb := (finds_patch L.text b (patch L.text (patch L.text rules c).2 a).2).length
    simp only [Node.ruleCount] at hN
    have iha' := iha (patch L.text rules c).2 (by rw [hc]; omega)
    have ihb' := ihb (patch L.text (patch L.text rules c).2 a).2 (by rw [ha, hc]; omega)
    rw [ha, hc] at ihb'
    rw [hc] at iha'
    have hrule := Alike.isRule (alike_patch L.text c rules)
      (alike_patch L.text a (patch L.text rules c).2)
      (alike_patch L.text b (patch L.text (patch L.text rules c).2 a).2)
    change Lockstep _ _ (watchedConditional _ _ _ _ sc)
      (eval _ _ (visit L.text _ (.conditional t _ _ _)).1 sc)
    rw [visit_conditional, hrule, hb, ha, hc]
    by_cases ht : (t && isRule c a b) = true
    · -- a multiplier: its literals are left in place, and it becomes a call
      rw [if_pos ht, eval_ruleCall]
      have hlit : a.number.isSome = true ∧ b.number = some 1 := by
        simp only [isRule, Bool.and_eq_true, beq_iff_eq] at ht
        exact ⟨ht.2.1.2, ht.2.2⟩
      have hb' : b.number.isSome = true := by rw [hlit.2]; rfl
      rw [patch_number L.text hlit.1, patch_number L.text hb']
      refine Lockstep.bind (ihc rules (by omega) sc) fun v => ?_
      simp only [ht, if_true]
      refine rule_lockstep ctx ?_ _ hlit.1 hlit.2 v _ _ sc
      rw [if_pos ht] at hN
      omega
    · rw [if_neg ht]
      refine Lockstep.bind (ihc rules (by omega) sc) fun v => ?_
      simp only [ht, Bool.false_eq_true, if_false]
      exact Lockstep.modify_left (fun _ h => h) (fun _ _ h => .inr h)
        (branch_lockstep iha' ihb' sc v)
  | call f args ihf ihargs =>
    intro rules hN
    have hf := (finds_patch L.text f rules).length
    simp only [Node.ruleCount] at hN
    have hargs := patchList_lockstep ctx ihargs (patch L.text rules f).2 (by rw [hf]; omega)
    rw [hf] at hargs
    have hforms : argumentForms (patch L.text rules f).1
        (patchList L.text (patch L.text rules f).2 args).1 = argumentForms f args :=
      argumentForms_alike (alike_patch L.text f rules)
        (patchList_of L.text (fun x _ => alike_patch L.text x) _)
    change ∀ sc, Lockstep _ _ (callMeaning _ _ _ _ sc) (callMeaning _ _ _ _ sc)
    rw [hforms]
    exact callMeaning_lockstep (watchHost_marked ctx all) _ (ihf rules (by omega)) hargs
  | other k children ih =>
    intro rules hN
    simp only [Node.ruleCount] at hN
    exact L.other_lockstep _ _ k _ _ (patchList_lockstep ctx ih rules hN)

/-! ### Whole runs -/

theorem markAll_nil (rules : List RequestRuleTrace) : markAll [] rules = rules := by
  unfold markAll
  refine ext_getElem (by simp) fun i h₁ h₂ => ?_
  simp

/-- The state that a watched run starts from. -/
def Watch.start (rules : List RequestRuleTrace) : Watch := ⟨World.start rules, [], false⟩

theorem marked_start (rules : List RequestRuleTrace) :
    Marked rules (Watch.start rules) (World.start rules) := by
  refine ⟨rfl, ?_⟩
  change World.start rules = ⟨⟨.token, none, "", markAll [] rules, 0⟩, []⟩
  rw [markAll_nil]
  rfl

/-- A tree, watched and patched, from the start of a run up to where the two come apart. -/
theorem watch_spec (n : Node κ) (rules : List RequestRuleTrace) (hN : n.ruleCount ≤ rules.length) :
    (watch ctx 0 n L.top (Watch.start rules)).1 =
        (eval (fun t => t.read ctx.params) (call ctx) n L.top (World.start rules)).1 ∧
      ((watch ctx 0 n L.top (Watch.start rules)).2.apart = false →
        (watch ctx 0 n L.top (Watch.start rules)).1 =
            (patched ctx [] n L.top (World.start rules)).1 ∧
          Marked rules (watch ctx 0 n L.top (Watch.start rules)).2
            (patched ctx [] n L.top (World.start rules)).2) := by
  constructor
  · rcases (watch_lockstep ctx n 0 L.top).2 (Watch.start rules) (World.start rules) rfl with h | h
    · exact h.elim
    · exact h.1
  · intro happart
    have hN' : ([] : List RequestRuleTrace).length + n.ruleCount ≤ rules.length := by
      rw [length_nil, Nat.zero_add]
      exact hN
    rcases (patch_lockstep ctx n [] hN' L.top).2 _ _ (marked_start rules) with h | h
    · have h' : (watch ctx 0 n L.top (Watch.start rules)).2.apart = true := h
      rw [h'] at happart
      cases happart
    · exact h

/-- The result of a tree as the tree was written, and the mark of every rule. -/
def TracesRules (tree : Node κ) : Prop :=
  (runProgram ctx (patch L.text [] tree).1 (patch L.text [] tree).2).1 =
      (runProgram ctx tree (patch L.text [] tree).2).1 ∧
    ∀ i < tree.ruleCount,
      (runProgram ctx (patch L.text [] tree).1
          (patch L.text [] tree).2).2.trace.requestRules[i]?.map (·.matched) =
        some ((watchProgram ctx tree).2.held.contains i)

theorem bind_asFloat64 {σ : Type} (x : Action σ RunError (Value ω)) (s : σ) :
    (x >>= fun v => lift (asFloat64 v)) s = ((x s).1.bind asFloat64, (x s).2) := by
  rw [bind_apply]
  rcases x s with ⟨r, s'⟩
  cases r <;> rfl

theorem watchProgram_apply (tree : Node κ) :
    watchProgram ctx tree =
      ((watch ctx 0 tree L.top (Watch.start (patch L.text [] tree).2)).1.bind asFloat64,
        (watch ctx 0 tree L.top (Watch.start (patch L.text [] tree).2)).2) :=
  bind_asFloat64 _ _

theorem runProgram_apply (prog : Node κ) (rules : List RequestRuleTrace) :
    runProgram ctx prog rules =
      ((eval (fun t => t.read ctx.params) (call ctx) prog L.top (World.start rules)).1.bind asFloat64,
        (eval (fun t => t.read ctx.params) (call ctx) prog L.top (World.start rules)).2) :=
  bind_asFloat64 _ _

theorem rules_length (tree : Node κ) : (patch L.text [] tree).2.length = tree.ruleCount := by
  rw [(finds_patch L.text tree []).length, length_nil, Nat.zero_add]

/-- No rule has matched when a run starts. -/
theorem rules_unmatched (tree : Node κ) : ∀ r ∈ (patch L.text [] tree).2, r.matched = false := by
  obtain ⟨new, hnew, -, hunmatched⟩ := finds_patch L.text tree []
  rw [hnew]
  exact hunmatched

/-- What a run that has not come apart leaves. -/
theorem tracesRules_of_not_apart {tree : Node κ} (h : (watchProgram ctx tree).2.apart = false) :
    TracesRules ctx tree := by
  have hN : tree.ruleCount ≤ (patch L.text [] tree).2.length := (rules_length tree).ge
  obtain ⟨hsame, hpatched⟩ := watch_spec ctx tree (patch L.text [] tree).2 hN
  rw [watchProgram_apply] at h
  obtain ⟨hresult, hmarked⟩ := hpatched h
  refine ⟨?_, fun i hi => ?_⟩
  · rw [runProgram_apply, runProgram_apply]
    exact congrArg (Except.bind · asFloat64) (hresult.symm.trans hsame)
  · rw [runProgram_apply, watchProgram_apply]
    rw [hmarked.2]
    have hi' : i < (patch L.text [] tree).2.length := (rules_length tree).symm ▸ hi
    have hunmatched := rules_unmatched tree _ (getElem_mem hi')
    simp [markAll, getElem?_mapIdx, getElem?_eq_getElem hi', hunmatched]

/-- An evaluation with a known outcome. -/
theorem exists_eq_of_fst {σ ε α : Type} {x : Action σ ε α} {s : σ} {r : Except ε α}
    (h : (x s).1 = r) : ∃ s', x s = (r, s') :=
  ⟨(x s).2, by rw [← h]⟩

/-- A multiplier with an integer and a float, in the patched tree. -/
theorem ruleMeaning_mixed {a b : Node κ} (hkinds : a.isInteger ≠ b.isInteger) (k : ℕ) (form : Form)
    (t : Bool) (w : World) :
    ruleMeaning (L := L) (call ctx) k form a b (.bool t) w =
      (.ok (if t then .float (a.number.getD 0) else .float 1), markRule t k w) := by
  cases a with
  | integer m =>
    cases b with
    | integer m' => exact absurd rfl hkinds
    | _ => rfl
  | _ => rfl

/-- A multiplier modulo an integer. -/
def moduloRule (c a b : Node κ) : Node κ := .binary .mod (.conditional true c a b) (.integer 1)

/-- **Where a run comes apart over the literals of a multiplier**, the multiplier modulo an integer
has a result, and none in the patched tree. -/
theorem moduloRule_apart (hmod : ∀ x n, L.binary .mod (.float x) (.int n) = .error .failed)
    {c a b : Node κ} {t : Bool} (hrule : isRule c a b = true) (hkinds : a.isInteger ≠ b.isInteger)
    (hint : (if t then a else b).isInteger = true) {rules : List RequestRuleTrace}
    (hrules : rules = (patch L.text [] (moduloRule c a b)).2)
    (hcond : (watch ctx 0 c L.top (Watch.start rules)).1 = .ok (.bool t))
    (happart : (watch ctx 0 c L.top (Watch.start rules)).2.apart = false) :
    (runProgram ctx (moduloRule c a b) rules).1 = .ok 0 ∧
      (runProgram ctx (patch L.text [] (moduloRule c a b)).1 rules).1 = .error .failed := by
  have hN : c.ruleCount ≤ rules.length := by
    rw [hrules, rules_length]
    simp only [moduloRule, Node.ruleCount]
    omega
  obtain ⟨hsame, hpatched⟩ := watch_spec ctx c rules hN
  obtain ⟨hpatched, -⟩ := hpatched happart
  rw [hcond] at hsame hpatched
  have hlit : a.number.isSome = true ∧ b.number = some 1 := by
    simp only [isRule, Bool.and_eq_true, beq_iff_eq] at hrule
    exact ⟨hrule.1.2, hrule.2⟩
  have hb : b.number.isSome = true := by rw [hlit.2]; rfl
  rw [runProgram_apply, runProgram_apply]
  constructor
  · -- the integer stays an integer
    obtain ⟨m, hm⟩ : ∃ m, (if t then a else b) = .integer m := by
      cases hx : (if t then a else b) with
      | integer m => exact ⟨m, rfl⟩
      | _ => rw [hx] at hint; cases hint
    obtain ⟨w, hc⟩ := exists_eq_of_fst hsame.symm
    have hconditional : eval (fun t => t.read ctx.params) (call ctx) (.conditional true c a b) L.top
        (World.start rules) = (.ok (.int m), w) := by
      refine (bind_of_ok hc).trans ?_
      cases t with
      | true =>
        rw [show a = .integer m from hm]
        rfl
      | false =>
        rw [show b = .integer m from hm]
        rfl
    have hresult : eval (fun t => t.read ctx.params) (call ctx) (moduloRule c a b) L.top
        (World.start rules) = (.ok (.int 0), w) := by
      refine (bind_of_ok hconditional).trans ?_
      change (Except.ok (Value.int (m.tmod 1)), w) = _
      rw [Int.tmod_one]
    rw [hresult]
    exact congrArg Except.ok Int.cast_zero
  · obtain ⟨w, hc⟩ := exists_eq_of_fst hpatched.symm
    have hpatch : (patch L.text [] (moduloRule c a b)).1 =
        .binary .mod (ruleCall c.ruleCount (patch L.text [] c).1 a b) (.integer 1) := by
      have hrule' : isRule (patch L.text [] c).1 a b = true :=
        (Alike.isRule (alike_patch L.text c []) (Alike.refl a) (Alike.refl b)).trans hrule
      have hcount := (finds_patch L.text c []).length
      rw [length_nil, Nat.zero_add] at hcount
      change Node.binary .mod (patch L.text [] (.conditional true c a b)).1 (.integer 1) = _
      congr 1
      change (visit L.text (patch L.text (patch L.text (patch L.text [] c).2 a).2 b).2
        (.conditional true _ _ _)).1 = _
      rw [patch_number L.text hlit.1, patch_number L.text hb, visit_conditional, hrule', hcount]
      rfl
    have hcall : eval (fun t => t.read ctx.params) (call ctx)
        (ruleCall c.ruleCount (patch L.text [] c).1 a b) L.top (World.start rules) =
          (.ok (if t then .float (a.number.getD 0) else .float 1), markRule t c.ruleCount w) := by
      rw [eval_ruleCall, bind_of_ok hc]
      exact ruleMeaning_mixed ctx hkinds _ _ t w
    have hresult : eval (fun t => t.read ctx.params) (call ctx)
        (.binary .mod (ruleCall c.ruleCount (patch L.text [] c).1 a b) (.integer 1)) L.top
        (World.start rules) = (.error .failed, markRule t c.ruleCount w) := by
      refine (bind_of_ok hcall).trans ?_
      cases t <;> exact congrArg (·, _) (hmod _ 1)
    rw [hpatch, hresult]
    rfl

/-- **The patched tree has the result of the tree, and marks the rules that held**, unless the two
come apart.  Where they come apart over the literals of a multiplier, there is a tree around it whose
result is lost. -/
theorem rules_traced (ctx : Context L)
    (hmod : ∀ x n, L.binary .mod (.float x) (.int n) = .error .failed) :
    (∀ tree, (watchProgram ctx tree).1 = (runProgram ctx tree (patch L.text [] tree).2).1 ∧
      ((watchProgram ctx tree).2.apart = false → TracesRules ctx tree)) ∧
    ∀ c a b t, isRule c a b = true → a.isInteger ≠ b.isInteger →
      (if t then a else b).isInteger = true →
      (watch ctx 0 c L.top (Watch.start (patch L.text [] (moduloRule c a b)).2)).1 = .ok (.bool t) →
      (watch ctx 0 c L.top
        (Watch.start (patch L.text [] (moduloRule c a b)).2)).2.apart = false →
      ¬ TracesRules ctx (moduloRule c a b) := by
  refine ⟨fun tree => ⟨?_, tracesRules_of_not_apart ctx⟩,
    fun c a b t hrule hkinds hint hcond happart htraces => ?_⟩
  · have hN : tree.ruleCount ≤ (patch L.text [] tree).2.length := (rules_length tree).ge
    rw [watchProgram_apply, runProgram_apply]
    exact congrArg (Except.bind · asFloat64) (watch_spec ctx tree _ hN).1
  · obtain ⟨horiginal, hpatched⟩ := moduloRule_apart ctx hmod hrule hkinds hint rfl hcond happart
    have hsame := htraces.1
    rw [horiginal, hpatched] at hsame
    cases hsame

/-! ### A price with a whole number beside a fraction -/

/-- `header("mode") == "fast"`. -/
def fastMode : Node Func :=
  .binary .eq (.call (.identifier (.func .header)) [.string "mode"]) (.string "fast")

theorem rules_traced_empty :
    (∀ tree, (watchProgram noRequest tree).1 =
        (runProgram noRequest tree (patch memberLang.text [] tree).2).1 ∧
      ((watchProgram noRequest tree).2.apart = false → TracesRules noRequest tree)) ∧
    ∀ c a b t, isRule c a b = true → a.isInteger ≠ b.isInteger →
      (if t then a else b).isInteger = true →
      (watch noRequest 0 c memberLang.top
        (Watch.start (patch memberLang.text [] (moduloRule c a b)).2)).1 = .ok (.bool t) →
      (watch noRequest 0 c memberLang.top
        (Watch.start (patch memberLang.text [] (moduloRule c a b)).2)).2.apart = false →
      ¬ TracesRules noRequest (moduloRule c a b) :=
  rules_traced noRequest fun _ _ => rfl

/-- `(header("mode") == "fast" ? 2.5 : 1) % 1` is zero for a request without the header, and the
patched tree fails. -/
theorem mixed_rule_lost :
    (moduloRule fastMode (.float (5 / 2)) (.integer 1)).restricted = false ∧
      (runProgram noRequest (moduloRule fastMode (.float (5 / 2)) (.integer 1))
        (patch memberLang.text [] (moduloRule fastMode (.float (5 / 2)) (.integer 1))).2).1 =
          .ok 0 ∧
      (runProgram noRequest
        (patch memberLang.text [] (moduloRule fastMode (.float (5 / 2)) (.integer 1))).1
        (patch memberLang.text [] (moduloRule fastMode (.float (5 / 2)) (.integer 1))).2).1 =
          .error .failed := by
  refine ⟨by decide, ?_, ?_⟩
  · decide +kernel
  · decide +kernel

end NexusTok.Expr
