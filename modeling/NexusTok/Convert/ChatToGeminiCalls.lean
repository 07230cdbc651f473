import NexusTok.Convert.ChatToGemini

/-!
# Which call a fragment belongs to

The fragments of the tool calls of one choice, told apart by their history alone: a fragment belongs
to the call that has its id; else to the call of the last fragment at its index, unless that call
has an id and the fragment another; else it starts a new call.

* `Sound` : a call has one id, and an id has one call.
* `Tracks` : the maps of `ChatToGeminiChoice` and the tools say what the history says.
* `Tracks.append` : `appendToolCallDelta` keeps that up.
-/

namespace NexusTok.Convert

open List Option

def ToolCallResponse.trimmedID (t : ToolCallResponse) : String := trimSpace t.id

def ToolCallResponse.trimmedName (t : ToolCallResponse) : String := trimSpace t.function.name

/-- Fragments, each with the number of its call. -/
abbrev Assigned := List (Nat × ToolCallResponse)

namespace Assigned

variable (a : Assigned)

def fragmentsOf (n : Nat) : List ToolCallResponse := (a.filter (·.1 == n)).map (·.2)

/-- The first text that is not empty. -/
def firstSet (l : List String) : String := (l.find? (· != "")).getD ""

def idOf (n : Nat) : String := firstSet ((a.fragmentsOf n).map (·.trimmedID))

def nameOf (n : Nat) : String := firstSet ((a.fragmentsOf n).map (·.trimmedName))

/-- The arguments of a call: those of all its fragments in order. -/
def argumentsOf (n : Nat) : String :=
  String.join ((a.fragmentsOf n).map (·.function.arguments))

def callCount : Nat := a.foldl (fun count p => max count (p.1 + 1)) 0

def callWithID (id : String) : Option Nat := (a.find? (·.2.trimmedID == id)).map (·.1)

/-- The call of the last fragment at an index. -/
def callAtIndex (index : Int) : Option Nat :=
  (a.reverse.find? (·.2.index.getD 0 == index)).map (·.1)

/-- The call that the next fragment belongs to. -/
def owner (t : ToolCallResponse) : Nat :=
  let known := if t.trimmedID = "" then none else a.callWithID t.trimmedID
  let last := (a.callAtIndex (t.index.getD 0)).filter fun n =>
    t.trimmedID == "" || a.idOf n == ""
  (known.or last).getD a.callCount

/-- One fragment more. -/
def add (t : ToolCallResponse) : Assigned := a ++ [(a.owner t, t)]

end Assigned

/-- All fragments of a choice. -/
def assign (ts : List ToolCallResponse) : Assigned := ts.foldl Assigned.add []

theorem assign_snoc (ts : List ToolCallResponse) (t : ToolCallResponse) :
    assign (ts ++ [t]) = (assign ts).add t := by
  simp only [assign, foldl_append, foldl_cons, foldl_nil]

variable {J : Type} (h : ChatToGeminiHost J)

/-- The function call that the fragments of a call make up. -/
def Assigned.callOf (a : Assigned) (n : Nat) : GeminiFunctionCall J where
  id := a.idOf n
  functionName := a.nameOf n
  arguments := some (geminiFunctionArguments h (a.argumentsOf n))

/-- **The function calls of the fragments of a choice**, in the order in which they started. -/
def calls (ts : List ToolCallResponse) : List (GeminiFunctionCall J) :=
  (List.range (assign ts).callCount).map ((assign ts).callOf h)

/-! ### One fragment more -/

namespace Assigned

variable (a : Assigned)

theorem fragmentsOf_snoc (n m : Nat) (t : ToolCallResponse) :
    fragmentsOf (a ++ [(n, t)]) m =
      if n = m then a.fragmentsOf m ++ [t] else a.fragmentsOf m := by
  by_cases hnm : n = m
  · subst hnm
    simp [fragmentsOf, filter_append]
  · simp [fragmentsOf, filter_append, hnm]

theorem firstSet_snoc (l : List String) (s : String) :
    firstSet (l ++ [s]) = orElse (firstSet l) s := by
  unfold firstSet orElse
  rw [find?_append]
  cases hl : l.find? (· != "") with
  | some s' =>
    have hs' : s' ≠ "" := by simpa using find?_some hl
    simp [hs']
  | none =>
    by_cases hs : s = "" <;> simp [hs]

theorem idOf_snoc (n m : Nat) (t : ToolCallResponse) :
    idOf (a ++ [(n, t)]) m = if n = m then orElse (a.idOf m) t.trimmedID else a.idOf m := by
  unfold idOf
  rw [fragmentsOf_snoc]
  split_ifs
  · rw [map_append, map_singleton, firstSet_snoc]
  · rfl

theorem nameOf_snoc (n m : Nat) (t : ToolCallResponse) :
    nameOf (a ++ [(n, t)]) m = if n = m then orElse (a.nameOf m) t.trimmedName else a.nameOf m := by
  unfold nameOf
  rw [fragmentsOf_snoc]
  split_ifs
  · rw [map_append, map_singleton, firstSet_snoc]
  · rfl

theorem argumentsOf_snoc (n m : Nat) (t : ToolCallResponse) :
    argumentsOf (a ++ [(n, t)]) m =
      if n = m then a.argumentsOf m ++ t.function.arguments else a.argumentsOf m := by
  unfold argumentsOf
  rw [fragmentsOf_snoc]
  split_ifs
  · rw [map_append, map_singleton, String.join_append]
    simp [String.join]
  · rfl

theorem callCount_snoc (n : Nat) (t : ToolCallResponse) :
    callCount (a ++ [(n, t)]) = max a.callCount (n + 1) := by
  simp only [callCount, foldl_append, foldl_cons, foldl_nil]

theorem callAtIndex_snoc (n : Nat) (t : ToolCallResponse) (index : Int) :
    callAtIndex (a ++ [(n, t)]) index =
      if t.index.getD 0 = index then some n else a.callAtIndex index := by
  by_cases hi : t.index.getD 0 = index <;> simp [callAtIndex, hi]

theorem callWithID_snoc (n : Nat) (t : ToolCallResponse) (id : String) :
    callWithID (a ++ [(n, t)]) id =
      (a.callWithID id).or (if t.trimmedID = id then some n else none) := by
  unfold callWithID
  rw [find?_append, map_or]
  by_cases hi : t.trimmedID = id <;> simp [hi]

theorem lt_callCount {p : Nat × ToolCallResponse} (hp : p ∈ a) : p.1 < a.callCount := by
  induction a using List.reverseRecOn with
  | nil => cases hp
  | append_singleton a q ih =>
    rw [show a ++ [q] = a ++ [(q.1, q.2)] from rfl, callCount_snoc]
    rcases mem_append.1 hp with hp | hp
    · have := ih hp
      omega
    · rw [mem_singleton.1 hp]
      omega

theorem callWithID_lt {id : String} {n : Nat} (hn : a.callWithID id = some n) :
    n < a.callCount := by
  obtain ⟨p, hp, rfl⟩ := map_eq_some_iff.1 hn
  exact a.lt_callCount (mem_of_find?_eq_some hp)

theorem callAtIndex_lt {index : Int} {n : Nat} (hn : a.callAtIndex index = some n) :
    n < a.callCount := by
  obtain ⟨p, hp, rfl⟩ := map_eq_some_iff.1 hn
  exact a.lt_callCount (mem_reverse.1 (mem_of_find?_eq_some hp))

theorem owner_le (t : ToolCallResponse) : a.owner t ≤ a.callCount := by
  unfold owner
  generalize hknown : (if t.trimmedID = "" then none else a.callWithID t.trimmedID) = known
  cases known with
  | some n =>
    split_ifs at hknown
    exact (a.callWithID_lt hknown).le
  | none =>
    cases hlast : (a.callAtIndex (t.index.getD 0)).filter _ with
    | none => simp
    | some n =>
      have hn := a.callAtIndex_lt (filter_eq_some_iff.1 hlast).1
      simpa using hn.le

theorem fragmentsOf_of_le {n : Nat} (hn : a.callCount ≤ n) : a.fragmentsOf n = [] := by
  unfold fragmentsOf
  rw [filter_eq_nil_iff.2 fun p hp => ?_, map_nil]
  have := a.lt_callCount hp
  simp only [beq_iff_eq]
  omega

/-! ### One id, one call -/

/-- **A call has one id, and an id has one call.** -/
def Sound : Prop := ∀ p ∈ a, p.2.trimmedID ≠ "" → a.idOf p.1 = p.2.trimmedID

variable {a}

theorem Sound.idOf_callWithID (hs : a.Sound) {id : String} {n : Nat} (hid : id ≠ "")
    (hn : a.callWithID id = some n) : a.idOf n = id := by
  obtain ⟨p, hp, rfl⟩ := map_eq_some_iff.1 hn
  have hpid : p.2.trimmedID = id := by simpa using find?_some hp
  rw [← hpid]
  exact hs p (mem_of_find?_eq_some hp) (hpid ▸ hid)

/-- The id of a call is that of one of its fragments. -/
theorem exists_of_idOf {n : Nat} (hn : a.idOf n ≠ "") :
    ∃ p ∈ a, p.1 = n ∧ p.2.trimmedID = a.idOf n := by
  unfold idOf firstSet at hn ⊢
  cases hf : ((a.fragmentsOf n).map (·.trimmedID)).find? (· != "") with
  | none => simp [hf] at hn
  | some s =>
    obtain ⟨t, ht, rfl⟩ := mem_map.1 (mem_of_find?_eq_some hf)
    obtain ⟨p, hp, rfl⟩ := mem_map.1 ht
    obtain ⟨hp, hpn⟩ := mem_filter.1 hp
    exact ⟨p, hp, by simpa using hpn, rfl⟩

theorem callWithID_idOf {n : Nat} (hn : a.idOf n ≠ "") : a.callWithID (a.idOf n) ≠ none := by
  obtain ⟨p, hp, -, hid⟩ := exists_of_idOf hn
  unfold callWithID
  rw [ne_eq, map_eq_none_iff, find?_eq_none]
  exact fun hall => hall p hp (by simp [hid])

theorem Sound.idOf_owner (hs : a.Sound) (t : ToolCallResponse) :
    t.trimmedID = "" ∨ a.idOf (a.owner t) = "" ∨ a.idOf (a.owner t) = t.trimmedID := by
  by_cases hid : t.trimmedID = ""
  · exact .inl hid
  refine .inr ?_
  unfold owner
  rw [if_neg hid]
  cases hknown : a.callWithID t.trimmedID with
  | some n => exact .inr (hs.idOf_callWithID hid hknown)
  | none =>
    refine .inl ?_
    cases hlast : (a.callAtIndex (t.index.getD 0)).filter fun n =>
        t.trimmedID == "" || a.idOf n == "" with
    | none =>
      change a.idOf a.callCount = ""
      rw [idOf, fragmentsOf_of_le _ le_rfl]
      rfl
    | some n => simpa [hid] using (filter_eq_some_iff.1 hlast).2

theorem Sound.add (hs : a.Sound) (t : ToolCallResponse) : (a.add t).Sound := by
  intro p hp hpid
  unfold Assigned.add at hp ⊢
  rw [idOf_snoc]
  rcases mem_append.1 hp with hp | hp
  · have hold := hs p hp hpid
    split_ifs
    · rw [orElse, if_neg (hold ▸ hpid), hold]
    · exact hold
  · rw [mem_singleton.1 hp] at hpid ⊢
    rw [if_pos rfl]
    rcases hs.idOf_owner t with hid | hid | hid
    · exact absurd hid hpid
    · rw [orElse, if_pos hid]
    · rw [orElse, hid, if_neg hpid]

end Assigned

theorem sound_assign (ts : List ToolCallResponse) : (assign ts).Sound := by
  induction ts using List.reverseRecOn with
  | nil => exact fun p hp => absurd hp not_mem_nil
  | append_singleton ts t ih =>
    rw [assign_snoc]
    exact ih.add t

/-! ### What the maps know -/

/-- **The maps and the tools of a choice say what the history of its fragments says.**  No tool is
emitted yet. -/
structure Tracks (ts : List ToolCallResponse) (c : ChatToGeminiChoice) : Prop where
  length : c.tools.length = (assign ts).callCount
  tool : ∀ n < c.tools.length, c.toolAt n =
    { id := (assign ts).idOf n, name := (assign ts).nameOf n
      arguments := (assign ts).argumentsOf n }
  byIndex : ∀ index, c.toolByIndex index = (assign ts).callAtIndex index
  byID : ∀ id ≠ "", c.toolByID id = (assign ts).callWithID id

theorem Tracks.init {finished : Bool} : Tracks [] { finished := finished } where
  length := rfl
  tool := fun n hn => absurd hn (Nat.not_lt_zero n)
  byIndex := fun _ => rfl
  byID := fun _ _ => rfl

/-! ### A fragment put to its tool -/

namespace ChatToGeminiChoice

variable {c : ChatToGeminiChoice} {n : Nat}

theorem length_putTool (hn : n ≤ c.tools.length) (t : ToolCallResponse) :
    (c.putTool n t).tools.length = max c.tools.length (n + 1) := by
  simp only [putTool]
  split_ifs with hlt
  · rw [length_set]
    omega
  · rw [length_append, length_singleton]
    omega

theorem toolAt_putTool (hn : n ≤ c.tools.length) (t : ToolCallResponse) (m : Nat) :
    (c.putTool n t).toolAt m = if m = n then (c.toolAt n).extend t else c.toolAt m := by
  simp only [putTool, toolAt, getD_eq_getElem?_getD]
  split_ifs with hlt hm hm
  · rw [hm, getElem?_set_self hlt, getD_some]
  · rw [getElem?_set_ne (Ne.symm hm)]
  · rw [show n = c.tools.length by omega] at hm ⊢
    rw [hm, getElem?_append_right le_rfl, Nat.sub_self]
    rfl
  · rcases Nat.lt_or_ge m c.tools.length with hml | hml
    · rw [getElem?_append_left hml]
    · rw [getElem?_eq_none (by simp; omega), getElem?_eq_none hml]

theorem appendToolCallDelta_eq {c' : ChatToGeminiChoice} {i : Int} {t : ToolCallResponse}
    (hc : c.appendToolCallDelta i t = .ok c') :
    ∃ n, n = (c.findTool (t.index.getD 0) t.trimmedID).getD c.tools.length ∧
      (t.trimmedName = "" ∨ (c.toolAt n).name = "" ∨ (c.toolAt n).name = t.trimmedName) ∧
      c' = c.putTool n t := by
  simp only [appendToolCallDelta] at hc
  split_ifs at hc with hneg hemitted hother hname
  refine ⟨_, rfl, ?_, (Except.ok.inj hc).symm⟩
  by_contra hno
  push Not at hno
  exact hname hno

end ChatToGeminiChoice

namespace Tracks

variable {ts : List ToolCallResponse} {c c' : ChatToGeminiChoice} {i : Int} {t : ToolCallResponse}

theorem toolAt_id (ht : Tracks ts c) {n : Nat} (hn : n < (assign ts).callCount) :
    (c.toolAt n).id = (assign ts).idOf n := by
  rw [ht.tool n (ht.length ▸ hn)]

/-- **The maps find the call that the fragment belongs to.** -/
theorem findTool_getD (ht : Tracks ts c) (t : ToolCallResponse) :
    (c.findTool (t.index.getD 0) t.trimmedID).getD c.tools.length = (assign ts).owner t := by
  have hs := sound_assign ts
  unfold ChatToGeminiChoice.findTool Assigned.owner
  rw [ht.length, ht.byIndex]
  by_cases hid : t.trimmedID = ""
  · -- without an id only the index counts
    rw [hid]
    simp [ChatToGeminiStreamTool.hasOtherID]
  · rw [if_pos hid, if_neg hid, ht.byID _ hid]
    cases hknown : (assign ts).callWithID t.trimmedID with
    | some n =>
      have hn := (assign ts).callWithID_lt hknown
      have hsame : (c.toolAt n).hasOtherID t.trimmedID = false := by
        simp [ChatToGeminiStreamTool.hasOtherID, ht.toolAt_id hn, hs.idOf_callWithID hid hknown]
      simp [Option.filter, hsame]
    | none =>
      -- no call has the id, so the call at the index has another one or none
      simp only [none_or]
      cases hlast : (assign ts).callAtIndex (t.index.getD 0) with
      | none => rfl
      | some n =>
        have hother : (!(c.toolAt n).hasOtherID t.trimmedID) =
            (t.trimmedID == "" || (assign ts).idOf n == "") := by
          unfold ChatToGeminiStreamTool.hasOtherID
          rw [ht.toolAt_id ((assign ts).callAtIndex_lt hlast)]
          by_cases hnone : (assign ts).idOf n = ""
          · simp [hnone]
          · have hne : (assign ts).idOf n ≠ t.trimmedID := by
              intro heq
              exact Assigned.callWithID_idOf hnone (heq ▸ hknown)
            simp [bne, beq_false_of_ne hid, beq_false_of_ne hnone, beq_false_of_ne hne]
        simp only [Option.filter, hother]

/-- The tool at a place, also where there is none yet. -/
theorem toolAt (ht : Tracks ts c) (n : Nat) :
    c.toolAt n = { id := (assign ts).idOf n, name := (assign ts).nameOf n
                   arguments := (assign ts).argumentsOf n } := by
  by_cases hlt : n < c.tools.length
  · exact ht.tool n hlt
  · have hnil := (assign ts).fragmentsOf_of_le (ht.length ▸ not_lt.1 hlt)
    unfold ChatToGeminiChoice.toolAt Assigned.idOf Assigned.nameOf Assigned.argumentsOf
    rw [hnil, getD_eq_getElem?_getD, getElem?_eq_none (not_lt.1 hlt)]
    rfl

/-- A text that agrees with the one that is set, if both are set, comes to the same first or
last. -/
theorem orElse_of_agree {old new : String} (hagree : new = "" ∨ old = "" ∨ old = new) :
    (if new ≠ "" then new else old) = orElse old new := by
  unfold orElse
  rcases hagree with rfl | rfl | rfl
  · by_cases hold : old = ""
    · simp [hold]
    · simp [hold]
  · by_cases hnew : new = ""
    · simp [hnew]
    · simp [hnew]
  · split_ifs <;> simp_all

/-- **`appendToolCallDelta` adds the fragment to its call.** -/
theorem append (ht : Tracks ts c) (hc : c.appendToolCallDelta i t = .ok c') :
    Tracks (ts ++ [t]) c' := by
  obtain ⟨n, hn, hname, rfl⟩ := ChatToGeminiChoice.appendToolCallDelta_eq hc
  rw [ht.findTool_getD] at hn
  have hle : n ≤ c.tools.length := by
    rw [hn, ht.length]
    exact (assign ts).owner_le t
  have hid := (sound_assign ts).idOf_owner t
  rw [← hn] at hid
  have hadd : assign (ts ++ [t]) = assign ts ++ [(n, t)] := by
    rw [assign_snoc, Assigned.add, hn]
  refine ⟨?_, ?_, ?_, ?_⟩
  · rw [hadd, Assigned.callCount_snoc, ChatToGeminiChoice.length_putTool hle, ht.length]
  · intro m hm
    rw [hadd, Assigned.idOf_snoc, Assigned.nameOf_snoc, Assigned.argumentsOf_snoc,
      ChatToGeminiChoice.toolAt_putTool hle]
    by_cases hmn : m = n
    · subst hmn
      rw [if_pos rfl, if_pos rfl, if_pos rfl, if_pos rfl, ht.toolAt m]
      rw [ht.toolAt m] at hname
      unfold ChatToGeminiStreamTool.extend
      exact congrArg₂ (fun id name => ChatToGeminiStreamTool.mk id name _ false)
        (orElse_of_agree hid) (orElse_of_agree hname)
    · rw [if_neg hmn, if_neg (Ne.symm hmn), if_neg (Ne.symm hmn), if_neg (Ne.symm hmn), ht.toolAt m]
  · intro index
    rw [hadd, Assigned.callAtIndex_snoc]
    change Function.update c.toolByIndex _ _ _ = _
    simp only [Function.update_apply, ht.byIndex, eq_comm]
  · intro id hne
    rw [hadd, Assigned.callWithID_snoc]
    change (if t.trimmedID ≠ "" then Function.update c.toolByID t.trimmedID (some n)
      else c.toolByID) id = _
    by_cases hsame : t.trimmedID = id
    · -- the id of the fragment leads to its call now, where it led before
      rw [if_pos (hsame ▸ hne), ← hsame, Function.update_self, if_pos rfl]
      cases hknown : (assign ts).callWithID t.trimmedID with
      | none => rfl
      | some m =>
        rw [hn, Assigned.owner, if_neg (hsame ▸ hne), hknown]
        rfl
    · rw [if_neg hsame, or_none, ← ht.byID id hne]
      split_ifs
      · exact Function.update_of_ne (Ne.symm hsame) _ _
      · rfl

end Tracks

end NexusTok.Convert
