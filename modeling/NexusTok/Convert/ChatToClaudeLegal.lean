import NexusTok.Convert.ChatToClaude
import NexusTok.Convert.ClaudeStream

/-!
# Chat Completions to Claude Messages: legal streams

Every chat stream converts to a legal Claude stream, whatever its chunks are.

* `InStep` : a client that is in the middle of the message has open what the state says is open: the
  block at `index` of the kind of the last message, or the started blocks of the tool calls, which
  have the indexes from `toolCallBaseIndex` on.
* `streamResponse_advances` : one chunk keeps them in step, until the stream is done.
* `convertStream_legal` : all chunks and the end.
-/

namespace NexusTok.Convert

open ClaudeClient List Function

variable {J U C : Type} {h : ChatToClaudeHost J U C}

/-! ### The blocks of the tool calls -/

/-- The tool at the block index `i` is started, for tools at the indexes from `base` on. -/
def startedAt (base : Int) (tools : List ClaudeStreamToolCall) (i : Int) : Bool :=
  if i < base then false else (tools[(i - base).toNat]?).any (·.started)

/-- The open blocks of tools. -/
def toolBlocks (base : Int) (tools : List ClaudeStreamToolCall) (i : Int) : Option String :=
  if startedAt base tools i then some "tool_use" else none

/-- The used indexes with tools. -/
def toolUsed (base : Int) (tools : List ClaudeStreamToolCall) (i : Int) : Prop :=
  i < base ∨ startedAt base tools i = true

/-- The tools have the block indexes from `base` on. -/
def IndexedFrom (base : Int) (tools : List ClaudeStreamToolCall) : Prop :=
  ∀ (k : Nat) (t : ClaudeStreamToolCall), tools[k]? = some t → t.blockIndex = base + k

/-- A tool among others is started at its own index. -/
theorem startedAt_middle (base : Int) (pre : List ClaudeStreamToolCall)
    (t : ClaudeStreamToolCall) (post : List ClaudeStreamToolCall) (i : Int) :
    startedAt base (pre ++ t :: post) i =
      if i = base + pre.length then t.started
      else startedAt base (pre ++ { t with started := false } :: post) i := by
  unfold startedAt
  by_cases hi : i = base + pre.length
  · subst hi
    have hlt : ¬base + (pre.length : Int) < base := by omega
    have hsub : (base + (pre.length : Int) - base).toNat = pre.length := by omega
    simp [hlt, hsub]
  · rw [if_neg hi]
    by_cases hlt : i < base
    · rw [if_pos hlt, if_pos hlt]
    · rw [if_neg hlt, if_neg hlt]
      have hk : (i - base).toNat ≠ pre.length := by omega
      rcases Nat.lt_or_gt_of_ne hk with hk | hk
      · rw [getElem?_append_left hk, getElem?_append_left hk]
      · obtain ⟨m, hm⟩ : ∃ m, (i - base).toNat - pre.length = m + 1 :=
          ⟨(i - base).toNat - pre.length - 1, by omega⟩
        rw [getElem?_append_right hk.le, getElem?_append_right hk.le, hm,
          getElem?_cons_succ, getElem?_cons_succ]

variable {base i : Int} {pre post tools : List ClaudeStreamToolCall} {t t' : ClaudeStreamToolCall}

/-- Only whether a tool is started counts. -/
theorem startedAt_congr (ht : t'.started = t.started) :
    startedAt base (pre ++ t' :: post) = startedAt base (pre ++ t :: post) := by
  funext i
  rw [startedAt_middle base pre t', startedAt_middle base pre t, ht]
  split
  · rfl
  · have : (pre ++ { t' with started := false } :: post).map (·.started) =
        (pre ++ { t with started := false } :: post).map (·.started) := by simp
    simp only [startedAt]
    split
    · rfl
    · have hget := congrArg (fun l => l[(i - base).toNat]?) this
      simp only [getElem?_map] at hget
      have hany : ∀ o : Option ClaudeStreamToolCall,
          o.any (·.started) = (o.map (·.started)).any id := by
        intro o
        cases o <;> rfl
      rw [hany, hany, hget]

theorem startedAt_start (ht' : t'.started = true) (i : Int) :
    startedAt base (pre ++ t' :: post) i =
      if i = base + pre.length then true else startedAt base (pre ++ t :: post) i := by
  rw [startedAt_middle base pre t', ht']
  by_cases hi : i = base + pre.length
  · rw [if_pos hi, if_pos hi]
  · have hoff : startedAt base (pre ++ t :: post) i =
        startedAt base (pre ++ { t with started := false } :: post) i := by
      rw [startedAt_middle, if_neg hi]
    rw [if_neg hi, if_neg hi, hoff]
    have hsame : ({ t' with started := false } : ClaudeStreamToolCall).started =
        ({ t with started := false } : ClaudeStreamToolCall).started := rfl
    exact congrFun (startedAt_congr hsame) i

variable {c : ClaudeClient}

theorem start_legal (hc : c.At (toolBlocks base (pre ++ t :: post))
      (toolUsed base (pre ++ t :: post))) (hi : t.blockIndex = base + pre.length)
    (ht : t.started = false) :
    ∃ c', c.run (t.start h).2 = some c' ∧
      c'.At (toolBlocks base (pre ++ (t.start h).1 :: post))
        (toolUsed base (pre ++ (t.start h).1 :: post)) := by
  have hat : startedAt base (pre ++ t :: post) (base + pre.length) = false := by
    rw [startedAt_middle, if_pos rfl, ht]
  have hnew : ¬toolUsed base (pre ++ t :: post) t.blockIndex := by
    rw [hi]
    rintro (hlt | hs)
    · omega
    · rw [hat] at hs
      cases hs
  obtain ⟨c', haccept, hat'⟩ := hc.start (J := J) (C := C) hnew (toolUseBlock h t)
  have hblocks : Function.update (toolBlocks base (pre ++ t :: post)) t.blockIndex
      (some (toolUseBlock h t).type) = toolBlocks base (pre ++ (t.start h).1 :: post) := by
    funext i
    rw [toolBlocks, startedAt_start (t := t) rfl, hi]
    by_cases hii : i = base + pre.length
    · subst hii
      simp [toolUseBlock]
    · rw [update_of_ne hii, if_neg hii]
      rfl
  rw [hblocks] at hat'
  have hafter : c'.At (toolBlocks base (pre ++ (t.start h).1 :: post))
      (toolUsed base (pre ++ (t.start h).1 :: post)) := by
    refine hat'.imp fun i hu => ?_
    rw [toolUsed, startedAt_start (t := t) rfl]
    rcases hu with (hlt | hs) | hii
    · exact .inl hlt
    · rw [hs]
      exact .inr (by split <;> rfl)
    · rw [hi] at hii
      rw [if_pos hii]
      exact .inr rfl
  have hopen : toolBlocks base (pre ++ (t.start h).1 :: post) t.blockIndex = some "tool_use" := by
    rw [toolBlocks, startedAt_middle, if_pos hi]
    rfl
  refine ⟨c', ?_, hafter⟩
  simp only [ClaudeStreamToolCall.start, run_cons, blockStart, haccept, Option.bind_some]
  split
  · rw [run_cons, contentBlockDelta, hafter.delta hopen _ rfl]
    rfl
  · rfl

theorem feed_legal {tool : ClaudeStreamToolCall} (t : ToolCallResponse)
    (hc : c.At (toolBlocks base (pre ++ tool :: post)) (toolUsed base (pre ++ tool :: post)))
    (hi : tool.blockIndex = base + pre.length) :
    ∃ c', c.run (tool.feed h t).2 = some c' ∧
      c'.At (toolBlocks base (pre ++ (tool.feed h t).1 :: post))
        (toolUsed base (pre ++ (tool.feed h t).1 :: post)) := by
  have hjoin : startedAt base (pre ++ tool.join t :: post) = startedAt base (pre ++ tool :: post) :=
    startedAt_congr rfl
  have hc' : c.At (toolBlocks base (pre ++ tool.join t :: post))
      (toolUsed base (pre ++ tool.join t :: post)) := by
    have hb : toolBlocks base (pre ++ tool.join t :: post) =
        toolBlocks base (pre ++ tool :: post) := by
      funext i
      rw [toolBlocks, toolBlocks, hjoin]
    rw [hb]
    exact hc.imp fun i hu => by rw [toolUsed, hjoin]; exact hu
  simp only [ClaudeStreamToolCall.feed]
  split
  · rename_i hstart
    exact start_legal hc' hi (by simpa using hstart.1)
  · refine ⟨c, ?_, hc'⟩
    split
    · rename_i hdelta
      have hopen : toolBlocks base (pre ++ tool.join t :: post) (tool.join t).blockIndex =
          some "tool_use" := by
        rw [toolBlocks, startedAt_middle, if_pos (show (tool.join t).blockIndex = _ from hi),
          hdelta.1]
        rfl
      rw [run_cons, contentBlockDelta, hc'.delta hopen _ rfl]
      rfl
    · rfl

theorem feed_blockIndex (tool : ClaudeStreamToolCall) (t : ToolCallResponse) :
    (tool.feed h t).1.blockIndex = tool.blockIndex := by
  simp only [ClaudeStreamToolCall.feed]
  split <;> rfl

theorem startPending_legal (uuid : Nat → String)
    (pre : List ClaudeStreamToolCall) (hi : IndexedFrom base (pre ++ post))
    (hc : c.At (toolBlocks base (pre ++ post)) (toolUsed base (pre ++ post))) :
    ∃ c', c.run ((post.zipIdx pre.length).flatMap fun t =>
          (t.1.startPending h (uuid t.2)).2) = some c' ∧
      c'.At (toolBlocks base (pre ++ (post.zipIdx pre.length).map fun t =>
          (t.1.startPending h (uuid t.2)).1))
        (toolUsed base (pre ++ (post.zipIdx pre.length).map fun t =>
          (t.1.startPending h (uuid t.2)).1)) := by
  induction post generalizing pre c with
  | nil => exact ⟨c, rfl, by simpa using hc⟩
  | cons t post ih =>
    have hti : t.blockIndex = base + pre.length := hi pre.length t (by simp)
    obtain ⟨c₁, h₁, hat₁⟩ : ∃ c', c.run (t.startPending h (uuid pre.length)).2 = some c' ∧
        c'.At (toolBlocks base (pre ++ (t.startPending h (uuid pre.length)).1 :: post))
          (toolUsed base (pre ++ (t.startPending h (uuid pre.length)).1 :: post)) := by
      simp only [ClaudeStreamToolCall.startPending]
      split
      · exact ⟨c, rfl, hc⟩
      · rename_i hpending
        rw [not_or] at hpending
        have hoff : t.started = false := by simpa using hpending.1
        have hsame : startedAt base (pre ++ ({ t with
            id := if t.id = "" then "toolu_" ++ uuid pre.length else t.id } :
              ClaudeStreamToolCall) :: post) = startedAt base (pre ++ t :: post) :=
          startedAt_congr rfl
        refine start_legal ?_ hti hoff
        refine ⟨hc.stage, fun i => ?_, fun i hu => ?_⟩
        · rw [toolBlocks, hsame]
          exact hc.opened i
        · rw [toolUsed, hsame]
          exact hc.used i hu
    have hindex : (t.startPending h (uuid pre.length)).1.blockIndex = t.blockIndex := by
      simp only [ClaudeStreamToolCall.startPending]
      split <;> rfl
    have hi' : IndexedFrom base ((pre ++ [(t.startPending h (uuid pre.length)).1]) ++ post) := by
      intro k t' ht'
      by_cases hk : k = pre.length
      · subst hk
        have : (t.startPending h (uuid pre.length)).1 = t' := by simpa using ht'
        rw [← this, hindex, hti]
      · refine hi k t' ?_
        rw [← ht', append_assoc, singleton_append]
        rcases Nat.lt_or_gt_of_ne hk with hk | hk
        · rw [getElem?_append_left hk, getElem?_append_left hk]
        · obtain ⟨m, hm⟩ : ∃ m, k - pre.length = m + 1 := ⟨k - pre.length - 1, by omega⟩
          rw [getElem?_append_right hk.le, getElem?_append_right hk.le, hm,
            getElem?_cons_succ, getElem?_cons_succ]
    obtain ⟨c₂, h₂, hat₂⟩ := ih _ hi' (by simpa using hat₁)
    refine ⟨c₂, ?_, ?_⟩
    · rw [zipIdx_cons, flatMap_cons, run_append h₁]
      simpa using h₂
    · rw [zipIdx_cons, map_cons]
      simpa using hat₂

/-- The first tool apart from the others. -/
theorem toolBlocks_cons (base : Int) (t : ClaudeStreamToolCall)
    (tools : List ClaudeStreamToolCall) (i : Int) :
    toolBlocks base (t :: tools) i =
      if i = base then if t.started then some "tool_use" else none
      else toolBlocks (base + 1) tools i := by
  unfold toolBlocks startedAt
  by_cases hib : i = base
  · subst hib
    simp
  · rw [if_neg hib]
    by_cases hlt : i < base
    · rw [if_pos hlt, if_pos (by omega : i < base + 1)]
    · have : (i - base).toNat = (i - (base + 1)).toNat + 1 := by omega
      rw [if_neg hlt, if_neg (by omega : ¬i < base + 1), this, getElem?_cons_succ]

theorem toolBlocks_below (hi : i < base) (tools : List ClaudeStreamToolCall) :
    toolBlocks base tools i = none := by
  simp [toolBlocks, startedAt, hi]

theorem startedAt_lt (hs : startedAt base tools i = true) : i < base + tools.length := by
  unfold startedAt at hs
  split at hs
  · cases hs
  · by_contra hge
    rw [getElem?_eq_none (by omega)] at hs
    cases hs

theorem stops_legal
    {used : Int → Prop} (hi : IndexedFrom base tools) (hc : c.At (toolBlocks base tools) used) :
    ∃ c', c.run ((tools.filter (·.started)).map fun tool =>
        (generateStopBlock tool.blockIndex : ClaudeResponse J C)) = some c' ∧
      c'.At (fun _ => none) used := by
  induction tools generalizing base c with
  | nil =>
    refine ⟨c, rfl, hc.stage, fun i => ?_, hc.used⟩
    rw [hc.opened i]
    simp [toolBlocks, startedAt]
  | cons t tools ih =>
    have hti : t.blockIndex = base := by simpa using hi 0 t rfl
    have hrest : IndexedFrom (base + 1) tools := by
      intro k t' ht'
      have := hi (k + 1) t' ht'
      push_cast at this
      omega
    by_cases ht : t.started = true
    · have hopen : toolBlocks base (t :: tools) t.blockIndex = some "tool_use" := by
        rw [toolBlocks_cons, if_pos hti, if_pos ht]
      obtain ⟨c₁, h₁, hat₁⟩ := hc.stop (J := J) (C := C) hopen
      have hblocks : Function.update (toolBlocks base (t :: tools)) t.blockIndex none =
          toolBlocks (base + 1) tools := by
        funext i
        by_cases hib : i = base
        · rw [hti, hib, update_self, toolBlocks_below (by omega)]
        · rw [hti, update_of_ne hib, toolBlocks_cons, if_neg hib]
      rw [hblocks] at hat₁
      obtain ⟨c₂, h₂, hat₂⟩ := ih hrest hat₁
      refine ⟨c₂, ?_, hat₂⟩
      rw [filter_cons_of_pos ht, map_cons, run_cons, generateStopBlock, h₁]
      exact h₂
    · have hblocks : toolBlocks base (t :: tools) = toolBlocks (base + 1) tools := by
        funext i
        rw [toolBlocks_cons]
        by_cases hib : i = base
        · rw [if_pos hib, if_neg ht, toolBlocks_below (by omega)]
        · rw [if_neg hib]
      rw [hblocks] at hc
      rw [filter_cons_of_neg ht]
      exact ih hrest hc

/-! ### In step with the client -/

namespace ClaudeConvertInfo

def blocks (state : ClaudeConvertInfo U) : Int → Option String :=
  match state.lastMessagesType with
  | .none => fun _ => none
  | .text => Function.update (fun _ => none) state.index (some "text")
  | .thinking => Function.update (fun _ => none) state.index (some "thinking")
  | .tools => toolBlocks state.toolCallBaseIndex state.toolCalls

/-- The indexes that may be used. -/
def used (state : ClaudeConvertInfo U) : Int → Prop :=
  match state.lastMessagesType with
  | .none => fun i => i < state.index
  | .text | .thinking => fun i => i ≤ state.index
  | .tools => toolUsed state.toolCallBaseIndex state.toolCalls

/-- **A client in step with the state**, in the middle of the message. -/
structure InStep (state : ClaudeConvertInfo U) (c : ClaudeClient) : Prop where
  client : c.At state.blocks state.used
  indexed : state.lastMessagesType = .tools → IndexedFrom state.toolCallBaseIndex state.toolCalls
  nonempty : state.lastMessagesType = .tools → state.toolCalls ≠ []

/-- The events of a step are accepted, and the client stays in step. -/
def Keeps (c : ClaudeClient) (r : ClaudeConvertInfo U × List (ClaudeResponse J C)) : Prop :=
  ∃ c', c.run r.2 = some c' ∧ r.1.InStep c'

variable {state : ClaudeConvertInfo U} {c : ClaudeClient}

section

variable (hs : state.InStep c)
include hs

/-- Fields that say nothing of the blocks. -/
theorem InStep.congr {state' : ClaudeConvertInfo U}
    (hl : state'.lastMessagesType = state.lastMessagesType) (hi : state'.index = state.index)
    (hb : state'.toolCallBaseIndex = state.toolCallBaseIndex)
    (ht : state'.toolCalls = state.toolCalls) : state'.InStep c := by
  refine ⟨?_, ?_, ?_⟩
  · have hblocks : state'.blocks = state.blocks := by unfold blocks; rw [hl, hi, hb, ht]
    have hused : state'.used = state.used := by unfold used; rw [hl, hi, hb, ht]
    rw [hblocks, hused]
    exact hs.client
  · rw [hl, hb, ht]
    exact hs.indexed
  · rw [hl, ht]
    exact hs.nonempty

theorem startPendingToolBlocks_keeps (uuid : Nat → String) :
    Keeps c (state.startPendingToolBlocks h uuid) ∧
      (state.startPendingToolBlocks h uuid).1.lastMessagesType = state.lastMessagesType := by
  unfold startPendingToolBlocks
  split
  · exact ⟨⟨c, rfl, hs⟩, rfl⟩
  · rename_i hl
    rw [not_not] at hl
    refine ⟨?_, rfl⟩
    have hat := hs.client
    simp only [blocks, used, hl] at hat
    obtain ⟨c', hrun, hat'⟩ := startPending_legal (h := h) uuid [] (hs.indexed hl) hat
    simp only [nil_append, length_nil] at hrun hat'
    refine ⟨c', ?_, ?_, ?_, ?_⟩
    · dsimp only
      rw [flatMap_map]
      exact hrun
    · simp only [blocks, used, hl, map_map]
      exact hat'
    · intro _ k t ht
      simp only [map_map, getElem?_map, Option.map_eq_some_iff] at ht
      obtain ⟨⟨t', k'⟩, htk, rfl⟩ := ht
      rw [getElem?_zipIdx] at htk
      obtain ⟨t'', ht'', heq⟩ := Option.map_eq_some_iff.1 htk
      cases heq
      have hindex : (t'.startPending h (uuid (0 + k))).1.blockIndex = t'.blockIndex := by
        simp only [ClaudeStreamToolCall.startPending]
        split <;> rfl
      exact hindex.trans (hs.indexed hl k t' ht'')
    · intro _ hnil
      have := hs.nonempty hl
      simp at hnil
      exact this hnil

/-- A client with no open block. -/
def Closed (state : ClaudeConvertInfo U) (c : ClaudeClient) : Prop :=
  c.At (fun _ => none) state.used

/-- **All open blocks are stopped.** -/
theorem stopOpenBlocks_closes :
    ∃ c', c.run (state.stopOpenBlocks : List (ClaudeResponse J C)) = some c' ∧ state.Closed c' := by
  have hat := hs.client
  have hone : ∀ kind : String, state.blocks = Function.update (fun _ => none) state.index
      (some kind) → ∃ c', c.run [(generateStopBlock state.index : ClaudeResponse J C)] = some c' ∧
        state.Closed c' := by
    intro kind hk
    obtain ⟨c', h', hat'⟩ := hat.stop (J := J) (C := C) (i := state.index)
      (by rw [hk, update_self])
    refine ⟨c', ?_, ?_⟩
    · rw [run_cons, generateStopBlock, h']
      rfl
    · have hblocks : Function.update state.blocks state.index none = fun _ => none := by
        funext i
        by_cases hi : i = state.index
        · rw [hi, update_self]
        · rw [update_of_ne hi, hk, update_of_ne hi]
      rw [hblocks] at hat'
      exact hat'
  cases hl : state.lastMessagesType with
  | none =>
    simp only [stopOpenBlocks, hl]
    have hblocks : state.blocks = fun _ => none := by simp only [blocks, hl]
    rw [hblocks] at hat
    exact ⟨c, rfl, hat⟩
  | text =>
    simp only [stopOpenBlocks, hl]
    exact hone "text" (by simp only [blocks, hl])
  | thinking =>
    simp only [stopOpenBlocks, hl]
    exact hone "thinking" (by simp only [blocks, hl])
  | tools =>
    simp only [stopOpenBlocks, hl, if_neg (hs.nonempty hl)]
    have hblocks : state.blocks = toolBlocks state.toolCallBaseIndex state.toolCalls := by
      simp only [blocks, hl]
    rw [hblocks] at hat
    exact stops_legal (hs.indexed hl) hat

/-- Pending tools are started and everything is stopped. -/
theorem appendStopOpenBlocks_closes (uuid : Nat → String) :
    ∃ c', c.run (state.appendStopOpenBlocks h uuid).2 = some c' ∧
      (state.appendStopOpenBlocks h uuid).1.Closed c' := by
  obtain ⟨⟨c₁, h₁, hs₁⟩, -⟩ := startPendingToolBlocks_keeps (h := h) hs uuid
  obtain ⟨c₂, h₂, hclosed⟩ := stopOpenBlocks_closes (J := J) (C := C) hs₁
  exact ⟨c₂, by rw [appendStopOpenBlocks, run_append h₁, h₂], hclosed⟩

/-- **The open blocks are stopped, and the index is free.** -/
theorem stopOpenBlocksAndAdvance_keeps (uuid : Nat → String) :
    Keeps c (state.stopOpenBlocksAndAdvance h uuid) ∧
      (state.stopOpenBlocksAndAdvance h uuid).1.lastMessagesType = .none := by
  unfold stopOpenBlocksAndAdvance
  split
  · rename_i hl
    exact ⟨⟨c, rfl, hs⟩, hl⟩
  · obtain ⟨c', hrun, hclosed⟩ := appendStopOpenBlocks_closes (h := h) hs uuid
    generalize state.appendStopOpenBlocks h uuid = r at hrun hclosed ⊢
    obtain ⟨stopped, events⟩ := r
    have hused : stopped.lastMessagesType = .tools → ∀ i, stopped.used i →
        i < stopped.toolCallBaseIndex + stopped.toolCalls.length := by
      intro hl i hu
      simp only [used, hl, toolUsed] at hu
      rcases hu with hlt | hstarted
      · omega
      · exact startedAt_lt hstarted
    dsimp only
    split
    · rename_i hl
      refine ⟨⟨c', hrun, ?_, nofun, nofun⟩, rfl⟩
      exact At.imp hclosed (hused hl)
    · rename_i hl
      refine ⟨⟨c', hrun, ?_, nofun, nofun⟩, rfl⟩
      refine At.imp hclosed fun i hu => ?_
      cases hl' : stopped.lastMessagesType with
      | tools => exact absurd hl' hl
      | none | text | thinking =>
        simp only [used, hl'] at hu ⊢
        omega

theorem openBlock_keeps (uuid : Nat → String) (kind : LastMessagesType)
    (block : ClaudeMediaMessage J C)
    (hk : kind = .text ∧ block.type = "text" ∨ kind = .thinking ∧ block.type = "thinking") :
    Keeps c (state.openBlock h uuid kind block) ∧
      (state.openBlock h uuid kind block).1.lastMessagesType = kind := by
  unfold openBlock
  split
  · rename_i hl
    exact ⟨⟨c, rfl, hs⟩, hl⟩
  · obtain ⟨⟨c₁, h₁, hs₁⟩, hnone⟩ := stopOpenBlocksAndAdvance_keeps (h := h) hs uuid
    generalize state.stopOpenBlocksAndAdvance h uuid = r at h₁ hs₁ hnone ⊢
    obtain ⟨stopped, events⟩ := r
    dsimp only at h₁ hs₁ hnone ⊢
    have hat := hs₁.client
    simp only [blocks, used, hnone] at hat
    obtain ⟨c₂, h₂, hat₂⟩ := hat.start (J := J) (C := C) (Int.lt_irrefl stopped.index) block
    refine ⟨⟨c₂, ?_, ?_⟩, rfl⟩
    · rw [run_append h₁, run_cons, blockStart, h₂]
      rfl
    · have hused : ∀ i, i < stopped.index ∨ i = stopped.index → i ≤ stopped.index := by
        intro i hi
        omega
      rcases hk with ⟨rfl, hb⟩ | ⟨rfl, hb⟩
      · rw [hb] at hat₂
        exact ⟨hat₂.imp hused, nofun, nofun⟩
      · rw [hb] at hat₂
        exact ⟨hat₂.imp hused, nofun, nofun⟩

theorem delta_keeps {delta : ClaudeMediaMessage J C} (hk : state.lastMessagesType = .text ∧
        (delta.type = "text_delta" ∨ delta.type = "citations_delta") ∨
      state.lastMessagesType = .thinking ∧ delta.type = "thinking_delta") :
    c.accept (contentBlockDelta state.index delta : ClaudeResponse J C) = some c := by
  have hat := hs.client
  rcases hk with ⟨hl, hd⟩ | ⟨hl, hd⟩
  · refine hat.delta (show blocks state state.index = some "text" from ?_) delta ?_
    · simp only [blocks, hl, update_self]
    · rcases hd with hd | hd <;> rw [hd] <;> rfl
  · refine hat.delta (show blocks state state.index = some "thinking" from ?_) delta ?_
    · simp only [blocks, hl, update_self]
    · rw [hd]
      rfl

/-- Citations go to a text block. -/
theorem appendCitationDeltas_keeps (uuid : Nat → String)
    (raw : Option String) : Keeps c (state.appendCitationDeltas h uuid raw) := by
  unfold appendCitationDeltas
  dsimp only
  split
  · exact ⟨c, rfl, hs⟩
  · obtain ⟨⟨c₁, h₁, hs₁⟩, hkind⟩ := openBlock_keeps (h := h) hs uuid .text
      { type := "text", text := some "" } (.inl ⟨rfl, rfl⟩)
    generalize state.openBlock h uuid .text _ = r at h₁ hs₁ hkind ⊢
    obtain ⟨opened, events⟩ := r
    refine ⟨c₁, ?_, hs₁⟩
    rw [run_append h₁]
    induction h.chatAnnotationsToClaude raw "" with
    | nil => rfl
    | cons citation citations ih =>
      rw [map_cons, run_cons, delta_keeps hs₁ (.inl ⟨hkind, .inr rfl⟩)]
      exact ih

/-- Reasoning goes to a thinking block, text to a text block. -/
theorem contentBranch_keeps (uuid : Nat → String) (delta : StreamDelta) :
    Keeps c (state.contentBranch h uuid delta) := by
  unfold contentBranch
  dsimp only
  split
  · obtain ⟨⟨c₁, h₁, hs₁⟩, hkind⟩ := openBlock_keeps (h := h) hs uuid .thinking
      { type := "thinking", thinking := some "" } (.inr ⟨rfl, rfl⟩)
    refine ⟨c₁, ?_, hs₁⟩
    rw [run_append h₁, run_cons, delta_keeps hs₁ (.inr ⟨hkind, rfl⟩)]
    rfl
  · split
    · obtain ⟨⟨c₁, h₁, hs₁⟩, hkind⟩ := openBlock_keeps (h := h) hs uuid .text
        { type := "text", text := some "" } (.inl ⟨rfl, rfl⟩)
      refine ⟨c₁, ?_, hs₁⟩
      rw [run_append h₁, run_cons, delta_keeps hs₁ (.inl ⟨hkind, .inl rfl⟩)]
      rfl
    · exact ⟨c, rfl, hs⟩

end

/-! ### Tool calls -/

/-- The client and the state during the fragments of a chunk, when there may be no tool yet. -/
structure InTools (state : ClaudeConvertInfo U) (c : ClaudeClient) : Prop where
  kind : state.lastMessagesType = .tools
  client : c.At (toolBlocks state.toolCallBaseIndex state.toolCalls)
    (toolUsed state.toolCallBaseIndex state.toolCalls)
  indexed : IndexedFrom state.toolCallBaseIndex state.toolCalls

theorem findTool_lt {toolIndex : Int} {incomingID : String} {place : Nat}
    (hf : state.findTool toolIndex incomingID = some place) : place < state.toolCalls.length := by
  obtain ⟨-, hp⟩ := Option.filter_eq_some_iff.1 hf
  by_contra hge
  rw [getElem?_eq_none (by omega)] at hp
  cases hp

theorem indexedFrom_set (hi : IndexedFrom base (pre ++ t :: post))
    (ht : t'.blockIndex = t.blockIndex) : IndexedFrom base (pre ++ t' :: post) := by
  have hmap : (pre ++ t' :: post).map (·.blockIndex) = (pre ++ t :: post).map (·.blockIndex) := by
    simp [ht]
  intro k u hu
  have hk := congrArg (fun l => l[k]?) hmap
  simp only [getElem?_map, hu, Option.map_some] at hk
  obtain ⟨u', hu', heq⟩ := Option.map_eq_some_iff.1 hk.symm
  rw [← heq, hi k u' hu']

/-- **One fragment**: its tool is found and fed, or a new tool is appended. -/
theorem toolStep_legal (hs : state.InTools c) (i : Nat) (t : ToolCallResponse) :
    ∃ c', c.run (state.toolStep h i t).2 = some c' ∧ (state.toolStep h i t).1.InTools c' ∧
      (state.toolStep h i t).1.toolCalls ≠ [] := by
  unfold toolStep
  dsimp only
  cases hf : state.findTool (t.index.getD i) (trimSpace t.id) with
  | some place =>
    have hlt := findTool_lt hf
    obtain ⟨pre, tool, post, hsplit, hlen⟩ : ∃ pre tool post,
        state.toolCalls = pre ++ tool :: post ∧ pre.length = place := by
      refine ⟨state.toolCalls.take place, state.toolCalls[place], state.toolCalls.drop (place + 1),
        ?_, by simp; omega⟩
      rw [← drop_eq_getElem_cons hlt, take_append_drop]
    have hat := hs.client
    have hindexed := hs.indexed
    rw [hsplit] at hat hindexed
    have hti : tool.blockIndex = state.toolCallBaseIndex + pre.length :=
      hindexed pre.length tool (by simp)
    have hget : state.toolCalls[place]? = some tool := by
      rw [hsplit, ← hlen]
      simp
    obtain ⟨c', hrun, hat'⟩ := feed_legal (h := h) t hat hti
    simp only [Option.getD_some, hget, Option.isSome_some, if_true]
    have hset : state.toolCalls.set place (tool.feed h t).1 = pre ++ (tool.feed h t).1 :: post := by
      rw [hsplit, ← hlen]
      simp
    refine ⟨c', hrun, ⟨hs.kind, ?_, ?_⟩, ?_⟩
    · dsimp only
      rw [hset]
      exact hat'
    · dsimp only
      rw [hset]
      exact indexedFrom_set hindexed (feed_blockIndex tool t)
    · rw [hset]
      simp
  | none =>
    have hget : state.toolCalls[state.toolCalls.length]? = none := getElem?_eq_none le_rfl
    simp only [Option.getD_none, hget, Option.isSome_none, Bool.false_eq_true, if_false]
    generalize hnew : ({ blockIndex := state.toolCallBaseIndex + state.toolCalls.length } :
      ClaudeStreamToolCall) = tool
    have hti : tool.blockIndex = state.toolCallBaseIndex + state.toolCalls.length := by rw [← hnew]
    have hoff : tool.started = false := by rw [← hnew]
    -- a tool that is not started says nothing of the blocks
    have hsame : startedAt state.toolCallBaseIndex (state.toolCalls ++ tool :: []) =
        startedAt state.toolCallBaseIndex state.toolCalls := by
      funext j
      unfold startedAt
      split
      · rfl
      · rcases Nat.lt_trichotomy (j - state.toolCallBaseIndex).toNat state.toolCalls.length with
          hj | hj | hj
        · rw [getElem?_append_left hj]
        · rw [hj, getElem?_append_right le_rfl, hget]
          simp [hoff]
        · rw [getElem?_eq_none (by simp; omega), getElem?_eq_none (by omega)]
    have hat : c.At (toolBlocks state.toolCallBaseIndex (state.toolCalls ++ tool :: []))
        (toolUsed state.toolCallBaseIndex (state.toolCalls ++ tool :: [])) := by
      have hblocks : toolBlocks state.toolCallBaseIndex (state.toolCalls ++ tool :: []) =
          toolBlocks state.toolCallBaseIndex state.toolCalls := by
        funext j
        rw [toolBlocks, toolBlocks, hsame]
      rw [hblocks]
      exact hs.client.imp fun j hj => by rw [toolUsed, hsame]; exact hj
    obtain ⟨c', hrun, hat'⟩ := feed_legal (h := h) t hat hti
    refine ⟨c', hrun, ⟨hs.kind, hat', ?_⟩, by simp⟩
    intro k u hu
    by_cases hk : k < state.toolCalls.length
    · rw [getElem?_append_left hk] at hu
      exact hs.indexed k u hu
    · have hk' : k = state.toolCalls.length := by
        have := (List.getElem?_eq_some_iff.1 hu).1
        simp at this
        omega
      subst hk'
      have : (tool.feed h t).1 = u := by simpa using hu
      rw [← this, feed_blockIndex, hti]

theorem toolSteps_legal (hs : state.InTools c) (i : Nat) (ts : List ToolCallResponse) :
    ∃ c', c.run (toolSteps h state i ts).2 = some c' ∧ (toolSteps h state i ts).1.InTools c' ∧
      (ts ≠ [] ∨ state.toolCalls ≠ [] → (toolSteps h state i ts).1.toolCalls ≠ []) := by
  induction ts generalizing state c i with
  | nil => exact ⟨c, rfl, hs, fun hne => hne.resolve_left (by simp)⟩
  | cons t ts ih =>
    obtain ⟨c₁, h₁, hs₁, hne₁⟩ := toolStep_legal (h := h) hs i t
    obtain ⟨c₂, h₂, hs₂, hne₂⟩ := ih hs₁ (i + 1)
    refine ⟨c₂, ?_, hs₂, fun _ => hne₂ (.inr hne₁)⟩
    rw [toolSteps, run_append h₁]
    exact h₂

theorem switchToTools_legal (hs : state.InStep c) (uuid : Nat → String) :
    ∃ c', c.run (state.switchToTools h uuid).2 = some c' ∧
      (state.switchToTools h uuid).1.InTools c' := by
  unfold switchToTools
  split
  · rename_i hl
    have hat := hs.client
    simp only [blocks, used, hl] at hat
    exact ⟨c, rfl, hl, hat, hs.indexed hl⟩
  · obtain ⟨⟨c₁, h₁, hs₁⟩, hnone⟩ := stopOpenBlocksAndAdvance_keeps (h := h) hs uuid
    generalize state.stopOpenBlocksAndAdvance h uuid = r at h₁ hs₁ hnone ⊢
    obtain ⟨stopped, events⟩ := r
    dsimp only at h₁ hs₁ hnone ⊢
    have hat := hs₁.client
    simp only [blocks, used, hnone] at hat
    refine ⟨c₁, h₁, rfl, ⟨hat.stage, fun i => ?_, fun i hi => .inl (hat.used i hi)⟩, nofun⟩
    rw [hat.opened i]
    simp [toolBlocks, startedAt]

theorem toolCallsBranch_keeps (hs : state.InStep c) (uuid : Nat → String)
    {ts : List ToolCallResponse} (hts : ts ≠ []) :
    Keeps c (state.toolCallsBranch h uuid ts) := by
  obtain ⟨c₁, h₁, hs₁⟩ := switchToTools_legal (h := h) hs uuid
  obtain ⟨c₂, h₂, hs₂, hne₂⟩ := toolSteps_legal (h := h) hs₁ 0 ts
  have hnonempty := hne₂ (.inl hts)
  refine ⟨c₂, ?_, ?_, fun _ => hs₂.indexed, fun _ => hnonempty⟩
  · simp only [toolCallsBranch]
    rw [run_append h₁, h₂]
  · have hat := hs₂.client
    simp only [toolCallsBranch, blocks, used, hs₂.kind]
    exact hat

/-! ### The end of the message -/

theorem clientVisibleUsage_state (incoming : Option U) :
    (state.clientVisibleUsage h incoming).1 =
      { state with usage := (state.clientVisibleUsage h incoming).1.usage } := by
  unfold clientVisibleUsage
  cases incoming <;> rfl

theorem clientVisibleUsage_inStep (hs : state.InStep c) (incoming : Option U) :
    (state.clientVisibleUsage h incoming).1.InStep c := by
  rw [clientVisibleUsage_state]
  exact hs.congr rfl rfl rfl rfl

theorem messageEnd_legal (hc : state.Closed c) (usage : Option C) (stopReason : String) :
    ∃ c', c.run (messageEnd usage stopReason : List (ClaudeResponse J C)) = some c' ∧
      c'.stage = .stopped :=
  At.finish hc (fun _ => rfl) _ _ rfl rfl

/-- **After a step of the stream** the client is in step, or the message is over. -/
def Advances (c : ClaudeClient) (r : ClaudeConvertInfo U × List (ClaudeResponse J C)) : Prop :=
  ∃ c', c.run r.2 = some c' ∧ (if r.1.done then c'.stage = .stopped else r.1.InStep c')

theorem finish_advances (hs : state.InStep c) (uuid : Nat → String) (usage : C)
    (stopReason : String) : Advances c (state.finish h uuid usage stopReason) := by
  obtain ⟨c₁, h₁, hclosed⟩ := appendStopOpenBlocks_closes (h := h) hs uuid
  obtain ⟨c₂, h₂, hstopped⟩ := messageEnd_legal (J := J) hclosed (some usage) stopReason
  refine ⟨c₂, ?_, hstopped⟩
  simp only [finish]
  rw [run_append h₁, h₂]

/-! ### The whole stream -/

/-- What the blocks say nothing of is as it was. -/
structure SameRest (state state' : ClaudeConvertInfo U) : Prop where
  done : state'.done = state.done
  usage : state'.usage = state.usage

theorem SameRest.trans {state₁ state₂ state₃ : ClaudeConvertInfo U} (h₁₂ : SameRest state₁ state₂)
    (h₂₃ : SameRest state₂ state₃) : SameRest state₁ state₃ :=
  ⟨h₂₃.done.trans h₁₂.done, h₂₃.usage.trans h₁₂.usage⟩

section Rest

variable (state) (uuid : Nat → String)

theorem startPendingToolBlocks_rest : SameRest state (state.startPendingToolBlocks h uuid).1 := by
  unfold startPendingToolBlocks
  split <;> exact ⟨rfl, rfl⟩

theorem stopOpenBlocksAndAdvance_rest :
    SameRest state (state.stopOpenBlocksAndAdvance h uuid).1 := by
  unfold stopOpenBlocksAndAdvance
  split
  · exact ⟨rfl, rfl⟩
  · have hrest := startPendingToolBlocks_rest (h := h) state uuid
    rw [appendStopOpenBlocks]
    dsimp only
    split <;> exact ⟨hrest.done, hrest.usage⟩

theorem stopOpenBlocksAndAdvance_kind :
    (state.stopOpenBlocksAndAdvance h uuid).1.lastMessagesType = .none := by
  unfold stopOpenBlocksAndAdvance
  split
  · assumption
  · dsimp only
    split <;> rfl

theorem openBlock_rest (kind : LastMessagesType) (block : ClaudeMediaMessage J C) :
    SameRest state (state.openBlock h uuid kind block).1 := by
  unfold openBlock
  split
  · exact ⟨rfl, rfl⟩
  · have hrest := stopOpenBlocksAndAdvance_rest (h := h) state uuid
    exact ⟨hrest.done, hrest.usage⟩

theorem appendCitationDeltas_rest (raw : Option String) :
    SameRest state (state.appendCitationDeltas h uuid raw).1 := by
  unfold appendCitationDeltas
  dsimp only
  split
  · exact ⟨rfl, rfl⟩
  · exact openBlock_rest state uuid _ _

theorem toolSteps_rest (i : Nat) (ts : List ToolCallResponse) :
    SameRest state (toolSteps h state i ts).1 := by
  induction ts generalizing state i with
  | nil => exact ⟨rfl, rfl⟩
  | cons t ts ih =>
    have hrest := ih (state.toolStep h i t).1 (i + 1)
    exact ⟨hrest.done, hrest.usage⟩

theorem toolCallsBranch_rest (ts : List ToolCallResponse) :
    SameRest state (state.toolCallsBranch h uuid ts).1 := by
  have hswitch : SameRest state (state.switchToTools h uuid).1 := by
    unfold switchToTools
    split
    · exact ⟨rfl, rfl⟩
    · have hrest := stopOpenBlocksAndAdvance_rest (h := h) state uuid
      exact ⟨hrest.done, hrest.usage⟩
  have hrest := hswitch.trans (toolSteps_rest (h := h) (state.switchToTools h uuid).1 0 ts)
  exact ⟨hrest.done, hrest.usage⟩

theorem contentBranch_rest (delta : StreamDelta) :
    SameRest state (state.contentBranch h uuid delta).1 := by
  unfold contentBranch
  dsimp only
  split
  · exact openBlock_rest state uuid _ _
  · split
    · exact openBlock_rest state uuid _ _
    · exact ⟨rfl, rfl⟩

theorem content_rest (delta : StreamDelta) :
    SameRest state (if delta.toolCalls ≠ [] then state.toolCallsBranch h uuid delta.toolCalls
      else state.contentBranch h uuid delta).1 := by
  split
  · exact toolCallsBranch_rest state uuid _
  · exact contentBranch_rest state uuid delta

theorem clientVisibleUsage_done (incoming : Option U) :
    (state.clientVisibleUsage h incoming).1.done = state.done := by
  rw [clientVisibleUsage_state]

theorem messageStart_done (r : StreamResponse U) :
    (state.messageStart h r).1.done = state.done := by
  unfold messageStart
  cases r.usage with
  | none => rfl
  | some usage =>
    dsimp only
    split <;> rfl

end Rest

/-- A usage ends the message, and without one nothing happens. -/
theorem usage_advances (hs : state.InStep c) (hdone : state.done = false) (uuid : Nat → String)
    (usage : Option U) (stopReason : ClaudeConvertInfo U → String) :
    Advances c (match state.clientVisibleUsage h usage with
      | (state, none) => (state, [])
      | (state, some usage) => state.finish h uuid usage (stopReason state)) := by
  have hs' := clientVisibleUsage_inStep (h := h) hs usage
  have hdone' := clientVisibleUsage_done (h := h) state usage
  generalize state.clientVisibleUsage h usage = r at hs' hdone' ⊢
  obtain ⟨state', usage'⟩ := r
  cases usage' with
  | none =>
    refine ⟨c, rfl, ?_⟩
    rw [if_neg (by rw [hdone', hdone]; simp)]
    exact hs'
  | some usage' => exact finish_advances hs' uuid usage' _

theorem usageBranch_advances (hs : state.InStep c) (hdone : state.done = false)
    (uuid : Nat → String) (usage : Option U) : Advances c (state.usageBranch h uuid usage) :=
  usage_advances hs hdone uuid usage stopReason

/-- One step after another. -/
theorem Advances.after {c' : ClaudeClient} {es : List (ClaudeResponse J C)}
    (hrun : c.run es = some c') {r : ClaudeConvertInfo U × List (ClaudeResponse J C)}
    (hr : Advances c' r) : Advances c (r.1, es ++ r.2) := by
  obtain ⟨c'', hrun', hafter⟩ := hr
  exact ⟨c'', by rw [run_append hrun, hrun'], hafter⟩

theorem content_keeps (hs : state.InStep c) (uuid : Nat → String) (delta : StreamDelta) :
    Keeps c (if delta.toolCalls ≠ [] then state.toolCallsBranch h uuid delta.toolCalls
      else state.contentBranch h uuid delta) := by
  split
  · rename_i hts
    exact toolCallsBranch_keeps hs uuid hts
  · exact contentBranch_keeps hs uuid delta

/-- **A chunk with a choice**: its content, its citations, and the end if it has a finish reason and
there is a usage. -/
theorem choiceBranch_advances (hs : state.InStep c) (hdone : state.done = false)
    (uuid : Nat → String) (chosenChoice : StreamChoice) (usage : Option U) :
    Advances c (state.choiceBranch h uuid chosenChoice usage) := by
  unfold choiceBranch
  extract_lets doneChunk state₀
  have hs₀ : state₀.InStep c := by
    simp only [state₀]
    split
    · exact hs.congr rfl rfl rfl rfl
    · exact hs
  have hdone₀ : state₀.done = false := by
    simp only [state₀]
    split <;> exact hdone
  obtain ⟨c₁, h₁, hs₁⟩ := content_keeps (h := h) hs₀ uuid chosenChoice.delta
  have hdone₁ := (content_rest (h := h) state₀ uuid chosenChoice.delta).done.trans hdone₀
  generalize (if chosenChoice.delta.toolCalls ≠ [] then
      state₀.toolCallsBranch h uuid chosenChoice.delta.toolCalls
      else state₀.contentBranch h uuid chosenChoice.delta) = content at h₁ hs₁ hdone₁ ⊢
  obtain ⟨state₁, events⟩ := content
  obtain ⟨c₂, h₂, hs₂⟩ := appendCitationDeltas_keeps (h := h) hs₁ uuid
    chosenChoice.delta.annotations
  have hdone₂ := (appendCitationDeltas_rest (h := h) state₁ uuid
    chosenChoice.delta.annotations).done
  dsimp only at h₁ h₂ hs₂ hdone₁ hdone₂ ⊢
  rw [hdone₁] at hdone₂
  generalize state₁.appendCitationDeltas h uuid chosenChoice.delta.annotations = citations
    at h₂ hs₂ hdone₂ ⊢
  obtain ⟨state₂, cited⟩ := citations
  have h₁₂ : c.run (events ++ cited) = some c₂ := by rw [run_append h₁, h₂]
  dsimp only at hdone₂ hs₂ ⊢
  have hstays : Advances c (state₂, events ++ cited) := by
    refine ⟨c₂, h₁₂, ?_⟩
    rw [if_neg (by rw [hdone₂]; simp)]
    exact hs₂
  by_cases hd : (doneChunk || state₂.done) = true
  · rw [if_pos hd]
    have husage := Advances.after h₁₂ (usage_advances (h := h) hs₂ hdone₂ uuid usage
      fun state => openAIFinishReasonToClaudeStopReason state.finishReason)
    generalize state₂.clientVisibleUsage h usage = visible at husage ⊢
    obtain ⟨state₃, usage'⟩ := visible
    cases usage' with
    | none => simpa using husage
    | some usage' => exact husage
  · rw [if_neg hd]
    exact hstays

/-- **One chunk**: the client stays in step, or the message is over. -/
theorem streamResponse_advances (hs : state.InStep c) (hdone : state.done = false)
    (uuid : Nat → String) (r : StreamResponse U) :
    Advances c (state.streamResponseOpenAI2Claude h false uuid r) := by
  unfold streamResponseOpenAI2Claude
  rw [if_neg (by rw [hdone]; simp)]
  cases r.choices with
  | nil => exact usageBranch_advances hs hdone uuid r.usage
  | cons chosenChoice _ => exact choiceBranch_advances hs hdone uuid chosenChoice r.usage

/-- **The first chunk**, with `message_start` before everything else. -/
theorem streamResponse_first (uuid : Nat → String) (r : StreamResponse U) :
    Advances {} (({} : ClaudeConvertInfo U).streamResponseOpenAI2Claude h true uuid r) := by
  have hstart : ∃ c, ({} : ClaudeClient).run
      (({} : ClaudeConvertInfo U).messageStart h r).2 = some c ∧
      (({} : ClaudeConvertInfo U).messageStart h r).1.InStep c := by
    refine ⟨{ stage := .during }, rfl, ?_⟩
    have hinit : ({} : ClaudeConvertInfo U).InStep { stage := .during } :=
      ⟨⟨rfl, fun _ => rfl, nofun⟩, nofun, nofun⟩
    unfold messageStart
    cases r.usage with
    | none => exact hinit
    | some usage =>
      dsimp only
      split
      · exact hinit.congr rfl rfl rfl rfl
      · exact hinit
  obtain ⟨c, hrun, hs⟩ := hstart
  have hdone := messageStart_done (h := h) ({} : ClaudeConvertInfo U) r
  unfold streamResponseOpenAI2Claude
  simp only [if_true]
  rw [if_neg (by simp)]
  generalize ({} : ClaudeConvertInfo U).messageStart h r = started at hrun hs hdone ⊢
  obtain ⟨state, events⟩ := started
  dsimp only at hrun hs hdone ⊢
  cases r.choices with
  | nil => exact .after hrun (usageBranch_advances hs hdone uuid r.usage)
  | cons chosenChoice _ =>
    exact .after hrun (choiceBranch_advances hs hdone uuid chosenChoice r.usage)

theorem streamRest_advances (rs : List ((Nat → String) × StreamResponse U))
    (hs : if state.done then c.stage = .stopped else state.InStep c) :
    Advances c (streamRest h state rs) := by
  induction rs generalizing state c with
  | nil => exact ⟨c, rfl, hs⟩
  | cons p rs ih =>
    have hone : Advances c (state.streamResponseOpenAI2Claude h false p.1 p.2) := by
      by_cases hdone : state.done = true
      · refine ⟨c, ?_, ?_⟩
        · simp [streamResponseOpenAI2Claude, hdone]
        · simp only [streamResponseOpenAI2Claude, hdone, if_true]
          simpa [hdone] using hs
      · rw [if_neg hdone] at hs
        exact streamResponse_advances hs (by simpa using hdone) p.1 p.2
    obtain ⟨c', hrun, hs'⟩ := hone
    exact .after hrun (ih hs')

/-- **Every chat stream converts to a legal Claude stream.** -/
theorem convertStream_legal (first : (Nat → String) × StreamResponse U)
    (rest : List ((Nat → String) × StreamResponse U)) (uuid : Nat → String) :
    LegalStream (convertStream h first rest uuid) := by
  obtain ⟨c₁, h₁, hs₁⟩ := streamResponse_first (h := h) first.1 first.2
  obtain ⟨c₂, h₂, hs₂⟩ := streamRest_advances (h := h) rest hs₁
  simp only [convertStream]
  generalize hlast : streamRest h _ rest = r at h₂ hs₂ ⊢
  obtain ⟨state, events⟩ := r
  rw [← run_append h₁] at h₂
  dsimp only at h₂ hs₂ ⊢
  by_cases hdone : state.done = true
  · rw [if_pos hdone] at hs₂
    refine ⟨c₂, ?_, hs₂⟩
    rw [run_append h₂, finalizeStreamResponseOpenAI2Claude, if_pos hdone]
    rfl
  · rw [if_neg hdone] at hs₂
    obtain ⟨c₃, h₃, hclosed⟩ := appendStopOpenBlocks_closes (h := h) hs₂ uuid
    rw [LegalStream, run_append h₂, finalizeStreamResponseOpenAI2Claude, if_neg hdone]
    dsimp only
    rw [run_append h₃]
    exact messageEnd_legal hclosed _ _

end ClaudeConvertInfo

end NexusTok.Convert
