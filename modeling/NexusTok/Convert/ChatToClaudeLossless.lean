import NexusTok.Convert.ChatToClaudeLegal

/-!
# Chat Completions to Claude Messages: what arrives

The text, the reasoning and the tool calls of the chunks against those that a client of the events
puts together.

* `Received` : what a client has of the events: the text, the thinking, and for every block index
  the tool blocks started there and their arguments.
* `Upstream` : what the chunks carry.  A fragment belongs to the tool with its id, else to that with
  its index, as in the converter, but over the whole stream and not only until the blocks are
  closed.
* `Upstream.Fits` : no chunk carries content of two kinds, or content after the end of the stream,
  or a fragment of a tool whose block is closed.
* `convertStream_lossless` : then the client receives all of it.  Without the condition content is
  lost: `bothKinds_lossy`.
-/

namespace NexusTok.Convert

open List Option Function

variable {J U C : Type}

/-! ### What a client receives -/

/-- What a client has of a stream of events. -/
structure Received where
  text : String := ""
  thinking : String := ""
  /-- The ids and names of the tool blocks started at an index. -/
  started : Int → List (String × String) := fun _ => []
  arguments : Int → String := fun _ => ""

namespace Received

/-- A delta of the block `i`. -/
def seeDelta (v : Received) (i : Int) (delta : ClaudeMediaMessage J C) : Received :=
  match delta.type with
  | "text_delta" => { v with text := v.text ++ delta.text.getD "" }
  | "thinking_delta" => { v with thinking := v.thinking ++ delta.thinking.getD "" }
  | "input_json_delta" =>
    { v with
      arguments := Function.update v.arguments i (v.arguments i ++ delta.partialJson.getD "") }
  | _ => v

def see (v : Received) (e : ClaudeResponse J C) : Received :=
  match e.type with
  | "content_block_start" =>
    match e.index, e.contentBlock with
    | some i, some block =>
      if block.type = "tool_use" then
        { v with started := Function.update v.started i (v.started i ++ [(block.id, block.name)]) }
      else v
    | _, _ => v
  | "content_block_delta" =>
    match e.index, e.delta with
    | some i, some delta => v.seeDelta i delta
    | _, _ => v
  | _ => v

def seeAll (v : Received) (es : List (ClaudeResponse J C)) : Received := es.foldl see v

@[simp] theorem seeAll_nil (v : Received) : v.seeAll ([] : List (ClaudeResponse J C)) = v := rfl

@[simp] theorem seeAll_cons (v : Received) (e : ClaudeResponse J C)
    (es : List (ClaudeResponse J C)) : v.seeAll (e :: es) = (v.see e).seeAll es := rfl

@[simp] theorem seeAll_append (v : Received) (es es' : List (ClaudeResponse J C)) :
    v.seeAll (es ++ es') = (v.seeAll es).seeAll es' :=
  foldl_append

@[simp] theorem see_stop (v : Received) (i : Int) :
    v.see (generateStopBlock i : ClaudeResponse J C) = v := rfl

theorem seeAll_stops {α : Type} (v : Received) (l : List α) (index : α → Int) :
    v.seeAll (l.map fun a => (generateStopBlock (index a) : ClaudeResponse J C)) = v := by
  induction l with
  | nil => rfl
  | cons a l ih => exact ih

@[simp] theorem seeAll_messageEnd (v : Received) (usage : Option C) (stopReason : String) :
    v.seeAll (messageEnd usage stopReason : List (ClaudeResponse J C)) = v := rfl

@[simp] theorem see_toolUse (v : Received) (h : ChatToClaudeHost J U C) (i : Int)
    (tool : ClaudeStreamToolCall) :
    v.see (blockStart i (toolUseBlock h tool)) =
      { v with started := Function.update v.started i (v.started i ++ [(tool.id, tool.name)]) } :=
  rfl

@[simp] theorem see_inputJson (v : Received) (i : Int) (arguments : String) :
    v.see (contentBlockDelta i (inputJsonDelta arguments) : ClaudeResponse J C) =
      { v with arguments := Function.update v.arguments i (v.arguments i ++ arguments) } := rfl

/-- Everything but the block `b` is as it was. -/
structure SameBut (v v' : Received) (b : Int) : Prop where
  text : v'.text = v.text
  thinking : v'.thinking = v.thinking
  started : ∀ i, i ≠ b → v'.started i = v.started i
  arguments : ∀ i, i ≠ b → v'.arguments i = v.arguments i

theorem SameBut.refl (v : Received) (b : Int) : v.SameBut v b :=
  ⟨rfl, rfl, fun _ _ => rfl, fun _ _ => rfl⟩

end Received

/-! ### What the chunks carry -/

/-- A tool call of the chunks. -/
structure UpstreamTool where
  id : String := ""
  name : String := ""
  arguments : String := ""
deriving DecidableEq, Repr

/-- One more fragment. -/
def UpstreamTool.join (tool : UpstreamTool) (t : ToolCallResponse) : UpstreamTool where
  id := if tool.id = "" then trimSpace t.id else tool.id
  name := if tool.name = "" then trimSpace t.function.name else tool.name
  arguments := tool.arguments ++ t.function.arguments

/-- What the chunks carry. -/
structure Upstream where
  text : String := ""
  reasoning : String := ""
  tools : List UpstreamTool := []
  byIndex : Int → Option Nat := fun _ => none
  byID : String → Option Nat := fun _ => none
  /-- The number of the tools before the last reasoning, text or citation. -/
  closed : Nat := 0
  /-- The first chunk has a usage with tokens. -/
  counted : Bool := false
  /-- A chunk without a choice or with a finish reason has come, and a usage with it or before. -/
  ended : Bool := false

namespace Upstream

/-- The tool of a fragment. -/
def find (u : Upstream) (toolIndex : Int) (incomingID : String) : Option Nat :=
  let byID := if incomingID ≠ "" then u.byID incomingID else none
  (byID.or (u.byIndex toolIndex)).filter fun place =>
    (u.tools[place]?).any fun tool => !differentID tool.id incomingID

/-- One fragment, the `i`-th of its chunk. -/
def addFragment (u : Upstream) (i : Nat) (t : ToolCallResponse) : Upstream :=
  let toolIndex := t.index.getD i
  let incomingID := trimSpace t.id
  let found := u.find toolIndex incomingID
  let place := found.getD u.tools.length
  let tool := (u.tools[place]?).getD {}
  { u with
    tools :=
      if found.isSome then u.tools.set place (tool.join t) else u.tools ++ [tool.join t]
    byIndex := Function.update u.byIndex toolIndex (some place)
    byID :=
      if tool.id = "" ∧ incomingID ≠ "" then Function.update u.byID incomingID (some place)
      else u.byID }

/-- The fragments of a chunk, from the `i`-th on. -/
def addFragments : Upstream → Nat → List ToolCallResponse → Upstream
  | u, _, [] => u
  | u, i, t :: ts => addFragments (u.addFragment i t) (i + 1) ts

def addChoice (h : ChatToClaudeHost J U C) (u : Upstream) (c : StreamChoice) : Upstream :=
  let u := { u with
    text := u.text ++ c.delta.getContentString
    reasoning := u.reasoning ++ c.delta.getReasoningContent }
  let u := u.addFragments 0 c.delta.toolCalls
  if c.delta.getContentString ≠ "" ∨ c.delta.getReasoningContent ≠ "" ∨
      h.chatAnnotationsToClaude c.delta.annotations "" ≠ [] then
    { u with closed := u.tools.length }
  else u

def add (h : ChatToClaudeHost J U C) (u : Upstream) (r : StreamResponse U) : Upstream :=
  let u := r.choices.foldl (addChoice h) u
  { u with
    ended := u.ended ||
      (r.choices.all fun c => c.finishReason.getD "" != "") && (u.counted || r.usage.isSome) }

/-- Before the chunks, of which `first` is the first. -/
def start (h : ChatToClaudeHost J U C) (first : StreamResponse U) : Upstream :=
  { counted := first.usage.any h.hasOpenAIUsageTokens }

theorem addFragments_ended (u : Upstream) (i : Nat) (ts : List ToolCallResponse) :
    (u.addFragments i ts).ended = u.ended ∧ (u.addFragments i ts).counted = u.counted := by
  induction ts generalizing u i with
  | nil => exact ⟨rfl, rfl⟩
  | cons t ts ih => exact ih (u.addFragment i t) (i + 1)

theorem addChoice_ended (h : ChatToClaudeHost J U C) (u : Upstream) (c : StreamChoice) :
    (u.addChoice h c).ended = u.ended ∧ (u.addChoice h c).counted = u.counted := by
  unfold addChoice
  dsimp only
  split <;> exact addFragments_ended _ _ _

theorem add_ended (h : ChatToClaudeHost J U C) {u : Upstream} (hu : u.ended = true)
    (r : StreamResponse U) : (u.add h r).ended = true := by
  have hfold : (r.choices.foldl (addChoice h) u).ended = true := by
    induction r.choices generalizing u with
    | nil => exact hu
    | cons c cs ih => exact ih ((addChoice_ended h u c).1.trans hu)
  simp [add, hfold]

/-- No fragment is of a tool before the last reasoning, text or citation. -/
def OpenOnly : Upstream → Nat → List ToolCallResponse → Prop
  | _, _, [] => True
  | u, i, t :: ts =>
    (∀ place, u.find (t.index.getD i) (trimSpace t.id) = some place → u.closed ≤ place) ∧
      OpenOnly (u.addFragment i t) (i + 1) ts

/-- **What a choice may carry.** -/
structure FitsChoice (u : Upstream) (d : StreamDelta) : Prop where
  /-- After the end there is no content. -/
  ended : u.ended = true → d.getContentString = "" ∧ d.getReasoningContent = "" ∧ d.toolCalls = []
  /-- Tool calls come without reasoning and text. -/
  tools : d.toolCalls ≠ [] → d.getContentString = "" ∧ d.getReasoningContent = ""
  /-- Reasoning comes without text. -/
  one : d.getContentString = "" ∨ d.getReasoningContent = ""
  /-- The fragments are of new tools or of tools that have open blocks. -/
  openOnly : u.OpenOnly 0 d.toolCalls

/-- **What the chunks may carry** so that none of it is lost. -/
def Fits (h : ChatToClaudeHost J U C) : Upstream → List (StreamResponse U) → Prop
  | _, [] => True
  | u, r :: rs => (∀ c ∈ r.choices, u.FitsChoice c.delta) ∧ Fits h (u.add h r) rs

end Upstream

/-- What all chunks carry. -/
def upstream (h : ChatToClaudeHost J U C) (first : StreamResponse U)
    (rest : List (StreamResponse U)) : Upstream :=
  (first :: rest).foldl (Upstream.add h) (Upstream.start h first)

/-- **Nothing is lost**: the client has the text and the reasoning of the chunks, and a block of its
own for each tool, with its name, its id if it has one, and its arguments.  No other index has a
tool block or arguments. -/
structure Lossless (v : Received) (u : Upstream) : Prop where
  text : v.text = u.text
  thinking : v.thinking = u.reasoning
  tools : ∃ block : Nat → Int,
    (∀ j k, j < k → k < u.tools.length → block j < block k) ∧
      (∀ (k : Nat) (tool : UpstreamTool), u.tools[k]? = some tool →
        v.arguments (block k) = tool.arguments ∧
          ∃ id, v.started (block k) = [(id, tool.name)] ∧ (tool.id = "" ∨ id = tool.id)) ∧
      ∀ b, (∀ k < u.tools.length, block k ≠ b) → v.started b = [] ∧ v.arguments b = ""

/-! ### One tool -/

/-- The client has the tool at the block `b`, or nothing there if the tool has no name. -/
def Received.Delivered (v : Received) (b : Int) (tool : UpstreamTool) : Prop :=
  if tool.name = "" then v.started b = [] ∧ v.arguments b = ""
  else v.arguments b = tool.arguments ∧
    ∃ id, v.started b = [(id, tool.name)] ∧ (tool.id = "" ∨ id = tool.id)

/-- The converter's tool call and the client's block `b` have what the chunks have of the tool: all
at the client once the block is started, and before that all in the pending arguments. -/
structure OnTheWay (v : Received) (b : Int) (t : ClaudeStreamToolCall) (tool : UpstreamTool) :
    Prop where
  id : t.id = tool.id
  name : t.name = tool.name
  sent : t.started = true → t.id ≠ "" ∧ t.name ≠ "" ∧ v.started b = [(t.id, t.name)] ∧
    v.arguments b = tool.arguments
  pending : t.started = false → v.started b = [] ∧ v.arguments b = "" ∧
    t.pendingArguments = tool.arguments

variable {h : ChatToClaudeHost J U C} {v : Received} {b : Int} {t : ClaudeStreamToolCall}
  {tool : UpstreamTool}

/-- What is at one block stays there if the client's view of the block stays. -/
theorem OnTheWay.congr (hw : OnTheWay v b t tool) {v' : Received}
    (hs : v'.started b = v.started b) (ha : v'.arguments b = v.arguments b) :
    OnTheWay v' b t tool :=
  ⟨hw.id, hw.name, fun ht => by rw [hs, ha]; exact hw.sent ht,
    fun ht => by rw [hs, ha]; exact hw.pending ht⟩

theorem Received.Delivered.congr (hd : v.Delivered b tool) {v' : Received}
    (hs : v'.started b = v.started b) (ha : v'.arguments b = v.arguments b) :
    v'.Delivered b tool := by
  unfold Received.Delivered at hd ⊢
  rw [hs, ha]
  exact hd

theorem seeAll_start (t : ClaudeStreamToolCall) (v : Received)
    (hs : v.started t.blockIndex = []) (ha : v.arguments t.blockIndex = "") :
    (v.seeAll (t.start h).2).started t.blockIndex = [(t.id, t.name)] ∧
      (v.seeAll (t.start h).2).arguments t.blockIndex = t.pendingArguments ∧
      v.SameBut (v.seeAll (t.start h).2) t.blockIndex := by
  unfold ClaudeStreamToolCall.start
  by_cases hp : t.pendingArguments ≠ ""
  · rw [if_pos hp]
    refine ⟨by simp [hs], by simp [ha], rfl, rfl, fun i hi => ?_, fun i hi => ?_⟩
    · simp [update_of_ne hi]
    · simp [update_of_ne hi]
  · rw [if_neg hp]
    rw [not_not] at hp
    refine ⟨by simp [hs], by simp [ha, hp], rfl, rfl, fun i hi => ?_, fun _ _ => rfl⟩
    simp [update_of_ne hi]

/-- **A fragment** is sent or kept, at its tool's block and nowhere else. -/
theorem feed_onTheWay (hw : OnTheWay v t.blockIndex t tool) (f : ToolCallResponse) :
    OnTheWay (v.seeAll (t.feed h f).2) t.blockIndex (t.feed h f).1 (tool.join f) ∧
      v.SameBut (v.seeAll (t.feed h f).2) t.blockIndex := by
  have hid : (t.join f).id = (tool.join f).id := by
    simp only [ClaudeStreamToolCall.join, UpstreamTool.join, hw.id]
  have hname : (t.join f).name = (tool.join f).name := by
    simp only [ClaudeStreamToolCall.join, UpstreamTool.join, hw.name]
  simp only [ClaudeStreamToolCall.feed]
  split
  · rename_i hstart
    -- the block is started with everything that was pending
    have hoff : (t.join f).started = false := by simpa using hstart.1
    have hoff₀ : t.started = false := hoff
    obtain ⟨hs, ha, hp⟩ := hw.pending hoff₀
    obtain ⟨hs', ha', hsame⟩ := seeAll_start (h := h) (t.join f) v hs ha
    refine ⟨⟨hid, hname, fun _ => ⟨hstart.2.1, hstart.2.2, hs', ?_⟩, by intros; contradiction⟩, hsame⟩
    refine ha'.trans ?_
    simp only [ClaudeStreamToolCall.join, UpstreamTool.join, hoff₀, hp]
    rfl
  · rename_i hstart
    by_cases ht : t.started = true
    · obtain ⟨hid₀, hname₀, hs, ha⟩ := hw.sent ht
      have hid' : (t.join f).id = t.id := by simp only [ClaudeStreamToolCall.join, if_neg hid₀]
      have hname' : (t.join f).name = t.name := by
        simp only [ClaudeStreamToolCall.join, if_neg hname₀]
      have ht' : (t.join f).started = true := ht
      by_cases hf : f.function.arguments ≠ ""
      · rw [if_pos ⟨ht', hf⟩]
        refine ⟨⟨hid, hname, fun _ => ?_, fun hoff => ?_⟩, rfl, rfl, fun _ _ => rfl, fun i hi => ?_⟩
        · rw [hid', hname']
          refine ⟨hid₀, hname₀, hs, ?_⟩
          simp [ClaudeStreamToolCall.join, UpstreamTool.join, ha]
        · rw [ht'] at hoff
          cases hoff
        · simp [ClaudeStreamToolCall.join, update_of_ne hi]
      · rw [if_neg fun hand => hf hand.2]
        rw [not_not] at hf
        refine ⟨⟨hid, hname, fun _ => ?_, fun hoff => ?_⟩, .refl v _⟩
        · rw [hid', hname']
          refine ⟨hid₀, hname₀, hs, ?_⟩
          simp [UpstreamTool.join, ha, hf]
        · rw [ht'] at hoff
          cases hoff
    · have hoff : t.started = false := by simpa using ht
      obtain ⟨hs, ha, hp⟩ := hw.pending hoff
      have hoff' : (t.join f).started = false := hoff
      rw [if_neg fun hand => by rw [hoff'] at hand; cases hand.1]
      refine ⟨⟨hid, hname, fun hon => ?_, fun _ => ⟨hs, ha, ?_⟩⟩, .refl v _⟩
      · rw [hoff'] at hon
        cases hon
      · simp only [ClaudeStreamToolCall.join, UpstreamTool.join, hoff, hp]
        rfl

/-- **A tool whose block is closed** is delivered. -/
theorem startPending_delivered (hw : OnTheWay v t.blockIndex t tool) (uuid : String) :
    (v.seeAll (t.startPending h uuid).2).Delivered t.blockIndex tool ∧
      v.SameBut (v.seeAll (t.startPending h uuid).2) t.blockIndex := by
  simp only [ClaudeStreamToolCall.startPending]
  split
  · rename_i hstays
    refine ⟨?_, .refl v _⟩
    unfold Received.Delivered
    by_cases ht : t.started = true
    · obtain ⟨-, hname, hs, ha⟩ := hw.sent ht
      rw [hw.name] at hname
      rw [if_neg hname]
      refine ⟨ha, tool.id, ?_, .inr rfl⟩
      rw [← hw.name, ← hw.id]
      exact hs
    · obtain ⟨hs, ha, -⟩ := hw.pending (by simpa using ht)
      have hname : tool.name = "" := by rw [← hw.name]; exact hstays.resolve_left ht
      rw [if_pos hname]
      exact ⟨hs, ha⟩
  · rename_i hstarts
    rw [not_or] at hstarts
    obtain ⟨hs, ha, hp⟩ := hw.pending (by simpa using hstarts.1)
    obtain ⟨hs', ha', hsame⟩ := seeAll_start (h := h)
      { t with id := if t.id = "" then "toolu_" ++ uuid else t.id } v hs ha
    refine ⟨?_, hsame⟩
    unfold Received.Delivered
    rw [if_neg (by rw [← hw.name]; exact hstarts.2)]
    refine ⟨ha'.trans hp, _, hs'.trans (by rw [hw.name]), ?_⟩
    by_cases hid : t.id = ""
    · exact .inl (hw.id.symm.trans hid)
    · rw [if_neg hid]
      exact .inr hw.id

/-! ### The state, the client and the chunks -/

/-- The places of the chunks' tools are places of tools. -/
structure Upstream.Known (u : Upstream) : Prop where
  byID : ∀ id place, u.byID id = some place →
    id ≠ "" ∧ ∃ tool, u.tools[place]? = some tool ∧ tool.id = id
  byIndex : ∀ i place, u.byIndex i = some place → place < u.tools.length

namespace ClaudeConvertInfo

/-- The first index after the open blocks. -/
def next (state : ClaudeConvertInfo U) : Int :=
  match state.lastMessagesType with
  | .none => state.index
  | .text | .thinking => state.index + 1
  | .tools => state.toolCallBaseIndex + state.toolCalls.length

/-- The tool calls of the state are the chunks' tools that are not closed. -/
structure Group (state : ClaudeConvertInfo U) (v : Received) (u : Upstream) (block : Nat → Int) :
    Prop where
  length : u.tools.length = u.closed + state.toolCalls.length
  place : ∀ (k : Nat) (t : ClaudeStreamToolCall), state.toolCalls[k]? = some t →
    t.blockIndex = state.toolCallBaseIndex + k ∧ block (u.closed + k) = t.blockIndex
  onTheWay : ∀ (k : Nat) (t : ClaudeStreamToolCall) (tool : UpstreamTool),
    state.toolCalls[k]? = some t → u.tools[u.closed + k]? = some tool →
      OnTheWay v t.blockIndex t tool
  byID : ∀ id place, state.toolCallByID id = some place ↔ u.byID id = some (u.closed + place)
  byIndex : ∀ i place, state.toolCallByIndex i = some place ↔ u.byIndex i = some (u.closed + place)

/-- **The state, the client and the chunks agree**, with the tools of the chunks at the blocks
`block`. -/
structure Agrees (state : ClaudeConvertInfo U) (v : Received) (u : Upstream) (block : Nat → Int) :
    Prop where
  text : v.text = u.text
  thinking : v.thinking = u.reasoning
  known : u.Known
  increasing : ∀ j k, j < k → k < u.tools.length → block j < block k
  below : ∀ k < u.tools.length, block k < state.next
  elsewhere : ∀ b, (∀ k < u.tools.length, block k ≠ b) → v.started b = [] ∧ v.arguments b = ""
  delivered : ∀ (k : Nat) (tool : UpstreamTool), u.tools[k]? = some tool → k < u.closed →
    v.Delivered (block k) tool
  group : if state.lastMessagesType = .tools then state.Group v u block
    else u.closed = u.tools.length

variable {state : ClaudeConvertInfo U} {v : Received} {u : Upstream} {block : Nat → Int}

/-- The converter finds the tool of a fragment among the open ones if it is there or nowhere. -/
theorem Group.findTool (hg : state.Group v u block) (hk : u.Known) {toolIndex : Int}
    {incomingID : String}
    (hopen : ∀ place, u.find toolIndex incomingID = some place → u.closed ≤ place) :
    u.find toolIndex incomingID = (state.findTool toolIndex incomingID).map (u.closed + ·) := by
  -- whether a tool may have the id is the same on both sides
  have hfits : ∀ q, (state.toolCalls[q]?).any (fun tool => !differentID tool.id incomingID) =
      (u.tools[u.closed + q]?).any (fun tool => !differentID tool.id incomingID) := by
    intro q
    by_cases hq : q < state.toolCalls.length
    · have hq' : u.closed + q < u.tools.length := by rw [hg.length]; omega
      have hid := (hg.onTheWay q _ _ (getElem?_eq_getElem hq)
        (getElem?_eq_getElem hq')).id
      rw [getElem?_eq_getElem hq, getElem?_eq_getElem hq', any_some,
        any_some, hid]
    · rw [getElem?_eq_none (by omega), getElem?_eq_none (by rw [hg.length]; omega)]
      rfl
  unfold Upstream.find at hopen ⊢
  unfold ClaudeConvertInfo.findTool
  dsimp only at hopen ⊢
  have hID : ∀ q, (if incomingID ≠ "" then state.toolCallByID incomingID else none) = some q ↔
      (if incomingID ≠ "" then u.byID incomingID else none) = some (u.closed + q) := by
    intro q
    split
    · exact hg.byID incomingID q
    · simp
  generalize hlocal : (if incomingID ≠ "" then state.toolCallByID incomingID else none) = lID at hID ⊢
  cases hglobal : (if incomingID ≠ "" then u.byID incomingID else none) with
  | some p =>
    rw [hglobal] at hopen hID
    -- the tool with the id has no other id
    have hp : u.byID incomingID = some p := by
      by_cases hne : incomingID ≠ ""
      · rwa [if_pos hne] at hglobal
      · rw [if_neg hne] at hglobal
        cases hglobal
    obtain ⟨-, tool, htool, hid⟩ := hk.byID _ _ hp
    have hfind : ((some p).or (u.byIndex toolIndex)).filter (fun place =>
        (u.tools[place]?).any fun tool => !differentID tool.id incomingID) = some p := by
      rw [some_or, filter_some, htool]
      simp [hid, differentID]
    obtain ⟨q, rfl⟩ := Nat.exists_eq_add_of_le (hopen p hfind)
    rw [hfind, (hID q).2 rfl, some_or, filter_some, hfits q, htool]
    simp [hid, differentID]
  | none =>
    rw [hglobal] at hopen hID
    have hlID : lID = none := by
      cases lID with
      | none => rfl
      | some q => cases (hID q).1 rfl
    rw [hlID, none_or, none_or]
    rw [none_or] at hopen
    cases hu : u.byIndex toolIndex with
    | none =>
      cases hs : state.toolCallByIndex toolIndex with
      | none => rfl
      | some q =>
        rw [(hg.byIndex toolIndex q).1 hs] at hu
        cases hu
    | some p =>
      by_cases hp : u.closed ≤ p
      · obtain ⟨q, rfl⟩ := Nat.exists_eq_add_of_le hp
        rw [(hg.byIndex toolIndex q).2 hu, filter_some, filter_some, hfits q]
        split <;> rfl
      · -- a tool that is closed does not fit
        have hs : state.toolCallByIndex toolIndex = none := by
          cases hs : state.toolCallByIndex toolIndex with
          | none => rfl
          | some q =>
            rw [(hg.byIndex toolIndex q).1 hs] at hu
            cases hu
            omega
        rw [hs]
        rw [hu] at hopen
        cases hf : (some p).filter (fun place =>
            (u.tools[place]?).any fun tool => !differentID tool.id incomingID) with
        | none => rfl
        | some p' =>
          have hpp : p' = p := by
            have := (filter_eq_some_iff.1 hf).1
            exact (some.inj this).symm
          rw [hpp] at hf
          exact absurd (hopen p hf) hp

section

variable (hs : state.Agrees v u block)
include hs

theorem Agrees.inGroup (hl : state.lastMessagesType = .tools) : state.Group v u block := by
  have := hs.group
  rwa [if_pos hl] at this

theorem Agrees.block_ne {j k : Nat} (hj : j < u.tools.length)
    (hk : k < u.tools.length) (hne : j ≠ k) : block j ≠ block k := by
  intro heq
  rcases Nat.lt_or_gt_of_ne hne with hlt | hlt
  · have := hs.increasing j k hlt hk
    omega
  · have := hs.increasing k j hlt hj
    omega

theorem Agrees.newTool (hl : state.lastMessagesType = .tools) :
    ({ state with
        toolCalls := state.toolCalls ++
          [{ blockIndex := state.toolCallBaseIndex + state.toolCalls.length }] } :
        ClaudeConvertInfo U).Agrees v { u with tools := u.tools ++ [{}] }
      (Function.update block u.tools.length
        (state.toolCallBaseIndex + state.toolCalls.length)) := by
  have hg := hs.inGroup hl
  have hnext : state.next = state.toolCallBaseIndex + state.toolCalls.length := by
    simp only [next, hl]
  have hold : ∀ k < u.tools.length, Function.update block u.tools.length
      (state.toolCallBaseIndex + state.toolCalls.length) k = block k :=
    fun k hk => update_of_ne (by omega) _ _
  have hget : ∀ (k : Nat) (tool : UpstreamTool), k ≠ u.tools.length →
      (u.tools ++ [({} : UpstreamTool)])[k]? = some tool → u.tools[k]? = some tool := by
    intro k tool hk htool
    have hlt := (List.getElem?_eq_some_iff.1 htool).1
    rw [length_append, length_singleton] at hlt
    rwa [getElem?_append_left (by omega)] at htool
  have hgett : ∀ (k : Nat) (t : ClaudeStreamToolCall), k ≠ state.toolCalls.length →
      (state.toolCalls ++
        [({ blockIndex := state.toolCallBaseIndex + state.toolCalls.length } :
          ClaudeStreamToolCall)])[k]? = some t → state.toolCalls[k]? = some t := by
    intro k t hk ht
    have hlt := (List.getElem?_eq_some_iff.1 ht).1
    rw [length_append, length_singleton] at hlt
    rwa [getElem?_append_left (by omega)] at ht
  refine ⟨hs.text, hs.thinking, ⟨fun id place hp => ?_, fun i place hp => ?_⟩, ?_, ?_, ?_, ?_, ?_⟩
  · obtain ⟨hne, tool, htool, hid⟩ := hs.known.byID id place hp
    refine ⟨hne, tool, ?_, hid⟩
    have hlt := (List.getElem?_eq_some_iff.1 htool).1
    dsimp only
    rwa [getElem?_append_left hlt]
  · have := hs.known.byIndex i place hp
    simp only [length_append, length_singleton]
    omega
  · intro j k hjk hk
    simp only [length_append, length_singleton] at hk
    by_cases hkl : k = u.tools.length
    · subst hkl
      rw [hold j hjk, update_self, ← hnext]
      exact hs.below j hjk
    · rw [hold j (by omega), hold k (by omega)]
      exact hs.increasing j k hjk (by omega)
  · intro k hk
    simp only [length_append, length_singleton] at hk
    simp only [next, hl, length_append, length_singleton]
    by_cases hkl : k = u.tools.length
    · subst hkl
      rw [update_self]
      push_cast
      omega
    · have hbelow := hs.below k (by omega)
      rw [hnext] at hbelow
      rw [hold k (by omega)]
      push_cast
      omega
  · intro b hb
    refine hs.elsewhere b fun k hk => ?_
    rw [← hold k hk]
    refine hb k ?_
    simp only [length_append, length_singleton]
    omega
  · intro k tool htool hk
    have hlen := hg.length
    dsimp only at hk
    rw [hold k (by omega)]
    exact hs.delivered k tool (hget k tool (by omega) htool) hk
  · rw [if_pos hl]
    refine ⟨?_, fun k t ht => ?_, fun k t tool ht htool => ?_, hg.byID, hg.byIndex⟩
    · simp only [length_append, length_singleton, hg.length]
      omega
    · by_cases hk : k = state.toolCalls.length
      · subst hk
        have ht' : ({ blockIndex := state.toolCallBaseIndex + state.toolCalls.length } :
            ClaudeStreamToolCall) = t := by simpa using ht
        subst ht'
        refine ⟨rfl, ?_⟩
        rw [← hg.length, update_self]
      · have ht' := hgett k t hk ht
        have hlt := (List.getElem?_eq_some_iff.1 ht').1
        refine ⟨(hg.place k t ht').1, ?_⟩
        have hk' : u.closed + k < u.tools.length := by rw [hg.length]; omega
        dsimp only
        rw [hold _ hk']
        exact (hg.place k t ht').2
    · by_cases hk : k = state.toolCalls.length
      · subst hk
        have ht' : ({ blockIndex := state.toolCallBaseIndex + state.toolCalls.length } :
            ClaudeStreamToolCall) = t := by simpa using ht
        have htool' : ({} : UpstreamTool) = tool := by
          dsimp only at htool
          rw [← hg.length] at htool
          simpa using htool
        subst ht'
        subst htool'
        have hfree := hs.elsewhere (state.toolCallBaseIndex + state.toolCalls.length)
          fun k hk => by
            have := hs.below k hk
            omega
        exact ⟨rfl, rfl, nofun, fun _ => ⟨hfree.1, hfree.2, rfl⟩⟩
      · exact hg.onTheWay k t tool (hgett k t hk ht)
          (hget _ tool (by rw [hg.length]; omega) htool)

/-- A fragment of the tool at a place. -/
theorem Agrees.feed (hl : state.lastMessagesType = .tools)
    {q : Nat} {t : ClaudeStreamToolCall} {tool : UpstreamTool}
    (ht : state.toolCalls[q]? = some t) (htool : u.tools[u.closed + q]? = some tool)
    (f : ToolCallResponse) (toolIndex : Int) :
    ({ state with
        toolCalls := state.toolCalls.set q (t.feed h f).1
        toolCallByIndex := Function.update state.toolCallByIndex toolIndex (some q)
        toolCallByID :=
          if t.id = "" ∧ trimSpace f.id ≠ "" then
            Function.update state.toolCallByID (trimSpace f.id) (some q)
          else state.toolCallByID } : ClaudeConvertInfo U).Agrees (v.seeAll (t.feed h f).2)
      { u with
        tools := u.tools.set (u.closed + q) (tool.join f)
        byIndex := Function.update u.byIndex toolIndex (some (u.closed + q))
        byID :=
          if tool.id = "" ∧ trimSpace f.id ≠ "" then
            Function.update u.byID (trimSpace f.id) (some (u.closed + q))
          else u.byID } block := by
  have hg := hs.inGroup hl
  have hq := (List.getElem?_eq_some_iff.1 ht).1
  have hq' := (List.getElem?_eq_some_iff.1 htool).1
  have hw := hg.onTheWay q t tool ht htool
  have hblock := (hg.place q t ht).2
  obtain ⟨hfed, hsame⟩ := feed_onTheWay (h := h) hw f
  -- other tools keep their blocks
  have hother : ∀ k < u.tools.length, k ≠ u.closed + q → block k ≠ t.blockIndex := by
    intro k hk hne
    rw [← hblock]
    exact hs.block_ne hk hq' hne
  refine ⟨hsame.text.trans hs.text, hsame.thinking.trans hs.thinking,
    ⟨fun id place hp => ?_, fun i place hp => ?_⟩, ?_, ?_, ?_, ?_, ?_⟩
  · -- the places of ids
    have hcase : (tool.id = "" ∧ trimSpace f.id = id ∧ id ≠ "" ∧ place = u.closed + q) ∨
        u.byID id = some place := by
      dsimp only at hp
      split at hp
      · rename_i hnew
        by_cases hid : id = trimSpace f.id
        · subst hid
          rw [update_self] at hp
          exact .inl ⟨hnew.1, rfl, hnew.2, (some.inj hp).symm⟩
        · rw [update_of_ne hid] at hp
          exact .inr hp
      · exact .inr hp
    rcases hcase with ⟨hnone, hid, hne, rfl⟩ | hp
    · refine ⟨hne, tool.join f, ?_, ?_⟩
      · dsimp only
        rw [List.getElem?_set_self hq']
      · simp only [UpstreamTool.join, if_pos hnone, hid]
    · obtain ⟨hne, tool', htool', hid⟩ := hs.known.byID id place hp
      by_cases hpl : place = u.closed + q
      · subst hpl
        rw [htool] at htool'
        cases htool'
        refine ⟨hne, tool.join f, ?_, ?_⟩
        · dsimp only
          rw [List.getElem?_set_self hq']
        · subst hid
          simp only [UpstreamTool.join, if_neg hne]
      · refine ⟨hne, tool', ?_, hid⟩
        dsimp only
        rw [List.getElem?_set_ne (Ne.symm hpl)]
        exact htool'
  · -- the places of indexes
    dsimp only at hp ⊢
    rw [List.length_set]
    by_cases hi : i = toolIndex
    · subst hi
      rw [update_self] at hp
      rw [← some.inj hp]
      exact hq'
    · rw [update_of_ne hi] at hp
      exact hs.known.byIndex i place hp
  · dsimp only
    rw [List.length_set]
    exact hs.increasing
  · intro k hk
    dsimp only at hk
    rw [List.length_set] at hk
    have hbelow := hs.below k hk
    simp only [next, hl, List.length_set] at hbelow ⊢
    exact hbelow
  · intro b hb
    dsimp only at hb
    rw [List.length_set] at hb
    have hne : b ≠ t.blockIndex := by
      rw [← hblock]
      exact (hb _ hq').symm
    rw [hsame.started b hne, hsame.arguments b hne]
    exact hs.elsewhere b hb
  · intro k tool' htool' hk
    dsimp only at htool' hk
    rw [List.getElem?_set_ne (by omega)] at htool'
    have hne := hother k (by omega) (by omega)
    exact (hs.delivered k tool' htool' hk).congr (hsame.started _ hne) (hsame.arguments _ hne)
  · rw [if_pos hl]
    have hfedIndex := feed_blockIndex (h := h) t f
    refine ⟨?_, fun k t' ht' => ?_, fun k t' tool' ht' htool' => ?_, fun id place => ?_,
      fun i place => ?_⟩
    · dsimp only
      rw [List.length_set, List.length_set]
      exact hg.length
    · dsimp only at ht' ⊢
      by_cases hk : k = q
      · subst hk
        rw [List.getElem?_set_self hq] at ht'
        cases ht'
        rw [hfedIndex]
        exact hg.place k t ht
      · rw [List.getElem?_set_ne (Ne.symm hk)] at ht'
        exact hg.place k t' ht'
    · dsimp only at ht' htool'
      by_cases hk : k = q
      · subst hk
        rw [List.getElem?_set_self hq] at ht'
        rw [List.getElem?_set_self hq'] at htool'
        cases ht'
        cases htool'
        rw [hfedIndex]
        exact hfed
      · rw [List.getElem?_set_ne (Ne.symm hk)] at ht'
        rw [List.getElem?_set_ne (by omega)] at htool'
        have hlt := (List.getElem?_eq_some_iff.1 htool').1
        have hne := hother (u.closed + k) hlt (by omega)
        rw [(hg.place k t' ht').2] at hne
        exact (hg.onTheWay k t' tool' ht' htool').congr (hsame.started _ hne)
          (hsame.arguments _ hne)
    · dsimp only
      rw [hw.id]
      split
      · by_cases hid : id = trimSpace f.id
        · rw [hid, update_self, update_self]
          simp
        · rw [update_of_ne hid, update_of_ne hid]
          exact hg.byID id place
      · exact hg.byID id place
    · dsimp only
      by_cases hi : i = toolIndex
      · rw [hi, update_self, update_self]
        simp
      · rw [update_of_ne hi, update_of_ne hi]
        exact hg.byIndex i place

/-- **One fragment** of a new tool or of one with an open block. -/
theorem Agrees.toolStep (hl : state.lastMessagesType = .tools) (i : Nat) (f : ToolCallResponse)
    (hopen : ∀ place, u.find (f.index.getD i) (trimSpace f.id) = some place → u.closed ≤ place) :
    ∃ block', (state.toolStep h i f).1.Agrees (v.seeAll (state.toolStep h i f).2)
      (u.addFragment i f) block' := by
  have hg := hs.inGroup hl
  have hfind := hg.findTool hs.known hopen
  unfold ClaudeConvertInfo.toolStep Upstream.addFragment
  dsimp only
  rw [hfind]
  cases hf : state.findTool (f.index.getD i) (trimSpace f.id) with
  | some q =>
    have hq := findTool_lt hf
    have hq' : u.closed + q < u.tools.length := by rw [hg.length]; omega
    have ht := getElem?_eq_getElem hq
    have htool := getElem?_eq_getElem hq'
    simp only [map_some, getD_some, isSome_some, if_true, ht, htool]
    exact ⟨block, hs.feed hl ht htool f (f.index.getD i)⟩
  | none =>
    have hnew := hs.newTool hl
    have ht : (state.toolCalls ++ [({ blockIndex := state.toolCallBaseIndex +
        state.toolCalls.length } : ClaudeStreamToolCall)])[state.toolCalls.length]? =
        some { blockIndex := state.toolCallBaseIndex + state.toolCalls.length } := by simp
    have htool : (u.tools ++ [({} : UpstreamTool)])[u.closed + state.toolCalls.length]? =
        some {} := by
      rw [← hg.length]
      simp
    have hfed := hnew.feed (h := h) hl ht htool f (f.index.getD i)
    refine ⟨Function.update block u.tools.length
      (state.toolCallBaseIndex + state.toolCalls.length), ?_⟩
    dsimp only at hfed
    rw [← hg.length] at hfed
    simpa using hfed

theorem Agrees.toolSteps (hl : state.lastMessagesType = .tools)
    (i : Nat) (fs : List ToolCallResponse) (hopen : u.OpenOnly i fs) :
    ∃ block', (toolSteps h state i fs).1.Agrees (v.seeAll (toolSteps h state i fs).2)
        (u.addFragments i fs) block' ∧
      (toolSteps h state i fs).1.lastMessagesType = .tools := by
  induction fs generalizing state v u block i with
  | nil => exact ⟨block, hs, hl⟩
  | cons f fs ih =>
    obtain ⟨block₁, hs₁⟩ := hs.toolStep (h := h) hl i f hopen.1
    obtain ⟨block₂, hs₂, hl₂⟩ := ih hs₁ hl (i + 1) hopen.2
    refine ⟨block₂, ?_, hl₂⟩
    simp only [ClaudeConvertInfo.toolSteps, Received.seeAll_append]
    exact hs₂

end

/-! ### The ends of blocks -/

/-- All tools of a group delivered: the client sees nothing new outside their blocks. -/
theorem startPending_all (uuid : Nat → String) (ts : List ClaudeStreamToolCall)
    (tools : List UpstreamTool) (hlen : ts.length = tools.length) (base : Int) (n : Nat)
    (hi : IndexedFrom base ts) (v : Received)
    (hw : ∀ (k : Nat) (t : ClaudeStreamToolCall) (tool : UpstreamTool), ts[k]? = some t →
      tools[k]? = some tool → OnTheWay v t.blockIndex t tool) :
    ∃ v', v.seeAll ((ts.zipIdx n).flatMap fun t => (t.1.startPending h (uuid t.2)).2) = v' ∧
      v'.text = v.text ∧ v'.thinking = v.thinking ∧
      (∀ (k : Nat) (t : ClaudeStreamToolCall) (tool : UpstreamTool), ts[k]? = some t →
        tools[k]? = some tool → v'.Delivered t.blockIndex tool) ∧
      ∀ b, b < base ∨ base + ts.length ≤ b →
        v'.started b = v.started b ∧ v'.arguments b = v.arguments b := by
  induction ts generalizing tools base n v with
  | nil => exact ⟨v, rfl, rfl, rfl, nofun, fun _ _ => ⟨rfl, rfl⟩⟩
  | cons t ts ih =>
    cases tools with
    | nil => simp at hlen
    | cons tool tools =>
      have hti : t.blockIndex = base := by simpa using hi 0 t rfl
      have hrest : IndexedFrom (base + 1) ts := by
        intro k t' ht'
        have := hi (k + 1) t' ht'
        push_cast at this
        omega
      obtain ⟨hd, hsame⟩ := startPending_delivered (h := h) (hw 0 t tool rfl rfl) (uuid n)
      generalize hv₁ : v.seeAll (t.startPending h (uuid n)).2 = v₁ at hd hsame
      obtain ⟨v', hv', htext, hthinking, hdelivered, houtside⟩ := ih tools (by simpa using hlen)
        (base + 1) (n + 1) hrest v₁ fun k t' tool' ht' htool' => by
          have hne : t'.blockIndex ≠ t.blockIndex := by
            rw [hrest k t' ht', hti]
            omega
          exact (hw (k + 1) t' tool' ht' htool').congr (hsame.started _ hne) (hsame.arguments _ hne)
      refine ⟨v', ?_, htext.trans hsame.text, hthinking.trans hsame.thinking, ?_, ?_⟩
      · rw [zipIdx_cons, flatMap_cons, Received.seeAll_append, hv₁, hv']
      · intro k t' tool' ht' htool'
        cases k with
        | zero =>
          cases ht'
          cases htool'
          obtain ⟨hs', ha'⟩ := houtside t.blockIndex (.inl (by omega))
          exact hd.congr hs' ha'
        | succ k => exact hdelivered k t' tool' ht' htool'
      · intro b hb
        rw [length_cons] at hb
        push_cast at hb
        have hne : b ≠ t.blockIndex := by omega
        obtain ⟨hs', ha'⟩ := houtside b (by omega)
        exact ⟨hs'.trans (hsame.started b hne), ha'.trans (hsame.arguments b hne)⟩

/-- What the client has of all tools, when no block of a tool is open. -/
structure Complete (v : Received) (u : Upstream) (block : Nat → Int) : Prop where
  text : v.text = u.text
  thinking : v.thinking = u.reasoning
  increasing : ∀ j k, j < k → k < u.tools.length → block j < block k
  delivered : ∀ (k : Nat) (tool : UpstreamTool), u.tools[k]? = some tool →
    v.Delivered (block k) tool
  elsewhere : ∀ b, (∀ k < u.tools.length, block k ≠ b) → v.started b = [] ∧ v.arguments b = ""

theorem seeAll_stopOpenBlocks (v : Received) :
    v.seeAll (state.stopOpenBlocks : List (ClaudeResponse J C)) = v := by
  unfold stopOpenBlocks
  split
  · rfl
  · rfl
  · split
    · exact v.seeAll_stops _ _
    · exact v.seeAll_stops _ _
  · rfl

/-- **The open blocks end**: all tools so far are delivered. -/
theorem Agrees.appendStopOpenBlocks (hs : state.Agrees v u block) (uuid : Nat → String) :
    Complete (v.seeAll (state.appendStopOpenBlocks h uuid).2) u block := by
  simp only [ClaudeConvertInfo.appendStopOpenBlocks, Received.seeAll_append, seeAll_stopOpenBlocks]
  unfold startPendingToolBlocks
  split
  · rename_i hl
    have hclosed := hs.group
    rw [if_neg hl] at hclosed
    refine ⟨hs.text, hs.thinking, hs.increasing, fun k tool htool => ?_, hs.elsewhere⟩
    have hk := (List.getElem?_eq_some_iff.1 htool).1
    exact hs.delivered k tool htool (by omega)
  · rename_i hl
    rw [not_not] at hl
    have hg := hs.inGroup hl
    obtain ⟨v', hv', htext, hthinking, hdelivered, houtside⟩ := startPending_all (h := h) uuid
      state.toolCalls (u.tools.drop u.closed) (by rw [length_drop, hg.length]; omega)
      state.toolCallBaseIndex 0 (fun k t ht => (hg.place k t ht).1) v
      fun k t tool ht htool => by
        rw [getElem?_drop] at htool
        exact hg.onTheWay k t tool ht htool
    dsimp only
    rw [flatMap_map, hv']
    -- the blocks of the tools that were delivered before are below the group
    have hlow : ∀ k, k < u.closed → block k < state.toolCallBaseIndex := by
      intro k hk
      cases htools : state.toolCalls with
      | nil =>
        have hlen := hg.length
        have hbelow := hs.below k (by omega)
        simp only [next, hl, htools, length_nil] at hbelow
        simpa using hbelow
      | cons t ts =>
        have hlen := hg.length
        rw [htools, length_cons] at hlen
        obtain ⟨hti, hblock⟩ := hg.place 0 t (by rw [htools]; rfl)
        have := hs.increasing k u.closed hk (by omega)
        rw [Nat.add_zero] at hblock
        push_cast at hti
        omega
    refine ⟨htext.trans hs.text, hthinking.trans hs.thinking, hs.increasing, ?_, ?_⟩
    · intro k tool htool
      have hk := (List.getElem?_eq_some_iff.1 htool).1
      by_cases hclosed : k < u.closed
      · obtain ⟨hs', ha'⟩ := houtside (block k) (.inl (hlow k hclosed))
        exact (hs.delivered k tool htool hclosed).congr hs' ha'
      · obtain ⟨q, rfl⟩ := Nat.exists_eq_add_of_le (Nat.le_of_not_lt hclosed)
        have hq : q < state.toolCalls.length := by rw [hg.length] at hk; omega
        have ht := getElem?_eq_getElem hq
        rw [(hg.place q _ ht).2]
        exact hdelivered q _ tool ht (by rw [getElem?_drop]; exact htool)
    · intro b hb
      have hout : b < state.toolCallBaseIndex ∨
          state.toolCallBaseIndex + state.toolCalls.length ≤ b := by
        by_contra hin
        rw [not_or] at hin
        obtain ⟨q, hq⟩ : ∃ q : Nat, b = state.toolCallBaseIndex + q :=
          ⟨(b - state.toolCallBaseIndex).toNat, by omega⟩
        have hlt : q < state.toolCalls.length := by omega
        obtain ⟨hti, hblock⟩ := hg.place q _ (getElem?_eq_getElem hlt)
        exact hb (u.closed + q) (by rw [hg.length]; omega) (by rw [hblock, hti, hq])
      obtain ⟨hs', ha'⟩ := houtside b hout
      rw [hs', ha']
      exact hs.elsewhere b hb

/-- Everything delivered, with no open block of a tool. -/
theorem Complete.agrees (hc : Complete v u block) (hk : u.Known)
    (hl : state.lastMessagesType ≠ .tools) (hbelow : ∀ k < u.tools.length, block k < state.next) :
    state.Agrees v { u with closed := u.tools.length } block := by
  refine ⟨hc.text, hc.thinking, ⟨hk.byID, hk.byIndex⟩, hc.increasing, hbelow, hc.elsewhere,
    fun k tool htool _ => hc.delivered k tool htool, ?_⟩
  rw [if_neg hl]

section

variable (hs : state.Agrees v u block)
include hs

/-- Without an open block of a tool every tool is closed. -/
theorem Agrees.closed_eq (hl : state.lastMessagesType ≠ .tools) :
    { u with closed := u.tools.length } = u := by
  have hclosed := hs.group
  rw [if_neg hl] at hclosed
  rw [← hclosed]

/-- **The open blocks end and the index is free.** -/
theorem Agrees.stopOpenBlocksAndAdvance (uuid : Nat → String) :
    (state.stopOpenBlocksAndAdvance h uuid).1.Agrees
      (v.seeAll (state.stopOpenBlocksAndAdvance h uuid).2) { u with closed := u.tools.length }
      block := by
  have hcomplete := hs.appendStopOpenBlocks (h := h) uuid
  have hindex : (state.appendStopOpenBlocks h uuid).1.next = state.next ∧
      (state.appendStopOpenBlocks h uuid).1.lastMessagesType = state.lastMessagesType := by
    simp only [ClaudeConvertInfo.appendStopOpenBlocks]
    unfold startPendingToolBlocks
    split
    · exact ⟨rfl, rfl⟩
    · rename_i hl
      rw [not_not] at hl
      simp [next, hl]
  unfold ClaudeConvertInfo.stopOpenBlocksAndAdvance
  split
  · rename_i hl
    have hne : state.lastMessagesType ≠ .tools := by rw [hl]; simp
    rw [hs.closed_eq hne]
    exact hs
  · generalize state.appendStopOpenBlocks h uuid = r at hcomplete hindex ⊢
    obtain ⟨stopped, events⟩ := r
    dsimp only at hcomplete hindex ⊢
    have hbelow : ∀ k < u.tools.length, block k < stopped.next := by
      rw [hindex.1]
      exact hs.below
    split
    · rename_i hl
      refine hcomplete.agrees hs.known (by simp) fun k hk => ?_
      have := hbelow k hk
      simp only [next, hl] at this ⊢
      exact this
    · refine hcomplete.agrees hs.known (by simp) fun k hk => ?_
      have := hbelow k hk
      simp only [next] at this ⊢
      split at this <;> simp_all <;> omega

/-- Fields that say nothing of the blocks. -/
theorem Agrees.congr {state' : ClaudeConvertInfo U}
    (hl : state'.lastMessagesType = state.lastMessagesType) (hn : state'.next = state.next)
    (hb : state'.toolCallBaseIndex = state.toolCallBaseIndex)
    (ht : state'.toolCalls = state.toolCalls) (hi : state'.toolCallByIndex = state.toolCallByIndex)
    (hd : state'.toolCallByID = state.toolCallByID) : state'.Agrees v u block := by
  refine ⟨hs.text, hs.thinking, hs.known, hs.increasing, by rw [hn]; exact hs.below, hs.elsewhere,
    hs.delivered, ?_⟩
  rw [hl]
  have hg := hs.group
  split
  · rename_i htools
    rw [if_pos htools] at hg
    refine ⟨?_, ?_, ?_, ?_, ?_⟩
    · rw [ht]
      exact hg.length
    · rw [ht, hb]
      exact hg.place
    · rw [ht]
      exact hg.onTheWay
    · rw [hd]
      exact hg.byID
    · rw [hi]
      exact hg.byIndex
  · rename_i htools
    rwa [if_neg htools] at hg

/-! ### The content of a choice -/

theorem Agrees.openBlock (uuid : Nat → String)
    (kind : LastMessagesType) (media : ClaudeMediaMessage J C) (hk : kind ≠ .tools)
    (hk' : kind ≠ .none) (hm : media.type ≠ "tool_use") :
    (state.openBlock h uuid kind media).1.Agrees (v.seeAll (state.openBlock h uuid kind media).2)
        { u with closed := u.tools.length } block ∧
      (state.openBlock h uuid kind media).1.lastMessagesType = kind := by
  unfold ClaudeConvertInfo.openBlock
  split
  · rename_i hl
    rw [hs.closed_eq (by rw [hl]; exact hk)]
    exact ⟨hs, hl⟩
  · have hstopped := hs.stopOpenBlocksAndAdvance (h := h) uuid
    have hnone := stopOpenBlocksAndAdvance_kind (h := h) state uuid
    generalize state.stopOpenBlocksAndAdvance h uuid = r at hstopped hnone ⊢
    obtain ⟨stopped, events⟩ := r
    dsimp only at hstopped hnone ⊢
    refine ⟨?_, rfl⟩
    have hsee : (v.seeAll events).see (blockStart stopped.index media) = v.seeAll events := by
      simp [Received.see, blockStart, hm]
    rw [Received.seeAll_append, Received.seeAll_cons, hsee, Received.seeAll_nil]
    refine ⟨hstopped.text, hstopped.thinking, hstopped.known, hstopped.increasing, fun k hlt => ?_,
      hstopped.elsewhere, hstopped.delivered, ?_⟩
    · have hbelow := hstopped.below k hlt
      simp only [next, hnone] at hbelow
      cases kind with
      | none => exact absurd rfl hk'
      | tools => exact absurd rfl hk
      | text | thinking =>
        simp only [next]
        omega
    · rw [if_neg hk]

theorem Agrees.sameTools {v' : Received} {u' : Upstream}
    (htext : v'.text = u'.text) (hthinking : v'.thinking = u'.reasoning)
    (hstarted : v'.started = v.started) (harguments : v'.arguments = v.arguments)
    (htools : u'.tools = u.tools) (hclosed : u'.closed = u.closed)
    (hindex : u'.byIndex = u.byIndex) (hid : u'.byID = u.byID) : state.Agrees v' u' block := by
  have hdelivered : ∀ (k : Nat) (tool : UpstreamTool), u.tools[k]? = some tool → k < u.closed →
      v'.Delivered (block k) tool := fun k tool htool hk =>
    (hs.delivered k tool htool hk).congr (by rw [hstarted]) (by rw [harguments])
  refine ⟨htext, hthinking, ⟨?_, ?_⟩, ?_, ?_, ?_, ?_, ?_⟩
  · rw [hid, htools]
    exact hs.known.byID
  · rw [hindex, htools]
    exact hs.known.byIndex
  · rw [htools]
    exact hs.increasing
  · rw [htools]
    exact hs.below
  · rw [htools, hstarted, harguments]
    exact hs.elsewhere
  · rw [htools, hclosed]
    exact hdelivered
  · have hg := hs.group
    split
    · rename_i hl
      rw [if_pos hl] at hg
      refine ⟨?_, ?_, ?_, ?_, ?_⟩
      · rw [htools, hclosed]
        exact hg.length
      · rw [hclosed]
        exact hg.place
      · rw [htools, hclosed]
        exact fun k t tool ht htool => (hg.onTheWay k t tool ht htool).congr (by rw [hstarted])
          (by rw [harguments])
      · rw [hid, hclosed]
        exact hg.byID
      · rw [hindex, hclosed]
        exact hg.byIndex
    · rename_i hl
      rw [if_neg hl] at hg
      rw [htools, hclosed]
      exact hg

theorem Agrees.more (text thinking : String) :
    state.Agrees { v with text := v.text ++ text, thinking := v.thinking ++ thinking }
      { u with text := u.text ++ text, reasoning := u.reasoning ++ thinking } block :=
  hs.sameTools (by rw [hs.text]) (by rw [hs.thinking]) rfl rfl rfl rfl rfl rfl

/-- **Reasoning or text**, if there is not both. -/
theorem Agrees.contentBranch (uuid : Nat → String)
    {d : StreamDelta} (hone : d.getContentString = "" ∨ d.getReasoningContent = "") :
    (state.contentBranch h uuid d).1.Agrees (v.seeAll (state.contentBranch h uuid d).2)
      { u with
        text := u.text ++ d.getContentString
        reasoning := u.reasoning ++ d.getReasoningContent
        closed :=
          if d.getContentString ≠ "" ∨ d.getReasoningContent ≠ "" then u.tools.length
          else u.closed } block := by
  unfold ClaudeConvertInfo.contentBranch
  dsimp only
  by_cases hr : d.getReasoningContent ≠ ""
  · have ht : d.getContentString = "" := hone.resolve_right hr
    rw [if_pos hr, if_pos (.inr hr), ht]
    obtain ⟨hopened, -⟩ := hs.openBlock (h := h) uuid .thinking
      { type := "thinking", thinking := some "" } (by simp) (by simp) (by simp)
    have := hopened.more "" d.getReasoningContent
    rw [Received.seeAll_append, Received.seeAll_cons, Received.seeAll_nil]
    simpa [Received.see, Received.seeDelta, contentBlockDelta] using this
  · rw [not_not] at hr
    rw [if_neg (by rw [hr]; simp), hr]
    by_cases ht : d.getContentString ≠ ""
    · rw [if_pos ht, if_pos (.inl ht)]
      obtain ⟨hopened, -⟩ := hs.openBlock (h := h) uuid .text
        { type := "text", text := some "" } (by simp) (by simp) (by simp)
      have := hopened.more d.getContentString ""
      rw [Received.seeAll_append, Received.seeAll_cons, Received.seeAll_nil]
      simpa [Received.see, Received.seeDelta, contentBlockDelta] using this
    · rw [not_not] at ht
      rw [if_neg (by rw [ht]; simp), if_neg (by rw [ht]; simp), ht]
      simpa using hs

theorem Agrees.appendCitationDeltas (uuid : Nat → String) (raw : Option String) :
    (state.appendCitationDeltas h uuid raw).1.Agrees
      (v.seeAll (state.appendCitationDeltas h uuid raw).2)
      { u with
        closed := if h.chatAnnotationsToClaude raw "" ≠ [] then u.tools.length else u.closed }
      block := by
  unfold ClaudeConvertInfo.appendCitationDeltas
  dsimp only
  by_cases hc : h.chatAnnotationsToClaude raw "" = []
  · rw [if_pos hc, if_neg (by rw [hc]; simp)]
    exact hs
  · rw [if_neg hc, if_pos hc]
    obtain ⟨hopened, -⟩ := hs.openBlock (h := h) uuid .text
      { type := "text", text := some "" } nofun nofun (by simp)
    have hsee : ∀ (v : Received) (i : Int) (citations : List String),
        v.seeAll (citations.map fun citation => (contentBlockDelta i
          { type := "citations_delta", citation := some citation } : ClaudeResponse J C)) = v := by
      intro v i citations
      induction citations with
      | nil => rfl
      | cons citation citations ih => exact ih
    rw [Received.seeAll_append, hsee]
    exact hopened

theorem Agrees.switchToTools (uuid : Nat → String) :
    (state.switchToTools h uuid).1.Agrees (v.seeAll (state.switchToTools h uuid).2) u block ∧
      (state.switchToTools h uuid).1.lastMessagesType = .tools := by
  unfold ClaudeConvertInfo.switchToTools
  split
  · rename_i hl
    exact ⟨hs, hl⟩
  · rename_i hl
    have hstopped := hs.stopOpenBlocksAndAdvance (h := h) uuid
    have hnone := stopOpenBlocksAndAdvance_kind (h := h) state uuid
    rw [hs.closed_eq hl] at hstopped
    generalize state.stopOpenBlocksAndAdvance h uuid = r at hstopped hnone ⊢
    obtain ⟨stopped, events⟩ := r
    dsimp only at hstopped hnone ⊢
    refine ⟨⟨hstopped.text, hstopped.thinking, hstopped.known, hstopped.increasing, fun k hk => ?_,
      hstopped.elsewhere, hstopped.delivered, ?_⟩, rfl⟩
    · have := hstopped.below k hk
      simp only [next, hnone] at this
      simpa [next] using this
    · -- no tool of the chunks is in the new group
      have hclosed := hs.group
      rw [if_neg hl] at hclosed
      rw [if_pos rfl]
      refine ⟨hclosed.symm, nofun, nofun, fun id place => ?_, fun i place => ?_⟩
      · refine ⟨nofun, fun hp => ?_⟩
        obtain ⟨-, tool, htool, -⟩ := hs.known.byID id _ hp
        have := (List.getElem?_eq_some_iff.1 htool).1
        omega
      · refine ⟨nofun, fun hp => ?_⟩
        have := hs.known.byIndex i _ hp
        omega

theorem Agrees.toolCallsBranch (uuid : Nat → String)
    {fs : List ToolCallResponse} (hopen : u.OpenOnly 0 fs) :
    ∃ block', (state.toolCallsBranch h uuid fs).1.Agrees
      (v.seeAll (state.toolCallsBranch h uuid fs).2) (u.addFragments 0 fs) block' := by
  obtain ⟨hswitched, hl⟩ := hs.switchToTools (h := h) uuid
  obtain ⟨block', hstepped, hl'⟩ := hswitched.toolSteps (h := h) hl 0 fs hopen
  refine ⟨block', ?_⟩
  simp only [ClaudeConvertInfo.toolCallsBranch, Received.seeAll_append]
  refine hstepped.congr rfl ?_ rfl rfl rfl rfl
  simp only [next, hl']

theorem Agrees.content (uuid : Nat → String) {c : StreamChoice}
    (hfits : u.FitsChoice c.delta) {state₁ : ClaudeConvertInfo U}
    {events : List (ClaudeResponse J C)}
    (hcontent : (if c.delta.toolCalls ≠ [] then state.toolCallsBranch h uuid c.delta.toolCalls
      else state.contentBranch h uuid c.delta) = (state₁, events)) :
    ∃ block', (state₁.appendCitationDeltas h uuid c.delta.annotations).1.Agrees
      (v.seeAll (events ++ (state₁.appendCitationDeltas h uuid c.delta.annotations).2))
      (u.addChoice h c) block' := by
  rw [Received.seeAll_append]
  by_cases ht : c.delta.toolCalls ≠ []
  · rw [if_pos ht] at hcontent
    obtain ⟨htext, hreasoning⟩ := hfits.tools ht
    obtain ⟨block', hbranch⟩ := hs.toolCallsBranch (h := h) uuid hfits.openOnly
    rw [hcontent] at hbranch
    have hcited := hbranch.appendCitationDeltas (h := h) uuid c.delta.annotations
    refine ⟨block', ?_⟩
    unfold Upstream.addChoice
    simp only [htext, hreasoning, String.append_empty, ne_eq, not_true_eq_false, false_or]
    split
    · rename_i hc
      rw [if_pos hc] at hcited
      exact hcited
    · rename_i hc
      rw [if_neg hc] at hcited
      exact hcited
  · rw [if_neg ht] at hcontent
    rw [not_not] at ht
    have hbranch := hs.contentBranch (h := h) uuid hfits.one
    rw [hcontent] at hbranch
    have hcited := hbranch.appendCitationDeltas (h := h) uuid c.delta.annotations
    refine ⟨block, ?_⟩
    unfold Upstream.addChoice
    rw [ht]
    simp only [Upstream.addFragments]
    by_cases hc : h.chatAnnotationsToClaude c.delta.annotations "" ≠ []
    · rw [if_pos hc] at hcited
      rw [if_pos (.inr (.inr hc))]
      exact hcited
    · rw [if_neg hc] at hcited
      by_cases htext : c.delta.getContentString ≠ "" ∨ c.delta.getReasoningContent ≠ ""
      · rw [if_pos htext] at hcited
        rw [if_pos (by tauto)]
        exact hcited
      · rw [if_neg htext] at hcited
        rw [if_neg (by tauto)]
        exact hcited

end

/-! ### The whole stream -/

/-- **Between two chunks**: the client has everything, or all but what is on the way. -/
def Follows (state : ClaudeConvertInfo U) (v : Received) (u : Upstream) : Prop :=
  state.done = u.ended ∧
    if state.done then ∃ block, Complete v u block
    else state.usage.isSome = u.counted ∧ ∃ block, state.Agrees v u block

/-- Whether there is a usage to show. -/
theorem clientVisibleUsage_isSome (incoming : Option U) :
    (state.clientVisibleUsage h incoming).2.isSome = (state.usage.isSome || incoming.isSome) := by
  unfold clientVisibleUsage
  cases incoming <;> cases state.usage <;> rfl

theorem Agrees.usage (hs : state.Agrees v u block) (hdone : state.done = false)
    (hended : u.ended = false) (hcounted : state.usage.isSome = u.counted) (uuid : Nat → String)
    (usage : Option U) (stopReason : ClaudeConvertInfo U → String)
    {r : ClaudeConvertInfo U × List (ClaudeResponse J C)}
    (hr : (match state.clientVisibleUsage h usage with
      | (state, none) => (state, [])
      | (state, some usage) => state.finish h uuid usage (stopReason state)) = r) :
    r.1.Follows (v.seeAll r.2) { u with ended := u.ended || (u.counted || usage.isSome) } := by
  subst hr
  have hs' : (state.clientVisibleUsage h usage).1.Agrees v u block := by
    rw [clientVisibleUsage_state]
    exact hs.congr rfl rfl rfl rfl rfl rfl
  have hdone' := clientVisibleUsage_done (h := h) state usage
  have hsome : (state.clientVisibleUsage h usage).2.isSome =
      (state.usage.isSome || usage.isSome) := clientVisibleUsage_isSome usage
  have husage : usage = none → (state.clientVisibleUsage h usage).1.usage = state.usage := by
    rintro rfl
    rfl
  have hends : (u.ended || (u.counted || usage.isSome)) =
      (state.clientVisibleUsage h usage).2.isSome := by
    rw [hsome, hcounted, hended, Bool.false_or]
  rw [hends]
  generalize state.clientVisibleUsage h usage = visible at hs' hdone' hsome husage ⊢
  obtain ⟨state', usage'⟩ := visible
  dsimp only at hs' hdone' hsome husage ⊢
  cases usage' with
  | none =>
    have hnone : state.usage = none ∧ usage = none := by simpa using hsome.symm
    refine ⟨hdone'.trans hdone, ?_⟩
    rw [if_neg (by rw [hdone', hdone]; simp)]
    refine ⟨?_, block, hs'.sameTools hs'.text hs'.thinking rfl rfl rfl rfl rfl rfl⟩
    dsimp only
    rw [husage hnone.2]
    exact hcounted
  | some usage' =>
    have hcomplete := hs'.appendStopOpenBlocks (h := h) uuid
    refine ⟨rfl, ?_⟩
    simp only [finish, if_true, Received.seeAll_append, Received.seeAll_messageEnd]
    exact ⟨block, hcomplete.text, hcomplete.thinking, hcomplete.increasing, hcomplete.delivered,
      hcomplete.elsewhere⟩

theorem Agrees.choice (hs : state.Agrees v u block) (hdone : state.done = false)
    (hended : u.ended = false) (hcounted : state.usage.isSome = u.counted) (uuid : Nat → String)
    {c : StreamChoice} (hfits : u.FitsChoice c.delta) (usage : Option U) :
    (state.choiceBranch h uuid c usage).1.Follows
      (v.seeAll (state.choiceBranch h uuid c usage).2)
      { u.addChoice h c with
        ended := (u.addChoice h c).ended ||
          (c.finishReason.getD "" != "" && ((u.addChoice h c).counted || usage.isSome)) } := by
  obtain ⟨hended', hcounted'⟩ := Upstream.addChoice_ended h u c
  unfold choiceBranch
  extract_lets doneChunk state₀
  have hs₀ : state₀.Agrees v u block := by
    simp only [state₀]
    split
    · exact hs.congr rfl rfl rfl rfl rfl rfl
    · exact hs
  have hrest₀ : SameRest state state₀ := by
    simp only [state₀]
    split <;> exact ⟨rfl, rfl⟩
  have hrest₁ := hrest₀.trans (content_rest (h := h) state₀ uuid c.delta)
  generalize hcontent : (if c.delta.toolCalls ≠ [] then
      state₀.toolCallsBranch h uuid c.delta.toolCalls
      else state₀.contentBranch h uuid c.delta) = content at hrest₁ ⊢
  obtain ⟨state₁, events⟩ := content
  obtain ⟨block', hcited⟩ := hs₀.content uuid hfits hcontent
  have hrest₂ := hrest₁.trans
    (appendCitationDeltas_rest (h := h) state₁ uuid c.delta.annotations)
  dsimp only at hrest₂ ⊢
  generalize state₁.appendCitationDeltas h uuid c.delta.annotations = citations
    at hcited hrest₂ ⊢
  obtain ⟨state₂, cited⟩ := citations
  obtain ⟨hdone₂, husage₂⟩ := hrest₂
  dsimp only at hcited hdone₂ husage₂ ⊢
  rw [hdone] at hdone₂
  rw [hdone₂, Bool.or_false]
  cases hd : doneChunk with
  | true =>
    have hd' : (c.finishReason.getD "" != "") = true := hd
    rw [if_pos rfl, hd', Bool.true_and]
    have hfinished := hcited.usage (h := h) hdone₂ (hended'.trans hended)
      (by rw [husage₂, hcounted, hcounted']) uuid usage
      (fun state => openAIFinishReasonToClaudeStopReason state.finishReason) rfl
    generalize state₂.clientVisibleUsage h usage = visible at hfinished ⊢
    obtain ⟨state₃, usage'⟩ := visible
    cases usage' with
    | none => simpa using hfinished
    | some usage' =>
      rw [Received.seeAll_append]
      exact hfinished
  | false =>
    have hd' : (c.finishReason.getD "" != "") = false := hd
    rw [if_neg (by simp), hd', Bool.false_and, Bool.or_false]
    refine ⟨hdone₂.trans (hended'.trans hended).symm, ?_⟩
    rw [if_neg (by rw [hdone₂]; simp)]
    exact ⟨by rw [husage₂, hcounted, hcounted'], block', hcited⟩

/-- A chunk, after `message_start` if it is the first one. -/
theorem Agrees.chunk (hs : state.Agrees v u block) (hdone : state.done = false)
    (hended : u.ended = false) (hcounted : state.usage.isSome = u.counted) (uuid : Nat → String)
    {r : StreamResponse U} (hone : r.choices.length ≤ 1)
    (hfits : ∀ c ∈ r.choices, u.FitsChoice c.delta)
    {p : ClaudeConvertInfo U × List (ClaudeResponse J C)}
    (hp : (match r.choices with
      | [] => state.usageBranch h uuid r.usage
      | chosenChoice :: _ => state.choiceBranch h uuid chosenChoice r.usage) = p) :
    p.1.Follows (v.seeAll p.2) (u.add h r) := by
  unfold Upstream.add
  cases hchoices : r.choices with
  | nil =>
    rw [hchoices] at hp
    exact hs.usage hdone hended hcounted uuid r.usage stopReason hp
  | cons c cs =>
    cases cs with
    | cons _ _ =>
      rw [hchoices] at hone
      simp at hone
    | nil =>
      rw [hchoices] at hp
      subst hp
      have hchoice := hs.choice (h := h) hdone hended hcounted uuid
        (hfits c (by rw [hchoices]; simp)) r.usage
      simpa only [foldl_cons, foldl_nil, all_cons, all_nil,
        Bool.and_true] using hchoice

/-- **The first chunk**, with `message_start` before everything else. -/
theorem follows_first (uuid : Nat → String) {r : StreamResponse U} (hone : r.choices.length ≤ 1)
    (hfits : ∀ c ∈ r.choices, (Upstream.start h r).FitsChoice c.delta) :
    (({} : ClaudeConvertInfo U).streamResponseOpenAI2Claude h true uuid r).1.Follows
      (({} : Received).seeAll
        (({} : ClaudeConvertInfo U).streamResponseOpenAI2Claude h true uuid r).2)
      ((Upstream.start h r).add h r) := by
  have hstart : (({} : ClaudeConvertInfo U).messageStart h r).1.Agrees {} (Upstream.start h r)
        (fun _ => 0) ∧
      (({} : ClaudeConvertInfo U).messageStart h r).1.usage.isSome =
        (Upstream.start h r).counted := by
    have hinit : ({} : ClaudeConvertInfo U).Agrees {} (Upstream.start h r) (fun _ => 0) :=
      ⟨rfl, rfl, ⟨nofun, nofun⟩, nofun, nofun, fun _ _ => ⟨rfl, rfl⟩, nofun, rfl⟩
    unfold messageStart
    cases hu : r.usage with
    | none => exact ⟨hinit, by simp [Upstream.start, hu]⟩
    | some usage =>
      by_cases htokens : h.hasOpenAIUsageTokens usage = true
      · simp only [htokens, if_true]
        exact ⟨hinit.congr rfl rfl rfl rfl rfl rfl, by simp [Upstream.start, hu, htokens]⟩
      · simp only [htokens]
        exact ⟨hinit, by simp [Upstream.start, hu, htokens]⟩
  have hdone := messageStart_done (h := h) ({} : ClaudeConvertInfo U) r
  have hsilent : ({} : Received).seeAll (({} : ClaudeConvertInfo U).messageStart h r).2 = {} := rfl
  unfold streamResponseOpenAI2Claude
  simp only [if_true]
  rw [if_neg (by simp)]
  generalize ({} : ClaudeConvertInfo U).messageStart h r = started at hstart hdone hsilent ⊢
  obtain ⟨state, events⟩ := started
  dsimp only at hstart hdone hsilent ⊢
  rw [Received.seeAll_append, hsilent]
  exact hstart.1.chunk hdone rfl hstart.2 uuid hone hfits rfl

/-- Content that is not there is nowhere missing. -/
theorem Complete.nothing (hc : Complete v u block) {c : StreamChoice}
    (hempty : c.delta.getContentString = "" ∧ c.delta.getReasoningContent = "" ∧
      c.delta.toolCalls = []) : Complete v (u.addChoice h c) block := by
  obtain ⟨htext, hreasoning, htools⟩ := hempty
  unfold Upstream.addChoice
  rw [htext, hreasoning, htools]
  simp only [Upstream.addFragments, String.append_empty]
  split <;> exact ⟨hc.text, hc.thinking, hc.increasing, hc.delivered, hc.elsewhere⟩

/-- **Any other chunk.** -/
theorem Follows.streamResponse (hs : state.Follows v u) (uuid : Nat → String)
    {r : StreamResponse U} (hone : r.choices.length ≤ 1)
    (hfits : ∀ c ∈ r.choices, u.FitsChoice c.delta) :
    (state.streamResponseOpenAI2Claude h false uuid r).1.Follows
      (v.seeAll (state.streamResponseOpenAI2Claude h false uuid r).2) (u.add h r) := by
  obtain ⟨hdone, hrest⟩ := hs
  unfold streamResponseOpenAI2Claude
  by_cases hd : state.done = true
  · rw [if_pos hd] at hrest ⊢
    obtain ⟨block, hc⟩ := hrest
    have hended : u.ended = true := by rw [← hdone, hd]
    have hcomplete : Complete v (r.choices.foldl (Upstream.addChoice h) u) block := by
      cases hchoices : r.choices with
      | nil => exact hc
      | cons c cs =>
        cases cs with
        | cons _ _ =>
          rw [hchoices] at hone
          simp at hone
        | nil => exact hc.nothing ((hfits c (by rw [hchoices]; simp)).ended hended)
    refine ⟨?_, ?_⟩
    · rw [hd, Upstream.add_ended h hended r]
    · rw [if_pos hd]
      exact ⟨block, hcomplete.text, hcomplete.thinking, hcomplete.increasing, hcomplete.delivered,
        hcomplete.elsewhere⟩
  · rw [if_neg hd] at hrest ⊢
    have hd' : state.done = false := by simpa using hd
    obtain ⟨hcounted, block, hagrees⟩ := hrest
    exact hagrees.chunk hd' (hdone.symm.trans hd') hcounted uuid hone hfits rfl

theorem Follows.streamRest (hs : state.Follows v u)
    (rest : List ((Nat → String) × StreamResponse U))
    (hone : ∀ r ∈ rest.map Prod.snd, r.choices.length ≤ 1)
    (hfits : u.Fits h (rest.map Prod.snd)) :
    (streamRest h state rest).1.Follows (v.seeAll (streamRest h state rest).2)
      ((rest.map Prod.snd).foldl (Upstream.add h) u) := by
  induction rest generalizing state v u with
  | nil => exact hs
  | cons p rest ih =>
    have hstep := hs.streamResponse (h := h) p.1 (hone p.2 (by simp)) hfits.1
    have := ih hstep (fun r hr => hone r (by simp_all)) hfits.2
    simp only [ClaudeConvertInfo.streamRest, Received.seeAll_append]
    exact this

/-- The end of the stream delivers the rest. -/
theorem Follows.finalize (hs : state.Follows v u) (uuid : Nat → String) :
    ∃ block, Complete (v.seeAll (state.finalizeStreamResponseOpenAI2Claude h uuid).2) u block := by
  obtain ⟨-, hrest⟩ := hs
  unfold finalizeStreamResponseOpenAI2Claude
  by_cases hd : state.done = true
  · rw [if_pos hd] at hrest ⊢
    exact hrest
  · rw [if_neg hd] at hrest ⊢
    obtain ⟨-, block, hagrees⟩ := hrest
    refine ⟨block, ?_⟩
    simp only [Received.seeAll_append, Received.seeAll_messageEnd]
    exact hagrees.appendStopOpenBlocks uuid

/-- **Everything that the chunks carry arrives**, if every tool has a name in the end and no chunk
carries what is lost. -/
theorem convertStream_lossless (first : (Nat → String) × StreamResponse U)
    (rest : List ((Nat → String) × StreamResponse U)) (uuid : Nat → String)
    (hone : ∀ r ∈ first.2 :: rest.map Prod.snd, r.choices.length ≤ 1)
    (hnamed : ∀ tool ∈ (upstream h first.2 (rest.map Prod.snd)).tools, tool.name ≠ "")
    (hfits : (Upstream.start h first.2).Fits h (first.2 :: rest.map Prod.snd)) :
    Lossless (({} : Received).seeAll (convertStream h first rest uuid))
      (upstream h first.2 (rest.map Prod.snd)) := by
  have hfirst := follows_first (h := h) first.1 (hone _ (by simp)) hfits.1
  have hrest := hfirst.streamRest rest (fun r hr => hone r (by simp_all)) hfits.2
  obtain ⟨block, hc⟩ := hrest.finalize uuid
  simp only [convertStream, Received.seeAll_append]
  refine ⟨hc.text, hc.thinking, block, hc.increasing, fun k tool htool => ?_, hc.elsewhere⟩
  have hname := hnamed tool (List.mem_of_getElem? htool)
  have hd := hc.delivered k tool htool
  rw [Received.Delivered, if_neg hname] at hd
  exact hd

/-! ### Streams -/

/-- A host without usage and citations of its own. -/
def plainHost : ChatToClaudeHost Unit Unit Unit where
  emptyObject := ()
  chatAnnotationsToClaude _ _ := []
  usageFromOpenAI _ := ()
  mergeUsageNonZero _ _ := ()
  mergeClaudeUsageNonZero _ _ := ()
  hasOpenAIUsageTokens _ := true
  estimate := ()

/-- A chunk with a delta and no finish reason. -/
def deltaChunk (delta : StreamDelta) : StreamResponse Unit := { choices := [{ delta := delta }] }

/-- A fragment of the tool call `0`. -/
def fragment (id name arguments : String) : ToolCallResponse :=
  { index := some 0, id := id, type := "function"
    function := { name := name, arguments := arguments } }

/-- Reasoning, a text, a tool call whose name comes late, and the end. -/
def lookupChunks : List ((Nat → String) × StreamResponse Unit) :=
  [deltaChunk { content := some "I look it up." },
    deltaChunk { toolCalls := [fragment "call_1" "" "\x7b"] },
    deltaChunk { toolCalls := [fragment "" "today" "\x7d"] },
    { choices := [{ delta := {}, finishReason := some "tool_calls" }], usage := some () }].map
      fun r => (fun _ => "", r)

theorem convertStream_lossless_lookup :
    Lossless (({} : Received).seeAll (convertStream plainHost
        (fun _ => "", deltaChunk { reasoningContent := some "The date is not known." })
        lookupChunks fun _ => ""))
      (upstream plainHost (deltaChunk { reasoningContent := some "The date is not known." })
        (lookupChunks.map Prod.snd)) := by
  refine convertStream_lossless _ _ _ (by decide) (by decide) ?_
  refine ⟨?_, ?_, ?_, ?_, ?_, trivial⟩
  all_goals
    intro c hc
    obtain rfl := List.mem_singleton.1 hc
  · exact ⟨by decide, by decide, by decide, trivial⟩
  · exact ⟨by decide, by decide, by decide, trivial⟩
  · exact ⟨by decide, by decide, by decide, nofun, trivial⟩
  · refine ⟨by decide, by decide, by decide, fun place hp => ?_, trivial⟩
    exact Nat.zero_le place
  · exact ⟨by decide, by decide, by decide, trivial⟩

/-- Reasoning and a text in one delta. -/
def bothKinds : StreamDelta := { reasoningContent := some "Six by nine.", content := some "42" }

/-- A delta with reasoning and a text loses the text. -/
theorem bothKinds_lossy :
    (∀ r ∈ [deltaChunk bothKinds], r.choices.length ≤ 1) ∧
      (∀ tool ∈ (upstream plainHost (deltaChunk bothKinds) []).tools, tool.name ≠ "") ∧
      ¬Lossless (({} : Received).seeAll (convertStream plainHost
          (fun _ => "", deltaChunk bothKinds) [] fun _ => ""))
        (upstream plainHost (deltaChunk bothKinds) []) := by
  refine ⟨by decide, by decide, fun hlossless => ?_⟩
  have htext := hlossless.text
  revert htext
  decide

end ClaudeConvertInfo

end NexusTok.Convert
