import NexusTok.Convert.Claude
import NexusTok.Text.Basic

/-!
# Chat Completions to Claude Messages: a stream

`StreamResponseOpenAI2Claude` turns the chunks of a chat stream into Claude events, and
`FinalizeStreamResponseOpenAI2Claude` ends a stream that has not ended itself.

* `ClaudeConvertInfo` : the state, with the kind of the open blocks and the tool calls of the open
  tool blocks.  The maps from indexes and ids go to places of `toolCalls`.
* `streamResponseOpenAI2Claude`, `finalizeStreamResponseOpenAI2Claude` : the converter.

The token usage is of type `U` on the chat side and `C` on the Claude side.  The converter only asks
whether there is any, so the arithmetic on it is a parameter.
-/

namespace NexusTok.Convert

/-- What the converter calls on the way. -/
structure ChatToClaudeHost (J U C : Type) where
  /-- `map[string]any{}`. -/
  emptyObject : J
  /-- `chatAnnotationsToClaude`: the citations of the annotations, as raw JSON. -/
  chatAnnotationsToClaude : Option String → String → List String
  /-- `UsageFromOpenAI` of a usage that is there. -/
  usageFromOpenAI : U → C
  /-- `MergeUsageNonZero` of a usage that is there. -/
  mergeUsageNonZero : Option U → U → U
  /-- `MergeClaudeUsageNonZero` of two usages that are there. -/
  mergeClaudeUsageNonZero : C → C → C
  hasOpenAIUsageTokens : U → Bool
  /-- The usage with `GetEstimatePromptTokens` as its input tokens. -/
  estimate : C

/-- `LastMessagesType`: the kind of the open blocks. -/
inductive LastMessagesType
  | none
  | text
  | tools
  | thinking
deriving DecidableEq, Repr

/-- `convmeta.ClaudeStreamToolCall`. -/
structure ClaudeStreamToolCall where
  blockIndex : Int
  id : String := ""
  name : String := ""
  pendingArguments : String := ""
  started : Bool := false
deriving DecidableEq, Repr

/-- `convmeta.ClaudeConvertInfo`. -/
structure ClaudeConvertInfo (U : Type) where
  lastMessagesType : LastMessagesType := .none
  index : Int := 0
  usage : Option U := none
  finishReason : String := ""
  done : Bool := false
  toolCallBaseIndex : Int := 0
  toolCallMaxIndexOffset : Int := 0
  toolCalls : List ClaudeStreamToolCall := []
  toolCallByIndex : Int → Option Nat := fun _ => none
  toolCallByID : String → Option Nat := fun _ => none

variable {J U C : Type} (h : ChatToClaudeHost J U C)

/-! ### Events -/

/-- `content_block_start`. -/
def blockStart (index : Int) (block : ClaudeMediaMessage J C) : ClaudeResponse J C :=
  { type := "content_block_start", index := some index, contentBlock := some block }

/-- `content_block_delta`. -/
def contentBlockDelta (index : Int) (delta : ClaudeMediaMessage J C) : ClaudeResponse J C :=
  { type := "content_block_delta", index := some index, delta := some delta }

def generateStopBlock (index : Int) : ClaudeResponse J C :=
  { type := "content_block_stop", index := some index }

variable (tool : ClaudeStreamToolCall)

/-- The content block of a tool call. -/
def toolUseBlock : ClaudeMediaMessage J C :=
  { id := tool.id, type := "tool_use", name := tool.name, input := some h.emptyObject }

/-- A delta of the arguments of a tool call. -/
def inputJsonDelta (arguments : String) : ClaudeMediaMessage J C :=
  { type := "input_json_delta", partialJson := some arguments }

/-- `message_delta` and `message_stop`. -/
def messageEnd (usage : Option C) (stopReason : String) : List (ClaudeResponse J C) :=
  [{ type := "message_delta", usage := usage, delta := some { stopReason := some stopReason } },
    { type := "message_stop" }]

/-! ### The ends of blocks -/

/-- The start of the block of a tool, and its pending arguments. -/
def ClaudeStreamToolCall.start : ClaudeStreamToolCall × List (ClaudeResponse J C) :=
  ({ tool with started := true, pendingArguments := "" },
    blockStart tool.blockIndex (toolUseBlock h tool) ::
      if tool.pendingArguments ≠ "" then
        [contentBlockDelta tool.blockIndex (inputJsonDelta tool.pendingArguments)]
      else [])

/-- A tool in `startPendingToolBlocks`, with the UUID drawn for a tool without an id. -/
def ClaudeStreamToolCall.startPending (uuid : String) :
    ClaudeStreamToolCall × List (ClaudeResponse J C) :=
  if tool.started ∨ tool.name = "" then (tool, [])
  else
    ({ tool with id := if tool.id = "" then "toolu_" ++ uuid else tool.id } :
      ClaudeStreamToolCall).start h

namespace ClaudeConvertInfo

def startPendingToolBlocks (state : ClaudeConvertInfo U) (uuid : Nat → String) :
    ClaudeConvertInfo U × List (ClaudeResponse J C) :=
  if state.lastMessagesType ≠ .tools then (state, [])
  else
    let started := state.toolCalls.zipIdx.map fun t => t.1.startPending h (uuid t.2)
    ({ state with toolCalls := started.map Prod.fst }, started.flatMap Prod.snd)

def stopOpenBlocks (state : ClaudeConvertInfo U) : List (ClaudeResponse J C) :=
  match state.lastMessagesType with
  | .text | .thinking => [generateStopBlock state.index]
  | .tools =>
    if state.toolCalls = [] then
      (List.range (state.toolCallMaxIndexOffset + 1).toNat).map fun offset : Nat =>
        generateStopBlock (state.toolCallBaseIndex + offset)
    else (state.toolCalls.filter (·.started)).map fun tool => generateStopBlock tool.blockIndex
  | .none => []

def appendStopOpenBlocks (state : ClaudeConvertInfo U) (uuid : Nat → String) :
    ClaudeConvertInfo U × List (ClaudeResponse J C) :=
  let (state, started) := state.startPendingToolBlocks h uuid
  (state, started ++ state.stopOpenBlocks)

def stopOpenBlocksAndAdvance (state : ClaudeConvertInfo U) (uuid : Nat → String) :
    ClaudeConvertInfo U × List (ClaudeResponse J C) :=
  if state.lastMessagesType = .none then (state, [])
  else
    let (state, stopped) := state.appendStopOpenBlocks h uuid
    match state.lastMessagesType with
    | .tools =>
      ({ state with
          index := state.toolCallBaseIndex + state.toolCalls.length
          toolCallBaseIndex := 0
          toolCallMaxIndexOffset := 0
          toolCalls := []
          toolCallByIndex := fun _ => none
          toolCallByID := fun _ => none
          lastMessagesType := .none }, stopped)
    | _ => ({ state with index := state.index + 1, lastMessagesType := .none }, stopped)

/-- A block of the kind opened, unless one of the kind is open. -/
def openBlock (state : ClaudeConvertInfo U) (uuid : Nat → String) (kind : LastMessagesType)
    (block : ClaudeMediaMessage J C) : ClaudeConvertInfo U × List (ClaudeResponse J C) :=
  if state.lastMessagesType = kind then (state, [])
  else
    let (state, stopped) := state.stopOpenBlocksAndAdvance h uuid
    ({ state with lastMessagesType := kind }, stopped ++ [blockStart state.index block])

def appendCitationDeltas (state : ClaudeConvertInfo U) (uuid : Nat → String)
    (raw : Option String) : ClaudeConvertInfo U × List (ClaudeResponse J C) :=
  let citations := h.chatAnnotationsToClaude raw ""
  if citations = [] then (state, [])
  else
    let (state, opened) := state.openBlock h uuid .text { type := "text", text := some "" }
    (state, opened ++ citations.map fun citation =>
      contentBlockDelta state.index { type := "citations_delta", citation := some citation })

end ClaudeConvertInfo

/-! ### Tool calls -/

/-- The tool has an id and the fragment has another one. -/
def differentID (toolID incomingID : String) : Bool :=
  incomingID != "" && toolID != "" && toolID != incomingID

/-- What a fragment adds to its tool, before any event. -/
def ClaudeStreamToolCall.join (t : ToolCallResponse) : ClaudeStreamToolCall :=
  let incomingID := trimSpace t.id
  let name := trimSpace t.function.name
  { tool with
    id := if tool.id = "" then incomingID else tool.id
    name := if tool.name = "" then name else tool.name
    pendingArguments :=
      if tool.started then tool.pendingArguments
      else tool.pendingArguments ++ t.function.arguments }

/-- A fragment of the tool, with the events it sends. -/
def ClaudeStreamToolCall.feed (t : ToolCallResponse) :
    ClaudeStreamToolCall × List (ClaudeResponse J C) :=
  let tool := tool.join t
  if ¬tool.started ∧ tool.id ≠ "" ∧ tool.name ≠ "" then tool.start h
  else
    (tool, if tool.started ∧ t.function.arguments ≠ "" then
      [contentBlockDelta tool.blockIndex (inputJsonDelta t.function.arguments)] else [])

namespace ClaudeConvertInfo

variable (state : ClaudeConvertInfo U)

/-- The place of the tool of a fragment: by its id, else by its index, and nowhere if the tool has
another id. -/
def findTool (toolIndex : Int) (incomingID : String) : Option Nat :=
  let byID := if incomingID ≠ "" then state.toolCallByID incomingID else none
  (byID.or (state.toolCallByIndex toolIndex)).filter fun place =>
    (state.toolCalls[place]?).any fun tool => !differentID tool.id incomingID

/-- One fragment, the `i`-th of its chunk. -/
def toolStep (i : Nat) (t : ToolCallResponse) : ClaudeConvertInfo U × List (ClaudeResponse J C) :=
  let toolIndex := t.index.getD i
  let incomingID := trimSpace t.id
  let found := state.findTool toolIndex incomingID
  let place := found.getD state.toolCalls.length
  let tool := (state.toolCalls[place]?).getD
    { blockIndex := state.toolCallBaseIndex + state.toolCalls.length }
  let (fed, events) := tool.feed h t
  ({ state with
      toolCalls :=
        if found.isSome then state.toolCalls.set place fed else state.toolCalls ++ [fed]
      toolCallByIndex := Function.update state.toolCallByIndex toolIndex (some place)
      toolCallByID :=
        if tool.id = "" ∧ incomingID ≠ "" then
          Function.update state.toolCallByID incomingID (some place)
        else state.toolCallByID }, events)

/-- The fragments of a chunk, from the `i`-th on. -/
def toolSteps : ClaudeConvertInfo U → Nat → List ToolCallResponse →
    ClaudeConvertInfo U × List (ClaudeResponse J C)
  | state, _, [] => (state, [])
  | state, i, t :: ts =>
    let (state, events) := state.toolStep h i t
    let (state, events') := toolSteps state (i + 1) ts
    (state, events ++ events')

variable (uuid : Nat → String)

/-- The switch to tool calls, if the open blocks are of another kind. -/
def switchToTools : ClaudeConvertInfo U × List (ClaudeResponse J C) :=
  if state.lastMessagesType = .tools then (state, [])
  else
    let (state, stopped) := state.stopOpenBlocksAndAdvance h uuid
    ({ state with
        toolCallBaseIndex := state.index
        toolCallMaxIndexOffset := 0
        toolCalls := []
        toolCallByIndex := fun _ => none
        toolCallByID := fun _ => none
        lastMessagesType := .tools }, stopped)

def toolCallsBranch
    (toolCalls : List ToolCallResponse) : ClaudeConvertInfo U × List (ClaudeResponse J C) :=
  let (state, stopped) := state.switchToTools h uuid
  let (state, events) := toolSteps h state 0 toolCalls
  ({ state with
      toolCallMaxIndexOffset := (state.toolCalls.length : Int) - 1
      index :=
        if state.toolCalls = [] then state.index
        else state.toolCallBaseIndex + state.toolCalls.length - 1 }, stopped ++ events)

/-! ### Chunks -/

/-- `clientVisibleClaudeStreamUsage`. -/
def clientVisibleUsage (incoming : Option U) : ClaudeConvertInfo U × Option C :=
  let prior := state.usage.map h.usageFromOpenAI
  let converted := incoming.map h.usageFromOpenAI
  let state := match incoming with
    | some incoming => { state with usage := some (h.mergeUsageNonZero state.usage incoming) }
    | none => state
  (state, match prior, converted with
    | none, converted => converted
    | some prior, none => some prior
    | some prior, some converted => some (h.mergeClaudeUsageNonZero prior converted))

/-- The reasoning or the text of a choice without tool calls: reasoning goes first, and text is sent
only if there is none. -/
def contentBranch (delta : StreamDelta) : ClaudeConvertInfo U × List (ClaudeResponse J C) :=
  let reasoning := delta.getReasoningContent
  let textContent := delta.getContentString
  if reasoning ≠ "" then
    let (state, opened) :=
      state.openBlock h uuid .thinking { type := "thinking", thinking := some "" }
    (state, opened ++
      [contentBlockDelta state.index { type := "thinking_delta", thinking := some reasoning }])
  else if textContent ≠ "" then
    let (state, opened) := state.openBlock h uuid .text { type := "text", text := some "" }
    (state, opened ++
      [contentBlockDelta state.index { type := "text_delta", text := some textContent }])
  else (state, [])

/-- The stop of the stream with a usage. -/
def finish (usage : C) (stopReason : String) : ClaudeConvertInfo U × List (ClaudeResponse J C) :=
  let (state, stopped) := state.appendStopOpenBlocks h uuid
  ({ state with done := true }, stopped ++ messageEnd (some usage) stopReason)

/-- The stop reason of the stream, `end_turn` if there is none. -/
def stopReason : String :=
  let reason := openAIFinishReasonToClaudeStopReason state.finishReason
  if reason = "" then "end_turn" else reason

/-- `message_start`, on the first chunk. -/
def messageStart (r : StreamResponse U) : ClaudeConvertInfo U × List (ClaudeResponse J C) :=
  let (state, startUsage) := match r.usage with
    | some usage =>
      if h.hasOpenAIUsageTokens usage then
        ({ state with usage := some (h.mergeUsageNonZero state.usage usage) },
          h.usageFromOpenAI usage)
      else (state, h.estimate)
    | none => (state, h.estimate)
  (state,
    [{ type := "message_start"
       message := some { id := r.id, model := r.model, type := "message", role := "assistant",
                         usage := some startUsage, content := some [] } }])

def choiceBranch (chosenChoice : StreamChoice)
    (usage : Option U) : ClaudeConvertInfo U × List (ClaudeResponse J C) :=
  let doneChunk := chosenChoice.finishReason.getD "" != ""
  let state :=
    if doneChunk then { state with finishReason := chosenChoice.finishReason.getD "" } else state
  let (state, events) :=
    if chosenChoice.delta.toolCalls ≠ [] then
      state.toolCallsBranch h uuid chosenChoice.delta.toolCalls
    else state.contentBranch h uuid chosenChoice.delta
  let (state, cited) := state.appendCitationDeltas h uuid chosenChoice.delta.annotations
  if doneChunk || state.done then
    match state.clientVisibleUsage h usage with
    | (state, none) => (state, events ++ cited)
    | (state, some usage) =>
      let (state, finished) := state.finish h uuid usage
        (openAIFinishReasonToClaudeStopReason state.finishReason)
      (state, events ++ cited ++ finished)
  else (state, events ++ cited)

/-- A chunk without a choice. -/
def usageBranch (usage : Option U) : ClaudeConvertInfo U × List (ClaudeResponse J C) :=
  match state.clientVisibleUsage h usage with
  | (state, none) => (state, [])
  | (state, some usage) => state.finish h uuid usage state.stopReason

/-- `StreamResponseOpenAI2Claude`; `first` says that the send counter is `1`. -/
def streamResponseOpenAI2Claude (first : Bool) (uuid : Nat → String) (r : StreamResponse U) :
    ClaudeConvertInfo U × List (ClaudeResponse J C) :=
  if state.done then (state, [])
  else
    let (state, started) := if first then state.messageStart h r else (state, [])
    let (state, events) := match r.choices with
      | [] => state.usageBranch h uuid r.usage
      | chosenChoice :: _ => state.choiceBranch h uuid chosenChoice r.usage
    (state, started ++ events)

def finalizeStreamResponseOpenAI2Claude : ClaudeConvertInfo U × List (ClaudeResponse J C) :=
  if state.done then (state, [])
  else
    let (state, stopped) := state.appendStopOpenBlocks h uuid
    let (state, usage) := state.clientVisibleUsage h none
    ({ state with done := true }, stopped ++ messageEnd usage state.stopReason)

/-- The chunks after the first one. -/
def streamRest : ClaudeConvertInfo U → List ((Nat → String) × StreamResponse U) →
    ClaudeConvertInfo U × List (ClaudeResponse J C)
  | state, [] => (state, [])
  | state, (uuid, r) :: rs =>
    let (state, events) := state.streamResponseOpenAI2Claude h false uuid r
    let (state, events') := streamRest state rs
    (state, events ++ events')

/-- **A whole stream**: the first chunk with the send counter at `1`, the other chunks, and the
end. Each step has the UUIDs that it draws. -/
def convertStream (first : (Nat → String) × StreamResponse U)
    (rest : List ((Nat → String) × StreamResponse U)) (uuid : Nat → String) :
    List (ClaudeResponse J C) :=
  let (state, events) :=
    ({} : ClaudeConvertInfo U).streamResponseOpenAI2Claude h true first.1 first.2
  let (state, events') := streamRest h state rest
  let (_, events'') := state.finalizeStreamResponseOpenAI2Claude h uuid
  events ++ events' ++ events''

end ClaudeConvertInfo

end NexusTok.Convert
