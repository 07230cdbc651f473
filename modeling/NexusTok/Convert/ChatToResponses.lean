import Mathlib.Data.List.Sort
import NexusTok.Convert.Responses

/-!
# Chat Completions to Responses: a stream

`ChatCompletionsStreamChunkToResponsesEvents` turns the chunks of a chat stream into Responses
events.  Hosted tools are started and completed in between, and the stream ends with
`FinalizeChatCompletionsStreamToResponses` or, after an error, with `Fail`.

* `ChatToResponsesStreamState` : the state.  The maps of tools are lists with one tool for each key.
* `Part`, `convertPart`, `convertParts` : a chunk is taken apart in the order in which the converter
  goes through it.  An error discards the events of the whole chunk, and the state stays as it is.
* `Call`, `convertCalls`, `convertStream` : a whole stream.
-/

namespace NexusTok.Convert

/-- What the converter calls on the way. -/
structure ChatToResponsesHost (J U : Type) extends JSONText where
  /-- `chatAnnotationsToResponses`; `none` is an error. -/
  chatAnnotationsToResponses : String → Option (List J)
  /-- `kitutil.Marshal` of an annotation; `none` is an error. -/
  annotationJSON : J → Option String
  /-- `dto.NormalizeResponsesWebSearchAction`; `none` is an error. -/
  normalizeWebSearchAction : String → Option String
  /-- `kitutil.Valid`. -/
  valid : String → Bool
  usageFromChatUsage : U → U
  emptyUsage : U

inductive ChatToResponsesError
  | invalidAnnotations
  | unmarshalable
  | dataAfterCompletion (chatIndex : Int)
  | changedID (chatIndex : Int) (callID incomingID : String)
  | changedName (chatIndex : Int) (name incomingName : String)
  | hostedWithoutID
  | hostedDuplicate (id : String)
  | hostedUnsupported (type : String)
  | hostedCaller (type : String)
  | hostedAction
  | hostedMCPNames
  | hostedArguments
  | hostedUnknown (id : String)
  | hostedCompleted (id : String)
  | hostedMismatch (resultType callType : String)
  | hostedContainer
  | hostedOutput
  | hostedError
deriving DecidableEq, Repr

structure ChatToResponsesStreamTool where
  chatIndex : Int
  outputIndex : Nat
  itemID : String
  callID : String
  name : String
  arguments : String := ""
  done : Bool := false
deriving DecidableEq, Repr

/-- `callID()`. -/
def ChatToResponsesStreamTool.callIDOrItemID (t : ChatToResponsesStreamTool) : String :=
  if t.callID = "" then t.itemID else t.callID

/-- The id of a fragment, if it has one. -/
def ChatToResponsesStreamTool.withID (t : ChatToResponsesStreamTool) (incomingID : String) :
    ChatToResponsesStreamTool :=
  if incomingID ≠ "" then { t with callID := incomingID } else t

/-- The name of a fragment, if it has one. -/
def ChatToResponsesStreamTool.withName (t : ChatToResponsesStreamTool) (incomingName : String) :
    ChatToResponsesStreamTool :=
  if incomingName ≠ "" then { t with name := incomingName } else t

structure ChatToResponsesHostedTool (J : Type) where
  outputIndex : Nat
  output : ResponsesOutput J
  done : Bool := false

/-- `chatToResponsesOutputRef`. -/
inductive OutputRef
  | message
  | reasoning
  | tool (toolIndex : Int)
  | hosted (hostedID : String)
deriving DecidableEq, Repr

structure HostedToolStreamStart where
  type : String
  id : String
  name : String := ""
  action : String := ""
  caller : String := ""
  serverLabel : String := ""

structure HostedToolStreamResult where
  type : String
  id : String
  result : String := ""
  errorCode : String := ""
  isError : Bool := false

structure ChatToResponsesStreamState (J U : Type) where
  id : String
  model : String
  created : Int
  usage : U
  emitSequenceNumber : Bool := false
  status : String := "completed"
  incompleteDetails : Option String := none
  sentCreated : Bool := false
  textOutputIndex : Int := -1
  textStarted : Bool := false
  textDone : Bool := false
  reasoningIndex : Int := -1
  reasoningStarted : Bool := false
  reasoningDone : Bool := false
  finalized : Bool := false
  nextSequenceNumber : Nat := 0
  nextOutputIndex : Nat := 0
  toolsByIndex : List ChatToResponsesStreamTool := []
  hostedByID : List (ChatToResponsesHostedTool J) := []
  outputOrder : List OutputRef := []
  text : String := ""
  annotations : List J := []
  reasoning : String := ""

/-- `ResponsesStatusFromChatFinishReason`: the status, and the reason of the details. -/
def responsesStatusFromChatFinishReason (finishReason : String) : String × Option String :=
  match trimSpace finishReason with
  | "length" => ("incomplete", some "max_output_tokens")
  | "content_filter" => ("incomplete", some "content_filter")
  | _ => ("completed", none)

def JSONText.chatArgumentsRawMessage (c : JSONText) (arguments : String) : String :=
  (c.marshal arguments).getD (quoted "")

def hostedEventPrefix (outputType : String) : String :=
  match outputType with
  | "web_search_call" => "response.web_search_call"
  | "mcp_call" => "response.mcp_call"
  | _ => ""

/-- `hostedTerminalEvent`; `none` is no event. -/
def hostedTerminalEvent (outputType : String) (failed : Bool) : Option String :=
  if hostedEventPrefix outputType = "" then none
  else if !failed then some (hostedEventPrefix outputType ++ ".completed")
  else if outputType = "mcp_call" then some (hostedEventPrefix outputType ++ ".failed")
  else none

variable {J U : Type}

variable (h : ChatToResponsesHost J U)

def ChatToResponsesHost.hostedJSONString (value : String) : Option String :=
  if value = "" then some (quoted "")
  else if h.valid value then h.marshal value else none

def ChatToResponsesHost.hostedResultString (value : String) : Option String :=
  if value = "" then some (quoted "")
  else if !h.valid value then none
  else if (trimSpace value).toList.head? = some '"' then some value
  else h.hostedJSONString value

namespace ChatToResponsesStreamState

/-- `NewChatToResponsesStreamState`, at the time `now`. -/
def new (id model : String) (now : Int) (emitSequenceNumber : Bool) :
    ChatToResponsesStreamState J U :=
  { id := id, model := model, created := now, usage := h.emptyUsage
    emitSequenceNumber := emitSequenceNumber }

variable (s : ChatToResponsesStreamState J U)

/-! ### Events -/

def event (payload : ResponsesStreamResponse J U) :
    ChatToResponsesStreamState J U × ResponsesStreamResponse J U :=
  if s.emitSequenceNumber then
    ({ s with nextSequenceNumber := s.nextSequenceNumber + 1 },
      { payload with sequenceNumber := some s.nextSequenceNumber })
  else (s, payload)

/-- Several events. -/
def emit : ChatToResponsesStreamState J U → List (ResponsesStreamResponse J U) →
    ChatToResponsesStreamState J U × List (ResponsesStreamResponse J U)
  | s, [] => (s, [])
  | s, payload :: payloads =>
    let (s, e) := s.event payload
    let (s, es) := emit s payloads
    (s, e :: es)

def createdResponse : ResponsesResponse J U :=
  { id := s.id, object := "response", createdAt := s.created, status := quoted "in_progress"
    model := s.model }

def ensureCreated : ChatToResponsesStreamState J U × List (ResponsesStreamResponse J U) :=
  if s.sentCreated then (s, [])
  else
    ({ s with sentCreated := true } : ChatToResponsesStreamState J U).emit
      [{ type := "response.created", response := some s.createdResponse }]

def messageID : String := s.id ++ "_msg_0"

def reasoningID : String := s.id ++ "_reasoning_0"

def outputStatus : String :=
  if s.status = "incomplete" ∨ s.status = "failed" then "incomplete" else "completed"

def messageOutput (status : String) : ResponsesOutput J :=
  { type := "message", id := s.messageID, status := status, role := "assistant"
    content := [{ type := "output_text", text := s.text, annotations := s.annotations }] }

def reasoningOutput (status : String) : ResponsesOutput J :=
  { type := "reasoning", id := s.reasoningID, status := status
    summary := [{ type := "summary_text", text := s.reasoning }] }

def toolOutput (tool : ChatToResponsesStreamTool) (status : String) : ResponsesOutput J :=
  { type := "function_call", id := tool.itemID, status := status, callId := tool.callIDOrItemID
    name := tool.name, arguments := h.chatArgumentsRawMessage tool.arguments }

def findTool (chatIndex : Int) : Option ChatToResponsesStreamTool :=
  s.toolsByIndex.find? (·.chatIndex == chatIndex)

/-- A tool call changed in place. -/
def setTool (tool : ChatToResponsesStreamTool) : ChatToResponsesStreamState J U :=
  { s with toolsByIndex := s.toolsByIndex.map fun t =>
      if t.chatIndex = tool.chatIndex then tool else t }

def findHosted (id : String) : Option (ChatToResponsesHostedTool J) :=
  s.hostedByID.find? (·.output.id == id)

/-- A hosted tool changed in place. -/
def setHosted (tool : ChatToResponsesHostedTool J) : ChatToResponsesStreamState J U :=
  { s with hostedByID := s.hostedByID.map fun t =>
      if t.output.id = tool.output.id then tool else t }

def sortedTools : List ChatToResponsesStreamTool :=
  s.toolsByIndex.mergeSort fun t t' => decide (t.chatIndex ≤ t'.chatIndex)

/-! ### Parts of chunks -/

def startText : ChatToResponsesStreamState J U × List (ResponsesStreamResponse J U) :=
  if s.textStarted then (s, [])
  else
    ({ s with
        textStarted := true
        textOutputIndex := s.nextOutputIndex
        nextOutputIndex := s.nextOutputIndex + 1
        outputOrder := s.outputOrder ++ [.message] } : ChatToResponsesStreamState J U).emit
      [{ type := "response.output_item.added", outputIndex := some s.nextOutputIndex
         item := some { type := "message", id := s.messageID, status := "in_progress"
                        role := "assistant" } }]

def appendTextDelta (delta : String) :
    ChatToResponsesStreamState J U × List (ResponsesStreamResponse J U) :=
  let (s, started) := s.startText
  let (s, events) := ({ s with text := s.text ++ delta } : ChatToResponsesStreamState J U).emit
    [{ type := "response.output_text.delta", outputIndex := some s.textOutputIndex
       contentIndex := some 0, delta := delta, itemID := s.messageID }]
  (s, started ++ events)

/-- The annotations of `appendAnnotationDelta`, one after the other. -/
def appendAnnotations (h : ChatToResponsesHost J U) : ChatToResponsesStreamState J U → List J →
    ChatToResponsesStreamState J U ×
      Except ChatToResponsesError (List (ResponsesStreamResponse J U))
  | s, [] => (s, .ok [])
  | s, annotation :: annotations =>
    match h.annotationJSON annotation with
    | none => (s, .error .unmarshalable)
    | some annotationJSON =>
      let (s, events) := ({ s with annotations := s.annotations ++ [ annotation] } :
          ChatToResponsesStreamState J U).emit
        [{ type := "response.output_text.annotation.added", outputIndex := some s.textOutputIndex
           contentIndex := some 0, annotationIndex := some s.annotations.length
           annotation := annotationJSON, itemID := s.messageID }]
      match appendAnnotations h s annotations with
      | (s, .error e) => (s, .error e)
      | (s, .ok events') => (s, .ok (events ++ events'))

def appendAnnotationDelta (h : ChatToResponsesHost J U) (raw : String) :
    ChatToResponsesStreamState J U ×
      Except ChatToResponsesError (List (ResponsesStreamResponse J U)) :=
  match h.chatAnnotationsToResponses raw with
  | none => (s, .error .invalidAnnotations)
  | some annotations =>
    let (s, started) := s.startText
    match s.appendAnnotations h annotations with
    | (s, .error e) => (s, .error e)
    | (s, .ok events) => (s, .ok (started ++ events))

def appendReasoningDelta (delta : String) :
    ChatToResponsesStreamState J U × List (ResponsesStreamResponse J U) :=
  let (s, started) :=
    if s.reasoningStarted then (s, [])
    else
      ({ s with
          reasoningStarted := true
          reasoningIndex := s.nextOutputIndex
          nextOutputIndex := s.nextOutputIndex + 1
          outputOrder := s.outputOrder ++ [.reasoning] } : ChatToResponsesStreamState J U).emit
        [{ type := "response.output_item.added", outputIndex := some s.nextOutputIndex
           item := some { type := "reasoning", id := s.reasoningID, status := "in_progress" } }]
  let (s, events) := ({ s with reasoning := s.reasoning ++ delta } :
      ChatToResponsesStreamState J U).emit
    [{ type := "response.reasoning_summary_text.delta", outputIndex := some s.reasoningIndex
       summaryIndex := some 0, delta := delta, itemID := s.reasoningID }]
  (s, started ++ events)

def newTool (toolCall : ToolCallResponse) : ChatToResponsesStreamTool :=
  let chatIndex := toolCall.index.getD 0
  let incomingID := trimSpace toolCall.id
  { chatIndex := chatIndex, outputIndex := s.nextOutputIndex, callID := incomingID
    name := trimSpace toolCall.function.name
    itemID := if incomingID = "" then s.id ++ "_call_" ++ toString chatIndex else incomingID }

/-- The tool call of a fragment, added if it is new. -/
def ensureTool (toolCall : ToolCallResponse) :
    ChatToResponsesStreamTool ×
      (ChatToResponsesStreamState J U × List (ResponsesStreamResponse J U)) :=
  match s.findTool (toolCall.index.getD 0) with
  | some tool => (tool, s, [])
  | none =>
    let tool := s.newTool toolCall
    (tool, ({ s with
        nextOutputIndex := s.nextOutputIndex + 1
        outputOrder := s.outputOrder ++ [.tool tool.chatIndex]
        toolsByIndex := s.toolsByIndex ++ [tool] } : ChatToResponsesStreamState J U).emit
      [{ type := "response.output_item.added", outputIndex := some tool.outputIndex
         itemID := tool.itemID
         item := some { type := "function_call", id := tool.itemID, status := "in_progress"
                        callId := tool.callIDOrItemID, name := tool.name
                        arguments := quoted "" } }])

def appendToolCallDelta (toolCall : ToolCallResponse) :
    ChatToResponsesStreamState J U ×
      Except ChatToResponsesError (List (ResponsesStreamResponse J U)) :=
  let chatIndex := toolCall.index.getD 0
  let incomingID := trimSpace toolCall.id
  let (tool, s, added) := s.ensureTool toolCall
  if tool.done then (s, .error (.dataAfterCompletion chatIndex))
  else if incomingID ≠ "" ∧ tool.callID ≠ "" ∧ tool.callID ≠ incomingID then
    (s, .error (.changedID chatIndex tool.callID incomingID))
  else
    let tool := tool.withID incomingID
    let incomingName := trimSpace toolCall.function.name
    if incomingName ≠ "" ∧ tool.name ≠ "" ∧ tool.name ≠ incomingName then
      (s.setTool tool, .error (.changedName chatIndex tool.name incomingName))
    else
      let tool := tool.withName incomingName
      if toolCall.function.arguments ≠ "" then
        let tool := { tool with arguments := tool.arguments ++ toolCall.function.arguments }
        let (s, events) := (s.setTool tool).emit
          [{ type := "response.function_call_arguments.delta"
             outputIndex := some tool.outputIndex, itemID := tool.itemID
             delta := toolCall.function.arguments }]
        (s, .ok (added ++ events))
      else (s.setTool tool, .ok added)

/-! ### The ends of items -/

def doneText (status : String) :
    ChatToResponsesStreamState J U × List (ResponsesStreamResponse J U) :=
  if s.textStarted && !s.textDone then
    ({ s with textDone := true } : ChatToResponsesStreamState J U).emit
      [{ type := "response.output_text.done", outputIndex := some s.textOutputIndex
         contentIndex := some 0, itemID := s.messageID
         text := if s.emitSequenceNumber then some s.text else none },
       { type := "response.output_item.done", outputIndex := some s.textOutputIndex
         item := some (s.messageOutput status) }]
  else (s, [])

def doneReasoning (status : String) :
    ChatToResponsesStreamState J U × List (ResponsesStreamResponse J U) :=
  if s.reasoningStarted && !s.reasoningDone then
    ({ s with reasoningDone := true } : ChatToResponsesStreamState J U).emit
      [{ type := "response.reasoning_summary_text.done", outputIndex := some s.reasoningIndex
         summaryIndex := some 0, itemID := s.reasoningID
         part := if s.emitSequenceNumber then none else some { text := s.reasoning }
         text := if s.emitSequenceNumber then some s.reasoning else none },
       { type := "response.output_item.done", outputIndex := some s.reasoningIndex
         item := some (s.reasoningOutput status) }]
  else (s, [])

/-- The ends of tool calls. -/
def doneTools (h : ChatToResponsesHost J U) (status : String) :
    ChatToResponsesStreamState J U → List ChatToResponsesStreamTool →
      ChatToResponsesStreamState J U × List (ResponsesStreamResponse J U)
  | s, [] => (s, [])
  | s, tool :: tools =>
    if tool.done then doneTools h status s tools
    else
      let (s, events) := (s.setTool { tool with done := true }).emit
        [{ type := "response.function_call_arguments.done"
           outputIndex := some tool.outputIndex, itemID := tool.itemID
           arguments := if s.emitSequenceNumber then some tool.arguments else none
           name := if s.emitSequenceNumber then tool.name else "" },
         { type := "response.output_item.done", outputIndex := some tool.outputIndex
           item := some (toolOutput h tool status) }]
      let (s, events') := doneTools h status s tools
      (s, events ++ events')

/-- What is left of a hosted tool that has no result: its output, and the event of its failure. -/
def abandoned (status : String) (tool : ChatToResponsesHostedTool J) :
    ChatToResponsesHostedTool J × List (ResponsesStreamResponse J U) :=
  if status = "failed" then
    let failed := { tool.output with status := "failed" }
    ({ tool with
        done := true
        output := match h.marshal "provider stream failed before hosted-tool result" with
          | some errorValue =>
            if tool.output.type = "mcp_call" then
              { failed with itemError := errorValue, output := "" }
            else failed
          | none => failed },
      match hostedTerminalEvent tool.output.type true with
      | some eventType =>
        [{ type := eventType, outputIndex := some tool.outputIndex, itemID := tool.output.id }]
      | none => [])
  else ({ tool with done := true, output := { tool.output with status := "incomplete" } }, [])

/-- A response that lacks the result of a hosted tool is incomplete. -/
def markIncomplete : ChatToResponsesStreamState J U :=
  if s.status ≠ "failed" then { s with status := "incomplete" } else s

/-- The end of a hosted tool without a result. -/
def abandonHosted (h : ChatToResponsesHost J U) (tool : ChatToResponsesHostedTool J) :
    ChatToResponsesStreamState J U × List (ResponsesStreamResponse J U) :=
  let s := s.markIncomplete
  let (left, failure) := abandoned (U := U) h s.status tool
  (s.setHosted left).emit (failure ++
    [{ type := "response.output_item.done", outputIndex := some left.outputIndex
       itemID := left.output.id, item := some left.output }])

/-- The ends of hosted tools. -/
def doneHosted (h : ChatToResponsesHost J U) : ChatToResponsesStreamState J U → List OutputRef →
    ChatToResponsesStreamState J U × List (ResponsesStreamResponse J U)
  | s, [] => (s, [])
  | s, .hosted id :: refs =>
    match s.findHosted id with
    | none => doneHosted h s refs
    | some tool =>
      if tool.done then doneHosted h s refs
      else
        let (s, events) := s.abandonHosted h tool
        let (s, events') := doneHosted h s refs
        (s, events ++ events')
  | s, .message :: refs => doneHosted h s refs
  | s, .reasoning :: refs => doneHosted h s refs
  | s, .tool _ :: refs => doneHosted h s refs

def doneDeltaEvents (h : ChatToResponsesHost J U) :
    ChatToResponsesStreamState J U × List (ResponsesStreamResponse J U) :=
  let status := s.outputStatus
  let (s, text) := s.doneText status
  let (s, reasoning) := s.doneReasoning status
  let (s, tools) := doneTools h status s s.sortedTools
  let (s, hosted) := doneHosted h s s.outputOrder
  (s, text ++ reasoning ++ tools ++ hosted)

def applyFinishReason (finishReason : String) : ChatToResponsesStreamState J U :=
  let (status, details) := responsesStatusFromChatFinishReason finishReason
  { s with status := status, incompleteDetails := details }

/-- The output item of a reference. -/
def outputOf (h : ChatToResponsesHost J U) (status : String) :
    OutputRef → Option (ResponsesOutput J)
  | .message => some (s.messageOutput status)
  | .reasoning => some (s.reasoningOutput status)
  | .tool i => (s.findTool i).map fun tool => toolOutput h tool status
  | .hosted id => (s.findHosted id).map (·.output)

def finalResponse (h : ChatToResponsesHost J U) : ResponsesResponse J U :=
  { id := s.id, object := "response", createdAt := s.created, status := quoted s.status
    incompleteDetails := s.incompleteDetails, model := s.model
    output := s.outputOrder.filterMap (s.outputOf h s.outputStatus)
    usage := some s.usage }

end ChatToResponsesStreamState

/-! ### Chunks -/

/-- What a choice has, in the order in which the converter looks at it. -/
inductive Part
  | reasoning (delta : String)
  | text (delta : String)
  | annotations (raw : String)
  | toolCall (toolCall : ToolCallResponse)
  | finish (finishReason : String)
deriving DecidableEq, Repr

def StreamChoice.parts (c : StreamChoice) : List Part :=
  (if c.delta.getReasoningContent ≠ "" then [.reasoning c.delta.getReasoningContent] else []) ++
    (if c.delta.getContentString ≠ "" then [.text c.delta.getContentString] else []) ++
    (if c.delta.annotations.getD "" ≠ "" then [.annotations (c.delta.annotations.getD "")]
      else []) ++
    c.delta.toolCalls.map .toolCall ++
    (if trimSpace (c.finishReason.getD "") ≠ "" then [.finish (c.finishReason.getD "")] else [])

namespace ChatToResponsesStreamState

variable (s : ChatToResponsesStreamState J U)

def convertPart (h : ChatToResponsesHost J U) : Part →
    ChatToResponsesStreamState J U ×
      Except ChatToResponsesError (List (ResponsesStreamResponse J U))
  | .reasoning delta => let (s, events) := s.appendReasoningDelta delta; (s, .ok events)
  | .text delta => let (s, events) := s.appendTextDelta delta; (s, .ok events)
  | .annotations raw => s.appendAnnotationDelta h raw
  | .toolCall toolCall => s.appendToolCallDelta toolCall
  | .finish finishReason =>
    let (s, events) := (s.applyFinishReason finishReason).doneDeltaEvents h
    (s, .ok events)

/-- Parts one after the other; an error discards their events. -/
def convertParts (h : ChatToResponsesHost J U) : ChatToResponsesStreamState J U → List Part →
    ChatToResponsesStreamState J U ×
      Except ChatToResponsesError (List (ResponsesStreamResponse J U))
  | s, [] => (s, .ok [])
  | s, p :: ps =>
    match s.convertPart h p with
    | (s, .error e) => (s, .error e)
    | (s, .ok events) =>
      match convertParts h s ps with
      | (s, .error e) => (s, .error e)
      | (s, .ok events') => (s, .ok (events ++ events'))

/-- What a chunk says of the response. -/
def applyChunk (h : ChatToResponsesHost J U) (chunk : StreamResponse U) :
    ChatToResponsesStreamState J U :=
  { s with
    id := if s.id = "" then chunk.id else s.id
    model := if s.model = "" then chunk.model else s.model
    created := if s.created = 0 then chunk.created else s.created
    usage := match chunk.usage with
      | some usage => h.usageFromChatUsage usage
      | none => s.usage }

/-- `ChatCompletionsStreamChunkToResponsesEvents`. -/
def chunkToResponsesEvents (h : ChatToResponsesHost J U) (chunk : StreamResponse U) :
    ChatToResponsesStreamState J U ×
      Except ChatToResponsesError (List (ResponsesStreamResponse J U)) :=
  let (s, created) := (s.applyChunk h chunk).ensureCreated
  match s.convertParts h (chunk.choices.flatMap StreamChoice.parts) with
  | (s, .error e) => (s, .error e)
  | (s, .ok events) => (s, .ok (created ++ events))

/-- `FinalizeChatCompletionsStreamToResponses`. -/
def finalizeToResponses (h : ChatToResponsesHost J U) :
    ChatToResponsesStreamState J U × List (ResponsesStreamResponse J U) :=
  if s.finalized then (s, [])
  else
    let (s, done) := s.doneDeltaEvents h
    let (s, completed) := ({ s with finalized := true } : ChatToResponsesStreamState J U).emit
      [{ type := if s.status = "incomplete" then "response.incomplete" else "response.completed"
         response := some (s.finalResponse h) }]
    (s, done ++ completed)

def fail (h : ChatToResponsesHost J U) (code message param : String) :
    ChatToResponsesStreamState J U × List (ResponsesStreamResponse J U) :=
  if s.finalized then (s, [])
  else
    let code := if trimSpace code = "" then "server_error" else trimSpace code
    let message :=
      if trimSpace message = "" then "upstream response stream failed" else trimSpace message
    let (s, created) := ({ s with status := "failed" } :
      ChatToResponsesStreamState J U).ensureCreated
    let (s, done) := s.doneDeltaEvents h
    let (s, failed) := ({ s with finalized := true } : ChatToResponsesStreamState J U).emit
      [{ type := "error", code := code, message := message, param := param },
       { type := "response.failed"
         response := some { s.finalResponse h with error := some (code, message) } }]
    (s, created ++ done ++ failed)

/-! ### Hosted tools -/

/-- The output item of a hosted tool that starts. -/
def hostedOutput (start : HostedToolStreamStart) :
    Except ChatToResponsesError (ResponsesOutput J) :=
  let output : ResponsesOutput J :=
    { type := start.type, id := trimSpace start.id, status := "in_progress" }
  match start.type with
  | "web_search_call" =>
    match h.normalizeWebSearchAction start.action with
    | some action => .ok { output with action := action }
    | none => .error .hostedAction
  | "code_interpreter_call" => .error .hostedContainer
  | "mcp_call" =>
    if trimSpace start.name = "" ∨ trimSpace start.serverLabel = "" then .error .hostedMCPNames
    else
      match h.hostedJSONString start.action with
      | some arguments =>
        .ok { output with
          name := start.name, serverLabel := start.serverLabel, arguments := arguments }
      | none => .error .hostedArguments
  | _ => .ok output

/-- The events of a hosted tool that starts, after `response.created`. -/
def hostedStartEvents (outputIndex : Nat)
    (output : ResponsesOutput J) : List (ResponsesStreamResponse J U) :=
  { type := "response.output_item.added", outputIndex := some outputIndex, itemID := output.id
    item := some (if output.type = "mcp_call" then { output with arguments := quoted "" }
      else output) } ::
  { type := hostedEventPrefix output.type ++ ".in_progress", outputIndex := some outputIndex
    itemID := output.id } ::
  ((if output.type = "web_search_call" then
      [{ type := hostedEventPrefix output.type ++ ".searching", outputIndex := some outputIndex
         itemID := output.id }]
    else []) ++
   if output.type = "mcp_call" then
      [{ type := "response.mcp_call_arguments.delta", outputIndex := some outputIndex
         itemID := output.id, delta := h.jsonRawMessageToString output.arguments },
       { type := "response.mcp_call_arguments.done", outputIndex := some outputIndex
         itemID := output.id, arguments := some (h.jsonRawMessageToString output.arguments) }]
   else [])

/-- A new hosted tool. -/
def addHosted (id : String) (output : ResponsesOutput J) : ChatToResponsesStreamState J U :=
  { s with
    nextOutputIndex := s.nextOutputIndex + 1
    outputOrder := s.outputOrder ++ [.hosted id]
    hostedByID := s.hostedByID ++ [{ outputIndex := s.nextOutputIndex, output := output }] }

def startHostedTool (h : ChatToResponsesHost J U) (start : HostedToolStreamStart) :
    ChatToResponsesStreamState J U ×
      Except ChatToResponsesError (List (ResponsesStreamResponse J U)) :=
  let id := trimSpace start.id
  let caller := trimSpace start.caller
  if id = "" then (s, .error .hostedWithoutID)
  else if (s.findHosted id).isSome then (s, .error (.hostedDuplicate id))
  else if hostedEventPrefix start.type = "" then (s, .error (.hostedUnsupported start.type))
  else if caller ≠ "" ∧ caller ≠ "null" then (s, .error (.hostedCaller start.type))
  else
    match hostedOutput h start with
    | .error e => (s, .error e)
    | .ok output =>
      let outputIndex := s.nextOutputIndex
      let (s, created) := (s.addHosted id output).ensureCreated
      let (s, events) := s.emit (hostedStartEvents h outputIndex output)
      (s, .ok (created ++ events))

/-- The output item of a hosted tool that gets its result, with the error if the result is not
accepted. -/
def completedOutput (result : HostedToolStreamResult)
    (output : ResponsesOutput J) : ResponsesOutput J × Option ChatToResponsesError :=
  let failed := result.isError || trimSpace result.errorCode != ""
  let errorValue :=
    if result.errorCode = "" then "hosted tool execution failed" else result.errorCode
  let completed := { output with status := "completed" }
  match output.type with
  | "code_interpreter_call" => (completed, some .hostedContainer)
  | "mcp_call" =>
    match h.hostedResultString result.result with
    | none => (completed, some .hostedOutput)
    | some value =>
      if failed then
        match h.marshal errorValue with
        | some encoded =>
          ({ completed with status := "failed", itemError := encoded, output := "" }, none)
        | none => ({ completed with status := "failed", output := value }, some .hostedError)
      else ({ completed with output := value }, none)
  | _ => (if failed then { completed with status := "failed" } else completed, none)

def completeHostedTool (h : ChatToResponsesHost J U) (result : HostedToolStreamResult) :
    ChatToResponsesStreamState J U ×
      Except ChatToResponsesError (List (ResponsesStreamResponse J U)) :=
  let id := trimSpace result.id
  match s.findHosted id with
  | none => (s, .error (.hostedUnknown id))
  | some tool =>
    if tool.done then (s, .error (.hostedCompleted id))
    else if result.type ≠ "" ∧ result.type ≠ tool.output.type then
      (s, .error (.hostedMismatch result.type tool.output.type))
    else
      let failed := result.isError || trimSpace result.errorCode != ""
      match completedOutput h result tool.output with
      | (output, some e) => (s.setHosted { tool with output := output }, .error e)
      | (output, none) =>
        let (s, events) := (s.setHosted { tool with output := output, done := true }).emit
          ((match hostedTerminalEvent output.type failed with
            | some eventType =>
              [{ type := eventType, outputIndex := some tool.outputIndex, itemID := id }]
            | none => []) ++
            [{ type := "response.output_item.done", outputIndex := some tool.outputIndex
               itemID := id, item := some output }])
        (s, .ok events)

/-! ### Streams -/

end ChatToResponsesStreamState

/-- A call of the stream's user. -/
inductive ResponsesCall (U : Type)
  | chunk (chunk : StreamResponse U)
  | startHosted (start : HostedToolStreamStart)
  | completeHosted (result : HostedToolStreamResult)

namespace ChatToResponsesStreamState

def convertCall (s : ChatToResponsesStreamState J U) :
    ResponsesCall U → ChatToResponsesStreamState J U ×
      Except ChatToResponsesError (List (ResponsesStreamResponse J U))
  | .chunk chunk => s.chunkToResponsesEvents h chunk
  | .startHosted start => s.startHostedTool h start
  | .completeHosted result => s.completeHostedTool h result

/-- Calls up to the first error: the events that they return, and whether there was an error. -/
def convertCalls (h : ChatToResponsesHost J U) : ChatToResponsesStreamState J U →
    List (ResponsesCall U) →
      ChatToResponsesStreamState J U × List (ResponsesStreamResponse J U) × Bool
  | s, [] => (s, [], false)
  | s, call :: calls =>
    match s.convertCall h call with
    | (s, .error _) => (s, [], true)
    | (s, .ok events) =>
      let (s, events', failed) := convertCalls h s calls
      (s, events ++ events', failed)

/-- **A whole stream**: the calls, then the end, which is `Fail` after an error. -/
def convertStream (s : ChatToResponsesStreamState J U)
    (calls : List (ResponsesCall U)) (code message param : String) :
    List (ResponsesStreamResponse J U) :=
  let (s, events, failed) := convertCalls h s calls
  events ++ if failed then (s.fail h code message param).2 else (s.finalizeToResponses h).2

end ChatToResponsesStreamState

end NexusTok.Convert
