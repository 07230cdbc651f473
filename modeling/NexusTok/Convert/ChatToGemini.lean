import Mathlib.Data.List.Sort
import NexusTok.Convert.Gemini
import NexusTok.Tokens.Bridges

/-!
# Chat Completions to Gemini: a stream

`ChatToGeminiStreamState` turns the chunks of a chat stream into Gemini responses.  A Gemini
function call is one part, so the fragments of tool calls are gathered until their choice ends.

* `ChatToGeminiChoice` : what the state has of one choice.  The maps of the source have the choice
  in their keys; here they are maps of the choice, and a tool call is its place in the list.
* `convertChunk`, `finalize` : one call of the converter.
* `convertChunks`, `finalizeAll` : a whole stream.

A call is given the tokens that the prompt is estimated to have (`GetEstimatePromptTokens`), which
fill the metadata of a response that is sent without usage.
-/

namespace NexusTok.Convert

open Tokens (Usage GeminiUsageMetadata usageFromChatUsage geminiStreamMetadata)

/-- What `geminiFunctionArguments` calls on the way. -/
structure ChatToGeminiHost (J : Type) where
  /-- `kitutil.Unmarshal` into an object; `none` is an error, or `null`. -/
  unmarshalObject : String → Option J
  /-- The object with no members. -/
  emptyObject : J
  /-- The object whose one member `arguments` is a text. -/
  argumentsObject : String → J

inductive ChatToGeminiError
  | afterFinalization
  | afterCompletion (choiceIndex : Int)
  | negativeIndex (choiceIndex toolIndex : Int)
  | toolAfterCompletion (choiceIndex toolIndex : Int)
  | changedID (choiceIndex toolIndex : Int) (id incomingID : String)
  | changedName (choiceIndex toolIndex : Int) (name incomingName : String)
  | withoutName (choiceIndex : Int)
deriving DecidableEq, Repr

structure ChatToGeminiStreamTool where
  id : String := ""
  name : String := ""
  arguments : String := ""
  emitted : Bool := false
deriving DecidableEq, Repr

/-- What `ChatToGeminiStreamState` has of one choice. -/
structure ChatToGeminiChoice where
  tools : List ChatToGeminiStreamTool := []
  toolByIndex : Int → Option Nat := fun _ => none
  toolByID : String → Option Nat := fun _ => none
  finished : Bool := false

/-- `dto.GeminiChatResponse`, as far as the stream fills it. -/
structure GeminiChatResponse (J : Type) where
  candidates : List (GeminiCandidate J Empty) := []
  usageMetadata : GeminiUsageMetadata

structure ChatToGeminiStreamState where
  choices : Int → ChatToGeminiChoice := fun _ => {}
  seenChoices : List Int := []
  usage : Option Usage := none
  usageEmitted : Bool := false
  finalized : Bool := false

variable {J : Type} (h : ChatToGeminiHost J)

def geminiFunctionArguments (raw : String) : J :=
  if trimSpace raw = "" ∨ trimSpace raw = "null" then h.emptyObject
  else (h.unmarshalObject raw).getD (h.argumentsObject raw)

def geminiFinishReason (finishReason : String) : String :=
  match trimSpace finishReason with
  | "length" => "MAX_TOKENS"
  | "content_filter" => "SAFETY"
  | _ => "STOP"

/-- The finish reason of a choice in a chunk, if it has one. -/
def StreamChoice.finish (c : StreamChoice) : Option String :=
  c.finishReason.filter fun reason => trimSpace reason != ""

/-- A fragment with the position in its delta for a missing index. -/
def ToolCallResponse.placed (t : ToolCallResponse) (position : Nat) : ToolCallResponse :=
  { t with index := some (t.index.getD position) }

/-- The fragments of a delta, each with an index. -/
def StreamChoice.fragments (c : StreamChoice) : List ToolCallResponse :=
  c.delta.toolCalls.zipIdx.map fun p => p.1.placed p.2

namespace ChatToGeminiStreamTool

/-- A fragment's id, name and arguments joined to its call. -/
def extend (tool : ChatToGeminiStreamTool) (t : ToolCallResponse) : ChatToGeminiStreamTool :=
  { tool with
    id := if trimSpace t.id ≠ "" then trimSpace t.id else tool.id
    name := if trimSpace t.function.name ≠ "" then trimSpace t.function.name else tool.name
    arguments := tool.arguments ++ t.function.arguments }

/-- `tool.ID` is set, and `incomingID` is another id. -/
def hasOtherID (tool : ChatToGeminiStreamTool) (incomingID : String) : Bool :=
  incomingID != "" && tool.id != "" && tool.id != incomingID

def part (tool : ChatToGeminiStreamTool) : GeminiPart J :=
  { functionCall := some
      { id := tool.id, functionName := tool.name
        arguments := some (geminiFunctionArguments h tool.arguments) } }

end ChatToGeminiStreamTool

namespace ChatToGeminiChoice

variable (c : ChatToGeminiChoice)

/-- The tool call at a place. -/
def toolAt (n : Nat) : ChatToGeminiStreamTool := c.tools.getD n {}

/-- The place of the call that a fragment belongs to: that of its id, else the one last seen at its
index, unless this has another id. -/
def findTool (toolIndex : Int) (incomingID : String) : Option Nat :=
  let byID := if incomingID ≠ "" then c.toolByID incomingID else none
  (byID.or (c.toolByIndex toolIndex)).filter fun n => !(c.toolAt n).hasOtherID incomingID

/-- A fragment joined to the call at a place, which is known by the fragment's index and id now. -/
def putTool (n : Nat) (t : ToolCallResponse) : ChatToGeminiChoice :=
  { c with
    tools := if n < c.tools.length then c.tools.set n ((c.toolAt n).extend t)
             else c.tools ++ [(c.toolAt n).extend t]
    toolByIndex := Function.update c.toolByIndex (t.index.getD 0) (some n)
    toolByID := if trimSpace t.id ≠ "" then Function.update c.toolByID (trimSpace t.id) (some n)
                else c.toolByID }

def appendToolCallDelta (choiceIndex : Int) (t : ToolCallResponse) :
    Except ChatToGeminiError ChatToGeminiChoice :=
  let toolIndex := t.index.getD 0
  if toolIndex < 0 then .error (.negativeIndex choiceIndex toolIndex)
  else
    let incomingID := trimSpace t.id
    let incomingName := trimSpace t.function.name
    let n := (c.findTool toolIndex incomingID).getD c.tools.length
    let tool := c.toolAt n
    if tool.emitted then .error (.toolAfterCompletion choiceIndex toolIndex)
    else if tool.hasOtherID incomingID then
      .error (.changedID choiceIndex toolIndex tool.id incomingID)
    else if incomingName ≠ "" ∧ tool.name ≠ "" ∧ tool.name ≠ incomingName then
      .error (.changedName choiceIndex toolIndex tool.name incomingName)
    else .ok (c.putTool n t)

/-- The fragments of a delta, one after the other. -/
def appendToolCalls (choiceIndex : Int) : ChatToGeminiChoice → List ToolCallResponse →
    Except ChatToGeminiError ChatToGeminiChoice
  | c, [] => .ok c
  | c, t :: ts => do
    let c ← c.appendToolCallDelta choiceIndex t
    appendToolCalls choiceIndex c ts

/-- The tool calls that are not emitted. -/
def pending : List ChatToGeminiStreamTool := c.tools.filter (!·.emitted)

def finishChoice (choiceIndex : Int) :
    Except ChatToGeminiError (ChatToGeminiChoice × List (GeminiPart J)) :=
  if c.pending.any (·.name == "") then .error (.withoutName choiceIndex)
  else .ok ({ c with tools := c.tools.map ({ · with emitted := true }) },
    c.pending.map (·.part h))

/-- One choice of a chunk, in the loop of `ConvertChunk`; `none` is no candidate. -/
def convertChoice (choice : StreamChoice) :
    Except ChatToGeminiError (ChatToGeminiChoice × Option (GeminiCandidate J Empty)) :=
  let content := choice.delta.getContentString
  if c.finished then
    if content ≠ "" ∨ choice.delta.toolCalls ≠ [] then .error (.afterCompletion choice.index)
    else .ok (c, none)
  else do
    let c ← appendToolCalls choice.index c choice.fragments
    let text : List (GeminiPart J) := if content ≠ "" then [{ text := content }] else []
    match choice.finish with
    | none =>
      .ok (c, if text ≠ [] then some { parts := text, index := choice.index } else none)
    | some reason =>
      let (c, parts) ← c.finishChoice h choice.index
      .ok ({ c with finished := true },
        some { parts := text ++ parts, finishReason := some (geminiFinishReason reason)
               index := choice.index })

end ChatToGeminiChoice

namespace ChatToGeminiStreamState

variable (s : ChatToGeminiStreamState)

/-- The state with a choice changed. -/
def setChoice (i : Int) (c : ChatToGeminiChoice) : ChatToGeminiStreamState :=
  { s with choices := Function.update s.choices i c }

/-- A choice index in `seenChoices`. -/
def see (i : Int) : ChatToGeminiStreamState :=
  { s with seenChoices := if i ∈ s.seenChoices then s.seenChoices else s.seenChoices ++ [i] }

/-- The loop of `ConvertChunk` over the choices of a chunk. -/
def convertChoices : ChatToGeminiStreamState → List StreamChoice →
    Except ChatToGeminiError (ChatToGeminiStreamState × List (GeminiCandidate J Empty))
  | s, [] => .ok (s, [])
  | s, choice :: choices => do
    let (c, candidate) ← (s.choices choice.index).convertChoice h choice
    let (s, candidates) ← convertChoices ((s.see choice.index).setChoice choice.index c) choices
    .ok (s, candidate.toList ++ candidates)

/-- `len(s.finishedChoices) > 0`; a choice that is finished has been seen. -/
def anyFinished : Bool := s.seenChoices.any fun i => (s.choices i).finished

def convertChunk (estimatePromptTokens : Int) (chunk : StreamResponse Usage) :
    Except ChatToGeminiError (ChatToGeminiStreamState × List (GeminiChatResponse J)) :=
  if s.finalized then .error .afterFinalization
  else do
    let received : ChatToGeminiStreamState :=
      { s with usage := (chunk.usage.map usageFromChatUsage).or s.usage }
    let (s, candidates) ← received.convertChoices h chunk.choices
    if candidates.isEmpty then
      if chunk.usage.isSome ∧ s.anyFinished then
        .ok ({ s with usageEmitted := true },
          [{ usageMetadata := geminiStreamMetadata estimatePromptTokens s.usage }])
      else .ok (s, [])
    else
      .ok ({ s with usageEmitted := s.usageEmitted || chunk.usage.isSome },
        [{ candidates := candidates
           usageMetadata := geminiStreamMetadata estimatePromptTokens chunk.usage }])

/-- The choices that `Finalize` ends, in order.  Only a choice that has been seen has tool calls. -/
def openChoices : List Int :=
  (s.seenChoices.filter fun i =>
    !(s.choices i).pending.isEmpty || !(s.choices i).finished).mergeSort (· ≤ ·)

/-- The loop of `Finalize` over the choices that it ends. -/
def finishChoices : ChatToGeminiStreamState → List Int →
    Except ChatToGeminiError (ChatToGeminiStreamState × List (GeminiCandidate J Empty))
  | s, [] => .ok (s, [])
  | s, i :: is => do
    let (c, parts) ← (s.choices i).finishChoice h i
    let (s, candidates) ← finishChoices (s.setChoice i c) is
    .ok (s, { parts := parts, finishReason := some "STOP", index := i } :: candidates)

def finalize (estimatePromptTokens : Int) :
    Except ChatToGeminiError (ChatToGeminiStreamState × List (GeminiChatResponse J)) :=
  if s.finalized then .ok (s, [])
  else do
    let (s, candidates) ← s.finishChoices h s.openChoices
    if candidates.isEmpty then
      if s.usage.isNone ∨ s.usageEmitted then .ok ({ s with finalized := true }, [])
      else
        .ok ({ s with finalized := true, usageEmitted := true },
          [{ usageMetadata := geminiStreamMetadata estimatePromptTokens s.usage }])
    else
      .ok ({ s with finalized := true, usageEmitted := s.usage.isSome },
        [{ candidates := candidates
           usageMetadata := geminiStreamMetadata estimatePromptTokens s.usage }])

/-! ### A whole stream -/

/-- Calls of `ConvertChunk`, each with the estimate that it is given. -/
def convertChunks : ChatToGeminiStreamState → List (Int × StreamResponse Usage) →
    Except ChatToGeminiError (ChatToGeminiStreamState × List (GeminiChatResponse J))
  | s, [] => .ok (s, [])
  | s, (estimate, chunk) :: chunks => do
    let (s, responses) ← s.convertChunk h estimate chunk
    let (s, responses') ← convertChunks s chunks
    .ok (s, responses ++ responses')

/-- Calls of `Finalize`, each with the estimate that it is given. -/
def finalizeAll : ChatToGeminiStreamState → List Int →
    Except ChatToGeminiError (ChatToGeminiStreamState × List (GeminiChatResponse J))
  | s, [] => .ok (s, [])
  | s, estimate :: estimates => do
    let (s, responses) ← s.finalize h estimate
    let (s, responses') ← finalizeAll s estimates
    .ok (s, responses ++ responses')

end ChatToGeminiStreamState

end NexusTok.Convert
