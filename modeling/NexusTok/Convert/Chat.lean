import Mathlib.Data.List.Basic
import Mathlib.Logic.Function.Basic

/-!
# Chat Completions

The chunks and the responses of the Chat Completions format, as far as the converters of
`relayconvert` fill or read them, and what a client puts together from the chunks of a stream.

* `StreamResponse`, `StreamChoice`, `StreamDelta`, `ToolCallResponse` : the chunks.
* `TextResponse`, `TextChoice`, `Message` : a whole response.  `SetToolCalls` stores the calls as
  JSON; here a message has the calls themselves.
* `Accumulated` : the text, the reasoning and the tool calls of one choice.  A client appends the
  text of every delta, and appends the arguments of a tool call fragment to the call that has the
  fragment's index.

`U` stands for the token usage, which no converter looks into beyond the operations it is given.
JSON goes through a codec that the host may replace (`kitutil.SetCodec`), so `Codec` is a parameter
of the converters, on values of an arbitrary type.
-/

namespace NexusTok.Convert

/-- The JSON codec, on decoded values of type `J`. -/
structure Codec (J : Type) where
  /-- `kitutil.Marshal`; `none` is an error. -/
  marshal : J → Option String
  /-- `kitutil.Unmarshal`; `none` is an error. -/
  unmarshal : String → Option J
  /-- The object with no members. -/
  emptyObject : J

/-- **What encoding and decoding promise**: the text of a value is not empty and decodes to the
value. -/
def Codec.RoundTrips {J : Type} (c : Codec J) : Prop :=
  ∀ v, ∃ s, c.marshal v = some s ∧ s ≠ "" ∧ c.unmarshal s = some v

/-- The value of the arguments of a tool call; empty arguments count as the empty object. -/
def Codec.value {J : Type} (c : Codec J) (s : String) : Option J :=
  if s = "" then some c.emptyObject else c.unmarshal s

/-- `dto.FunctionResponse`. -/
structure FunctionResponse where
  name : String
  arguments : String
deriving DecidableEq, Repr

/-- `dto.ToolCallResponse`. -/
structure ToolCallResponse where
  index : Option Int
  id : String
  type : String
  function : FunctionResponse
deriving DecidableEq, Repr

/-- `dto.ChatCompletionsStreamResponseChoiceDelta`. -/
structure StreamDelta where
  content : Option String := none
  reasoningContent : Option String := none
  reasoning : Option String := none
  role : String := ""
  toolCalls : List ToolCallResponse := []
  annotations : Option String := none
deriving DecidableEq, Repr

/-- `dto.ChatCompletionsStreamResponseChoice`. -/
structure StreamChoice where
  delta : StreamDelta
  finishReason : Option String := none
  index : Int := 0
deriving DecidableEq, Repr

/-- `dto.ChatCompletionsStreamResponse`. -/
structure StreamResponse (U : Type) where
  id : String := ""
  object : String := ""
  created : Int := 0
  model : String := ""
  choices : List StreamChoice := []
  usage : Option U := none

/-- `dto.Message`, as a response carries it. -/
structure Message where
  role : String
  content : String := ""
  reasoningContent : Option String := none
  reasoning : Option String := none
  toolCalls : List ToolCallResponse := []
  annotations : Option String := none
deriving DecidableEq, Repr

/-- `dto.OpenAITextResponseChoice`. -/
structure TextChoice where
  index : Int
  message : Message
  finishReason : String
deriving DecidableEq, Repr

/-- `dto.OpenAITextResponse`. -/
structure TextResponse where
  id : String
  model : String
  object : String
  created : Int
  choices : List TextChoice
deriving DecidableEq, Repr

def StreamDelta.getContentString (d : StreamDelta) : String := d.content.getD ""

def StreamDelta.getReasoningContent (d : StreamDelta) : String :=
  (d.reasoningContent.or d.reasoning).getD ""

def Message.getReasoningContent (m : Message) : String :=
  (m.reasoningContent.or m.reasoning).getD ""

def StreamResponse.isToolCall {U : Type} (r : StreamResponse U) : Bool :=
  match r.choices with
  | [] => false
  | c :: _ => !c.delta.toolCalls.isEmpty

/-! ### What a client accumulates -/

/-- A tool call put together from its fragments. -/
structure Call where
  index : Int
  id : String
  name : String
  arguments : String
deriving DecidableEq, Repr

/-- The first of two texts that is not empty. -/
def orElse (s t : String) : String := if s = "" then t else s

/-- A fragment joined to its call: the first id and the first name stay, arguments append. -/
def Call.extend (c : Call) (t : ToolCallResponse) : Call :=
  { c with
    id := orElse c.id t.id
    name := orElse c.name t.function.name
    arguments := c.arguments ++ t.function.arguments }

/-- A fragment goes to the call of its index, or starts a new call at the end. -/
def addFragment (cs : List Call) (t : ToolCallResponse) : List Call :=
  let i := t.index.getD 0
  if cs.any (·.index == i) then cs.map fun c => if c.index = i then c.extend t else c
  else cs ++ [⟨i, t.id, t.function.name, t.function.arguments⟩]

/-- What a client has of one choice. -/
structure Accumulated where
  text : String := ""
  reasoning : String := ""
  calls : List Call := []
deriving DecidableEq, Repr

/-- One more delta. -/
def Accumulated.add (a : Accumulated) (d : StreamDelta) : Accumulated where
  text := a.text ++ d.getContentString
  reasoning := a.reasoning ++ d.getReasoningContent
  calls := d.toolCalls.foldl addFragment a.calls

def accumulate (ds : List StreamDelta) : Accumulated := ds.foldl Accumulated.add {}

/-- The deltas of the choice `i` in a list of chunks. -/
def deltasOf {U : Type} (i : Int) (rs : List (StreamResponse U)) : List StreamDelta :=
  rs.flatMap fun r => (r.choices.filter (·.index == i)).map (·.delta)

theorem deltasOf_append {U : Type} (i : Int) (rs rs' : List (StreamResponse U)) :
    deltasOf i (rs ++ rs') = deltasOf i rs ++ deltasOf i rs' := by
  simp [deltasOf]

end NexusTok.Convert
