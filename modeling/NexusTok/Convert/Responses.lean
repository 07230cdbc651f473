import NexusTok.Convert.Chat
import NexusTok.Text.Basic

/-!
# Responses

The events of a Responses stream and a whole response, as far as the converters fill or read them.

* `ResponsesOutput` : an output item.  Raw JSON fields are texts, and an absent one is empty.
* `JSONText` : the JSON codec on strings, which is all that the text of arguments goes through.

`J` is the type of decoded JSON values and `U` that of the token usage.
-/

namespace NexusTok.Convert

/-- `dto.ResponsesReasoningSummaryPart`. -/
structure ResponsesReasoningSummaryPart where
  type : String := "summary_text"
  text : String := ""
deriving DecidableEq, Repr

/-- `dto.ResponsesOutputContent`. -/
structure ResponsesOutputContent (J : Type) where
  type : String := "output_text"
  text : String := ""
  annotations : List J := []
deriving DecidableEq, Repr

/-- `dto.ResponsesOutput`. -/
structure ResponsesOutput (J : Type) where
  type : String := ""
  id : String := ""
  status : String := ""
  role : String := ""
  content : List (ResponsesOutputContent J) := []
  summary : List ResponsesReasoningSummaryPart := []
  callId : String := ""
  name : String := ""
  arguments : String := ""
  action : String := ""
  serverLabel : String := ""
  output : String := ""
  itemError : String := ""
deriving DecidableEq, Repr

/-- `dto.OpenAIResponsesResponse`. -/
structure ResponsesResponse (J U : Type) where
  id : String := ""
  object : String := ""
  createdAt : Int := 0
  status : String := ""
  /-- The code and the message of the error. -/
  error : Option (String × String) := none
  /-- The reason of the incomplete details. -/
  incompleteDetails : Option String := none
  model : String := ""
  output : List (ResponsesOutput J) := []
  usage : Option U := none

/-- `dto.ResponsesStreamResponse`. -/
structure ResponsesStreamResponse (J U : Type) where
  type : String := ""
  response : Option (ResponsesResponse J U) := none
  code : String := ""
  message : String := ""
  param : String := ""
  delta : String := ""
  arguments : Option String := none
  name : String := ""
  text : Option String := none
  item : Option (ResponsesOutput J) := none
  sequenceNumber : Option Nat := none
  annotation : String := ""
  annotationIndex : Option Nat := none
  outputIndex : Option Int := none
  contentIndex : Option Int := none
  summaryIndex : Option Int := none
  itemID : String := ""
  part : Option ResponsesReasoningSummaryPart := none

/-- The raw JSON of a text without characters that JSON escapes. -/
def quoted (s : String) : String := "\"" ++ s ++ "\""

/-- The JSON codec on strings. -/
structure JSONText where
  /-- `kitutil.Marshal` of a string; `none` is an error. -/
  marshal : String → Option String
  /-- `kitutil.Unmarshal` into a string; `none` is an error. -/
  unmarshal : String → Option String

/-- `kitutil.JsonRawMessageToString`. -/
def JSONText.jsonRawMessageToString (c : JSONText) (data : String) : String :=
  let trimmed := trimSpace data
  if trimmed = "" ∨ trimmed = "null" then ""
  else if trimmed.toList.head? = some '"' then (c.unmarshal trimmed).getD trimmed
  else trimmed

end NexusTok.Convert
