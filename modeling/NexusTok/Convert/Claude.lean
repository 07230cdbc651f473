import NexusTok.Convert.Chat

/-!
# Claude Messages

The events of a Claude stream and a whole Claude message, as far as the converters fill or read
them.  `J` is the type of decoded JSON values and `U` that of the usage of the format.
-/

namespace NexusTok.Convert

/-- `dto.ClaudeMediaMessage`: a content block, a delta or the message of an event.  Raw JSON
fields are texts. -/
structure ClaudeMediaMessage (J U : Type) where
  type : String := ""
  text : Option String := none
  model : String := ""
  usage : Option U := none
  stopReason : Option String := none
  partialJson : Option String := none
  role : String := ""
  thinking : Option String := none
  citations : Option String := none
  citation : Option String := none
  id : String := ""
  name : String := ""
  input : Option J := none
  content : Option (List J) := none

/-- `dto.ClaudeResponse`: a whole message or one event of a stream. -/
structure ClaudeResponse (J U : Type) where
  id : String := ""
  type : String := ""
  role : String := ""
  content : List (ClaudeMediaMessage J U) := []
  stopReason : String := ""
  model : String := ""
  usage : Option U := none
  index : Option Int := none
  contentBlock : Option (ClaudeMediaMessage J U) := none
  delta : Option (ClaudeMediaMessage J U) := none
  message : Option (ClaudeMediaMessage J U) := none

def ClaudeMediaMessage.getText {J U : Type} (c : ClaudeMediaMessage J U) : String := c.text.getD ""

/-- `reasonmap.ClaudeStopReasonToOpenAIFinishReason`. -/
def claudeStopReasonToOpenAIFinishReason (stopReason : String) : String :=
  match stopReason.toLower with
  | "stop_sequence" => "stop"
  | "end_turn" => "stop"
  | "max_tokens" => "length"
  | "tool_use" => "tool_calls"
  | "pause_turn" => "length"
  | "refusal" => "content_filter"
  | _ => stopReason

/-- `reasonmap.OpenAIFinishReasonToClaudeStopReason`. -/
def openAIFinishReasonToClaudeStopReason (finishReason : String) : String :=
  match finishReason.toLower with
  | "stop" => "end_turn"
  | "stop_sequence" => "stop_sequence"
  | "length" | "max_tokens" => "max_tokens"
  | "content_filter" => "refusal"
  | "tool_calls" => "tool_use"
  | _ => finishReason

end NexusTok.Convert
