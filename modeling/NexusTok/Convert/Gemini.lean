import Mathlib.Algebra.GroupWithZero.Nat
import Mathlib.Algebra.Order.BigOperators.Group.List
import Mathlib.Data.List.Forall2
import NexusTok.Convert.Chat
import NexusTok.Text.Basic

/-!
# Gemini to Chat Completions: one response

`StreamResponseGeminiChat2OpenAI` turns one chunk of a Gemini stream into a chat chunk, and
`ResponseGeminiChat2OpenAI` turns a whole Gemini response into a chat response.  Both walk the
parts of a candidate with a text builder that puts a newline between two pieces.

* `streamResponseGeminiChat2OpenAI`, `responseGeminiChat2OpenAI` : the two converters.
* `stream_same` : for parts that are text, thoughts and function calls, both give the same text,
  the same reasoning and the same calls, **iff** the candidate has no thought, or has one thought
  and no text besides.

The stream has one builder for thoughts and text and one flag for the whole chunk, so a thought
anywhere turns the text of the chunk into reasoning; the whole response overwrites its reasoning
with each thought.
-/

namespace NexusTok.Convert

open List

/-- `dto.GeminiPartialArg`: the path, the value if there is one (`geminiPartialArgValue`), and
whether it is a string to append. -/
structure GeminiPartialArg (J : Type) where
  jsonPath : String
  value : Option J
  isString : Bool

/-- `dto.FunctionCall`. -/
structure GeminiFunctionCall (J : Type) where
  id : String := ""
  functionName : String := ""
  arguments : Option J := none
  partialArgs : List (GeminiPartialArg J) := []
  willContinue : Option Bool := none

/-- `dto.GeminiPart`.  Inline data has a MIME type and the data, executable code a language and
the code, and a code execution result has its output. -/
structure GeminiPart (J : Type) where
  text : String := ""
  thought : Bool := false
  inlineData : Option (String × String) := none
  functionCall : Option (GeminiFunctionCall J) := none
  executableCode : Option (String × String) := none
  codeExecutionResult : Option String := none

/-- `dto.GeminiChatCandidate`, with grounding metadata of type `G`. -/
structure GeminiCandidate (J G : Type) where
  parts : List (GeminiPart J) := []
  finishReason : Option String := none
  index : Int := 0
  groundingMetadata : Option G := none

/-- `dto.GeminiChatResponse`.  `usage` is what `UsageFromGeminiMetadata` makes of the metadata of
the chunk, if it counts any tokens. -/
structure GeminiResponse (J G U : Type) where
  candidates : List (GeminiCandidate J G) := []
  usage : Option U := none

/-- What the converters call on the way. -/
structure GeminiHost (J G : Type) extends Codec J where
  groundingAnnotationsToChat : Option G → List (GeminiPart J) → String → Option String

variable {J G U : Type} (h : GeminiHost J G)

/-- `strings.HasPrefix`. -/
def hasPrefix (s start : String) : Bool := start.toList.isPrefixOf s.toList

/-- `geminiResponseToolCall`, with the UUID drawn for a call without an id. -/
def geminiResponseToolCall (uuid : String) (call : GeminiFunctionCall J) :
    Option ToolCallResponse :=
  let args := match call.arguments with
    | none => some "null"
    | some v => h.marshal v
  args.map fun args =>
    let callID := trimSpace call.id
    { index := none
      id := if callID = "" then "call_" ++ uuid else callID
      type := "function"
      function := ⟨call.functionName, args⟩ }

/-- A text builder: what is written, and how many pieces. -/
structure Builder where
  content : String := ""
  appended : Nat := 0

/-- `writeSep`, then a piece. -/
def Builder.write (b : Builder) (piece : String) : Builder where
  content := (if b.appended > 0 then b.content ++ "\n" else b.content) ++ piece
  appended := b.appended + 1

def imageMarkdown (mimeType data : String) : String :=
  "![image](data:" ++ mimeType ++ ";base64," ++ data ++ ")"

/-! ### One chunk of a stream -/

/-- The state of the loop over the parts of a candidate. -/
structure StreamFold where
  content : Builder := {}
  toolCalls : List ToolCallResponse := []
  isTools : Bool := false
  isThought : Bool := false

/-- One part in the loop of `StreamResponseGeminiChat2OpenAI`. -/
def StreamFold.step (f : StreamFold) (p : String × GeminiPart J) : StreamFold :=
  let (uuid, part) := p
  match part.inlineData, part.functionCall with
  | some (mimeType, data), _ =>
    if hasPrefix mimeType "image" then
      { f with content := f.content.write (imageMarkdown mimeType data) }
    else f
  | none, some call =>
    match geminiResponseToolCall h uuid call with
    | some t =>
      { f with
        isTools := true
        toolCalls := f.toolCalls ++ [{ t with index := some (f.toolCalls.length : Int) }] }
    | none => { f with isTools := true }
  | none, none =>
    if part.thought then { f with isThought := true, content := f.content.write part.text }
    else
      match part.executableCode, part.codeExecutionResult with
      | some (language, code), _ =>
        { f with content := f.content.write ("```" ++ language ++ "\n" ++ code ++ "\n```\n") }
      | none, some output =>
        { f with content := f.content.write ("```output\n" ++ output ++ "\n```\n") }
      | none, none =>
        if part.text ≠ "\n" then { f with content := f.content.write part.text } else f

/-- The loop over the parts, with the UUIDs drawn at each. -/
def streamFold (uuid : Nat → String) (parts : List (GeminiPart J)) : StreamFold :=
  (parts.zipIdx.map fun p => (uuid p.2, p.1)).foldl (StreamFold.step h) {}

/-- The finish reason of a reason that is not `STOP`. -/
def otherFinishReason (reason : String) : String :=
  match reason with
  | "STOP" => "stop"
  | "MAX_TOKENS" => "length"
  | _ => "content_filter"

/-- The choice of one candidate.  `STOP` is cleared first and reported apart. -/
def streamChoiceOf (uuid : Nat → String) (candidate : GeminiCandidate J G) : StreamChoice :=
  let finishReason := candidate.finishReason.filter (· ≠ "STOP")
  let f := streamFold h uuid candidate.parts
  let delta : StreamDelta :=
    if f.isThought then { reasoningContent := some f.content.content }
    else { content := some f.content.content }
  { index := candidate.index
    delta := { delta with
      toolCalls := f.toolCalls
      annotations := h.groundingAnnotationsToChat candidate.groundingMetadata candidate.parts
        f.content.content }
    finishReason := if f.isTools then some "tool_calls" else finishReason.map otherFinishReason }

/-- `StreamResponseGeminiChat2OpenAI`: the chunk, and whether a candidate stopped.  `uuid i j` is
the UUID drawn at the part `j` of the candidate `i`. -/
def streamResponseGeminiChat2OpenAI (uuid : Nat → Nat → String) (r : GeminiResponse J G U) :
    StreamResponse U × Bool :=
  ({ object := "chat.completion.chunk"
     choices := r.candidates.zipIdx.map fun c => streamChoiceOf h (uuid c.2) c.1
     usage := r.usage },
    r.candidates.any fun c => c.finishReason == some "STOP")

/-! ### A whole response -/

/-- The state of the loop over the parts of a candidate of a whole response. -/
structure TextFold where
  content : Builder := {}
  toolCalls : List ToolCallResponse := []
  reasoningContent : Option String := none
  finishReason : String := "stop"

/-- One part in the loop of `ResponseGeminiChat2OpenAI`. -/
def TextFold.step (f : TextFold) (p : String × GeminiPart J) : TextFold :=
  let (uuid, part) := p
  match part.inlineData, part.functionCall with
  | some (mimeType, data), _ =>
    if hasPrefix mimeType "image" then
      { f with content := f.content.write (imageMarkdown mimeType data) }
    else
      { f with
        content := f.content.write ("[media](data:" ++ mimeType ++ ";base64," ++ data ++ ")") }
  | none, some call =>
    match geminiResponseToolCall h uuid call with
    | some t => { f with finishReason := "tool_calls", toolCalls := f.toolCalls ++ [t] }
    | none => { f with finishReason := "tool_calls" }
  | none, none =>
    if part.thought then { f with reasoningContent := some part.text }
    else
      match part.executableCode, part.codeExecutionResult with
      | some (language, code), _ =>
        { f with content := f.content.write ("```" ++ language ++ "\n" ++ code ++ "\n```") }
      | none, some output =>
        { f with content := f.content.write ("```output\n" ++ output ++ "\n```") }
      | none, none =>
        if part.text ≠ "\n" then { f with content := f.content.write part.text } else f

/-- The loop over the parts, with the UUIDs drawn at each. -/
def textFold (uuid : Nat → String) (parts : List (GeminiPart J)) : TextFold :=
  (parts.zipIdx.map fun p => (uuid p.2, p.1)).foldl (TextFold.step h) {}

/-- The choice of one candidate; `isToolCall` says that it or a candidate before it has tool
calls. -/
def textChoiceOf (isToolCall : Bool) (uuid : Nat → String) (candidate : GeminiCandidate J G) :
    TextChoice :=
  let f := textFold h uuid candidate.parts
  { index := candidate.index
    message := {
      role := "assistant"
      content := f.content.content
      reasoningContent := f.reasoningContent
      toolCalls := f.toolCalls
      annotations := h.groundingAnnotationsToChat candidate.groundingMetadata candidate.parts
        f.content.content }
    finishReason :=
      if isToolCall then "tool_calls"
      else (candidate.finishReason.map otherFinishReason).getD f.finishReason }

/-- The choices from a candidate on. -/
def textChoices (uuid : Nat → Nat → String) :
    Bool → Nat → List (GeminiCandidate J G) → List TextChoice
  | _, _, [] => []
  | isToolCall, i, c :: cs =>
    let isToolCall := isToolCall || !(textFold h (uuid i) c.parts).toolCalls.isEmpty
    textChoiceOf h isToolCall (uuid i) c :: textChoices uuid isToolCall (i + 1) cs

def responseGeminiChat2OpenAI (uuid : Nat → Nat → String) (id : String) (created : Int)
    (r : GeminiResponse J G U) : TextResponse where
  id := id
  model := ""
  object := "chat.completion"
  created := created
  choices := textChoices h uuid false 0 r.candidates

/-! ### The two conversions of a candidate -/

/-- The part is a text, a thought or a function call. -/
def GeminiPart.Plain (p : GeminiPart J) : Prop :=
  p.inlineData = none ∧ p.executableCode = none ∧ p.codeExecutionResult = none

instance (p : GeminiPart J) : Decidable p.Plain :=
  inferInstanceAs (Decidable (_ ∧ _))

def thoughtTexts (parts : List (GeminiPart J)) : List String :=
  (parts.filter fun p => p.functionCall.isNone && p.thought).map (·.text)

/-- The texts that a reader sees: a lone newline is no text. -/
def visibleTexts (parts : List (GeminiPart J)) : List String :=
  (parts.filter fun p => p.functionCall.isNone && !p.thought && p.text != "\n").map (·.text)

/-- Thoughts and texts in their order. -/
def pieces (parts : List (GeminiPart J)) : List String :=
  (parts.filter fun p => p.functionCall.isNone && (p.thought || p.text != "\n")).map (·.text)

/-- **No thought, or one thought and no text besides.** -/
def ThoughtsAlone (parts : List (GeminiPart J)) : Prop :=
  thoughtTexts parts = [] ∨ (thoughtTexts parts).length = 1 ∧ visibleTexts parts = []

instance (parts : List (GeminiPart J)) : Decidable (ThoughtsAlone parts) :=
  inferInstanceAs (Decidable (_ ∨ _))

/-- The same call: a call without an id has a UUID drawn for it, another one in each conversion. -/
structure SameFunctionCall (u v : Nat → String) (s t : ToolCallResponse) : Prop where
  id : s.id = t.id ∨ ∃ j, s.id = "call_" ++ u j ∧ t.id = "call_" ++ v j
  function : s.function = t.function

/-- A delta and a message with the same text, the same reasoning and the same calls. -/
structure SameContent (u v : Nat → String) (d : StreamDelta) (m : Message) : Prop where
  text : d.getContentString = m.content
  reasoning : d.getReasoningContent = m.getReasoningContent
  calls : List.Forall₂ (SameFunctionCall u v) d.toolCalls m.toolCalls

variable {h}

/-- What the two loops have after the same parts. -/
structure Abreast (u v : Nat → String) (parts : List (GeminiPart J)) (s : StreamFold)
    (t : TextFold) : Prop where
  stream : s.content = (pieces parts).foldl Builder.write {}
  text : t.content = (visibleTexts parts).foldl Builder.write {}
  isThought : s.isThought = !(thoughtTexts parts).isEmpty
  reasoning : t.reasoningContent = (thoughtTexts parts).getLast?
  calls : List.Forall₂ (SameFunctionCall u v) s.toolCalls t.toolCalls

theorem geminiResponseToolCall_same (u v : Nat → String) (j : Nat)
    (call : GeminiFunctionCall J) :
    (geminiResponseToolCall h (u j) call = none ∧ geminiResponseToolCall h (v j) call = none) ∨
      ∃ s t, geminiResponseToolCall h (u j) call = some s ∧
        geminiResponseToolCall h (v j) call = some t ∧ SameFunctionCall u v s t := by
  simp only [geminiResponseToolCall]
  generalize (match call.arguments with
    | none => some "null"
    | some v => h.marshal v) = args
  cases args with
  | none => exact .inl ⟨rfl, rfl⟩
  | some args =>
    refine .inr ⟨_, _, rfl, rfl, ?_, rfl⟩
    by_cases hid : trimSpace call.id = ""
    · exact .inr ⟨j, by simp [hid], by simp [hid]⟩
    · exact .inl (by simp [hid])

variable {parts : List (GeminiPart J)}

theorem Abreast.step {u v : Nat → String} {s : StreamFold}
    {t : TextFold} {part : GeminiPart J} (ha : Abreast u v parts s t) (hp : part.Plain) (j : Nat) :
    Abreast u v (parts ++ [part]) (s.step h (u j, part)) (t.step h (v j, part)) := by
  obtain ⟨hinline, hcode, hresult⟩ := hp
  cases hcall : part.functionCall with
  | some call =>
    have hpieces : pieces (parts ++ [part]) = pieces parts := by simp [pieces, hcall]
    have hvisible : visibleTexts (parts ++ [part]) = visibleTexts parts := by
      simp [visibleTexts, hcall]
    have hthoughts : thoughtTexts (parts ++ [part]) = thoughtTexts parts := by
      simp [thoughtTexts, hcall]
    rcases geminiResponseToolCall_same (h := h) u v j call with ⟨hu, hv⟩ | ⟨x, y, hu, hv, hxy⟩
    · simp only [StreamFold.step, TextFold.step, hinline, hcall, hu, hv]
      exact ⟨by rw [hpieces]; exact ha.stream, by rw [hvisible]; exact ha.text,
        by rw [hthoughts]; exact ha.isThought, by rw [hthoughts]; exact ha.reasoning, ha.calls⟩
    · simp only [StreamFold.step, TextFold.step, hinline, hcall, hu, hv]
      exact ⟨by rw [hpieces]; exact ha.stream, by rw [hvisible]; exact ha.text,
        by rw [hthoughts]; exact ha.isThought, by rw [hthoughts]; exact ha.reasoning,
        rel_append ha.calls (.cons ⟨hxy.id, hxy.function⟩ .nil)⟩
  | none =>
    simp only [StreamFold.step, TextFold.step, hinline, hcall, hcode, hresult]
    by_cases hthought : part.thought = true
    · simp only [hthought, if_true]
      constructor
      · simp [pieces, hcall, hthought, ha.stream]
      · simpa [visibleTexts, hcall, hthought] using ha.text
      · simp [thoughtTexts, hcall, hthought]
      · simp [thoughtTexts, hcall, hthought]
      · exact ha.calls
    · by_cases htext : part.text = "\n"
      · simp only [hthought, htext, ne_eq, not_true, if_false]
        constructor
        · simpa [pieces, hcall, hthought, htext] using ha.stream
        · simpa [visibleTexts, hcall, hthought, htext] using ha.text
        · simpa [thoughtTexts, hcall, hthought] using ha.isThought
        · simpa [thoughtTexts, hcall, hthought] using ha.reasoning
        · exact ha.calls
      · simp only [hthought, htext, ne_eq, not_false_eq_true, if_true, if_false]
        constructor
        · simp [pieces, hcall, hthought, htext, ha.stream]
        · simp [visibleTexts, hcall, hthought, htext, ha.text]
        · simpa [thoughtTexts, hcall, hthought] using ha.isThought
        · simpa [thoughtTexts, hcall, hthought] using ha.reasoning
        · exact ha.calls

/-- The two loops over the same parts. -/
theorem abreast (u v : Nat → String) (hp : ∀ p ∈ parts, p.Plain) :
    Abreast u v parts (streamFold h u parts) (textFold h v parts) := by
  induction parts using List.reverseRecOn with
  | nil => exact ⟨rfl, rfl, rfl, rfl, .nil⟩
  | append_singleton parts part ih =>
    have := (ih fun p hp' => hp p (mem_append_left _ hp')).step
      (hp part (mem_append_right _ mem_cons_self)) parts.length (h := h)
    simpa [streamFold, textFold, zipIdx_append] using this

/-- The length of what a builder has: the pieces, and a newline between any two. -/
theorem length_write (ps : List String) (b : Builder) :
    (ps.foldl Builder.write b).content.length =
      b.content.length + (ps.map String.length).sum +
        (if b.appended = 0 then ps.length - 1 else ps.length) := by
  induction ps generalizing b with
  | nil => simp
  | cons t ts ih =>
    rw [foldl_cons, ih]
    by_cases hb : b.appended = 0
    · simp [Builder.write, hb]
      omega
    · have hpos : 0 < b.appended := by omega
      have hnl : ("\n" : String).length = 1 := by decide
      simp only [Builder.write, hb, hpos, if_true, if_false, String.length_append, hnl,
        map_cons, sum_cons, length_cons, Nat.add_eq_zero_iff, Nat.one_ne_zero,
        and_false]
      omega

theorem pieces_perm (parts : List (GeminiPart J)) :
    (pieces parts).length = (thoughtTexts parts).length + (visibleTexts parts).length := by
  induction parts with
  | nil => rfl
  | cons p ps ih =>
    simp only [pieces, thoughtTexts, visibleTexts, length_map, filter_cons] at ih ⊢
    generalize p.functionCall.isNone = isText
    generalize p.thought = isThought
    generalize (p.text != "\n") = isVisible
    cases isText with
    | false => exact ih
    | true =>
      cases isThought with
      | true =>
        simp only [Bool.true_and, Bool.true_or, Bool.not_true, Bool.false_and, if_true,
          Bool.false_eq_true, if_false, length_cons, ih]
        omega
      | false =>
        cases isVisible with
        | true =>
          simp only [Bool.true_and, Bool.false_or, Bool.not_false, if_true, Bool.false_eq_true,
            if_false, length_cons, ih]
          omega
        | false => exact ih

theorem thought_mem_pieces {t : String} (ht : t ∈ thoughtTexts parts) : t ∈ pieces parts := by
  simp only [thoughtTexts, pieces, mem_map, mem_filter, Bool.and_eq_true] at ht ⊢
  obtain ⟨p, ⟨hp, hcall, hthought⟩, rfl⟩ := ht
  exact ⟨p, ⟨hp, hcall, by simp [hthought]⟩, rfl⟩

theorem pieces_of_no_thought (ht : thoughtTexts parts = []) :
    pieces parts = visibleTexts parts := by
  simp only [thoughtTexts, map_eq_nil_iff, filter_eq_nil_iff] at ht
  simp only [pieces, visibleTexts]
  congr 1
  refine filter_congr fun p hp => ?_
  have := ht p hp
  cases hcall : p.functionCall.isNone <;> cases hthought : p.thought <;> simp_all

/-- A single thought and no text besides. -/
theorem pieces_of_alone {t : String}
    (ht : thoughtTexts parts = [t]) (hv : visibleTexts parts = []) : pieces parts = [t] := by
  have hlen := pieces_perm parts
  rw [ht, hv] at hlen
  obtain ⟨x, hx⟩ := length_eq_one_iff.1 hlen
  have hmem : t ∈ thoughtTexts parts := by
    rw [ht]
    exact mem_cons_self
  have := thought_mem_pieces hmem
  rw [hx] at this ⊢
  rw [mem_singleton.1 this]

/-- What is written is one of the pieces only if it is the only one. -/
theorem write_eq_mem {ps : List String} {t : String} (ht : t ∈ ps)
    (h : (ps.foldl Builder.write {}).content = t) : ps.length = 1 := by
  have hlen := congrArg String.length h
  rw [length_write] at hlen
  have hperm := (perm_cons_erase ht).map String.length
  rw [hperm.sum_eq, map_cons, sum_cons] at hlen
  have hpos := length_pos_of_mem ht
  simp only [String.length_empty, if_true] at hlen
  omega

/-- The choices of a whole response, one by one. -/
theorem textChoices_getElem (uuid : Nat → Nat → String) (b : Bool) (k : Nat)
    (cs : List (GeminiCandidate J G)) {i : Nat} {c : GeminiCandidate J G} (hc : cs[i]? = some c) :
    ∃ b', (textChoices h uuid b k cs)[i]? = some (textChoiceOf h b' (uuid (k + i)) c) := by
  induction cs generalizing b k i with
  | nil => cases hc
  | cons c' cs ih =>
    cases i with
    | zero =>
      cases hc
      exact ⟨_, rfl⟩
    | succ i =>
      obtain ⟨b', hb'⟩ := ih (b || !(textFold h (uuid k) c'.parts).toolCalls.isEmpty) (k + 1) hc
      exact ⟨b', by rw [Nat.add_right_comm, Nat.add_assoc] at hb'; exact hb'⟩

/-- **A chunk and a whole response** give the same text, the same reasoning and the same calls of
a candidate of texts, thoughts and calls iff it has no thought, or one thought and no text. -/
theorem stream_same (u v : Nat → Nat → String) (id : String) (created : Int)
    (r : GeminiResponse J G U) {i : Nat} {c : GeminiCandidate J G} (hc : r.candidates[i]? = some c)
    (hp : ∀ p ∈ c.parts, p.Plain) :
    (∃ sc tc, (streamResponseGeminiChat2OpenAI h u r).1.choices[i]? = some sc ∧
        (responseGeminiChat2OpenAI h v id created r).choices[i]? = some tc ∧
        SameContent (u i) (v i) sc.delta tc.message) ↔ ThoughtsAlone c.parts := by
  have hstream : (streamResponseGeminiChat2OpenAI h u r).1.choices[i]? =
      some (streamChoiceOf h (u i) c) := by
    simp [streamResponseGeminiChat2OpenAI, hc]
  obtain ⟨b, htext⟩ := textChoices_getElem (h := h) v false 0 r.candidates hc
  rw [Nat.zero_add] at htext
  have ha := abreast (h := h) (u i) (v i) hp
  constructor
  · rintro ⟨sc, tc, hsc, htc, hsame⟩
    cases hstream.symm.trans hsc
    cases htext.symm.trans htc
    by_cases hthoughts : thoughtTexts c.parts = []
    · exact .inl hthoughts
    · right
      obtain ⟨t, ht⟩ := List.getLast?_isSome.2 hthoughts |> Option.isSome_iff_exists.1
      have hreason := hsame.reasoning
      have hth : (streamFold h (u i) c.parts).isThought = true := by
        rw [ha.isThought]
        simpa using hthoughts
      simp only [streamChoiceOf, textChoiceOf, hth, if_true, StreamDelta.getReasoningContent,
        Message.getReasoningContent, ha.reasoning, ht, Option.some_or, Option.getD_some,
        ha.stream] at hreason
      have hone := write_eq_mem (thought_mem_pieces (List.mem_of_getLast? ht)) hreason
      rw [pieces_perm] at hone
      have := List.length_pos_of_mem (List.mem_of_getLast? ht)
      exact ⟨by omega, List.eq_nil_of_length_eq_zero (by omega)⟩
  · intro halone
    refine ⟨_, _, hstream, htext, ?_, ?_, ha.calls⟩
    · rcases halone with hnone | ⟨hone, hvisible⟩
      · have hth : (streamFold h (u i) c.parts).isThought = false := by
          rw [ha.isThought, hnone]
          rfl
        simp [streamChoiceOf, textChoiceOf, hth, StreamDelta.getContentString, ha.stream, ha.text,
          pieces_of_no_thought hnone]
      · obtain ⟨t, ht⟩ := List.length_eq_one_iff.1 hone
        have hth : (streamFold h (u i) c.parts).isThought = true := by
          rw [ha.isThought, ht]
          rfl
        simp [streamChoiceOf, textChoiceOf, hth, StreamDelta.getContentString, ha.text, hvisible]
    · rcases halone with hnone | ⟨hone, hvisible⟩
      · have hth : (streamFold h (u i) c.parts).isThought = false := by
          rw [ha.isThought, hnone]
          rfl
        simp [streamChoiceOf, textChoiceOf, hth, StreamDelta.getReasoningContent,
          Message.getReasoningContent, ha.reasoning, hnone]
      · obtain ⟨t, ht⟩ := List.length_eq_one_iff.1 hone
        have hth : (streamFold h (u i) c.parts).isThought = true := by
          rw [ha.isThought, ht]
          rfl
        simp [streamChoiceOf, textChoiceOf, hth, StreamDelta.getReasoningContent,
          Message.getReasoningContent, ha.reasoning, ha.stream, ht, pieces_of_alone ht hvisible,
          Builder.write]

/-- A host for values that are all the empty object, without grounding. -/
def ungrounded : GeminiHost Unit Unit where
  marshal _ := some "{}"
  unmarshal s := if s = "{}" then some () else none
  emptyObject := ()
  groundingAnnotationsToChat _ _ _ := none

def thoughtThenCall : GeminiCandidate Unit Unit where
  parts := [{ text := "The date is not known.", thought := true },
    { functionCall := some { functionName := "today", arguments := some () } }]

theorem stream_same_thoughtThenCall :
    ∃ sc tc,
      (streamResponseGeminiChat2OpenAI (U := Unit) ungrounded (fun _ _ => "1")
          { candidates := [thoughtThenCall] }).1.choices[0]? = some sc ∧
        (responseGeminiChat2OpenAI (U := Unit) ungrounded (fun _ _ => "2") "chatcmpl-1" 0
          { candidates := [thoughtThenCall] }).choices[0]? = some tc ∧
        SameContent (fun _ => "1") (fun _ => "2") sc.delta tc.message :=
  (stream_same (h := ungrounded) (fun _ _ => "1") (fun _ _ => "2") "chatcmpl-1" 0
    { candidates := [thoughtThenCall] } (i := 0) rfl (by decide)).2 (by decide)

/-- A thought and the text after it, as a stream has them when the model starts to answer. -/
def thoughtThenText : GeminiCandidate Unit Unit where
  parts := [{ text := "It is noon.", thought := true }, { text := "Good day." }]

/-- The chunk reports the text as reasoning. -/
theorem thoughtThenText_differs :
    (∀ p ∈ thoughtThenText.parts, p.Plain) ∧
      ¬∃ sc tc,
        (streamResponseGeminiChat2OpenAI (U := Unit) ungrounded (fun _ _ => "1")
            { candidates := [thoughtThenText] }).1.choices[0]? = some sc ∧
          (responseGeminiChat2OpenAI (U := Unit) ungrounded (fun _ _ => "2") "chatcmpl-1" 0
            { candidates := [thoughtThenText] }).choices[0]? = some tc ∧
          SameContent (fun _ => "1") (fun _ => "2") sc.delta tc.message := by
  refine ⟨by decide, ?_⟩
  rintro ⟨sc, tc, hsc, htc, hsame⟩
  cases hsc
  cases htc
  exact absurd hsame.text (by decide)

end NexusTok.Convert
