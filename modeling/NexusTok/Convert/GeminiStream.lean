import NexusTok.Convert.Gemini

/-!
# Gemini to Chat Completions: a stream

`GeminiToChatStreamState.ConvertChunk` converts the chunks of a Gemini stream and `Finalize` ends
it.  The state puts partial function calls together, keeps the indexes of the tool calls of every
candidate, and has **one** flag that says whether any finish reason was sent.

* `GeminiToChatStreamState.convertChunk`, `finalize` : the state machine.
* `OnceAtEnd` : a choice has exactly one finish reason, with no content behind it.
* `ByAppearance` : the tool indexes count the ids in the order in which they appear.
* `finish_once` : a stream whose chunks are all `Settled` has both.

A chunk is settled if every finish reason that it sends is of a candidate that reports one, and if a
`STOP` without a finish reason of its own is the first finish of the stream and of candidate `0`:
the terminal chunk, which stands for it, has that index.
-/

namespace NexusTok.Convert

open List Function

/-- What the stream converter calls besides. -/
structure GeminiStreamHost (J G R : Type) extends GeminiHost J G where
  /-- One partial argument put into the arguments: the path parsed, the value set. -/
  setPartialArg : J → GeminiPartialArg J → Except String J
  /-- `appendContent` and `groundingAnnotations`, on the grounding state of the stream. -/
  grounding : R → GeminiCandidate J G → String → Option String × R
  /-- `strconv.Quote`. -/
  quote : String → String

structure GeminiPartialToolCall (J : Type) where
  id : String := ""
  name : String := ""
  arguments : J

/-- `GeminiToChatStreamState`.  `toolIndexByCandidateID` has the ids of a candidate in a map, and
`partialToolByCandidate` is a map from the candidate indexes. -/
structure GeminiToChatStreamState (J R U : Type) where
  id : String := ""
  created : Int := 0
  sawToolCall : Bool := false
  finishEmitted : Bool := false
  latestUsage : Option U := none
  nextToolIndexByCandidate : Int → Int := fun _ => 0
  toolIndexByCandidateID : Int → String → Option Int := fun _ _ => none
  partialToolByCandidate : List (Int × GeminiPartialToolCall J) := []
  grounding : R

variable {J G R U : Type} (h : GeminiStreamHost J G R)

namespace GeminiToChatStreamState

/-! ### Partial function calls -/

/-- The partial call of a candidate. -/
def partialTool (s : GeminiToChatStreamState J R U) (candidateIndex : Int) :
    Option (GeminiPartialToolCall J) :=
  (s.partialToolByCandidate.find? (·.1 == candidateIndex)).map Prod.snd

/-- The partial call of a candidate set. -/
def setPartialTool (s : GeminiToChatStreamState J R U) (candidateIndex : Int)
    (current : GeminiPartialToolCall J) : GeminiToChatStreamState J R U :=
  { s with
    partialToolByCandidate := (candidateIndex, current) ::
      s.partialToolByCandidate.filter (·.1 != candidateIndex) }

/-- The partial call of a candidate deleted. -/
def deletePartialTool (s : GeminiToChatStreamState J R U) (candidateIndex : Int) :
    GeminiToChatStreamState J R U :=
  { s with
    partialToolByCandidate := s.partialToolByCandidate.filter (·.1 != candidateIndex) }

/-- `appendPartialFunctionCall`: the call if it is complete, and the state. -/
def appendPartialFunctionCall (s : GeminiToChatStreamState J R U) (candidateIndex : Int)
    (call : GeminiFunctionCall J) :
    Except String (Option (GeminiFunctionCall J) × GeminiToChatStreamState J R U) :=
  let current := (s.partialTool candidateIndex).getD { arguments := h.emptyObject }
  let id := trimSpace call.id
  if id ≠ "" ∧ current.id ≠ "" ∧ current.id ≠ id then
    .error ("candidate " ++ toString candidateIndex ++ " function call changed id from " ++
      h.quote current.id ++ " to " ++ h.quote id)
  else
    let current := if id ≠ "" then { current with id := id } else current
    let name := trimSpace call.functionName
    if name ≠ "" ∧ current.name ≠ "" ∧ current.name ≠ name then
      .error ("candidate " ++ toString candidateIndex ++ " function call changed name from " ++
        h.quote current.name ++ " to " ++ h.quote name)
    else
      let current := if name ≠ "" then { current with name := name } else current
      match call.partialArgs.foldlM h.setPartialArg current.arguments with
      | .error e => .error e
      | .ok arguments =>
        let current := { current with arguments := arguments }
        if call.willContinue = some true then .ok (none, s.setPartialTool candidateIndex current)
        else if current.name = "" then
          .error ("candidate " ++ toString candidateIndex ++
            " completed a partial function call without a name")
        else
          .ok (some { id := current.id, functionName := current.name,
                      arguments := some current.arguments },
            s.deletePartialTool candidateIndex)

/-- One part in `preparePartialFunctionCalls`: the part that takes its place, if any. -/
def preparePart (candidateIndex : Int) (s : GeminiToChatStreamState J R U)
    (part : GeminiPart J) :
    Except String (Option (GeminiPart J) × GeminiToChatStreamState J R U) :=
  match part.functionCall with
  | none => .ok (some part, s)
  | some call =>
    if (s.partialTool candidateIndex).isNone ∧ call.willContinue.isNone ∧ call.partialArgs = [] then
      .ok (some part, s)
    else
      match s.appendPartialFunctionCall h candidateIndex call with
      | .error e => .error ("reconstruct Gemini streamed function arguments: " ++ e)
      | .ok (some completed, s) => .ok (some { part with functionCall := some completed }, s)
      | .ok (none, s) => .ok (none, s)

def prepareParts (candidateIndex : Int) :
    GeminiToChatStreamState J R U → List (GeminiPart J) →
      Except String (List (GeminiPart J) × GeminiToChatStreamState J R U)
  | s, [] => .ok ([], s)
  | s, part :: parts =>
    match preparePart h candidateIndex s part with
    | .error e => .error e
    | .ok (part', s) =>
      match prepareParts candidateIndex s parts with
      | .error e => .error e
      | .ok (parts', s) => .ok (part'.toList ++ parts', s)

/-- `preparePartialFunctionCalls` on the candidates. -/
def prepareCandidates :
    GeminiToChatStreamState J R U → List (GeminiCandidate J G) →
      Except String (List (GeminiCandidate J G) × GeminiToChatStreamState J R U)
  | s, [] => .ok ([], s)
  | s, c :: cs =>
    match prepareParts h c.index s c.parts with
    | .error e => .error e
    | .ok (parts, s) =>
      match prepareCandidates s cs with
      | .error e => .error e
      | .ok (cs', s) => .ok ({ c with parts := parts } :: cs', s)

/-! ### Tool indexes -/

/-- The stable index of a tool call of a candidate. -/
def indexToolCall (s : GeminiToChatStreamState J R U) (candidateIndex : Int)
    (t : ToolCallResponse) : ToolCallResponse × GeminiToChatStreamState J R U :=
  let callID := trimSpace t.id
  match if callID = "" then none else s.toolIndexByCandidateID candidateIndex callID with
  | some stableIndex => ({ t with index := some stableIndex }, s)
  | none =>
    let stableIndex := s.nextToolIndexByCandidate candidateIndex
    ({ t with index := some stableIndex },
      { s with
        nextToolIndexByCandidate :=
          Function.update s.nextToolIndexByCandidate candidateIndex (stableIndex + 1)
        toolIndexByCandidateID :=
          if callID = "" then s.toolIndexByCandidateID
          else Function.update s.toolIndexByCandidateID candidateIndex
            (Function.update (s.toolIndexByCandidateID candidateIndex) callID
              (some stableIndex)) })

/-- The stable indexes of the tool calls of a choice. -/
def indexToolCalls (candidateIndex : Int) :
    GeminiToChatStreamState J R U → List ToolCallResponse →
      List ToolCallResponse × GeminiToChatStreamState J R U
  | s, [] => ([], s)
  | s, t :: ts =>
    let (t, s) := s.indexToolCall candidateIndex t
    let (ts, s) := indexToolCalls candidateIndex s ts
    (t :: ts, s)

/-- The choices with their tool indexes and annotations. -/
def indexChoices :
    GeminiToChatStreamState J R U → List (GeminiCandidate J G × StreamChoice) →
      List StreamChoice × GeminiToChatStreamState J R U
  | s, [] => ([], s)
  | s, (candidate, choice) :: cs =>
    let (toolCalls, s) := indexToolCalls candidate.index s choice.delta.toolCalls
    let (annotations, grounding) :=
      h.grounding s.grounding candidate choice.delta.getContentString
    let choice := { choice with
      delta := { choice.delta with toolCalls := toolCalls, annotations := annotations } }
    let (cs, s) := indexChoices { s with grounding := grounding } cs
    (choice :: cs, s)

/-! ### Chunks -/

/-- `terminalChunk`, with its effect on the state. -/
def terminalChunk (s : GeminiToChatStreamState J R U) (model : String) :
    StreamResponse U × GeminiToChatStreamState J R U :=
  ({ id := s.id
     object := "chat.completion.chunk"
     created := s.created
     model := model
     choices :=
      [{ delta := {}, finishReason := some (if s.sawToolCall then "tool_calls" else "stop") }]
     usage := s.latestUsage },
    { s with finishEmitted := true })

/-- A candidate of the chunk has a finish reason other than `STOP`. -/
def hasNonStopFinish (cs : List (GeminiCandidate J G)) : Bool :=
  cs.any fun c => match c.finishReason with
    | some reason => reason != "" && reason != "STOP"
    | none => false

/-- The finish reason of tool calls taken back. -/
def clearToolCallsFinish (c : StreamChoice) : StreamChoice :=
  if c.finishReason = some "tool_calls" then { c with finishReason := none } else c

end GeminiToChatStreamState

/-- A chunk of the stream with the arguments of the call, and the UUIDs drawn on the way. -/
structure GeminiChunk (J G U : Type) where
  response : GeminiResponse J G U
  model : String := ""
  usage : Option U := none
  uuid : Nat → Nat → String := fun _ _ => ""

namespace GeminiToChatStreamState

/-- The chat chunk of prepared candidates: the choices, whether a candidate stopped, and the
state. -/
def convertPrepared (s : GeminiToChatStreamState J R U) (candidates : List (GeminiCandidate J G))
    (e : GeminiChunk J G U) :
    StreamResponse U × Bool × GeminiToChatStreamState J R U :=
  let (response, isStop) := streamResponseGeminiChat2OpenAI (U := U) h.toGeminiHost e.uuid
    { candidates := candidates, usage := e.response.usage }
  let (choices, s) := indexChoices h s (candidates.zip response.choices)
  let response := { response with
    id := s.id, created := s.created, model := e.model, usage := e.usage, choices := choices }
  let cleared := response.isToolCall && !hasNonStopFinish candidates
  let s := { s with
    sawToolCall := s.sawToolCall || response.isToolCall
    latestUsage := e.usage.or s.latestUsage }
  let choices := if cleared then choices.map clearToolCallsFinish else choices
  let s := { s with
    finishEmitted := s.finishEmitted ||
      choices.any fun c => match c.finishReason with
        | some reason => reason != ""
        | none => false }
  ({ response with choices := choices }, isStop, s)

def convertChunk (s : GeminiToChatStreamState J R U) (e : GeminiChunk J G U) :
    Except String (List (StreamResponse U) × GeminiToChatStreamState J R U) :=
  match prepareCandidates h s e.response.candidates with
  | .error m => .error m
  | .ok (candidates, s) =>
    let (response, isStop, s) := s.convertPrepared h candidates e
    if isStop && !s.finishEmitted then
      let (terminal, s) := s.terminalChunk e.model
      .ok ([response, terminal], s)
    else .ok ([response], s)

/-- `Finalize`: the chunks that end the stream. -/
def finalize (s : GeminiToChatStreamState J R U) (model : String) :
    Except String (List (StreamResponse U)) :=
  match (s.partialToolByCandidate.map Prod.fst).min? with
  | some candidateIndex =>
    let current := (s.partialTool candidateIndex).getD { arguments := h.emptyObject }
    .error ("Gemini stream ended with an incomplete function call for candidate " ++
      toString candidateIndex ++ " (id " ++ h.quote current.id ++ ", name " ++
      h.quote current.name ++ ")")
  | none => .ok (if s.finishEmitted then [] else [(s.terminalChunk model).1])

/-- The chunks of a stream, up to the first error. -/
def convertStream :
    GeminiToChatStreamState J R U → List (GeminiChunk J G U) →
      Except String (List (StreamResponse U) × GeminiToChatStreamState J R U)
  | s, [] => .ok ([], s)
  | s, e :: es =>
    match s.convertChunk h e with
    | .error m => .error m
    | .ok (chunks, s) =>
      match convertStream s es with
      | .error m => .error m
      | .ok (chunks', s) => .ok (chunks ++ chunks', s)

end GeminiToChatStreamState

/-! ### What a stream should send -/

/-- Text without content: newlines at most. -/
def BlankText (s : String) : Prop := ∀ c ∈ s.toList, c = '\n'

/-- A part without content. -/
def GeminiPart.Blank (p : GeminiPart J) : Prop :=
  p.inlineData = none ∧ p.functionCall = none ∧ p.executableCode = none ∧
    p.codeExecutionResult = none ∧ BlankText p.text

/-- A candidate without content. -/
def GeminiCandidate.Blank (c : GeminiCandidate J G) : Prop := ∀ p ∈ c.parts, p.Blank

def GeminiCandidate.Reports (c : GeminiCandidate J G) : Prop := c.finishReason.isSome = true

instance (c : GeminiCandidate J G) : Decidable c.Reports :=
  inferInstanceAs (Decidable (_ = true))

/-- A choice without content. -/
structure StreamChoice.Blank (c : StreamChoice) : Prop where
  content : BlankText c.delta.getContentString
  reasoning : BlankText c.delta.getReasoningContent
  toolCalls : c.delta.toolCalls = []

/-- What the stream has of the candidate `i`, chunk by chunk. -/
def entriesOf (i : Int) (es : List (GeminiChunk J G U)) : List (GeminiCandidate J G) :=
  es.flatMap fun e => e.response.candidates.filter (·.index == i)

/-- What the chat chunks have of the choice `i`. -/
def choicesOf (i : Int) (chunks : List (StreamResponse U)) : List StreamChoice :=
  chunks.flatMap fun r => r.choices.filter (·.index == i)

/-- **A finish reason is reported at most once, and no content follows it.** -/
def ReportsOnce (cs : List (GeminiCandidate J G)) : Prop :=
  cs.Pairwise fun a b => a.Reports → ¬b.Reports ∧ b.Blank

/-- **Exactly one finish reason, and no content behind it.** -/
structure OnceAtEnd (cs : List StreamChoice) : Prop where
  once : cs.countP (·.finishReason.isSome) = 1
  atEnd : cs.Pairwise fun a b => a.finishReason.isSome = true → b.Blank

/-- Each text at its first appearance. -/
def appearances (ids : List String) : List String :=
  ids.foldl (fun seen id => if id ∈ seen then seen else seen ++ [id]) []

/-- **The tool indexes count the ids in the order of their first appearance.** -/
def ByAppearance (cs : List StreamChoice) : Prop :=
  ∀ t ∈ cs.flatMap (·.delta.toolCalls),
    t.index = some (((appearances ((cs.flatMap (·.delta.toolCalls)).map (·.id))).idxOf t.id : Nat) :
      Int)

/-! ### Settled chunks -/

variable {s s' s'' : GeminiToChatStreamState J R U} {c : GeminiCandidate J G}
  {e : GeminiChunk J G U} {chunks : List (StreamResponse U)} {es : List (GeminiChunk J G U)}

namespace GeminiToChatStreamState

/-- The candidate has a function call. -/
def hasCall (c : GeminiCandidate J G) : Bool :=
  c.parts.any fun p => p.inlineData.isNone && p.functionCall.isSome

/-- The candidate has a function call whose arguments can be encoded. -/
def sendsCall (c : GeminiCandidate J G) : Bool :=
  c.parts.any fun p => p.inlineData.isNone &&
    p.functionCall.any fun call => (geminiResponseToolCall h.toGeminiHost "" call).isSome

/-- The finish reasons of tool calls are taken back: the first candidate has a tool call, and no
candidate has a finish reason other than `STOP`. -/
def takesBack (cs : List (GeminiCandidate J G)) : Bool :=
  cs.head?.any (sendsCall h) && !hasNonStopFinish cs

/-- The choice of the candidate is sent with a finish reason. -/
def emits (cs : List (GeminiCandidate J G)) (c : GeminiCandidate J G) : Bool :=
  if hasCall c then !takesBack h cs else c.finishReason.any (· != "STOP")

/-- The candidates of a chunk, with partial calls put together, when a finish reason was sent or
not: whatever is sent with a finish reason reports one, and whatever reports one is sent with it,
except for the first finish of the stream, a `STOP` of candidate `0`. -/
structure SettledCandidates (finishEmitted : Bool) (cs : List (GeminiCandidate J G)) : Prop where
  reports : ∀ c ∈ cs, emits h cs c = true → c.Reports
  emits : ∀ c ∈ cs, c.Reports → emits h cs c = false →
    c.finishReason = some "STOP" ∧ c.index = 0 ∧ finishEmitted = false ∧
      cs.countP (fun c => decide c.Reports) = 1

/-- The chunk is settled in the state before it. -/
def Settled (s : GeminiToChatStreamState J R U) (e : GeminiChunk J G U) : Prop :=
  match prepareCandidates h s e.response.candidates with
  | .ok (cs, _) => SettledCandidates h s.finishEmitted cs
  | .error _ => True

def AllSettled : GeminiToChatStreamState J R U → List (GeminiChunk J G U) → Prop
  | _, [] => True
  | s, e :: es => Settled h s e ∧
    match s.convertChunk h e with
    | .ok (_, s') => AllSettled s' es
    | .error _ => True

variable {h}

/-! ### The choice of one candidate -/

variable {k : GeminiHost J G}

theorem geminiResponseToolCall_isSome (u v : String) (call : GeminiFunctionCall J) :
    (geminiResponseToolCall k u call).isSome = (geminiResponseToolCall k v call).isSome := by
  simp [geminiResponseToolCall]

theorem geminiResponseToolCall_id {u : String}
    (hu : trimSpace ("call_" ++ u) = "call_" ++ u) {call : GeminiFunctionCall J}
    {t : ToolCallResponse} (ht : geminiResponseToolCall k u call = some t) :
    trimSpace t.id = t.id ∧ t.id ≠ "" := by
  simp only [geminiResponseToolCall, Option.map_eq_some_iff] at ht
  obtain ⟨args, -, rfl⟩ := ht
  by_cases hid : trimSpace call.id = ""
  · simp only [hid, if_true]
    refine ⟨hu, fun h0 => ?_⟩
    have := congrArg String.length h0
    rw [String.length_append] at this
    have hcall : ("call_" : String).length = 5 := by decide
    rw [hcall, String.length_empty] at this
    omega
  · simp only [hid, if_false]
    exact ⟨trimSpace_trimSpace call.id, hid⟩

def partCall (p : GeminiPart J) : Option (GeminiFunctionCall J) :=
  if p.inlineData.isNone then p.functionCall else none

theorem streamFold_step_tools (f : StreamFold) (u : String) (p : GeminiPart J) :
    (f.step k (u, p)).isTools = (f.isTools || (partCall p).isSome) ∧
      (f.step k (u, p)).toolCalls = f.toolCalls ++
        (((partCall p).bind (geminiResponseToolCall k u)).map fun t =>
          { t with index := some (f.toolCalls.length : Int) }).toList := by
  cases hinline : p.inlineData with
  | some d =>
    simp only [StreamFold.step, partCall, hinline]
    split <;> simp
  | none =>
    cases hcall : p.functionCall with
    | some call =>
      cases ht : geminiResponseToolCall k u call with
      | none | some => simp [StreamFold.step, partCall, hinline, hcall, ht]
    | none =>
      simp only [StreamFold.step, partCall, hinline, hcall]
      split
      · simp
      · split
        · simp
        · simp
        · split <;> simp

theorem streamFold_tools (ps : List (String × GeminiPart J)) (f : StreamFold) :
    (ps.foldl (StreamFold.step k) f).isTools =
        (f.isTools || ps.any fun p => (partCall p.2).isSome) ∧
      (ps.foldl (StreamFold.step k) f).toolCalls.isEmpty =
        (f.toolCalls.isEmpty && !ps.any fun p =>
          ((partCall p.2).bind (geminiResponseToolCall k p.1)).isSome) := by
  induction ps generalizing f with
  | nil => simp
  | cons p ps ih =>
    obtain ⟨htools, hcalls⟩ := streamFold_step_tools (k := k) f p.1 p.2
    rw [foldl_cons, (ih _).1, (ih _).2, htools, hcalls]
    constructor
    · simp [Bool.or_assoc]
    · cases hp : (partCall p.2).bind (geminiResponseToolCall k p.1) <;> simp [hp]

/-- The ids that a loop over parts sends. -/
theorem streamFold_ids {ps : List (String × GeminiPart J)}
    (hps : ∀ p ∈ ps, trimSpace ("call_" ++ p.1) = "call_" ++ p.1) {f : StreamFold}
    (hf : ∀ t ∈ f.toolCalls, trimSpace t.id = t.id ∧ t.id ≠ "") :
    ∀ t ∈ (ps.foldl (StreamFold.step k) f).toolCalls, trimSpace t.id = t.id ∧ t.id ≠ "" := by
  induction ps generalizing f with
  | nil => exact hf
  | cons p ps ih =>
    refine ih (fun q hq => hps q (mem_cons_of_mem p hq)) ?_
    intro t ht
    rw [(streamFold_step_tools f p.1 p.2).2, mem_append] at ht
    rcases ht with ht | ht
    · exact hf t ht
    · simp only [Option.mem_toList, Option.map_eq_some_iff, Option.bind_eq_some_iff] at ht
      obtain ⟨t', ⟨call, -, ht'⟩, rfl⟩ := ht
      exact geminiResponseToolCall_id (t := t') (hps p mem_cons_self) ht'

theorem BlankText.append {s t : String} (hs : BlankText s) (ht : BlankText t) :
    BlankText (s ++ t) := by
  intro c hc
  rw [String.toList_append, mem_append] at hc
  rcases hc with hc | hc
  · exact hs c hc
  · exact ht c hc

theorem blankText_empty : BlankText "" := fun c hc => by
  simp at hc

/-- Parts without content write nothing but newlines. -/
theorem streamFold_blank {ps : List (String × GeminiPart J)}
    (hps : ∀ p ∈ ps, p.2.Blank) {f : StreamFold} (hf : BlankText f.content.content)
    (hcalls : f.toolCalls = []) :
    BlankText (ps.foldl (StreamFold.step k) f).content.content ∧
      (ps.foldl (StreamFold.step k) f).toolCalls = [] := by
  have hwrite : ∀ (b : Builder) (t : String), BlankText b.content → BlankText t →
      BlankText (b.write t).content := by
    intro b t hb ht
    simp only [Builder.write]
    split
    · refine BlankText.append (BlankText.append hb ?_) ht
      intro c hc
      simpa using hc
    · exact BlankText.append hb ht
  induction ps generalizing f with
  | nil => exact ⟨hf, hcalls⟩
  | cons p ps ih =>
    obtain ⟨hinline, hcall, hcode, hresult, htext⟩ := hps p mem_cons_self
    refine ih (fun q hq => hps q (mem_cons_of_mem p hq)) ?_ ?_
    · simp only [StreamFold.step, hinline, hcall, hcode, hresult]
      split
      · exact hwrite _ _ hf htext
      · split
        · exact hwrite _ _ hf htext
        · exact hf
    · simp only [StreamFold.step, hinline, hcall, hcode, hresult]
      split
      · exact hcalls
      · split <;> exact hcalls

theorem otherFinishReason_ne (reason : String) :
    otherFinishReason reason ≠ "tool_calls" ∧ otherFinishReason reason ≠ "" := by
  unfold otherFinishReason
  split <;> decide

/-- What a choice has of its candidate, before any finish reason is taken back. -/
structure ChoiceOf (h : GeminiStreamHost J G R) (c : GeminiCandidate J G)
    (choice : StreamChoice) : Prop where
  index : choice.index = c.index
  call : hasCall c = true → choice.finishReason = some "tool_calls"
  noCall : hasCall c = false →
    choice.finishReason.isSome = c.finishReason.any (· != "STOP") ∧
      choice.finishReason ≠ some "tool_calls"
  nonempty : choice.finishReason ≠ some ""
  blank : c.Blank → choice.Blank
  sends : choice.delta.toolCalls.isEmpty = !sendsCall h c

theorem partCall_isSome (p : GeminiPart J) :
    (partCall p).isSome = (p.inlineData.isNone && p.functionCall.isSome) := by
  cases hinline : p.inlineData <;> simp [partCall, hinline]

/-- A property of the parts alone, in the loop over the parts with their UUIDs. -/
theorem any_zipIdx (u : Nat → String) (parts : List (GeminiPart J)) (g : GeminiPart J → Bool) :
    ((parts.zipIdx.map fun p => (u p.2, p.1)).any fun p => g p.2) = parts.any g := by
  conv_rhs => rw [← zipIdx_map_fst 0 parts]
  rw [any_map, any_map]
  rfl

theorem streamFold_isTools (u : Nat → String) (c : GeminiCandidate J G) :
    (streamFold h.toGeminiHost u c.parts).isTools = hasCall c := by
  rw [streamFold, (streamFold_tools _ _).1, any_zipIdx u c.parts fun p => (partCall p).isSome]
  simp only [hasCall, partCall_isSome, Bool.false_or]

theorem streamFold_sends (u : Nat → String) (c : GeminiCandidate J G) :
    (streamFold h.toGeminiHost u c.parts).toolCalls.isEmpty = !sendsCall h c := by
  have hg : ∀ p : String × GeminiPart J,
      ((partCall p.2).bind (geminiResponseToolCall h.toGeminiHost p.1)).isSome =
        (p.2.inlineData.isNone && p.2.functionCall.any fun call =>
          (geminiResponseToolCall h.toGeminiHost "" call).isSome) := by
    intro p
    cases hinline : p.2.inlineData with
    | some d => simp [partCall, hinline]
    | none =>
      cases hcall : p.2.functionCall with
      | none => simp [partCall, hinline, hcall]
      | some call =>
        simpa [partCall, hinline, hcall] using geminiResponseToolCall_isSome p.1 "" call
  rw [streamFold, (streamFold_tools _ _).2]
  simp only [hg, isEmpty_nil, Bool.true_and]
  rw [any_zipIdx u c.parts fun p => p.inlineData.isNone && p.functionCall.any fun call =>
    (geminiResponseToolCall h.toGeminiHost "" call).isSome]
  rfl

theorem choiceOf (u : Nat → String) (c : GeminiCandidate J G) :
    ChoiceOf h c (streamChoiceOf h.toGeminiHost u c) := by
  constructor
  · rfl
  · intro hc
    simp [streamChoiceOf, streamFold_isTools, hc]
  · intro hc
    simp only [streamChoiceOf, streamFold_isTools, hc, Bool.false_eq_true, if_false]
    cases hf : c.finishReason with
    | none => simp
    | some reason =>
      by_cases hstop : reason = "STOP"
      · simp [hstop]
      · simp [hstop, (otherFinishReason_ne reason).1]
  · simp only [streamChoiceOf]
    split
    · simp
    · intro h0
      obtain ⟨reason, -, hr⟩ := Option.map_eq_some_iff.1 h0
      exact (otherFinishReason_ne reason).2 hr
  · intro hb
    have hparts : ∀ p ∈ (c.parts.zipIdx.map fun p => (u p.2, p.1)), p.2.Blank := by
      intro p hp
      obtain ⟨q, hq, rfl⟩ := mem_map.1 hp
      exact hb _ (fst_mem_of_mem_zipIdx hq)
    obtain ⟨hcontent, hcalls⟩ := streamFold_blank (k := h.toGeminiHost) hparts
      (f := {}) blankText_empty rfl
    constructor
    · simp only [streamChoiceOf, StreamDelta.getContentString]
      split
      · exact blankText_empty
      · exact hcontent
    · simp only [streamChoiceOf, StreamDelta.getReasoningContent]
      split
      · exact hcontent
      · exact blankText_empty
    · exact hcalls
  · exact streamFold_sends u c

/-! ### Tool indexes -/

theorem appearances_append (ids : List String) (id : String) :
    appearances (ids ++ [id]) =
      if id ∈ appearances ids then appearances ids else appearances ids ++ [id] := by
  unfold appearances
  rw [foldl_append]
  rfl

/-- The tool calls sent so far, by candidate, and the maps of the state agree. -/
structure Tracked (s : GeminiToChatStreamState J R U) (past : Int → List ToolCallResponse) :
    Prop where
  next : ∀ i, s.nextToolIndexByCandidate i = (appearances ((past i).map (·.id))).length
  byID : ∀ i id, s.toolIndexByCandidateID i id =
    if id ∈ appearances ((past i).map (·.id)) then
      some (((appearances ((past i).map (·.id))).idxOf id : Nat) : Int)
    else none
  indexes : ∀ i, ∀ t ∈ past i,
    t.id ∈ appearances ((past i).map (·.id)) ∧
      t.index = some (((appearances ((past i).map (·.id))).idxOf t.id : Nat) : Int)

theorem indexToolCall_id (s : GeminiToChatStreamState J R U) (i : Int) (t : ToolCallResponse) :
    (s.indexToolCall i t).1.id = t.id ∧
      (s.indexToolCall i t).2.finishEmitted = s.finishEmitted := by
  simp only [indexToolCall]
  split <;> exact ⟨rfl, rfl⟩

variable {past : Int → List ToolCallResponse}

/-- **One tool call** gets the place of its id among the ids so far. -/
theorem Tracked.indexToolCall (ht : Tracked s past) {i : Int} {t : ToolCallResponse}
    (hid : trimSpace t.id = t.id ∧ t.id ≠ "") :
    Tracked (s.indexToolCall i t).2
      (Function.update past i (past i ++ [(s.indexToolCall i t).1])) := by
  by_cases hseen : t.id ∈ appearances ((past i).map (·.id))
  · have hs : s.indexToolCall i t =
        ({ t with index := some (((appearances ((past i).map (·.id))).idxOf t.id : Nat) : Int) },
          s) := by
      simp only [GeminiToChatStreamState.indexToolCall, hid.1, if_neg hid.2, ht.byID, if_pos hseen]
    have happ : appearances (((past i) ++ [(s.indexToolCall i t).1]).map (·.id)) =
        appearances ((past i).map (·.id)) := by
      rw [map_append, map_singleton, (indexToolCall_id s i t).1, appearances_append,
        if_pos hseen]
    have hpast : ∀ j, appearances
        (((Function.update past i (past i ++ [(s.indexToolCall i t).1])) j).map (·.id)) =
          appearances ((past j).map (·.id)) := by
      intro j
      by_cases hj : j = i
      · subst hj
        rw [update_self, happ]
      · rw [update_of_ne hj]
    rw [hs] at hpast ⊢
    constructor
    · intro j
      rw [hpast]
      exact ht.next j
    · intro j id
      rw [hpast]
      exact ht.byID j id
    · intro j x hx
      rw [hpast]
      by_cases hj : j = i
      · subst hj
        rw [update_self, mem_append, mem_singleton] at hx
        rcases hx with hx | rfl
        · exact ht.indexes j x hx
        · exact ⟨hseen, rfl⟩
      · rw [update_of_ne hj] at hx
        exact ht.indexes j x hx
  · have hs : s.indexToolCall i t =
        ({ t with index := some (s.nextToolIndexByCandidate i) },
          { s with
            nextToolIndexByCandidate := Function.update s.nextToolIndexByCandidate i
              (s.nextToolIndexByCandidate i + 1)
            toolIndexByCandidateID := Function.update s.toolIndexByCandidateID i
              (Function.update (s.toolIndexByCandidateID i) t.id
                (some (s.nextToolIndexByCandidate i))) }) := by
      simp only [GeminiToChatStreamState.indexToolCall, hid.1, if_neg hid.2, ht.byID, if_neg hseen]
    have happ : appearances (((past i) ++ [(s.indexToolCall i t).1]).map (·.id)) =
        appearances ((past i).map (·.id)) ++ [t.id] := by
      rw [map_append, map_singleton, (indexToolCall_id s i t).1, appearances_append,
        if_neg hseen]
    have hlast : (appearances ((past i).map (·.id)) ++ [t.id]).idxOf t.id =
        (appearances ((past i).map (·.id))).length := by
      rw [idxOf_append_of_notMem hseen, idxOf_cons_self, Nat.add_zero]
    rw [hs] at happ ⊢
    constructor
    · intro j
      by_cases hj : j = i
      · subst hj
        simp only [update_self, happ, length_append, length_singleton]
        rw [ht.next]
        push_cast
        rfl
      · simp only [update_of_ne hj, ht.next j]
    · intro j id
      by_cases hj : j = i
      · subst hj
        simp only [update_self, happ, mem_append, mem_singleton]
        by_cases hidt : id = t.id
        · subst hidt
          rw [update_self, if_pos (.inr rfl), hlast, ht.next]
        · rw [update_of_ne hidt, ht.byID]
          by_cases hmem : id ∈ appearances ((past j).map (·.id))
          · rw [if_pos hmem, if_pos (.inl hmem), idxOf_append_of_mem hmem]
          · rw [if_neg hmem, if_neg (by rintro (h | h); exacts [hmem h, hidt h])]
      · simp only [update_of_ne hj, ht.byID]
    · intro j x hx
      by_cases hj : j = i
      · subst hj
        simp only [update_self, happ] at hx ⊢
        rw [mem_append, mem_singleton] at hx
        rcases hx with hx | rfl
        · obtain ⟨hm, hi⟩ := ht.indexes j x hx
          exact ⟨mem_append_left _ hm, by rw [hi, idxOf_append_of_mem hm]⟩
        · exact ⟨mem_append_right _ mem_cons_self, by rw [hlast, ht.next]⟩
      · simp only [update_of_ne hj] at hx ⊢
        exact ht.indexes j x hx

theorem indexToolCalls_spec (i : Int) (ts : List ToolCallResponse)
    (s : GeminiToChatStreamState J R U) :
    (indexToolCalls i s ts).1.map (·.id) = ts.map (·.id) ∧
      (indexToolCalls i s ts).2.finishEmitted = s.finishEmitted ∧
      ((∀ t ∈ ts, trimSpace t.id = t.id ∧ t.id ≠ "") →
        ∀ past, Tracked s past →
          Tracked (indexToolCalls i s ts).2
            (Function.update past i (past i ++ (indexToolCalls i s ts).1))) := by
  induction ts generalizing s with
  | nil => exact ⟨rfl, rfl, fun _ past ht => by simpa [indexToolCalls] using ht⟩
  | cons t ts ih =>
    obtain ⟨hids, hfin, htr⟩ := ih (s.indexToolCall i t).2
    obtain ⟨hid, hflag⟩ := indexToolCall_id s i t
    refine ⟨?_, hfin.trans hflag, ?_⟩
    · simp only [indexToolCalls, map_cons, hids, hid]
    · intro hts past ht
      have := htr (fun t' ht' => hts t' (mem_cons_of_mem t ht')) _
        (ht.indexToolCall (hts t mem_cons_self))
      simpa [indexToolCalls] using this

/-- The choice with its stable tool indexes and its annotations. -/
structure Kept (c c' : StreamChoice) : Prop where
  index : c'.index = c.index
  finishReason : c'.finishReason = c.finishReason
  content : c'.delta.getContentString = c.delta.getContentString
  reasoning : c'.delta.getReasoningContent = c.delta.getReasoningContent
  ids : c'.delta.toolCalls.map (·.id) = c.delta.toolCalls.map (·.id)

/-- The tool calls of the choice `i`. -/
def callsOf (i : Int) (cs : List StreamChoice) : List ToolCallResponse :=
  (cs.filter (·.index == i)).flatMap (·.delta.toolCalls)

theorem callsOf_cons (i : Int) (c : StreamChoice) (cs : List StreamChoice) :
    callsOf i (c :: cs) = (if c.index = i then c.delta.toolCalls else []) ++ callsOf i cs := by
  by_cases hi : c.index = i
  · simp [callsOf, hi]
  · simp [callsOf, hi]

theorem Tracked.congr
    (ht : Tracked s past) (hn : s'.nextToolIndexByCandidate = s.nextToolIndexByCandidate)
    (hb : s'.toolIndexByCandidateID = s.toolIndexByCandidateID) : Tracked s' past :=
  ⟨fun i => by rw [hn]; exact ht.next i, fun i id => by rw [hb]; exact ht.byID i id, ht.indexes⟩

/-- **The choices of a chunk** keep what they have, and their tool calls are tracked. -/
theorem indexChoices_spec (ps : List (GeminiCandidate J G × StreamChoice))
    (s : GeminiToChatStreamState J R U) :
    List.Forall₂ Kept (ps.map Prod.snd) (indexChoices h s ps).1 ∧
      (indexChoices h s ps).2.finishEmitted = s.finishEmitted ∧
      ((∀ p ∈ ps, p.2.index = p.1.index ∧
          ∀ t ∈ p.2.delta.toolCalls, trimSpace t.id = t.id ∧ t.id ≠ "") →
        ∀ past, Tracked s past →
          Tracked (indexChoices h s ps).2
            (fun i => past i ++ callsOf i (indexChoices h s ps).1)) := by
  induction ps generalizing s with
  | nil =>
    refine ⟨.nil, rfl, fun _ past ht => ?_⟩
    simpa [indexChoices, callsOf] using ht
  | cons p ps ih =>
    obtain ⟨candidate, choice⟩ := p
    obtain ⟨hids, hflag, htr⟩ := indexToolCalls_spec (R := R) (U := U) candidate.index
      choice.delta.toolCalls s
    simp only [indexChoices]
    generalize hcalls : indexToolCalls candidate.index s choice.delta.toolCalls = r at *
    obtain ⟨toolCalls, s₁⟩ := r
    obtain ⟨hkept, hfin, hrest⟩ := ih { s₁ with
      grounding := (h.grounding s₁.grounding candidate choice.delta.getContentString).2 }
    refine ⟨.cons ⟨rfl, rfl, rfl, rfl, hids⟩ hkept, hfin.trans hflag, ?_⟩
    intro hps past ht
    obtain ⟨hidx, hok⟩ := hps _ mem_cons_self
    have ht₁ := htr hok past ht
    have := hrest (fun q hq => hps q (mem_cons_of_mem _ hq)) _
      (ht₁.congr rfl rfl)
    convert this using 1
    funext i
    by_cases hi : i = candidate.index
    · subst hi
      rw [update_self, callsOf_cons, if_pos hidx, append_assoc]
    · have hne : ¬choice.index = i := fun h0 => hi (h0.symm.trans hidx)
      rw [update_of_ne hi, callsOf_cons, if_neg hne, nil_append]

/-! ### One chunk -/

theorem ChoiceOf.kept {b d : StreamChoice} (hb : ChoiceOf h c b)
    (hd : Kept b d) : ChoiceOf h c d := by
  have hempty : d.delta.toolCalls.isEmpty = b.delta.toolCalls.isEmpty := by
    have := congrArg List.isEmpty hd.ids
    simpa using this
  refine ⟨hd.index.trans hb.index, ?_, ?_, ?_, ?_, hempty.trans hb.sends⟩
  · rw [hd.finishReason]
    exact hb.call
  · rw [hd.finishReason]
    exact hb.noCall
  · rw [hd.finishReason]
    exact hb.nonempty
  · intro hblank
    obtain ⟨hcontent, hreasoning, hcalls⟩ := hb.blank hblank
    refine ⟨by rw [hd.content]; exact hcontent, by rw [hd.reasoning]; exact hreasoning, ?_⟩
    rw [hcalls, isEmpty_nil] at hempty
    exact isEmpty_iff.1 hempty

/-- What the chunk sends of one of the candidates `cs`. -/
structure Sent (h : GeminiStreamHost J G R) (cs : List (GeminiCandidate J G))
    (c : GeminiCandidate J G) (choice : StreamChoice) : Prop where
  index : choice.index = c.index
  finish : choice.finishReason.isSome = emits h cs c
  nonempty : choice.finishReason ≠ some ""
  blank : c.Blank → choice.Blank

variable {cs cs' : List (GeminiCandidate J G)}

theorem ChoiceOf.sent {choice : StreamChoice} (hc : ChoiceOf h c choice) :
    Sent h cs c (if takesBack h cs then clearToolCallsFinish choice else choice) := by
  by_cases htake : takesBack h cs = true
  · rw [if_pos htake]
    by_cases hcall : hasCall c = true
    · have hf := hc.call hcall
      have hclear : clearToolCallsFinish choice = { choice with finishReason := none } := by
        rw [clearToolCallsFinish, if_pos hf]
      rw [hclear]
      refine ⟨hc.index, ?_, nofun, fun hb => ⟨(hc.blank hb).1, (hc.blank hb).2, (hc.blank hb).3⟩⟩
      simp [emits, hcall, htake]
    · rw [Bool.not_eq_true] at hcall
      obtain ⟨hf, hne⟩ := hc.noCall hcall
      rw [clearToolCallsFinish, if_neg hne]
      refine ⟨hc.index, ?_, hc.nonempty, hc.blank⟩
      simp [emits, hcall, hf]
  · rw [if_neg htake]
    by_cases hcall : hasCall c = true
    · refine ⟨hc.index, ?_, hc.nonempty, hc.blank⟩
      simp [emits, hcall, hc.call hcall, htake]
    · rw [Bool.not_eq_true] at hcall
      refine ⟨hc.index, ?_, hc.nonempty, hc.blank⟩
      simp [emits, hcall, (hc.noCall hcall).1]

variable {α β : Type}

/-- Two lists compared element by element, in two steps. -/
theorem forall₂_trans {γ : Type} {p : α → β → Prop} {q : β → γ → Prop} {r : α → γ → Prop}
    (hpq : ∀ a b c, p a b → q b c → r a c) {as : List α} {bs : List β} {cs : List γ}
    (hab : List.Forall₂ p as bs) (hbc : List.Forall₂ q bs cs) : List.Forall₂ r as cs := by
  induction hab generalizing cs with
  | nil =>
    cases hbc
    exact .nil
  | cons hab _ ih =>
    cases hbc with
    | cons hbc hrest => exact .cons (hpq _ _ _ hab hbc) (ih hrest)

theorem any_congr_forall₂ {r : α → β → Prop} {f : α → Bool} {g : β → Bool}
    (hfg : ∀ a b, r a b → f a = g b) {as : List α} {bs : List β} (hab : List.Forall₂ r as bs) :
    as.any f = bs.any g := by
  induction hab with
  | nil => rfl
  | cons hab _ ih => rw [any_cons, any_cons, hfg _ _ hab, ih]

theorem isToolCall_of {r : StreamResponse U}
    (hr : List.Forall₂ (ChoiceOf h) cs r.choices) : r.isToolCall = cs.head?.any (sendsCall h) := by
  unfold StreamResponse.isToolCall
  cases hchoices : r.choices with
  | nil =>
    rw [hchoices, forall₂_nil_right_iff] at hr
    rw [hr]
    rfl
  | cons c rest =>
    rw [hchoices, forall₂_cons_right_iff] at hr
    obtain ⟨c', rest', hc, -, rfl⟩ := hr
    simp [hc.sends]

/-- The UUIDs of the chunk make ids without spaces around them. -/
def UuidsTrimmed (e : GeminiChunk J G U) : Prop :=
  ∀ i j, trimSpace ("call_" ++ e.uuid i j) = "call_" ++ e.uuid i j

/-- **The chat chunk of prepared candidates.** -/
theorem convertPrepared_spec (s : GeminiToChatStreamState J R U)
    (cs : List (GeminiCandidate J G)) (e : GeminiChunk J G U) :
    List.Forall₂ (Sent h cs) cs (s.convertPrepared h cs e).1.choices ∧
      (s.convertPrepared h cs e).2.1 = (cs.any fun c => c.finishReason == some "STOP") ∧
      (s.convertPrepared h cs e).2.2.finishEmitted = (s.finishEmitted || cs.any (emits h cs)) ∧
      (UuidsTrimmed e → ∀ past, Tracked s past →
        Tracked (s.convertPrepared h cs e).2.2
          (fun i => past i ++ callsOf i (s.convertPrepared h cs e).1.choices)) := by
  let base := cs.zipIdx.map fun c => streamChoiceOf h.toGeminiHost (e.uuid c.2) c.1
  let out := indexChoices h s (cs.zip base)
  have hbase : List.Forall₂ (ChoiceOf h) cs base := by
    conv_lhs => rw [← zipIdx_map_fst 0 cs]
    rw [forall₂_map_left_iff, forall₂_map_right_iff, forall₂_same]
    exact fun c _ => choiceOf _ _
  have hzip : (cs.zip base).map Prod.snd = base := map_snd_zip hbase.length_eq.ge
  obtain ⟨hkept, hfin, htr⟩ := indexChoices_spec (h := h) (cs.zip base) s
  rw [hzip] at hkept
  have hout : List.Forall₂ (ChoiceOf h) cs out.1 :=
    forall₂_trans (fun _ _ _ hb hd => hb.kept hd) hbase hkept
  let response : StreamResponse U := { choices := out.1 }
  have htool : response.isToolCall = cs.head?.any (sendsCall h) := isToolCall_of hout
  let choices := if takesBack h cs then out.1.map clearToolCallsFinish else out.1
  have hchoices : choices =
      out.1.map fun c => if takesBack h cs then clearToolCallsFinish c else c := by
    simp only [choices]
    split
    · rfl
    · exact (map_id' _).symm
  have hsent : List.Forall₂ (Sent h cs) cs choices := by
    rw [hchoices, forall₂_map_right_iff]
    exact hout.imp fun _ _ hc => hc.sent
  have hresponse : (s.convertPrepared h cs e).1.choices = choices := by
    have : (response.isToolCall && !hasNonStopFinish cs) = takesBack h cs := by
      rw [htool, takesBack]
    simp only [choices, ← this]
    rfl
  have hclear : ∀ i, callsOf i choices = callsOf i out.1 := by
    intro i
    rw [hchoices]
    induction out.1 with
    | nil => rfl
    | cons c rest ih =>
      have hc : (if takesBack h cs then clearToolCallsFinish c else c).index = c.index ∧
          (if takesBack h cs then clearToolCallsFinish c else c).delta = c.delta := by
        split
        · unfold clearToolCallsFinish
          split <;> exact ⟨rfl, rfl⟩
        · exact ⟨rfl, rfl⟩
      rw [map_cons, callsOf_cons, callsOf_cons, ih, hc.1, hc.2]
  refine ⟨by rw [hresponse]; exact hsent, rfl, ?_, ?_⟩
  · have hflag : (s.convertPrepared h cs e).2.2.finishEmitted =
        (out.2.finishEmitted || choices.any fun c => match c.finishReason with
          | some reason => reason != ""
          | none => false) := by
      rw [← hresponse]
      rfl
    rw [hflag, hfin]
    congr 1
    refine (any_congr_forall₂ (fun c choice hc => ?_) hsent).symm
    rw [← hc.finish]
    have hne := hc.nonempty
    cases hf : choice.finishReason with
    | none => rfl
    | some reason =>
      rw [hf] at hne
      have : reason ≠ "" := fun h0 => hne (by rw [h0])
      simp [this]
  · intro hu past ht
    have hps : ∀ p ∈ cs.zip base, p.2.index = p.1.index ∧
        ∀ t ∈ p.2.delta.toolCalls, trimSpace t.id = t.id ∧ t.id ≠ "" := by
      intro p hp
      refine ⟨((forall₂_iff_zip.1 hbase).2 hp).index, ?_⟩
      obtain ⟨c, hc, hcp⟩ := mem_map.1 (of_mem_zip hp).2
      rw [← hcp]
      refine streamFold_ids ?_ (fun t ht => absurd ht not_mem_nil)
      intro q hq
      obtain ⟨r, -, rfl⟩ := mem_map.1 hq
      exact hu _ _
    have := htr hps past ht
    rw [hresponse]
    simp only [hclear]
    exact this.congr rfl rfl

/-! ### Partial calls -/

/-- Partial calls leave the rest of the state alone. -/
structure OnlyPartials (s s' : GeminiToChatStreamState J R U) : Prop where
  finishEmitted : s'.finishEmitted = s.finishEmitted
  next : s'.nextToolIndexByCandidate = s.nextToolIndexByCandidate
  byID : s'.toolIndexByCandidateID = s.toolIndexByCandidateID

theorem OnlyPartials.refl (s : GeminiToChatStreamState J R U) : OnlyPartials s s :=
  ⟨rfl, rfl, rfl⟩

theorem OnlyPartials.trans (h : OnlyPartials s s')
    (h' : OnlyPartials s' s'') : OnlyPartials s s'' :=
  ⟨h'.1.trans h.1, h'.2.trans h.2, h'.3.trans h.3⟩

theorem appendPartialFunctionCall_only {i : Int}
    {call : GeminiFunctionCall J} {r : Option (GeminiFunctionCall J)}
    (hs : s.appendPartialFunctionCall h i call = .ok (r, s')) : OnlyPartials s s' := by
  unfold appendPartialFunctionCall at hs
  extract_lets current id withId name withName at hs
  split at hs
  · cases hs
  · split at hs
    · cases hs
    · split at hs
      · cases hs
      · extract_lets withArguments at hs
        split at hs
        · cases hs
          exact ⟨rfl, rfl, rfl⟩
        · split at hs
          · cases hs
          · cases hs
            exact ⟨rfl, rfl, rfl⟩

theorem preparePart_spec {i : Int} {part : GeminiPart J}
    {r : Option (GeminiPart J)} (hs : preparePart h i s part = .ok (r, s')) :
    OnlyPartials s s' ∧ (part.Blank → r = some part) := by
  simp only [preparePart] at hs
  split at hs
  · cases hs
    exact ⟨.refl s, fun _ => rfl⟩
  · rename_i call hcall
    have hblank : ¬part.Blank := fun hb => by simp [hb.2.1] at hcall
    split at hs
    · cases hs
      exact ⟨.refl s, fun _ => rfl⟩
    · split at hs
      · cases hs
      · rename_i hcompleted
        cases hs
        exact ⟨appendPartialFunctionCall_only hcompleted, fun hb => absurd hb hblank⟩
      · rename_i hcompleted
        cases hs
        exact ⟨appendPartialFunctionCall_only hcompleted, fun hb => absurd hb hblank⟩

theorem prepareParts_spec {i : Int}
    {parts parts' : List (GeminiPart J)} (hs : prepareParts h i s parts = .ok (parts', s')) :
    OnlyPartials s s' ∧ ((∀ p ∈ parts, p.Blank) → parts' = parts) := by
  induction parts generalizing s s' parts' with
  | nil =>
    cases hs
    exact ⟨.refl _, fun _ => rfl⟩
  | cons p ps ih =>
    simp only [prepareParts] at hs
    split at hs
    · cases hs
    · rename_i r s₁ hp
      obtain ⟨honly, hr⟩ := preparePart_spec hp
      split at hs
      · cases hs
      · rename_i ps' s₂ hps
        obtain ⟨honly', hps'⟩ := ih hps
        cases hs
        refine ⟨honly.trans honly', fun hb => ?_⟩
        rw [hr (hb p mem_cons_self), hps' fun q hq => hb q (mem_cons_of_mem p hq)]
        rfl

/-- A candidate with its partial calls put together. -/
structure Prepared (c c' : GeminiCandidate J G) : Prop where
  index : c'.index = c.index
  finishReason : c'.finishReason = c.finishReason
  blank : c.Blank → c'.Blank

theorem prepareCandidates_spec (hs : prepareCandidates h s cs = .ok (cs', s')) :
    OnlyPartials s s' ∧ List.Forall₂ Prepared cs cs' := by
  induction cs generalizing s s' cs' with
  | nil =>
    cases hs
    exact ⟨.refl _, .nil⟩
  | cons c cs ih =>
    simp only [prepareCandidates] at hs
    split at hs
    · cases hs
    · rename_i parts s₁ hp
      obtain ⟨honly, hparts⟩ := prepareParts_spec hp
      split at hs
      · cases hs
      · rename_i cs₁ s₂ hcs
        obtain ⟨honly', hrest⟩ := ih hcs
        cases hs
        refine ⟨honly.trans honly', .cons ⟨rfl, rfl, fun hb => ?_⟩ hrest⟩
        intro p hp'
        rw [hparts hb] at hp'
        exact hb p hp'

/-! ### One step -/

theorem forall₂_mem {r : α → β → Prop} {as : List α} {bs : List β}
    (hab : List.Forall₂ r as bs) : List.Forall₂ (fun a b => a ∈ as ∧ r a b) as bs := by
  obtain ⟨hlen, hr⟩ := forall₂_iff_zip.1 hab
  exact forall₂_iff_zip.2 ⟨hlen, fun hp => ⟨(of_mem_zip hp).1, hr hp⟩⟩

theorem countP_forall₂ {r : α → β → Prop} {f : α → Bool} {g : β → Bool}
    (hfg : ∀ a b, r a b → f a = g b) {as : List α} {bs : List β} (hab : List.Forall₂ r as bs) :
    as.countP f = bs.countP g := by
  induction hab with
  | nil => rfl
  | cons hab _ ih => rw [countP_cons, countP_cons, hfg _ _ hab, ih]

theorem exists_forall₂ {r : α → β → Prop} {as : List α} {bs : List β}
    (hab : List.Forall₂ r as bs) {b : β} (hb : b ∈ bs) : ∃ a ∈ as, r a b := by
  induction hab with
  | nil => exact absurd hb not_mem_nil
  | cons h _ ih =>
    rcases mem_cons.1 hb with rfl | hb
    · exact ⟨_, mem_cons_self, h⟩
    · obtain ⟨a, ha, hr⟩ := ih hb
      exact ⟨a, mem_cons_of_mem _ ha, hr⟩

theorem pairwise_forall₂ {r : α → β → Prop} {p : α → α → Prop} {q : β → β → Prop}
    (hpq : ∀ a b a' b', r a b → r a' b' → p a a' → q b b') {as : List α} {bs : List β}
    (hab : List.Forall₂ r as bs) (has : as.Pairwise p) : bs.Pairwise q := by
  induction hab with
  | nil => exact .nil
  | cons h hrest ih =>
    obtain ⟨hp, has⟩ := pairwise_cons.1 has
    refine pairwise_cons.2 ⟨fun b' hb' => ?_, ih has⟩
    obtain ⟨a', ha', hr'⟩ := exists_forall₂ hrest hb'
    exact hpq _ _ _ _ h hr' (hp a' ha')

theorem filter_forall₂ {r : α → β → Prop} {f : α → Bool} {g : β → Bool}
    (hfg : ∀ a b, r a b → f a = g b) {as : List α} {bs : List β} (hab : List.Forall₂ r as bs) :
    List.Forall₂ r (as.filter f) (bs.filter g) := by
  induction hab with
  | nil => exact .nil
  | @cons a b as bs h _ ih =>
    by_cases hf : f a = true
    · rw [filter_cons_of_pos hf, filter_cons_of_pos (hfg _ _ h ▸ hf)]
      exact .cons h ih
    · rw [filter_cons_of_neg hf, filter_cons_of_neg (hfg _ _ h ▸ hf)]
      exact ih

/-- Of a property that holds once, there is one holder. -/
theorem countP_one_eq {f : α → Bool} {as : List α} (h1 : as.countP f = 1) {a b : α}
    (ha : a ∈ as) (hb : b ∈ as) (hfa : f a = true) (hfb : f b = true) : a = b := by
  rw [countP_eq_length_filter] at h1
  obtain ⟨x, hx⟩ := length_eq_one_iff.1 h1
  have hax : a ∈ as.filter f := mem_filter.2 ⟨ha, hfa⟩
  have hbx : b ∈ as.filter f := mem_filter.2 ⟨hb, hfb⟩
  rw [hx] at hax hbx
  rw [mem_singleton.1 hax, mem_singleton.1 hbx]

theorem countP_le_one_of_pairwise (hc : ReportsOnce cs) :
    cs.countP (fun c => decide c.Reports) ≤ 1 := by
  induction cs with
  | nil => exact Nat.zero_le 1
  | cons c cs ih =>
    obtain ⟨hhead, htail⟩ := pairwise_cons.1 hc
    rw [countP_cons]
    by_cases hr : c.Reports
    · have hzero : cs.countP (fun c => decide c.Reports) = 0 :=
        countP_eq_zero.2 fun c' hc' hr' => (hhead c' hc' hr).1 (of_decide_eq_true hr')
      simp [hzero, hr]
    · simpa [hr] using ih htail

/-- The choice of the terminal chunk. -/
def terminalChoice (s : GeminiToChatStreamState J R U) : StreamChoice :=
  { delta := {}, finishReason := some (if s.sawToolCall then "tool_calls" else "stop") }

theorem terminalChoice_blank (s : GeminiToChatStreamState J R U) : (terminalChoice s).Blank :=
  ⟨blankText_empty, blankText_empty, rfl⟩

/-- What a chunk sends of the candidate `i`, from what it has of it. -/
structure Stepped (i : Int) (s s' : GeminiToChatStreamState J R U)
    (entries : List (GeminiCandidate J G)) (out : List StreamChoice) : Prop where
  count : out.countP (·.finishReason.isSome) = entries.countP fun c => decide c.Reports
  atEnd : out.Pairwise fun a b => a.finishReason.isSome = true → b.Blank
  emitted : (s.finishEmitted = true ∨ i = 0 ∧ ∃ c ∈ entries, c.Reports) → s'.finishEmitted = true
  blank : (∀ c ∈ entries, c.Blank) → ∀ o ∈ out, o.Blank

theorem convertChunk_cases (hs : s.convertChunk h e = .ok (chunks, s')) :
    ∃ cs s₁, prepareCandidates h s e.response.candidates = .ok (cs, s₁) ∧
      ((((s₁.convertPrepared h cs e).2.1 && !(s₁.convertPrepared h cs e).2.2.finishEmitted) = true ∧
          chunks = [(s₁.convertPrepared h cs e).1,
            ((s₁.convertPrepared h cs e).2.2.terminalChunk e.model).1] ∧
          s' = ((s₁.convertPrepared h cs e).2.2.terminalChunk e.model).2) ∨
        (((s₁.convertPrepared h cs e).2.1 && !(s₁.convertPrepared h cs e).2.2.finishEmitted) =
            false ∧
          chunks = [(s₁.convertPrepared h cs e).1] ∧ s' = (s₁.convertPrepared h cs e).2.2)) := by
  simp only [convertChunk] at hs
  split at hs
  · cases hs
  · rename_i cs s₁ hp
    refine ⟨cs, s₁, hp, ?_⟩
    split at hs
    · rename_i hstop
      cases hs
      exact .inl ⟨hstop, rfl, rfl⟩
    · rename_i hstop
      cases hs
      exact .inr ⟨by simpa using hstop, rfl, rfl⟩

/-- **One step**, of a settled chunk. -/
theorem stepped (hs : s.convertChunk h e = .ok (chunks, s'))
    (hset : Settled h s e) (i : Int) (honce : ReportsOnce (entriesOf i [e])) :
    Stepped i s s' (entriesOf i [e]) (choicesOf i chunks) := by
  obtain ⟨cs, s₁, hprep, hcases⟩ := convertChunk_cases hs
  simp only [Settled, hprep] at hset
  obtain ⟨honly, hprepared⟩ := prepareCandidates_spec hprep
  obtain ⟨hsent, hstop, hflag, -⟩ := convertPrepared_spec (h := h) s₁ cs e
  rw [honly.finishEmitted] at hflag
  generalize s₁.convertPrepared h cs e = r at hcases hsent hstop hflag
  have hentries : entriesOf i [e] = e.response.candidates.filter (·.index == i) := by
    simp [entriesOf]
  rw [hentries] at honce ⊢
  have hpre : List.Forall₂ Prepared (e.response.candidates.filter (·.index == i))
      (cs.filter (·.index == i)) :=
    filter_forall₂ (fun c c' hc => by rw [hc.index]) hprepared
  have hout : List.Forall₂ (fun c o => c ∈ cs ∧ Sent h cs c o) (cs.filter (·.index == i))
      (r.1.choices.filter (·.index == i)) :=
    filter_forall₂ (fun c o hc => by rw [hc.2.index]) (forall₂_mem hsent)
  have hcount : (e.response.candidates.filter (·.index == i)).countP
      (fun c => decide c.Reports) = (cs.filter (·.index == i)).countP fun c => decide c.Reports :=
    countP_forall₂ (fun c c' hc => decide_eq_decide.2 (by
      rw [GeminiCandidate.Reports, GeminiCandidate.Reports, hc.finishReason])) hpre
  have honce' : ReportsOnce (cs.filter (·.index == i)) :=
    pairwise_forall₂ (fun a b a' b' ha hb hp hr => by
      have hra : a.Reports := by
        rw [GeminiCandidate.Reports, ← ha.finishReason]
        exact hr
      obtain ⟨hn, hb'⟩ := hp hra
      exact ⟨by rw [GeminiCandidate.Reports, hb.finishReason]; exact hn, hb.blank hb'⟩) hpre honce
  have hpair : (r.1.choices.filter (·.index == i)).Pairwise
      fun a b => a.finishReason.isSome = true → b.Blank :=
    pairwise_forall₂ (fun a b a' b' ha hb hp hr => by
      rw [ha.2.finish] at hr
      exact hb.2.blank (hp (hset.reports a ha.1 hr)).2) hout honce'
  have hblank : (∀ c ∈ e.response.candidates.filter (·.index == i), c.Blank) →
      ∀ o ∈ r.1.choices.filter (·.index == i), o.Blank := by
    intro hb o ho
    obtain ⟨c', hc', -, hsent'⟩ := exists_forall₂ hout ho
    obtain ⟨c, hc, hprep'⟩ := exists_forall₂ hpre hc'
    exact hsent'.blank (hprep'.blank (hb c hc))
  have hreports : ∀ c ∈ e.response.candidates.filter (·.index == i), c.Reports →
      ∃ c' ∈ cs.filter (·.index == i), c'.Reports := by
    intro c hc hr
    have hpos : 0 < (e.response.candidates.filter (·.index == i)).countP
        fun c => decide c.Reports :=
      countP_pos_iff.2 ⟨c, hc, decide_eq_true hr⟩
    rw [hcount] at hpos
    obtain ⟨c', hc', hr'⟩ := countP_pos_iff.1 hpos
    exact ⟨c', hc', of_decide_eq_true hr'⟩
  by_cases hexc : ∃ c ∈ cs, c.Reports ∧ emits h cs c = false
  · -- the only report of the chunk is a `STOP` of candidate `0`; the terminal chunk stands for it
    obtain ⟨c, hc, hr, he⟩ := hexc
    obtain ⟨hreason, hidx, hfirst, hone⟩ := hset.emits c hc hr he
    have hnone : ∀ c' ∈ cs, emits h cs c' = false := by
      intro c' hc'
      by_contra he'
      rw [Bool.not_eq_false] at he'
      have hr' := hset.reports c' hc' he'
      have heq : c' = c := countP_one_eq hone hc' hc (decide_eq_true hr') (decide_eq_true hr)
      rw [heq, he] at he'
      cases he'
    have hnoflag : r.2.2.finishEmitted = false := by
      rw [hflag, hfirst, Bool.false_or]
      exact any_eq_false.2 fun c' hc' => by simp [hnone c' hc']
    have hterminal : r.2.1 = true := by
      rw [hstop]
      exact any_eq_true.2 ⟨c, hc, by simp [hreason]⟩
    rw [hterminal, hnoflag] at hcases
    obtain ⟨-, rfl, rfl⟩ | ⟨hno, -⟩ := hcases
    · have hzero : (r.1.choices.filter (·.index == i)).countP (·.finishReason.isSome) = 0 := by
        refine countP_eq_zero.2 fun o ho => ?_
        obtain ⟨c', -, hc', ho'⟩ := exists_forall₂ hout ho
        simp [ho'.finish, hnone c' hc']
      have hchoices : choicesOf i [r.1, (r.2.2.terminalChunk e.model).1] =
          r.1.choices.filter (·.index == i) ++
            [terminalChoice r.2.2].filter (·.index == i) := by
        simp [choicesOf, terminalChunk, terminalChoice]
      rw [hchoices]
      refine ⟨?_, ?_, fun _ => rfl, ?_⟩
      · rw [countP_append, hzero, Nat.zero_add, hcount]
        by_cases hi : i = 0
        · subst hi
          have : (cs.filter (·.index == 0)).countP (fun c => decide c.Reports) = 1 := by
            refine Nat.le_antisymm ?_ ?_
            · rw [← hone]
              exact List.Sublist.countP_le filter_sublist
            · exact countP_pos_iff.2
                ⟨c, mem_filter.2 ⟨hc, by simp [hidx]⟩, decide_eq_true hr⟩
          rw [this]
          rfl
        · have hterm : [terminalChoice r.2.2].filter (·.index == i) = [] := by
            simp [terminalChoice, Ne.symm hi]
          rw [hterm, countP_nil]
          refine (countP_eq_zero.2 fun c' hc' hr' => ?_).symm
          obtain ⟨hc', hidx'⟩ := mem_filter.1 hc'
          have heq := countP_one_eq hone hc' hc hr' (decide_eq_true hr)
          rw [heq, hidx] at hidx'
          exact hi (beq_iff_eq.1 hidx').symm
      · refine pairwise_append.2 ⟨hpair, ?_, ?_⟩
        · exact List.Pairwise.sublist filter_sublist (pairwise_singleton _ _)
        · intro a _ b hb _
          rw [mem_singleton.1 (mem_of_mem_filter hb)]
          exact terminalChoice_blank _
      · intro hb o ho
        rcases mem_append.1 ho with ho | ho
        · exact hblank hb o ho
        · rw [mem_singleton.1 (mem_of_mem_filter ho)]
          exact terminalChoice_blank _
    · exact absurd hno (by simp)
  · -- what is sent with a finish reason is what reports one
    have hiff : ∀ c ∈ cs, (emits h cs c = true ↔ c.Reports) := by
      intro c hc
      refine ⟨hset.reports c hc, fun hr => ?_⟩
      by_contra he
      exact hexc ⟨c, hc, hr, by simpa using he⟩
    have hno : (r.2.1 && !r.2.2.finishEmitted) = false := by
      cases hstopped : r.2.1 with
      | false => rfl
      | true =>
        rw [hstop, any_eq_true] at hstopped
        obtain ⟨c, hc, hreason⟩ := hstopped
        have hr : c.Reports := by
          rw [GeminiCandidate.Reports, beq_iff_eq.1 hreason]
          rfl
        have hany : cs.any (emits h cs) = true :=
          any_eq_true.2 ⟨c, hc, (hiff c hc).2 hr⟩
        rw [hflag, hany, Bool.or_true]
        rfl
    obtain ⟨hyes, -⟩ | ⟨-, rfl, rfl⟩ := hcases
    · rw [hno] at hyes
      cases hyes
    · have hchoices : choicesOf i [r.1] = r.1.choices.filter (·.index == i) := by
        simp [choicesOf]
      rw [hchoices]
      refine ⟨?_, hpair, ?_, hblank⟩
      · rw [hcount]
        refine (countP_forall₂ (fun c o hc => ?_) hout).symm
        rw [hc.2.finish]
        have := hiff c hc.1
        cases he : emits h cs c with
        | true => exact decide_eq_true (this.1 he)
        | false =>
          refine decide_eq_false fun hr => ?_
          rw [this.2 hr] at he
          cases he
      · rintro (hf | ⟨-, c, hc, hr⟩)
        · rw [hflag, hf, Bool.true_or]
        · obtain ⟨c', hc', hr'⟩ := hreports c hc hr
          have hmem := mem_of_mem_filter hc'
          have hany : cs.any (emits h cs) = true :=
            any_eq_true.2 ⟨c', hmem, (hiff c' hmem).2 hr'⟩
          rw [hflag, hany, Bool.or_true]

/-! ### A whole stream -/

theorem reportsOnce_append (hc : ReportsOnce (cs ++ cs')) :
    ReportsOnce cs ∧ ReportsOnce cs' ∧ ∀ a ∈ cs, a.Reports → ∀ b ∈ cs', ¬b.Reports ∧ b.Blank := by
  obtain ⟨h₁, h₂, h₃⟩ := pairwise_append.1 hc
  exact ⟨h₁, h₂, fun a ha hr b hb => h₃ a ha b hb hr⟩

theorem Stepped.append {i : Int}
    {entries entries' : List (GeminiCandidate J G)} {out out' : List StreamChoice}
    (h₁ : Stepped i s s' entries out) (h₂ : Stepped i s' s'' entries' out')
    (honce : ReportsOnce (entries ++ entries')) :
    Stepped i s s'' (entries ++ entries') (out ++ out') := by
  obtain ⟨-, -, hcross⟩ := reportsOnce_append honce
  constructor
  · rw [countP_append, countP_append, h₁.count, h₂.count]
  · refine pairwise_append.2 ⟨h₁.atEnd, h₂.atEnd, fun a ha b hb hf => ?_⟩
    -- a finish reason that was sent was reported, so only entries without content follow
    have hpos := (countP_pos_iff (p := fun o : StreamChoice => o.finishReason.isSome)).2
      ⟨a, ha, hf⟩
    rw [h₁.count] at hpos
    obtain ⟨c, hc, hr⟩ := countP_pos_iff.1 hpos
    exact h₂.blank (fun c' hc' => (hcross c hc (of_decide_eq_true hr) c' hc').2) b hb
  · rintro (hf | ⟨hi, c, hc, hr⟩)
    · exact h₂.emitted (.inl (h₁.emitted (.inl hf)))
    · rcases mem_append.1 hc with hc | hc
      · exact h₂.emitted (.inl (h₁.emitted (.inr ⟨hi, c, hc, hr⟩)))
      · exact h₂.emitted (.inr ⟨hi, c, hc, hr⟩)
  · intro hb o ho
    rcases mem_append.1 ho with ho | ho
    · exact h₁.blank (fun c hc => hb c (mem_append_left _ hc)) o ho
    · exact h₂.blank (fun c hc => hb c (mem_append_right _ hc)) o ho

theorem convertStream_cons (hs : s.convertStream h (e :: es) = .ok (chunks, s')) :
    ∃ chunks₁ s₁ chunks₂, s.convertChunk h e = .ok (chunks₁, s₁) ∧
      s₁.convertStream h es = .ok (chunks₂, s') ∧ chunks = chunks₁ ++ chunks₂ := by
  simp only [convertStream] at hs
  split at hs
  · cases hs
  · rename_i chunks₁ s₁ hc
    split at hs
    · cases hs
    · rename_i chunks₂ s₂ hes
      cases hs
      exact ⟨chunks₁, s₁, chunks₂, hc, hes, rfl⟩

/-- **A stream of settled chunks.** -/
theorem stepped_stream (hs : s.convertStream h es = .ok (chunks, s'))
    (hset : AllSettled h s es) (i : Int) (honce : ReportsOnce (entriesOf i es)) :
    Stepped i s s' (entriesOf i es) (choicesOf i chunks) := by
  induction es generalizing s chunks with
  | nil =>
    cases hs
    exact ⟨rfl, .nil, fun hf => hf.resolve_right fun ⟨_, c, hc, _⟩ =>
      absurd hc not_mem_nil, fun _ o ho => absurd ho not_mem_nil⟩
  | cons e es ih =>
    obtain ⟨chunks₁, s₁, chunks₂, hc, hes, rfl⟩ := convertStream_cons hs
    simp only [AllSettled, hc] at hset
    have hentries : entriesOf i (e :: es) = entriesOf i [e] ++ entriesOf i es := by
      simp [entriesOf]
    have hchoices : choicesOf i (chunks₁ ++ chunks₂) =
        choicesOf i chunks₁ ++ choicesOf i chunks₂ := by
      simp [choicesOf]
    rw [hentries] at honce ⊢
    rw [hchoices]
    obtain ⟨h₁, h₂, -⟩ := reportsOnce_append honce
    exact (stepped hc hset.1 i h₁).append (ih hes hset.2 h₂) honce

theorem Tracked.stream (ht : Tracked s past) (hu : ∀ e ∈ es, UuidsTrimmed e)
    (hs : s.convertStream h es = .ok (chunks, s')) :
    Tracked s' (fun i => past i ++ (choicesOf i chunks).flatMap (·.delta.toolCalls)) := by
  induction es generalizing s chunks past with
  | nil =>
    cases hs
    simpa [choicesOf] using ht
  | cons e es ih =>
    obtain ⟨chunks₁, s₁, chunks₂, hc, hes, rfl⟩ := convertStream_cons hs
    obtain ⟨cs, s₀, hprep, hcases⟩ := convertChunk_cases hc
    obtain ⟨honly, -⟩ := prepareCandidates_spec hprep
    obtain ⟨-, -, -, htr⟩ := convertPrepared_spec (h := h) s₀ cs e
    have ht₁ := htr (hu e mem_cons_self) past (ht.congr honly.next honly.byID)
    have hstep : Tracked s₁ (fun i => past i ++ (choicesOf i chunks₁).flatMap
        (·.delta.toolCalls)) := by
      obtain ⟨-, rfl, rfl⟩ | ⟨-, rfl, rfl⟩ := hcases
      · refine Tracked.congr (s := (s₀.convertPrepared h cs e).2.2) ?_ rfl rfl
        convert ht₁ using 3 with i
        have hterm : ([((s₀.convertPrepared h cs e).2.2.terminalChunk e.model).1].flatMap
            fun r => r.choices.filter (·.index == i)).flatMap (·.delta.toolCalls) = [] := by
          simp only [terminalChunk, flatMap_singleton, filter_cons, filter_nil]
          split <;> rfl
        rw [choicesOf, flatMap_cons, flatMap_append, hterm, append_nil]
        rfl
      · convert ht₁ using 3 with i
        rw [choicesOf, flatMap_singleton]
        rfl
    have := ih hstep (fun e' he' => hu e' (mem_cons_of_mem e he')) hes
    convert this using 2 with i
    simp [choicesOf, append_assoc]

/-- `NewGeminiToChatStreamState`. -/
def new (id : String) (created : Int) (grounding : R) : GeminiToChatStreamState J R U :=
  { id := id, created := created, grounding := grounding }

theorem tracked_new (id : String) (created : Int) (grounding : R) :
    Tracked (new (J := J) (U := U) id created grounding) fun _ => [] :=
  ⟨fun _ => rfl, fun _ _ => rfl, fun _ _ ht => absurd ht not_mem_nil⟩

/-- What ends the stream: nothing, or the terminal chunk. -/
theorem finalize_cases {model : String}
    {last : List (StreamResponse U)} (hl : s.finalize h model = .ok last) (i : Int) :
    (s.finishEmitted = true ∧ choicesOf i last = []) ∨
      (s.finishEmitted = false ∧ choicesOf i last = if i = 0 then [terminalChoice s] else []) := by
  unfold finalize at hl
  split at hl
  · cases hl
  · cases hf : s.finishEmitted with
    | true =>
      rw [hf] at hl
      cases hl
      exact .inl ⟨rfl, rfl⟩
    | false =>
      rw [hf] at hl
      cases hl
      refine .inr ⟨rfl, ?_⟩
      by_cases hi : i = 0
      · subst hi
        rfl
      · have hne : ¬((0 : Int) = i) := fun h0 => hi h0.symm
        simp [choicesOf, terminalChunk, hi, hne]

/-- **Finish reasons and tool indexes of a stream.**  If every candidate reports its finish reason
once and at its end, every chunk is settled, and a candidate that reports none is candidate `0`,
with no finish reason sent in the stream, then every candidate has exactly one finish reason, at its
end, and its tool indexes count its ids. -/
theorem finish_once {id : String} {created : Int} {grounding : R} {model : String}
    {es : List (GeminiChunk J G U)} {chunks last : List (StreamResponse U)}
    {s : GeminiToChatStreamState J R U} (hu : ∀ e ∈ es, UuidsTrimmed e)
    (honce : ∀ i, ReportsOnce (entriesOf i es))
    (hset : AllSettled h (new id created grounding) es)
    (hs : (new id created grounding).convertStream h es = .ok (chunks, s))
    (hl : s.finalize h model = .ok last)
    (hend : ∀ i, entriesOf i es ≠ [] → (∀ c ∈ entriesOf i es, ¬c.Reports) →
      i = 0 ∧ s.finishEmitted = false) (i : Int) :
    (entriesOf i es ≠ [] → OnceAtEnd (choicesOf i (chunks ++ last))) ∧
      ByAppearance (choicesOf i (chunks ++ last)) := by
  have hstep := stepped_stream hs hset i (honce i)
  have hchoices : choicesOf i (chunks ++ last) = choicesOf i chunks ++ choicesOf i last := by
    simp [choicesOf]
  have hlast := finalize_cases hl i
  have hlastBlank : ∀ o ∈ choicesOf i last, o.Blank := by
    intro o ho
    rcases hlast with ⟨-, hnil⟩ | ⟨-, hterm⟩
    · rw [hnil] at ho
      exact absurd ho List.not_mem_nil
    · rw [hterm] at ho
      split at ho
      · rw [List.mem_singleton.1 ho]
        exact terminalChoice_blank _
      · exact absurd ho List.not_mem_nil
  constructor
  · intro happeared
    rw [hchoices]
    refine ⟨?_, List.pairwise_append.2 ⟨hstep.atEnd, ?_, fun _ _ b hb _ => hlastBlank b hb⟩⟩
    · rw [List.countP_append, hstep.count]
      by_cases hr : ∃ c ∈ entriesOf i es, c.Reports
      · have hpos : 0 < (entriesOf i es).countP fun c => decide c.Reports := by
          obtain ⟨c, hc, hr⟩ := hr
          exact List.countP_pos_iff.2 ⟨c, hc, decide_eq_true hr⟩
        have hle : (entriesOf i es).countP (fun c => decide c.Reports) ≤ 1 :=
          countP_le_one_of_pairwise (honce i)
        have hnone : (choicesOf i last).countP (·.finishReason.isSome) = 0 := by
          rcases hlast with ⟨-, hnil⟩ | ⟨hf, hterm⟩
          · rw [hnil, List.countP_nil]
          · by_cases hi : i = 0
            · rw [hstep.emitted (.inr ⟨hi, hr⟩)] at hf
              cases hf
            · rw [hterm, if_neg hi, List.countP_nil]
        omega
      · have hzero : (entriesOf i es).countP (fun c => decide c.Reports) = 0 :=
          List.countP_eq_zero.2 fun c hc hr' => hr ⟨c, hc, of_decide_eq_true hr'⟩
        obtain ⟨hi, hf⟩ := hend i happeared fun c hc hr' => hr ⟨c, hc, hr'⟩
        rcases hlast with ⟨hf', -⟩ | ⟨-, hterm⟩
        · rw [hf] at hf'
          cases hf'
        · rw [hzero, hterm, if_pos hi]
          rfl
    · rcases hlast with ⟨-, hnil⟩ | ⟨-, hterm⟩
      · rw [hnil]
        exact .nil
      · rw [hterm]
        split
        · exact List.pairwise_singleton _ _
        · exact .nil
  · have ht := (tracked_new id created grounding).stream hu hs
    have hcalls : (choicesOf i last).flatMap (·.delta.toolCalls) = [] :=
      List.flatMap_eq_nil_iff.2 fun o ho => (hlastBlank o ho).toolCalls
    intro t htm
    rw [hchoices, List.flatMap_append, hcalls, List.append_nil] at htm ⊢
    simpa using (ht.indexes i t (by simpa using htm)).2

/-! ### Streams of one candidate -/

theorem sendsCall_of_hasCall (hm : ∀ v, (h.marshal v).isSome = true)
    (hc : hasCall c = true) : sendsCall h c = true := by
  obtain ⟨p, hp, hcall⟩ := any_eq_true.1 hc
  rw [Bool.and_eq_true] at hcall
  obtain ⟨call, hcall'⟩ := Option.isSome_iff_exists.1 hcall.2
  refine any_eq_true.2 ⟨p, hp, ?_⟩
  rw [hcall.1, hcall', Bool.true_and, Option.any_some, geminiResponseToolCall, Option.isSome_map]
  cases call.arguments with
  | none => rfl
  | some v => exact hm v

/-- A chunk with candidate `0` alone is settled, as long as no finish reason was sent before the
one that it reports. -/
theorem settled_single (hm : ∀ v, (h.marshal v).isSome = true) {f : Bool}
    (hi : c.index = 0) (hr : c.finishReason ≠ some "")
    (hf : c.Reports → f = false) : SettledCandidates h f [c] := by
  have htake : hasCall c = true → takesBack h [c] = !hasNonStopFinish [c] := fun hc => by
    simp [takesBack, sendsCall_of_hasCall hm hc]
  constructor
  · intro c' hc' he
    obtain rfl := mem_singleton.1 hc'
    cases hreason : c'.finishReason with
    | some reason => simp [GeminiCandidate.Reports, hreason]
    | none =>
      by_cases hc : hasCall c' = true
      · simp [emits, hc, htake hc, hasNonStopFinish, hreason] at he
      · simp [emits, hc, hreason] at he
  · intro c' hc' hrep he
    obtain rfl := mem_singleton.1 hc'
    obtain ⟨reason, hreason⟩ := Option.isSome_iff_exists.1 hrep
    have hne : reason ≠ "" := fun h0 => hr (by rw [hreason, h0])
    refine ⟨?_, hi, hf hrep, by simp [hrep]⟩
    rw [hreason]
    by_cases hc : hasCall c' = true
    · simp only [emits, hc, htake hc, hasNonStopFinish, hreason, if_true, any_cons,
        any_nil, Bool.or_false, Bool.not_not, Bool.and_eq_false_iff, bne_eq_false_iff_eq] at he
      rw [he.resolve_left hne]
    · simp only [emits, hc, hreason, Bool.false_eq_true, if_false, Option.any_some,
        bne_eq_false_iff_eq] at he
      rw [he]

theorem finishEmitted_of_no_report (hs : s.convertChunk h e = .ok (chunks, s'))
    (hset : Settled h s e) (hr : ∀ c ∈ e.response.candidates, ¬c.Reports) :
    s'.finishEmitted = s.finishEmitted := by
  obtain ⟨cs, s₁, hprep, hcases⟩ := convertChunk_cases hs
  simp only [Settled, hprep] at hset
  obtain ⟨honly, hprepared⟩ := prepareCandidates_spec hprep
  obtain ⟨-, hstop, hflag, -⟩ := convertPrepared_spec (h := h) s₁ cs e
  have hno : ∀ c ∈ cs, ¬c.Reports := by
    intro c hc hrep
    obtain ⟨c₀, hc₀, hp⟩ := exists_forall₂ hprepared hc
    rw [GeminiCandidate.Reports, hp.finishReason] at hrep
    exact hr c₀ hc₀ hrep
  have hany : cs.any (emits h cs) = false :=
    any_eq_false.2 fun c hc he => hno c hc (hset.reports c hc he)
  have hstopped : (s₁.convertPrepared h cs e).2.1 = false := by
    rw [hstop]
    refine any_eq_false.2 fun c hc hreason => hno c hc ?_
    rw [GeminiCandidate.Reports, beq_iff_eq.1 hreason]
    rfl
  rw [hstopped] at hcases
  obtain ⟨h0, -⟩ | ⟨-, -, rfl⟩ := hcases
  · cases h0
  · rw [hflag, hany, Bool.or_false, honly.finishEmitted]

/-- **Every stream of candidate `0` alone is settled**, if its arguments can be encoded. -/
theorem allSettled_of_single (hm : ∀ v, (h.marshal v).isSome = true)
    (hes : ∀ e ∈ es, ∃ c, e.response.candidates = [c] ∧ c.index = 0 ∧ c.finishReason ≠ some "")
    (honce : ReportsOnce (entriesOf 0 es))
    (hs : s.finishEmitted = true → ∀ c ∈ entriesOf 0 es, ¬c.Reports) : AllSettled h s es := by
  induction es generalizing s with
  | nil => trivial
  | cons e es ih =>
    obtain ⟨c, hc, hi, hr⟩ := hes e mem_cons_self
    have hentries : entriesOf 0 (e :: es) = c :: entriesOf 0 es := by
      simp [entriesOf, hc, hi]
    rw [hentries] at honce hs
    obtain ⟨hhead, htail⟩ := pairwise_cons.1 honce
    have hset : Settled h s e := by
      unfold Settled
      split
      · rename_i cs s₁ hprep
        obtain ⟨-, hprepared⟩ := prepareCandidates_spec hprep
        rw [hc] at hprepared
        obtain ⟨c', cs', hp, hnil, rfl⟩ := forall₂_cons_left_iff.1 hprepared
        rw [forall₂_nil_left_iff] at hnil
        rw [hnil]
        refine settled_single hm (hp.index.trans hi) (by rw [hp.finishReason]; exact hr) ?_
        intro hrep
        rw [GeminiCandidate.Reports, hp.finishReason] at hrep
        by_contra hf
        rw [Bool.not_eq_false] at hf
        exact hs hf c mem_cons_self hrep
      · trivial
    refine ⟨hset, ?_⟩
    split
    · rename_i chunks s' hstep
      refine ih (fun e' he' => hes e' (mem_cons_of_mem e he')) htail fun hf => ?_
      by_cases hrep : c.Reports
      · exact fun c' hc' => (hhead c' hc' hrep).1
      · rw [finishEmitted_of_no_report hstep hset (by
          rw [hc]
          intro c' hc'
          rw [mem_singleton.1 hc']
          exact hrep)] at hf
        exact fun c' hc' => hs hf c' (mem_cons_of_mem c hc')
    · trivial

/-- A host for values that are all the empty object, without grounding. -/
def plainHost : GeminiStreamHost Unit Unit Unit where
  toGeminiHost := ungrounded
  setPartialArg v _ := .ok v
  grounding r _ _ := (none, r)
  quote s := "\"" ++ s ++ "\""

/-- A chunk of candidates. -/
def chunkOf (cs : List (GeminiCandidate Unit Unit)) : GeminiChunk Unit Unit Unit :=
  { response := { candidates := cs } }

/-- A call, then a text with which the candidate stops. -/
def callThenStop : List (GeminiChunk Unit Unit Unit) :=
  [chunkOf [{ parts := [{ functionCall := some { id := "1", functionName := "today" } }] }],
    chunkOf [{ parts := [{ text := "I look it up." }], finishReason := some "STOP" }]]

theorem reportsOnce_entriesOf (hes : ReportsOnce (es.flatMap (·.response.candidates))) (i : Int) :
    ReportsOnce (entriesOf i es) := by
  have : entriesOf i es = (es.flatMap (·.response.candidates)).filter (·.index == i) := by
    rw [filter_flatMap]
    rfl
  rw [this]
  exact List.Pairwise.sublist filter_sublist hes

theorem chunkOf_uuids (cs : List (GeminiCandidate Unit Unit)) : UuidsTrimmed (chunkOf cs) :=
  fun _ _ => (by decide : trimSpace ("call_" ++ "") = "call_" ++ "")

theorem callThenStop_uuids : ∀ e ∈ callThenStop, UuidsTrimmed e := by
  intro e he
  simp only [callThenStop, mem_cons, not_mem_nil, or_false] at he
  rcases he with rfl | rfl
  all_goals exact chunkOf_uuids _

theorem callThenStop_reportsOnce : ReportsOnce (callThenStop.flatMap (·.response.candidates)) := by
  exact pairwise_cons.2 ⟨fun _ _ hr => absurd hr (by decide), pairwise_singleton _ _⟩

theorem callThenStop_settled :
    AllSettled plainHost (new (J := Unit) (U := Unit) "chatcmpl-1" 0 ()) callThenStop := by
  refine allSettled_of_single (fun _ => rfl) ?_ (reportsOnce_entriesOf callThenStop_reportsOnce 0)
    (fun hf => absurd hf (by decide))
  intro e he
  simp only [callThenStop, mem_cons, not_mem_nil, or_false] at he
  rcases he with rfl | rfl
  · exact ⟨_, rfl, rfl, by decide⟩
  · exact ⟨_, rfl, rfl, by decide⟩

theorem callThenStop_reports {b : Bool} (i : Int) (hi : entriesOf i callThenStop ≠ [])
    (hr : ∀ c ∈ entriesOf i callThenStop, ¬c.Reports) : i = 0 ∧ b = false := by
  by_cases h0 : i = 0
  · subst h0
    exact absurd rfl (hr _ (mem_cons_of_mem _ mem_cons_self))
  · have hn : ¬((0 : Int) = i) := fun h => h0 h.symm
    exact absurd (by simp [entriesOf, callThenStop, chunkOf, hn]) hi

theorem finish_once_callThenStop :
    ∃ (chunks last : List (StreamResponse Unit)) (s : GeminiToChatStreamState Unit Unit Unit),
      (new "chatcmpl-1" 0 ()).convertStream plainHost callThenStop = .ok (chunks, s) ∧
        s.finalize plainHost "gemini" = .ok last ∧
        OnceAtEnd (choicesOf 0 (chunks ++ last)) ∧ ByAppearance (choicesOf 0 (chunks ++ last)) := by
  have honce := @finish_once Unit Unit Unit Unit plainHost "chatcmpl-1" 0 () "gemini" callThenStop
    _ _ _ callThenStop_uuids (reportsOnce_entriesOf callThenStop_reportsOnce) callThenStop_settled
    rfl rfl callThenStop_reports 0
  exact ⟨_, _, _, rfl, rfl, honce.1 (by decide), honce.2⟩

/-- Two candidates that stop. -/
def twoStops : List (GeminiChunk Unit Unit Unit) :=
  [chunkOf [{ parts := [{ text := "Heads." }], finishReason := some "STOP" },
    { parts := [{ text := "Tails." }], finishReason := some "STOP", index := 1 }]]

/-- The terminal chunk stands for candidate `0` alone: candidate `1` has no finish reason. -/
theorem twoStops_unfinished :
    (∀ i, ReportsOnce (entriesOf i twoStops)) ∧ (∀ e ∈ twoStops, UuidsTrimmed e) ∧
      ∃ (chunks last : List (StreamResponse Unit)) (s : GeminiToChatStreamState Unit Unit Unit),
        (new "chatcmpl-1" 0 ()).convertStream plainHost twoStops = .ok (chunks, s) ∧
          s.finalize plainHost "gemini" = .ok last ∧ entriesOf 1 twoStops ≠ [] ∧
          ¬OnceAtEnd (choicesOf 1 (chunks ++ last)) := by
  refine ⟨fun i => ?_, ?_, _, _, _, rfl, rfl, by decide, fun h => absurd h.once (by decide)⟩
  · -- each index has one entry at most
    by_cases h0 : i = 0
    · subst h0
      exact List.pairwise_singleton _ _
    · by_cases h1 : i = 1
      · subst h1
        exact List.pairwise_singleton _ _
      · have hn : ¬((0 : Int) = i) ∧ ¬((1 : Int) = i) :=
          ⟨fun h => h0 h.symm, fun h => h1 h.symm⟩
        have : entriesOf i twoStops = [] := by simp [entriesOf, twoStops, chunkOf, hn]
        rw [this]
        exact .nil
  · intro e he
    rw [List.mem_singleton.1 he]
    exact chunkOf_uuids _

end GeminiToChatStreamState

end NexusTok.Convert
