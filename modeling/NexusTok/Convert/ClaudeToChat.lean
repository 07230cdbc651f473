import Mathlib.Algebra.BigOperators.Group.List.Basic
import Mathlib.Data.List.Forall2
import NexusTok.Convert.Claude
import NexusTok.Text.Basic

/-!
# Claude Messages to Chat Completions

`ClaudeToChatStreamState.ConvertChunk` turns the events of a Claude stream into chat chunks, one
event at a time; `ResponseClaude2OpenAI` turns a whole message into a chat response.

* `ClaudeToChatStreamState.convertChunk` : the stream converter, with its map from content block
  indexes to the dense indexes of the tool calls.
* `Streams` : the legal streams of a message of text, thinking and tool blocks.
* `stream_agrees` : a legal stream always converts without an error, and what a client accumulates
  from it agrees with the whole response, **except** that the whole response has only one thinking
  block of the message.

The stream appends every thinking delta to the reasoning, while the whole response overwrites the
reasoning with each thinking block.
-/

namespace NexusTok.Convert

open List

variable {J U V : Type}

/-- The functions of the package that look into raw JSON. -/
structure ClaudeHost (J : Type) extends Codec J where
  /-- `claudeCitationsToChat`; `none` is an error. -/
  claudeCitationsToChat : Option String → String → Nat → Option (List J)
  /-- `marshalChatAnnotations`, with an error as `none`. -/
  marshalChatAnnotations : List J → Option String

variable (h : ClaudeHost J)

/-- The one choice of a chunk: tool calls replace the content. -/
def streamChoice (delta : StreamDelta) (tools : List ToolCallResponse)
    (finishReason : Option String) : StreamChoice where
  delta := if tools.isEmpty then delta else { delta with content := none, toolCalls := tools }
  finishReason := finishReason

/-- The delta of a `content_block_start`. -/
def startDelta (b : ClaudeMediaMessage J U) : StreamDelta :=
  if b.type = "text" then
    match b.text with
    | some text =>
      { content := some text
        annotations :=
          (h.claudeCitationsToChat b.citations text 0).bind h.marshalChatAnnotations }
    | none => {}
  else {}

/-- The delta of a `content_block_delta`. -/
def blockDelta (d : ClaudeMediaMessage J U) : StreamDelta :=
  match d.type with
  | "signature_delta" => { content := d.text, reasoningContent := some "\n" }
  | "thinking_delta" => { content := d.text, reasoningContent := d.thinking }
  | "citations_delta" =>
    { content := d.text
      annotations := d.citation.bind fun c =>
        if c = "" then none
        else (h.claudeCitationsToChat (some ("[" ++ c ++ "]")) "" 0).bind
          h.marshalChatAnnotations }
  | _ => { content := d.text }

def streamResponseClaude2OpenAI (r : ClaudeResponse J U) : Option (StreamResponse V) :=
  let fcIdx := r.index.getD 0
  let response : StreamResponse V := { object := "chat.completion.chunk", model := r.model }
  match r.type with
  | "message_start" =>
    let choice := streamChoice { content := some "", role := "assistant" } [] none
    match r.message with
    | some m => some { response with id := m.id, model := m.model, choices := [choice] }
    | none => some { response with choices := [choice] }
  | "content_block_start" =>
    match r.contentBlock with
    | none => none
    | some b =>
      let tools : List ToolCallResponse :=
        if b.type = "tool_use" then [⟨some fcIdx, b.id, "function", ⟨b.name, ""⟩⟩] else []
      some { response with choices := [streamChoice (startDelta h b) tools none] }
  | "content_block_delta" =>
    match r.delta with
    | none => some { response with choices := [streamChoice {} [] none] }
    | some d =>
      -- `ConvertChunk` has checked that the partial JSON is there
      let tools : List ToolCallResponse :=
        if d.type = "input_json_delta" then
          [⟨some fcIdx, "", "function", ⟨"", d.partialJson.getD ""⟩⟩]
        else []
      some { response with choices := [streamChoice (blockDelta h d) tools none] }
  | "message_delta" =>
    let finishReason := (r.delta.bind (·.stopReason)).bind fun reason =>
      let finishReason := claudeStopReasonToOpenAIFinishReason reason
      if finishReason = "null" then none else some finishReason
    some { response with choices := [streamChoice {} [] finishReason] }
  | _ => none

structure ClaudeToChatStreamState where
  toolIndexByContentBlock : Int → Option Int := fun _ => none
  blockTypeByContentBlock : Int → Option String := fun _ => none
  nextToolIndex : Int := 0

def isClaudeHostedToolStreamBlock (blockType : String) : Bool :=
  ["server_tool_use", "mcp_tool_use", "web_search_tool_result", "mcp_tool_result",
    "code_execution_tool_result", "web_fetch_tool_result"].contains blockType

/-- `ConvertChunk`: an error, no chunk, or a chunk, and the state afterwards. -/
def ClaudeToChatStreamState.convertChunk (s : ClaudeToChatStreamState)
    (r : ClaudeResponse J U) :
    Except String (Option (StreamResponse V)) × ClaudeToChatStreamState :=
  match r.type with
  | "content_block_start" =>
    match r.contentBlock with
    | none => (.ok (streamResponseClaude2OpenAI h r), s)
    | some b =>
      let blockType := trimSpace b.type
      if blockType = "" then (.ok (streamResponseClaude2OpenAI h r), s)
      else
        match r.index with
        | none => (.error "Claude content block stream start is missing index", s)
        | some i =>
          let s := { s with
            blockTypeByContentBlock :=
              Function.update s.blockTypeByContentBlock i (some blockType) }
          if blockType ≠ "tool_use" then
            if isClaudeHostedToolStreamBlock blockType then (.ok none, s)
            else (.ok (streamResponseClaude2OpenAI h r), s)
          else
            match s.toolIndexByContentBlock i with
            | some toolIndex =>
              (.ok (streamResponseClaude2OpenAI h { r with index := some toolIndex }), s)
            | none =>
              let toolIndex := s.nextToolIndex
              let s := { s with
                nextToolIndex := s.nextToolIndex + 1
                toolIndexByContentBlock :=
                  Function.update s.toolIndexByContentBlock i (some toolIndex) }
              (.ok (streamResponseClaude2OpenAI h { r with index := some toolIndex }), s)
  | "content_block_delta" =>
    match r.delta with
    | none => (.ok (streamResponseClaude2OpenAI h r), s)
    | some d =>
      if d.type ≠ "input_json_delta" then (.ok (streamResponseClaude2OpenAI h r), s)
      else
        match r.index with
        | none => (.error "Claude tool-use stream delta is missing content block index", s)
        | some i =>
          if d.partialJson.isNone then
            (.error "Claude tool-use stream delta is missing partial JSON", s)
          else
            match s.toolIndexByContentBlock i with
            | none =>
              if isClaudeHostedToolStreamBlock ((s.blockTypeByContentBlock i).getD "") then
                (.ok none, s)
              else
                (.error ("Claude tool-use stream delta references unknown content block index " ++
                  toString i), s)
            | some toolIndex =>
              (.ok (streamResponseClaude2OpenAI h { r with index := some toolIndex }), s)
  | "content_block_stop" =>
    match r.index with
    | none => (.ok (streamResponseClaude2OpenAI h r), s)
    | some i =>
      (.ok (streamResponseClaude2OpenAI h r),
        { s with
          blockTypeByContentBlock := Function.update s.blockTypeByContentBlock i none })
  | _ => (.ok (streamResponseClaude2OpenAI h r), s)

/-- A whole stream, up to the first error: the chunks and the last state. -/
def ClaudeToChatStreamState.convertStream :
    ClaudeToChatStreamState → List (ClaudeResponse J U) →
      Except String (List (StreamResponse V) × ClaudeToChatStreamState)
  | s, [] => .ok ([], s)
  | s, r :: rs =>
    match s.convertChunk h r with
    | (.error e, _) => .error e
    | (.ok chunk, s') =>
      match convertStream s' rs with
      | .error e => .error e
      | .ok (chunks, s'') => .ok (chunk.toList ++ chunks, s'')

/-- The state of the loop of `ResponseClaude2OpenAI` over the content blocks. -/
structure ClaudeFold (J : Type) where
  responseText : String := ""
  responseTextOffset : Nat := 0
  tools : List ToolCallResponse := []
  thinkingContent : String := ""
  annotations : List J := []

/-- `kitutil.Marshal` of a tool's input, with an error as no text. -/
def marshalInput (input : Option J) : String :=
  match input with
  | none => "null"
  | some v => (h.marshal v).getD ""

/-- One content block in the loop. -/
def ClaudeFold.step (f : ClaudeFold J) (message : ClaudeMediaMessage J U) : ClaudeFold J :=
  match message.type with
  | "tool_use" =>
    { f with
      tools := f.tools ++
        [⟨none, message.id, "function", ⟨message.name, marshalInput h message.input⟩⟩] }
  | "thinking" =>
    match message.thinking with
    | some thinking => { f with thinkingContent := thinking }
    | none => f
  | "text" =>
    let text := message.getText
    { f with
      responseText := f.responseText ++ text
      responseTextOffset := f.responseTextOffset + text.length
      annotations := f.annotations ++
        (h.claudeCitationsToChat message.citations text f.responseTextOffset).getD [] }
  | _ => f

/-- `ResponseClaude2OpenAI`, at the time `created`. -/
def responseClaude2OpenAI (created : Int) (r : ClaudeResponse J U) : TextResponse :=
  let responseThinking := (r.content.head?.bind (·.thinking)).getD ""
  let f := r.content.foldl (ClaudeFold.step h) {}
  let reasoningContent :=
    if f.thinkingContent ≠ "" then some f.thinkingContent
    else if responseThinking ≠ "" then some responseThinking
    else none
  { id := r.id
    model := r.model
    object := "chat.completion"
    created := created
    choices := [{
      index := 0
      message := {
        role := "assistant"
        content := f.responseText
        reasoningContent := reasoningContent
        toolCalls := f.tools
        annotations := h.marshalChatAnnotations f.annotations }
      finishReason := claudeStopReasonToOpenAIFinishReason r.stopReason }] }

/-! ### Legal streams -/

/-- A content block of a message. -/
inductive Block (J : Type)
  | text (text : String) (citations : Option String)
  | thinking (thinking : String)
  | toolUse (id name : String) (input : J)

/-- The content block of the whole message. -/
def Block.media : Block J → ClaudeMediaMessage J U
  | .text t citations => { type := "text", text := some t, citations := citations }
  | .thinking t => { type := "thinking", thinking := some t }
  | .toolUse id name input => { type := "tool_use", id := id, name := name, input := some input }

/-- The content block as a stream starts it: its content comes in deltas. -/
def Block.started : Block J → ClaudeMediaMessage J U
  | .text .. => { type := "text", text := some "" }
  | .thinking _ => { type := "thinking", thinking := some "" }
  | .toolUse id name _ =>
    { type := "tool_use", id := id, name := name, input := some h.emptyObject }

/-- One delta of a block. -/
inductive Piece
  | text (text : String)
  | thinking (thinking : String)
  | partialJson (partialJson : String)
  | citation (citation : String)

/-- The delta on the wire. -/
def Piece.media : Piece → ClaudeMediaMessage J U
  | .text t => { type := "text_delta", text := some t }
  | .thinking t => { type := "thinking_delta", thinking := some t }
  | .partialJson t => { type := "input_json_delta", partialJson := some t }
  | .citation c => { type := "citations_delta", citation := some c }

/-- The content of a delta. -/
def Piece.payload : Piece → String
  | .text t | .thinking t | .partialJson t => t
  | .citation _ => ""

/-- The deltas that a block may have. -/
def Block.Takes : Block J → Piece → Prop
  | .text .., .text _ | .text .., .citation _ => True
  | .thinking _, .thinking _ => True
  | .toolUse .., .partialJson _ => True
  | _, _ => False

/-- The deltas `ps` carry the content of the block. -/
def Block.Splits (b : Block J) (ps : List Piece) : Prop :=
  (∀ p ∈ ps, b.Takes p) ∧
    match b with
    | .text t _ | .thinking t => String.join (ps.map Piece.payload) = t
    | .toolUse _ _ input => h.value (String.join (ps.map Piece.payload)) = some input

/-- The delta events of the block `i`. -/
def deltaEvents (i : Int) (ps : List Piece) : List (ClaudeResponse J U) :=
  ps.map fun p => { type := "content_block_delta", index := some i, delta := some p.media }

/-- The events of the block `i`: its start, its deltas and its stop. -/
def Block.events (i : Int) (b : Block J) (ps : List Piece) : List (ClaudeResponse J U) :=
  { type := "content_block_start", index := some i, contentBlock := some (b.started h) } ::
    (deltaEvents i ps ++ [{ type := "content_block_stop", index := some i }])

/-- The events of the blocks from the index `i` on. -/
def blockEvents : Int → List (Block J × List Piece) → List (ClaudeResponse J U)
  | _, [] => []
  | i, (b, ps) :: rest => b.events h i ps ++ blockEvents (i + 1) rest

/-- The message of a `message_start`: its id and its model. -/
def startMessage (whole : ClaudeResponse J U) : ClaudeMediaMessage J U :=
  { type := "message", role := "assistant", id := whole.id, model := whole.model,
    content := some [] }

/-- **A legal stream** of the message `whole` with the content `blocks`: `message_start`, the
blocks one after the other, `message_delta` with the stop reason, `message_stop`, and pings
anywhere. -/
def Streams (whole : ClaudeResponse J U) (blocks : List (Block J))
    (events : List (ClaudeResponse J U)) : Prop :=
  ∃ split : List (Block J × List Piece),
    split.map Prod.fst = blocks ∧ (∀ b ∈ split, b.1.Splits h b.2) ∧
      events.filter (fun e => decide (e.type ≠ "ping")) =
        { type := "message_start", message := some (startMessage whole) } ::
          (blockEvents h 0 split ++
            [{ type := "message_delta", delta := some { stopReason := some whole.stopReason } },
              { type := "message_stop" }])

/-! ### What one event yields -/

open ClaudeToChatStreamState

/-- The events `es` convert from `s` to `s'`, and a client that had `a` then has `a'`. -/
def Yields (s : ClaudeToChatStreamState) (a : Accumulated) (es : List (ClaudeResponse J U))
    (s' : ClaudeToChatStreamState) (a' : Accumulated) : Prop :=
  ∃ chunks : List (StreamResponse V), s.convertStream h es = .ok (chunks, s') ∧
    (deltasOf 0 chunks).foldl Accumulated.add a = a'

variable {h} {s s' s'' : ClaudeToChatStreamState} {a a' a'' : Accumulated}
  {es es' : List (ClaudeResponse J U)}

theorem Yields.nil : Yields (V := V) h s a ([] : List (ClaudeResponse J U)) s a :=
  ⟨[], rfl, rfl⟩

theorem Yields.cons {r : ClaudeResponse J U} {c : Option (StreamResponse V)}
    (hr : s.convertChunk h r = (.ok c, s'))
    (ha : (deltasOf 0 c.toList).foldl Accumulated.add a = a')
    (hes : Yields (V := V) h s' a' es s'' a'') : Yields (V := V) h s a (r :: es) s'' a'' := by
  obtain ⟨chunks, hc, hd⟩ := hes
  refine ⟨c.toList ++ chunks, ?_, ?_⟩
  · simp only [convertStream, hr, hc]
  · rw [deltasOf_append, foldl_append, ha, hd]

theorem Yields.single {r : ClaudeResponse J U} {c : Option (StreamResponse V)}
    (hr : s.convertChunk h r = (.ok c, s'))
    (ha : (deltasOf 0 c.toList).foldl Accumulated.add a = a') :
    Yields (V := V) h s a [r] s' a' :=
  .cons hr ha .nil

theorem Yields.append (hes : Yields (V := V) h s a es s' a')
    (hes' : Yields (V := V) h s' a' es' s'' a'') :
    Yields (V := V) h s a (es ++ es') s'' a'' := by
  obtain ⟨chunks, hc, hd⟩ := hes
  induction es generalizing s a chunks with
  | nil =>
    simp only [convertStream, Except.ok.injEq, Prod.mk.injEq] at hc
    obtain ⟨rfl, rfl⟩ := hc
    subst hd
    exact hes'
  | cons r es ih =>
    simp only [convertStream] at hc
    split at hc
    · cases hc
    · rename_i chunk s₁ hr
      split at hc
      · cases hc
      · rename_i chunks₁ s₂ hc₁
        simp only [Except.ok.injEq, Prod.mk.injEq] at hc
        obtain ⟨rfl, rfl⟩ := hc
        rw [deltasOf_append, foldl_append] at hd
        exact .cons hr rfl (ih chunks₁ hc₁ hd)

/-- Pings yield nothing. -/
theorem convertStream_filter (s : ClaudeToChatStreamState) (es : List (ClaudeResponse J U)) :
    s.convertStream (V := V) h (es.filter fun e => decide (e.type ≠ "ping")) =
      s.convertStream h es := by
  induction es generalizing s with
  | nil => rfl
  | cons r es ih =>
    by_cases hr : r.type = "ping"
    · have hc : s.convertChunk (V := V) h r = (.ok none, s) := by
        simp [convertChunk, streamResponseClaude2OpenAI, hr]
      rw [filter_cons_of_neg (by simpa using hr), ih]
      simp only [convertStream, hc]
      cases s.convertStream (V := V) h es with
      | error | ok => rfl
    · rw [filter_cons_of_pos (by simpa using hr)]
      simp only [convertStream, ih]

/-! ### What one block yields -/

theorem addFragment_last {l : List Call} {c : Call} {t : ToolCallResponse}
    (hc : t.index.getD 0 = c.index) (hcs : ∀ c' ∈ l, c'.index ≠ c.index) :
    addFragment (l ++ [c]) t = l ++ [c.extend t] := by
  have hany : (l ++ [c]).any (fun c' => c'.index == c.index) = true := by simp
  have hmap : l.map (fun c' => if c'.index = c.index then c'.extend t else c') = l := by
    rw [map_congr_left fun c' hc' => if_neg (hcs c' hc'), map_id']
  simp only [addFragment, hc, hany, if_true, map_append, map_cons, map_nil]
  rw [hmap]

theorem addFragment_new {l : List Call} {t : ToolCallResponse}
    (hcs : ∀ c ∈ l, c.index ≠ t.index.getD 0) :
    addFragment l t = l ++ [⟨t.index.getD 0, t.id, t.function.name, t.function.arguments⟩] := by
  have hany : l.any (fun c => c.index == t.index.getD 0) = false := by
    simpa using hcs
  simp [addFragment, hany]

/-- The calls of a client are the dense beginning of the indexes, and no block from `i` on has
started. -/
structure Reached (i : Int) (s : ClaudeToChatStreamState) (a : Accumulated) : Prop where
  fresh : ∀ k, i ≤ k → s.toolIndexByContentBlock k = none
  next : s.nextToolIndex = a.calls.length
  below : ∀ c ∈ a.calls, c.index < a.calls.length

/-- What a client gets from the stream of a block. -/
def Accumulated.addBlock (a : Accumulated) : Block J × List Piece → Accumulated
  | (.text t _, _) => { a with text := a.text ++ t }
  | (.thinking t, _) => { a with reasoning := a.reasoning ++ t }
  | (.toolUse id name _, ps) =>
    { a with
      calls := a.calls ++ [⟨a.calls.length, id, name, String.join (ps.map Piece.payload)⟩] }

variable {i : Int} {ps : List Piece}

theorem yields_text {t : String} {citations : Option String}
    (hps : ∀ p ∈ ps, (Block.text t citations : Block J).Takes p) :
    Yields (V := V) h s a (deltaEvents (J := J) (U := U) i ps) s
      { a with text := a.text ++ String.join (ps.map Piece.payload) } := by
  induction ps generalizing a with
  | nil => simpa [deltaEvents] using Yields.nil (V := V) (h := h) (U := U) (a := a)
  | cons p ps ih =>
    have hp := hps p mem_cons_self
    have hrest := ih (a := { a with text := a.text ++ p.payload }) fun q hq =>
      hps q (mem_cons_of_mem p hq)
    rw [map_cons, String.join_cons, ← String.append_assoc]
    cases p with
    | text t' =>
      exact .cons (c := some _) rfl (by
        simp [deltasOf, streamChoice, Piece.media, blockDelta, Accumulated.add,
          StreamDelta.getContentString, StreamDelta.getReasoningContent, Piece.payload]) hrest
    | citation c =>
      exact .cons (c := some _) rfl (by
        simp [deltasOf, streamChoice, Piece.media, blockDelta, Accumulated.add,
          StreamDelta.getContentString, StreamDelta.getReasoningContent, Piece.payload]) hrest
    | thinking | partialJson => exact hp.elim

theorem yields_thinking {t : String} (hps : ∀ p ∈ ps, (Block.thinking t : Block J).Takes p) :
    Yields (V := V) h s a (deltaEvents (J := J) (U := U) i ps) s
      { a with reasoning := a.reasoning ++ String.join (ps.map Piece.payload) } := by
  induction ps generalizing a with
  | nil => simpa [deltaEvents] using Yields.nil (V := V) (h := h) (U := U) (a := a)
  | cons p ps ih =>
    have hp := hps p mem_cons_self
    have hrest := ih (a := { a with reasoning := a.reasoning ++ p.payload }) fun q hq =>
      hps q (mem_cons_of_mem p hq)
    rw [map_cons, String.join_cons, ← String.append_assoc]
    cases p with
    | thinking t' =>
      exact .cons (c := some _) rfl (by
        simp [deltasOf, streamChoice, Piece.media, blockDelta, Accumulated.add,
          StreamDelta.getContentString, StreamDelta.getReasoningContent, Piece.payload]) hrest
    | text | citation | partialJson => exact hp.elim

theorem yields_partialJson {n : Int} {id name input} {cs : List Call} {arguments : String}
    (hs : s.toolIndexByContentBlock i = some n) (hcs : ∀ c ∈ cs, c.index ≠ n)
    (ha : a.calls = cs ++ [⟨n, id, name, arguments⟩])
    (hps : ∀ p ∈ ps, (Block.toolUse id name input : Block J).Takes p) :
    Yields (V := V) h s a (deltaEvents (J := J) (U := U) i ps) s
      { a with
        calls := cs ++ [⟨n, id, name, arguments ++ String.join (ps.map Piece.payload)⟩] } := by
  induction ps generalizing a arguments with
  | nil =>
    have : ({ a with calls := cs ++ [⟨n, id, name, arguments ++ String.join []⟩] } :
        Accumulated) = a := by
      cases a; simpa using ha.symm
    rw [map_nil, this]
    exact .nil
  | cons p ps ih =>
    have hp := hps p mem_cons_self
    rw [map_cons, String.join_cons, ← String.append_assoc]
    cases p with
    | partialJson t =>
      have hrest := ih (a := { a with calls := cs ++ [⟨n, id, name, arguments ++ t⟩] }) rfl
        fun q hq => hps q (mem_cons_of_mem _ hq)
      refine .cons (c := streamResponseClaude2OpenAI h
          ({ type := "content_block_delta", index := some n
             delta := some (Piece.partialJson t).media } : ClaudeResponse J U)) ?_ ?_ hrest
      · simp [convertChunk, Piece.media, hs]
      · have hadd := addFragment_last (t := ⟨some n, "", "function", ⟨"", t⟩⟩)
          (c := ⟨n, id, name, arguments⟩) (l := cs) rfl hcs
        simp [streamResponseClaude2OpenAI, deltasOf, streamChoice, Piece.media, Accumulated.add,
          ha, hadd, Call.extend, orElse, StreamDelta.getContentString,
          StreamDelta.getReasoningContent, blockDelta]
    | text | citation | thinking => exact hp.elim

/-- The start of a text or a thinking block adds nothing. -/
theorem yields_start {b : Block J} (hb : ∀ id name input, b ≠ .toolUse id name input) :
    ∃ s', Yields (V := V) h s a
        [({ type := "content_block_start", index := some i
            contentBlock := some (b.started h) } : ClaudeResponse J U)] s' a ∧
      s'.toolIndexByContentBlock = s.toolIndexByContentBlock ∧
      s'.nextToolIndex = s.nextToolIndex := by
  have htext : trimSpace "text" = "text" := by decide
  have hthinking : trimSpace "thinking" = "thinking" := by decide
  cases b with
  | text t citations =>
    refine ⟨{ s with blockTypeByContentBlock :=
        Function.update s.blockTypeByContentBlock i (some "text") },
      .single (c := streamResponseClaude2OpenAI h
        ({ type := "content_block_start", index := some i
           contentBlock := some ((Block.text t citations).started h) } : ClaudeResponse J U)) ?_ ?_,
      rfl, rfl⟩
    · simp [convertChunk, Block.started, htext, isClaudeHostedToolStreamBlock]
    · simp [streamResponseClaude2OpenAI, Block.started, startDelta, deltasOf, streamChoice,
        Accumulated.add, StreamDelta.getContentString, StreamDelta.getReasoningContent]
  | thinking t =>
    refine ⟨{ s with blockTypeByContentBlock :=
        Function.update s.blockTypeByContentBlock i (some "thinking") },
      .single (c := streamResponseClaude2OpenAI h
        ({ type := "content_block_start", index := some i
           contentBlock := some ((Block.thinking t).started h) } : ClaudeResponse J U)) ?_ ?_,
      rfl, rfl⟩
    · simp [convertChunk, Block.started, hthinking, isClaudeHostedToolStreamBlock]
    · simp [streamResponseClaude2OpenAI, Block.started, startDelta, deltasOf, streamChoice,
        Accumulated.add, StreamDelta.getContentString, StreamDelta.getReasoningContent]
  | toolUse id name input => exact absurd rfl (hb id name input)

theorem yields_start_toolUse (id name : String) (input : J) (hr : Reached i s a) :
    ∃ s', Yields (V := V) h s a
        [({ type := "content_block_start", index := some i
            contentBlock := some ((Block.toolUse id name input).started h) } :
          ClaudeResponse J U)] s'
        { a with calls := a.calls ++ [⟨a.calls.length, id, name, ""⟩] } ∧
      s'.toolIndexByContentBlock =
        Function.update s.toolIndexByContentBlock i (some (a.calls.length : Int)) ∧
      s'.nextToolIndex = a.calls.length + 1 := by
  have htool : trimSpace "tool_use" = "tool_use" := by decide
  refine ⟨{ s with
      blockTypeByContentBlock := Function.update s.blockTypeByContentBlock i (some "tool_use")
      nextToolIndex := s.nextToolIndex + 1
      toolIndexByContentBlock :=
        Function.update s.toolIndexByContentBlock i (some s.nextToolIndex) },
    .single (c := streamResponseClaude2OpenAI h
      ({ type := "content_block_start", index := some s.nextToolIndex
         contentBlock := some ((Block.toolUse id name input).started h) } :
        ClaudeResponse J U)) ?_ ?_, by rw [hr.next], by rw [hr.next]⟩
  · simp [convertChunk, Block.started, htool, hr.fresh i (Int.le_refl i)]
  · have hadd := addFragment_new (t := ⟨some s.nextToolIndex, id, "function", ⟨name, ""⟩⟩)
      (l := a.calls) fun c hc => by
        have := hr.below c hc
        simp only [Option.getD_some, hr.next]
        omega
    rw [hr.next] at hadd
    simp [streamResponseClaude2OpenAI, Block.started, startDelta, deltasOf, streamChoice,
      Accumulated.add, StreamDelta.getContentString, StreamDelta.getReasoningContent, hadd,
      hr.next]

/-- The stop of a block adds nothing. -/
theorem yields_stop (i : Int) :
    ∃ s', Yields (V := V) h s a
        [({ type := "content_block_stop", index := some i } : ClaudeResponse J U)] s' a ∧
      s'.toolIndexByContentBlock = s.toolIndexByContentBlock ∧
      s'.nextToolIndex = s.nextToolIndex :=
  ⟨{ s with blockTypeByContentBlock := Function.update s.blockTypeByContentBlock i none },
    .single (c := none) rfl rfl, rfl, rfl⟩

/-- **One block.**  From a client with the calls below the block, the stream of the block yields
what the block adds. -/
theorem yields_block {b : Block J} (hr : Reached i s a) (hb : b.Splits h ps) :
    ∃ s', Yields (V := V) h s a (b.events h i ps : List (ClaudeResponse J U)) s'
        (a.addBlock (b, ps)) ∧ Reached (i + 1) s' (a.addBlock (b, ps)) := by
  cases b with
  | text t citations =>
    obtain ⟨hps, rfl⟩ := hb
    obtain ⟨s₁, h₁, ht₁, hn₁⟩ := yields_start (V := V) (U := U) (h := h) (s := s) (a := a)
      (i := i) (b := .text (String.join (ps.map Piece.payload)) citations) (fun _ _ _ => nofun)
    obtain ⟨s₂, h₂, ht₂, hn₂⟩ := yields_stop (V := V) (U := U) (h := h) (s := s₁)
      (a := { a with text := a.text ++ String.join (ps.map Piece.payload) }) i
    refine ⟨s₂, h₁.append ((yields_text hps).append h₂), ?_, ?_, ?_⟩
    · intro k hk
      rw [ht₂, ht₁]
      exact hr.fresh k (by omega)
    · rw [hn₂, hn₁]
      exact hr.next
    · exact hr.below
  | thinking t =>
    obtain ⟨hps, rfl⟩ := hb
    obtain ⟨s₁, h₁, ht₁, hn₁⟩ := yields_start (V := V) (U := U) (h := h) (s := s) (a := a)
      (i := i) (b := .thinking (String.join (ps.map Piece.payload))) (fun _ _ _ => nofun)
    obtain ⟨s₂, h₂, ht₂, hn₂⟩ := yields_stop (V := V) (U := U) (h := h) (s := s₁)
      (a := { a with reasoning := a.reasoning ++ String.join (ps.map Piece.payload) }) i
    refine ⟨s₂, h₁.append ((yields_thinking hps).append h₂), ?_, ?_, ?_⟩
    · intro k hk
      rw [ht₂, ht₁]
      exact hr.fresh k (by omega)
    · rw [hn₂, hn₁]
      exact hr.next
    · exact hr.below
  | toolUse id name input =>
    obtain ⟨s₁, h₁, ht₁, hn₁⟩ := yields_start_toolUse (V := V) (U := U) (h := h) id
      name input hr
    have hcs : ∀ c ∈ a.calls, c.index ≠ (a.calls.length : Int) := fun c hc =>
      Int.ne_of_lt (hr.below c hc)
    have hdeltas := yields_partialJson (V := V) (U := U) (h := h) (i := i) (s := s₁)
      (a := { a with calls := a.calls ++ [⟨a.calls.length, id, name, ""⟩] })
      (by rw [ht₁, Function.update_self]) hcs rfl hb.1
    obtain ⟨s₂, h₂, ht₂, hn₂⟩ := yields_stop (V := V) (U := U) (h := h) (s := s₁)
      (a := a.addBlock (Block.toolUse id name input, ps)) i
    rw [String.empty_append] at hdeltas
    refine ⟨s₂, h₁.append (hdeltas.append h₂), ?_, ?_, ?_⟩
    · intro k hk
      rw [ht₂, ht₁, Function.update_of_ne (by omega)]
      exact hr.fresh k (by omega)
    · rw [hn₂, hn₁]
      simp [Accumulated.addBlock]
    · intro c hc
      simp only [Accumulated.addBlock, mem_append, mem_singleton] at hc
      simp only [Accumulated.addBlock, length_append, length_singleton]
      rcases hc with hc | rfl
      · have := hr.below c hc
        omega
      · push_cast
        omega

variable {split : List (Block J × List Piece)}

theorem yields_blocks (hr : Reached i s a) (hsplit : ∀ b ∈ split, b.1.Splits h b.2) :
    ∃ s', Yields (V := V) h s a (blockEvents h i split : List (ClaudeResponse J U)) s'
      (split.foldl Accumulated.addBlock a) := by
  induction split generalizing i s a with
  | nil => exact ⟨s, .nil⟩
  | cons b split ih =>
    obtain ⟨s₁, h₁, hr₁⟩ := yields_block (V := V) (U := U) hr (hsplit b mem_cons_self)
    obtain ⟨s₂, h₂⟩ := ih hr₁ fun b' hb' => hsplit b' (mem_cons_of_mem b hb')
    exact ⟨s₂, h₁.append h₂⟩

/-- **A legal stream converts without an error**, to what its blocks add one after the other. -/
theorem yields_stream (whole : ClaudeResponse J U) (hsplit : ∀ b ∈ split, b.1.Splits h b.2) :
    ∃ s', Yields (V := V) h {} {}
      ({ type := "message_start", message := some (startMessage whole) } ::
        (blockEvents h 0 split ++
          [{ type := "message_delta", delta := some { stopReason := some whole.stopReason } },
            { type := "message_stop" }]))
      s' (split.foldl Accumulated.addBlock {}) := by
  obtain ⟨s', hblocks⟩ := yields_blocks (V := V) (U := U) (h := h) (i := 0) (s := {}) (a := {})
    ⟨fun _ _ => rfl, rfl, fun c hc => absurd hc not_mem_nil⟩ hsplit
  refine ⟨s', .cons (c := streamResponseClaude2OpenAI h
    { type := "message_start", message := some (startMessage whole) }) rfl ?_
    (hblocks.append (.cons (c := streamResponseClaude2OpenAI h
      { type := "message_delta", delta := some { stopReason := some whole.stopReason } }) rfl ?_
      (.single (c := none) rfl rfl)))⟩
  · rfl
  · simp [streamResponseClaude2OpenAI, deltasOf, streamChoice, Accumulated.add,
      StreamDelta.getContentString, StreamDelta.getReasoningContent]

/-! ### The whole message -/

/-- The thinking blocks of a message. -/
def thoughts (blocks : List (Block J)) : List String :=
  blocks.filterMap fun b => match b with
    | .thinking t => some t
    | _ => none

/-- A call that a client accumulated is the call of the whole response. -/
structure SameCall (c : Codec J) (call : Call) (t : ToolCallResponse) : Prop where
  id : call.id = t.id
  name : call.name = t.function.name
  arguments : ∃ v, c.value call.arguments = some v ∧ c.value t.function.arguments = some v

/-- What a client accumulated agrees with the message of the whole response: the same text, the
same reasoning, and the same calls with the indexes from `0` on. -/
structure Agrees (c : Codec J) (a : Accumulated) (m : Message) : Prop where
  text : a.text = m.content
  reasoning : a.reasoning = m.getReasoningContent
  calls : List.Forall₂ (SameCall c) a.calls m.toolCalls
  indexes : a.calls.map (·.index) = (List.range a.calls.length).map Int.ofNat

/-- Text and calls, in the middle of both conversions. -/
structure Together (c : Codec J) (a : Accumulated) (f : ClaudeFold J) : Prop where
  text : a.text = f.responseText
  calls : List.Forall₂ (SameCall c) a.calls f.tools
  indexes : a.calls.map (·.index) = (List.range a.calls.length).map Int.ofNat

theorem Together.step {f : ClaudeFold J} {b : Block J × List Piece} (hh : h.RoundTrips)
    (hb : b.1.Splits h b.2) (ht : Together h.toCodec a f) :
    Together h.toCodec (a.addBlock b) (f.step h (b.1.media : ClaudeMediaMessage J U)) := by
  obtain ⟨b, ps⟩ := b
  cases b with
  | text t citations =>
    exact ⟨congrArg (· ++ t) ht.text, ht.calls, ht.indexes⟩
  | thinking t => exact ⟨ht.text, ht.calls, ht.indexes⟩
  | toolUse id name input =>
    obtain ⟨args, hm, hne, hu⟩ := hh input
    refine ⟨ht.text, ?_, ?_⟩
    · refine rel_append ht.calls (.cons ⟨rfl, rfl, input, hb.2, ?_⟩ .nil)
      simp [Block.media, marshalInput, hm, Codec.value, hne, hu]
    · simp [Accumulated.addBlock, ht.indexes, range_succ]

theorem Together.blocks {f : ClaudeFold J}
    (hh : h.RoundTrips) (hsplit : ∀ b ∈ split, b.1.Splits h b.2) (ht : Together h.toCodec a f) :
    Together h.toCodec (split.foldl Accumulated.addBlock a)
      ((split.map fun b => (b.1.media : ClaudeMediaMessage J U)).foldl (ClaudeFold.step h) f) := by
  induction split generalizing a f with
  | nil => exact ht
  | cons b split ih =>
    exact ih (fun b' hb' => hsplit b' (mem_cons_of_mem b hb'))
      (ht.step hh (hsplit b mem_cons_self))

/-- The stream appends the thinking blocks. -/
theorem reasoning_blocks (split : List (Block J × List Piece)) (a : Accumulated) :
    (split.foldl Accumulated.addBlock a).reasoning =
      a.reasoning ++ String.join (thoughts (split.map Prod.fst)) := by
  induction split generalizing a with
  | nil => simp [thoughts]
  | cons b split ih =>
    obtain ⟨b, ps⟩ := b
    rw [foldl_cons, ih]
    cases b with
    | text | toolUse => rfl
    | thinking t =>
      simp [Accumulated.addBlock, thoughts, String.join_cons, String.append_assoc]

theorem thinkingContent_blocks (blocks : List (Block J)) (f : ClaudeFold J) :
    ((blocks.map fun b => (b.media : ClaudeMediaMessage J U)).foldl
      (ClaudeFold.step h) f).thinkingContent = (thoughts blocks).getLastD f.thinkingContent := by
  induction blocks generalizing f with
  | nil => rfl
  | cons b blocks ih =>
    rw [map_cons, foldl_cons, ih]
    cases b with
    | text | toolUse => rfl
    | thinking t =>
      have hcons : thoughts (Block.thinking t :: blocks) = t :: thoughts blocks := rfl
      rw [hcons, getLastD_cons]
      rfl

/-- **At most one thinking block of the message is not empty**, and that one is the last thinking
block or the first block of the message. -/
def SingleThought (blocks : List (Block J)) : Prop :=
  match (thoughts blocks).filter (· ≠ "") with
  | [] => True
  | [t] => (thoughts blocks).getLast? = some t ∨ ∃ b, blocks.head? = some b ∧ thoughts [b] = [t]
  | _ => False

/-- The reasoning of the whole response. -/
def wholeThought (blocks : List (Block J)) : String :=
  orElse ((thoughts blocks).getLastD "") ((thoughts (blocks.head?.toList)).headD "")

theorem join_filter (ts : List String) : String.join (ts.filter (· ≠ "")) = String.join ts := by
  induction ts with
  | nil => rfl
  | cons t ts ih =>
    by_cases ht : t = ""
    · rw [filter_cons_of_neg (by simpa using ht), String.join_cons, ht, ih,
        String.empty_append]
    · rw [filter_cons_of_pos (by simpa using ht), String.join_cons, String.join_cons, ih]

/-- Of two or more texts that are not empty none is all of them. -/
theorem ne_join_of_mem {t t' x : String} {ts : List String} (hne : ∀ y ∈ t :: t' :: ts, y ≠ "")
    (hx : x ∈ t :: t' :: ts) : x ≠ String.join (t :: t' :: ts) := by
  intro h
  have hlen := congrArg String.length h
  rw [String.length_join] at hlen
  have hperm := (perm_cons_erase hx).map String.length
  rw [hperm.sum_eq, map_cons, sum_cons] at hlen
  obtain ⟨y, hy⟩ : ∃ y, y ∈ (t :: t' :: ts).erase x := by
    apply exists_mem_of_length_pos
    rw [length_erase_of_mem hx]
    simp
  have hpos : 0 < y.length := by
    have := hne y (mem_of_mem_erase hy)
    exact Nat.pos_of_ne_zero fun h0 => this (String.length_eq_zero_iff.1 h0)
  have hperm' := (perm_cons_erase hy).map String.length
  rw [hperm'.sum_eq, map_cons, sum_cons] at hlen
  omega

theorem getLastD_mem (ts : List String) : ts.getLastD "" = "" ∨ ts.getLast? = some (ts.getLastD "")
    := by
  cases ts with
  | nil => exact .inl rfl
  | cons t ts => exact .inr (by simp [getLast?_cons, getLastD_cons])

/-- The first block's thinking. -/
theorem head_thought (blocks : List (Block J)) :
    (thoughts blocks.head?.toList).headD "" = "" ∨
      ∃ b, blocks.head? = some b ∧ thoughts [b] = [(thoughts blocks.head?.toList).headD ""] := by
  cases blocks with
  | nil => exact .inl rfl
  | cons b blocks =>
    cases b with
    | text | toolUse => exact .inl rfl
    | thinking t => exact .inr ⟨_, rfl, rfl⟩

theorem head_thought_mem {blocks : List (Block J)} {b : Block J} {t : String}
    (hb : blocks.head? = some b) (ht : thoughts [b] = [t]) : t ∈ thoughts blocks := by
  obtain ⟨rest, rfl⟩ := head?_eq_some_iff.1 hb
  have : thoughts (b :: rest) = thoughts [b] ++ thoughts rest := by
    rw [← singleton_append]
    exact filterMap_append
  rw [this, ht]
  exact mem_cons_self

/-- Every thinking block appended is the thinking block that the whole response keeps, iff there
is at most one to keep and it is kept. -/
theorem join_thoughts_iff (blocks : List (Block J)) :
    String.join (thoughts blocks) = wholeThought blocks ↔ SingleThought blocks := by
  have hlast := getLastD_mem (thoughts blocks)
  have hhead := head_thought blocks
  rw [← join_filter]
  simp only [SingleThought]
  set first := (thoughts blocks.head?.toList).headD "" with hfirst
  set last := (thoughts blocks).getLastD "" with hlastD
  have hwhole : wholeThought blocks = orElse last first := rfl
  have hlmem : last ≠ "" → last ∈ (thoughts blocks).filter (· ≠ "") := fun h0 =>
    mem_filter.2 ⟨mem_of_getLast? (hlast.resolve_left h0), by simpa using h0⟩
  have hfmem : first ≠ "" → first ∈ (thoughts blocks).filter (· ≠ "") := fun h0 => by
    obtain ⟨b, hb, ht⟩ := hhead.resolve_left h0
    exact mem_filter.2 ⟨head_thought_mem hb ht, by simpa using h0⟩
  have hmem : orElse last first ≠ "" → orElse last first ∈ (thoughts blocks).filter (· ≠ "") := by
    intro h0
    by_cases hl : last = ""
    · rw [orElse, if_pos hl] at h0 ⊢
      exact hfmem h0
    · rw [orElse, if_neg hl]
      exact hlmem hl
  rw [hwhole]
  have hne : ∀ y ∈ (thoughts blocks).filter (· ≠ ""), y ≠ "" := fun y hy => by
    simpa using (mem_filter.1 hy).2
  cases hf : (thoughts blocks).filter (· ≠ "") with
  | nil =>
    refine ⟨fun _ => trivial, fun _ => ?_⟩
    by_contra hx
    have hm := hmem fun h0 => hx (by rw [h0]; rfl)
    rw [hf] at hm
    exact absurd hm not_mem_nil
  | cons t ts =>
    rw [hf] at hne hmem hlmem hfmem
    cases ts with
    | nil =>
      have ht : t ≠ "" := hne t mem_cons_self
      have hj : String.join [t] = t := by simp [String.join_cons]
      rw [hj]
      constructor
      · intro h
        by_cases hl : last = ""
        · rw [orElse, if_pos hl] at h
          obtain ⟨b, hb, hbt⟩ := hhead.resolve_left fun h0 => ht (h.trans h0)
          exact .inr ⟨b, hb, by rw [hbt, h]⟩
        · rw [orElse, if_neg hl] at h
          exact .inl (by rw [h]; exact hlast.resolve_left hl)
      · rintro (hl | ⟨b, hb, hbt⟩)
        · have : last = t := by rw [hlastD, getLastD_eq_getLast?, hl]; rfl
          rw [orElse, this, if_neg ht]
        · have hx : first = t := by rw [hfirst, hb, Option.toList_some, hbt]; rfl
          have := hmem (by
            rw [orElse]
            split
            · rw [hx]; exact ht
            · assumption)
          exact (mem_singleton.1 this).symm
    | cons t' ts =>
      refine ⟨fun h => ?_, False.elim⟩
      have hx : orElse last first ≠ "" := by
        intro h0
        have hlen := congrArg String.length (h.trans h0)
        have h1 := hne t mem_cons_self
        rw [String.length_join, map_cons, sum_cons, String.length_empty] at hlen
        exact h1 (String.length_eq_zero_iff.1 (by omega))
      exact ne_join_of_mem hne (hmem hx) h.symm

theorem getReasoningContent_whole (created : Int) (whole : ClaudeResponse J U)
    {blocks : List (Block J)} (hw : whole.content = blocks.map Block.media) {c : TextChoice}
    (hc : (responseClaude2OpenAI h created whole).choices = [c]) :
    c.message.getReasoningContent = wholeThought blocks := by
  simp only [responseClaude2OpenAI, List.cons.injEq, and_true] at hc
  subst hc
  have hfirst : (whole.content.head?.bind (·.thinking)).getD "" =
      (thoughts blocks.head?.toList).headD "" := by
    rw [hw]
    cases blocks with
    | nil => rfl
    | cons b blocks => cases b <;> rfl
  rw [hfirst, hw, thinkingContent_blocks]
  simp only [Message.getReasoningContent, wholeThought, orElse]
  generalize (thoughts blocks).getLastD "" = last
  generalize (thoughts blocks.head?.toList).headD "" = first
  by_cases hl : last = ""
  · by_cases hf : first = ""
    · simp [hl, hf]
    · simp [hl, hf]
  · simp [hl]

/-- **A stream and the whole message** convert to the same text, reasoning and tool calls iff the
message has at most one thinking block that is not empty, and has it last or first. -/
theorem stream_agrees (hh : h.RoundTrips) {whole : ClaudeResponse J U} {blocks : List (Block J)}
    {events : List (ClaudeResponse J U)} (hw : whole.content = blocks.map Block.media)
    (hs : Streams h whole blocks events) (created : Int) :
    (∃ (chunks : List (StreamResponse V)) (s : ClaudeToChatStreamState) (c : TextChoice),
      convertStream h {} events = .ok (chunks, s) ∧
        (responseClaude2OpenAI h created whole).choices = [c] ∧
        Agrees h.toCodec (accumulate (deltasOf 0 chunks)) c.message) ↔ SingleThought blocks := by
  obtain ⟨split, rfl, hsplit, hevents⟩ := hs
  obtain ⟨s', chunks, hchunks, hacc⟩ := yields_stream (V := V) whole hsplit
  rw [← hevents, convertStream_filter] at hchunks
  have hreason := reasoning_blocks split {}
  rw [← hacc, String.empty_append] at hreason
  have htogether := Together.blocks (U := U) (f := {}) (a := {}) hh hsplit ⟨rfl, .nil, rfl⟩
  rw [← hacc] at htogether
  rw [← join_thoughts_iff]
  constructor
  · rintro ⟨chunks', s, c, hc, hchoice, hagrees⟩
    rw [hchunks] at hc
    simp only [Except.ok.injEq, Prod.mk.injEq] at hc
    obtain ⟨rfl, rfl⟩ := hc
    rw [← getReasoningContent_whole created whole hw hchoice, ← hagrees.reasoning]
    exact hreason.symm
  · intro hthought
    refine ⟨chunks, s', _, hchunks, rfl, ?_, ?_, ?_, htogether.indexes⟩
    · rw [hw, List.map_map]
      exact htogether.text
    · rw [getReasoningContent_whole created whole hw rfl, ← hthought]
      exact hreason
    · rw [hw, List.map_map]
      exact htogether.calls

/-- A codec for values that are all the empty object. -/
def emptyObjects : ClaudeHost Unit where
  marshal _ := some "{}"
  unmarshal s := if s = "{}" then some () else none
  emptyObject := ()
  claudeCitationsToChat _ _ _ := some []
  marshalChatAnnotations _ := none

theorem emptyObjects_roundTrips : emptyObjects.RoundTrips :=
  fun _ => ⟨"{}", rfl, by decide, rfl⟩

/-- A message with a thinking block, a text and a call without arguments. -/
def lookup : List (Block Unit) :=
  [.thinking "The date is not known.", .text "I look it up." none, .toolUse "toolu_1" "today" ()]

/-- The message around content blocks. -/
def wholeOf (blocks : List (Block Unit)) : ClaudeResponse Unit Unit :=
  { id := "msg_1", type := "message", role := "assistant", model := "claude"
    content := blocks.map Block.media, stopReason := "tool_use" }

/-- The deltas of `lookup`. -/
def lookupDeltas : List (List Piece) :=
  [[.thinking "The date is", .thinking " not known."], [.text "I look it up."],
    [.partialJson "\x7b", .partialJson "\x7d"]]

/-- A legal stream of `lookup`, with a ping at its end. -/
def lookupEvents : List (ClaudeResponse Unit Unit) :=
  { type := "message_start", message := some (startMessage (wholeOf lookup)) } ::
    (blockEvents emptyObjects 0 (lookup.zip lookupDeltas) ++
      [{ type := "message_delta", delta := some { stopReason := some "tool_use" } },
        { type := "message_stop" }, { type := "ping" }])

theorem lookup_streams : Streams emptyObjects (wholeOf lookup) lookup lookupEvents := by
  refine ⟨lookup.zip lookupDeltas, rfl, ?_, rfl⟩
  intro b hb
  simp only [lookup, lookupDeltas, zip_cons_cons, zip_nil_right, mem_cons,
    not_mem_nil, or_false] at hb
  rcases hb with rfl | rfl | rfl
  all_goals exact ⟨by simp [Block.Takes], by decide⟩

theorem stream_agrees_lookup :
    ∃ (chunks : List (StreamResponse Unit)) (s : ClaudeToChatStreamState) (c : TextChoice),
      convertStream emptyObjects {} lookupEvents = .ok (chunks, s) ∧
        (responseClaude2OpenAI emptyObjects 0 (wholeOf lookup)).choices = [c] ∧
        Agrees emptyObjects.toCodec (accumulate (deltasOf 0 chunks)) c.message :=
  (stream_agrees emptyObjects_roundTrips rfl lookup_streams 0).2 (.inl rfl)

/-- Two thinking blocks. -/
def secondThought : List (Block Unit) := [.thinking "Yes.", .thinking "No."]

/-- The stream of `secondThought` with one delta for each block. -/
def secondThoughtEvents : List (ClaudeResponse Unit Unit) :=
  { type := "message_start", message := some (startMessage (wholeOf secondThought)) } ::
    (blockEvents emptyObjects 0 (secondThought.zip [[.thinking "Yes."], [.thinking "No."]]) ++
      [{ type := "message_delta", delta := some { stopReason := some "tool_use" } },
        { type := "message_stop" }])

/-- The stream has both thinking blocks, the whole response only the second. -/
theorem secondThought_disagrees :
    Streams emptyObjects (wholeOf secondThought) secondThought secondThoughtEvents ∧
      ¬∃ (chunks : List (StreamResponse Unit)) (s : ClaudeToChatStreamState) (c : TextChoice),
        convertStream emptyObjects {} secondThoughtEvents = .ok (chunks, s) ∧
          (responseClaude2OpenAI emptyObjects 0 (wholeOf secondThought)).choices = [c] ∧
          Agrees emptyObjects.toCodec (accumulate (deltasOf 0 chunks)) c.message := by
  constructor
  · refine ⟨secondThought.zip [[.thinking "Yes."], [.thinking "No."]], rfl, ?_, rfl⟩
    intro b hb
    simp only [secondThought, List.zip_cons_cons, List.zip_nil_right, List.mem_cons,
      List.not_mem_nil, or_false] at hb
    rcases hb with rfl | rfl
    all_goals exact ⟨by simp [Block.Takes], by decide⟩
  · rintro ⟨chunks, s, c, hchunks, hc, hagrees⟩
    have hstream : (convertStream (V := Unit) emptyObjects {} secondThoughtEvents).map
        (fun p => (accumulate (deltasOf 0 p.1)).reasoning) = .ok "Yes.No." := rfl
    have hwhole : (responseClaude2OpenAI emptyObjects 0 (wholeOf secondThought)).choices.map
        (fun c => c.message.getReasoningContent) = ["No."] := rfl
    rw [hchunks] at hstream
    rw [hc] at hwhole
    have hyes : (accumulate (deltasOf 0 chunks)).reasoning = "Yes.No." :=
      Except.ok.inj hstream
    have hno : c.message.getReasoningContent = "No." := (List.cons.inj hwhole).1
    have := hagrees.reasoning
    rw [hyes, hno] at this
    exact absurd this (by decide)

end NexusTok.Convert
