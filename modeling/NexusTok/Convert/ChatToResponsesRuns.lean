import NexusTok.Convert.ChatToResponsesWellFormed

/-!
# Chat Completions to Responses: well-formed streams

When the events that a stream's user gets are a well-formed Responses stream.

* `Part.Fits`, `Part.Silent`, `Part.Spares` : a part whose item has not ended, a part that sends
  nothing, and a part whose failure discards nothing.
* `FitsParts`, `LosesNothing`, `FitsCalls` : no text, annotation or reasoning comes after the end of
  its item, and a chunk that fails discards no event.
* `convertStream_wellFormed` : then the stream is well-formed.  Without the condition it is not:
  `otherChoice_malformed`.
-/

namespace NexusTok.Convert

open ResponsesClient List Except

variable {J U : Type} {h : ChatToResponsesHost J U}

/-! ### Conditions -/

/-- The item of the part has not ended. -/
def Part.Fits (h : ChatToResponsesHost J U) (s : ChatToResponsesStreamState J U) : Part → Prop
  | .reasoning _ => s.reasoningDone = false
  | .text _ => s.textDone = false
  | .annotations raw => s.textDone = false ∨ h.chatAnnotationsToResponses raw = some []
  | .toolCall _ => True
  | .finish _ => True

/-- The part has nothing to send: it has no annotations for a text that has started, or no arguments
for a tool call that is known, or nothing is open that could end. -/
def Part.Silent (h : ChatToResponsesHost J U) (s : ChatToResponsesStreamState J U) : Part → Prop
  | .reasoning _ => False
  | .text _ => False
  | .annotations raw => s.textStarted = true ∧ h.chatAnnotationsToResponses raw = some []
  | .toolCall call => (s.findTool (call.index.getD 0)).isSome ∧ call.function.arguments = ""
  | .finish _ => ∀ r, s.isOpen r = false

/-- A part that fails does so before it has sent anything. -/
def Part.Spares (h : ChatToResponsesHost J U) (s : ChatToResponsesStreamState J U) : Part → Prop
  | .annotations raw =>
    h.chatAnnotationsToResponses raw = none ∨
      (s.textStarted = true ∧
        ((h.chatAnnotationsToResponses raw).bind fun annotations =>
          annotations.head?.bind h.annotationJSON) = none)
  | _ => True

namespace ChatToResponsesStreamState

/-- The parts of a chunk fit where they come. -/
def FitsParts (h : ChatToResponsesHost J U) : ChatToResponsesStreamState J U → List Part → Prop
  | _, [] => True
  | s, p :: ps => p.Fits h s ∧ FitsParts h (s.convertPart h p).1 ps

/-- Nothing is sent before the part that fails. -/
def LosesNothing (h : ChatToResponsesHost J U) : ChatToResponsesStreamState J U → List Part → Prop
  | _, [] => True
  | s, p :: ps =>
    match s.convertPart h p with
    | (_, .error _) => p.Spares h s
    | (s', .ok _) => p.Silent h s ∧ LosesNothing h s' ps

/-- A chunk is converted and its parts fit, or it fails and has nothing to lose, not even
`response.created`. -/
def FitsChunk (h : ChatToResponsesHost J U) (s : ChatToResponsesStreamState J U)
    (chunk : StreamResponse U) : Prop :=
  match s.chunkToResponsesEvents h chunk with
  | (_, .ok _) =>
    FitsParts h (s.applyChunk h chunk).ensureCreated.1 (chunk.choices.flatMap StreamChoice.parts)
  | (_, .error _) =>
    s.sentCreated = true ∧
      LosesNothing h (s.applyChunk h chunk) (chunk.choices.flatMap StreamChoice.parts)

/-- The chunks of a stream fit, up to the first error. -/
def FitsCalls (h : ChatToResponsesHost J U) :
    ChatToResponsesStreamState J U → List (ResponsesCall U) → Prop
  | _, [] => True
  | s, call :: calls =>
    (match call with
      | .chunk chunk => s.FitsChunk h chunk
      | _ => True) ∧
    match s.convertCall h call with
    | (_, .error _) => True
    | (s', .ok _) => FitsCalls h s' calls

variable {s : ChatToResponsesStreamState J U} {c : ResponsesClient}

/-! ### Parts -/

theorem Live.applyFinishReason (hs : s.Live c) (finishReason : String) :
    (s.applyFinishReason finishReason).Live c := by
  unfold ChatToResponsesStreamState.applyFinishReason
  generalize responsesStatusFromChatFinishReason finishReason = r
  obtain ⟨status, details⟩ := r
  refine hs.congr rfl rfl rfl rfl ?_ (hs.places.congr rfl rfl rfl rfl rfl rfl rfl rfl
    hs.places.textEnd hs.places.reasoningEnd)
  funext r
  cases r <;> rfl

variable {s' : ChatToResponsesStreamState J U} {es : List (ResponsesStreamResponse J U)}

theorem convertPart_keeps (hs : s.Live c) {p : Part} (hfits : p.Fits h s)
    (hr : s.convertPart h p = (s', .ok es)) : Keeps c (s', es) := by
  cases p with
  | reasoning delta =>
    cases hr
    exact appendReasoningDelta_keeps hs hfits delta
  | text delta =>
    cases hr
    exact appendTextDelta_keeps hs hfits delta
  | annotations raw => exact appendAnnotationDelta_keeps hs hfits hr
  | toolCall toolCall => exact appendToolCallDelta_keeps hs hr
  | finish finishReason =>
    cases hr
    exact (doneDeltaEvents_keeps (hs.applyFinishReason finishReason)).1

theorem convertParts_keeps (hs : s.Live c) {ps : List Part} (hfits : FitsParts h s ps)
    (hr : s.convertParts h ps = (s', .ok es)) : Keeps c (s', es) := by
  induction ps generalizing s c s' es with
  | nil =>
    cases hr
    exact ⟨c, rfl, hs⟩
  | cons p ps ih =>
    obtain ⟨hfit, hrest⟩ := hfits
    rw [convertParts] at hr
    split at hr
    · cases hr
    · rename_i s₁ es₁ hp
      split at hr
      · cases hr
      · rename_i s₂ es₂ hps
        cases hr
        rw [hp] at hrest
        obtain ⟨c₁, h₁, hs₁⟩ := convertPart_keeps hs hfit hp
        exact Keeps.after h₁ (ih hs₁ hrest hps)

/-- Where nothing is open, nothing ends. -/
theorem doneTools_silent (status : String) (tools : List ChatToResponsesStreamTool)
    (hdone : ∀ t ∈ tools, t.done = true) : doneTools h status s tools = (s, []) := by
  induction tools with
  | nil => rfl
  | cons t tools ih =>
    rw [doneTools, if_pos (hdone t (by simp))]
    exact ih fun u hu => hdone u (by simp [hu])

theorem doneHosted_silent (refs : List OutputRef) (hclosed : ∀ r, s.isOpen r = false) :
    doneHosted h s refs = (s, []) := by
  induction refs with
  | nil => rfl
  | cons ref refs ih =>
    cases ref with
    | message | reasoning | tool => exact ih
    | hosted id =>
      rw [doneHosted]
      cases hf : s.findHosted id with
      | none => exact ih
      | some t =>
        have hdone : t.done = true := by simpa [isOpen, hf] using hclosed (.hosted id)
        dsimp only
        rw [if_pos hdone]
        exact ih

theorem doneDeltaEvents_silent (hp : s.Places) (hclosed : ∀ r, s.isOpen r = false) :
    s.doneDeltaEvents h = (s, []) := by
  have htext : s.doneText s.outputStatus = (s, []) := if_neg (by
    have := hclosed .message
    simpa [isOpen] using this)
  have hreasoning : s.doneReasoning s.outputStatus = (s, []) := if_neg (by
    have := hclosed .reasoning
    simpa [isOpen] using this)
  have htools : doneTools h s.outputStatus s s.sortedTools = (s, []) := by
    refine doneTools_silent s.outputStatus s.sortedTools fun t ht => ?_
    have hfind := findTool_of_mem hp ((mergeSort_perm _ _).mem_iff.1 ht)
    simpa [isOpen, hfind] using hclosed (.tool t.chatIndex)
  have hhosted := doneHosted_silent (h := h) s.outputOrder hclosed
  simp only [doneDeltaEvents, htext, hreasoning, htools, hhosted, append_nil]

theorem fits_of_silent {p : Part} (hp : p.Silent h s) : p.Fits h s := by
  cases p with
  | reasoning | text => exact hp.elim
  | annotations raw => exact .inr hp.2
  | toolCall | finish => trivial

theorem applyFinishReason_isOpen (finishReason : String) :
    (s.applyFinishReason finishReason).isOpen = s.isOpen := by
  funext r
  cases r <;> rfl

theorem events_of_silent (hs : s.Live c) {p : Part} (hp : p.Silent h s)
    (hr : s.convertPart h p = (s', .ok es)) : es = [] := by
  cases p with
  | reasoning | text => exact hp.elim
  | annotations raw =>
    obtain ⟨hstarted, hnone⟩ := hp
    have hstart : s.startText = (s, []) := if_pos hstarted
    simp only [convertPart, appendAnnotationDelta, hnone, hstart, appendAnnotations,
      append_nil] at hr
    obtain ⟨-, hok⟩ := Prod.mk.inj hr
    exact (ok.inj hok).symm
  | toolCall call =>
    obtain ⟨hknown, harguments⟩ := hp
    obtain ⟨t, ht⟩ := Option.isSome_iff_exists.1 hknown
    have hensure : s.ensureTool call = (t, s, []) := by
      unfold ensureTool
      rw [ht]
    simp only [convertPart, appendToolCallDelta, hensure, harguments] at hr
    split at hr
    · cases (Prod.mk.inj hr).2
    · split at hr
      · cases (Prod.mk.inj hr).2
      · split at hr
        · cases (Prod.mk.inj hr).2
        · rw [if_neg (by simp)] at hr
          exact (ok.inj (Prod.mk.inj hr).2).symm
  | finish finishReason =>
    have hclosed : ∀ r, (s.applyFinishReason finishReason).isOpen r = false := by
      rw [applyFinishReason_isOpen]
      exact hp
    have hdone := doneDeltaEvents_silent (h := h) (hs.applyFinishReason finishReason).places hclosed
    simp only [convertPart, hdone] at hr
    exact (ok.inj (Prod.mk.inj hr).2).symm

variable {e : ChatToResponsesError}

/-- A new tool call takes its first fragment. -/
theorem known_of_error {call : ToolCallResponse}
    (hr : s.appendToolCallDelta call = (s', .error e)) :
    ∃ t, s.findTool (call.index.getD 0) = some t := by
  cases hf : s.findTool (call.index.getD 0) with
  | some t => exact ⟨t, rfl⟩
  | none =>
    exfalso
    have htool : (s.ensureTool call).1 = s.newTool call := by
      unfold ensureTool
      rw [hf]
    unfold appendToolCallDelta at hr
    generalize s.ensureTool call = r at hr htool
    obtain ⟨tool, s₁, added⟩ := r
    dsimp only at htool hr
    subst htool
    have hname : ((s.newTool call).withID (trimSpace call.id)).name =
        trimSpace call.function.name := by
      unfold ChatToResponsesStreamTool.withID
      split <;> rfl
    rw [if_neg (by simp [newTool]), if_neg (by simp [newTool]), hname,
      if_neg (by simp)] at hr
    split at hr
    · cases (Prod.mk.inj hr).2
    · cases (Prod.mk.inj hr).2

/-- A part that fails before it has sent anything leaves the client as it was. -/
theorem live_of_spares (hs : s.Live c) {p : Part} (hp : p.Spares h s)
    (hr : s.convertPart h p = (s', .error e)) : s'.Live c := by
  cases p with
  | reasoning | text | finish => cases (Prod.mk.inj hr).2
  | annotations raw =>
    simp only [convertPart, appendAnnotationDelta] at hr
    rcases hp with hnone | ⟨hstarted, hfirst⟩
    · rw [hnone] at hr
      rw [← (Prod.mk.inj hr).1]
      exact hs
    · have hstart : s.startText = (s, []) := if_pos hstarted
      cases ha : h.chatAnnotationsToResponses raw with
      | none =>
        rw [ha] at hr
        rw [← (Prod.mk.inj hr).1]
        exact hs
      | some annotations =>
        rw [ha, hstart] at hr
        rw [ha] at hfirst
        cases annotations with
        | nil => cases (Prod.mk.inj hr).2
        | cons annotation annotations =>
          have hnone : h.annotationJSON annotation = none := hfirst
          simp only [appendAnnotations, hnone] at hr
          rw [← (Prod.mk.inj hr).1]
          exact hs
  | toolCall call =>
    obtain ⟨t, ht⟩ := known_of_error hr
    have hensure : s.ensureTool call = (t, s, []) := by
      unfold ensureTool
      rw [ht]
    simp only [convertPart, appendToolCallDelta, hensure] at hr
    split at hr
    · rw [← (Prod.mk.inj hr).1]
      exact hs
    · split at hr
      · rw [← (Prod.mk.inj hr).1]
        exact hs
      · split at hr
        · rw [← (Prod.mk.inj hr).1]
          have hsame : (t.withID (trimSpace call.id)).chatIndex = t.chatIndex ∧
              (t.withID (trimSpace call.id)).outputIndex = t.outputIndex ∧
              (t.withID (trimSpace call.id)).done = t.done := by
            unfold ChatToResponsesStreamTool.withID
            split <;> exact ⟨rfl, rfl, rfl⟩
          obtain ⟨hindex, hout, hdone⟩ := hsame
          refine hs.setTool ?_ hout hdone
          rw [hindex, (findTool_spec ht).2]
          exact ht
        · split at hr
          · cases (Prod.mk.inj hr).2
          · cases (Prod.mk.inj hr).2

theorem live_of_losesNothing (hs : s.Live c) {ps : List Part} (hps : LosesNothing h s ps)
    (hr : s.convertParts h ps = (s', .error e)) : s'.Live c := by
  induction ps generalizing s s' e with
  | nil => exact nomatch (Prod.mk.inj hr).2
  | cons p ps ih =>
    rw [convertParts] at hr
    rw [LosesNothing] at hps
    generalize hp : s.convertPart h p = r at hr hps
    obtain ⟨s₁, r⟩ := r
    cases r with
    | error e₁ =>
      dsimp only at hr hps
      rw [← (Prod.mk.inj hr).1]
      exact live_of_spares hs hps hp
    | ok es₁ =>
      dsimp only at hr hps
      obtain ⟨hsilent, hrest⟩ := hps
      have hnil := events_of_silent hs hsilent hp
      subst hnil
      obtain ⟨c₁, h₁, hs₁⟩ := convertPart_keeps hs (fits_of_silent hsilent) hp
      cases h₁
      split at hr
      · rename_i s₂ e₂ hfail
        rw [← (Prod.mk.inj hr).1]
        exact ih hs₁ hrest hfail
      · exact nomatch (Prod.mk.inj hr).2

/-! ### Calls -/

/-- **A client between two calls.** -/
structure Between (s : ChatToResponsesStreamState J U) (c : ResponsesClient) : Prop where
  shows : c.Shows s.sentCreated s.emitSequenceNumber s.nextSequenceNumber s.outputOrder s.isOpen
  places : s.Places
  /-- There are no items before `response.created`. -/
  created : s.outputOrder ≠ [] → s.sentCreated = true

theorem Live.between (hs : s.Live c) : s.Between c :=
  ⟨by rw [hs.created]; exact hs.shows, hs.places, fun _ => hs.created⟩

section

variable (hs : s.Between c)
include hs

theorem Between.live (hcreated : s.sentCreated = true) : s.Live c := by
  have hshows := hs.shows
  rw [hcreated] at hshows
  exact ⟨hcreated, hshows, hs.places⟩

/-- `response.created` comes first. -/
theorem ensureCreated_keeps : Keeps c s.ensureCreated := by
  unfold ensureCreated
  split
  · rename_i hcreated
    exact ⟨c, rfl, hs.live hcreated⟩
  · rename_i hcreated
    have hshows := hs.shows
    rw [Bool.not_eq_true] at hcreated
    rw [hcreated] at hshows
    have hopen : ({ s with sentCreated := true } : ChatToResponsesStreamState J U).isOpen =
        s.isOpen := by
      funext r
      cases r <;> rfl
    have hplaces : ({ s with sentCreated := true } : ChatToResponsesStreamState J U).Places :=
      hs.places.congr rfl rfl rfl rfl rfl rfl rfl rfl hs.places.textEnd hs.places.reasoningEnd
    rw [← hopen] at hshows
    obtain ⟨c₁, h₁, hshows₁⟩ := hshows.accept_created
      (event_numbers ({ s with sentCreated := true } : ChatToResponsesStreamState J U)
        (p := { type := "response.created", response := some s.createdResponse }) rfl)
      (by rw [event]; split <;> rfl)
    refine Live.emitted rfl hplaces (show c.run _ = some c₁ from ?_) ?_
    · simp only [emit]
      rw [run_cons, h₁]
      rfl
    · simp only [emit]
      rw [event_fst]
      exact hshows₁

/-- A chunk says nothing of the items. -/
theorem Between.applyChunk (chunk : StreamResponse U) : (s.applyChunk h chunk).Between c := by
  refine ⟨?_, hs.places.congr rfl rfl rfl rfl rfl rfl rfl rfl hs.places.textEnd
    hs.places.reasoningEnd, hs.created⟩
  have hopen : (s.applyChunk h chunk).isOpen = s.isOpen := by
    funext r
    cases r <;> rfl
  rw [hopen]
  exact hs.shows

theorem chunk_keeps {chunk : StreamResponse U} (hfits : s.FitsChunk h chunk)
    (hr : s.chunkToResponsesEvents h chunk = (s', .ok es)) : Keeps c (s', es) := by
  unfold FitsChunk at hfits
  rw [hr] at hfits
  obtain ⟨c₁, h₁, hs₁⟩ := ensureCreated_keeps (hs.applyChunk (h := h) chunk)
  simp only [chunkToResponsesEvents] at hr
  split at hr
  · exact nomatch (Prod.mk.inj hr).2
  · rename_i s₂ es₂ hparts
    rw [← (Prod.mk.inj hr).1, ← ok.inj (Prod.mk.inj hr).2]
    exact Keeps.after h₁ (convertParts_keeps hs₁ hfits hparts)

theorem chunk_spares {chunk : StreamResponse U} (hfits : s.FitsChunk h chunk)
    (hr : s.chunkToResponsesEvents h chunk = (s', .error e)) : s'.Live c := by
  unfold FitsChunk at hfits
  rw [hr] at hfits
  obtain ⟨hcreated, hlost⟩ := hfits
  have hensure : (s.applyChunk h chunk).ensureCreated = (s.applyChunk h chunk, []) :=
    if_pos hcreated
  simp only [chunkToResponsesEvents, hensure] at hr
  split at hr
  · rename_i s₂ e₂ hparts
    rw [← (Prod.mk.inj hr).1]
    exact live_of_losesNothing ((hs.applyChunk chunk).live hcreated) hlost hparts
  · exact nomatch (Prod.mk.inj hr).2

end

/-! ### Hosted tools -/

theorem addHosted_ensureCreated (id : String) (output : ResponsesOutput J) :
    (s.addHosted id output).ensureCreated =
      (s.ensureCreated.1.addHosted id output, s.ensureCreated.2) := by
  unfold ensureCreated
  by_cases hc : s.sentCreated = true
  · rw [if_pos hc, if_pos (show (s.addHosted id output).sentCreated = true from hc)]
  · rw [if_neg hc, if_neg (show ¬(s.addHosted id output).sentCreated = true from hc)]
    simp only [emit, event]
    split
    · rename_i hemit
      rw [if_pos (show s.emitSequenceNumber = true from hemit)]
      rfl
    · rename_i hemit
      rw [if_neg (show ¬s.emitSequenceNumber = true from hemit)]
      rfl

variable {output : ResponsesOutput J}

theorem addHosted_keeps (hs : s.Live c) {id : String}
    (hnew : s.findHosted id = none) (hid : output.id = id)
    {events : List (ResponsesStreamResponse J U)} {p : ResponsesStreamResponse J U} (hnone : p.sequenceNumber = none)
    (htype : p.type = "response.output_item.added")
    (hindex : p.outputIndex = some (s.nextOutputIndex : Int))
    (hevents : ∀ q ∈ events, q.sequenceNumber = none ∧ q.type ∉ specialTypes ∧
      q.outputIndex = some (s.nextOutputIndex : Int)) :
    Keeps c ((s.addHosted id output).emit (p :: events)) := by
  have hr : OutputRef.hosted id ∉ s.outputOrder := by
    intro hm
    obtain ⟨q, hq, hqid⟩ := mem_map.1 (hs.places.hostedRef _ hm)
    obtain ⟨t, ht, rfl⟩ := mem_map.1 hq
    have := find?_eq_none.1 hnew t ht
    simp only [beq_iff_eq] at this
    exact this hqid
  have hfind : ∀ i, (s.addHosted id output).findHosted i =
      if i = id then some { outputIndex := s.nextOutputIndex, output := output }
      else s.findHosted i := by
    intro i
    simp only [findHosted, addHosted]
    rw [find?_append]
    by_cases hi : i = id
    · subst hi
      rw [show s.hostedByID.find? (·.output.id == i) = none from hnew]
      simp [hid]
    · have hne : ¬output.id = i := fun h => hi (h.symm.trans hid)
      rw [if_neg hi]
      simp [hne]
  have hopen : (s.addHosted id output).isOpen = Function.update s.isOpen (.hosted id) true := by
    funext r
    cases r with
    | message | reasoning | tool => exact (Function.update_of_ne (by simp) _ _).symm
    | hosted i =>
      simp only [isOpen, hfind]
      by_cases hi : i = id
      · subst hi
        simp
      · have hne : OutputRef.hosted i ≠ .hosted id := fun h => hi (OutputRef.hosted.inj h)
        rw [Function.update_of_ne hne, if_neg hi]
        rfl
  have hplaces : (s.addHosted id output).Places :=
    hs.places.append hr rfl rfl (by simp [addHosted]) (by simp [addHosted]) (by simp [addHosted])
      (by simp [addHosted]) (by simp [addHosted, toolPlaces])
      (by simp [addHosted, hostedPlaces, hid]) rfl rfl
  obtain ⟨c₁, h₁, hs₁⟩ : Keeps c ((s.addHosted id output).emit [p]) :=
    hs.added (by rfl) (by rfl) (by rfl) hr (by rfl) hopen hplaces hnone htype hindex
  have hat : ((s.addHosted id output).emit [p]).1.outputOrder[s.nextOutputIndex]? =
      some (.hosted id) := by
    rw [emit_fst]
    simp [addHosted, hs.places.allocated]
  have hopen₁ : ((s.addHosted id output).emit [p]).1.isOpen (.hosted id) = true := by
    rw [emit_fst]
    exact (congrFun hopen _).trans (Function.update_self ..)
  have hrest := hs₁.items hat hopen₁ events hevents
  have hsplit : (s.addHosted id output).emit (p :: events) =
      ((((s.addHosted id output).emit [p]).1.emit events).1,
        ((s.addHosted id output).emit [p]).2 ++
          (((s.addHosted id output).emit [p]).1.emit events).2) :=
    emit_append (s.addHosted id output) [p] events
  rw [hsplit]
  exact Keeps.after h₁ hrest

variable {start : HostedToolStreamStart}

theorem hostedOutput_spec (hr : hostedOutput h start = .ok output) :
    output.id = trimSpace start.id ∧ output.type = start.type := by
  unfold hostedOutput at hr
  dsimp only at hr
  split at hr
  · split at hr
    · rw [← ok.inj hr]
      exact ⟨rfl, rfl⟩
    · exact nomatch hr
  · exact nomatch hr
  · split at hr
    · exact nomatch hr
    · split at hr
      · rw [← ok.inj hr]
        exact ⟨rfl, rfl⟩
      · exact nomatch hr
  · rw [← ok.inj hr]
    exact ⟨rfl, rfl⟩

theorem hostedEventPrefix_ne {outputType : String} (hne : hostedEventPrefix outputType ≠ "") :
    outputType = "web_search_call" ∨ outputType = "mcp_call" := by
  unfold hostedEventPrefix at hne
  split at hne
  · exact .inl rfl
  · exact .inr rfl
  · exact absurd rfl hne

theorem hostedStartEvents_spec (k : Nat) (hne : hostedEventPrefix output.type ≠ "") :
    ∃ p events, hostedStartEvents h k output = p :: events ∧ p.sequenceNumber = none ∧
      p.type = "response.output_item.added" ∧ p.outputIndex = some (k : Int) ∧
      ∀ q ∈ events, q.sequenceNumber = none ∧ q.type ∉ specialTypes ∧
        q.outputIndex = some (k : Int) := by
  refine ⟨_, _, rfl, rfl, rfl, rfl, ?_⟩
  rcases hostedEventPrefix_ne hne with ht | ht
  · rw [ht]
    intro q hq
    simp only [hostedEventPrefix, if_true, mem_cons, mem_append, not_mem_nil,
      or_false] at hq
    rcases hq with rfl | rfl | hq
    · exact ⟨rfl, by dsimp only; decide, rfl⟩
    · exact ⟨rfl, by dsimp only; decide, rfl⟩
    · simp at hq
  · rw [ht]
    intro q hq
    simp only [hostedEventPrefix, if_true, mem_cons, mem_append, not_mem_nil,
      or_false] at hq
    rcases hq with rfl | hq | rfl | rfl
    · exact ⟨rfl, by dsimp only; decide, rfl⟩
    · simp at hq
    · exact ⟨rfl, by simp [specialTypes], rfl⟩
    · exact ⟨rfl, by simp [specialTypes], rfl⟩

theorem startHosted_keeps (hs : s.Between c)
    (hr : s.startHostedTool h start = (s', .ok es)) : Keeps c (s', es) := by
  simp only [startHostedTool] at hr
  split at hr
  · exact nomatch (Prod.mk.inj hr).2
  split at hr
  · exact nomatch (Prod.mk.inj hr).2
  rename_i hnew
  split at hr
  · exact nomatch (Prod.mk.inj hr).2
  rename_i hprefix
  split at hr
  · exact nomatch (Prod.mk.inj hr).2
  split at hr
  · exact nomatch (Prod.mk.inj hr).2
  rename_i output houtput
  obtain ⟨hid, htype⟩ := hostedOutput_spec houtput
  rw [addHosted_ensureCreated] at hr
  rw [← (Prod.mk.inj hr).1, ← ok.inj (Prod.mk.inj hr).2]
  obtain ⟨c₁, h₁, hs₁⟩ := ensureCreated_keeps hs
  have hsame : s.ensureCreated.1.findHosted (trimSpace start.id) = none ∧
      s.ensureCreated.1.nextOutputIndex = s.nextOutputIndex := by
    have hnone : s.findHosted (trimSpace start.id) = none := by simpa using hnew
    unfold ensureCreated
    split
    · exact ⟨hnone, rfl⟩
    · rw [emit_fst]
      exact ⟨hnone, rfl⟩
  rw [← htype] at hprefix
  obtain ⟨p, events, heq, hpnone, hptype, hpindex, hevents⟩ :=
    hostedStartEvents_spec (h := h) s.nextOutputIndex hprefix
  rw [heq]
  rw [← hsame.2] at hpindex hevents
  exact Keeps.after h₁ (addHosted_keeps hs₁ hsame.1 hid hpnone hptype hpindex hevents)

theorem startHosted_error (hr : s.startHostedTool h start = (s', .error e)) : s' = s := by
  simp only [startHostedTool] at hr
  split at hr
  · exact (Prod.mk.inj hr).1.symm
  split at hr
  · exact (Prod.mk.inj hr).1.symm
  split at hr
  · exact (Prod.mk.inj hr).1.symm
  split at hr
  · exact (Prod.mk.inj hr).1.symm
  split at hr
  · exact (Prod.mk.inj hr).1.symm
  · exact nomatch (Prod.mk.inj hr).2

theorem completedOutput_id (result : HostedToolStreamResult) (output : ResponsesOutput J) :
    (completedOutput h result output).1.id = output.id := by
  simp only [completedOutput]
  split
  · rfl
  · split
    · rfl
    · split
      · split <;> rfl
      · rfl
  · split <;> rfl

section

variable (hs : s.Between c)
include hs

theorem completeHosted_keeps {result : HostedToolStreamResult}
    (hr : s.completeHostedTool h result = (s', .ok es)) : Keeps c (s', es) := by
  simp only [completeHostedTool] at hr
  rcases hf : s.findHosted (trimSpace result.id) with _ | t
  · rw [hf] at hr
    exact nomatch (Prod.mk.inj hr).2
  rw [hf] at hr
  dsimp only at hr
  split at hr
  · exact nomatch (Prod.mk.inj hr).2
  rename_i hopen
  split at hr
  · exact nomatch (Prod.mk.inj hr).2
  have hid := completedOutput_id (h := h) result t.output
  generalize completedOutput h result t.output = r at hr hid
  obtain ⟨output, failure⟩ := r
  dsimp only at hid
  cases failure with
  | some e => exact nomatch (Prod.mk.inj hr).2
  | none =>
    dsimp only at hr
    rw [← (Prod.mk.inj hr).1, ← ok.inj (Prod.mk.inj hr).2]
    obtain ⟨hmem, hkey⟩ := findHosted_spec hf
    have hne : s.outputOrder ≠ [] :=
      ne_nil_of_mem (mem_of_getElem? (hs.places.hosted_at hmem))
    have hf' : s.findHosted ({ t with output := output, done := true } :
        ChatToResponsesHostedTool J).output.id = some t := by
      rw [show output.id = trimSpace result.id from hid.trans hkey]
      exact hf
    refine (hs.live (hs.created hne)).hostedDone hf' rfl (by simpa using hopen) rfl ?_
    intro p hp
    rcases he : hostedTerminalEvent output.type
        (result.isError || trimSpace result.errorCode != "") with _ | eventType
    · rw [he] at hp
      cases hp
    rw [he] at hp
    obtain rfl := mem_singleton.1 hp
    exact ⟨rfl, hostedTerminalEvent_type he, rfl⟩

/-- A result that is not accepted leaves the client as it was. -/
theorem completeHosted_error {result : HostedToolStreamResult}
    (hr : s.completeHostedTool h result = (s', .error e)) : s'.Between c := by
  simp only [completeHostedTool] at hr
  cases hf : s.findHosted (trimSpace result.id) with
  | none =>
    rw [hf] at hr
    rw [← (Prod.mk.inj hr).1]
    exact hs
  | some t =>
    rw [hf] at hr
    dsimp only at hr
    split at hr
    · rw [← (Prod.mk.inj hr).1]
      exact hs
    split at hr
    · rw [← (Prod.mk.inj hr).1]
      exact hs
    have hid := completedOutput_id (h := h) result t.output
    generalize completedOutput h result t.output = r at hr hid
    obtain ⟨output, failure⟩ := r
    dsimp only at hid
    rcases failure with _ | e'
    · exact nomatch (Prod.mk.inj hr).2
    rw [← (Prod.mk.inj hr).1]
    -- only the item of the hosted tool is another one
    have hf' : s.findHosted ({ t with output := output } :
        ChatToResponsesHostedTool J).output.id = some t := by
      rw [show output.id = trimSpace result.id from hid.trans (findHosted_spec hf).2]
      exact hf
    refine ⟨?_, hs.places.congr rfl rfl rfl rfl rfl rfl rfl
      (setHosted_places hf' hs.places rfl) hs.places.textEnd hs.places.reasoningEnd, hs.created⟩
    rw [isOpen_setHosted hf']
    have hsame : Function.update s.isOpen (.hosted output.id) (!t.done) = s.isOpen := by
      refine Function.update_eq_self_iff.2 ?_
      have hf'' : s.findHosted output.id = some t := hf'
      simp [isOpen, hf'']
    rw [hsame]
    exact hs.shows

/-! ### Streams -/

theorem convertCall_keeps {call : ResponsesCall U} (hfits : match call with
      | .chunk chunk => s.FitsChunk h chunk
      | _ => True) (hr : s.convertCall h call = (s', .ok es)) : Keeps c (s', es) := by
  cases call with
  | chunk chunk => exact chunk_keeps hs hfits hr
  | startHosted start => exact startHosted_keeps hs hr
  | completeHosted result => exact completeHosted_keeps hs hr

theorem convertCall_error {call : ResponsesCall U} (hfits : match call with
      | .chunk chunk => s.FitsChunk h chunk
      | _ => True) (hr : s.convertCall h call = (s', .error e)) : s'.Between c := by
  cases call with
  | chunk chunk => exact (chunk_spares hs hfits hr).between
  | startHosted start =>
    rw [startHosted_error hr]
    exact hs
  | completeHosted result => exact completeHosted_error hs hr

/-- **The calls of a stream**: the client follows, and has seen `response.created` unless a call
fails or there is none. -/
theorem convertCalls_keeps {calls : List (ResponsesCall U)} (hfits : FitsCalls h s calls) :
    ∃ c', c.run (convertCalls h s calls).2.1 = some c' ∧ (convertCalls h s calls).1.Between c' ∧
      ((convertCalls h s calls).2.2 = false → calls ≠ [] ∨ s.sentCreated = true →
        (convertCalls h s calls).1.sentCreated = true) := by
  induction calls generalizing s c with
  | nil => exact ⟨c, rfl, hs, fun _ hor => hor.resolve_left (by simp)⟩
  | cons call calls ih =>
    obtain ⟨hfit, hrest⟩ := hfits
    rw [convertCalls]
    generalize hr : s.convertCall h call = r at hrest ⊢
    obtain ⟨s₁, r⟩ := r
    cases r with
    | error e => exact ⟨c, rfl, convertCall_error hs hfit hr, fun hfalse => by cases hfalse⟩
    | ok es =>
      obtain ⟨c₁, h₁, hs₁⟩ := convertCall_keeps hs hfit hr
      obtain ⟨c₂, h₂, hs₂, hcreated⟩ := ih hs₁.between hrest
      exact ⟨c₂, by rw [run_append h₁, h₂], hs₂, fun hok _ => hcreated hok (.inr hs₁.created)⟩

end

/-! ### The end -/

section Finalized

variable (s : ChatToResponsesStreamState J U)

theorem emit_finalized (ps : List (ResponsesStreamResponse J U)) :
    (s.emit ps).1.finalized = s.finalized := by
  rw [emit_fst]

theorem ensureCreated_finalized : s.ensureCreated.1.finalized = s.finalized := by
  unfold ensureCreated
  split
  · rfl
  · exact emit_finalized ..

theorem startText_finalized : s.startText.1.finalized = s.finalized := by
  unfold startText
  split
  · rfl
  · exact emit_finalized ..

theorem appendAnnotations_finalized (annotations : List J) :
    (s.appendAnnotations h annotations).1.finalized = s.finalized := by
  induction annotations generalizing s with
  | nil => rfl
  | cons annotation annotations ih =>
    rw [appendAnnotations]
    split
    · rfl
    · have hstep : ∀ ps, (({ s with annotations := s.annotations ++ [ annotation] } :
          ChatToResponsesStreamState J U).emit ps).1.finalized = s.finalized :=
        fun ps => emit_finalized ..
      dsimp only
      split <;> rename_i heq
      · exact (congrArg (·.1.finalized) heq).symm.trans ((ih _).trans (hstep _))
      · exact (congrArg (·.1.finalized) heq).symm.trans ((ih _).trans (hstep _))

theorem doneTools_finalized (status : String) (tools : List ChatToResponsesStreamTool) :
    (doneTools h status s tools).1.finalized = s.finalized := by
  induction tools generalizing s with
  | nil => rfl
  | cons t tools ih =>
    rw [doneTools]
    split
    · exact ih s
    · exact (ih _).trans (emit_finalized ..)

theorem doneHosted_finalized (refs : List OutputRef) :
    (doneHosted h s refs).1.finalized = s.finalized := by
  induction refs generalizing s with
  | nil => rfl
  | cons ref refs ih =>
    cases ref with
    | message | reasoning | tool => exact ih s
    | hosted id =>
      rw [doneHosted]
      split
      · exact ih s
      · split
        · exact ih s
        · refine (ih _).trans ((emit_finalized ..).trans ?_)
          simp only [setHosted, markIncomplete]
          split <;> rfl

theorem doneDeltaEvents_finalized : (s.doneDeltaEvents h).1.finalized = s.finalized := by
  simp only [doneDeltaEvents]
  refine (doneHosted_finalized ..).trans ((doneTools_finalized ..).trans ?_)
  have hreasoning : ∀ s : ChatToResponsesStreamState J U, ∀ status,
      (s.doneReasoning status).1.finalized = s.finalized := by
    intro s status
    unfold doneReasoning
    split
    · exact emit_finalized ..
    · rfl
  have htext : ∀ status, (s.doneText status).1.finalized = s.finalized := by
    intro status
    unfold doneText
    split
    · exact emit_finalized ..
    · rfl
  rw [hreasoning, htext]

theorem appendToolCallDelta_finalized (call : ToolCallResponse) :
    (s.appendToolCallDelta call).1.finalized = s.finalized := by
  have hensure : (s.ensureTool call).2.1.finalized = s.finalized := by
    unfold ensureTool
    split
    · rfl
    · exact emit_finalized ..
  simp only [appendToolCallDelta]
  split
  · exact hensure
  split
  · exact hensure
  split
  · exact hensure
  split
  · exact (emit_finalized ..).trans hensure
  · exact hensure

theorem convertPart_finalized (p : Part) : (s.convertPart h p).1.finalized = s.finalized := by
  cases p with
  | reasoning delta =>
    simp only [convertPart, appendReasoningDelta]
    refine (emit_finalized ..).trans ?_
    dsimp only
    split
    · rfl
    · exact emit_finalized ..
  | text delta =>
    simp only [convertPart, appendTextDelta]
    exact (emit_finalized ..).trans (startText_finalized s)
  | annotations raw =>
    simp only [convertPart, appendAnnotationDelta]
    split
    · rfl
    · rename_i annotations ha
      have hall := (appendAnnotations_finalized (h := h) s.startText.1 annotations).trans
        (startText_finalized s)
      split <;> rename_i heq <;> rw [heq] at hall <;> exact hall
  | toolCall call => exact appendToolCallDelta_finalized s call
  | finish finishReason => exact doneDeltaEvents_finalized _

theorem convertParts_finalized (ps : List Part) :
    (s.convertParts h ps).1.finalized = s.finalized := by
  induction ps generalizing s with
  | nil => rfl
  | cons p ps ih =>
    have hp := convertPart_finalized (h := h) s p
    rw [convertParts]
    split
    · rename_i heq
      rw [heq] at hp
      exact hp
    · rename_i s₁ es heq
      rw [heq] at hp
      have hps := (ih s₁).trans hp
      split <;> rename_i heq' <;> rw [heq'] at hps <;> exact hps

theorem convertCall_finalized (call : ResponsesCall U) :
    (s.convertCall h call).1.finalized = s.finalized := by
  cases call with
  | chunk chunk =>
    simp only [convertCall, chunkToResponsesEvents]
    have hps := (convertParts_finalized (h := h) (s.applyChunk h chunk).ensureCreated.1
      (chunk.choices.flatMap StreamChoice.parts)).trans
        (ensureCreated_finalized (s.applyChunk h chunk))
    split <;> rename_i heq <;> rw [heq] at hps <;> exact hps
  | startHosted start =>
    simp only [convertCall, startHostedTool]
    split
    · rfl
    split
    · rfl
    split
    · rfl
    split
    · rfl
    split
    · rfl
    · exact (emit_finalized ..).trans (ensureCreated_finalized _)
  | completeHosted result =>
    simp only [convertCall, completeHostedTool]
    split
    · rfl
    split
    · rfl
    split
    · rfl
    split
    · rfl
    · exact emit_finalized ..

theorem convertCalls_finalized (calls : List (ResponsesCall U)) :
    (convertCalls h s calls).1.finalized = s.finalized := by
  induction calls generalizing s with
  | nil => rfl
  | cons call calls ih =>
    have hcall := convertCall_finalized (h := h) s call
    rw [convertCalls]
    split
    · rename_i heq
      rw [heq] at hcall
      exact hcall
    · rename_i s₁ es heq
      rw [heq] at hcall
      exact (ih s₁).trans hcall

end Finalized

/-- The last events of a stream, of which only the last one is terminal. -/
theorem emit_terminal (hs : s.Live c) (hclosed : ∀ r, s.isOpen r = false)
    (errors : List (ResponsesStreamResponse J U))
    (herrors : ∀ p ∈ errors, p.sequenceNumber = none ∧ p.type = "error")
    {p : ResponsesStreamResponse J U} (hnone : p.sequenceNumber = none)
    (htype : p.type ∈ ["response.completed", "response.incomplete", "response.failed"]) :
    ∃ c', c.run (s.emit (errors ++ [p])).2 = some c' ∧ c'.ended = true := by
  induction errors generalizing s c with
  | nil =>
    obtain ⟨c₁, h₁, hended⟩ := hs.shows.accept_terminal (event_numbers s hnone)
      (by rw [event]; split <;> exact htype) fun r _ => hclosed r
    refine ⟨c₁, ?_, hended⟩
    simp only [nil_append, emit]
    rw [run_cons, h₁]
    rfl
  | cons q errors ih =>
    obtain ⟨hqnone, hqtype⟩ := herrors q (by simp)
    obtain ⟨c₁, h₁, hshows₁⟩ := hs.shows.accept_error (event_numbers s hqnone)
      (by rw [event]; split <;> exact hqtype)
    have hopen : (s.event q).1.isOpen = s.isOpen := by
      rw [event_fst]
      funext r
      cases r <;> rfl
    have hs₁ : (s.event q).1.Live c₁ := by
      refine ⟨?_, ?_, ?_⟩
      · rw [event_fst]
        exact hs.created
      · rw [hopen, event_fst]
        exact hshows₁
      · rw [event_fst]
        exact hs.places.congr rfl rfl rfl rfl rfl rfl rfl rfl hs.places.textEnd
          hs.places.reasoningEnd
    obtain ⟨c₂, h₂, hended⟩ := ih hs₁ (by rw [hopen]; exact hclosed)
      fun q' hq' => herrors q' (by simp [hq'])
    refine ⟨c₂, ?_, hended⟩
    simp only [cons_append, emit]
    rw [run_cons, h₁]
    exact h₂

/-- That a stream is finalized says nothing of its items. -/
theorem Live.finalized (hs : s.Live c) :
    ({ s with finalized := true } : ChatToResponsesStreamState J U).Live c ∧
      ({ s with finalized := true } : ChatToResponsesStreamState J U).isOpen = s.isOpen := by
  have hopen : ({ s with finalized := true } : ChatToResponsesStreamState J U).isOpen =
      s.isOpen := by
    funext r
    cases r <;> rfl
  exact ⟨hs.congr rfl rfl rfl rfl hopen (hs.places.congr rfl rfl rfl rfl rfl rfl rfl rfl
    hs.places.textEnd hs.places.reasoningEnd), hopen⟩

/-- `FinalizeChatCompletionsStreamToResponses`. -/
theorem finalize_ends (hs : s.Live c) (hfresh : s.finalized = false) :
    ∃ c', c.run (s.finalizeToResponses h).2 = some c' ∧ c'.ended = true := by
  obtain ⟨⟨c₁, h₁, hs₁⟩, hclosed⟩ := doneDeltaEvents_keeps (h := h) hs
  simp only [finalizeToResponses]
  rw [if_neg (by rw [hfresh]; exact Bool.false_ne_true)]
  generalize s.doneDeltaEvents h = r at h₁ hs₁ hclosed ⊢
  obtain ⟨s₁, done⟩ := r
  dsimp only at h₁ hs₁ hclosed ⊢
  obtain ⟨hs₂, hopen⟩ := hs₁.finalized
  obtain ⟨c₂, h₂, hended⟩ := emit_terminal hs₂ (by rw [hopen]; exact hclosed) [] (by simp)
    (p := { type := if s₁.status = "incomplete" then "response.incomplete" else "response.completed"
            response := some (s₁.finalResponse h) }) rfl (by dsimp only; split <;> simp)
  exact ⟨c₂, by rw [run_append h₁, ← h₂]; rfl, hended⟩

theorem fail_ends (hs : s.Between c) (hfresh : s.finalized = false) (code message param : String) :
    ∃ c', c.run (s.fail h code message param).2 = some c' ∧ c'.ended = true := by
  have hs₀ : ({ s with status := "failed" } : ChatToResponsesStreamState J U).Between c := by
    have hopen : ({ s with status := "failed" } : ChatToResponsesStreamState J U).isOpen =
        s.isOpen := by
      funext r
      cases r <;> rfl
    refine ⟨?_, hs.places.congr rfl rfl rfl rfl rfl rfl rfl rfl hs.places.textEnd
      hs.places.reasoningEnd, hs.created⟩
    rw [hopen]
    exact hs.shows
  obtain ⟨c₁, h₁, hs₁⟩ := ensureCreated_keeps hs₀
  simp only [fail]
  rw [if_neg (by rw [hfresh]; exact Bool.false_ne_true)]
  generalize ({ s with status := "failed" } : ChatToResponsesStreamState J U).ensureCreated = r
    at h₁ hs₁ ⊢
  obtain ⟨s₁, created⟩ := r
  dsimp only at h₁ hs₁ ⊢
  obtain ⟨⟨c₂, h₂, hs₂⟩, hclosed⟩ := doneDeltaEvents_keeps (h := h) hs₁
  generalize s₁.doneDeltaEvents h = r at h₂ hs₂ hclosed ⊢
  obtain ⟨s₂, done⟩ := r
  dsimp only at h₂ hs₂ hclosed ⊢
  obtain ⟨hs₃, hopen⟩ := hs₂.finalized
  generalize hcode : (if trimSpace code = "" then "server_error" else trimSpace code) = code'
  generalize hmessage : (if trimSpace message = "" then "upstream response stream failed"
    else trimSpace message) = message'
  obtain ⟨c₃, h₃, hended⟩ := emit_terminal hs₃ (by rw [hopen]; exact hclosed)
    [{ type := "error", code := code', message := message', param := param }]
    (by
      intro p hp
      obtain rfl := mem_singleton.1 hp
      exact ⟨rfl, rfl⟩)
    (p := { type := "response.failed"
            response := some { s₂.finalResponse h with error := some (code', message') } })
    rfl (by simp)
  refine ⟨c₃, ?_, hended⟩
  rw [append_assoc, run_append h₁, run_append h₂, ← h₃]
  rfl

/-- A new stream has no items. -/
theorem new_between (id model : String) (now : Int) (emitSequenceNumber : Bool) :
    (new h id model now emitSequenceNumber).Between { numbered := emitSequenceNumber } := by
  refine ⟨⟨rfl, rfl, rfl, rfl, rfl, fun i => ?_⟩, ?_, fun hne => absurd rfl hne⟩
  · simp [new]
  · refine ⟨rfl, nodup_nil, nofun, nofun, nofun, nofun, nofun, nofun, nodup_nil, nofun,
      nofun, nodup_nil, nofun, nofun⟩

/-- **A stream is well-formed** if it has a call, no text, annotation or reasoning comes after the
end of its item, and a chunk that fails discards no event. -/
theorem convertStream_wellFormed (h : ChatToResponsesHost J U) (id model : String) (now : Int)
    (emitSequenceNumber : Bool) (calls : List (ResponsesCall U)) (code message param : String)
    (hcalls : calls ≠ []) (hfits : FitsCalls h (new h id model now emitSequenceNumber) calls) :
    WellFormedStream emitSequenceNumber
      (convertStream h (new h id model now emitSequenceNumber) calls code message param) := by
  obtain ⟨c₁, h₁, hs₁, hcreated⟩ :=
    convertCalls_keeps (new_between id model now emitSequenceNumber) hfits
  have hfresh := convertCalls_finalized (h := h) (new h id model now emitSequenceNumber) calls
  rw [convertStream]
  generalize convertCalls h (new h id model now emitSequenceNumber) calls = r
    at h₁ hs₁ hcreated hfresh ⊢
  obtain ⟨s₁, events, failed⟩ := r
  dsimp only at h₁ hs₁ hcreated hfresh ⊢
  cases failed with
  | true =>
    obtain ⟨c₂, h₂, hended⟩ := fail_ends (h := h) hs₁ hfresh code message param
    exact ⟨c₂, by rw [if_pos rfl, run_append h₁, h₂], hended⟩
  | false =>
    have hlive := hs₁.live (hcreated rfl (.inl hcalls))
    obtain ⟨c₂, h₂, hended⟩ := finalize_ends (h := h) hlive hfresh
    exact ⟨c₂, by rw [if_neg Bool.false_ne_true, run_append h₁, h₂], hended⟩

/-- A host without annotations and hosted tools. -/
def plainHost : ChatToResponsesHost Unit Unit :=
  { marshal := fun s => some (quoted s)
    unmarshal := fun _ => none
    chatAnnotationsToResponses := fun _ => none
    annotationJSON := fun _ => none
    normalizeWebSearchAction := fun _ => none
    valid := fun _ => false
    usageFromChatUsage := fun usage => usage
    emptyUsage := () }

/-- A chunk with one choice. -/
def oneChoice (index : Int) (content finishReason : Option String) : ResponsesCall Unit :=
  .chunk { choices :=
    [{ delta := { content := content }, finishReason := finishReason, index := index }] }

/-- A choice that ends after its text. -/
theorem convertStream_wellFormed_stop :
    WellFormedStream true
      (convertStream plainHost (new plainHost "r" "m" 0 true)
        [oneChoice 0 (some "a") none, oneChoice 0 none (some "stop")] "" "" "") :=
  convertStream_wellFormed plainHost "r" "m" 0 true
    [oneChoice 0 (some "a") none, oneChoice 0 none (some "stop")] "" "" "" (by simp)
    ⟨⟨rfl, trivial⟩, ⟨trivial, trivial⟩, trivial⟩

/-- The finish reason of one choice ends the text of all choices: the text of another choice comes
after the end of its item. -/
theorem otherChoice_malformed :
    ¬WellFormedStream true
      (convertStream plainHost (new plainHost "r" "m" 0 true)
        [oneChoice 0 (some "a") (some "stop"), oneChoice 1 (some "b") none] "" "" "") := by
  rintro ⟨c, hrun, -⟩
  have hnone : ({ numbered := true } : ResponsesClient).run
      (convertStream plainHost (new plainHost "r" "m" 0 true)
        [oneChoice 0 (some "a") (some "stop"), oneChoice 1 (some "b") none] "" "" "") = none := by
    decide +kernel
  rw [hnone] at hrun
  cases hrun

end ChatToResponsesStreamState

end NexusTok.Convert
