import NexusTok.Convert.ChatToResponses
import NexusTok.Convert.ResponsesStream

/-!
# Chat Completions to Responses: the client of a stream

Every part of a chunk extends and ends the items that are open for the client.

* `isOpen`, `Places` : which items are open, and that every item has the place of its output index
  in `outputOrder`.
* `Live` : a client that has seen `response.created` shows what is open.
* `Keeps` : the client accepts the events of a step and shows what is open then.
-/

namespace NexusTok.Convert

open ResponsesClient Function

variable {J U : Type} {h : ChatToResponsesHost J U}

namespace ChatToResponsesStreamState

/-! ### Open items and their places -/

def isOpen (s : ChatToResponsesStreamState J U) : OutputRef → Bool
  | .message => s.textStarted && !s.textDone
  | .reasoning => s.reasoningStarted && !s.reasoningDone
  | .tool i => (s.findTool i).any (!·.done)
  | .hosted id => (s.findHosted id).any (!·.done)

/-- The indexes of the tool calls, with their output indexes. -/
def toolPlaces (s : ChatToResponsesStreamState J U) : List (Int × Nat) :=
  s.toolsByIndex.map fun t => (t.chatIndex, t.outputIndex)

/-- The ids of the hosted tools, with their output indexes. -/
def hostedPlaces (s : ChatToResponsesStreamState J U) : List (String × Nat) :=
  s.hostedByID.map fun t => (t.output.id, t.outputIndex)

/-- **Every item is at the place of its output index.** -/
structure Places (s : ChatToResponsesStreamState J U) : Prop where
  allocated : s.nextOutputIndex = s.outputOrder.length
  nodup : s.outputOrder.Nodup
  text : s.textStarted = true →
    ∃ k : Nat, s.textOutputIndex = k ∧ s.outputOrder[k]? = some .message
  message : .message ∈ s.outputOrder → s.textStarted = true
  reasoning : s.reasoningStarted = true →
    ∃ k : Nat, s.reasoningIndex = k ∧ s.outputOrder[k]? = some .reasoning
  thought : .reasoning ∈ s.outputOrder → s.reasoningStarted = true
  tool : ∀ p ∈ s.toolPlaces, s.outputOrder[p.2]? = some (.tool p.1)
  toolRef : ∀ i, .tool i ∈ s.outputOrder → i ∈ s.toolPlaces.map Prod.fst
  toolKeys : (s.toolPlaces.map Prod.fst).Nodup
  hosted : ∀ p ∈ s.hostedPlaces, s.outputOrder[p.2]? = some (.hosted p.1)
  hostedRef : ∀ id, .hosted id ∈ s.outputOrder → id ∈ s.hostedPlaces.map Prod.fst
  hostedKeys : (s.hostedPlaces.map Prod.fst).Nodup
  /-- What is done has been started. -/
  textEnd : s.textDone = true → s.textStarted = true
  reasoningEnd : s.reasoningDone = true → s.reasoningStarted = true

variable {s : ChatToResponsesStreamState J U} {c : ResponsesClient}

variable {s' : ChatToResponsesStreamState J U}

theorem Places.congr (hp : s.Places)
    (horder : s'.outputOrder = s.outputOrder) (hnext : s'.nextOutputIndex = s.nextOutputIndex)
    (htext : s'.textStarted = s.textStarted) (htextIndex : s'.textOutputIndex = s.textOutputIndex)
    (hreasoning : s'.reasoningStarted = s.reasoningStarted)
    (hreasoningIndex : s'.reasoningIndex = s.reasoningIndex)
    (htools : s'.toolPlaces = s.toolPlaces) (hhosted : s'.hostedPlaces = s.hostedPlaces)
    (htextEnd : s'.textDone = true → s.textStarted = true)
    (hreasoningEnd : s'.reasoningDone = true → s.reasoningStarted = true) : s'.Places := by
  refine ⟨?_, ?_, ?_, ?_, ?_, ?_, ?_, ?_, ?_, ?_, ?_, ?_, ?_, ?_⟩
  · rw [horder, hnext]
    exact hp.allocated
  · rw [horder]
    exact hp.nodup
  · rw [horder, htext, htextIndex]
    exact hp.text
  · rw [horder, htext]
    exact hp.message
  · rw [horder, hreasoning, hreasoningIndex]
    exact hp.reasoning
  · rw [horder, hreasoning]
    exact hp.thought
  · rw [horder, htools]
    exact hp.tool
  · rw [horder, htools]
    exact hp.toolRef
  · rw [htools]
    exact hp.toolKeys
  · rw [horder, hhosted]
    exact hp.hosted
  · rw [horder, hhosted]
    exact hp.hostedRef
  · rw [hhosted]
    exact hp.hostedKeys
  · rw [htext]
    exact htextEnd
  · rw [hreasoning]
    exact hreasoningEnd

/-- The place of an open item, as the events name it. -/
theorem Places.tool_at (hp : s.Places) {t : ChatToResponsesStreamTool} (ht : t ∈ s.toolsByIndex) :
    s.outputOrder[t.outputIndex]? = some (.tool t.chatIndex) :=
  hp.tool (t.chatIndex, t.outputIndex) (List.mem_map.2 ⟨t, ht, rfl⟩)

variable {t t' : ChatToResponsesHostedTool J}

theorem Places.hosted_at (hp : s.Places)
    (ht : t ∈ s.hostedByID) : s.outputOrder[t.outputIndex]? = some (.hosted t.output.id) :=
  hp.hosted (t.output.id, t.outputIndex) (List.mem_map.2 ⟨t, ht, rfl⟩)

/-! ### Events -/

theorem event_fst (s : ChatToResponsesStreamState J U) (p : ResponsesStreamResponse J U) :
    (s.event p).1 =
      { s with nextSequenceNumber := after s.emitSequenceNumber s.nextSequenceNumber } := by
  unfold event after
  split <;> rfl

variable {p : ResponsesStreamResponse J U}

theorem event_numbers (s : ChatToResponsesStreamState J U) (hp : p.sequenceNumber = none) :
    Numbers (s.event p).2 s.emitSequenceNumber s.nextSequenceNumber := by
  unfold event Numbers
  split
  · rfl
  · exact hp

theorem emit_fst (s : ChatToResponsesStreamState J U) (ps : List (ResponsesStreamResponse J U)) :
    (s.emit ps).1 = { s with nextSequenceNumber := (s.emit ps).1.nextSequenceNumber } := by
  induction ps generalizing s with
  | nil => rfl
  | cons p ps ih =>
    have := ih (s.event p).1
    simp only [emit]
    rw [this, event_fst]

theorem emit_append (s : ChatToResponsesStreamState J U)
    (ps qs : List (ResponsesStreamResponse J U)) :
    s.emit (ps ++ qs) =
      (((s.emit ps).1.emit qs).1, (s.emit ps).2 ++ ((s.emit ps).1.emit qs).2) := by
  induction ps generalizing s with
  | nil => rfl
  | cons p ps ih => simp only [List.cons_append, emit, ih]

variable {r : OutputRef}

section Client

variable {order : List OutputRef} {isOpen : OutputRef → Bool}

section

variable (hshows : c.Shows true s.emitSequenceNumber s.nextSequenceNumber order isOpen)
include hshows

theorem emit_items {k : Nat} (hk : order[k]? = some r) (hr : isOpen r = true)
    (ps : List (ResponsesStreamResponse J U))
    (hps : ∀ p ∈ ps, p.sequenceNumber = none ∧ p.type ∉ specialTypes ∧
      p.outputIndex = some (k : Int)) :
    ∃ c', c.run (s.emit ps).2 = some c' ∧
      c'.Shows true s.emitSequenceNumber (s.emit ps).1.nextSequenceNumber order isOpen := by
  induction ps generalizing s c with
  | nil => exact ⟨c, rfl, hshows⟩
  | cons p ps ih =>
    obtain ⟨hnone, htype, hindex⟩ := hps p (by simp)
    have hnext := event_fst s p
    obtain ⟨c₁, h₁, hshows₁⟩ := hshows.accept_item (event_numbers s hnone)
      (by rw [event]; split <;> exact htype) hk hr (by rw [event]; split <;> exact hindex)
    have hshows₁' : c₁.Shows true (s.event p).1.emitSequenceNumber
        (s.event p).1.nextSequenceNumber order isOpen := by
      rw [hnext]
      exact hshows₁
    obtain ⟨c₂, h₂, hshows₂⟩ := ih hshows₁' fun q hq => hps q (by simp [hq])
    refine ⟨c₂, ?_, ?_⟩
    · simp only [emit]
      rw [run_cons, h₁]
      exact h₂
    · simp only [emit]
      have hemit : (s.event p).1.emitSequenceNumber = s.emitSequenceNumber := by rw [hnext]
      rw [hemit] at hshows₂
      exact hshows₂

theorem emit_added (hr : r ∉ order)
    (hnone : p.sequenceNumber = none) (htype : p.type = "response.output_item.added")
    (hindex : p.outputIndex = some (order.length : Int)) :
    ∃ c', c.run (s.emit [p]).2 = some c' ∧
      c'.Shows true s.emitSequenceNumber (s.emit [p]).1.nextSequenceNumber (order ++ [r])
        (Function.update isOpen r true) := by
  obtain ⟨c₁, h₁, hshows₁⟩ := hshows.accept_added (event_numbers s hnone)
    (by rw [event]; split <;> exact htype) hr (by rw [event]; split <;> exact hindex)
  refine ⟨c₁, ?_, ?_⟩
  · simp only [emit]
    rw [run_cons, h₁]
    rfl
  · simp only [emit]
    rw [event_fst]
    exact hshows₁

/-- The event of the end of an item. -/
theorem emit_done (hnodup : order.Nodup) {k : Nat} (hk : order[k]? = some r) (hr : isOpen r = true)
    (hnone : p.sequenceNumber = none) (htype : p.type = "response.output_item.done")
    (hindex : p.outputIndex = some (k : Int)) :
    ∃ c', c.run (s.emit [p]).2 = some c' ∧
      c'.Shows true s.emitSequenceNumber (s.emit [p]).1.nextSequenceNumber order
        (Function.update isOpen r false) := by
  obtain ⟨c₁, h₁, hshows₁⟩ := hshows.accept_done hnodup (event_numbers s hnone)
    (by rw [event]; split <;> exact htype) hk hr (by rw [event]; split <;> exact hindex)
  refine ⟨c₁, ?_, ?_⟩
  · simp only [emit]
    rw [run_cons, h₁]
    rfl
  · simp only [emit]
    rw [event_fst]
    exact hshows₁

theorem emit_ending (hnodup : order.Nodup) {k : Nat} (hk : order[k]? = some r)
    (hr : isOpen r = true) (ps : List (ResponsesStreamResponse J U))
    (hps : ∀ p ∈ ps, p.sequenceNumber = none ∧ p.type ∉ specialTypes ∧
      p.outputIndex = some (k : Int)) (hnone : p.sequenceNumber = none)
    (htype : p.type = "response.output_item.done") (hindex : p.outputIndex = some (k : Int)) :
    ∃ c', c.run (s.emit (ps ++ [p])).2 = some c' ∧
      c'.Shows true s.emitSequenceNumber (s.emit (ps ++ [p])).1.nextSequenceNumber order
        (Function.update isOpen r false) := by
  obtain ⟨c₁, h₁, hshows₁⟩ := emit_items hshows hk hr ps hps
  have hemit : (s.emit ps).1.emitSequenceNumber = s.emitSequenceNumber := by rw [emit_fst]
  rw [← hemit] at hshows₁
  obtain ⟨c₂, h₂, hshows₂⟩ := emit_done hshows₁ hnodup hk hr hnone htype hindex
  rw [hemit] at hshows₂
  refine ⟨c₂, ?_, ?_⟩
  · rw [emit_append, run_append h₁]
    exact h₂
  · rw [emit_append]
    exact hshows₂

end

end Client

/-! ### Parts of chunks -/

/-- **A client that has seen `response.created`** shows what is open. -/
structure Live (s : ChatToResponsesStreamState J U) (c : ResponsesClient) : Prop where
  created : s.sentCreated = true
  shows : c.Shows true s.emitSequenceNumber s.nextSequenceNumber s.outputOrder s.isOpen
  places : s.Places

/-- The events of a step are accepted, and the client shows what is open then. -/
def Keeps (c : ResponsesClient)
    (r : ChatToResponsesStreamState J U × List (ResponsesStreamResponse J U)) : Prop :=
  ∃ c', c.run r.2 = some c' ∧ r.1.Live c'

theorem Places.counted (hp : s.Places) (ps : List (ResponsesStreamResponse J U)) :
    (s.emit ps).1.Places := by
  rw [emit_fst]
  exact hp.congr rfl rfl rfl rfl rfl rfl rfl rfl hp.textEnd hp.reasoningEnd

variable {ps es : List (ResponsesStreamResponse J U)}

/-- Events whose client shows the state's open items. -/
theorem Live.emitted (hcreated : s.sentCreated = true) (hp : s.Places) {c' : ResponsesClient}
    (hrun : c.run (s.emit ps).2 = some c')
    (hshows : c'.Shows true s.emitSequenceNumber (s.emit ps).1.nextSequenceNumber s.outputOrder
      s.isOpen) : Keeps c (s.emit ps) := by
  refine ⟨c', hrun, ?_, ?_, hp.counted ps⟩
  · rw [emit_fst]
    exact hcreated
  · rw [emit_fst]
    exact hshows

/-- One step after another. -/
theorem Keeps.after {c' : ResponsesClient} (hrun : c.run es = some c')
    {r : ChatToResponsesStreamState J U × List (ResponsesStreamResponse J U)}
    (hr : Keeps c' r) : Keeps c (r.1, es ++ r.2) := by
  obtain ⟨c'', hrun', hlive⟩ := hr
  exact ⟨c'', by rw [run_append hrun, hrun'], hlive⟩

/-- Only what the client shows counts. -/
theorem Live.congr (hs : s.Live c) (hcreated : s'.sentCreated = s.sentCreated)
    (hemit : s'.emitSequenceNumber = s.emitSequenceNumber)
    (hsequence : s'.nextSequenceNumber = s.nextSequenceNumber)
    (horder : s'.outputOrder = s.outputOrder) (hopen : s'.isOpen = s.isOpen)
    (hplaces : s'.Places) : s'.Live c := by
  refine ⟨hcreated.trans hs.created, ?_, hplaces⟩
  rw [hemit, hsequence, horder, hopen]
  exact hs.shows

theorem Live.items (hs : s.Live c) {k : Nat} (hk : s.outputOrder[k]? = some r)
    (hr : s.isOpen r = true) (ps : List (ResponsesStreamResponse J U))
    (hps : ∀ p ∈ ps, p.sequenceNumber = none ∧ p.type ∉ specialTypes ∧
      p.outputIndex = some (k : Int)) : Keeps c (s.emit ps) := by
  obtain ⟨c', hrun, hshows⟩ := emit_items hs.shows hk hr ps hps
  exact Live.emitted hs.created hs.places hrun hshows

/-- A new item at the end of the order. -/
theorem Places.append (hp : s.Places)
    (hr : r ∉ s.outputOrder) (horder : s'.outputOrder = s.outputOrder ++ [r])
    (hnext : s'.nextOutputIndex = s.nextOutputIndex + 1)
    (htext : s'.textStarted = if r = .message then true else s.textStarted)
    (htextIndex : s'.textOutputIndex =
      if r = .message then (s.nextOutputIndex : Int) else s.textOutputIndex)
    (hreasoning : s'.reasoningStarted = if r = .reasoning then true else s.reasoningStarted)
    (hreasoningIndex : s'.reasoningIndex =
      if r = .reasoning then (s.nextOutputIndex : Int) else s.reasoningIndex)
    (htools : s'.toolPlaces = s.toolPlaces ++ match r with
      | .tool i => [(i, s.nextOutputIndex)]
      | _ => []) (hhosted : s'.hostedPlaces = s.hostedPlaces ++ match r with
      | .hosted id => [(id, s.nextOutputIndex)]
      | _ => [])
    (htextDone : s'.textDone = s.textDone) (hreasoningDone : s'.reasoningDone = s.reasoningDone) :
    s'.Places := by
  have hlen := hp.allocated
  have hold : ∀ {k : Nat} {r' : OutputRef}, s.outputOrder[k]? = some r' →
      s'.outputOrder[k]? = some r' := by
    intro k r' hk
    rw [horder, List.getElem?_append_left (List.getElem?_eq_some_iff.1 hk).1, hk]
  have hnew : s'.outputOrder[s.nextOutputIndex]? = some r := by
    rw [horder, hlen]
    simp
  have hmem : ∀ {r' : OutputRef}, r' ∈ s'.outputOrder → r' ≠ r → r' ∈ s.outputOrder := by
    intro r' hr' hne
    rw [horder] at hr'
    simpa [hne] using hr'
  refine ⟨?_, ?_, ?_, ?_, ?_, ?_, ?_, ?_, ?_, ?_, ?_, ?_, ?_, ?_⟩
  · rw [hnext, horder, hlen]
    simp
  · rw [horder]
    exact List.nodup_append.2 ⟨hp.nodup, by simp, fun a ha b hb => by
      rw [List.mem_singleton.1 hb]
      rintro rfl
      exact hr ha⟩
  · intro hs
    by_cases hm : r = .message
    · subst hm
      exact ⟨s.nextOutputIndex, by rw [htextIndex, if_pos rfl], hnew⟩
    · rw [htext, if_neg hm] at hs
      obtain ⟨k, hk, hat⟩ := hp.text hs
      exact ⟨k, by rw [htextIndex, if_neg hm, hk], hold hat⟩
  · intro hm
    by_cases hr' : r = .message
    · rw [htext, if_pos hr']
    · rw [htext, if_neg hr']
      exact hp.message (hmem hm (Ne.symm hr'))
  · intro hs
    by_cases hm : r = .reasoning
    · subst hm
      exact ⟨s.nextOutputIndex, by rw [hreasoningIndex, if_pos rfl], hnew⟩
    · rw [hreasoning, if_neg hm] at hs
      obtain ⟨k, hk, hat⟩ := hp.reasoning hs
      exact ⟨k, by rw [hreasoningIndex, if_neg hm, hk], hold hat⟩
  · intro hm
    by_cases hr' : r = .reasoning
    · rw [hreasoning, if_pos hr']
    · rw [hreasoning, if_neg hr']
      exact hp.thought (hmem hm (Ne.symm hr'))
  · intro p hpm
    rw [htools, List.mem_append] at hpm
    rcases hpm with hpm | hpm
    · exact hold (hp.tool p hpm)
    · cases r with
      | tool i =>
        rw [List.mem_singleton.1 hpm]
        exact hnew
      | message | reasoning | hosted => cases hpm
  · intro i hi
    rw [htools, List.map_append, List.mem_append]
    by_cases hri : r = .tool i
    · subst hri
      exact .inr (by simp)
    · exact .inl (hp.toolRef i (hmem hi (Ne.symm hri)))
  · rw [htools, List.map_append]
    cases r with
    | tool i =>
      refine List.nodup_append.2 ⟨hp.toolKeys, by simp, fun a ha b hb => ?_⟩
      rw [show b = i by simpa using hb]
      rintro rfl
      obtain ⟨p, hpm, rfl⟩ := List.mem_map.1 ha
      exact hr (List.mem_of_getElem? (hp.tool p hpm))
    | message | reasoning | hosted => simpa using hp.toolKeys
  · intro p hpm
    rw [hhosted, List.mem_append] at hpm
    rcases hpm with hpm | hpm
    · exact hold (hp.hosted p hpm)
    · cases r with
      | hosted id =>
        rw [List.mem_singleton.1 hpm]
        exact hnew
      | message | reasoning | tool => cases hpm
  · intro id hid
    rw [hhosted, List.map_append, List.mem_append]
    by_cases hri : r = .hosted id
    · subst hri
      exact .inr (by simp)
    · exact .inl (hp.hostedRef id (hmem hid (Ne.symm hri)))
  · rw [hhosted, List.map_append]
    cases r with
    | hosted id =>
      refine List.nodup_append.2 ⟨hp.hostedKeys, by simp, fun a ha b hb => ?_⟩
      rw [show b = id by simpa using hb]
      rintro rfl
      obtain ⟨p, hpm, rfl⟩ := List.mem_map.1 ha
      exact hr (List.mem_of_getElem? (hp.hosted p hpm))
    | message | reasoning | tool => simpa using hp.hostedKeys
  · intro hd
    rw [htextDone] at hd
    rw [htext, hp.textEnd hd, ite_self]
  · intro hd
    rw [hreasoningDone] at hd
    rw [hreasoning, hp.reasoningEnd hd, ite_self]

section

variable (hs : s.Live c)
include hs

theorem Live.added (hcreated : s'.sentCreated = s.sentCreated)
    (hemit : s'.emitSequenceNumber = s.emitSequenceNumber)
    (hsequence : s'.nextSequenceNumber = s.nextSequenceNumber)
    (hr : r ∉ s.outputOrder) (horder : s'.outputOrder = s.outputOrder ++ [r])
    (hopen : s'.isOpen = Function.update s.isOpen r true) (hplaces : s'.Places)
    (hnone : p.sequenceNumber = none) (htype : p.type = "response.output_item.added")
    (hindex : p.outputIndex = some (s.nextOutputIndex : Int)) : Keeps c (s'.emit [p]) := by
  have hshows := hs.shows
  rw [← hemit, ← hsequence] at hshows
  obtain ⟨c', hrun, hshows'⟩ := emit_added hshows hr hnone htype
    (by rw [hindex, hs.places.allocated])
  refine Live.emitted (hcreated.trans hs.created) hplaces hrun ?_
  rw [horder, hopen]
  exact hshows'

/-! ### Text, annotations and reasoning -/

theorem startText_keeps :
    Keeps c s.startText ∧ s.startText.1.textStarted = true ∧
      s.startText.1.textDone = s.textDone := by
  unfold startText
  split
  · rename_i hstarted
    exact ⟨⟨c, rfl, hs⟩, hstarted, rfl⟩
  · rename_i hstarted
    have hr : OutputRef.message ∉ s.outputOrder := fun hm => hstarted (hs.places.message hm)
    have hdone : s.textDone = false := by
      by_contra hd
      exact hstarted (hs.places.textEnd (by simpa using hd))
    refine ⟨?_, by rw [emit_fst], by rw [emit_fst]⟩
    refine hs.added ?_ ?_ ?_ hr ?_ ?opened ?places ?_ ?_ ?_
    case opened =>
      funext r
      cases r with
      | message => simp [isOpen, hdone]
      | reasoning => simp [isOpen]
      | tool | hosted => rfl
    case places =>
      exact hs.places.append hr rfl rfl (by simp) (by simp) (by simp) (by simp)
        (by simp [toolPlaces]) (by simp [hostedPlaces]) rfl rfl
    all_goals rfl

theorem Live.text_at (hstarted : s.textStarted = true) (hdone : s.textDone = false) :
    s.isOpen .message = true ∧
      ∃ k : Nat, s.textOutputIndex = k ∧ s.outputOrder[k]? = some .message :=
  ⟨by simp [isOpen, hstarted, hdone], hs.places.text hstarted⟩

theorem Live.collected (text reasoning : String) (annotations : List J) :
    ({ s with text := text, reasoning := reasoning, annotations := annotations } :
      ChatToResponsesStreamState J U).Live c := by
  refine hs.congr rfl rfl rfl rfl ?_ (hs.places.congr rfl rfl rfl rfl rfl rfl rfl rfl
    hs.places.textEnd hs.places.reasoningEnd)
  funext r
  cases r <;> rfl

theorem appendTextDelta_keeps (hdone : s.textDone = false) (delta : String) :
    Keeps c (s.appendTextDelta delta) := by
  obtain ⟨⟨c₁, h₁, hs₁⟩, hstarted, hdone₁⟩ := startText_keeps hs
  rw [hdone] at hdone₁
  unfold appendTextDelta
  generalize s.startText = r at h₁ hs₁ hstarted hdone₁ ⊢
  obtain ⟨s₁, started⟩ := r
  dsimp only at h₁ hs₁ hstarted hdone₁ ⊢
  obtain ⟨hopen, k, hindex, hk⟩ := hs₁.text_at hstarted hdone₁
  refine Keeps.after h₁ ((hs₁.collected (s₁.text ++ delta) s₁.reasoning s₁.annotations).items hk
    hopen _ ?_)
  intro p hp
  obtain rfl := List.mem_singleton.1 hp
  exact ⟨rfl, by simp [specialTypes], congrArg some hindex⟩

theorem appendAnnotations_keeps (hstarted : s.textStarted = true)
    (hdone : s.textDone = false) {annotations : List J}
    (hr : s.appendAnnotations h annotations = (s', .ok es)) : Keeps c (s', es) := by
  induction annotations generalizing s c s' es with
  | nil =>
    rcases hr
    exact ⟨c, rfl, hs⟩
  | cons annotation annotations ih =>
    rw [appendAnnotations] at hr
    rcases hm : h.annotationJSON annotation with _ | annotationJSON
    · rw [hm] at hr
      cases hr
    rw [hm] at hr
    obtain ⟨hopen, k, hindex, hk⟩ := hs.text_at hstarted hdone
    obtain ⟨c₁, h₁, hs₁⟩ := (hs.collected s.text s.reasoning (s.annotations ++ [ annotation])).items
      hk hopen [{ type := "response.output_text.annotation.added"
                  outputIndex := some s.textOutputIndex
                  contentIndex := some 0, annotationIndex := some s.annotations.length
                  annotation := annotationJSON, itemID := s.messageID }] (by
        intro p hp
        obtain rfl := List.mem_singleton.1 hp
        exact ⟨rfl, by simp [specialTypes], congrArg some hindex⟩)
    dsimp only at hr
    split at hr
    · cases hr
    · rename_i hrest
      cases hr
      exact Keeps.after h₁ (ih hs₁ (by rw [emit_fst]; exact hstarted)
        (by rw [emit_fst]; exact hdone) hrest)

theorem appendAnnotationDelta_keeps {raw : String}
    (hdone : s.textDone = false ∨ h.chatAnnotationsToResponses raw = some [])
    (hr : s.appendAnnotationDelta h raw = (s', .ok es)) : Keeps c (s', es) := by
  unfold appendAnnotationDelta at hr
  obtain ⟨⟨c₁, h₁, hs₁⟩, hstarted, hdone₁⟩ := startText_keeps hs
  rcases ha : h.chatAnnotationsToResponses raw with _ | annotations
  · rw [ha] at hr
    cases hr
  rw [ha] at hr hdone
  dsimp only at hr
  split at hr
  · cases hr
  · rename_i hrest
    cases hr
    rcases hdone with hdone | hnil
    · exact Keeps.after h₁ (appendAnnotations_keeps hs₁ hstarted (hdone₁.trans hdone) hrest)
    · rw [Option.some.inj hnil] at hrest
      cases hrest
      exact ⟨c₁, by rw [List.append_nil, h₁], hs₁⟩

theorem appendReasoningDelta_keeps (hdone : s.reasoningDone = false)
    (delta : String) : Keeps c (s.appendReasoningDelta delta) := by
  -- the reasoning is open before its delta
  have hstart : ∃ r, (if s.reasoningStarted then (s, ([] : List (ResponsesStreamResponse J U)))
      else
        ({ s with
            reasoningStarted := true
            reasoningIndex := s.nextOutputIndex
            nextOutputIndex := s.nextOutputIndex + 1
            outputOrder := s.outputOrder ++ [.reasoning] } : ChatToResponsesStreamState J U).emit
          [{ type := "response.output_item.added", outputIndex := some s.nextOutputIndex
             item := some { type := "reasoning", id := s.reasoningID
                            status := "in_progress" } }]) = r ∧
      Keeps c r ∧ r.1.reasoningStarted = true ∧ r.1.reasoningDone = false := by
    refine ⟨_, rfl, ?_⟩
    split
    · rename_i hstarted
      exact ⟨⟨c, rfl, hs⟩, hstarted, hdone⟩
    · rename_i hstarted
      have hr : OutputRef.reasoning ∉ s.outputOrder := fun hm => hstarted (hs.places.thought hm)
      refine ⟨?_, by rw [emit_fst], by rw [emit_fst]; exact hdone⟩
      refine hs.added ?_ ?_ ?_ hr ?_ ?opened ?places ?_ ?_ ?_
      case opened =>
        funext r
        cases r with
        | message => simp [isOpen]
        | reasoning => simp [isOpen, hdone]
        | tool | hosted => rfl
      case places =>
        exact hs.places.append hr rfl rfl (by simp) (by simp) (by simp) (by simp)
          (by simp [toolPlaces]) (by simp [hostedPlaces]) rfl rfl
      all_goals rfl
  obtain ⟨⟨s₁, started⟩, heq, ⟨c₁, h₁, hs₁⟩, hstarted, hdone₁⟩ := hstart
  unfold appendReasoningDelta
  rw [heq]
  dsimp only at h₁ hs₁ hstarted hdone₁ ⊢
  have hopen : s₁.isOpen .reasoning = true := by simp [isOpen, hstarted, hdone₁]
  obtain ⟨k, hindex, hk⟩ := hs₁.places.reasoning hstarted
  refine Keeps.after h₁ ((hs₁.collected s₁.text (s₁.reasoning ++ delta) s₁.annotations).items hk
    hopen _ ?_)
  intro p hp
  obtain rfl := List.mem_singleton.1 hp
  exact ⟨rfl, by simp [specialTypes], congrArg some hindex⟩

end

/-! ### Tool calls -/

section Replaced

variable {α κ : Type} [DecidableEq κ] (key : α → κ) {t : α}

/-- An entry, where one was replaced in place. -/
theorem find?_replaced (i : κ) (l : List α) :
    (l.map fun u => if key u = key t then t else u).find? (key · == i) =
      if i = key t then (l.find? (key · == i)).map fun _ => t else l.find? (key · == i) := by
  induction l with
  | nil => simp
  | cons u us ih =>
    rw [List.map_cons, List.find?_cons, List.find?_cons, ih]
    by_cases hu : key u = key t
    · rw [if_pos hu, hu]
      by_cases hi : i = key t
      · simp [hi]
      · have hne : (key t == i) = false := by simpa using fun h => hi h.symm
        simp only [if_neg hi, hne]
    · rw [if_neg hu]
      by_cases hi : i = key t
      · have hne : (key u == i) = false := by simpa [hi] using hu
        simp only [if_pos hi, hne]
      · simp only [if_neg hi]

theorem map_replaced {β : Type} (f : α → β) {l : List α} {t' : α} (hkeys : (l.map key).Nodup)
    (hmem : t' ∈ l) (hkey : key t' = key t) (hf : f t = f t') :
    (l.map fun u => if key u = key t then t else u).map f = l.map f := by
  rw [List.map_map]
  refine List.map_congr_left fun u hu => ?_
  rw [comp_apply]
  split_ifs with hut
  · rw [hf, List.inj_on_of_nodup_map hkeys hu hmem (hut.trans hkey.symm)]
  · rfl

end Replaced

theorem findTool_spec {i : Int} {t : ChatToResponsesStreamTool} (ht : s.findTool i = some t) :
    t ∈ s.toolsByIndex ∧ t.chatIndex = i :=
  ⟨List.mem_of_find?_eq_some ht, by simpa using List.find?_some ht⟩

theorem findTool_of_mem (hp : s.Places) {t : ChatToResponsesStreamTool}
    (ht : t ∈ s.toolsByIndex) : s.findTool t.chatIndex = some t := by
  have hkeys := hp.toolKeys
  rw [toolPlaces, List.map_map] at hkeys
  rcases hf : s.findTool t.chatIndex with _ | t'
  · have hnone := List.find?_eq_none.1 hf t ht
    simp at hnone
  obtain ⟨ht', hindex⟩ := findTool_spec hf
  rw [List.inj_on_of_nodup_map hkeys ht' ht hindex]

theorem setTool_places {t t' : ChatToResponsesStreamTool}
    (ht : s.findTool t.chatIndex = some t') (hp : s.Places) (ho : t.outputIndex = t'.outputIndex) :
    (s.setTool t).toolPlaces = s.toolPlaces := by
  obtain ⟨hmem, hindex⟩ := findTool_spec ht
  have hkeys := hp.toolKeys
  rw [toolPlaces, List.map_map] at hkeys
  exact map_replaced ChatToResponsesStreamTool.chatIndex (fun t => (t.chatIndex, t.outputIndex))
    hkeys hmem hindex (by rw [hindex, ho])

theorem findTool_setTool (t : ChatToResponsesStreamTool) (i : Int) :
    (s.setTool t).findTool i =
      if i = t.chatIndex then (s.findTool i).map fun _ => t else s.findTool i :=
  find?_replaced ChatToResponsesStreamTool.chatIndex i s.toolsByIndex

theorem isOpen_setTool {t t' : ChatToResponsesStreamTool}
    (ht : s.findTool t.chatIndex = some t') :
    (s.setTool t).isOpen = Function.update s.isOpen (.tool t.chatIndex) (!t.done) := by
  funext r
  cases r with
  | message | reasoning | hosted => exact (update_of_ne (by simp) _ _).symm
  | tool i =>
    by_cases hi : i = t.chatIndex
    · subst hi
      simp [isOpen, findTool_setTool, ht]
    · have hne : OutputRef.tool i ≠ .tool t.chatIndex := fun h => hi (OutputRef.tool.inj h)
      rw [update_of_ne hne]
      simp [isOpen, findTool_setTool, hi]

section

variable (hs : s.Live c)
include hs

/-- A tool call changed in place that stays as open as it was. -/
theorem Live.setTool {t t' : ChatToResponsesStreamTool}
    (ht : s.findTool t.chatIndex = some t') (ho : t.outputIndex = t'.outputIndex)
    (hd : t.done = t'.done) : (s.setTool t).Live c := by
  refine hs.congr rfl rfl rfl rfl ?_ (hs.places.congr rfl rfl rfl rfl rfl rfl
    (setTool_places ht hs.places ho) rfl hs.places.textEnd hs.places.reasoningEnd)
  rw [isOpen_setTool ht]
  refine update_eq_self_iff.2 ?_
  simp [isOpen, ht, hd]

theorem ensureTool_keeps (toolCall : ToolCallResponse) :
    Keeps c (s.ensureTool toolCall).2 ∧
      (s.ensureTool toolCall).2.1.findTool (s.ensureTool toolCall).1.chatIndex =
        some (s.ensureTool toolCall).1 := by
  unfold ensureTool
  cases hf : s.findTool (toolCall.index.getD 0) with
  | some t =>
    dsimp only
    rw [(findTool_spec hf).2]
    exact ⟨⟨c, rfl, hs⟩, hf⟩
  | none =>
    dsimp only
    have hindex : (s.newTool toolCall).chatIndex = toolCall.index.getD 0 := rfl
    have hr : OutputRef.tool (toolCall.index.getD 0) ∉ s.outputOrder := by
      intro hm
      obtain ⟨p, hp, hpi⟩ := List.mem_map.1 (hs.places.toolRef _ hm)
      obtain ⟨t, ht, rfl⟩ := List.mem_map.1 hp
      have hnone := List.find?_eq_none.1 hf t ht
      simp only [beq_iff_eq] at hnone
      exact hnone hpi
    have hfind : ∀ i, (s.toolsByIndex ++ [s.newTool toolCall]).find? (·.chatIndex == i) =
        if i = toolCall.index.getD 0 then some (s.newTool toolCall) else s.findTool i := by
      intro i
      rw [List.find?_append]
      by_cases hi : i = toolCall.index.getD 0
      · subst hi
        rw [show s.toolsByIndex.find? (·.chatIndex == toolCall.index.getD 0) = none from hf]
        simp [hindex]
      · have hne : ¬(s.newTool toolCall).chatIndex = i := fun h => hi (h.symm.trans hindex)
        rw [if_neg hi]
        simp [hne, findTool]
    refine ⟨hs.added ?_ ?_ ?_ hr ?_ ?opened ?places ?_ ?_ ?_, ?found⟩
    case opened =>
      funext r
      cases r with
      | message | reasoning | hosted => exact (update_of_ne (by simp) _ _).symm
      | tool i =>
        simp only [isOpen, findTool, hfind]
        by_cases hi : i = toolCall.index.getD 0
        · subst hi
          simp [newTool]
        · have hne : OutputRef.tool i ≠ .tool (toolCall.index.getD 0) :=
            fun h => hi (OutputRef.tool.inj h)
          rw [update_of_ne hne, if_neg hi]
          rfl
    case places =>
      exact hs.places.append hr rfl rfl (by simp) (by simp) (by simp) (by simp)
        (by simp [toolPlaces, newTool]) (by simp [hostedPlaces]) rfl rfl
    case found =>
      rw [emit_fst]
      exact (hfind _).trans (if_pos hindex)
    all_goals rfl

/-- **A fragment of a tool call.** -/
theorem appendToolCallDelta_keeps {toolCall : ToolCallResponse}
    {s' : ChatToResponsesStreamState J U} {es : List (ResponsesStreamResponse J U)}
    (hr : s.appendToolCallDelta toolCall = (s', .ok es)) : Keeps c (s', es) := by
  obtain ⟨⟨c₁, h₁, hs₁⟩, hfound⟩ := ensureTool_keeps hs toolCall
  unfold appendToolCallDelta at hr
  generalize s.ensureTool toolCall = r at h₁ hs₁ hfound hr
  obtain ⟨tool, s₁, added⟩ := r
  dsimp only at h₁ hs₁ hfound hr
  by_cases hd : tool.done = true
  · rw [if_pos hd] at hr
    cases hr
  · rw [if_neg hd] at hr
    split at hr
    · cases hr
    · split at hr
      · cases hr
      · -- the fragment changes the id, the name and the arguments of its tool call
        have hsame : ((tool.withID (trimSpace toolCall.id)).withName
              (trimSpace toolCall.function.name)).chatIndex = tool.chatIndex ∧
            ((tool.withID (trimSpace toolCall.id)).withName
              (trimSpace toolCall.function.name)).outputIndex = tool.outputIndex ∧
            ((tool.withID (trimSpace toolCall.id)).withName
              (trimSpace toolCall.function.name)).done = tool.done := by
          unfold ChatToResponsesStreamTool.withID ChatToResponsesStreamTool.withName
          split <;> split <;> exact ⟨rfl, rfl, rfl⟩
        generalize (tool.withID (trimSpace toolCall.id)).withName
          (trimSpace toolCall.function.name) = named at hr hsame
        obtain ⟨hindex, hout, hdone⟩ := hsame
        have hfound' : s₁.findTool named.chatIndex = some tool := by rw [hindex]; exact hfound
        split at hr
        · generalize hjoined : ({ named with
            arguments := named.arguments ++ toolCall.function.arguments } :
              ChatToResponsesStreamTool) = joined at hr
          have hjindex : joined.chatIndex = named.chatIndex := by rw [← hjoined]
          have hjout : joined.outputIndex = tool.outputIndex := by rw [← hjoined]; exact hout
          have hjdone : joined.done = tool.done := by rw [← hjoined]; exact hdone
          rw [← hjindex] at hfound'
          have hset := hs₁.setTool hfound' hjout hjdone
          have hmem : (s₁.setTool joined).findTool joined.chatIndex = some joined := by
            rw [findTool_setTool, if_pos rfl, hfound']
            rfl
          cases hr
          refine Keeps.after h₁ (hset.items (hset.places.tool_at (findTool_spec hmem).1) ?_ _ ?_)
          · rw [isOpen_setTool hfound', update_self]
            simp [hjdone, hd]
          · intro p hp
            obtain rfl := List.mem_singleton.1 hp
            exact ⟨rfl, by simp [specialTypes], by rw [← hjoined]⟩
        · cases hr
          exact ⟨c₁, h₁, hs₁.setTool hfound' hout hdone⟩

/-! ### The ends of items -/

/-- The last events of an item of a state in which the item is marked as done. -/
theorem Live.ending (hcreated : s'.sentCreated = s.sentCreated)
    (hemit : s'.emitSequenceNumber = s.emitSequenceNumber)
    (hsequence : s'.nextSequenceNumber = s.nextSequenceNumber)
    (horder : s'.outputOrder = s.outputOrder) {k : Nat}
    (hk : s.outputOrder[k]? = some r) (hr : s.isOpen r = true)
    (hopen : s'.isOpen = Function.update s.isOpen r false) (hplaces : s'.Places)
    (ps : List (ResponsesStreamResponse J U))
    (hps : ∀ p ∈ ps, p.sequenceNumber = none ∧ p.type ∉ specialTypes ∧
      p.outputIndex = some (k : Int))
    (hnone : p.sequenceNumber = none) (htype : p.type = "response.output_item.done")
    (hindex : p.outputIndex = some (k : Int)) : Keeps c (s'.emit (ps ++ [p])) := by
  have hshows := hs.shows
  rw [← hemit, ← hsequence] at hshows
  obtain ⟨c', hrun, hshows'⟩ := emit_ending hshows hs.places.nodup hk hr ps hps hnone htype hindex
  refine Live.emitted (hcreated.trans hs.created) hplaces hrun ?_
  rw [horder, hopen]
  exact hshows'

theorem doneText_keeps (status : String) :
    Keeps c (s.doneText status) ∧ (s.doneText status).1.isOpen .message = false ∧
      ∀ r, r ≠ .message → (s.doneText status).1.isOpen r = s.isOpen r := by
  unfold doneText
  split
  · rename_i hopen
    have hb : s.textStarted = true ∧ s.textDone = false := by simpa using hopen
    obtain ⟨hat, k, hindex, hk⟩ := hs.text_at hb.1 hb.2
    have hclosed : ({ s with textDone := true } : ChatToResponsesStreamState J U).isOpen =
        Function.update s.isOpen .message false := by
      funext r
      cases r with
      | message => simp [isOpen]
      | reasoning | tool | hosted => exact (update_of_ne (by simp) _ _).symm
    refine ⟨?_, ?_, fun r hr => ?_⟩
    · refine hs.ending ?_ ?_ ?_ ?_ hk hat hclosed ?_ [_] ?items ?_ ?_ ?_
      case items =>
        intro p hp
        obtain rfl := List.mem_singleton.1 hp
        exact ⟨rfl, by simp [specialTypes], congrArg some hindex⟩
      · rfl
      · rfl
      · rfl
      · rfl
      · exact hs.places.congr rfl rfl rfl rfl rfl rfl rfl rfl (fun _ => hb.1)
          hs.places.reasoningEnd
      · rfl
      · rfl
      · exact congrArg some hindex
    · rw [emit_fst]
      exact (congrFun hclosed .message).trans (update_self ..)
    · rw [emit_fst]
      exact (congrFun hclosed r).trans (update_of_ne hr ..)
  · rename_i hclosed
    exact ⟨⟨c, rfl, hs⟩, by simpa [isOpen] using hclosed, fun _ _ => rfl⟩

theorem doneReasoning_keeps (status : String) :
    Keeps c (s.doneReasoning status) ∧ (s.doneReasoning status).1.isOpen .reasoning = false ∧
      ∀ r, r ≠ .reasoning → (s.doneReasoning status).1.isOpen r = s.isOpen r := by
  unfold doneReasoning
  split
  · rename_i hopen
    have hb : s.reasoningStarted = true ∧ s.reasoningDone = false := by simpa using hopen
    obtain ⟨k, hindex, hk⟩ := hs.places.reasoning hb.1
    have hat : s.isOpen .reasoning = true := by simp [isOpen, hb.1, hb.2]
    have hclosed : ({ s with reasoningDone := true } : ChatToResponsesStreamState J U).isOpen =
        Function.update s.isOpen .reasoning false := by
      funext r
      cases r with
      | message | tool | hosted => exact (update_of_ne (by simp) _ _).symm
      | reasoning => simp [isOpen]
    refine ⟨?_, ?_, fun r hr => ?_⟩
    · refine hs.ending ?_ ?_ ?_ ?_ hk hat hclosed ?_ [_] ?items ?_ ?_ ?_
      case items =>
        intro p hp
        obtain rfl := List.mem_singleton.1 hp
        exact ⟨rfl, by simp [specialTypes], congrArg some hindex⟩
      · rfl
      · rfl
      · rfl
      · rfl
      · exact hs.places.congr rfl rfl rfl rfl rfl rfl rfl rfl hs.places.textEnd fun _ => hb.1
      · rfl
      · rfl
      · exact congrArg some hindex
    · rw [emit_fst]
      exact (congrFun hclosed .reasoning).trans (update_self ..)
    · rw [emit_fst]
      exact (congrFun hclosed r).trans (update_of_ne hr ..)
  · rename_i hclosed
    exact ⟨⟨c, rfl, hs⟩, by simpa [isOpen] using hclosed, fun _ _ => rfl⟩

theorem doneTools_keeps (status : String) (tools : List ChatToResponsesStreamTool)
    (hmem : ∀ t ∈ tools, s.findTool t.chatIndex = some t)
    (hkeys : (tools.map (·.chatIndex)).Nodup) :
    Keeps c (doneTools h status s tools) ∧
      (∀ t ∈ tools, (doneTools h status s tools).1.isOpen (.tool t.chatIndex) = false) ∧
      ∀ r, (∀ t ∈ tools, r ≠ .tool t.chatIndex) →
        (doneTools h status s tools).1.isOpen r = s.isOpen r := by
  induction tools generalizing s c with
  | nil => exact ⟨⟨c, rfl, hs⟩, nofun, fun _ _ => rfl⟩
  | cons t tools ih =>
    rw [List.map_cons, List.nodup_cons] at hkeys
    obtain ⟨hfresh, hkeys⟩ := hkeys
    have hne : ∀ u ∈ tools, u.chatIndex ≠ t.chatIndex := by
      intro u hu heq
      exact hfresh (List.mem_map.2 ⟨u, hu, heq⟩)
    have ht := hmem t (by simp)
    rw [doneTools]
    by_cases hd : t.done = true
    · rw [if_pos hd]
      obtain ⟨hkeeps, hclosed, hothers⟩ := ih hs (fun u hu => hmem u (by simp [hu])) hkeys
      refine ⟨hkeeps, ?_, fun r hr => hothers r fun u hu => hr u (by simp [hu])⟩
      intro u hu
      rcases List.mem_cons.1 hu with rfl | hu
      · rw [hothers _ fun v hv heq => hne v hv (OutputRef.tool.inj heq).symm]
        simp [isOpen, ht, hd]
      · exact hclosed u hu
    · rw [if_neg hd]
      have hset := isOpen_setTool (t := { t with done := true }) ht
      have hplace := hs.places.tool_at (findTool_spec ht).1
      obtain ⟨c₁, h₁, hs₁⟩ : Keeps c ((s.setTool { t with done := true }).emit
          [{ type := "response.function_call_arguments.done"
             outputIndex := some t.outputIndex, itemID := t.itemID
             arguments := if s.emitSequenceNumber then some t.arguments else none
             name := if s.emitSequenceNumber then t.name else "" },
           { type := "response.output_item.done", outputIndex := some t.outputIndex
             item := some (toolOutput h t status) }]) := by
        refine hs.ending ?_ ?_ ?_ ?_ hplace ?_ hset ?_ [_] ?items ?_ ?_ ?_
        case items =>
          intro p hp
          obtain rfl := List.mem_singleton.1 hp
          exact ⟨rfl, by simp [specialTypes], rfl⟩
        · rfl
        · rfl
        · rfl
        · rfl
        · simp [isOpen, ht, hd]
        · exact hs.places.congr rfl rfl rfl rfl rfl rfl
            (setTool_places (t := { t with done := true }) ht hs.places rfl) rfl hs.places.textEnd
            hs.places.reasoningEnd
        · rfl
        · rfl
        · rfl
      have hfind : ∀ u ∈ tools, (s.setTool { t with done := true }).findTool u.chatIndex =
          some u := by
        intro u hu
        rw [findTool_setTool, if_neg (hne u hu)]
        exact hmem u (by simp [hu])
      dsimp only
      generalize hemit : ((s.setTool { t with done := true }).emit _) = r at h₁ hs₁ ⊢
      have hfst : r.1 = { s.setTool { t with done := true } with
          nextSequenceNumber := r.1.nextSequenceNumber } := by rw [← hemit, ← emit_fst]
      obtain ⟨s₁, events⟩ := r
      dsimp only at h₁ hs₁ hfst ⊢
      have hopen₁ : s₁.isOpen = Function.update s.isOpen (.tool t.chatIndex) false := by
        rw [hfst]
        exact hset
      obtain ⟨hkeeps, hclosed, hothers⟩ := ih hs₁ (by rw [hfst]; exact hfind) hkeys
      refine ⟨Keeps.after h₁ hkeeps, ?_, fun r hr => ?_⟩
      · intro u hu
        rcases List.mem_cons.1 hu with rfl | hu
        · rw [hothers _ fun v hv heq => hne v hv (OutputRef.tool.inj heq).symm, hopen₁,
            update_self]
        · exact hclosed u hu
      · rw [hothers r fun u hu => hr u (by simp [hu]), hopen₁,
          update_of_ne (hr t (by simp))]

end

theorem findHosted_spec {id : String}
    (ht : s.findHosted id = some t) : t ∈ s.hostedByID ∧ t.output.id = id :=
  ⟨List.mem_of_find?_eq_some ht, by simpa using List.find?_some ht⟩

theorem setHosted_places (ht : s.findHosted t.output.id = some t') (hp : s.Places)
    (ho : t.outputIndex = t'.outputIndex) : (s.setHosted t).hostedPlaces = s.hostedPlaces := by
  obtain ⟨hmem, hid⟩ := findHosted_spec ht
  have hkeys := hp.hostedKeys
  rw [hostedPlaces, List.map_map] at hkeys
  exact map_replaced (fun t : ChatToResponsesHostedTool J => t.output.id)
    (fun t => (t.output.id, t.outputIndex)) hkeys hmem hid (by rw [hid, ho])

theorem findHosted_setHosted (t : ChatToResponsesHostedTool J) (id : String) :
    (s.setHosted t).findHosted id =
      if id = t.output.id then (s.findHosted id).map fun _ => t else s.findHosted id :=
  find?_replaced (fun t : ChatToResponsesHostedTool J => t.output.id) id s.hostedByID

theorem isOpen_setHosted (ht : s.findHosted t.output.id = some t') :
    (s.setHosted t).isOpen = Function.update s.isOpen (.hosted t.output.id) (!t.done) := by
  funext r
  cases r with
  | message | reasoning | tool => exact (update_of_ne (by simp) _ _).symm
  | hosted id =>
    by_cases hi : id = t.output.id
    · subst hi
      simp [isOpen, findHosted_setHosted, ht]
    · have hne : OutputRef.hosted id ≠ .hosted t.output.id := fun h => hi (OutputRef.hosted.inj h)
      rw [update_of_ne hne]
      simp [isOpen, findHosted_setHosted, hi]

/-- The events that say how a hosted tool ended. -/
theorem hostedTerminalEvent_type {outputType eventType : String} {failed : Bool}
    (he : hostedTerminalEvent outputType failed = some eventType) : eventType ∉ specialTypes := by
  by_cases hw : outputType = "web_search_call"
  · subst hw
    cases failed with
    | false =>
      obtain rfl : "response.web_search_call.completed" = eventType := by
        simpa [hostedTerminalEvent, hostedEventPrefix] using he
      decide
    | true => simp [hostedTerminalEvent, hostedEventPrefix] at he
  · by_cases hm : outputType = "mcp_call"
    · subst hm
      cases failed with
      | false =>
        obtain rfl : "response.mcp_call.completed" = eventType := by
          simpa [hostedTerminalEvent, hostedEventPrefix] using he
        decide
      | true =>
        obtain rfl : "response.mcp_call.failed" = eventType := by
          simpa [hostedTerminalEvent, hostedEventPrefix] using he
        decide
    · have hnone : hostedEventPrefix outputType = "" := by
        unfold hostedEventPrefix
        split <;> simp_all
      simp [hostedTerminalEvent, hnone] at he

theorem Live.hostedDone (hs : s.Live c)
    (ht : s.findHosted t.output.id = some t') (ho : t.outputIndex = t'.outputIndex)
    (hopen : t'.done = false) (hdone : t.done = true)
    (hps : ∀ p ∈ ps, p.sequenceNumber = none ∧ p.type ∉ specialTypes ∧
      p.outputIndex = some (t.outputIndex : Int)) {itemID : String}
    {item : Option (ResponsesOutput J)} :
    Keeps c ((s.setHosted t).emit (ps ++
      [{ type := "response.output_item.done", outputIndex := some t.outputIndex
         itemID := itemID, item := item }])) := by
  obtain ⟨hmem, hid⟩ := findHosted_spec ht
  have hplace := hs.places.hosted_at hmem
  rw [hid, ← ho] at hplace
  refine hs.ending ?_ ?_ ?_ ?_ hplace ?_ ?opened ?places ps hps ?_ ?_ ?_
  case opened =>
    rw [isOpen_setHosted ht, hdone]
    rfl
  case places =>
    exact hs.places.congr rfl rfl rfl rfl rfl rfl rfl (setHosted_places ht hs.places ho)
      hs.places.textEnd hs.places.reasoningEnd
  · rfl
  · rfl
  · rfl
  · rfl
  · simp [isOpen, ht, hopen]
  · rfl
  · rfl
  · rfl

/-- A hosted tool without a result is the same tool, done, and may have an event of its failure. -/
theorem abandoned_spec (h : ChatToResponsesHost J U) (status : String)
    (t : ChatToResponsesHostedTool J) :
    (abandoned (U := U) h status t).1.output.id = t.output.id ∧
      (abandoned (U := U) h status t).1.outputIndex = t.outputIndex ∧
      (abandoned (U := U) h status t).1.done = true ∧
      ∀ p ∈ (abandoned (U := U) h status t).2, p.sequenceNumber = none ∧ p.type ∉ specialTypes ∧
        p.outputIndex = some (t.outputIndex : Int) := by
  unfold abandoned
  split
  · refine ⟨?_, rfl, rfl, fun p hp => ?_⟩
    · dsimp only
      split
      · split <;> rfl
      · rfl
    · rcases he : hostedTerminalEvent t.output.type true with _ | eventType
      · rw [he] at hp
        cases hp
      rw [he] at hp
      obtain rfl := List.mem_singleton.1 hp
      exact ⟨rfl, hostedTerminalEvent_type he, rfl⟩
  · exact ⟨rfl, rfl, rfl, fun p hp => absurd hp List.not_mem_nil⟩

/-- That the response is incomplete says nothing of its items. -/
theorem markIncomplete_isOpen (s : ChatToResponsesStreamState J U) :
    s.markIncomplete.isOpen = s.isOpen := by
  unfold markIncomplete
  split
  · funext r
    cases r <;> rfl
  · rfl

theorem markIncomplete_findHosted (s : ChatToResponsesStreamState J U) (id : String) :
    s.markIncomplete.findHosted id = s.findHosted id := by
  unfold markIncomplete
  split <;> rfl

theorem Live.markIncomplete (hs : s.Live c) : s.markIncomplete.Live c := by
  have hopen := markIncomplete_isOpen s
  unfold ChatToResponsesStreamState.markIncomplete at hopen ⊢
  split
  · rename_i hstatus
    rw [if_pos hstatus] at hopen
    exact hs.congr rfl rfl rfl rfl hopen (hs.places.congr rfl rfl rfl rfl rfl rfl rfl rfl
      hs.places.textEnd hs.places.reasoningEnd)
  · exact hs

/-- The end of a hosted tool without a result. -/
theorem abandonHosted_keeps (hs : s.Live c) {id : String}
    (hf : s.findHosted id = some t) (hopen : t.done = false) :
    Keeps c (s.abandonHosted h t) ∧
      (s.abandonHosted h t).1.isOpen = Function.update s.isOpen (.hosted id) false := by
  have hs₀ := hs.markIncomplete
  obtain ⟨hid, ho, hdone, hps⟩ := abandoned_spec h s.markIncomplete.status t
  have hid' : (abandoned (U := U) h s.markIncomplete.status t).1.output.id = id :=
    hid.trans (findHosted_spec hf).2
  have hf' : s.markIncomplete.findHosted
      (abandoned (U := U) h s.markIncomplete.status t).1.output.id = some t := by
    rw [hid', markIncomplete_findHosted]
    exact hf
  refine ⟨?_, ?_⟩
  · refine hs₀.hostedDone hf' ho hopen hdone ?_
    rw [ho]
    exact hps
  · have hset := isOpen_setHosted hf'
    rw [hdone, markIncomplete_isOpen, hid'] at hset
    simp only [abandonHosted]
    rw [emit_fst]
    exact hset

theorem doneHosted_keeps (hs : s.Live c) (refs : List OutputRef) :
    Keeps c (doneHosted h s refs) ∧
      (∀ id, .hosted id ∈ refs → (doneHosted h s refs).1.isOpen (.hosted id) = false) ∧
      ∀ r, s.isOpen r = false → (doneHosted h s refs).1.isOpen r = false := by
  induction refs generalizing s c with
  | nil => exact ⟨⟨c, rfl, hs⟩, nofun, fun _ hr => hr⟩
  | cons ref refs ih =>
    -- an item that is not a hosted tool, and a hosted tool that is done, are passed over
    have hskip : (∀ id, ref = .hosted id → s.isOpen (.hosted id) = false) →
        doneHosted h s (ref :: refs) = doneHosted h s refs →
        Keeps c (doneHosted h s (ref :: refs)) ∧
          (∀ id, .hosted id ∈ ref :: refs →
            (doneHosted h s (ref :: refs)).1.isOpen (.hosted id) = false) ∧
          ∀ r, s.isOpen r = false → (doneHosted h s (ref :: refs)).1.isOpen r = false := by
      intro hclosed heq
      obtain ⟨hkeeps, hdone, hothers⟩ := ih hs
      rw [heq]
      refine ⟨hkeeps, fun id hid => ?_, hothers⟩
      rcases List.mem_cons.1 hid with rfl | hid
      · exact hothers _ (hclosed id rfl)
      · exact hdone id hid
    cases ref with
    | message | reasoning | tool => exact hskip nofun rfl
    | hosted id =>
      cases hf : s.findHosted id with
      | none =>
        refine hskip (fun id' hid => ?_) (by rw [doneHosted, hf])
        cases hid
        simp [isOpen, hf]
      | some t =>
        by_cases hd : t.done = true
        · refine hskip (fun id' hid => ?_) (by rw [doneHosted, hf]; dsimp only; rw [if_pos hd])
          cases hid
          simp [isOpen, hf, hd]
        · have heq : doneHosted h s (.hosted id :: refs) =
              ((doneHosted h (s.abandonHosted h t).1 refs).1,
                (s.abandonHosted h t).2 ++ (doneHosted h (s.abandonHosted h t).1 refs).2) := by
            rw [doneHosted, hf]
            dsimp only
            rw [if_neg hd]
          obtain ⟨⟨c₁, h₁, hs₁⟩, hopen₁⟩ := abandonHosted_keeps (h := h) hs hf (by simpa using hd)
          obtain ⟨hkeeps, hclosed, hothers⟩ := ih hs₁
          rw [heq]
          refine ⟨Keeps.after h₁ hkeeps, fun id' hm => ?_, fun r hr => ?_⟩
          · rcases List.mem_cons.1 hm with heq' | hm
            · cases heq'
              exact hothers _ (by rw [hopen₁, update_self])
            · exact hclosed id' hm
          · refine hothers r ?_
            rw [hopen₁]
            by_cases hrr : r = .hosted id
            · rw [hrr, update_self]
            · rw [update_of_ne hrr, hr]

/-- **The ends of all items.** -/
theorem doneDeltaEvents_keeps (hs : s.Live c) :
    Keeps c (s.doneDeltaEvents h) ∧ ∀ r, (s.doneDeltaEvents h).1.isOpen r = false := by
  obtain ⟨⟨c₁, h₁, hs₁⟩, htext, hothers₁⟩ := doneText_keeps hs s.outputStatus
  obtain ⟨⟨c₂, h₂, hs₂⟩, hreasoning, hothers₂⟩ := doneReasoning_keeps hs₁ s.outputStatus
  simp only [doneDeltaEvents]
  generalize s.doneText s.outputStatus = r₁ at h₁ hs₁ htext hothers₁ h₂ hs₂ hreasoning hothers₂ ⊢
  obtain ⟨s₁, es₁⟩ := r₁
  dsimp only at h₁ hs₁ htext hothers₁ h₂ hs₂ hreasoning hothers₂ ⊢
  generalize s₁.doneReasoning s.outputStatus = r₂ at h₂ hs₂ hreasoning hothers₂ ⊢
  obtain ⟨s₂, es₂⟩ := r₂
  dsimp only at h₂ hs₂ hreasoning hothers₂ ⊢
  have hperm : s₂.sortedTools.Perm s₂.toolsByIndex := List.mergeSort_perm _ _
  have hkeys : (s₂.toolsByIndex.map (·.chatIndex)).Nodup := by
    have := hs₂.places.toolKeys
    rwa [toolPlaces, List.map_map] at this
  obtain ⟨⟨c₃, h₃, hs₃⟩, htools, hothers₃⟩ := doneTools_keeps (h := h) hs₂ s.outputStatus
    s₂.sortedTools (fun t ht => findTool_of_mem hs₂.places (hperm.mem_iff.1 ht))
    ((hperm.map _).nodup_iff.2 hkeys)
  generalize doneTools h s.outputStatus s₂ s₂.sortedTools = r₃ at h₃ hs₃ htools hothers₃ ⊢
  obtain ⟨s₃, es₃⟩ := r₃
  dsimp only at h₃ hs₃ htools hothers₃ ⊢
  obtain ⟨⟨c₄, h₄, hs₄⟩, hhosted, hothers₄⟩ := doneHosted_keeps (h := h) hs₃ s₃.outputOrder
  refine ⟨⟨c₄, ?_, hs₄⟩, fun r => ?_⟩
  · rw [List.append_assoc, List.append_assoc, run_append h₁, run_append h₂, run_append h₃, h₄]
  · cases r with
    | message =>
      refine hothers₄ _ ?_
      rw [hothers₃ _ (by simp), hothers₂ _ (by simp), htext]
    | reasoning =>
      refine hothers₄ _ ?_
      rw [hothers₃ _ (by simp), hreasoning]
    | tool i =>
      refine hothers₄ _ ?_
      by_cases hi : ∃ t ∈ s₂.sortedTools, t.chatIndex = i
      · obtain ⟨t, ht, rfl⟩ := hi
        exact htools t ht
      · have hnone : s₂.findTool i = none := by
          refine List.find?_eq_none.2 fun t ht => ?_
          simpa using fun h => hi ⟨t, hperm.mem_iff.2 ht, h⟩
        rw [hothers₃ _ fun t ht h => hi ⟨t, ht, (OutputRef.tool.inj h).symm⟩]
        simp [isOpen, hnone]
    | hosted id =>
      by_cases hid : .hosted id ∈ s₃.outputOrder
      · exact hhosted id hid
      · refine hothers₄ _ ?_
        have hnone : s₃.findHosted id = none := by
          refine List.find?_eq_none.2 fun t ht => ?_
          have hat := List.mem_of_getElem? (hs₃.places.hosted_at ht)
          simpa using fun h : t.output.id = id => hid (h ▸ hat)
        simp [isOpen, hnone]

end ChatToResponsesStreamState

end NexusTok.Convert
