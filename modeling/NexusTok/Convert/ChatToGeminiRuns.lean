import NexusTok.Convert.ChatToGeminiCalls

/-!
# Chat Completions to Gemini: what a stream carries

* `Shows` : what the candidates of a choice show while the stream runs; `Shows.convert` is the step.
* `Carried` : what they show in the end.  The text is that of the choice, every call stands there
  once and whole, and there is one finish reason.
* `Reports` : which usage the last response was filled from.
* `streamCarried` : for every stream.  The usage comes through unless all choices were finished by
  chunks and the last chunk that was answered had none, after one that had: then its response gives
  the estimate of the prompt only, and `Finalize` takes the usage for sent.
-/

namespace NexusTok.Convert

open List Bool Except

open Tokens (Usage GeminiUsageMetadata usageFromChatUsage geminiStreamMetadata Carries
  carries_usageFromChatUsage carries_self)

variable {J : Type} (h : ChatToGeminiHost J)

/-! ### One choice, in chunks and in responses -/

/-- All choices of the chunks. -/
def allEntries (chunks : List (Int × StreamResponse Usage)) : List StreamChoice :=
  chunks.flatMap (·.2.choices)

/-- The choices with an index. -/
def entriesAt (i : Int) (es : List StreamChoice) : List StreamChoice := es.filter (·.index == i)

/-- The candidates with an index. -/
def candidatesAt (i : Int) (cs : List (GeminiCandidate J Empty)) :
    List (GeminiCandidate J Empty) := cs.filter (·.index == i)

/-- All candidates of the responses. -/
def allCandidates (rs : List (GeminiChatResponse J)) : List (GeminiCandidate J Empty) :=
  rs.flatMap (·.candidates)

def textIn (cs : List (GeminiCandidate J Empty)) : String :=
  String.join ((cs.flatMap (·.parts)).map (·.text))

def callsIn (cs : List (GeminiCandidate J Empty)) : List (GeminiFunctionCall J) :=
  (cs.flatMap (·.parts)).filterMap (·.functionCall)

def finishesIn (cs : List (GeminiCandidate J Empty)) : List String := cs.filterMap (·.finishReason)

def contentOf (es : List StreamChoice) : String :=
  String.join (es.map (·.delta.getContentString))

def fragmentsIn (es : List StreamChoice) : List ToolCallResponse := es.flatMap (·.fragments)

/-- The first finish reason of a choice. -/
def finishOf (es : List StreamChoice) : Option String := es.findSome? (·.finish)

@[simp] theorem textIn_append (cs cs' : List (GeminiCandidate J Empty)) :
    textIn (cs ++ cs') = textIn cs ++ textIn cs' := by
  simp only [textIn, flatMap_append, map_append, String.join_append]

@[simp] theorem callsIn_append (cs cs' : List (GeminiCandidate J Empty)) :
    callsIn (cs ++ cs') = callsIn cs ++ callsIn cs' := by
  simp only [callsIn, flatMap_append, filterMap_append]

@[simp] theorem finishesIn_append (cs cs' : List (GeminiCandidate J Empty)) :
    finishesIn (cs ++ cs') = finishesIn cs ++ finishesIn cs' := by
  simp only [finishesIn, filterMap_append]

@[simp] theorem contentOf_snoc (es : List StreamChoice) (e : StreamChoice) :
    contentOf (es ++ [e]) = contentOf es ++ e.delta.getContentString := by
  simp [contentOf, String.join]

@[simp] theorem fragmentsIn_snoc (es : List StreamChoice) (e : StreamChoice) :
    fragmentsIn (es ++ [e]) = fragmentsIn es ++ e.fragments := by
  simp only [fragmentsIn, flatMap_append, flatMap_singleton]

theorem finishOf_snoc (es : List StreamChoice) (e : StreamChoice) :
    finishOf (es ++ [e]) = (finishOf es).or e.finish := by
  unfold finishOf
  rw [findSome?_append]
  cases he : e.finish <;> simp [he]

/-! ### One choice, step by step -/

variable {ts : List ToolCallResponse}

namespace ChatToGeminiChoice

variable {c c' : ChatToGeminiChoice} {i : Int}

theorem finished_appendToolCalls :
    ∀ {c : ChatToGeminiChoice}, c.appendToolCalls i ts = .ok c' → c'.finished = c.finished := by
  induction ts with
  | nil =>
    intro c hc
    rw [ok.inj hc]
  | cons t ts ih =>
    intro c hc
    unfold appendToolCalls at hc
    rcases ht : c.appendToolCallDelta i t with _ | c₁
    · simp [ht, bind, Except.bind] at hc
    simp only [ht, bind, Except.bind] at hc
    obtain ⟨n, -, -, hput⟩ := appendToolCallDelta_eq ht
    rw [ih hc, hput]
    rfl

end ChatToGeminiChoice

variable {c' c : ChatToGeminiChoice}

theorem Tracks.appendAll {i : Int} {new : List ToolCallResponse} :
    ∀ {old : List ToolCallResponse} {c : ChatToGeminiChoice}, Tracks old c →
      c.appendToolCalls i new = .ok c' → Tracks (old ++ new) c' := by
  induction new with
  | nil =>
    intro old c ht hc
    rw [append_nil, ← ok.inj hc]
    exact ht
  | cons t new ih =>
    intro old c ht hc
    unfold ChatToGeminiChoice.appendToolCalls at hc
    rcases hstep : c.appendToolCallDelta i t with _ | c₁
    · simp [hstep, bind, Except.bind] at hc
    simp only [hstep, bind, Except.bind] at hc
    have hnext := ih (ht.append hstep) hc
    rwa [append_assoc, singleton_append] at hnext

theorem Tracks.tools (ht : Tracks ts c) :
    c.tools = (List.range (assign ts).callCount).map fun n =>
      { id := (assign ts).idOf n, name := (assign ts).nameOf n
        arguments := (assign ts).argumentsOf n } := by
  refine ext_getElem (by simp [ht.length]) fun n hn _ => ?_
  have htool := ht.tool n hn
  rw [ChatToGeminiChoice.toolAt, getD_eq_getElem?_getD, getElem?_eq_getElem hn,
    Option.getD_some] at htool
  rw [htool, getElem_map, getElem_range]

theorem Tracks.pending (ht : Tracks ts c) : c.pending = c.tools := by
  unfold ChatToGeminiChoice.pending
  rw [filter_eq_self]
  intro tool htool
  rw [ht.tools] at htool
  obtain ⟨n, -, rfl⟩ := mem_map.1 htool
  rfl

theorem ChatToGeminiChoice.finishChoice_eq {i : Int}
    {parts : List (GeminiPart J)} (hc : c.finishChoice h i = .ok (c', parts)) :
    parts = c.pending.map (·.part h) ∧ c'.pending = [] ∧ c'.finished = c.finished := by
  unfold finishChoice at hc
  split_ifs at hc
  obtain ⟨rfl, rfl⟩ := Prod.mk.inj (ok.inj hc)
  refine ⟨rfl, ?_, rfl⟩
  simp only [pending, filter_eq_nil_iff, mem_map]
  rintro tool ⟨tool', -, rfl⟩
  simp

/-- **The parts of a finished choice are the calls of its fragments.** -/
theorem Tracks.parts (ht : Tracks ts c) :
    (c.pending.map (·.part h)).filterMap (·.functionCall) = calls h ts := by
  rw [ht.pending, ht.tools, map_map, filterMap_map]
  unfold calls
  rw [← filterMap_eq_map]
  rfl

theorem text_parts (tools : List ChatToGeminiStreamTool) :
    String.join ((tools.map (·.part h)).map (·.text)) = "" := by
  induction tools with
  | nil => rfl
  | cons tool tools ih =>
    rw [map_cons, map_cons, String.join_cons, ih]
    rfl

/-- **What the candidates of a choice show while the stream runs**: its text so far, and from its
finish on the reason and all its calls. -/
structure Shows (es : List StreamChoice) (c : ChatToGeminiChoice)
    (cs : List (GeminiCandidate J Empty)) : Prop where
  text : textIn cs = contentOf es
  finished : c.finished = (finishOf es).isSome
  finish : finishesIn cs = ((finishOf es).map geminiFinishReason).toList
  running : c.finished = false → Tracks (fragmentsIn es) c ∧ callsIn cs = []
  done : c.finished = true → c.pending = [] ∧ callsIn cs = calls h (fragmentsIn es)

variable {e : StreamChoice} {candidate : Option (GeminiCandidate J Empty)}

namespace Shows

variable {es : List StreamChoice} {c c' : ChatToGeminiChoice}
  {cs : List (GeminiCandidate J Empty)}

theorem init : Shows h [] {} ([] : List (GeminiCandidate J Empty)) where
  text := rfl
  finished := rfl
  finish := rfl
  running := fun _ => ⟨Tracks.init, rfl⟩
  done := fun hfinished => Bool.noConfusion hfinished

theorem convertChoice_eq
    (hopen : c.finished = false) (hc : c.convertChoice h e = .ok (c', candidate)) :
    ∃ c₁, c.appendToolCalls e.index e.fragments = .ok c₁ ∧
      let text : List (GeminiPart J) :=
        if e.delta.getContentString ≠ "" then [{ text := e.delta.getContentString }] else []
      (e.finish = none ∧ c' = c₁ ∧
        candidate = if text ≠ [] then some { parts := text, index := e.index } else none) ∨
      ∃ reason c₂ parts, e.finish = some reason ∧ c₁.finishChoice h e.index = .ok (c₂, parts) ∧
        c' = { c₂ with finished := true } ∧
        candidate = some { parts := text ++ parts
                           finishReason := some (geminiFinishReason reason), index := e.index } := by
  simp only [ChatToGeminiChoice.convertChoice, hopen, false_eq_true, if_false] at hc
  rcases happend : c.appendToolCalls e.index e.fragments with _ | c₁
  · simp [happend, bind, Except.bind] at hc
  refine ⟨c₁, rfl, ?_⟩
  simp only [happend, bind, Except.bind] at hc
  cases hfinish : e.finish with
  | none =>
    rw [hfinish] at hc
    obtain ⟨rfl, rfl⟩ := Prod.mk.inj (ok.inj hc)
    exact .inl ⟨rfl, rfl, rfl⟩
  | some reason =>
    rw [hfinish] at hc
    rcases hparts : c₁.finishChoice h e.index with _ | p
    · simp [hparts] at hc
    obtain ⟨c₂, parts⟩ := p
    simp only [hparts] at hc
    obtain ⟨rfl, rfl⟩ := Prod.mk.inj (ok.inj hc)
    exact .inr ⟨reason, c₂, parts, rfl, rfl, rfl, rfl⟩

theorem convertChoice_finished
    (hdone : c.finished = true) (hc : c.convertChoice h e = .ok (c', candidate)) :
    c' = c ∧ candidate = none ∧ e.delta.getContentString = "" ∧ e.fragments = [] := by
  simp only [ChatToGeminiChoice.convertChoice, hdone, if_true] at hc
  split_ifs at hc with hdata
  push Not at hdata
  obtain ⟨rfl, rfl⟩ := Prod.mk.inj (ok.inj hc)
  refine ⟨rfl, rfl, hdata.1, ?_⟩
  rw [StreamChoice.fragments, hdata.2]
  rfl

theorem text_of_content (content : String) :
    String.join (((if content ≠ "" then [{ text := content }] else [] :
      List (GeminiPart J))).map (·.text)) = content ∧
    ((if content ≠ "" then [{ text := content }] else [] :
      List (GeminiPart J))).filterMap (·.functionCall) = [] := by
  by_cases hcontent : content = ""
  · simp [hcontent, String.join]
  · simp [hcontent, String.join]

/-- **One more chunk of a choice.** -/
theorem convert (hs : Shows h es c cs) (hc : c.convertChoice h e = .ok (c', candidate)) :
    Shows h (es ++ [e]) c' (cs ++ candidate.toList) := by
  cases hfinished : c.finished with
  | true =>
    -- a finished choice gets nothing more
    obtain ⟨rfl, rfl, hcontent, hfragments⟩ := convertChoice_finished h hfinished hc
    obtain ⟨reason, hreason⟩ := Option.isSome_iff_exists.1 (hs.finished ▸ hfinished)
    have hfinish : finishOf (es ++ [e]) = finishOf es := by
      rw [finishOf_snoc, hreason, Option.some_or]
    rw [Option.toList_none, append_nil]
    constructor
    · rw [contentOf_snoc, hcontent, String.append_empty]
      exact hs.text
    · rw [hfinish]
      exact hs.finished
    · rw [hfinish]
      exact hs.finish
    · exact fun hopen => absurd hopen (by simp [hfinished])
    · rw [fragmentsIn_snoc, hfragments, append_nil]
      exact hs.done
  | false =>
    obtain ⟨htracks, hnone⟩ := hs.running hfinished
    have hunfinished : finishOf es = none := by
      rw [← Option.not_isSome_iff_eq_none, ← hs.finished, hfinished]
      exact false_ne_true
    have hfinish : finishOf (es ++ [e]) = e.finish := by
      rw [finishOf_snoc, hunfinished, Option.none_or]
    have hnofinish : finishesIn cs = [] := by
      rw [hs.finish, hunfinished]
      rfl
    obtain ⟨c₁, happend, hcase⟩ := convertChoice_eq h hfinished hc
    have htracks₁ := htracks.appendAll happend
    have hopen₁ : c₁.finished = false :=
      (ChatToGeminiChoice.finished_appendToolCalls happend).trans hfinished
    obtain ⟨htext, hnocalls⟩ := text_of_content (J := J) e.delta.getContentString
    simp only at hcase
    generalize (if e.delta.getContentString ≠ "" then
      [{ text := e.delta.getContentString }] else [] : List (GeminiPart J)) = text at *
    rcases hcase with ⟨hno, rfl, rfl⟩ | ⟨reason, c₂, parts, hreason, hparts, rfl, rfl⟩
    · have hparts : ((if text ≠ [] then some { parts := text, index := e.index } else none :
          Option (GeminiCandidate J Empty)).toList.flatMap (·.parts)) = text := by
        by_cases hnil : text = [] <;> simp [hnil]
      constructor
      · rw [textIn_append, hs.text, contentOf_snoc, textIn, hparts, htext]
      · rw [hfinish, hno]
        exact hopen₁
      · rw [finishesIn_append, hnofinish, hfinish, hno]
        by_cases hnil : text = [] <;> simp [hnil, finishesIn]
      · refine fun _ => ⟨?_, ?_⟩
        · rw [fragmentsIn_snoc]
          exact htracks₁
        · rw [callsIn_append, hnone, callsIn, hparts, hnocalls]
          rfl
      · exact fun hdone => absurd hdone (by simp [hopen₁])
    · obtain ⟨rfl, hpending, -⟩ := ChatToGeminiChoice.finishChoice_eq h hparts
      constructor
      · rw [textIn_append, hs.text, contentOf_snoc]
        simp only [textIn, Option.toList_some, flatMap_singleton, map_append,
          String.join_append, htext, text_parts, String.append_empty]
      · rw [hfinish, hreason]
        rfl
      · rw [finishesIn_append, hnofinish, hfinish, hreason]
        rfl
      · exact fun hopen => Bool.noConfusion hopen
      · refine fun _ => ⟨hpending, ?_⟩
        rw [callsIn_append, hnone, fragmentsIn_snoc, nil_append]
        simp only [callsIn, Option.toList_some, flatMap_singleton, filterMap_append,
          hnocalls, nil_append]
        exact htracks₁.parts h

end Shows

/-! ### All choices of a chunk -/

/-- A choice had its finish reason. -/
def finishedBefore (earlier : List StreamChoice) (i : Int) : Bool :=
  (finishOf (entriesAt i earlier)).isSome

/-- A choice of a chunk has text or a finish reason. -/
def StreamChoice.speaks (e : StreamChoice) : Bool :=
  e.delta.getContentString != "" || e.finish.isSome

/-- Some choice of a chunk speaks that was not finished before. -/
def answersIn : List StreamChoice → List StreamChoice → Bool
  | _, [] => false
  | earlier, e :: es =>
    (e.speaks && !finishedBefore earlier e.index) || answersIn (earlier ++ [e]) es

/-- **What all choices show while the stream runs.** -/
structure Tells (es : List StreamChoice) (s : ChatToGeminiStreamState)
    (cs : List (GeminiCandidate J Empty)) : Prop where
  shows : ∀ i, Shows h (entriesAt i es) (s.choices i) (candidatesAt i cs)
  seen : ∀ i, i ∈ s.seenChoices ↔ entriesAt i es ≠ []
  nodup : s.seenChoices.Nodup

theorem index_convertChoice
    {k : GeminiCandidate J Empty} (hc : c.convertChoice h e = .ok (c', some k)) :
    k.index = e.index := by
  cases hfinished : c.finished with
  | true => exact absurd (Shows.convertChoice_finished h hfinished hc).2.1 (by simp)
  | false =>
    obtain ⟨c₁, -, ⟨-, -, hk⟩ | ⟨reason, c₂, parts, -, -, -, hk⟩⟩ :=
      Shows.convertChoice_eq h hfinished hc
    · split_ifs at hk <;> exact congrArg (·.index) (Option.some.inj hk)
    · exact congrArg (·.index) (Option.some.inj hk)

theorem isSome_convertChoice (hc : c.convertChoice h e = .ok (c', candidate)) :
    candidate.isSome = (e.speaks && !c.finished) := by
  cases hfinished : c.finished with
  | true =>
    rw [(Shows.convertChoice_finished h hfinished hc).2.1, Bool.not_true, Bool.and_false]
    rfl
  | false =>
    obtain ⟨c₁, -, ⟨hno, -, rfl⟩ | ⟨reason, c₂, parts, hreason, -, -, rfl⟩⟩ :=
      Shows.convertChoice_eq h hfinished hc
    · by_cases hcontent : e.delta.getContentString = ""
      · simp [StreamChoice.speaks, hno, hcontent]
      · simp [StreamChoice.speaks, hno, hcontent]
    · simp [StreamChoice.speaks, hreason]

@[simp] theorem entriesAt_snoc (i : Int) (es : List StreamChoice) (e : StreamChoice) :
    entriesAt i (es ++ [e]) = if e.index = i then entriesAt i es ++ [e] else entriesAt i es := by
  by_cases hi : e.index = i <;> simp [entriesAt, hi]

theorem candidatesAt_append (i : Int) (cs cs' : List (GeminiCandidate J Empty)) :
    candidatesAt i (cs ++ cs') = candidatesAt i cs ++ candidatesAt i cs' := filter_append _ _

theorem candidatesAt_convertChoice (hc : c.convertChoice h e = .ok (c', candidate)) (i : Int) :
    candidatesAt i candidate.toList = if e.index = i then candidate.toList else [] := by
  cases candidate with
  | none => simp [candidatesAt]
  | some k =>
    have hk := index_convertChoice h hc
    by_cases hi : e.index = i <;> simp [candidatesAt, hk, hi]

namespace Tells

variable {es : List StreamChoice} {s : ChatToGeminiStreamState}
  {cs : List (GeminiCandidate J Empty)}

theorem init : Tells h [] {} ([] : List (GeminiCandidate J Empty)) where
  shows := fun _ => Shows.init h
  seen := fun _ => by simp [entriesAt]
  nodup := nodup_nil

variable {h}

theorem finished (ht : Tells h es s cs) (i : Int) :
    (s.choices i).finished = finishedBefore es i := (ht.shows i).finished

/-- **One choice of a chunk.** -/
theorem convertOne (ht : Tells h es s cs)
    (hc : (s.choices e.index).convertChoice h e = .ok (c, candidate)) :
    Tells h (es ++ [e]) ((s.see e.index).setChoice e.index c) (cs ++ candidate.toList) where
  shows := by
    intro i
    rw [entriesAt_snoc, candidatesAt_append, candidatesAt_convertChoice h hc]
    change Shows h _ (Function.update s.choices e.index c i) _
    by_cases hi : e.index = i
    · subst hi
      rw [if_pos rfl, if_pos rfl, Function.update_self]
      exact (ht.shows e.index).convert h hc
    · rw [if_neg hi, if_neg hi, append_nil, Function.update_of_ne (Ne.symm hi)]
      exact ht.shows i
  seen := by
    intro i
    change i ∈ (if e.index ∈ s.seenChoices then s.seenChoices else s.seenChoices ++ [e.index]) ↔ _
    rw [entriesAt_snoc]
    by_cases hi : e.index = i
    · subst hi
      rw [if_pos rfl]
      split_ifs with hseen
      · simp [hseen]
      · simp
    · rw [if_neg hi, ← ht.seen i]
      split_ifs
      · rfl
      · simp [Ne.symm hi]
  nodup := by
    change (if e.index ∈ s.seenChoices then s.seenChoices
      else s.seenChoices ++ [e.index]).Nodup
    split_ifs with hseen
    · exact ht.nodup
    · exact nodup_append.2 ⟨ht.nodup, nodup_singleton _, fun i hi j hj => by
        rw [mem_singleton.1 hj]
        rintro rfl
        exact hseen hi⟩

/-- **All choices of a chunk.** -/
theorem convertAll {new : List StreamChoice} :
    ∀ {es : List StreamChoice} {s s' : ChatToGeminiStreamState}
      {cs cs' : List (GeminiCandidate J Empty)}, Tells h es s cs →
      s.convertChoices h new = .ok (s', cs') →
      Tells h (es ++ new) s' (cs ++ cs') ∧ cs'.isEmpty = !answersIn es new ∧
        s'.usage = s.usage ∧ s'.usageEmitted = s.usageEmitted ∧ s'.finalized = s.finalized := by
  induction new with
  | nil =>
    intro es s s' cs cs' ht hrun
    obtain ⟨rfl, rfl⟩ := Prod.mk.inj (ok.inj hrun)
    rw [append_nil, append_nil]
    exact ⟨ht, rfl, rfl, rfl, rfl⟩
  | cons e new ih =>
    intro es s s' cs cs' ht hrun
    unfold ChatToGeminiStreamState.convertChoices at hrun
    rcases hc : (s.choices e.index).convertChoice h e with _ | p
    · simp [hc, bind, Except.bind] at hrun
    obtain ⟨c, candidate⟩ := p
    simp only [hc, bind, Except.bind] at hrun
    rcases hrest : ((s.see e.index).setChoice e.index c).convertChoices h new with _ | q
    · simp [hrest] at hrun
    obtain ⟨s'', cs''⟩ := q
    simp only [hrest] at hrun
    obtain ⟨rfl, rfl⟩ := Prod.mk.inj (ok.inj hrun)
    obtain ⟨hnext, hempty, husage, hemitted, hfinal⟩ := ih (ht.convertOne hc) hrest
    rw [append_assoc, append_assoc] at hnext
    refine ⟨hnext, ?_, husage, hemitted, hfinal⟩
    have hsome := isSome_convertChoice h hc
    rw [ht.finished] at hsome
    rw [answersIn, ← hsome, Bool.not_or, ← hempty]
    cases candidate <;> rfl

theorem anyFinished (ht : Tells h es s cs) : s.anyFinished = es.any (·.finish.isSome) := by
  rw [Bool.eq_iff_iff]
  unfold ChatToGeminiStreamState.anyFinished
  simp only [any_eq_true, ht.finished, finishedBefore, finishOf, Option.isSome_iff_ne_none,
    ne_eq, findSome?_eq_none_iff, not_forall, entriesAt, mem_filter]
  constructor
  · rintro ⟨i, -, e, ⟨he, -⟩, hfinish⟩
    exact ⟨e, he, hfinish⟩
  · rintro ⟨e, he, hfinish⟩
    refine ⟨e.index, (ht.seen e.index).2 ?_, e, ⟨he, by simp⟩, hfinish⟩
    exact ne_nil_of_mem (mem_filter.2 ⟨he, by simp⟩)

end Tells

/-! ### The end of all choices -/

/-- **What the candidates of a choice show in the end**: its text, its calls, each once and whole,
and one finish reason. -/
structure Carried (es : List StreamChoice) (cs : List (GeminiCandidate J Empty)) : Prop where
  text : textIn cs = contentOf es
  calls : callsIn cs = calls h (fragmentsIn es)
  finish : finishesIn cs =
    if es = [] then [] else [((finishOf es).map geminiFinishReason).getD "STOP"]

/-- The candidate that `Finalize` makes of a choice. -/
def closing (i : Int) (parts : List (GeminiPart J)) : GeminiCandidate J Empty :=
  { parts := parts, finishReason := some "STOP", index := i }

/-- What the loop of `Finalize` makes of the choices that it ends. -/
theorem finishChoices_eq {is : List Int} :
    ∀ {s s' : ChatToGeminiStreamState} {cs : List (GeminiCandidate J Empty)}, is.Nodup →
      s.finishChoices h is = .ok (s', cs) →
      (∀ i ∈ is, ∃ c parts, (s.choices i).finishChoice h i = .ok (c, parts) ∧
        candidatesAt i cs = [closing i parts]) ∧
      (∀ i ∉ is, candidatesAt i cs = []) ∧ cs.isEmpty = is.isEmpty ∧ s'.usage = s.usage ∧
        s'.usageEmitted = s.usageEmitted := by
  induction is with
  | nil =>
    intro s s' cs _ hrun
    obtain ⟨rfl, rfl⟩ := Prod.mk.inj (ok.inj hrun)
    exact ⟨fun i hi => absurd hi not_mem_nil, fun i _ => rfl, rfl, rfl, rfl⟩
  | cons j is ih =>
    intro s s' cs hnodup hrun
    obtain ⟨hj, hnodup⟩ := nodup_cons.1 hnodup
    unfold ChatToGeminiStreamState.finishChoices at hrun
    rcases hc : (s.choices j).finishChoice h j with _ | p
    · simp [hc, bind, Except.bind] at hrun
    obtain ⟨c, parts⟩ := p
    simp only [hc, bind, Except.bind] at hrun
    rcases hrest : (s.setChoice j c).finishChoices h is with _ | q
    · simp [hrest] at hrun
    obtain ⟨s'', cs'⟩ := q
    simp only [hrest] at hrun
    obtain ⟨rfl, rfl⟩ := Prod.mk.inj (ok.inj hrun)
    obtain ⟨hin, hout, -, husage, hemitted⟩ := ih hnodup hrest
    have hsplit (i : Int) : candidatesAt i (closing j parts :: cs') =
        (if j = i then [closing j parts] else []) ++ candidatesAt i cs' := by
      by_cases hi : j = i <;> simp [candidatesAt, closing, hi]
    refine ⟨fun i hi => ?_, fun i hi => ?_, rfl, husage, hemitted⟩
    · by_cases hij : j = i
      · subst hij
        refine ⟨c, parts, hc, (hsplit j).trans ?_⟩
        rw [if_pos rfl, hout j hj, append_nil]
      · have hi' := (mem_cons.1 hi).resolve_left (Ne.symm hij)
        obtain ⟨c', parts', hc', hcs'⟩ := hin i hi'
        -- the choice that was ended before is another one
        rw [show (s.setChoice j c).choices i = s.choices i from
          Function.update_of_ne (Ne.symm hij) _ _] at hc'
        refine ⟨c', parts', hc', (hsplit i).trans ?_⟩
        rw [if_neg hij, hcs', nil_append]
    · obtain ⟨hij, hi'⟩ := not_or.1 (mt mem_cons.2 hi)
      refine (hsplit i).trans ?_
      rw [if_neg (Ne.symm hij), hout i hi', nil_append]

variable {s' s : ChatToGeminiStreamState}

namespace Tells

variable {h} {es : List StreamChoice} {s : ChatToGeminiStreamState}
  {cs : List (GeminiCandidate J Empty)}

/-- `Finalize` ends the choices that no chunk finished. -/
theorem mem_openChoices (ht : Tells h es s cs) (i : Int) :
    i ∈ s.openChoices ↔ entriesAt i es ≠ [] ∧ finishOf (entriesAt i es) = none := by
  unfold ChatToGeminiStreamState.openChoices
  rw [mem_mergeSort, mem_filter, ht.seen]
  refine and_congr_right fun _ => ?_
  have hfinished := (ht.shows i).finished
  cases hf : (s.choices i).finished with
  | true =>
    have hpending := ((ht.shows i).done hf).1
    rw [hf] at hfinished
    simp only [hpending, isEmpty_nil, Bool.not_true, Bool.or_false, Bool.false_eq_true,
      false_iff]
    exact fun hnone => by simp [hnone] at hfinished
  | false =>
    rw [hf] at hfinished
    simp only [Bool.not_false, Bool.or_true, true_iff]
    exact Option.not_isSome_iff_eq_none.1 (by simp [← hfinished])

theorem nodup_openChoices (ht : Tells h es s cs) : s.openChoices.Nodup :=
  nodup_mergeSort.2 (ht.nodup.filter _)

/-- **After `Finalize` every choice has come through.** -/
theorem carried (ht : Tells h es s cs) {cs' : List (GeminiCandidate J Empty)}
    (hrun : s.finishChoices h s.openChoices = .ok (s', cs')) (i : Int) :
    Carried h (entriesAt i es) (candidatesAt i (cs ++ cs')) := by
  obtain ⟨hin, hout, -⟩ := finishChoices_eq h ht.nodup_openChoices hrun
  have hs := ht.shows i
  rw [candidatesAt_append]
  by_cases hopen : i ∈ s.openChoices
  · -- the choice ends here
    obtain ⟨hne, hnone⟩ := (ht.mem_openChoices i).1 hopen
    obtain ⟨c, parts, hparts, hcs'⟩ := hin i hopen
    obtain ⟨rfl, -, -⟩ := ChatToGeminiChoice.finishChoice_eq h hparts
    have hunfinished : (s.choices i).finished = false := by rw [hs.finished, hnone]; rfl
    obtain ⟨htracks, hnocalls⟩ := hs.running hunfinished
    have hflat : [closing i ((s.choices i).pending.map (·.part h))].flatMap (·.parts) =
        (s.choices i).pending.map (·.part h) := flatMap_singleton _ _
    rw [hcs']
    refine ⟨?_, ?_, ?_⟩
    · rw [textIn_append, hs.text, textIn, hflat, text_parts, String.append_empty]
    · rw [callsIn_append, hnocalls, nil_append, callsIn, hflat]
      exact htracks.parts h
    · rw [finishesIn_append, hs.finish, hnone, if_neg hne]
      rfl
  · rw [hout i hopen, append_nil]
    rw [ht.mem_openChoices] at hopen
    by_cases hnil : entriesAt i es = []
    · -- no chunk had this choice
      rw [hnil] at hs ⊢
      refine ⟨hs.text, (hs.running hs.finished).2, hs.finish⟩
    · obtain ⟨reason, hreason⟩ := Option.ne_none_iff_exists'.1 fun hnone => hopen ⟨hnil, hnone⟩
      refine ⟨hs.text, (hs.done (by rw [hs.finished, hreason]; rfl)).2, ?_⟩
      rw [hs.finish, hreason, if_neg hnil]
      rfl

end Tells

/-! ### The usage -/

/-- A chunk is answered with a response: a choice speaks, or it has usage and some choice is
finished. -/
def answered (earlier : List StreamChoice) (chunk : StreamResponse Usage) : Bool :=
  answersIn earlier chunk.choices ||
    (chunk.usage.isSome && (earlier ++ chunk.choices).any (·.finish.isSome))

/-- The usage of each chunk that is answered. -/
def answeredUsages : List StreamChoice → List (Int × StreamResponse Usage) → List (Option Usage)
  | _, [] => []
  | earlier, (_, chunk) :: chunks =>
    (if answered earlier chunk then [chunk.usage] else []) ++
      answeredUsages (earlier ++ chunk.choices) chunks

/-- The last usage reported. -/
def lastUsage (chunks : List (Int × StreamResponse Usage)) : Option Usage :=
  (chunks.filterMap (·.2.usage)).getLast?

/-- Some choice has no finish reason. -/
def LeavesOpen (chunks : List (Int × StreamResponse Usage)) : Prop :=
  ∃ e ∈ allEntries chunks, finishOf (entriesAt e.index (allEntries chunks)) = none

/-- **The usage comes last**: a choice is left to `Finalize`, or no answered chunk had usage, or the
last answered chunk had. -/
def UsageLast (chunks : List (Int × StreamResponse Usage)) : Prop :=
  LeavesOpen chunks ∨ (∀ u ∈ answeredUsages [] chunks, u = none) ∨
    (answeredUsages [] chunks).getLast? ≠ some none

theorem allEntries_snoc (chunks : List (Int × StreamResponse Usage))
    (p : Int × StreamResponse Usage) :
    allEntries (chunks ++ [p]) = allEntries chunks ++ p.2.choices := by
  simp only [allEntries, flatMap_append, flatMap_singleton]

theorem answeredUsages_snoc (chunks : List (Int × StreamResponse Usage))
    (p : Int × StreamResponse Usage) : ∀ earlier : List StreamChoice,
    answeredUsages earlier (chunks ++ [p]) = answeredUsages earlier chunks ++
      if answered (earlier ++ allEntries chunks) p.2 then [p.2.usage] else [] := by
  induction chunks with
  | nil =>
    intro earlier
    simp [answeredUsages, allEntries]
  | cons q chunks ih =>
    intro earlier
    rw [cons_append, answeredUsages, ih, answeredUsages, append_assoc,
      show allEntries (q :: chunks) = q.2.choices ++ allEntries chunks from rfl, append_assoc]

theorem lastUsage_snoc (chunks : List (Int × StreamResponse Usage))
    (p : Int × StreamResponse Usage) :
    lastUsage (chunks ++ [p]) = p.2.usage.or (lastUsage chunks) := by
  unfold lastUsage
  rw [filterMap_append]
  cases hu : p.2.usage <;> simp [hu]

theorem any_finish_of_not_answersIn {new : List StreamChoice} :
    ∀ {earlier : List StreamChoice}, answersIn earlier new = false →
      (earlier ++ new).any (·.finish.isSome) = true →
      earlier.any (·.finish.isSome) = true := by
  induction new with
  | nil =>
    intro earlier _ hany
    rwa [append_nil] at hany
  | cons e new ih =>
    intro earlier hno hany
    obtain ⟨hhead, hrest⟩ := or_eq_false_iff.1 hno
    rw [show earlier ++ e :: new = (earlier ++ [e]) ++ new by simp] at hany
    have hsnoc := ih hrest hany
    rw [any_append, or_eq_true] at hsnoc
    rcases hsnoc with hearlier | he
    · exact hearlier
    · -- the choice was finished before, or it would have spoken here
      have hfinish : e.finish.isSome = true := by simpa using he
      have hbefore : finishedBefore earlier e.index = true := by
        simpa [StreamChoice.speaks, hfinish] using hhead
      obtain ⟨reason, hreason⟩ := Option.isSome_iff_exists.1 hbefore
      obtain ⟨e', he', hreason'⟩ := exists_of_findSome?_eq_some hreason
      exact any_eq_true.2 ⟨e', (mem_filter.1 he').1, by simp [hreason']⟩

/-- What the metadata of an answer say of the usage of its chunk. -/
def FilledFrom (m : GeminiUsageMetadata) : Option Usage → Prop
  | some u => Carries m u
  | none => ∃ estimate, m = geminiStreamMetadata estimate none

/-- **Where the usage stands while the stream runs.** -/
structure Reports (chunks : List (Int × StreamResponse Usage)) (s : ChatToGeminiStreamState)
    (rs : List (GeminiChatResponse J)) : Prop where
  tells : Tells h (allEntries chunks) s (allCandidates rs)
  usage : s.usage = (lastUsage chunks).map usageFromChatUsage
  emitted : s.usageEmitted = (answeredUsages [] chunks).any (·.isSome)
  last : ∀ u, (answeredUsages [] chunks).getLast? = some u →
    ∃ r, rs.getLast? = some r ∧ FilledFrom r.usageMetadata u
  late : ∀ u, (answeredUsages [] chunks).getLast? = some (some u) →
    (allEntries chunks).any (·.finish.isSome) = true → lastUsage chunks = some u
  heard : answeredUsages [] chunks ≠ [] → allEntries chunks ≠ []
  finalized : s.finalized = false

namespace Reports

theorem init : Reports h [] {} ([] : List (GeminiChatResponse J)) where
  tells := Tells.init h
  usage := rfl
  emitted := rfl
  last := fun u hu => by cases hu
  late := fun u hu => by cases hu
  heard := fun hne => absurd rfl hne
  finalized := rfl

variable {h} {chunks : List (Int × StreamResponse Usage)} {s s' : ChatToGeminiStreamState}
  {rs rs' : List (GeminiChatResponse J)}

theorem convertChunk_eq (hr : Reports h chunks s rs) {p : Int × StreamResponse Usage}
    (hrun : s.convertChunk h p.1 p.2 = .ok (s', rs')) :
    ∃ s₁ cs, Tells h (allEntries (chunks ++ [p])) s₁ (allCandidates rs ++ cs) ∧
      s₁.usage = (lastUsage (chunks ++ [p])).map usageFromChatUsage ∧
      s₁.usageEmitted = s.usageEmitted ∧ s₁.finalized = false ∧
      ((answered (allEntries chunks) p.2 = false ∧ s' = s₁ ∧ rs' = [] ∧ cs = []) ∨
        ∃ m, answered (allEntries chunks) p.2 = true ∧
          s' = { s₁ with usageEmitted := s.usageEmitted || p.2.usage.isSome } ∧
          rs' = [{ candidates := cs, usageMetadata := m }] ∧ FilledFrom m p.2.usage) := by
  unfold ChatToGeminiStreamState.convertChunk at hrun
  rw [if_neg (by simp [hr.finalized])] at hrun
  set received : ChatToGeminiStreamState :=
    { s with usage := (p.2.usage.map usageFromChatUsage).or s.usage } with hreceived
  have htells : Tells h (allEntries chunks) received (allCandidates rs) :=
    ⟨hr.tells.shows, hr.tells.seen, hr.tells.nodup⟩
  have husage : received.usage = (lastUsage (chunks ++ [p])).map usageFromChatUsage := by
    rw [lastUsage_snoc, Option.map_or, ← hr.usage]
  rcases hconv : received.convertChoices h p.2.choices with _ | q
  · simp [hconv, bind, Except.bind] at hrun
  obtain ⟨s₁, cs⟩ := q
  obtain ⟨hnext, hempty, husage₁, hemitted₁, hfinal₁⟩ := htells.convertAll hconv
  rw [← allEntries_snoc] at hnext
  have hfinished := hnext.anyFinished
  rw [allEntries_snoc] at hfinished
  simp only [hconv, bind, Except.bind] at hrun
  refine ⟨s₁, cs, hnext, husage₁.trans husage, hemitted₁, hfinal₁.trans hr.finalized, ?_⟩
  unfold answered
  rw [← hfinished, show answersIn (allEntries chunks) p.2.choices = !cs.isEmpty by simp [hempty]]
  split_ifs at hrun with hnil honly
  · -- usage only, after a finish
    obtain rfl := List.isEmpty_iff.1 hnil
    obtain ⟨rfl, rfl⟩ := Prod.mk.inj (ok.inj hrun)
    obtain ⟨u, hu⟩ := Option.isSome_iff_exists.1 honly.1
    refine .inr ⟨_, ?_, ?_, rfl, ?_⟩
    · simp [honly]
    · simp [hu]
    · rw [husage₁, hreceived, hu]
      exact carries_usageFromChatUsage _ u
  · obtain rfl := List.isEmpty_iff.1 hnil
    obtain ⟨rfl, rfl⟩ := Prod.mk.inj (ok.inj hrun)
    refine .inl ⟨?_, rfl, rfl, rfl⟩
    rw [eq_false_iff, ne_eq, or_eq_true, and_eq_true]
    rintro (hcs | hboth)
    · simp at hcs
    · exact honly hboth
  · obtain ⟨rfl, rfl⟩ := Prod.mk.inj (ok.inj hrun)
    refine .inr ⟨_, ?_, by rw [hemitted₁], rfl, ?_⟩
    · simp [hnil]
    · cases p.2.usage with
      | none => exact ⟨p.1, rfl⟩
      | some u => exact carries_self p.1 u

/-- **One more chunk.** -/
theorem convert (hr : Reports h chunks s rs) {p : Int × StreamResponse Usage}
    (hrun : s.convertChunk h p.1 p.2 = .ok (s', rs')) :
    Reports h (chunks ++ [p]) s' (rs ++ rs') := by
  obtain ⟨s₁, cs, htells, husage, hemitted, hfinal, hcase⟩ := hr.convertChunk_eq hrun
  have husages := answeredUsages_snoc chunks p []
  rw [nil_append] at husages
  rcases hcase with ⟨hno, rfl, rfl, rfl⟩ | ⟨m, hyes, rfl, rfl, hfilled⟩
  · -- no answer: no usage either, if a choice is finished by then
    rw [hno] at husages
    simp only [false_eq_true, if_false, append_nil] at husages
    rw [append_nil] at htells ⊢
    obtain ⟨hsilent, hquiet⟩ := or_eq_false_iff.1 hno
    refine ⟨htells, husage, ?_, ?_, ?_, ?_, hfinal⟩
    · rw [hemitted, hr.emitted, husages]
    · rw [husages]
      exact hr.last
    · intro u hu hany
      rw [allEntries_snoc] at hany
      have hnone : p.2.usage = none := by simpa [hany] using hquiet
      rw [husages] at hu
      rw [lastUsage_snoc, hnone, Option.none_or]
      exact hr.late u hu (any_finish_of_not_answersIn hsilent hany)
    · rw [husages, allEntries_snoc]
      exact fun hne hnil => hr.heard hne (append_eq_nil_iff.1 hnil).1
  · rw [hyes] at husages
    simp only [if_true] at husages
    have hall : allCandidates (rs ++ [{ candidates := cs, usageMetadata := m }]) =
        allCandidates rs ++ cs := by
      simp only [allCandidates, flatMap_append, flatMap_singleton]
    refine ⟨?_, husage, ?_, ?_, ?_, ?_, hfinal⟩
    · rw [hall]
      exact ⟨htells.shows, htells.seen, htells.nodup⟩
    · rw [husages, any_append, ← hr.emitted]
      simp
    · intro u hu
      rw [husages, getLast?_concat] at hu
      cases hu
      exact ⟨_, getLast?_concat, hfilled⟩
    · intro u hu _
      rw [husages, getLast?_concat] at hu
      rw [lastUsage_snoc, Option.some.inj hu, Option.some_or]
    · intro _ hnil
      rw [allEntries_snoc] at hnil
      obtain ⟨hchunks, hchoices⟩ := append_eq_nil_iff.1 hnil
      simp [answered, hchunks, hchoices, answersIn] at hyes

/-- **A whole stream of chunks.** -/
theorem convertAll {new : List (Int × StreamResponse Usage)} :
    ∀ {chunks : List (Int × StreamResponse Usage)} {s : ChatToGeminiStreamState}
      {rs rs' : List (GeminiChatResponse J)}, Reports h chunks s rs →
      s.convertChunks h new = .ok (s', rs') → Reports h (chunks ++ new) s' (rs ++ rs') := by
  induction new with
  | nil =>
    intro chunks s rs rs' hr hrun
    obtain ⟨rfl, rfl⟩ := Prod.mk.inj (ok.inj hrun)
    rw [append_nil, append_nil]
    exact hr
  | cons p new ih =>
    intro chunks s rs rs' hr hrun
    obtain ⟨estimate, chunk⟩ := p
    unfold ChatToGeminiStreamState.convertChunks at hrun
    rcases hone : s.convertChunk h estimate chunk with _ | q
    · simp [hone, bind, Except.bind] at hrun
    obtain ⟨s₁, rs₁⟩ := q
    simp only [hone, bind, Except.bind] at hrun
    rcases hrest : s₁.convertChunks h new with _ | q
    · simp [hrest] at hrun
    obtain ⟨s₂, rs₂⟩ := q
    simp only [hrest] at hrun
    obtain ⟨rfl, rfl⟩ := Prod.mk.inj (ok.inj hrun)
    have hnext := ih (hr.convert (p := (estimate, chunk)) hone) hrest
    rwa [append_assoc, append_assoc, singleton_append] at hnext

/-- What the first `Finalize` does where it succeeds. -/
theorem finalize_eq (hr : Reports h chunks s rs) {estimate : Int}
    (hrun : s.finalize h estimate = .ok (s', rs')) :
    s'.finalized = true ∧
      (∀ i, Carried h (entriesAt i (allEntries chunks))
        (candidatesAt i (allCandidates (rs ++ rs')))) ∧
      ((s.openChoices = [] ∧ (s.usage = none ∨ s.usageEmitted = true) ∧ rs' = []) ∨
        ((s.openChoices ≠ [] ∨ s.usage ≠ none ∧ s.usageEmitted = false) ∧
          ∃ cs, rs' = [{ candidates := cs
                         usageMetadata := geminiStreamMetadata estimate s.usage }])) := by
  unfold ChatToGeminiStreamState.finalize at hrun
  rw [if_neg (by simp [hr.finalized])] at hrun
  rcases hfinish : s.finishChoices h s.openChoices with _ | q
  · simp [hfinish, bind, Except.bind] at hrun
  obtain ⟨s₁, cs⟩ := q
  obtain ⟨-, -, hempty, husage, hemitted⟩ :=
    finishChoices_eq h hr.tells.nodup_openChoices hfinish
  have hcarried := hr.tells.carried hfinish
  have hall (m : GeminiUsageMetadata) :
      allCandidates (rs ++ [{ candidates := cs, usageMetadata := m }]) =
        allCandidates rs ++ cs := by
    simp only [allCandidates, flatMap_append, flatMap_singleton]
  simp only [hfinish, bind, Except.bind] at hrun
  split_ifs at hrun with hnil hsent
  · obtain rfl := List.isEmpty_iff.1 hnil
    obtain ⟨rfl, rfl⟩ := Prod.mk.inj (ok.inj hrun)
    refine ⟨rfl, ?_, .inl ⟨List.isEmpty_iff.1 hempty.symm, ?_, rfl⟩⟩
    · simpa only [append_nil] using hcarried
    · rwa [← husage, ← hemitted, ← Option.isNone_iff_eq_none]
  · obtain rfl := List.isEmpty_iff.1 hnil
    obtain ⟨rfl, rfl⟩ := Prod.mk.inj (ok.inj hrun)
    rw [husage, hemitted] at hsent
    push Not at hsent
    refine ⟨rfl, ?_, .inr ⟨.inr ⟨?_, ?_⟩, [], by rw [husage]⟩⟩
    · intro i
      rw [hall]
      exact hcarried i
    · exact fun hnone => hsent.1 (by rw [hnone]; rfl)
    · exact eq_false_iff.2 hsent.2
  · obtain ⟨rfl, rfl⟩ := Prod.mk.inj (ok.inj hrun)
    refine ⟨rfl, ?_, .inr ⟨.inl ?_, cs, by rw [husage]⟩⟩
    · intro i
      rw [hall]
      exact hcarried i
    · rintro hopen
      rw [hopen] at hempty
      exact hnil hempty

theorem openChoices_ne_nil (hr : Reports h chunks s rs) :
    s.openChoices ≠ [] ↔ LeavesOpen chunks := by
  constructor
  · intro hne
    obtain ⟨i, hi⟩ := exists_mem_of_ne_nil _ hne
    obtain ⟨hentries, hnone⟩ := (hr.tells.mem_openChoices i).1 hi
    obtain ⟨e, he⟩ := exists_mem_of_ne_nil _ hentries
    obtain ⟨hall, hei⟩ := mem_filter.1 he
    obtain rfl : e.index = i := by simpa using hei
    exact ⟨e, hall, hnone⟩
  · rintro ⟨e, he, hnone⟩
    refine ne_nil_of_mem ((hr.tells.mem_openChoices e.index).2 ⟨?_, hnone⟩)
    exact ne_nil_of_mem (mem_filter.2 ⟨he, by simp⟩)

theorem any_finish (hclosed : ¬LeavesOpen chunks) (hne : allEntries chunks ≠ []) :
    (allEntries chunks).any (·.finish.isSome) = true := by
  obtain ⟨e, he⟩ := exists_mem_of_ne_nil _ hne
  obtain ⟨reason, hreason⟩ := Option.ne_none_iff_exists'.1 fun hnone => hclosed ⟨e, he, hnone⟩
  obtain ⟨e', he', hreason'⟩ := exists_of_findSome?_eq_some hreason
  exact any_eq_true.2 ⟨e', (mem_filter.1 he').1, by simp [hreason']⟩

end Reports

/-! ### A whole stream -/

/-- A `Finalize` after the first changes nothing. -/
theorem finalizeAll_finalized (hs : s.finalized = true)
    (finals : List Int) : s.finalizeAll h finals = .ok (s, []) := by
  induction finals with
  | nil => rfl
  | cons estimate finals ih =>
    have hone : s.finalize h estimate = .ok (s, []) := if_pos hs
    simp only [ChatToGeminiStreamState.finalizeAll, hone, ih, bind, Except.bind, append_nil]

/-- Several calls of `Finalize` do what the first does. -/
theorem finalizeAll_eq {chunks : List (Int × StreamResponse Usage)}
    {rs rs' : List (GeminiChatResponse J)} (hr : Reports h chunks s rs) {finals : List Int}
    (hne : finals ≠ []) (hrun : s.finalizeAll h finals = .ok (s', rs')) :
    ∃ estimate, s.finalize h estimate = .ok (s', rs') := by
  cases finals with
  | nil => exact absurd rfl hne
  | cons estimate finals =>
    refine ⟨estimate, ?_⟩
    unfold ChatToGeminiStreamState.finalizeAll at hrun
    rcases hone : s.finalize h estimate with _ | q
    · simp [hone, bind, Except.bind] at hrun
    obtain ⟨s₁, rs₁⟩ := q
    simp only [hone, bind, Except.bind, finalizeAll_finalized h (hr.finalize_eq hone).1] at hrun
    rw [← hrun, append_nil]

/-- **What comes through a stream.**  For chunks that are accepted and one or more calls of
`Finalize` that succeed, the candidates of every choice carry its text, every call once and whole,
and one finish reason.  The last response carries the last usage reported if that came last
(`UsageLast`), and else the estimate of the prompt only. -/
theorem streamCarried {chunks : List (Int × StreamResponse Usage)} {finals : List Int}
    {s s' : ChatToGeminiStreamState} {rs rs' : List (GeminiChatResponse J)} (hne : finals ≠ [])
    (hrun : ({} : ChatToGeminiStreamState).convertChunks h chunks = .ok (s, rs))
    (hfinal : s.finalizeAll h finals = .ok (s', rs')) :
    (∀ i, Carried h (entriesAt i (allEntries chunks))
      (candidatesAt i (allCandidates (rs ++ rs')))) ∧
    (UsageLast chunks → ∀ u, lastUsage chunks = some u →
      ∃ r, (rs ++ rs').getLast? = some r ∧ Carries r.usageMetadata u) ∧
    (¬UsageLast chunks → ∃ r estimate, (rs ++ rs').getLast? = some r ∧
      r.usageMetadata = geminiStreamMetadata estimate none) := by
  have hr : Reports h chunks s rs := (Reports.init h).convertAll hrun
  obtain ⟨estimate, hone⟩ := finalizeAll_eq h hr hne hfinal
  obtain ⟨-, hcarried, hcase⟩ := hr.finalize_eq hone
  refine ⟨hcarried, fun hlast u hu => ?_, fun hnot => ?_⟩
  · rcases hcase with ⟨hopen, hsent, rfl⟩ | ⟨-, cs, rfl⟩
    · -- `Finalize` has nothing to add, so the last answer had the usage
      rw [List.append_nil]
      have hclosed : ¬LeavesOpen chunks := fun hleft => hr.openChoices_ne_nil.2 hleft hopen
      have hemitted : (answeredUsages [] chunks).any (·.isSome) = true := by
        rw [← hr.emitted]
        refine hsent.resolve_left fun hnone => ?_
        rw [hr.usage, hu] at hnone
        cases hnone
      obtain ⟨x, hx, hsome⟩ := List.any_eq_true.1 hemitted
      have hne := List.ne_nil_of_mem hx
      have hnever : ¬∀ u ∈ answeredUsages [] chunks, u = none := by
        intro hall
        rw [hall x hx] at hsome
        cases hsome
      have hlast := (hlast.resolve_left hclosed).resolve_left hnever
      rw [List.getLast?_eq_some_getLast hne] at hlast
      obtain ⟨v, hv⟩ := Option.ne_none_iff_exists'.1 fun hnone => hlast (congrArg some hnone)
      have hlast? : (answeredUsages [] chunks).getLast? = some (some v) := by
        rw [List.getLast?_eq_some_getLast hne, hv]
      have huv := hr.late v hlast? (Reports.any_finish hclosed (hr.heard hne))
      obtain ⟨r, hr', hfilled⟩ := hr.last _ hlast?
      rw [hu] at huv
      exact ⟨r, hr', Option.some.inj huv ▸ hfilled⟩
    · refine ⟨_, List.getLast?_concat, ?_⟩
      rw [hr.usage, hu]
      exact carries_usageFromChatUsage estimate u
  · unfold UsageLast at hnot
    push Not at hnot
    obtain ⟨hclosed, ⟨x, hx, hsome⟩, hlast⟩ := hnot
    -- everything was finished and the usage counts as sent
    have hopen : s.openChoices = [] := by
      by_contra hne
      exact hclosed (hr.openChoices_ne_nil.1 hne)
    have hemitted : s.usageEmitted = true := by
      rw [hr.emitted]
      exact List.any_eq_true.2 ⟨x, hx, Option.isSome_iff_ne_none.2 hsome⟩
    obtain ⟨r, hr', estimate', hm⟩ := hr.last _ hlast
    rcases hcase with ⟨-, -, rfl⟩ | ⟨hleft | ⟨-, hunsent⟩, -⟩
    · exact ⟨r, estimate', by rwa [List.append_nil], hm⟩
    · exact absurd hopen hleft
    · rw [hemitted] at hunsent
      cases hunsent

/-- A host whose objects are texts. -/
def textHost : ChatToGeminiHost String where
  unmarshalObject := fun s => if hasPrefix s "\x7b" then some s else none
  emptyObject := "\x7b\x7d"
  argumentsObject := id

/-- A chunk of the choice 0. -/
def chunkOf (content : String) (toolCalls : List ToolCallResponse) (finish : Option String)
    (usage : Option Usage) : Int × StreamResponse Usage :=
  (7, { choices := [{ delta := { content := some content, toolCalls := toolCalls }
                      finishReason := finish }]
        usage := usage })

/-- A `Finalize` that has nothing to add. -/
theorem finalizeAll_closed (hfinalized : s.finalized = false)
    (hclosed : (s.seenChoices.filter fun i =>
      !(s.choices i).pending.isEmpty || !(s.choices i).finished) = [])
    (hsent : s.usageEmitted = true) (estimate : Int) :
    s.finalizeAll h [estimate] = .ok ({ s with finalized := true }, []) := by
  have hopen : s.openChoices = [] := by
    rw [ChatToGeminiStreamState.openChoices, hclosed, mergeSort_nil]
  have hone : s.finalize h estimate = .ok ({ s with finalized := true }, []) := by
    unfold ChatToGeminiStreamState.finalize
    rw [if_neg (by simp [hfinalized]), hopen]
    simp [ChatToGeminiStreamState.finishChoices, bind, Except.bind, hsent]
  simp only [ChatToGeminiStreamState.finalizeAll, hone, bind, Except.bind, append_nil]

/-- Text and a call in two fragments, with usage at the end. -/
def callInTwo : List (Int × StreamResponse Usage) :=
  [chunkOf "Hi" [⟨some 0, "call_1", "function", ⟨"now", "\x7b"⟩⟩] none none,
    chunkOf "" [⟨some 0, "", "", ⟨"", "\x7d"⟩⟩] (some "tool_calls")
      (some { promptTokens := 3, completionTokens := 2, totalTokens := 5 })]

theorem streamCarried_callInTwo :
    ∃ s s' rs rs', ({} : ChatToGeminiStreamState).convertChunks textHost callInTwo = .ok (s, rs) ∧
      s.finalizeAll textHost [7] = .ok (s', rs') ∧
      ∀ i, Carried textHost (entriesAt i (allEntries callInTwo))
        (candidatesAt i (allCandidates (rs ++ rs'))) := by
  refine ⟨_, _, _, _, rfl, finalizeAll_closed textHost rfl rfl rfl 7, ?_⟩
  exact (streamCarried textHost (List.cons_ne_nil 7 []) rfl
    (finalizeAll_closed textHost rfl rfl rfl 7)).1

/-- Text and usage, then the finish reason without usage. -/
def usageFirst : List (Int × StreamResponse Usage) :=
  [chunkOf "Hi" [] none (some { promptTokens := 3, completionTokens := 2, totalTokens := 5 }),
    chunkOf "" [] (some "stop") none]

/-- **The last response of this stream has no usage**: the counts of its metadata are the estimate
of the prompt, and there is no snapshot. -/
theorem usageFirst_lost :
    ¬∀ (chunks : List (Int × StreamResponse Usage)) (finals : List Int) (s s' :
        ChatToGeminiStreamState) (rs rs' : List (GeminiChatResponse String)), finals ≠ [] →
      ({} : ChatToGeminiStreamState).convertChunks textHost chunks = .ok (s, rs) →
      s.finalizeAll textHost finals = .ok (s', rs') → ∀ u, lastUsage chunks = some u →
        ∃ r, (rs ++ rs').getLast? = some r ∧ Carries r.usageMetadata u := by
  intro hall
  obtain ⟨r, hr, hcarries⟩ := hall usageFirst [7] _ _ _ _ (List.cons_ne_nil 7 []) rfl
    (finalizeAll_closed textHost rfl rfl rfl 7) _ rfl
  obtain rfl := Option.some.inj hr
  rcases hcarries with hm | ⟨htotal, -⟩
  · have hcount := congrArg (fun m : GeminiUsageMetadata => m.candidatesTokenCount) hm
    exact absurd hcount (by decide)
  · exact absurd htotal (by decide)

end NexusTok.Convert
