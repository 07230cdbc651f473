import Mathlib.Algebra.GroupWithZero.Nat
import NexusTok.Header.Attempts
import NexusTok.Header.Origins

/-!
# Header text of the client

A text of the client that is passed on in a header should arrive as it is.  The headers are made of
the map that the param overrides leave, and there nothing tells a text of the client from one of the
configuration: `applyHeaderOverridePlaceholders` takes both for templates.

* `overridePieces` : the map that the headers are made of, in pieces; `sentAlone_eq`.
* `explicitOverrides_get` : a header that is sent was passed through by a rule or comes from an entry
  of that map.
* `clientTextKept_iff` : the texts of the client arrive as they are, for every key of the channel,
  exactly when none of them holds the placeholder of the key and none that starts like a client
  header placeholder names a header with another text.
-/

namespace NexusTok

open List Except

variable {B C : Type}

/-! ### The map in pieces -/

/-- A map of header overrides in order. -/
structure CleanMap (m : HeaderMap) : Prop where
  keyed : KeyMap.Keyed m
  key : ∀ e ∈ m, e.1 ≠ "" ∧ normalizeHeaderContextKey e.1 = e.1
  value : ∀ e ∈ m, GoodText e.2 ∨ e.2 = "" ∧ isHeaderPassthroughRuleKeyForOverride e.1 = true

variable {m headers source out : HeaderMap} {k v s template apiKey t : String}

theorem CleanMap.put (h : CleanMap m) (hk : k ≠ "" ∧ normalizeHeaderContextKey k = k)
    (hv : GoodText v ∨ v = "" ∧ isHeaderPassthroughRuleKeyForOverride k = true) :
    CleanMap (m.put k v) where
  keyed := h.keyed.put k v
  key e he := by
    rcases KeyMap.mem_put he with he | rfl
    · exact h.key e he
    · exact hk
  value e he := by
    rcases KeyMap.mem_put he with he | rfl
    · exact h.value e he
    · exact hv

theorem cleanMap_sanitizeEntry (h : CleanMap m) (key shown : String) :
    CleanMap (sanitizeEntry m key shown) := by
  simp only [sanitizeEntry]
  split_ifs with hk hv hrule
  · exact h
  · exact h.put ⟨hk, normalize_normalize key⟩ (Or.inr ⟨rfl, hrule⟩)
  · exact h
  · exact h.put ⟨hk, normalize_normalize key⟩ (Or.inl (goodText_trimSpace hv))

/-- What `sanitizeHeaderOverrideMap` makes is in order. -/
theorem cleanMap_sanitizeConfigured (source : KeyMap ConfigValue) :
    CleanMap (sanitizeConfigured source) := by
  have hnil : CleanMap [] :=
    ⟨nodup_nil, fun e he => absurd he not_mem_nil, fun e he => absurd he not_mem_nil⟩
  have hall : ∀ target, CleanMap target →
      CleanMap (source.foldl (fun target e => sanitizeEntry target e.1 e.2.sprint) target) := by
    induction source with
    | nil => exact fun target h => h
    | cons e source ih =>
      intro target h
      rw [foldl_cons]
      exact ih _ (cleanMap_sanitizeEntry h _ _)
  exact hall [] hnil

/-- A map in order stays as it is. -/
theorem sanitize_of_clean (h : CleanMap m) : sanitizeHeaderOverrideMap m = m := by
  have hall : ∀ (rest target : HeaderMap), target ++ rest = m →
      rest.foldl (fun target e => sanitizeEntry target e.1 e.2) target = m := by
    intro rest
    induction rest with
    | nil => intro target ht; simpa using ht
    | cons e rest ih =>
      intro target ht
      have hmem : e ∈ m := ht ▸ mem_append_right target mem_cons_self
      have hfresh : e.1 ∉ target.map Prod.fst := by
        have hk := h.keyed
        rw [KeyMap.Keyed, ← ht, map_append, nodup_append] at hk
        exact fun hin => hk.2.2 _ hin _ (mem_map_of_mem mem_cons_self) rfl
      obtain ⟨hne, hnorm⟩ := h.key e hmem
      have hentry : sanitizeEntry target e.1 e.2 = target ++ [e] := by
        rw [sanitizeEntry]
        simp only [hnorm, if_neg hne]
        rcases h.value e hmem with hgood | ⟨hempty, hrule⟩
        · rw [hgood.trim, if_neg hgood.1, KeyMap.put_of_not_mem hfresh]
        · have hblank : trimSpace e.2 = "" := by rw [hempty]; decide
          rw [if_pos hblank, if_pos hrule, KeyMap.put_of_not_mem hfresh, ← hempty]
      rw [foldl_cons, hentry]
      exact ih _ (by rw [← ht, append_assoc, singleton_append])
  exact hall m [] rfl

theorem OriginContext.Wf.clean {context : OriginContext C} (hw : context.Wf) :
    CleanMap (context.headerOverride.mapValues textOf) where
  keyed := by
    have h := hw.keyed
    simpa [KeyMap.Keyed, KeyMap.mapValues, Function.comp_def] using h
  key e he := by
    obtain ⟨f, hf, rfl⟩ := mem_map.1 he
    exact hw.key f hf
  value e he := by
    obtain ⟨f, hf, rfl⟩ := mem_map.1 he
    exact hw.value f hf

/-- The texts of a configuration in pieces. -/
def configuredPieces (m : HeaderMap) : KeyMap Pieces := m.mapValues fun v => [⟨.configured, v⟩]

theorem configuredPieces_text (m : HeaderMap) : (configuredPieces m).mapValues textOf = m := by
  simp [configuredPieces, KeyMap.mapValues, Function.comp_def]

/-- The context of the first attempt in pieces. -/
def startPieces (r : HeaderRequest) (a : HeaderAttempt B C) : OriginContext C where
  facts := a.facts
  requestHeaders := buildRequestHeadersContext (r.client.getD [])
  headerOverride := configuredPieces (sanitizeConfigured a.headersOverride)

theorem startPieces_wf (r : HeaderRequest) (a : HeaderAttempt B C) : (startPieces r a).Wf := by
  have hclean := cleanMap_sanitizeConfigured a.headersOverride
  have hmem : ∀ e ∈ configuredPieces (sanitizeConfigured a.headersOverride),
      ∃ f ∈ sanitizeConfigured a.headersOverride, e.1 = f.1 ∧ textOf e.2 = f.2 := by
    intro e he
    obtain ⟨f, hf, rfl⟩ := mem_map.1 he
    exact ⟨f, hf, rfl, by simp⟩
  refine ⟨?_, fun e he => ?_, fun e he => ?_⟩
  · have h := hclean.keyed
    simpa [startPieces, configuredPieces, KeyMap.Keyed, KeyMap.mapValues, Function.comp_def] using h
  · obtain ⟨f, hf, hk, -⟩ := hmem e he
    rw [hk]
    exact hclean.key f hf
  · obtain ⟨f, hf, hk, hv⟩ := hmem e he
    rw [hk, hv]
    exact hclean.value f hf

theorem startPieces_erase (r : HeaderRequest) (a : HeaderAttempt B C) :
    (startPieces r a).erase = buildParamOverrideContext r {} a := by
  have hclean := cleanMap_sanitizeConfigured a.headersOverride
  simp only [OriginContext.erase, startPieces, buildParamOverrideContext, configuredPieces_text,
    getEffectiveHeaderOverride]
  congr 1
  exact (sanitize_of_clean hclean).symm

/-- The map that the headers of an attempt are made of, in pieces. -/
def overridePieces (tools : BodyTools B C) (r : HeaderRequest) (a : HeaderAttempt B C) :
    Except OverrideError (KeyMap Pieces) :=
  if a.paramOverride.isEmpty then .ok (startPieces r a).headerOverride
  else
    let workingJSON := if a.paramOverride.legacy = [] then .ok a.body
      else tools.legacy a.body a.paramOverride.legacy
    match workingJSON with
    | .error e => .error e
    | .ok data =>
      match a.paramOverride.operations with
      | none => .ok (startPieces r a).headerOverride
      | some operations =>
        match operations.foldlM (applyPieces tools) (data, startPieces r a) with
        | .error e => .error e
        | .ok (_, context) => .ok context.headerOverride

/-- **What an attempt sends is made of the map of the pieces, text by text.** -/
theorem sentAlone_eq (tools : BodyTools B C) (r : HeaderRequest) (a : HeaderAttempt B C) :
    (∃ e, overridePieces tools r a = .error e ∧ sentAlone tools r a = .error e) ∨
      ∃ m, overridePieces tools r a = .ok m ∧ CleanMap (m.mapValues textOf) ∧
        sentAlone tools r a = processHeaderOverride r a.apiKey (m.mapValues textOf) := by
  have hwf := startPieces_wf r a
  have herase := startPieces_erase r a
  have hstart : (startPieces r a).headerOverride.mapValues textOf =
      sanitizeConfigured a.headersOverride := configuredPieces_text _
  -- what is left in the request is the map, once it is in order
  have hsent : ∀ context : OverrideContext C, CleanMap context.headerOverride →
      getEffectiveHeaderOverride
          { useRuntimeHeadersOverride := true
            runtimeHeadersOverride := sanitizeHeaderOverrideMap context.headerOverride } a =
        context.headerOverride := by
    intro context hc
    simp only [getEffectiveHeaderOverride, if_true]
    rw [sanitize_of_clean hc, sanitize_of_clean hc]
  simp only [sentAlone, headerAttempt, overridePieces]
  by_cases hempty : a.paramOverride.isEmpty = true
  · simp only [if_pos hempty]
    exact Or.inr ⟨_, rfl, hwf.clean, by rw [hstart]; rfl⟩
  simp only [if_neg hempty, applyParamOverrideWithRelayInfo, applyParamOverride]
  cases hdata : (if a.paramOverride.legacy = [] then .ok a.body
      else tools.legacy a.body a.paramOverride.legacy : Except OverrideError B) with
  | error e => exact Or.inl ⟨e, rfl, rfl⟩
  | ok data =>
    dsimp only
    cases a.paramOverride.operations with
    | none =>
      refine Or.inr ⟨_, rfl, hwf.clean, ?_⟩
      dsimp only
      have hc : CleanMap (buildParamOverrideContext r {} a).headerOverride := herase ▸ hwf.clean
      rw [hsent _ hc, ← herase]
      rfl
    | some operations =>
      obtain ⟨hrun, hwfRun⟩ := foldlM_applyPieces_erase tools operations
        (show (data, startPieces r a).2.Wf from hwf)
      dsimp only at hrun ⊢
      rw [← herase, hrun]
      cases hp : operations.foldlM (applyPieces tools) (data, startPieces r a) with
      | error e => exact Or.inl ⟨e, rfl, rfl⟩
      | ok acc =>
        have hclean := (hwfRun acc hp).clean
        refine Or.inr ⟨_, rfl, hclean, ?_⟩
        simp only [Except.map]
        rw [hsent acc.2.erase hclean]
        rfl

/-! ### Placeholders -/

/-- A text that holds a character that is no space is not blank. -/
theorem trimSpace_ne_empty {c : Char} (hc : c ∈ s.toList) (hspace : isSpace c = false) :
    trimSpace s ≠ "" := by
  intro h
  unfold trimSpace at h
  have hnil := congrArg String.toList h
  rw [String.toList_ofList, show ("" : String).toList = [] from rfl, reverse_eq_nil_iff,
    dropWhile_eq_nil_iff] at hnil
  -- then everything that the first spaces leave is a space, and so is everything
  have hall : ∀ d ∈ s.toList, isSpace d = true := by
    intro d hd
    rw [← takeWhile_append_dropWhile (p := isSpace) (l := s.toList)] at hd
    rcases mem_append.1 hd with hd | hd
    · exact mem_takeWhile_imp hd
    · exact hnil d (mem_reverse.2 hd)
  rw [hall c hc] at hspace
  exact absurd hspace (by decide)

theorem applyPlaceholders_name (client : Option ClientHeaders) (apiKey apiKey' : String)
    (h : hasPrefix (trimSpace template) clientHeaderPlaceholder = true) :
    applyHeaderOverridePlaceholders template client apiKey =
      applyHeaderOverridePlaceholders template client apiKey' := by
  simp only [applyHeaderOverridePlaceholders, cutPrefix, if_pos h]

theorem applyPlaceholders_key (client : Option ClientHeaders) (apiKey : String)
    (h : hasPrefix (trimSpace template) clientHeaderPlaceholder = false) :
    applyHeaderOverridePlaceholders template client apiKey =
      .ok (if trimSpace (replaceAll template apiKeyPlaceholder apiKey) = "" then none
        else some (replaceAll template apiKeyPlaceholder apiKey)) := by
  have hvalue : (if containsText template apiKeyPlaceholder = true then
      replaceAll template apiKeyPlaceholder apiKey else template) =
      replaceAll template apiKeyPlaceholder apiKey := by
    split_ifs with hc
    · rfl
    · rw [replaceAll, replaceFrom_of_not_occurs (by simpa [containsText] using hc),
        String.ofList_toList]
  simp only [applyHeaderOverridePlaceholders, cutPrefix, h, Bool.false_eq_true, if_false, hvalue]

theorem applyPlaceholders_named {client : Option ClientHeaders}
    (hp : hasPrefix (trimSpace template) clientHeaderPlaceholder = true)
    (h : applyHeaderOverridePlaceholders template client apiKey = .ok (some v)) :
    ∃ headers name, client = some headers ∧ v = clientHeader headers name := by
  simp only [applyHeaderOverridePlaceholders, cutPrefix, if_pos hp] at h
  split at h
  · exact absurd h (by simp)
  · rename_i name hname
    split_ifs at h
    rcases client with _ | headers
    · simp at h
    have h := ok.inj h
    split_ifs at h
    exact ⟨headers, name, rfl, (Option.some.inj h).symm⟩

/-- Whether a template fails does not depend on the key. -/
theorem applyPlaceholders_ok {client : Option ClientHeaders}
    {found : Option String} (h : applyHeaderOverridePlaceholders template client apiKey = .ok found)
    (apiKey' : String) :
    ∃ found', applyHeaderOverridePlaceholders template client apiKey' = .ok found' := by
  by_cases hp : hasPrefix (trimSpace template) clientHeaderPlaceholder = true
  · exact ⟨found, (applyPlaceholders_name client apiKey' apiKey hp).trans h⟩
  · exact ⟨_, applyPlaceholders_key client apiKey' (by simpa using hp)⟩

/-! ### What is sent -/

namespace KeyMap

variable {V : Type}

theorem get_append_of_not_mem {m : KeyMap V} (h : k ∉ m.map Prod.fst)
    (m' : KeyMap V) : (m ++ m').get k = m'.get k := by
  induction m with
  | nil => rfl
  | cons e m ih =>
    obtain ⟨k', v⟩ := e
    rw [map_cons, mem_cons, not_or] at h
    have hk : (k == k') = false := beq_eq_false_iff_ne.2 h.1
    simp only [get, cons_append, lookup_cons, hk] at ih ⊢
    exact ih h.2

theorem get_put_self (m : KeyMap V) (k : String) (v : V) : (m.put k v).get k = some v := by
  rw [put, get_append_of_not_mem]
  · simp [get]
  · intro hmem
    obtain ⟨e, he, hk⟩ := mem_map.1 hmem
    have := (mem_filter.1 he).2
    simp [hk] at this

theorem get_put_of_ne (m : KeyMap V) {k' : String} (hne : k' ≠ k) (v : V) :
    (m.put k v).get k' = m.get k' := by
  induction m with
  | nil =>
    have hk : (k' == k) = false := beq_eq_false_iff_ne.2 hne
    simp [put, get, lookup_cons, hk]
  | cons e m ih =>
    obtain ⟨k'', w⟩ := e
    simp only [put, get] at ih ⊢
    by_cases hk : k'' = k
    · have hk' : (k' == k'') = false := beq_eq_false_iff_ne.2 (hk ▸ hne)
      rw [filter_cons_of_neg (by simp [hk]), lookup_cons, hk']
      exact ih
    · rw [filter_cons_of_pos (by simpa using hk), cons_append, lookup_cons,
        lookup_cons]
      cases k' == k'' with
      | true => rfl
      | false => exact ih

theorem Keyed.eq {m : KeyMap V} (h : m.Keyed) {v w : V} (hv : (k, v) ∈ m)
    (hw : (k, w) ∈ m) : v = w := by
  have := inj_on_of_nodup_map h hv hw rfl
  exact congrArg Prod.snd this

end KeyMap

/-- An entry that the explicit overrides put on top. -/
def Puts (isChannelTest : Bool) (client : Option ClientHeaders) (apiKey : String) (k t v : String) :
    Prop :=
  isHeaderPassthroughRuleKey k = false ∧
    ¬(isChannelTest = true ∧ hasPrefix (trimSpace t) clientHeaderPlaceholder = true) ∧
    applyHeaderOverridePlaceholders t client apiKey = .ok (some v)

section Explicit

variable {isChannelTest : Bool} {client : Option ClientHeaders} {apiKey : String}

theorem explicitOverrides_cons (hk : k ≠ "" ∧ normalizeHeaderContextKey k = k)
    (h : explicitOverrides isChannelTest client apiKey headers ((k, t) :: source) = .ok out) :
    (∃ v, Puts isChannelTest client apiKey k t v ∧
        explicitOverrides isChannelTest client apiKey (headers.put k v) source = .ok out) ∨
      (∀ v, ¬Puts isChannelTest client apiKey k t v) ∧
        explicitOverrides isChannelTest client apiKey headers source = .ok out := by
  have hkey : trimSpace (toLower k) = k := hk.2
  simp only [explicitOverrides, hkey] at h
  by_cases hrule : isHeaderPassthroughRuleKey k = true ∨ k = ""
  · rw [if_pos hrule] at h
    have hrule' : isHeaderPassthroughRuleKey k = true := hrule.resolve_right hk.1
    exact Or.inr ⟨fun v hv => absurd hv.1 (by simp [hrule']), h⟩
  rw [if_neg hrule] at h
  by_cases hskip : isChannelTest = true ∧ hasPrefix (trimSpace t) clientHeaderPlaceholder = true
  · rw [if_pos hskip] at h
    exact Or.inr ⟨fun v hv => hv.2.1 hskip, h⟩
  rw [if_neg hskip] at h
  have hnot : isHeaderPassthroughRuleKey k = false := by
    simpa using fun hr => hrule (Or.inl hr)
  rcases ha : applyHeaderOverridePlaceholders t client apiKey with _ | found
  · simp [ha] at h
  cases found with
  | none =>
    simp only [ha] at h
    refine Or.inr ⟨fun v hv => ?_, h⟩
    have := hv.2.2
    simp [ha] at this
  | some v =>
    simp only [ha] at h
    exact Or.inl ⟨v, ⟨hnot, hskip, ha⟩, h⟩

section

variable (hkeys : ∀ e ∈ source, e.1 ≠ "" ∧ normalizeHeaderContextKey e.1 = e.1)
include hkeys

/-- A header that no entry has the key of stays. -/
theorem explicitOverrides_other (hk : k ∉ source.map Prod.fst)
    (h : explicitOverrides isChannelTest client apiKey headers source = .ok out) :
    out.get k = headers.get k := by
  induction source generalizing headers with
  | nil => exact ok.inj h ▸ rfl
  | cons e source ih =>
    obtain ⟨k', t⟩ := e
    rw [map_cons, mem_cons, not_or] at hk
    have hrest := fun e he => hkeys e (mem_cons_of_mem _ he)
    rcases explicitOverrides_cons (hkeys _ mem_cons_self) h with ⟨v, -, h⟩ | ⟨-, h⟩
    · rw [ih hrest hk.2 h, KeyMap.get_put_of_ne headers hk.1]
    · exact ih hrest hk.2 h

/-- **A header that is sent** was there before, or comes from an entry. -/
theorem explicitOverrides_get
    (h : explicitOverrides isChannelTest client apiKey headers source = .ok out)
    (hv : out.get k = some v) :
    headers.get k = some v ∨ ∃ t, (k, t) ∈ source ∧ Puts isChannelTest client apiKey k t v := by
  induction source generalizing headers with
  | nil => exact Or.inl (ok.inj h ▸ hv)
  | cons e source ih =>
    obtain ⟨k', t⟩ := e
    have hrest := fun e he => hkeys e (mem_cons_of_mem _ he)
    rcases explicitOverrides_cons (hkeys _ mem_cons_self) h with ⟨w, hputs, h⟩ | ⟨-, h⟩
    · rcases ih hrest h with hold | ⟨t', hmem, hputs'⟩
      · by_cases hk : k = k'
        · subst hk
          rw [KeyMap.get_put_self] at hold
          cases hold
          exact Or.inr ⟨t, mem_cons_self, hputs⟩
        · rw [KeyMap.get_put_of_ne headers hk] at hold
          exact Or.inl hold
      · exact Or.inr ⟨t', mem_cons_of_mem _ hmem, hputs'⟩
    · rcases ih hrest h with hold | ⟨t', hmem, hputs'⟩
      · exact Or.inl hold
      · exact Or.inr ⟨t', mem_cons_of_mem _ hmem, hputs'⟩

end

/-- **An entry that is put on top is sent.** -/
theorem explicitOverrides_sends (hkeyed : KeyMap.Keyed source)
    (hkeys : ∀ e ∈ source, e.1 ≠ "" ∧ normalizeHeaderContextKey e.1 = e.1)
    (h : explicitOverrides isChannelTest client apiKey headers source = .ok out)
    (hmem : (k, t) ∈ source) (hputs : Puts isChannelTest client apiKey k t v) :
    out.get k = some v := by
  induction source generalizing headers with
  | nil => exact absurd hmem not_mem_nil
  | cons e source ih =>
    have hrest := fun e he => hkeys e (mem_cons_of_mem _ he)
    obtain ⟨hfresh, hkeyed⟩ := nodup_cons.1 hkeyed
    rcases mem_cons.1 hmem with rfl | hmem
    · rcases explicitOverrides_cons (hkeys _ mem_cons_self) h with ⟨w, hputs', h⟩ | ⟨hnone, -⟩
      · obtain rfl : v = w :=
          Option.some.inj (ok.inj (hputs.2.2.symm.trans hputs'.2.2))
        rw [explicitOverrides_other hrest hfresh h, KeyMap.get_put_self]
      · exact absurd hputs (hnone v)
    · rcases explicitOverrides_cons (hkeys _ mem_cons_self) h with ⟨w, -, h⟩ | ⟨-, h⟩
      · exact ih hkeyed hrest h hmem
      · exact ih hkeyed hrest h hmem

theorem explicitOverrides_ok
    (h : explicitOverrides isChannelTest client apiKey headers source = .ok out) (apiKey' : String)
    (headers' : HeaderMap) :
    ∃ out', explicitOverrides isChannelTest client apiKey' headers' source = .ok out' := by
  induction source generalizing headers headers' with
  | nil => exact ⟨headers', rfl⟩
  | cons e source ih =>
    obtain ⟨k, t⟩ := e
    simp only [explicitOverrides] at h ⊢
    split_ifs at h ⊢
    · exact ih h _
    · exact ih h _
    · rcases ha : applyHeaderOverridePlaceholders t client apiKey with _ | found
      · simp [ha] at h
      obtain ⟨found', hfound'⟩ := applyPlaceholders_ok ha apiKey'
      rw [hfound']
      have hrun : ∃ headers'', explicitOverrides isChannelTest client apiKey headers'' source =
          .ok out := by
        cases found with
        | none => exact ⟨headers, by simpa [ha] using h⟩
        | some v => exact ⟨_, by simpa [ha] using h⟩
      obtain ⟨headers'', hrun⟩ := hrun
      cases found' with
      | none | some => exact ih hrun _

end Explicit

/-! ### Text of the client -/

/-- A value with a text of the client in it. -/
def HasClientText (ps : Pieces) : Prop := ∃ p ∈ ps, p.origin = .client

/-- A piece that is a template only where it was configured. -/
def keptPiece (apiKey : String) (p : Piece) : String :=
  match p.origin with
  | .client => p.text
  | .configured => replaceAll p.text apiKeyPlaceholder apiKey

/-- A value in which only what was configured is a template. -/
def keptText (ps : Pieces) (apiKey : String) : String := joinComma (ps.map (keptPiece apiKey))

/-- What the client sent in a header of a name. -/
def OwnHeader (r : HeaderRequest) (k v : String) : Prop :=
  ∃ client, r.client = some client ∧
    ∃ e ∈ client, toLower (trimSpace e.1) = k ∧ trimSpace (clientHeader client e.1) = v

/-- **A header that leaves the text of the client as it is**: the client's own header of the name,
or an entry of the map with the texts of the client in it kept, or with a placeholder that was
configured, for a header of the client. -/
def ArrivesAsIs (r : HeaderRequest) (m : KeyMap Pieces) (apiKey k v : String) : Prop :=
  OwnHeader r k v ∨
    ∃ ps, (k, ps) ∈ m ∧ (HasClientText ps → v = keptText ps apiKey) ∧
      (¬HasClientText ps → hasPrefix (textOf ps) clientHeaderPlaceholder = true →
        ∃ client name, r.client = some client ∧ v = clientHeader client name)

/-- Every header that the attempt sends leaves the text of the client as it is, whatever the key of
the channel. -/
def ClientTextKept (tools : BodyTools B C) (r : HeaderRequest) (a : HeaderAttempt B C) : Prop :=
  ∀ apiKey m out, overridePieces tools r a = .ok m →
    sentAlone tools r { a with apiKey := apiKey } = .ok out →
      ∀ k v, out.get k = some v → ArrivesAsIs r m apiKey k v

/-- **A value that is no template by accident**: no text of the client in it holds the placeholder
of the key, and if the value starts like a placeholder for a header of the client, that header has
the very text. -/
def Harmless (r : HeaderRequest) (k : String) (ps : Pieces) : Prop :=
  HasClientText ps →
    if hasPrefix (textOf ps) clientHeaderPlaceholder = true then
      r.isChannelTest = true ∨
        ∀ w, applyHeaderOverridePlaceholders (textOf ps) r.client "" = .ok (some w) →
          OwnHeader r k w ∨ ∀ apiKey, w = keptText ps apiKey
    else ∀ p ∈ ps, p.origin = .client → containsText p.text apiKeyPlaceholder = false

theorem passedThrough_get {r : HeaderRequest} {client : ClientHeaders} (hr : r.client = some client)
    (passAll : Bool) (patterns : List (String → Bool))
    (h : (passedThrough client passAll patterns).get k = some v) : OwnHeader r k v := by
  have hall : ∀ (rest : ClientHeaders) (headers : HeaderMap), (∀ e ∈ rest, e ∈ client) →
      (∀ v, headers.get k = some v → OwnHeader r k v) →
      ∀ v, (rest.foldl (fun headers e =>
        if shouldSkipPassthroughHeader e.1 then headers
        else if !passAll && !patterns.any (fun matchesName => matchesName e.1) then headers
        else
          let value := trimSpace (clientHeader client e.1)
          if value = "" then headers else headers.put (toLower (trimSpace e.1)) value)
        headers).get k = some v → OwnHeader r k v := by
    intro rest
    induction rest with
    | nil => exact fun headers _ hown => hown
    | cons e rest ih =>
      intro headers hsub hown
      refine ih _ (fun f hf => hsub f (mem_cons_of_mem e hf)) ?_
      dsimp only
      intro w hw
      split_ifs at hw
      · exact hown w hw
      · exact hown w hw
      · exact hown w hw
      · by_cases hk : k = toLower (trimSpace e.1)
        · subst hk
          rw [KeyMap.get_put_self] at hw
          exact ⟨client, hr, e, hsub e mem_cons_self, rfl, Option.some.inj hw⟩
        · rw [KeyMap.get_put_of_ne _ hk] at hw
          exact hown w hw
  exact hall client [] (fun e he => he) (fun v hv => by simp [KeyMap.get] at hv) v h

/-- What the headers of an attempt are made on top of does not depend on the key. -/
theorem processHeaderOverride_ok {r : HeaderRequest}
    (h : processHeaderOverride r apiKey source = .ok out) :
    ∃ headers : HeaderMap, (∀ k v, headers.get k = some v → OwnHeader r k v) ∧
      ∀ key, processHeaderOverride r key source =
        explicitOverrides r.isChannelTest r.client key headers source := by
  have hnil : ∀ k v, KeyMap.get ([] : HeaderMap) k = some v → OwnHeader r k v :=
    fun k v hv => by simp [KeyMap.get] at hv
  simp only [processHeaderOverride] at h ⊢
  generalize (if r.isChannelTest = true then .ok (false, [])
    else passthroughRules r.compile source : Except OverrideError (Bool × List (String → Bool))) =
      rules at h ⊢
  rcases rules with _ | found
  · simp at h
  obtain ⟨passAll, patterns⟩ := found
  dsimp only at h ⊢
  split_ifs at h ⊢ with hpass
  · rcases hc : r.client with _ | client
    · simp [hc] at h
    exact ⟨_, fun k v hv => passedThrough_get hc passAll patterns hv, fun key => rfl⟩
  · exact ⟨[], hnil, fun key => rfl⟩

/-- A piece that is a template whoever wrote it. -/
def replacedPiece (apiKey : String) (p : Piece) : String :=
  replaceAll p.text apiKeyPlaceholder apiKey

theorem replaceAll_textOf (ps : Pieces) (apiKey : String) :
    replaceAll (textOf ps) apiKeyPlaceholder apiKey =
      joinComma (ps.map (replacedPiece apiKey)) := by
  rw [textOf, replaceAll_joinComma apiKey (by decide) (by decide), map_map]
  rfl

theorem length_joinComma_map (f : Piece → String) (ps : Pieces) :
    (joinComma (ps.map f)).toList.length =
      (ps.map fun p => (f p).toList.length).sum + (ps.length - 1) := by
  rw [length_joinComma, map_map, length_map]
  rfl

theorem replaceAll_eq_keptText {ps : Pieces}
    (h : ∀ p ∈ ps, p.origin = .client → containsText p.text apiKeyPlaceholder = false)
    (apiKey : String) : replaceAll (textOf ps) apiKeyPlaceholder apiKey = keptText ps apiKey := by
  rw [replaceAll_textOf, keptText]
  congr 1
  refine map_congr_left fun p hp => ?_
  unfold replacedPiece keptPiece
  cases ho : p.origin with
  | configured => rfl
  | client =>
    dsimp only
    rw [replaceAll, replaceFrom_of_not_occurs (h p hp ho), String.ofList_toList]

/-- A key that is longer than some bound. -/
def longKey (n : Nat) : String := String.ofList (List.replicate (n + 10) 'x')

theorem length_longKey (n : Nat) : (longKey n).toList.length = n + 10 := by
  simp [longKey]

theorem keptText_lt {ps : Pieces} {p : Piece} (hp : p ∈ ps) (hclient : p.origin = .client)
    (hc : containsText p.text apiKeyPlaceholder = true) (n : Nat) :
    (keptText ps (longKey n)).toList.length <
        (replaceAll (textOf ps) apiKeyPlaceholder (longKey n)).toList.length ∧
      n < (replaceAll (textOf ps) apiKeyPlaceholder (longKey n)).toList.length := by
  have hlen : apiKeyPlaceholder.toList.length < (longKey n).toList.length := by
    have h9 : apiKeyPlaceholder.toList.length = 9 := by decide
    rw [h9, length_longKey]
    omega
  have h9 : apiKeyPlaceholder.toList.length = 9 := by decide
  have hge : ∀ q : Piece, q.text.toList.length ≤ (replacedPiece (longKey n) q).toList.length := by
    intro q
    rw [replacedPiece, replaceAll, String.toList_ofList]
    exact length_replaceFrom_le hlen (by decide) q.text.toList 0
  have hgrow : p.text.toList.length + (n + 1) ≤
      (replacedPiece (longKey n) p).toList.length := by
    have := length_lt_replaceFrom hlen (by decide) hc
    rw [h9, length_longKey] at this
    rw [replacedPiece, replaceAll, String.toList_ofList]
    omega
  have hsum : (ps.map fun q => (keptPiece (longKey n) q).toList.length).sum <
      (ps.map fun q => (replacedPiece (longKey n) q).toList.length).sum := by
    refine sum_lt_sum _ _ (fun q _ => ?_) ⟨p, hp, ?_⟩
    · unfold keptPiece
      cases q.origin with
      | configured => exact le_refl _
      | client => exact hge q
    · have hkept : keptPiece (longKey n) p = p.text := by rw [keptPiece, hclient]
      rw [hkept]
      omega
  have hmem : (replacedPiece (longKey n) p).toList.length ≤
      (ps.map fun q => (replacedPiece (longKey n) q).toList.length).sum :=
    le_sum_of_mem (mem_map.2 ⟨p, hp, rfl⟩)
  rw [replaceAll_textOf, keptText, length_joinComma_map, length_joinComma_map]
  omega

theorem replaceAll_longKey_ne (h : GoodText s) (n : Nat) :
    trimSpace (replaceAll s apiKeyPlaceholder (longKey n)) ≠ "" := by
  obtain ⟨hne, hhead, -⟩ := h
  cases hs : s.toList with
  | nil => exact absurd (String.toList_eq_nil_iff.1 hs) hne
  | cons c cs =>
    have hc : isSpace c = false := hhead c (by simp [hs])
    by_cases hp : apiKeyPlaceholder.toList.isPrefixOf (c :: cs) = true
    · have hx : 'x' ∈ (replaceAll s apiKeyPlaceholder (longKey n)).toList := by
        rw [replaceAll, String.toList_ofList, hs, replaceFrom, if_pos hp, longKey,
          String.toList_ofList]
        exact mem_append_left _ (by simp)
      exact trimSpace_ne_empty hx (by decide)
    · have hmem : c ∈ (replaceAll s apiKeyPlaceholder (longKey n)).toList := by
        rw [replaceAll, String.toList_ofList, hs, replaceFrom, if_neg hp]
        exact mem_cons_self
      exact trimSpace_ne_empty hmem hc

/-- More than the client sent in any header. -/
def headerBound (r : HeaderRequest) : Nat :=
  (((r.client.getD []).map fun e =>
    (trimSpace (clientHeader (r.client.getD []) e.1)).toList.length).sum)

theorem OwnHeader.length_le {r : HeaderRequest} (h : OwnHeader r k v) :
    v.toList.length ≤ headerBound r := by
  obtain ⟨client, hr, e, he, -, rfl⟩ := h
  simp only [headerBound, hr, Option.getD_some]
  exact le_sum_of_mem (mem_map.2 ⟨e, he, rfl⟩)

variable {tools : BodyTools B C} {r : HeaderRequest} {a : HeaderAttempt B C}

/-- The pieces do not depend on the key of the channel, and the headers are made of them. -/
theorem sentAlone_pieces {m : KeyMap Pieces} (hm : overridePieces tools r a = .ok m)
    (apiKey : String) :
    CleanMap (m.mapValues textOf) ∧ sentAlone tools r { a with apiKey := apiKey } =
      processHeaderOverride r apiKey (m.mapValues textOf) := by
  have hsame : overridePieces tools r { a with apiKey := apiKey } = .ok m := hm
  rcases sentAlone_eq tools r { a with apiKey := apiKey } with ⟨e, he, -⟩ | ⟨m', hm', hclean, hsent⟩
  · exact absurd (hsame.symm.trans he) (by simp)
  · obtain rfl := ok.inj (hsame.symm.trans hm')
    exact ⟨hclean, hsent⟩

theorem arrivesAsIs_of_harmless {m : KeyMap Pieces} (hclean : CleanMap (m.mapValues textOf))
    (hharmless : ∀ e ∈ m, isHeaderPassthroughRuleKey e.1 = false → Harmless r e.1 e.2)
    (hout : processHeaderOverride r apiKey (m.mapValues textOf) = .ok out)
    (hv : out.get k = some v) : ArrivesAsIs r m apiKey k v := by
  obtain ⟨headers, hown, hexplicit⟩ := processHeaderOverride_ok hout
  rw [hexplicit] at hout
  rcases explicitOverrides_get hclean.key hout hv with hold | ⟨t, ht, hrule, hskip, happly⟩
  · exact Or.inl (hown k v hold)
  obtain ⟨⟨k', ps⟩, hmem, heq⟩ := mem_map.1 ht
  cases heq
  have htrim : trimSpace (textOf ps) = textOf ps := by
    rcases hclean.value _ ht with hgood | ⟨hempty, -⟩
    · exact hgood.trim
    · dsimp only at hempty
      rw [hempty]
      decide
  by_cases hp : hasPrefix (textOf ps) clientHeaderPlaceholder = true
  · have hp' : hasPrefix (trimSpace (textOf ps)) clientHeaderPlaceholder = true := by rwa [htrim]
    by_cases hclient : HasClientText ps
    · have hh := hharmless _ hmem hrule hclient
      rw [if_pos hp] at hh
      rcases hh with htest | hall
      · exact absurd ⟨htest, hp'⟩ hskip
      · rcases hall v ((applyPlaceholders_name r.client "" apiKey hp').trans happly) with h | h
        · exact Or.inl h
        · exact Or.inr ⟨ps, hmem, fun _ => h apiKey, fun hno => absurd hclient hno⟩
    · obtain ⟨client, name, hr, hname⟩ := applyPlaceholders_named hp' happly
      exact Or.inr ⟨ps, hmem, fun h => absurd h hclient, fun _ _ => ⟨client, name, hr, hname⟩⟩
  · have hp' : hasPrefix (trimSpace (textOf ps)) clientHeaderPlaceholder = false := by
      rw [htrim]
      simpa using hp
    refine Or.inr ⟨ps, hmem, fun hclient => ?_, fun _ h => absurd h hp⟩
    have hh := hharmless _ hmem hrule hclient
    rw [if_neg hp] at hh
    rw [applyPlaceholders_key r.client apiKey hp'] at happly
    have happly := ok.inj happly
    split_ifs at happly
    rw [← Option.some.inj happly]
    exact replaceAll_eq_keptText hh apiKey

/-- **Text of the client in headers.**  The headers of an attempt leave the text of the client as it
is, for every key of the channel, exactly when every value that the headers are made of is harmless,
unless making the headers fails. -/
theorem clientTextKept_iff (tools : BodyTools B C) (r : HeaderRequest) (a : HeaderAttempt B C) :
    ClientTextKept tools r a ↔
      ∀ m, overridePieces tools r a = .ok m →
        (∃ out, processHeaderOverride r "" (m.mapValues textOf) = .ok out) →
          ∀ e ∈ m, isHeaderPassthroughRuleKey e.1 = false → Harmless r e.1 e.2 := by
  constructor
  · rintro hkept m hm ⟨out, hout⟩ ⟨k, ps⟩ hmem hrule hclient
    obtain ⟨hclean, -⟩ := sentAlone_pieces hm ""
    obtain ⟨headers, -, hexplicit⟩ := processHeaderOverride_ok hout
    rw [hexplicit] at hout
    have hentry : (k, textOf ps) ∈ m.mapValues textOf := List.mem_map.2 ⟨_, hmem, rfl⟩
    -- with any key the headers are made, and what the entry puts there is sent
    have hany : ∀ apiKey v, Puts r.isChannelTest r.client apiKey k (textOf ps) v →
        ArrivesAsIs r m apiKey k v := by
      intro apiKey v hputs
      obtain ⟨out', hout'⟩ := explicitOverrides_ok hout apiKey headers
      refine hkept apiKey m out' hm ?_ k v
        (explicitOverrides_sends hclean.keyed hclean.key hout' hentry hputs)
      rw [(sentAlone_pieces hm apiKey).2, hexplicit, hout']
    have hthis : ∀ apiKey v, ArrivesAsIs r m apiKey k v → OwnHeader r k v ∨ v = keptText ps apiKey := by
      rintro apiKey v (hown | ⟨ps', hmem', hkept', -⟩)
      · exact Or.inl hown
      · have hkeyed : KeyMap.Keyed m := by
          have := hclean.keyed
          simpa [KeyMap.Keyed, KeyMap.mapValues, Function.comp_def] using this
        obtain rfl := hkeyed.eq hmem hmem'
        exact Or.inr (hkept' hclient)
    have hcases := hclean.value _ hentry
    have htrim : trimSpace (textOf ps) = textOf ps := by
      rcases hcases with hgood | ⟨hempty, -⟩
      · exact hgood.trim
      · dsimp only at hempty
        rw [hempty]
        decide
    dsimp only
    split_ifs with hp
    · have hp' : hasPrefix (trimSpace (textOf ps)) clientHeaderPlaceholder = true := by rwa [htrim]
      by_cases htest : r.isChannelTest = true
      · exact Or.inl htest
      refine Or.inr fun w hw => ?_
      by_cases hown : OwnHeader r k w
      · exact Or.inl hown
      refine Or.inr fun apiKey => ?_
      have hputs : Puts r.isChannelTest r.client apiKey k (textOf ps) w :=
        ⟨hrule, fun h => htest h.1, (applyPlaceholders_name r.client apiKey "" hp').trans hw⟩
      exact (hthis apiKey w (hany apiKey w hputs)).resolve_left hown
    · have hp' : hasPrefix (trimSpace (textOf ps)) clientHeaderPlaceholder = false := by
        rw [htrim]
        simpa using hp
      intro p hpmem horigin
      by_contra hcontains
      have hc : containsText p.text apiKeyPlaceholder = true := by simpa using hcontains
      -- a key that is longer than all the client sent shows the difference
      obtain ⟨hlt, hlong⟩ := keptText_lt hpmem horigin hc (headerBound r)
      have hgood : GoodText (textOf ps) := by
        refine hcases.resolve_right fun hempty => ?_
        have hnil : replaceAll (textOf ps) apiKeyPlaceholder (longKey (headerBound r)) = "" := by
          rw [show textOf ps = "" from hempty.1]
          rfl
        rw [hnil] at hlong
        exact absurd hlong (by simp)
      have hputs : Puts r.isChannelTest r.client (longKey (headerBound r)) k (textOf ps)
          (replaceAll (textOf ps) apiKeyPlaceholder (longKey (headerBound r))) := by
        refine ⟨hrule, fun h => by simp [hp'] at h, ?_⟩
        rw [applyPlaceholders_key r.client _ hp', if_neg (replaceAll_longKey_ne hgood _)]
      rcases hthis _ _ (hany _ _ hputs) with hown | hkept'
      · have := hown.length_le
        omega
      · rw [hkept'] at hlt
        exact absurd hlt (lt_irrefl _)
  · intro hharmless apiKey m out hm hsent k v hv
    obtain ⟨hclean, hmade⟩ := sentAlone_pieces hm apiKey
    rw [hmade] at hsent
    have hout : ∃ out, processHeaderOverride r "" (m.mapValues textOf) = .ok out := by
      obtain ⟨headers, -, hexplicit⟩ := processHeaderOverride_ok hsent
      rw [hexplicit] at hsent ⊢
      exact explicitOverrides_ok hsent "" headers
    exact arrivesAsIs_of_harmless hclean (hharmless m hm hout) hsent hv

/-- A channel that passes a header of the client on. -/
def passingChannel : HeaderAttempt Unit Unit where
  facts := ()
  body := ()
  paramOverride := { operations := some [{ mode := "copy_header", source := "X-Trace",
                                           target := "X-Trace" }] }

/-- A client header with the placeholder of the key in it arrives with the key of the channel. -/
theorem passedKey_leaks :
    (∀ apiKey ∈ ["sk-1", "sk-2"],
      sentAlone headerTools { client := some [("X-Trace", "\x7bapi_key\x7d")] }
        { passingChannel with apiKey := apiKey } = .ok [("x-trace", apiKey)]) ∧
      ¬ClientTextKept headerTools { client := some [("X-Trace", "\x7bapi_key\x7d")] }
        passingChannel := by
  refine ⟨by decide +kernel, fun hkept => ?_⟩
  have hm : overridePieces headerTools { client := some [("X-Trace", "\x7bapi_key\x7d")] }
      passingChannel = .ok [("x-trace", [⟨.client, "\x7bapi_key\x7d"⟩])] := by decide +kernel
  have hsent : sentAlone headerTools { client := some [("X-Trace", "\x7bapi_key\x7d")] }
      { passingChannel with apiKey := "sk-1" } = .ok [("x-trace", "sk-1")] := by decide +kernel
  rcases hkept "sk-1" _ _ hm hsent "x-trace" "sk-1" rfl with ⟨client, hc, e, he, -, hv⟩ | hentry
  · obtain rfl := Option.some.inj hc
    obtain rfl := List.mem_singleton.1 he
    exact absurd hv (by decide +kernel)
  · obtain ⟨ps, hmem, hkeptText, -⟩ := hentry
    obtain rfl := (Prod.mk.inj (List.mem_singleton.1 hmem)).2
    exact absurd (hkeptText ⟨_, List.mem_singleton_self _, rfl⟩) (by decide +kernel)

end NexusTok
