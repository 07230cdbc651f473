import Mathlib.Data.List.Nodup
import NexusTok.Header.Basic

/-!
# Where the texts of header overrides come from

The map of header overrides again, with every text in pieces that remember who wrote them: the
configuration of the channel, or the client.  A value is the comma list of its pieces; a header of
the client is one piece, and so is a text of the configuration.  What the param overrides do to the
pieces is what they do to the texts (`erase`), so the pieces of a value are the history of its text.

* `GoodToken`, `GoodText` : tokens and values have nothing to trim.
* `setPieces_erase`, `copyPieces_erase`, `runPieces_erase` : the operations agree with those on
  texts.
* `overridePieces_erase` : the map that the headers are made of is the map of the pieces, text by
  text.
-/

namespace NexusTok

open List Except String

/-- Who wrote a text. -/
inductive TextOrigin where
  | configured
  | client
  deriving Repr, DecidableEq

/-- A text with its origin. -/
structure Piece where
  origin : TextOrigin
  text : String
  deriving Repr, DecidableEq

/-- A value in pieces. -/
abbrev Pieces := List Piece

/-- The text of a value. -/
def textOf (ps : Pieces) : String := joinComma (ps.map Piece.text)

@[simp] theorem textOf_singleton (p : Piece) : textOf [p] = p.text := by
  simp [textOf]

/-! ### Texts with nothing to trim -/

/-- A text that is not empty and has nothing to trim. -/
def GoodText (s : String) : Prop := s ≠ "" ∧ Trimmed s.toList

variable {s k name : String}

theorem GoodText.trim (h : GoodText s) : trimSpace s = s := trimSpace_of_trimmed h.2

theorem goodText_trimSpace (h : trimSpace s ≠ "") : GoodText (trimSpace s) :=
  ⟨h, trimmed_trimSpace s⟩

theorem goodText_of_mem_commaTokens {raw t : String} (h : t ∈ commaTokens raw) : GoodText t := by
  simp only [commaTokens, mem_filterMap] at h
  obtain ⟨item, -, hitem⟩ := h
  split_ifs at hitem with hne
  cases hitem
  exact goodText_trimSpace hne

theorem mem_uniqFrom {seen xs : List String} {x : String} (h : x ∈ uniqFrom seen xs) : x ∈ xs := by
  induction xs generalizing seen with
  | nil => exact h
  | cons y ys ih =>
    unfold uniqFrom at h
    split_ifs at h
    · exact mem_cons_of_mem y (ih h)
    · rcases mem_cons.1 h with rfl | h
      · exact mem_cons_self
      · exact mem_cons_of_mem y (ih h)

mutual
theorem goodText_of_mem_replacement : ∀ {v : ConfigValue} {tokens : List String},
    parseHeaderReplacementTokens v = .ok tokens → ∀ t ∈ tokens, GoodText t
  | .null, tokens, h, t, ht => by
    obtain rfl := ok.inj h
    exact absurd ht not_mem_nil
  | .text raw, tokens, h, t, ht => by
    obtain rfl := ok.inj h
    exact goodText_of_mem_commaTokens ht
  | .list items, tokens, h, t, ht => by
    simp only [parseHeaderReplacementTokens] at h
    rcases hi : parseHeaderReplacementItems items with _ | found
    · simp [hi] at h
    rw [hi] at h
    obtain rfl := ok.inj h
    exact goodText_of_mem_items hi t (mem_uniqFrom ht)
  | .object _, tokens, h, t, ht => by simp [parseHeaderReplacementTokens] at h
  | .bool b, tokens, h, t, ht => by
    obtain rfl := ok.inj h
    obtain rfl := mem_singleton.1 ht
    cases b
    · exact ⟨by decide, fun c hc => by cases hc; rfl, fun c hc => by cases hc; rfl⟩
    · exact ⟨by decide, fun c hc => by cases hc; rfl, fun c hc => by cases hc; rfl⟩
  | .number shown, tokens, h, t, ht => by
    obtain rfl := ok.inj h
    split_ifs at ht with hne
    · exact absurd ht not_mem_nil
    · obtain rfl := mem_singleton.1 ht
      exact goodText_trimSpace hne

theorem goodText_of_mem_items : ∀ {items : List ConfigValue} {tokens : List String},
    parseHeaderReplacementItems items = .ok tokens → ∀ t ∈ tokens, GoodText t
  | [], tokens, h, t, ht => by
    obtain rfl := ok.inj h
    exact absurd ht not_mem_nil
  | item :: items, tokens, h, t, ht => by
    simp only [parseHeaderReplacementItems] at h
    rcases hv : parseHeaderReplacementTokens item with _ | found
    · simp [hv] at h
    rcases hi : parseHeaderReplacementItems items with _ | rest
    · simp [hv, hi] at h
    simp only [hv, hi] at h
    obtain rfl := ok.inj h
    rcases mem_append.1 ht with ht | ht
    · exact goodText_of_mem_replacement hv t ht
    · exact goodText_of_mem_items hi t ht
end

theorem goodText_joinComma {items : List String} (hne : items ≠ [])
    (h : ∀ t ∈ items, GoodText t) : GoodText (joinComma items) := by
  induction items with
  | nil => exact absurd rfl hne
  | cons s items ih =>
    have hs := h s mem_cons_self
    cases items with
    | nil => simpa using hs
    | cons t items =>
      have hrest := ih (cons_ne_nil t items) fun u hu => h u (mem_cons_of_mem s hu)
      have hlist := toList_joinComma_cons s t items
      have hchars : s.toList ≠ [] := by
        rw [Ne, toList_eq_nil_iff]
        exact hs.1
      constructor
      · rw [Ne, ← toList_eq_nil_iff, hlist]
        simp
      · rw [hlist]
        refine hs.2.append hchars fun c hc => ?_
        have hchars' : (joinComma (t :: items)).toList ≠ [] := by
          rw [Ne, toList_eq_nil_iff]
          exact hrest.1
        refine hrest.2.2 c ?_
        rwa [getLast?_cons_of_ne_nil hchars'] at hc

/-! ### Maps -/

namespace KeyMap

variable {V W : Type} (f : V → W)

/-- A map with its values changed. -/
def mapValues (m : KeyMap V) : KeyMap W := m.map fun e => (e.1, f e.2)

theorem get_mapValues (m : KeyMap V) (k : String) : (m.mapValues f).get k = (m.get k).map f := by
  induction m with
  | nil => rfl
  | cons e m ih =>
    obtain ⟨k', v⟩ := e
    simp only [get, mapValues, map_cons, lookup_cons] at ih ⊢
    cases k == k' with
    | false => exact ih
    | true => rfl

theorem mapValues_filter (m : KeyMap V) (k : String) :
    mapValues f (m.filter (·.1 != k)) = (m.mapValues f).filter (·.1 != k) := by
  simp [mapValues, filter_map, Function.comp_def]

theorem mapValues_put (m : KeyMap V) (k : String) (v : V) :
    (m.put k v).mapValues f = (m.mapValues f).put k (f v) := by
  rw [put, put, ← mapValues_filter]
  simp [mapValues]

theorem mapValues_del (m : KeyMap V) (k : String) :
    (m.del k).mapValues f = (m.mapValues f).del k :=
  mapValues_filter f m k

variable {m : KeyMap V}

theorem mem_of_get {v : V} (h : m.get k = some v) : (k, v) ∈ m := by
  induction m with
  | nil => simp [get] at h
  | cons e m ih =>
    obtain ⟨k', v'⟩ := e
    simp only [get, lookup_cons] at h ih
    cases hk : k == k' with
    | true =>
      rw [hk] at h
      cases h
      rw [eq_of_beq hk]
      exact mem_cons_self
    | false =>
      rw [hk] at h
      exact mem_cons_of_mem _ (ih h)

/-- The keys of a map, each once. -/
def Keyed (m : KeyMap V) : Prop := (m.map Prod.fst).Nodup

theorem Keyed.del (h : m.Keyed) (k : String) : (m.del k).Keyed :=
  h.sublist (filter_sublist.map _)

theorem Keyed.put (h : m.Keyed) (k : String) (v : V) : (m.put k v).Keyed := by
  have hdel := h.del k
  simp only [Keyed, KeyMap.put, KeyMap.del, map_append] at hdel ⊢
  refine nodup_append.2 ⟨hdel, nodup_singleton _, ?_⟩
  rintro a ha b hb rfl
  obtain rfl := mem_singleton.1 hb
  obtain ⟨e, he, hek⟩ := mem_map.1 ha
  have := (mem_filter.1 he).2
  simp [hek] at this

theorem mem_del {e : String × V} (h : e ∈ m.del k) : e ∈ m :=
  (mem_filter.1 h).1

theorem mem_put {v : V} {e : String × V} (h : e ∈ m.put k v) : e ∈ m ∨ e = (k, v) := by
  rcases mem_append.1 h with h | h
  · exact Or.inl (mem_filter.1 h).1
  · exact Or.inr (mem_singleton.1 h)

/-- A new key is put at the end. -/
theorem put_of_not_mem (h : k ∉ m.map Prod.fst) (v : V) : m.put k v = m ++ [(k, v)] := by
  rw [put, filter_eq_self.2]
  intro e he
  have : e.1 ≠ k := fun hk => h (hk ▸ mem_map_of_mem he)
  simpa using this

end KeyMap

/-! ### Operations on pieces -/

/-- The context of the param overrides in pieces. -/
structure OriginContext (C : Type) where
  facts : C
  requestHeaders : HeaderMap
  headerOverride : KeyMap Pieces

variable {B C : Type}

/-- The context with its texts. -/
def OriginContext.erase (context : OriginContext C) : OverrideContext C where
  facts := context.facts
  requestHeaders := context.requestHeaders
  headerOverride := context.headerOverride.mapValues textOf

/-- What an operation sets a header to. -/
inductive OriginValue where
  /-- A value of the configuration, or one read from the body of the client. -/
  | value (origin : TextOrigin) (v : ConfigValue)
  /-- The value of another header. -/
  | pieces (ps : Pieces)

/-- The value with its text. -/
def OriginValue.erase : OriginValue → ConfigValue
  | .value _ v => v
  | .pieces ps => .text (textOf ps)

/-- `getHeaderValueFromContext` in pieces. -/
def getPieces (context : OriginContext C) (headerName : String) : Option Pieces :=
  let headerName := normalizeHeaderContextKey headerName
  if headerName = "" then none
  else
    match context.headerOverride.get headerName with
    | some ps =>
      if trimSpace (textOf ps) = "" then
        (textIn context.requestHeaders headerName).map fun v => [⟨.client, v⟩]
      else some ps
    | none => (textIn context.requestHeaders headerName).map fun v => [⟨.client, v⟩]

/-- The tokens of a value: each has the origin of the piece it stands in. -/
def tokenPieces (ps : Pieces) : Pieces :=
  ps.flatMap fun p => (commaTokens p.text).map (Piece.mk p.origin)

/-- `lo.Uniq` in pieces: the first of several equal texts stays. -/
def uniqPiecesFrom (seen : List String) : Pieces → Pieces
  | [] => []
  | p :: ps =>
    if p.text ∈ seen then uniqPiecesFrom seen ps else p :: uniqPiecesFrom (p.text :: seen) ps

/-- The loop over the source tokens of `resolveHeaderOverrideValueByMapping` in pieces. -/
def mapTokenPieces (origin : TextOrigin) (mapping : KeyMap ConfigValue) :
    Pieces → Except OverrideError Pieces
  | [] => .ok []
  | p :: ps =>
    match replacementOf mapping p.text with
    | none =>
      match mapTokenPieces origin mapping ps with
      | .error e => .error e
      | .ok rest => .ok (p :: rest)
    | some replacement =>
      match parseHeaderReplacementTokens replacement with
      | .error e => .error e
      | .ok replaced =>
        match mapTokenPieces origin mapping ps with
        | .error e => .error e
        | .ok rest => .ok (replaced.map (Piece.mk origin) ++ rest)

/-- `resolveHeaderOverrideValueByMapping` in pieces. -/
def resolvePiecesByMapping (context : OriginContext C) (headerName : String) (origin : TextOrigin)
    (mapping : KeyMap ConfigValue) : Except OverrideError (Option Pieces) :=
  if mapping = [] then .error (.text "header value mapping cannot be empty")
  else
    match parseHeaderAppendTokens mapping with
    | .error e => .error e
    | .ok appendTokens =>
      match mapTokenPieces origin mapping
          (((getPieces context headerName).map tokenPieces).getD []) with
      | .error e => .error e
      | .ok tokens =>
        let result := uniqPiecesFrom [] (tokens ++ appendTokens.map (Piece.mk origin))
        .ok (if result = [] then none else some result)

/-- `resolveHeaderOverrideValue` in pieces. -/
def resolvePieces (context : OriginContext C) (headerName : String) :
    OriginValue → Except OverrideError (Option Pieces)
  | .pieces ps => .ok (if textOf ps = "" then none else some ps)
  | .value _ .null => .error (.text "header value is required")
  | .value origin (.object mapping) => resolvePiecesByMapping context headerName origin mapping
  | .value origin v =>
    let headerValue := trimSpace v.sprint
    .ok (if headerValue = "" then none else some [⟨origin, headerValue⟩])

/-- `setHeaderOverrideInContext` in pieces. -/
def setPieces (context : OriginContext C) (headerName : String) (value : OriginValue)
    (keepOrigin : Bool) : Except OverrideError (OriginContext C) :=
  let headerName := normalizeHeaderContextKey headerName
  if headerName = "" then .error (.text "header name is required")
  else if keepOrigin ∧
      (textIn (context.headerOverride.mapValues textOf) headerName).isSome then .ok context
  else
    match resolvePieces context headerName value with
    | .error e => .error e
    | .ok none => .ok { context with headerOverride := context.headerOverride.del headerName }
    | .ok (some ps) =>
      .ok { context with headerOverride := context.headerOverride.put headerName ps }

/-- `copyHeaderInContext` in pieces. -/
def copyPieces (context : OriginContext C) (fromHeader toHeader : String) (keepOrigin : Bool) :
    Except OverrideError (OriginContext C) :=
  let fromHeader := normalizeHeaderContextKey fromHeader
  let toHeader := normalizeHeaderContextKey toHeader
  if fromHeader = "" ∨ toHeader = "" then .error (.text "copy_header from/to is required")
  else
    match getPieces context fromHeader with
    | none => .error (.sourceHeaderNotFound fromHeader)
    | some ps => setPieces context toHeader (.pieces ps) keepOrigin

/-- `deleteHeaderOverrideInContext` in pieces. -/
def deletePieces (context : OriginContext C) (headerName : String) :
    Except OverrideError (OriginContext C) :=
  let headerName := normalizeHeaderContextKey headerName
  if headerName = "" then .error (.text "header name is required")
  else .ok { context with headerOverride := context.headerOverride.del headerName }

/-- `moveHeaderInContext` in pieces. -/
def movePieces (context : OriginContext C) (fromHeader toHeader : String) (keepOrigin : Bool) :
    Except OverrideError (OriginContext C) :=
  let fromHeader := normalizeHeaderContextKey fromHeader
  let toHeader := normalizeHeaderContextKey toHeader
  if fromHeader = "" ∨ toHeader = "" then .error (.text "move_header from/to is required")
  else
    match copyPieces context fromHeader toHeader keepOrigin with
    | .error e => .error e
    | .ok context =>
      if fromHeader = toHeader then .ok context else deletePieces context fromHeader

/-- The loop of `pass_headers` in pieces. -/
def passPieces (keepOrigin : Bool) : OriginContext C → List String →
    Except OverrideError (OriginContext C)
  | context, [] => .ok context
  | context, headerName :: headerNames =>
    match copyPieces context headerName headerName keepOrigin with
    | .error (.sourceHeaderNotFound _) => passPieces keepOrigin context headerNames
    | .error e => .error e
    | .ok context => passPieces keepOrigin context headerNames

variable (tools : BodyTools B C)

/-- `readSyncTargetValue` in pieces: the body is the client's. -/
def readSyncPieces (data : B) (context : OriginContext C) : SyncTarget → Option OriginValue
  | .json key =>
    (readSyncTargetValue tools data context.erase (.json key)).map (.value .client)
  | .header key => (getPieces context key).map .pieces

/-- `writeSyncTargetValue` in pieces. -/
def writeSyncPieces (data : B) (context : OriginContext C)
    (target : SyncTarget) (value : OriginValue) : Except OverrideError (B × OriginContext C) :=
  match target with
  | .json key =>
    match tools.write data key value.erase with
    | .error e => .error e
    | .ok data => .ok (data, context)
  | .header key =>
    match setPieces context key value false with
    | .error e => .error e
    | .ok context => .ok (data, context)

/-- `syncFieldsBetweenTargets` in pieces. -/
def syncPieces (data : B) (context : OriginContext C)
    (fromSpec toSpec : String) : Except OverrideError (B × OriginContext C) :=
  match parseSyncTarget fromSpec with
  | .error e => .error e
  | .ok fromTarget =>
    match parseSyncTarget toSpec with
    | .error e => .error e
    | .ok toTarget =>
      match readSyncPieces tools data context fromTarget,
          readSyncPieces tools data context toTarget with
      | some value, none => writeSyncPieces tools data context toTarget value
      | none, some value => writeSyncPieces tools data context fromTarget value
      | _, _ => .ok (data, context)

/-- What the mode of an operation does, in pieces. -/
def runPieces (op : ParamOperation) (data : B)
    (context : OriginContext C) : Except OverrideError (B × OriginContext C) :=
  if op.mode = "set_header" then
    match setPieces context op.path (.value .configured op.value) op.keepOrigin with
    | .error e => .error (.operation op.mode e)
    | .ok context => .ok (data, context)
  else if op.mode = "delete_header" then
    match deletePieces context op.path with
    | .error e => .error (.operation op.mode e)
    | .ok context => .ok (data, context)
  else if op.mode = "copy_header" then
    match copyPieces context op.ends.1 op.ends.2 op.keepOrigin with
    | .error (.sourceHeaderNotFound _) => .ok (data, context)
    | .error e => .error (.operation op.mode e)
    | .ok context => .ok (data, context)
  else if op.mode = "move_header" then
    match movePieces context op.ends.1 op.ends.2 op.keepOrigin with
    | .error (.sourceHeaderNotFound _) => .ok (data, context)
    | .error e => .error (.operation op.mode e)
    | .ok context => .ok (data, context)
  else if op.mode = "pass_headers" then
    match tools.passNames op.value with
    | .error e => .error e
    | .ok headerNames =>
      match passPieces op.keepOrigin context headerNames with
      | .error e => .error (.operation op.mode e)
      | .ok context => .ok (data, context)
  else if op.mode = "sync_fields" then
    match syncPieces tools data context op.source op.target with
    | .error e => .error (.operation op.mode e)
    | .ok acc => .ok acc
  else
    match tools.operate data context.erase op with
    | .error e => .error e
    | .ok data => .ok (data, context)

/-! ### Pieces and texts -/

/-- What holds of the map of header overrides throughout: normalized keys, each once, and texts with
nothing to trim, empty only under the key of a passthrough rule. -/
structure OriginContext.Wf (context : OriginContext C) : Prop where
  keyed : context.headerOverride.Keyed
  key : ∀ e ∈ context.headerOverride, e.1 ≠ "" ∧ normalizeHeaderContextKey e.1 = e.1
  value : ∀ e ∈ context.headerOverride, GoodText (textOf e.2) ∨
    textOf e.2 = "" ∧ isHeaderPassthroughRuleKeyForOverride e.1 = true

/-- A value that can be put into the map. -/
def OriginValue.Good : OriginValue → Prop
  | .value _ _ => True
  | .pieces ps => GoodText (textOf ps)

theorem normalize_normalize (key : String) :
    normalizeHeaderContextKey (normalizeHeaderContextKey key) = normalizeHeaderContextKey key := by
  have hlower : toLower (trimSpace (toLower key)) = trimSpace (toLower key) := by
    have hsub : ∀ c ∈ (trimSpace (toLower key)).toList, lowerChar c = c := by
      intro c hc
      have hmem : c ∈ (toLower key).toList := by
        unfold trimSpace at hc
        rw [toList_ofList, mem_reverse] at hc
        have h1 := (dropWhile_sublist _).subset hc
        exact (dropWhile_sublist _).subset (mem_reverse.1 h1)
      unfold toLower at hmem
      rw [toList_ofList] at hmem
      obtain ⟨d, -, rfl⟩ := mem_map.1 hmem
      exact lowerChar_lowerChar d
    rw [toLower, map_congr_left hsub, map_id', ofList_toList]
  unfold normalizeHeaderContextKey
  rw [hlower, trimSpace_trimSpace]

theorem goodText_textIn {m : HeaderMap} {v : String} (h : textIn m k = some v) : GoodText v := by
  unfold textIn at h
  split at h
  · exact absurd h (by simp)
  · split_ifs at h with hne
    cases h
    exact goodText_trimSpace hne

variable {context : OriginContext C} {ps : Pieces}

/-- A text that is found has nothing to trim. -/
theorem getPieces_good (hw : context.Wf)
    (h : getPieces context name = some ps) : GoodText (textOf ps) := by
  have hclient : ∀ {k : String}, (textIn context.requestHeaders k).map
      (fun v => ([⟨.client, v⟩] : Pieces)) = some ps → GoodText (textOf ps) := by
    intro k hk
    obtain ⟨v, hv, rfl⟩ := Option.map_eq_some_iff.1 hk
    simpa using goodText_textIn hv
  simp only [getPieces] at h
  split_ifs at h
  split at h
  · rename_i found hfound
    split_ifs at h with hblank
    · exact hclient h
    · cases h
      rcases hw.value _ (KeyMap.mem_of_get hfound) with hgood | ⟨hempty, -⟩
      · exact hgood
      · exact absurd (by rw [hempty]; decide) hblank
  · exact hclient h

theorem getPieces_erase (hw : context.Wf) (name : String) :
    getHeaderValueFromContext context.erase name = (getPieces context name).map textOf := by
  simp only [getHeaderValueFromContext, getPieces, OriginContext.erase]
  split_ifs
  · rfl
  have hclient : ∀ k, textIn context.requestHeaders k =
      ((textIn context.requestHeaders k).map fun v => ([⟨.client, v⟩] : Pieces)).map textOf := by
    intro k
    cases textIn context.requestHeaders k <;> simp
  simp only [textIn.eq_def (context.headerOverride.mapValues textOf), KeyMap.get_mapValues]
  cases hfound : context.headerOverride.get (normalizeHeaderContextKey name) with
  | none => exact hclient _
  | some ps =>
    simp only [Option.map_some]
    split_ifs with hblank
    · exact hclient _
    · rcases hw.value _ (KeyMap.mem_of_get hfound) with hgood | ⟨hempty, -⟩
      · simp [hgood.trim]
      · exact absurd (by rw [hempty]; decide) hblank

theorem tokenPieces_text (ps : Pieces) :
    (tokenPieces ps).map Piece.text = commaTokens (textOf ps) := by
  rw [textOf, commaTokens_joinComma, tokenPieces, map_flatMap, flatMap_map]
  simp [Function.comp_def]

theorem uniqPiecesFrom_text (seen : List String) (ps : Pieces) :
    (uniqPiecesFrom seen ps).map Piece.text = uniqFrom seen (ps.map Piece.text) := by
  induction ps generalizing seen with
  | nil => rfl
  | cons p ps ih =>
    simp only [uniqPiecesFrom, map_cons, uniqFrom]
    split_ifs
    · exact ih seen
    · rw [map_cons, ih]

theorem mapTokenPieces_text (origin : TextOrigin) (mapping : KeyMap ConfigValue) (ps : Pieces) :
    mapTokens mapping (ps.map Piece.text) =
      (mapTokenPieces origin mapping ps).map (List.map Piece.text) := by
  induction ps with
  | nil => rfl
  | cons p ps ih =>
    simp only [map_cons, mapTokens, mapTokenPieces, ih]
    cases replacementOf mapping p.text with
    | none => cases mapTokenPieces origin mapping ps <;> rfl
    | some replacement =>
      dsimp only
      cases parseHeaderReplacementTokens replacement with
      | error e => rfl
      | ok replaced =>
        dsimp only
        cases mapTokenPieces origin mapping ps with
        | error e => rfl
        | ok rest => simp [Except.map, Function.comp_def]

variable {mapping : KeyMap ConfigValue}

theorem mapTokenPieces_good {origin : TextOrigin} {out : Pieces}
    (hps : ∀ p ∈ ps, GoodText p.text) (h : mapTokenPieces origin mapping ps = .ok out) :
    ∀ p ∈ out, GoodText p.text := by
  induction ps generalizing out with
  | nil =>
    obtain rfl := ok.inj h
    exact fun p hp => absurd hp not_mem_nil
  | cons p ps ih =>
    simp only [mapTokenPieces] at h
    have hrest := fun q hq => hps q (mem_cons_of_mem p hq)
    cases hr : replacementOf mapping p.text with
    | none =>
      rcases hm : mapTokenPieces origin mapping ps with _ | rest
      · simp [hr, hm] at h
      simp only [hr, hm] at h
      obtain rfl := ok.inj h
      exact forall_mem_cons.2 ⟨hps p mem_cons_self, ih hrest hm⟩
    | some replacement =>
      rcases ht : parseHeaderReplacementTokens replacement with _ | replaced
      · simp [hr, ht] at h
      rcases hm : mapTokenPieces origin mapping ps with _ | rest
      · simp [hr, ht, hm] at h
      simp only [hr, ht, hm] at h
      obtain rfl := ok.inj h
      intro q hq
      rcases mem_append.1 hq with hq | hq
      · obtain ⟨t, htok, rfl⟩ := mem_map.1 hq
        exact goodText_of_mem_replacement ht t htok
      · exact ih hrest hm q hq

theorem mem_uniqPiecesFrom {seen : List String} {p : Piece}
    (h : p ∈ uniqPiecesFrom seen ps) : p ∈ ps := by
  induction ps generalizing seen with
  | nil => exact h
  | cons q ps ih =>
    unfold uniqPiecesFrom at h
    split_ifs at h
    · exact mem_cons_of_mem q (ih h)
    · rcases mem_cons.1 h with rfl | h
      · exact mem_cons_self
      · exact mem_cons_of_mem q (ih h)

theorem tokenPieces_good (ps : Pieces) : ∀ p ∈ tokenPieces ps, GoodText p.text := by
  intro p hp
  obtain ⟨q, -, hq⟩ := mem_flatMap.1 hp
  obtain ⟨t, ht, rfl⟩ := mem_map.1 hq
  exact goodText_of_mem_commaTokens ht

theorem appendTokens_good {tokens : List String}
    (h : parseHeaderAppendTokens mapping = .ok tokens) : ∀ t ∈ tokens, GoodText t := by
  unfold parseHeaderAppendTokens at h
  split at h
  · obtain rfl := ok.inj h
    exact fun t ht => absurd ht not_mem_nil
  · exact goodText_of_mem_replacement h

theorem resolvePiecesByMapping_erase (hw : context.Wf) (name : String)
    (origin : TextOrigin) (mapping : KeyMap ConfigValue) :
    resolveHeaderOverrideValueByMapping context.erase name mapping =
      (resolvePiecesByMapping context name origin mapping).map (Option.map textOf) := by
  simp only [resolveHeaderOverrideValueByMapping, resolvePiecesByMapping]
  split_ifs
  · rfl
  cases parseHeaderAppendTokens mapping with
  | error e => rfl
  | ok appendTokens =>
    have hsource : ((getHeaderValueFromContext context.erase name).map commaTokens).getD [] =
        (((getPieces context name).map tokenPieces).getD []).map Piece.text := by
      rw [getPieces_erase hw]
      cases getPieces context name with
      | none => rfl
      | some ps => exact (tokenPieces_text ps).symm
    simp only [hsource, mapTokenPieces_text origin]
    cases mapTokenPieces origin mapping (((getPieces context name).map tokenPieces).getD []) with
    | error e => rfl
    | ok tokens =>
      have huniq := uniqPiecesFrom_text [] (tokens ++ appendTokens.map (Piece.mk origin))
      have hmap : (tokens ++ appendTokens.map (Piece.mk origin)).map Piece.text =
          tokens.map Piece.text ++ appendTokens := by
        simp [Function.comp_def]
      rw [hmap] at huniq
      simp only [Except.map, uniq, ← huniq, map_eq_nil_iff]
      split_ifs
      · rfl
      · rfl

theorem resolvePiecesByMapping_good {origin : TextOrigin}
    (h : resolvePiecesByMapping context name origin mapping = .ok (some ps)) :
    GoodText (textOf ps) := by
  simp only [resolvePiecesByMapping] at h
  split_ifs at h
  rcases ha : parseHeaderAppendTokens mapping with _ | appendTokens
  · simp [ha] at h
  rcases hm : mapTokenPieces origin mapping
      (((getPieces context name).map tokenPieces).getD []) with _ | tokens
  · simp [ha, hm] at h
  simp only [ha, hm] at h
  have h := ok.inj h
  split_ifs at h with hne
  cases h
  refine goodText_joinComma (by simpa using hne) fun t ht => ?_
  obtain ⟨p, hp, rfl⟩ := mem_map.1 ht
  have hsource : ∀ q ∈ ((getPieces context name).map tokenPieces).getD [],
      GoodText q.text := by
    cases getPieces context name with
    | none => exact fun q hq => absurd hq not_mem_nil
    | some ps => exact tokenPieces_good ps
  rcases mem_append.1 (mem_uniqPiecesFrom hp) with hp | hp
  · exact mapTokenPieces_good hsource hm p hp
  · obtain ⟨t, htok, rfl⟩ := mem_map.1 hp
    exact appendTokens_good ha t htok

variable {value : OriginValue}

theorem resolvePieces_erase (hw : context.Wf) (name : String) (hv : value.Good) :
    resolveHeaderOverrideValue context.erase name value.erase =
      (resolvePieces context name value).map (Option.map textOf) := by
  cases value with
  | pieces ps =>
    simp only [OriginValue.erase, resolveHeaderOverrideValue, resolvePieces, ConfigValue.sprint,
      GoodText.trim hv, Except.map]
    split_ifs <;> rfl
  | value origin v =>
    cases v with
    | null => rfl
    | object mapping => exact resolvePiecesByMapping_erase hw name origin mapping
    | bool | number | text | list =>
      simp only [OriginValue.erase, resolveHeaderOverrideValue, resolvePieces, Except.map]
      split_ifs <;> simp

theorem resolvePieces_good
    (hv : value.Good) (h : resolvePieces context name value = .ok (some ps)) :
    GoodText (textOf ps) := by
  have hplain : ∀ {origin : TextOrigin} {shown : String},
      (if trimSpace shown = "" then none else some ([⟨origin, trimSpace shown⟩] : Pieces)) = some ps →
      GoodText (textOf ps) := by
    intro origin shown h
    split_ifs at h with hne
    cases h
    simpa using goodText_trimSpace hne
  cases value with
  | pieces found =>
    have h := ok.inj h
    split_ifs at h
    cases h
    exact hv
  | value origin v =>
    cases v with
    | null => simp [resolvePieces] at h
    | object mapping =>
      have hmapping : resolvePiecesByMapping context name origin mapping = .ok (some ps) := h
      exact resolvePiecesByMapping_good hmapping
    | bool | number | text | list =>
      simp only [resolvePieces] at h
      exact hplain (ok.inj h)

/-! ### Operations keep the map -/

section

variable (hw : context.Wf)
include hw

theorem OriginContext.Wf.del (k : String) :
    OriginContext.Wf { context with headerOverride := context.headerOverride.del k } where
  keyed := hw.keyed.del k
  key e he := hw.key e (KeyMap.mem_del he)
  value e he := hw.value e (KeyMap.mem_del he)

theorem OriginContext.Wf.put
    (hk : k ≠ "" ∧ normalizeHeaderContextKey k = k) (hps : GoodText (textOf ps)) :
    OriginContext.Wf { context with headerOverride := context.headerOverride.put k ps } where
  keyed := hw.keyed.put k ps
  key e he := by
    rcases KeyMap.mem_put he with he | rfl
    · exact hw.key e he
    · exact hk
  value e he := by
    rcases KeyMap.mem_put he with he | rfl
    · exact hw.value e he
    · exact Or.inl hps

/-- What an operation on pieces is to one on texts: the same result text by text, of a context that
is again in order. -/
def Erases (texts : Except OverrideError (OverrideContext C))
    (pieces : Except OverrideError (OriginContext C)) : Prop :=
  texts = pieces.map OriginContext.erase ∧ ∀ context, pieces = .ok context → context.Wf

/-- **Setting a header.** -/
theorem setPieces_erase (name : String) (hv : value.Good) (keepOrigin : Bool) :
    Erases (setHeaderOverrideInContext context.erase name value.erase keepOrigin)
      (setPieces context name value keepOrigin) := by
  simp only [setHeaderOverrideInContext, setPieces, resolvePieces_erase hw _ hv]
  by_cases hname : normalizeHeaderContextKey name = ""
  · simp only [if_pos hname]
    exact ⟨rfl, fun _ h => absurd h (by simp)⟩
  simp only [if_neg hname]
  have hmap : context.erase.headerOverride = context.headerOverride.mapValues textOf := rfl
  rw [hmap]
  by_cases hkeep : keepOrigin = true ∧
      (textIn (context.headerOverride.mapValues textOf) (normalizeHeaderContextKey name)).isSome
  · simp only [if_pos hkeep]
    exact ⟨rfl, fun c h => ok.inj h ▸ hw⟩
  simp only [if_neg hkeep]
  cases hr : resolvePieces context (normalizeHeaderContextKey name) value with
  | error e => exact ⟨rfl, fun _ h => absurd h (by simp)⟩
  | ok found =>
    cases found with
    | none =>
      refine ⟨?_, fun c h => ok.inj h ▸ hw.del _⟩
      simp [Except.map, OriginContext.erase, KeyMap.mapValues_del]
    | some ps =>
      refine ⟨?_, fun c h => ok.inj h ▸
        hw.put ⟨hname, normalize_normalize name⟩ (resolvePieces_good hv hr)⟩
      simp [Except.map, OriginContext.erase, KeyMap.mapValues_put]

/-- **Copying a header.** -/
theorem copyPieces_erase (fromHeader toHeader : String) (keepOrigin : Bool) :
    Erases (copyHeaderInContext context.erase fromHeader toHeader keepOrigin)
      (copyPieces context fromHeader toHeader keepOrigin) := by
  simp only [copyHeaderInContext, copyPieces, getPieces_erase hw]
  split_ifs
  · exact ⟨rfl, fun _ h => absurd h (by simp)⟩
  cases hg : getPieces context (normalizeHeaderContextKey fromHeader) with
  | none => exact ⟨rfl, fun _ h => absurd h (by simp)⟩
  | some ps =>
    have hgood : (OriginValue.pieces ps).Good := getPieces_good hw hg
    exact setPieces_erase hw _ hgood keepOrigin

theorem deletePieces_erase (name : String) :
    Erases (deleteHeaderOverrideInContext context.erase name) (deletePieces context name) := by
  simp only [deleteHeaderOverrideInContext, deletePieces]
  split_ifs
  · exact ⟨rfl, fun _ h => absurd h (by simp)⟩
  · refine ⟨?_, fun c h => ok.inj h ▸ hw.del _⟩
    simp [Except.map, OriginContext.erase, KeyMap.mapValues_del]

theorem movePieces_erase (fromHeader toHeader : String) (keepOrigin : Bool) :
    Erases (moveHeaderInContext context.erase fromHeader toHeader keepOrigin)
      (movePieces context fromHeader toHeader keepOrigin) := by
  simp only [moveHeaderInContext, movePieces]
  by_cases hends : normalizeHeaderContextKey fromHeader = "" ∨ normalizeHeaderContextKey toHeader = ""
  · simp only [if_pos hends]
    exact ⟨rfl, fun _ h => absurd h (by simp)⟩
  simp only [if_neg hends]
  obtain ⟨hcopy, hwf⟩ := copyPieces_erase hw (normalizeHeaderContextKey fromHeader)
    (normalizeHeaderContextKey toHeader) keepOrigin
  rw [hcopy]
  cases hp : copyPieces context (normalizeHeaderContextKey fromHeader)
      (normalizeHeaderContextKey toHeader) keepOrigin with
  | error e => exact ⟨rfl, fun _ h => absurd h (by simp)⟩
  | ok copied =>
    simp only [Except.map]
    split_ifs
    · exact ⟨rfl, fun c h => ok.inj h ▸ hwf copied hp⟩
    · exact deletePieces_erase (hwf copied hp) _

theorem passPieces_erase (keepOrigin : Bool) (headerNames : List String) :
    Erases (passHeaders keepOrigin context.erase headerNames)
      (passPieces keepOrigin context headerNames) := by
  induction headerNames generalizing context with
  | nil => exact ⟨rfl, fun c h => ok.inj h ▸ hw⟩
  | cons name names ih =>
    simp only [passHeaders, passPieces]
    obtain ⟨hcopy, hwf⟩ := copyPieces_erase hw name name keepOrigin
    rw [hcopy]
    cases hp : copyPieces context name name keepOrigin with
    | error e =>
      cases e with
      | sourceHeaderNotFound h =>
        simp only [Except.map]
        exact ih hw
      | text | operation =>
        simp only [Except.map]
        exact ⟨rfl, fun _ h => absurd h (by simp)⟩
    | ok copied =>
      simp only [Except.map]
      exact ih (hwf copied hp)

end

/-! ### Runs of operations -/

/-- The same with the body. -/
def ErasesBoth (texts : Except OverrideError (B × OverrideContext C))
    (pieces : Except OverrideError (B × OriginContext C)) : Prop :=
  texts = pieces.map (fun acc => (acc.1, acc.2.erase)) ∧ ∀ acc, pieces = .ok acc → acc.2.Wf

theorem readSyncPieces_erase (data : B) (hw : context.Wf) (target : SyncTarget) :
    readSyncTargetValue tools data context.erase target =
        (readSyncPieces tools data context target).map OriginValue.erase ∧
      ∀ v, readSyncPieces tools data context target = some v → v.Good := by
  cases target with
  | json key =>
    refine ⟨?_, fun v hv => ?_⟩
    · simp only [readSyncPieces, Option.map_map]
      exact (Option.map_id' ..).symm
    · simp only [readSyncPieces] at hv
      obtain ⟨w, -, rfl⟩ := Option.map_eq_some_iff.1 hv
      exact trivial
  | header key =>
    refine ⟨?_, fun v hv => ?_⟩
    · simp only [readSyncTargetValue, readSyncPieces, getPieces_erase hw, Option.map_map]
      rfl
    · simp only [readSyncPieces] at hv
      obtain ⟨ps, hps, rfl⟩ := Option.map_eq_some_iff.1 hv
      exact getPieces_good hw hps

theorem writeSyncPieces_erase (data : B) (hw : context.Wf) (target : SyncTarget) (hv : value.Good) :
    ErasesBoth (writeSyncTargetValue tools data context.erase target value.erase)
      (writeSyncPieces tools data context target value) := by
  cases target with
  | json key =>
    simp only [writeSyncTargetValue, writeSyncPieces]
    cases tools.write data key value.erase with
    | error e => exact ⟨rfl, fun _ h => absurd h (by simp)⟩
    | ok data => exact ⟨rfl, fun acc h => ok.inj h ▸ hw⟩
  | header key =>
    simp only [writeSyncTargetValue, writeSyncPieces]
    obtain ⟨hset, hwf⟩ := setPieces_erase hw key hv false
    rw [hset]
    cases hp : setPieces context key value false with
    | error e => exact ⟨rfl, fun _ h => absurd h (by simp)⟩
    | ok written => exact ⟨rfl, fun acc h => ok.inj h ▸ hwf written hp⟩

theorem syncPieces_erase (data : B) (hw : context.Wf) (fromSpec toSpec : String) :
    ErasesBoth (syncFieldsBetweenTargets tools data context.erase fromSpec toSpec)
      (syncPieces tools data context fromSpec toSpec) := by
  simp only [syncFieldsBetweenTargets, syncPieces]
  cases parseSyncTarget fromSpec with
  | error e => exact ⟨rfl, fun _ h => absurd h (by simp)⟩
  | ok fromTarget =>
    cases parseSyncTarget toSpec with
    | error e => exact ⟨rfl, fun _ h => absurd h (by simp)⟩
    | ok toTarget =>
      obtain ⟨hfrom, hgoodFrom⟩ := readSyncPieces_erase tools data hw fromTarget
      obtain ⟨hto, hgoodTo⟩ := readSyncPieces_erase tools data hw toTarget
      simp only [hfrom, hto]
      cases hf : readSyncPieces tools data context fromTarget with
      | none =>
        cases ht : readSyncPieces tools data context toTarget with
        | none => exact ⟨rfl, fun acc h => ok.inj h ▸ hw⟩
        | some value => exact writeSyncPieces_erase tools data hw fromTarget (hgoodTo value ht)
      | some value =>
        cases ht : readSyncPieces tools data context toTarget with
        | none => exact writeSyncPieces_erase tools data hw toTarget (hgoodFrom value hf)
        | some other => exact ⟨rfl, fun acc h => ok.inj h ▸ hw⟩

/-- **What a mode does, in pieces and in texts.** -/
theorem runPieces_erase (op : ParamOperation) (data : B) (hw : context.Wf) :
    ErasesBoth (runOperation tools op data context.erase) (runPieces tools op data context) := by
  simp only [runOperation, runPieces]
  split_ifs
  · obtain ⟨hset, hwf⟩ := setPieces_erase hw op.path
      (show (OriginValue.value .configured op.value).Good from trivial) op.keepOrigin
    simp only [OriginValue.erase] at hset
    rw [hset]
    cases hp : setPieces context op.path (.value .configured op.value) op.keepOrigin with
    | error e => exact ⟨rfl, fun _ h => absurd h (by simp)⟩
    | ok done => exact ⟨rfl, fun acc h => ok.inj h ▸ hwf done hp⟩
  · obtain ⟨hdel, hwf⟩ := deletePieces_erase hw op.path
    rw [hdel]
    cases hp : deletePieces context op.path with
    | error e => exact ⟨rfl, fun _ h => absurd h (by simp)⟩
    | ok done => exact ⟨rfl, fun acc h => ok.inj h ▸ hwf done hp⟩
  · obtain ⟨hcopy, hwf⟩ := copyPieces_erase hw op.ends.1 op.ends.2 op.keepOrigin
    rw [hcopy]
    cases hp : copyPieces context op.ends.1 op.ends.2 op.keepOrigin with
    | error e =>
      cases e with
      | sourceHeaderNotFound h => exact ⟨rfl, fun acc h => ok.inj h ▸ hw⟩
      | text | operation => exact ⟨rfl, fun _ h => absurd h (by simp)⟩
    | ok done => exact ⟨rfl, fun acc h => ok.inj h ▸ hwf done hp⟩
  · obtain ⟨hmove, hwf⟩ := movePieces_erase hw op.ends.1 op.ends.2 op.keepOrigin
    rw [hmove]
    cases hp : movePieces context op.ends.1 op.ends.2 op.keepOrigin with
    | error e =>
      cases e with
      | sourceHeaderNotFound h => exact ⟨rfl, fun acc h => ok.inj h ▸ hw⟩
      | text | operation => exact ⟨rfl, fun _ h => absurd h (by simp)⟩
    | ok done => exact ⟨rfl, fun acc h => ok.inj h ▸ hwf done hp⟩
  · cases tools.passNames op.value with
    | error e => exact ⟨rfl, fun _ h => absurd h (by simp)⟩
    | ok names =>
      obtain ⟨hpass, hwf⟩ := passPieces_erase hw op.keepOrigin names
      simp only [hpass]
      cases hp : passPieces op.keepOrigin context names with
      | error e => exact ⟨rfl, fun _ h => absurd h (by simp)⟩
      | ok done => exact ⟨rfl, fun acc h => ok.inj h ▸ hwf done hp⟩
  · obtain ⟨hsync, hwf⟩ := syncPieces_erase tools data hw op.source op.target
    rw [hsync]
    cases hp : syncPieces tools data context op.source op.target with
    | error e => exact ⟨rfl, fun _ h => absurd h (by simp)⟩
    | ok done => exact ⟨rfl, fun acc h => ok.inj h ▸ hwf done hp⟩
  · cases tools.operate data context.erase op with
    | error e => exact ⟨rfl, fun _ h => absurd h (by simp)⟩
    | ok data => exact ⟨rfl, fun acc h => ok.inj h ▸ hw⟩

/-- One turn of the loop of `applyOperations`, in pieces. -/
def applyPieces (acc : B × OriginContext C) (op : ParamOperation) :
    Except OverrideError (B × OriginContext C) :=
  match tools.conditionsHold acc.1 acc.2.erase op with
  | .error e => .error e
  | .ok false => .ok acc
  | .ok true => runPieces tools op acc.1 acc.2

theorem applyPieces_erase {acc : B × OriginContext C} (hw : acc.2.Wf) (op : ParamOperation) :
    ErasesBoth (applyOperation tools (acc.1, acc.2.erase) op) (applyPieces tools acc op) := by
  simp only [applyOperation, applyPieces]
  cases tools.conditionsHold acc.1 acc.2.erase op with
  | error e => exact ⟨rfl, fun _ h => absurd h (by simp)⟩
  | ok holds =>
    cases holds with
    | false => exact ⟨rfl, fun acc h => ok.inj h ▸ hw⟩
    | true => exact runPieces_erase tools op acc.1 hw

theorem foldlM_applyPieces_erase (operations : List ParamOperation)
    {acc : B × OriginContext C} (hw : acc.2.Wf) :
    ErasesBoth (operations.foldlM (applyOperation tools) (acc.1, acc.2.erase))
      (operations.foldlM (applyPieces tools) acc) := by
  induction operations generalizing acc with
  | nil =>
    refine ⟨rfl, fun done h => ?_⟩
    obtain rfl : acc = done := ok.inj h
    exact hw
  | cons op operations ih =>
    obtain ⟨hturn, hwf⟩ := applyPieces_erase tools hw op
    rw [foldlM_cons, foldlM_cons, hturn]
    cases hp : applyPieces tools acc op with
    | error e => exact ⟨rfl, fun _ h => absurd h (by simp [bind, Except.bind])⟩
    | ok next => exact ih (hwf next hp)

end NexusTok
