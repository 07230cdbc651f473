import Mathlib.Algebra.Group.Nat.Defs
import Mathlib.Data.List.Basic
import NexusTok.Machine.Turns
import NexusTok.Store.Document
import NexusTok.Text.Basic

/-!
# Paths of partial arguments

Gemini streams the arguments of a function call as values with JSON paths, such as
`$.items[2]['unit price']`.  `parseGeminiPartialArgPath` reads such a path byte by byte.

* `parseGeminiPartialArgPath` : the scanner, with the accesses to the bytes checked.
* `parseGeminiPartialArgPath_yields` : whatever the text, the scanner ends, no access is outside the
  text, and a path that is accepted is not empty and has no index above the limit.

An access outside a Go string panics (`Fault.panic`), and a scanner that still runs when the fuel is
used up would be `Fault.running`: the theorem rules out both.
-/

namespace NexusTok.Convert.Partial

open Machine List

/-! ### Bytes -/

def bytes (s : String) : List UInt8 := s.toList.flatMap String.utf8EncodeChar

/-- `"`. -/
def doubleQuote : UInt8 := 34

/-- `$`. -/
def dollar : UInt8 := 36

/-- `'`. -/
def singleQuote : UInt8 := 39

/-- `*`. -/
def star : UInt8 := 42

/-- `.`. -/
def dot : UInt8 := 46

/-- `?`. -/
def questionMark : UInt8 := 63

/-- `[`. -/
def leftBracket : UInt8 := 91

/-- `\`. -/
def backslash : UInt8 := 92

/-- `]`. -/
def rightBracket : UInt8 := 93

/-- `0` to `9`. -/
def isDigit (c : UInt8) : Bool := 48 ≤ c && c ≤ 57

/-- What may come of a call besides its result. -/
inductive Fault where
  | panic
  | running
  | failed (message : String)
  deriving DecidableEq

/-- The call returned an error. -/
def Fault.Returned (f : Fault) : Prop := ∃ message, f = .failed message

/-- `fmt.Errorf` around an error. -/
def Fault.wrap (context : String) : Fault → Fault
  | .failed message => .failed (context ++ message)
  | f => f

/-- `path[offset]`. -/
def charAt (path : List UInt8) (offset : ℕ) : Except Fault UInt8 :=
  match path[offset]? with
  | some c => .ok c
  | none => .error .panic

/-- `path[start:stop]`. -/
def slice (path : List UInt8) (start stop : ℕ) : Except Fault (List UInt8) :=
  if start ≤ stop ∧ stop ≤ path.length then .ok ((path.take stop).drop start) else .error .panic

/-! ### The scanner -/

/-- `fmt`'s `%q`, and the JSON decoder on a string literal. -/
structure PathHost where
  quote : List UInt8 → String
  unmarshalString : List UInt8 → Except String (List UInt8)

def maxGeminiPartialArgArrayIndex : ℕ := 4095

/-- `geminiPartialArgPathSegment`: a member or an index. -/
abbrev Segment : Type := Document.Step (List UInt8)

/-- An index is within the limit. -/
def Segment.Bounded : Segment → Prop
  | .member _ => True
  | .index i => i ≤ maxGeminiPartialArgArrayIndex

instance : DecidablePred Segment.Bounded
  | .member _ => inferInstanceAs (Decidable True)
  | .index i => inferInstanceAs (Decidable (i ≤ _))

/-- A turn of `for offset < len(path) && …path[offset]… { offset++ }`. -/
def skipTurn (path : List UInt8) (stay : UInt8 → Bool) (offset : ℕ) : Except Fault (ℕ ⊕ ℕ) :=
  if offset < path.length then do
    let c ← charAt path offset
    if stay c then .ok (.inl (offset + 1)) else .ok (.inr offset)
  else .ok (.inr offset)

/-- The offset behind the bytes that stay in the loop. -/
def skip (path : List UInt8) (stay : UInt8 → Bool) (offset : ℕ) : Except Fault ℕ :=
  turns .running (skipTurn path stay) (path.length + 1) offset

/-- `strings.ReplaceAll` of `"` by `\"`. -/
def escapeDoubleQuotes (raw : List UInt8) : List UInt8 :=
  raw.flatMap fun c => if c = doubleQuote then [backslash, doubleQuote] else [c]

/-- `strings.ReplaceAll` of `\'` by `'`. -/
def unescapeSingleQuotes : List UInt8 → List UInt8
  | [] => []
  | [c] => [c]
  | c :: d :: cs =>
    if c = backslash ∧ d = singleQuote then singleQuote :: unescapeSingleQuotes cs
    else c :: unescapeSingleQuotes (d :: cs)

/-- The JSON literal of a quoted member. -/
def memberLiteral (quote : UInt8) (raw : List UInt8) : Except Fault (List UInt8) :=
  if quote = singleQuote then do
    let inner ← slice raw 1 (raw.length - 1)
    .ok (doubleQuote :: unescapeSingleQuotes (escapeDoubleQuotes inner) ++ [doubleQuote])
  else .ok raw

/-- The JSON decoder on a string literal. -/
def unmarshalString (host : PathHost) (raw : List UInt8) : Except Fault (List UInt8) :=
  match host.unmarshalString raw with
  | .ok member => .ok member
  | .error e => .error (.failed e)

/-- A turn of the loop in `parseGeminiPartialArgMember`. -/
def memberTurn (host : PathHost) (path : List UInt8) (quote : UInt8) (start offset : ℕ) :
    Except Fault (ℕ ⊕ List UInt8 × ℕ) :=
  if offset < path.length then do
    let c ← charAt path offset
    if c = backslash then
      .ok (.inl (offset + 2))
    else if c = quote then do
      let raw ← slice path start (offset + 1)
      let literal ← memberLiteral quote raw
      let member ← unmarshalString host literal
      .ok (.inr (member, offset + 1))
    else
      .ok (.inl (offset + 1))
  else .error (.failed "unterminated quoted member")

/-- `parseGeminiPartialArgMember`: the member and the offset behind it. -/
def parseGeminiPartialArgMember (host : PathHost) (path : List UInt8) (offset : ℕ) :
    Except Fault (List UInt8 × ℕ) := do
  let quote ← charAt path offset
  turns .running (memberTurn host path quote offset) (path.length + 1) (offset + 1)

/-- `strconv.Atoi` of digits. -/
def atoi (host : PathHost) (digits : List UInt8) : Except String ℕ :=
  let n := digits.foldl (fun n d => 10 * n + (d.toNat - 48)) 0
  if n < 2 ^ 63 then .ok n
  else .error ("strconv.Atoi: parsing " ++ host.quote digits ++ ": value out of range")

/-- A member behind a dot: the segment and the offset behind it. -/
def dotSegment (host : PathHost) (jsonPath : String) (path : List UInt8) (start : ℕ) :
    Except Fault (Segment × ℕ) := do
  let offset ← skip path (fun c => c ≠ dot && c ≠ leftBracket) start
  if start = offset then
    .error (.failed ("empty member in Gemini partial argument path " ++
      host.quote (bytes jsonPath)))
  else do
    let member ← slice path start offset
    if member.any fun c => c = rightBracket || c = star || c = questionMark then
      .error (.failed ("unsupported member " ++ host.quote member ++
        " in Gemini partial argument path"))
    else .ok (.member member, offset)

/-- A quoted member in brackets. -/
def quotedSegment (host : PathHost) (jsonPath : String) (path : List UInt8) (start : ℕ) :
    Except Fault (Segment × ℕ) := do
  let (member, offset) ← match parseGeminiPartialArgMember host path start with
    | .ok parsed => .ok parsed
    | .error f => .error (f.wrap ("invalid Gemini partial argument path " ++
        host.quote (bytes jsonPath) ++ ": "))
  let unterminated := Fault.failed ("unterminated member selector in Gemini partial argument path "
    ++ host.quote (bytes jsonPath))
  if offset < path.length then do
    let c ← charAt path offset
    if c = rightBracket then .ok (.member member, offset + 1) else .error unterminated
  else .error unterminated

/-- An index in brackets. -/
def indexSegment (host : PathHost) (jsonPath : String) (path : List UInt8) (start : ℕ) :
    Except Fault (Segment × ℕ) := do
  let offset ← skip path isDigit start
  let unsupported := Fault.failed ("unsupported selector in Gemini partial argument path " ++
    host.quote (bytes jsonPath))
  if start = offset ∨ path.length ≤ offset then .error unsupported
  else do
    let c ← charAt path offset
    if c ≠ rightBracket then .error unsupported
    else do
      let digits ← slice path start offset
      match atoi host digits with
      | .error e => .error (.failed ("invalid array index in Gemini partial argument path " ++
          host.quote (bytes jsonPath) ++ ": " ++ e))
      | .ok index =>
        if index > maxGeminiPartialArgArrayIndex then
          .error (.failed ("array index " ++ toString index ++
            " exceeds Gemini partial argument materialization limit " ++
            toString maxGeminiPartialArgArrayIndex))
        else .ok (.index index, offset + 1)

def bracketSegment (host : PathHost) (jsonPath : String) (path : List UInt8) (offset : ℕ) :
    Except Fault (Segment × ℕ) :=
  if path.length ≤ offset then
    .error (.failed ("unterminated selector in Gemini partial argument path " ++
      host.quote (bytes jsonPath)))
  else do
    let c ← charAt path offset
    if c = singleQuote ∨ c = doubleQuote then quotedSegment host jsonPath path offset
    else indexSegment host jsonPath path offset

/-- The segment at an offset, by its first byte. -/
def segmentAt (host : PathHost) (jsonPath : String) (path : List UInt8) (offset : ℕ) (c : UInt8) :
    Except Fault (Segment × ℕ) :=
  if c = dot then dotSegment host jsonPath path (offset + 1)
  else if c = leftBracket then bracketSegment host jsonPath path (offset + 1)
  else .error (.failed ("unsupported selector at offset " ++ toString offset ++
    " in Gemini partial argument path " ++ host.quote (bytes jsonPath)))

/-- A turn of the loop in `parseGeminiPartialArgPath`. -/
def segmentTurn (host : PathHost) (jsonPath : String) (path : List UInt8)
    (s : ℕ × List Segment) : Except Fault ((ℕ × List Segment) ⊕ List Segment) :=
  if s.1 < path.length then do
    let c ← charAt path s.1
    let scanned ← segmentAt host jsonPath path s.1 c
    .ok (.inl (scanned.2, s.2 ++ [scanned.1]))
  else .ok (.inr s.2)

/-- `parseGeminiPartialArgPath` on the bytes of the trimmed path. -/
def scanPath (host : PathHost) (jsonPath : String) (path : List UInt8) :
    Except Fault (List Segment) :=
  let unsupported := Fault.failed ("unsupported Gemini partial argument path " ++
    host.quote (bytes jsonPath))
  if path = [] then .error unsupported
  else do
    let c ← charAt path 0
    if c ≠ dollar then .error unsupported
    else do
      let segments ← turns .running (segmentTurn host jsonPath path) (path.length + 1) (1, [])
      if segments = [] then
        .error (.failed ("Gemini partial argument path " ++ host.quote (bytes jsonPath) ++
          " targets the arguments root"))
      else .ok segments

def parseGeminiPartialArgPath (host : PathHost) (jsonPath : String) :
    Except Fault (List Segment) :=
  scanPath host jsonPath (bytes (trimSpace jsonPath))

/-! ### The scanner stays in the text -/

variable {path : List UInt8} {host : PathHost} {jsonPath : String}

theorem charAt_yields {offset : ℕ} (h : offset < path.length) :
    Machine.Yields Fault.Returned (fun c => path[offset]? = some c) (charAt path offset) := by
  rw [charAt, getElem?_eq_getElem h]
  rfl

theorem slice_yields {start stop : ℕ} (h : start ≤ stop) (hstop : stop ≤ path.length) :
    Machine.Yields Fault.Returned (fun raw => raw.length = stop - start)
      (slice path start stop) := by
  rw [slice, if_pos ⟨h, hstop⟩, yields_ok, length_drop, length_take,
    Nat.min_eq_left hstop]

theorem failed_returned (message : String) : (Fault.failed message).Returned := ⟨message, rfl⟩

theorem Fault.Returned.wrap {f : Fault} (h : f.Returned) (context : String) :
    (f.wrap context).Returned := by
  obtain ⟨message, rfl⟩ := h
  exact ⟨context ++ message, rfl⟩

/-- A skip ends at an offset in the text, not before where it starts. -/
theorem skip_yields (stay : UInt8 → Bool) {offset : ℕ} (h : offset ≤ path.length) :
    Machine.Yields Fault.Returned (fun next => offset ≤ next ∧ next ≤ path.length)
      (skip path stay offset) := by
  refine turns_yields (I := fun next => offset ≤ next ∧ next ≤ path.length)
    (fun next => path.length - next) ?_ ⟨le_rfl, h⟩ (by omega)
  rintro next ⟨hle, hlen⟩
  rw [skipTurn]
  by_cases hnext : next < path.length
  · rw [if_pos hnext]
    refine (charAt_yields hnext).bind fun c _ => ?_
    by_cases hc : stay c = true
    · rw [if_pos hc]
      exact ⟨⟨by omega, hnext⟩, Nat.sub_lt_sub_left hnext (Nat.lt_succ_self next)⟩
    · rw [if_neg hc]
      exact ⟨hle, hlen⟩
  · rw [if_neg hnext]
    exact ⟨hle, hlen⟩

theorem memberLiteral_yields {quote : UInt8} {raw : List UInt8} (h : 2 ≤ raw.length) :
    Machine.Yields Fault.Returned (fun _ => True) (memberLiteral quote raw) := by
  rw [memberLiteral]
  by_cases hquote : quote = singleQuote
  · rw [if_pos hquote]
    exact (slice_yields (by omega) (by omega)).bind fun _ _ => trivial
  · rw [if_neg hquote]
    trivial

theorem unmarshalString_yields (raw : List UInt8) :
    Machine.Yields Fault.Returned (fun _ => True) (unmarshalString host raw) := by
  unfold unmarshalString
  cases host.unmarshalString raw with
  | ok member => trivial
  | error e => exact failed_returned e

/-- A quoted member ends in the text, behind where it starts.  An escape at the end of the text
takes the offset one byte past it, where the loop ends. -/
theorem parseGeminiPartialArgMember_yields {start : ℕ} (h : start < path.length) :
    Machine.Yields Fault.Returned (fun parsed => start < parsed.2 ∧ parsed.2 ≤ path.length)
      (parseGeminiPartialArgMember host path start) := by
  rw [parseGeminiPartialArgMember]
  refine (charAt_yields h).bind fun quote _ => ?_
  refine turns_yields (I := fun offset => start < offset) (fun offset => path.length + 1 - offset)
    ?_ (Nat.lt_succ_self start) (by omega)
  intro offset hoffset
  rw [memberTurn]
  by_cases hlen : offset < path.length
  · rw [if_pos hlen]
    refine (charAt_yields hlen).bind fun c _ => ?_
    have hfalls : ∀ n, path.length + 1 - (offset + (n + 1)) < path.length + 1 - offset := by omega
    by_cases hescape : c = backslash
    · rw [if_pos hescape]
      exact ⟨by omega, hfalls 1⟩
    · rw [if_neg hescape]
      by_cases hquote : c = quote
      · rw [if_pos hquote]
        refine (slice_yields (by omega) (by omega)).bind fun raw hraw => ?_
        refine (memberLiteral_yields (by omega)).bind fun literal _ => ?_
        exact (unmarshalString_yields literal).bind fun member _ => ⟨by omega, hlen⟩
      · rw [if_neg hquote]
        exact ⟨by omega, hfalls 0⟩
  · rw [if_neg hlen]
    exact failed_returned _

/-- A segment is bounded, and the scanner goes on behind it. -/
def Scanned (path : List UInt8) (start : ℕ) (scanned : Segment × ℕ) : Prop :=
  scanned.1.Bounded ∧ start ≤ scanned.2 ∧ scanned.2 ≤ path.length

theorem dotSegment_yields {start : ℕ} (h : start ≤ path.length) :
    Machine.Yields Fault.Returned (Scanned path start) (dotSegment host jsonPath path start) := by
  rw [dotSegment]
  refine (skip_yields _ h).bind fun offset hoffset => ?_
  by_cases hempty : start = offset
  · rw [if_pos hempty]
    exact failed_returned _
  · rw [if_neg hempty]
    refine (slice_yields hoffset.1 hoffset.2).bind fun member _ => ?_
    cases member.any fun c => c = rightBracket || c = star || c = questionMark with
    | true => exact failed_returned _
    | false => exact ⟨trivial, hoffset⟩

theorem quotedSegment_yields {start : ℕ} (h : start < path.length) :
    Machine.Yields Fault.Returned (Scanned path start)
      (quotedSegment host jsonPath path start) := by
  have hparse : Machine.Yields Fault.Returned
      (fun parsed => start < parsed.2 ∧ parsed.2 ≤ path.length)
      (parseGeminiPartialArgMember host path start) := parseGeminiPartialArgMember_yields h
  rw [quotedSegment]
  cases hmember : parseGeminiPartialArgMember host path start with
  | error f =>
    rw [hmember] at hparse
    exact Fault.Returned.wrap hparse _
  | ok parsed =>
    obtain ⟨member, offset⟩ := parsed
    rw [hmember] at hparse
    obtain ⟨hstart, hlen⟩ : start < offset ∧ offset ≤ path.length := hparse
    change Machine.Yields _ _ (ite _ _ _)
    by_cases hoffset : offset < path.length
    · rw [if_pos hoffset]
      refine (charAt_yields hoffset).bind fun c _ => ?_
      by_cases hc : c = rightBracket
      · rw [if_pos hc]
        exact ⟨trivial, by omega, hoffset⟩
      · rw [if_neg hc]
        exact failed_returned _
    · rw [if_neg hoffset]
      exact failed_returned _

theorem indexSegment_yields {start : ℕ} (h : start ≤ path.length) :
    Machine.Yields Fault.Returned (Scanned path start) (indexSegment host jsonPath path start) := by
  rw [indexSegment]
  refine (skip_yields _ h).bind fun offset hoffset => ?_
  dsimp only
  by_cases hend : start = offset ∨ path.length ≤ offset
  · rw [if_pos hend]
    exact failed_returned _
  · rw [if_neg hend]
    have hlen : offset < path.length := by omega
    refine (charAt_yields hlen).bind fun c _ => ?_
    by_cases hc : c ≠ rightBracket
    · rw [if_pos hc]
      exact failed_returned _
    · rw [if_neg hc]
      refine (slice_yields hoffset.1 hoffset.2).bind fun digits _ => ?_
      cases atoi host digits with
      | error e => exact failed_returned _
      | ok index =>
        dsimp only
        by_cases hindex : index > maxGeminiPartialArgArrayIndex
        · rw [if_pos hindex]
          exact failed_returned _
        · rw [if_neg hindex]
          exact ⟨Nat.le_of_not_lt hindex, by omega, hlen⟩

theorem bracketSegment_yields (start : ℕ) :
    Machine.Yields Fault.Returned (Scanned path start)
      (bracketSegment host jsonPath path start) := by
  rw [bracketSegment]
  by_cases hend : path.length ≤ start
  · rw [if_pos hend]
    exact failed_returned _
  · rw [if_neg hend]
    have hlen : start < path.length := Nat.lt_of_not_le hend
    refine (charAt_yields hlen).bind fun c _ => ?_
    by_cases hc : c = singleQuote ∨ c = doubleQuote
    · rw [if_pos hc]
      exact quotedSegment_yields hlen
    · rw [if_neg hc]
      exact indexSegment_yields hlen.le

/-- The invariant of the scanner. -/
def ScanInvariant (path : List UInt8) (s : ℕ × List Segment) : Prop :=
  s.1 ≤ path.length ∧ ∀ segment ∈ s.2, segment.Bounded

theorem segmentAt_yields {offset : ℕ} (c : UInt8) (h : offset < path.length) :
    Machine.Yields Fault.Returned (Scanned path (offset + 1))
      (segmentAt host jsonPath path offset c) := by
  rw [segmentAt]
  by_cases hdot : c = dot
  · rw [if_pos hdot]
    exact dotSegment_yields h
  · rw [if_neg hdot]
    by_cases hbracket : c = leftBracket
    · rw [if_pos hbracket]
      exact bracketSegment_yields _
    · rw [if_neg hbracket]
      exact failed_returned _

theorem segmentTurn_yields (s : ℕ × List Segment) (hs : ScanInvariant path s) :
    Machine.Yields Fault.Returned
      (TurnKeeps (ScanInvariant path) (fun s => path.length - s.1)
        (fun segments => ∀ segment ∈ segments, segment.Bounded) s)
      (segmentTurn host jsonPath path s) := by
  rw [segmentTurn]
  by_cases hlen : s.1 < path.length
  · rw [if_pos hlen]
    refine (charAt_yields hlen).bind fun c _ => ?_
    refine (segmentAt_yields c hlen).bind fun scanned hscanned => ?_
    obtain ⟨hbounded, hstart, hnext⟩ := hscanned
    refine ⟨⟨hnext, fun segment hmem => ?_⟩, Nat.sub_lt_sub_left hlen hstart⟩
    rcases mem_append.1 hmem with hmem | hmem
    · exact hs.2 segment hmem
    · rw [mem_singleton.1 hmem]
      exact hbounded
  · rw [if_neg hlen]
    exact hs.2

/-- What the scanner gives for a path. -/
def Accepted (segments : List Segment) : Prop :=
  segments ≠ [] ∧ ∀ segment ∈ segments, segment.Bounded

theorem scanPath_yields (path : List UInt8) :
    Machine.Yields Fault.Returned Accepted (scanPath host jsonPath path) := by
  simp only [scanPath]
  by_cases hempty : path = []
  · rw [if_pos hempty]
    exact failed_returned _
  · rw [if_neg hempty]
    have hpos : 1 ≤ path.length := length_pos_of_ne_nil hempty
    refine (charAt_yields hpos).bind fun c _ => ?_
    by_cases hc : c ≠ dollar
    · rw [if_pos hc]
      exact failed_returned _
    · rw [if_neg hc]
      have hstart : ScanInvariant path (1, []) :=
        ⟨hpos, fun segment hmem => absurd hmem not_mem_nil⟩
      refine (turns_yields _ segmentTurn_yields hstart
        (Nat.lt_succ_of_le (Nat.sub_le _ _))).bind fun segments hsegments => ?_
      by_cases hroot : segments = []
      · rw [if_pos hroot]
        exact failed_returned _
      · rw [if_neg hroot]
        exact ⟨hroot, hsegments⟩

/-- **The scanner ends and stays in the text.**  A path that it accepts has a segment, and indexes
within the limit only. -/
theorem parseGeminiPartialArgPath_yields (host : PathHost) (jsonPath : String) :
    Machine.Yields Fault.Returned Accepted (parseGeminiPartialArgPath host jsonPath) :=
  scanPath_yields _

end NexusTok.Convert.Partial
