import Mathlib.Data.List.Pairwise
import Mathlib.Data.Rat.Init
import NexusTok.Convert.GeminiStream
import NexusTok.Convert.PartialPath

/-!
# Arguments collected from partial calls

`appendPartialFunctionCall` collects the arguments of a streamed function call: a partial argument
has a path and a value, a text is appended to the text that is at the path, and any other value
takes the place of what is there.  `setGeminiPartialArgValue` changes the maps and slices of the
arguments in place, so it is a function of the arguments to a result *and* to what is left of them.

* `setGeminiPartialArgValue_refines` : the setter is `Document.put`.
* `setGeminiPartialArgValue_rejected` : **a write that fails leaves the arguments alone**.
* `putPartialArgs_eq_ok_iff`, `putPartialArgs_perm` : a list of partial arguments, in any order.
* `Collects.append` : what the arguments hold, over any run of partial calls.

A partial call is not rejected as a whole: where one of its partial arguments fails, those before it
stay.
-/

namespace NexusTok.Convert.Partial

open Machine Document List Option Function Except

/-! ### Values -/

/-- A value of a partial argument, with `float64` as exact rational numbers. -/
inductive Scalar where
  | null
  | bool (b : Bool)
  | number (x : ℚ)
  | text (s : String)
  deriving DecidableEq

/-- The arguments and their parts: `any` values.  A missing key and a key with `nil` are told apart
by no code here. -/
abbrev Value : Type := Document (List UInt8) Scalar

/-- `fmt`'s `%T`. -/
def typeName : Value → String
  | .leaf .null => "<nil>"
  | .leaf (.bool _) => "bool"
  | .leaf (.number _) => "float64"
  | .leaf (.text _) => "string"
  | .array _ => "[]interface \x7b\x7d"
  | .object _ => "map[string]interface \x7b\x7d"

/-- `make(map[string]interface{})`. -/
def emptyObject : Value := .object fun _ => none

/-- `dto.GeminiPartialArg`.  A null value is the raw JSON of the field. -/
structure PartialArg where
  jsonPath : String
  numberValue : Option ℚ := none
  stringValue : Option String := none
  boolValue : Option Bool := none
  nullValue : Option String := none

/-- `dto.FunctionCall`, as it is streamed. -/
structure FunctionCall where
  id : String := ""
  functionName : String := ""
  partialArgs : List PartialArg := []
  willContinue : Option Bool := none

def geminiPartialArgValue (arg : PartialArg) : Option Scalar :=
  match arg.stringValue, arg.numberValue, arg.boolValue, arg.nullValue with
  | some s, _, _, _ => some (.text s)
  | none, some x, _, _ => some (.number x)
  | none, none, some b, _ => some (.bool b)
  | none, none, none, some _ => some .null
  | none, none, none, none => none

/-! ### The setter -/

/-- The slice that an index leads through. -/
def arrayFor (i : ℕ) : Value → Except Fault (List Value)
  | .leaf .null => .ok (List.replicate (i + 1) (.leaf .null))
  | .array typed =>
    .ok (if typed.length ≤ i then
      typed ++ List.replicate (i - typed.length + 1) (.leaf .null)
    else typed)
  | current => .error (.failed ("array index " ++ toString i ++ " traverses " ++ typeName current))

/-- The map that a member leads through. -/
def objectFor (host : PathHost) (member : List UInt8) :
    Value → Except Fault (List UInt8 → Option Value)
  | .leaf .null => .ok fun _ => none
  | .object typed => .ok typed
  | current =>
    .error (.failed ("member " ++ host.quote member ++ " traverses " ++ typeName current))

/-- `array[i] = value`, as seen through the slice `current`: an index past its end is in a slice
that was grown, which `current` does not see. -/
def storeElement (i : ℕ) (value : Value) : Value → Value
  | .array typed => .array (typed.set i value)
  | current => current

/-- `object[member] = value`, as seen through the map `current`. -/
def storeMember (member : List UInt8) (value : Value) : Value → Value
  | .object typed => .object (Function.update typed member (some value))
  | current => current

/-- The value under a key changed in place, if there is one. -/
def changeMember (member : List UInt8) (value : Value) : Value → Value
  | .object typed =>
    match typed member with
    | some _ => .object (Function.update typed member (some value))
    | none => .object typed
  | current => current

/-- `setGeminiPartialArgValue`: what it returns, and what is left of `current`. -/
def setGeminiPartialArgValue (host : PathHost) (value : Value) (appendString : Bool) :
    List Segment → Value → Except Fault Value × Value
  | [], current =>
    match appendString, current, value with
    | true, .leaf (.text existing), .leaf (.text s) =>
      (.ok (.leaf (.text (existing ++ s))), current)
    | true, .leaf (.text _), _ => (.error .panic, current)
    | _, _, _ => (.ok value, current)
  | .index i :: path, current =>
    match arrayFor i current with
    | .error f => (.error f, current)
    | .ok elements =>
      match elements[i]? with
      | none => (.error .panic, current)
      | some element =>
        match setGeminiPartialArgValue host value appendString path element with
        | (.error f, element) => (.error f, storeElement i element current)
        | (.ok updated, _) =>
          (.ok (.array (elements.set i updated)), storeElement i updated current)
  | .member member :: path, current =>
    match objectFor host member current with
    | .error f => (.error f, current)
    | .ok members =>
      match setGeminiPartialArgValue host value appendString path
        ((members member).getD (.leaf .null)) with
      | (.error f, part) => (.error f, changeMember member part current)
      | (.ok updated, _) =>
        (.ok (.object (Function.update members member (some updated))),
          storeMember member updated current)

/-! ### Partial calls -/

/-- A value put at a path: the outcome, and the arguments. -/
def putValue (host : PathHost) (jsonPath : String) (value : Option Scalar) (appendString : Bool)
    (arguments : Value) : Except Fault Unit × Value :=
  match parseGeminiPartialArgPath host jsonPath with
  | .error f => (.error f, arguments)
  | .ok path =>
    match value with
    | none => (.ok (), arguments)
    | some value =>
      match setGeminiPartialArgValue host (.leaf value) appendString path arguments with
      | (.error f, arguments) =>
        (.error (f.wrap ("set partial argument " ++ host.quote (bytes jsonPath) ++ ": ")),
          arguments)
      | (.ok (.object members), _) => (.ok (), .object members)
      | (.ok _, arguments) =>
        (.error (.failed ("partial argument path " ++ host.quote (bytes jsonPath) ++
          " replaced the arguments object")), arguments)

/-- A turn of the loop over the partial arguments. -/
def putPartialArg (host : PathHost) (arg : PartialArg) (arguments : Value) :
    Except Fault Unit × Value :=
  putValue host arg.jsonPath (geminiPartialArgValue arg) arg.stringValue.isSome arguments

/-- The loop over the partial arguments. -/
def putPartialArgs (host : PathHost) : List PartialArg → Value → Except Fault Unit × Value
  | [], arguments => (.ok (), arguments)
  | arg :: args, arguments =>
    match putPartialArg host arg arguments with
    | (.error f, arguments) => (.error f, arguments)
    | (.ok (), arguments) => putPartialArgs host args arguments

/-- `appendPartialFunctionCall` sees another id or name than before. -/
def changed (current next : String) : Bool := next ≠ "" && current ≠ "" && current ≠ next

variable {R U : Type}

abbrev State (R U : Type) : Type := GeminiToChatStreamState Value R U

/-- The partial call of a candidate, which is made if there is none. -/
def partialOf (s : State R U) (candidateIndex : ℤ) : GeminiPartialToolCall Value :=
  (s.partialTool candidateIndex).getD { arguments := emptyObject }

/-- `appendPartialFunctionCall`: the call if it is complete, or the error, and the state. -/
def appendPartialFunctionCall (host : PathHost) (s : State R U) (candidateIndex : ℤ)
    (call : FunctionCall) : Except Fault (Option (GeminiFunctionCall Value)) × State R U :=
  let current := partialOf s candidateIndex
  let id := trimSpace call.id
  if changed current.id id then
    (.error (.failed ("candidate " ++ toString candidateIndex ++
        " function call changed id from " ++ host.quote (bytes current.id) ++ " to " ++
        host.quote (bytes id))),
      s.setPartialTool candidateIndex current)
  else
    let current := if id ≠ "" then { current with id := id } else current
    let name := trimSpace call.functionName
    if changed current.name name then
      (.error (.failed ("candidate " ++ toString candidateIndex ++
          " function call changed name from " ++ host.quote (bytes current.name) ++ " to " ++
          host.quote (bytes name))),
        s.setPartialTool candidateIndex current)
    else
      let current := if name ≠ "" then { current with name := name } else current
      match putPartialArgs host call.partialArgs current.arguments with
      | (.error f, arguments) =>
        (.error f, s.setPartialTool candidateIndex { current with arguments := arguments })
      | (.ok (), arguments) =>
        let current := { current with arguments := arguments }
        if call.willContinue = some true then
          (.ok none, s.setPartialTool candidateIndex current)
        else if current.name = "" then
          (.error (.failed ("candidate " ++ toString candidateIndex ++
              " completed a partial function call without a name")),
            s.setPartialTool candidateIndex current)
        else
          (.ok (some { id := current.id, functionName := current.name,
                       arguments := some current.arguments }),
            s.deletePartialTool candidateIndex)

/-! ### The setter writes a document -/

/-- What a value makes of the one that is there. -/
def Scalar.onto : Scalar → Scalar → Scalar
  | .text s, .text existing => .text (existing ++ s)
  | value, _ => value

def Scalar.isText : Scalar → Bool
  | .text _ => true
  | _ => false

theorem stringValue_isSome {arg : PartialArg} {value : Scalar}
    (h : geminiPartialArgValue arg = some value) : arg.stringValue.isSome = value.isText := by
  obtain ⟨path, number, string, bool, null⟩ := arg
  unfold geminiPartialArgValue at h
  cases string with
  | some s => obtain rfl := some.inj h; rfl
  | none =>
    cases number with
    | some x => obtain rfl := some.inj h; rfl
    | none =>
      cases bool with
      | some b => obtain rfl := some.inj h; rfl
      | none =>
        cases null with
        | some raw => obtain rfl := some.inj h; rfl
        | none => cases h

/-- The slice is the array that a document gets ready. -/
theorem arrayFor_cases (i : ℕ) (current : Value) :
    (∃ elements, arrayFor i current = .ok elements ∧
      ready .null (.index i) current = some (.array elements) ∧ i < elements.length) ∨
    ∃ message, arrayFor i current = .error (.failed message) ∧
      ready .null (.index i) current = none := by
  cases current with
  | leaf x =>
    cases x with
    | null =>
      refine .inl ⟨_, rfl, ?_, by rw [length_replicate]; exact Nat.lt_succ_self i⟩
      rfl
    | bool | number | text => exact .inr ⟨_, rfl, rfl⟩
  | object members => exact .inr ⟨_, rfl, rfl⟩
  | array typed =>
    refine .inl ⟨pad .null i typed, ?_, rfl, lt_length_pad i typed⟩
    rw [arrayFor, pad]
    by_cases hlen : typed.length ≤ i
    · rw [if_pos hlen, show i + 1 - typed.length = i - typed.length + 1 by omega]
    · rw [if_neg hlen, show i + 1 - typed.length = 0 by omega, replicate_zero, append_nil]

theorem objectFor_cases (host : PathHost) (member : List UInt8) (current : Value) :
    (∃ members, objectFor host member current = .ok members ∧
      ready .null (.member member) current = some (.object members)) ∨
    ∃ message, objectFor host member current = .error (.failed message) ∧
      ready .null (.member member) current = none := by
  cases current with
  | leaf x =>
    cases x with
    | null => exact .inl ⟨_, rfl, rfl⟩
    | bool | number | text => exact .inr ⟨_, rfl, rfl⟩
  | object members => exact .inl ⟨_, rfl, rfl⟩
  | array typed => exact .inr ⟨_, rfl, rfl⟩

/-- **The setter is a write into a document.** -/
theorem setGeminiPartialArgValue_refines (host : PathHost) (value : Scalar) (path : List Segment)
    (current : Value) :
    (∃ e, put .null value.onto path current = some e ∧
      (setGeminiPartialArgValue host (.leaf value) value.isText path current).1 = .ok e) ∨
    (put .null value.onto path current = none ∧ ∃ message,
      (setGeminiPartialArgValue host (.leaf value) value.isText path current).1 =
        .error (.failed message)) := by
  induction path generalizing current with
  | nil =>
    refine .inl ⟨_, rfl, ?_⟩
    cases value with
    | text s =>
      cases current with
      | leaf x => cases x <;> rfl
      | array | object => rfl
    | null | bool | number => rfl
  | cons s path ih =>
    cases s with
    | index i =>
      rw [setGeminiPartialArgValue, put]
      rcases arrayFor_cases i current with ⟨elements, hfor, hready, hlen⟩ | ⟨message, hfor, hready⟩
      · rw [hfor, hready]
        have helement : elements[i]? = some elements[i] := getElem?_eq_getElem hlen
        simp only [child, helement, getD_some]
        have ih := ih elements[i]
        cases hset : setGeminiPartialArgValue host (.leaf value) value.isText path elements[i] with
        | mk result after =>
          rw [hset] at ih
          rcases ih with ⟨e, hput, rfl : result = _⟩ | ⟨hput, message, rfl : result = _⟩
          · rw [hput]
            exact .inl ⟨_, rfl, rfl⟩
          · rw [hput]
            exact .inr ⟨rfl, message, rfl⟩
      · rw [hfor, hready]
        exact .inr ⟨rfl, message, rfl⟩
    | member member =>
      rw [setGeminiPartialArgValue, put]
      rcases objectFor_cases host member current with
        ⟨members, hfor, hready⟩ | ⟨message, hfor, hready⟩
      · rw [hfor, hready]
        simp only [child]
        have ih := ih ((members member).getD (.leaf .null))
        cases hset : setGeminiPartialArgValue host (.leaf value) value.isText path
          ((members member).getD (.leaf .null)) with
        | mk result after =>
          rw [hset] at ih
          rcases ih with ⟨e, hput, rfl : result = _⟩ | ⟨hput, message, rfl : result = _⟩
          · rw [hput]
            exact .inl ⟨_, rfl, rfl⟩
          · rw [hput]
            exact .inr ⟨rfl, message, rfl⟩
      · rw [hfor, hready]
        exact .inr ⟨rfl, message, rfl⟩

variable {current e arguments : Value}

theorem storeElement_self {i : ℕ} {elements : List Value} {element : Value}
    (h : arrayFor i current = .ok elements) (helement : elements[i]? = some element) :
    storeElement i element current = current := by
  cases current with
  | leaf | object => rfl
  | array typed =>
    obtain rfl := ok.inj h
    refine congrArg Document.array (ext_getElem? fun k => ?_)
    by_cases hk : k = i
    · subst hk
      by_cases hlen : k < typed.length
      · rw [if_neg (Nat.not_le_of_lt hlen)] at helement
        rw [getElem?_set_self hlen, helement]
      · rw [set_eq_of_length_le (Nat.le_of_not_lt hlen)]
    · exact getElem?_set_ne (Ne.symm hk)

variable {members : List UInt8 → Option Value}

theorem changeMember_self {host : PathHost} {member : List UInt8}
    (h : objectFor host member current = .ok members) :
    changeMember member ((members member).getD (.leaf .null)) current = current := by
  cases current with
  | leaf | array => rfl
  | object typed =>
    obtain rfl := ok.inj h
    rw [changeMember]
    cases hmember : typed member with
    | none => rfl
    | some value =>
      refine congrArg Document.object ?_
      rw [getD_some, ← hmember]
      exact update_eq_self member typed

/-- **A write that fails leaves what it was to change.** -/
theorem setGeminiPartialArgValue_rejected {host : PathHost} {value : Value} {appendString : Bool}
    {path : List Segment} {after : Value} {f : Fault}
    (h : setGeminiPartialArgValue host value appendString path current = (.error f, after)) :
    after = current := by
  induction path generalizing current after with
  | nil =>
    unfold setGeminiPartialArgValue at h
    split at h
    · cases h
    · exact (Prod.mk.inj h).2.symm
    · cases h
  | cons s path ih =>
    cases s with
    | index i =>
      rw [setGeminiPartialArgValue] at h
      cases hfor : arrayFor i current with
      | error f => rw [hfor] at h; exact (Prod.mk.inj h).2.symm
      | ok elements =>
        rw [hfor] at h
        cases helement : elements[i]? with
        | none => simp only [helement] at h; exact (Prod.mk.inj h).2.symm
        | some element =>
          simp only [helement] at h
          cases hset : setGeminiPartialArgValue host value appendString path element with
          | mk result element' =>
            rw [hset] at h
            cases result with
            | ok updated => cases h
            | error f' =>
              obtain rfl : f' = f := error.inj (Prod.mk.inj h).1
              obtain rfl := ih hset
              rw [← (Prod.mk.inj h).2]
              exact storeElement_self hfor helement
    | member member =>
      rw [setGeminiPartialArgValue] at h
      cases hfor : objectFor host member current with
      | error f => rw [hfor] at h; exact (Prod.mk.inj h).2.symm
      | ok members =>
        rw [hfor] at h
        dsimp only at h
        cases hset : setGeminiPartialArgValue host value appendString path
          ((members member).getD (.leaf .null)) with
        | mk result part =>
          rw [hset] at h
          cases result with
          | ok updated => cases h
          | error f' =>
            obtain rfl : f' = f := error.inj (Prod.mk.inj h).1
            obtain rfl := ih hset
            rw [← (Prod.mk.inj h).2]
            exact changeMember_self hfor

/-! ### Partial arguments -/

/-- The path of a partial argument is accepted. -/
def Readable (host : PathHost) (arg : PartialArg) : Prop :=
  ∃ path, parseGeminiPartialArgPath host arg.jsonPath = .ok path

/-- What a partial argument writes. -/
def writeOf (host : PathHost) (arg : PartialArg) : Option (Write (List UInt8) Scalar) :=
  match parseGeminiPartialArgPath host arg.jsonPath with
  | .ok path => (geminiPartialArgValue arg).map (Write.mk path)
  | .error _ => none

/-- What partial arguments write. -/
def writesOf (host : PathHost) (args : List PartialArg) : List (Write (List UInt8) Scalar) :=
  args.filterMap (writeOf host)

variable {host : PathHost}

theorem writeOf_accepted {arg : PartialArg} {w : Write (List UInt8) Scalar}
    (h : writeOf host arg = some w) : Accepted w.path := by
  have hparse := parseGeminiPartialArgPath_yields host arg.jsonPath
  unfold writeOf at h
  rcases hpath : parseGeminiPartialArgPath host arg.jsonPath with _ | path
  · rw [hpath] at h; cases h
  rw [hpath] at h hparse
  obtain ⟨value, -, rfl⟩ := map_eq_some_iff.1 h
  exact hparse

/-- **What a partial argument does**: it is written, or rejected without a trace. -/
theorem putPartialArg_cases (host : PathHost) (arg : PartialArg)
    (members : List UInt8 → Option Value) :
    (∃ members', putPartialArg host arg (.object members) = (.ok (), .object members') ∧
      Readable host arg ∧ puts .null Scalar.onto (writeOf host arg).toList (.object members) =
        some (.object members')) ∨
    ∃ message, putPartialArg host arg (.object members) =
        (.error (.failed message), .object members) ∧
      (Readable host arg →
        puts .null Scalar.onto (writeOf host arg).toList (.object members) = none) := by
  have hparse := parseGeminiPartialArgPath_yields host arg.jsonPath
  unfold putPartialArg putValue writeOf Readable
  cases hpath : parseGeminiPartialArgPath host arg.jsonPath with
  | error f =>
    rw [hpath] at hparse
    obtain ⟨message, rfl⟩ := hparse
    exact .inr ⟨message, rfl, fun ⟨_, h⟩ => by cases h⟩
  | ok path =>
    rw [hpath] at hparse
    dsimp only
    cases hvalue : geminiPartialArgValue arg with
    | none => exact .inl ⟨members, rfl, ⟨path, rfl⟩, rfl⟩
    | some value =>
      simp only [map_some, toList_some, puts, stringValue_isSome hvalue]
      have hrefines := setGeminiPartialArgValue_refines host value path (.object members)
      cases hset : setGeminiPartialArgValue host (.leaf value) value.isText path
        (.object members) with
      | mk result after =>
        rw [hset] at hrefines
        rcases hrefines with ⟨e, hput, rfl : result = _⟩ | ⟨hput, message, rfl : result = _⟩
        · obtain ⟨members', rfl⟩ := put_object hparse.1 hput
          rw [hput]
          exact .inl ⟨members', rfl, ⟨path, rfl⟩, rfl⟩
        · obtain rfl := setGeminiPartialArgValue_rejected hset
          rw [hput]
          exact .inr ⟨_, rfl, fun _ => rfl⟩

/-- **What a list of partial arguments does**: all are written, or those before the first one that
is rejected. -/
theorem putPartialArgs_cases (host : PathHost) (args : List PartialArg)
    (members : List UInt8 → Option Value) :
    (∃ members', putPartialArgs host args (.object members) = (.ok (), .object members') ∧
      (∀ arg ∈ args, Readable host arg) ∧
      puts .null Scalar.onto (writesOf host args) (.object members) = some (.object members')) ∨
    ∃ message members' accepted rest,
      putPartialArgs host args (.object members) = (.error (.failed message), .object members') ∧
      args = accepted ++ rest ∧
      putPartialArgs host accepted (.object members) = (.ok (), .object members') ∧
      ((∀ arg ∈ args, Readable host arg) →
        puts .null Scalar.onto (writesOf host args) (.object members) = none) := by
  induction args generalizing members with
  | nil => exact .inl ⟨members, rfl, fun _ h => absurd h not_mem_nil, rfl⟩
  | cons arg args ih =>
    have hwrites : writesOf host (arg :: args) =
        (writeOf host arg).toList ++ writesOf host args := by
      unfold writesOf
      cases hwrite : writeOf host arg with
      | none => rw [filterMap_cons_none hwrite]; rfl
      | some w => rw [filterMap_cons_some hwrite]; rfl
    rw [hwrites, puts_append, putPartialArgs]
    rcases putPartialArg_cases host arg members with
      ⟨members₁, harg, hreadable, hputs⟩ | ⟨message, harg, hputs⟩
    · rw [harg, hputs]
      rcases ih members₁ with ⟨members', hargs, hall, hputs'⟩ |
        ⟨message, members', accepted, rest, hargs, rfl, haccepted, hputs'⟩
      · exact .inl ⟨members', hargs, forall_mem_cons.2 ⟨hreadable, hall⟩, hputs'⟩
      · refine .inr ⟨message, members', arg :: accepted, rest, hargs, rfl, ?_, fun h => ?_⟩
        · rw [putPartialArgs, harg]
          exact haccepted
        · exact hputs' (forall_mem_cons.1 h).2
    · rw [harg]
      refine .inr ⟨message, members, [], arg :: args, rfl, rfl, rfl, fun h => ?_⟩
      rw [hputs (h arg mem_cons_self)]
      rfl

variable {args : List PartialArg}

/-- The list is accepted if every path is and the document can be written. -/
theorem putPartialArgs_eq_ok_iff :
    putPartialArgs host args (.object members) = (.ok (), e) ↔
      (∀ arg ∈ args, Readable host arg) ∧
        puts .null Scalar.onto (writesOf host args) (.object members) = some e := by
  rcases putPartialArgs_cases host args members with ⟨members', hargs, hall, hputs⟩ |
    ⟨message, members', accepted, rest, hargs, -, -, hputs⟩
  · rw [hargs, hputs]
    constructor
    · intro h
      exact ⟨hall, congrArg some (Prod.mk.inj h).2⟩
    · rintro ⟨-, h⟩
      rw [some.inj h]
  · rw [hargs]
    constructor
    · intro h
      cases (Prod.mk.inj h).1
    · rintro ⟨hall, h⟩
      rw [hputs hall] at h
      cases h

theorem object_of_putPartialArgs (h : putPartialArgs host args (.object members) = (.ok (), e)) :
    ∃ members', e = .object members' := by
  rcases putPartialArgs_cases host args members with ⟨members', hok, -⟩ | ⟨_, _, _, _, herror, -⟩
  · rw [hok] at h
    exact ⟨members', (Prod.mk.inj h).2.symm⟩
  · rw [herror] at h
    cases (Prod.mk.inj h).1

theorem putPartialArgs_append
    (h : putPartialArgs host args arguments = (.ok (), e)) (args' : List PartialArg) :
    putPartialArgs host (args ++ args') arguments = putPartialArgs host args' e := by
  induction args generalizing arguments with
  | nil => rw [← (Prod.mk.inj h).2]; rfl
  | cons arg args ih =>
    rw [putPartialArgs] at h
    rw [cons_append, putPartialArgs]
    cases harg : putPartialArg host arg arguments with
    | mk outcome after =>
      rw [harg] at h
      cases outcome with
      | error f => cases (Prod.mk.inj h).1
      | ok u => exact ih h

/-- No two partial arguments are written at related paths. -/
def UnrelatedArgs (host : PathHost) (args : List PartialArg) : Prop :=
  (writesOf host args).Pairwise fun w w' => Unrelated w.path w'.path

/-- **The order of unrelated partial arguments does not matter.** -/
theorem putPartialArgs_perm {args' : List PartialArg} (hperm : args.Perm args')
    (hargs : UnrelatedArgs host args)
    (h : putPartialArgs host args (.object members) = (.ok (), e)) :
    putPartialArgs host args' (.object members) = (.ok (), e) := by
  rw [putPartialArgs_eq_ok_iff] at h ⊢
  exact ⟨fun arg harg => h.1 arg (hperm.mem_iff.2 harg),
    puts_perm (hperm.filterMap (writeOf host)) hargs h.2⟩

/-! ### What the arguments hold -/

/-- The text at the front of values, where the last value comes first. -/
def joined : List Scalar → String
  | .text s :: values => joined values ++ s
  | _ => ""

/-- **What values come to**: the last value, or the texts since the last value of another kind. -/
def spelled : List Scalar → Scalar
  | .text s :: values => .text (joined (.text s :: values))
  | value :: _ => value
  | [] => .null

theorem overlay_onto (values : List Scalar) :
    overlay .null Scalar.onto values = spelled values := by
  induction values with
  | nil => rfl
  | cons value values ih =>
    rw [overlay, foldr_cons]
    cases value with
    | null | bool | number => rfl
    | text s =>
      change Scalar.onto (.text s) (overlay .null Scalar.onto values) = _
      rw [ih, spelled, joined]
      have hempty : s = "" ++ s := String.empty_append.symm
      cases values with
      | nil => exact congrArg Scalar.text hempty
      | cons value values =>
        cases value with
        | text existing => rfl
        | null | bool | number => exact congrArg Scalar.text hempty

/-- **What collected arguments are**, given the writes that were accepted, the last one first: an
object, with what was written at each path since the last write above or below it, and no position
above the limit.  A leaf at which nothing was written is a `nil` that fills up an array. -/
structure Collects (arguments : Value) (ws : List (Write (List UInt8) Scalar)) : Prop where
  object : ∃ members, arguments = .object members
  leaf : ∀ q, own q ws ≠ [] → arguments.shape q = .leaf (spelled (own q ws))
  filler : ∀ q x, own q ws = [] → arguments.shape q = .leaf x →
    x = .null ∧ ∃ w ∈ ws, fills w.path q = true
  bounded : ∀ q, arguments.shape q ≠ .absent → ∀ s ∈ q, Segment.Bounded s

theorem collects_empty : Collects emptyObject [] where
  object := ⟨_, rfl⟩
  leaf _ h := absurd rfl h
  filler := (recorded_empty Scalar.null Scalar.onto).unwritten
  bounded := within_empty _

/-- **Accepted partial arguments are collected.** -/
theorem Collects.putPartialArgs {ws : List (Write (List UInt8) Scalar)} (h : Collects arguments ws)
    (hargs : putPartialArgs host args arguments = (.ok (), e)) :
    Collects e ((writesOf host args).reverse ++ ws) := by
  obtain ⟨members, rfl⟩ := h.object
  have hputs := (putPartialArgs_eq_ok_iff.1 hargs).2
  have hrecorded : Recorded .null Scalar.onto (Document.object members) ws :=
    ⟨fun q hq => by rw [overlay_onto]; exact h.leaf q hq, h.filler⟩
  have hrecorded' := hrecorded.puts hputs
  constructor
  · exact object_of_putPartialArgs hargs
  · intro q hq
    rw [← overlay_onto]
    exact hrecorded'.written q hq
  · exact hrecorded'.unwritten
  · have hdown : ∀ i j, j < i → i ≤ maxGeminiPartialArgArrayIndex →
        j ≤ maxGeminiPartialArgArrayIndex := fun i j hij hi => hij.le.trans hi
    refine Within.puts hdown h.bounded ?_ hputs
    intro w hw
    obtain ⟨arg, -, harg⟩ := mem_filterMap.1 hw
    exact (writeOf_accepted harg).2

/-! ### Runs -/

/-- The partial arguments before the first one that is rejected. -/
def acceptedArgs (host : PathHost) : List PartialArg → Value → List PartialArg
  | [], _ => []
  | arg :: args, arguments =>
    match putPartialArg host arg arguments with
    | (.ok (), arguments) => arg :: acceptedArgs host args arguments
    | (.error _, _) => []

/-- The partial arguments of a call that are accepted: none if the call has another id or name. -/
def acceptedOf (host : PathHost) (s : State R U) (candidateIndex : ℤ) (call : FunctionCall) :
    List PartialArg :=
  let current := partialOf s candidateIndex
  if changed current.id (trimSpace call.id) ∨
      changed current.name (trimSpace call.functionName) then []
  else acceptedArgs host call.partialArgs current.arguments

/-- The stream, with the writes that are accepted of each call that is not complete, the last one
first. -/
structure Run (R U : Type) where
  state : State R U
  log : ℤ → List (Write (List UInt8) Scalar)

/-- The writes of a call, behind those before it. -/
def Run.written (host : PathHost) (m : Run R U) (candidateIndex : ℤ) (call : FunctionCall) :
    List (Write (List UInt8) Scalar) :=
  (writesOf host (acceptedOf host m.state candidateIndex call)).reverse ++ m.log candidateIndex

/-- One partial call of a candidate. -/
def Run.append (host : PathHost) (m : Run R U) (e : ℤ × FunctionCall) : Run R U :=
  match appendPartialFunctionCall host m.state e.1 e.2 with
  | (.ok (some _), state) => { state := state, log := Function.update m.log e.1 [] }
  | (_, state) =>
    { state := state, log := Function.update m.log e.1 (m.written host e.1 e.2) }

/-- A stream without partial calls. -/
def Run.start (s : State R U) : Run R U where
  state := { s with partialToolByCandidate := [] }
  log _ := []

/-- The partial calls one after another, rejected ones included. -/
def run (host : PathHost) (s : State R U) (events : List (ℤ × FunctionCall)) : Run R U :=
  events.foldl (Run.append host) (.start s)

theorem acceptedArgs_prefix (args : List PartialArg) (arguments : Value) :
    acceptedArgs host args arguments <+: args := by
  induction args generalizing arguments with
  | nil => exact nil_prefix
  | cons arg args ih =>
    rw [acceptedArgs]
    cases putPartialArg host arg arguments with
    | mk outcome after =>
      cases outcome with
      | error f => exact nil_prefix
      | ok u => exact cons_prefix_cons.2 ⟨rfl, ih after⟩

theorem putPartialArgs_acceptedArgs (args : List PartialArg) (members : List UInt8 → Option Value) :
    putPartialArgs host (acceptedArgs host args (.object members)) (.object members) =
      (.ok (), (putPartialArgs host args (.object members)).2) := by
  induction args generalizing members with
  | nil => rfl
  | cons arg args ih =>
    rw [acceptedArgs, putPartialArgs]
    rcases putPartialArg_cases host arg members with ⟨members', harg, -⟩ | ⟨message, harg, -⟩
    · rw [harg]
      dsimp only
      rw [putPartialArgs, harg]
      exact ih members'
    · rw [harg]
      rfl

theorem acceptedArgs_of_ok (h : putPartialArgs host args arguments = (.ok (), e)) :
    acceptedArgs host args arguments = args := by
  induction args generalizing arguments with
  | nil => rfl
  | cons arg args ih =>
    rw [putPartialArgs] at h
    rw [acceptedArgs]
    cases harg : putPartialArg host arg arguments with
    | mk outcome after =>
      rw [harg] at h
      cases outcome with
      | error f => cases (Prod.mk.inj h).1
      | ok u => exact congrArg (arg :: ·) (ih h)

theorem find?_filter_of_ne {α : Type} {i j : ℤ} (h : j ≠ i) (l : List (ℤ × α)) :
    (l.filter (·.1 != i)).find? (·.1 == j) = l.find? (·.1 == j) := by
  rw [find?_filter]
  refine congrArg (List.find? · l) (funext fun a => ?_)
  by_cases ha : a.1 = j
  · simp [ha, h]
  · simp [ha]

theorem partialOf_setPartialTool (s : State R U) (i j : ℤ) (current : GeminiPartialToolCall Value) :
    partialOf (s.setPartialTool i current) j = if j = i then current else partialOf s j := by
  unfold partialOf GeminiToChatStreamState.partialTool GeminiToChatStreamState.setPartialTool
  by_cases hj : j = i
  · subst hj
    rw [find?_cons_of_pos (by simp), if_pos rfl]
    rfl
  · rw [find?_cons_of_neg (by simpa using Ne.symm hj), find?_filter_of_ne hj, if_neg hj]

theorem partialOf_deletePartialTool (s : State R U) (i j : ℤ) :
    partialOf (s.deletePartialTool i) j =
      if j = i then { arguments := emptyObject } else partialOf s j := by
  unfold partialOf GeminiToChatStreamState.partialTool GeminiToChatStreamState.deletePartialTool
  by_cases hj : j = i
  · subst hj
    have hnone : (s.partialToolByCandidate.filter (·.1 != j)).find? (·.1 == j) = none := by
      refine find?_eq_none.2 fun a ha => ?_
      simpa using (mem_filter.1 ha).2
    rw [hnone, if_pos rfl]
    rfl
  · rw [find?_filter_of_ne hj, if_neg hj]

/-- **What a partial call does**: the accepted arguments are put, whatever becomes of it. -/
theorem appendPartialFunctionCall_cases (host : PathHost) (s : State R U) (i : ℤ)
    (call : FunctionCall) (hobject : (partialOf s i).arguments = .object members) :
    ∃ e, putPartialArgs host (acceptedOf host s i call) (.object members) = (.ok (), e) ∧
      ((∃ message current, current.arguments = e ∧ appendPartialFunctionCall host s i call =
          (.error (.failed message), s.setPartialTool i current)) ∨
        (∃ current, current.arguments = e ∧ acceptedOf host s i call = call.partialArgs ∧
          appendPartialFunctionCall host s i call = (.ok none, s.setPartialTool i current)) ∨
        ∃ completed, completed.arguments = some e ∧ acceptedOf host s i call = call.partialArgs ∧
          appendPartialFunctionCall host s i call =
            (.ok (some completed), s.deletePartialTool i)) := by
  simp only [appendPartialFunctionCall, acceptedOf]
  by_cases hid : changed (partialOf s i).id (trimSpace call.id) = true
  · rw [if_pos (Or.inl hid), if_pos hid]
    exact ⟨.object members, rfl, .inl ⟨_, _, hobject, rfl⟩⟩
  · rw [if_neg hid]
    generalize hcurrent₁ : (if trimSpace call.id ≠ "" then
      { partialOf s i with id := trimSpace call.id } else partialOf s i) = current₁
    have hsame₁ : current₁.name = (partialOf s i).name ∧
        current₁.arguments = (partialOf s i).arguments := by
      rw [← hcurrent₁]
      by_cases hblank : trimSpace call.id ≠ ""
      · rw [if_pos hblank]
        exact ⟨rfl, rfl⟩
      · rw [if_neg hblank]
        exact ⟨rfl, rfl⟩
    rw [hsame₁.1]
    by_cases hname : changed (partialOf s i).name (trimSpace call.functionName) = true
    · rw [if_pos (Or.inr hname), if_pos hname]
      exact ⟨.object members, rfl, .inl ⟨_, _, hsame₁.2.trans hobject, rfl⟩⟩
    · rw [if_neg (not_or.2 ⟨hid, hname⟩), if_neg hname]
      generalize hcurrent₂ : (if trimSpace call.functionName ≠ "" then
        { current₁ with name := trimSpace call.functionName } else current₁) = current₂
      have hsame₂ : current₂.arguments = .object members := by
        rw [← hobject, ← hsame₁.2, ← hcurrent₂]
        by_cases hblank : trimSpace call.functionName ≠ ""
        · rw [if_pos hblank]
        · rw [if_neg hblank]
      rw [hobject, hsame₂]
      refine ⟨_, putPartialArgs_acceptedArgs call.partialArgs members, ?_⟩
      rcases putPartialArgs_cases host call.partialArgs members with ⟨members', hargs, -⟩ |
        ⟨message, members', accepted, rest, hargs, -⟩
      · rw [acceptedArgs_of_ok hargs, hargs]
        dsimp only
        by_cases hcontinue : call.willContinue = some true
        · rw [if_pos hcontinue]
          exact .inr (.inl ⟨_, rfl, rfl, rfl⟩)
        · rw [if_neg hcontinue]
          by_cases hempty : current₂.name = ""
          · rw [if_pos hempty]
            exact .inl ⟨_, _, rfl, rfl⟩
          · rw [if_neg hempty]
            exact .inr (.inr ⟨_, rfl, rfl, rfl⟩)
      · rw [hargs]
        exact .inl ⟨_, _, rfl, rfl⟩

/-! ### What holds in every run -/

/-- The calls of a candidate, as long as they are accepted and not complete. -/
def feed (host : PathHost) (candidateIndex : ℤ) : List FunctionCall → State R U → Option (State R U)
  | [], s => some s
  | call :: calls, s =>
    match appendPartialFunctionCall host s candidateIndex call with
    | (.ok none, s) => feed host candidateIndex calls s
    | _ => none

/-- Every candidate has collected what was accepted. -/
def Run.Collected (m : Run R U) : Prop :=
  ∀ i, Collects (partialOf m.state i).arguments (m.log i)

/-- **A partial call keeps what was collected.** -/
theorem Run.Collected.append {m : Run R U} (h : m.Collected) (e : ℤ × FunctionCall) :
    (m.append host e).Collected := by
  obtain ⟨i, call⟩ := e
  obtain ⟨members, hobject⟩ := (h i).object
  obtain ⟨a, hargs, hcases⟩ := appendPartialFunctionCall_cases host m.state i call hobject
  rw [← hobject] at hargs
  have hcollects : Collects a (m.written host i call) := (h i).putPartialArgs hargs
  intro j
  rcases hcases with ⟨message, current, rfl, hcall⟩ | ⟨current, rfl, -, hcall⟩ |
    ⟨completed, -, -, hcall⟩
  all_goals
    rw [Run.append]
    simp only [hcall, partialOf_setPartialTool, partialOf_deletePartialTool]
    by_cases hj : j = i
  · rw [hj, if_pos rfl, update_self]
    exact hcollects
  · rw [if_neg hj, update_of_ne hj]
    exact h j
  · rw [hj, if_pos rfl, update_self]
    exact hcollects
  · rw [if_neg hj, update_of_ne hj]
    exact h j
  · rw [hj, if_pos rfl, update_self]
    exact collects_empty
  · rw [if_neg hj, update_of_ne hj]
    exact h j

/-- **Every run collects what was accepted.** -/
theorem run_collected (host : PathHost) (s : State R U) (events : List (ℤ × FunctionCall)) :
    (run host s events).Collected := by
  have hstart : (Run.start s).Collected := fun _ => collects_empty
  unfold run
  generalize Run.start s = m at hstart
  induction events generalizing m with
  | nil => exact hstart
  | cons e events ih => exact ih _ (hstart.append e)

theorem putPartialArgs_of_feed {i : ℤ} {calls : List FunctionCall} {s s' : State R U}
    (hobject : (partialOf s i).arguments = .object members) (h : feed host i calls s = some s') :
    putPartialArgs host (calls.flatMap (·.partialArgs)) (.object members) =
      (.ok (), (partialOf s' i).arguments) := by
  induction calls generalizing s members with
  | nil =>
    obtain rfl := some.inj h
    rw [hobject]
    rfl
  | cons call calls ih =>
    obtain ⟨a, hargs, hcases⟩ := appendPartialFunctionCall_cases host s i call hobject
    rw [feed] at h
    rcases hcases with ⟨message, current, -, hcall⟩ | ⟨current, rfl, haccepted, hcall⟩ |
      ⟨completed, -, -, hcall⟩
    · rw [hcall] at h
      cases h
    · rw [hcall] at h
      rw [haccepted] at hargs
      obtain ⟨members', hobject'⟩ := object_of_putPartialArgs hargs
      have hnext : (partialOf (s.setPartialTool i current) i).arguments = .object members' := by
        rw [partialOf_setPartialTool, if_pos rfl, hobject']
      rw [flatMap_cons, putPartialArgs_append hargs, hobject']
      exact ih hnext h
    · rw [hcall] at h
      cases h

/-- **What holds after any run of partial calls.**  The arguments hold what was written, and so do
those of a call that is complete.  The order of unrelated partial arguments does not matter
(`anyOrder`), nor how they come in calls (`anyCalls`).  A partial argument that is rejected changes
nothing (`keeps`); a call that is rejected leaves what its partial arguments before that made
(`rejects`). -/
structure Sound (host : PathHost) (m : Run R U) : Prop where
  collects : m.Collected
  completes : ∀ i call completed state,
    appendPartialFunctionCall host m.state i call = (.ok (some completed), state) →
      ∃ e, completed.arguments = some e ∧ Collects e (m.written host i call)
  anyOrder : ∀ i (args args' : List PartialArg) e, args.Perm args' → UnrelatedArgs host args →
    putPartialArgs host args (partialOf m.state i).arguments = (.ok (), e) →
      putPartialArgs host args' (partialOf m.state i).arguments = (.ok (), e)
  anyCalls : ∀ i (calls calls' : List FunctionCall) s s',
    (calls.flatMap (·.partialArgs)).Perm (calls'.flatMap (·.partialArgs)) →
      UnrelatedArgs host (calls.flatMap (·.partialArgs)) →
        feed host i calls m.state = some s → feed host i calls' m.state = some s' →
          (partialOf s i).arguments = (partialOf s' i).arguments
  keeps : ∀ i arg f e, putPartialArg host arg (partialOf m.state i).arguments = (.error f, e) →
    f.Returned ∧ e = (partialOf m.state i).arguments
  rejects : ∀ i call f state,
    appendPartialFunctionCall host m.state i call = (.error f, state) →
      f.Returned ∧ (∀ j, j ≠ i → partialOf state j = partialOf m.state j) ∧
        ∃ accepted, accepted <+: call.partialArgs ∧
          putPartialArgs host accepted (partialOf m.state i).arguments =
            (.ok (), (partialOf state i).arguments)

theorem acceptedOf_prefix (s : State R U) (i : ℤ) (call : FunctionCall) :
    acceptedOf host s i call <+: call.partialArgs := by
  unfold acceptedOf
  dsimp only
  by_cases hchanged : changed (partialOf s i).id (trimSpace call.id) = true ∨
      changed (partialOf s i).name (trimSpace call.functionName) = true
  · rw [if_pos hchanged]
    exact nil_prefix
  · rw [if_neg hchanged]
    exact acceptedArgs_prefix ..

/-- **A stream that has collected what was accepted is sound.** -/
theorem Run.Collected.sound {m : Run R U} (h : m.Collected) : Sound host m where
  collects := h
  completes i call completed state hcall := by
    obtain ⟨members, hobject⟩ := (h i).object
    obtain ⟨e, hargs, hcases⟩ := appendPartialFunctionCall_cases host m.state i call hobject
    rw [hcall] at hcases
    rw [← hobject] at hargs
    rcases hcases with ⟨_, _, _, hresult⟩ | ⟨_, _, _, hresult⟩ | ⟨completed', he, _, hresult⟩
    · cases hresult
    · cases hresult
    · obtain rfl : completed = completed' := by cases hresult; rfl
      exact ⟨e, he, (h i).putPartialArgs hargs⟩
  anyOrder i args args' e hperm hunrelated hargs := by
    obtain ⟨members, hobject⟩ := (h i).object
    rw [hobject] at hargs ⊢
    exact putPartialArgs_perm hperm hunrelated hargs
  anyCalls i calls calls' s s' hperm hunrelated hs hs' := by
    obtain ⟨members, hobject⟩ := (h i).object
    have hargs := putPartialArgs_perm hperm hunrelated (putPartialArgs_of_feed hobject hs)
    have hargs' := putPartialArgs_of_feed hobject hs'
    exact (Prod.mk.inj (hargs.symm.trans hargs')).2
  keeps i arg f e hput := by
    obtain ⟨members, hobject⟩ := (h i).object
    rw [hobject] at hput ⊢
    rcases putPartialArg_cases host arg members with ⟨members', hok, -⟩ | ⟨message, herror, -⟩
    · rw [hok] at hput
      cases hput
    · rw [herror] at hput
      obtain ⟨hf, he⟩ := Prod.mk.inj hput
      exact ⟨⟨message, (error.inj hf).symm⟩, he.symm⟩
  rejects i call f state hcall := by
    obtain ⟨members, hobject⟩ := (h i).object
    obtain ⟨e, hargs, hcases⟩ := appendPartialFunctionCall_cases host m.state i call hobject
    rw [hcall] at hcases
    rcases hcases with ⟨message, current, hcurrent, hresult⟩ | ⟨_, _, _, hresult⟩ |
      ⟨_, _, _, hresult⟩
    · obtain ⟨hf, hstate⟩ := Prod.mk.inj hresult
      refine ⟨⟨message, error.inj hf⟩, fun j hj => ?_, acceptedOf host m.state i call,
        acceptedOf_prefix m.state i call, ?_⟩
      · rw [hstate, partialOf_setPartialTool, if_neg hj]
      · rw [hobject, hargs, hstate, partialOf_setPartialTool, if_pos rfl, hcurrent]
    · cases hresult
    · cases hresult

/-- **Partial arguments are read to the end, collected and bounded**: the scanner of paths ends and
stays in the text, and every run of partial calls is sound. -/
theorem appendPartialFunctionCall_collects (host : PathHost) :
    (∀ jsonPath, Machine.Yields Fault.Returned Accepted (parseGeminiPartialArgPath host jsonPath)) ∧
      ∀ (s : State R U) (events : List (ℤ × FunctionCall)), Sound host (run host s events) :=
  ⟨parseGeminiPartialArgPath_yields host, fun s events => (run_collected host s events).sound⟩

/-! ### A call that is rejected, and a text that starts again -/

/-- A host that quotes nothing and takes members as they are. -/
def plainHost : PathHost where
  quote _ := ""
  unmarshalString raw := .ok ((raw.drop 1).dropLast)

def textAt (jsonPath s : String) : PartialArg := { jsonPath := jsonPath, stringValue := some s }

/-- A `null` at a path. -/
def nullAt (jsonPath : String) : PartialArg := { jsonPath := jsonPath, nullValue := some "null" }

/-- A partial call that is not the last one. -/
def continuing (args : List PartialArg) : FunctionCall :=
  { partialArgs := args, willContinue := some true }

/-- The arguments behind partial calls of a stream with one candidate. -/
def argumentsAfter (calls : List FunctionCall) : Value :=
  (partialOf (run plainHost { grounding := () } (calls.map fun call => (0, call)) :
    Run Unit Unit).state 0).arguments

/-- The second partial argument of a call is rejected, and the first one stays; the text at `$.a.b`
starts again behind a `null` at `$.a`. -/
theorem rejected_call_leaves_a_part :
    ((∃ message, (appendPartialFunctionCall plainHost ({ grounding := () } : State Unit Unit) 0
        (continuing [textAt "$.a" "x", textAt "$.a.b" "y"])).1 = .error (.failed message)) ∧
      (argumentsAfter [continuing [textAt "$.a" "x", textAt "$.a.b" "y"]]).shape
        [.member (bytes "a")] = .leaf (.text "x") ∧
      (argumentsAfter []).shape [.member (bytes "a")] = .absent) ∧
    (argumentsAfter [continuing [textAt "$.a.b" "x", nullAt "$.a", textAt "$.a.b" "y"]]).shape
      [.member (bytes "a"), .member (bytes "b")] = .leaf (.text "y") := by
  refine ⟨⟨⟨_, rfl⟩, ?_, ?_⟩, ?_⟩ <;> decide +kernel

/-! ### The stream converter -/

/-- The message of an error. -/
def Fault.text : Fault → String
  | .failed message => message
  | _ => ""

/-- A partial argument as the stream converter has it. -/
def PartialArg.toStream (arg : PartialArg) : GeminiPartialArg Value where
  jsonPath := arg.jsonPath
  value := (geminiPartialArgValue arg).map .leaf
  isString := arg.stringValue.isSome

/-- A partial call as the stream converter has it. -/
def FunctionCall.toStream (call : FunctionCall) : GeminiFunctionCall Value where
  id := call.id
  functionName := call.functionName
  partialArgs := call.partialArgs.map PartialArg.toStream
  willContinue := call.willContinue

/-- A result, without what an error leaves. -/
def resultOf {α β γ : Type} (f : α → β → γ) : Except Fault α × β → Except String γ
  | (.ok a, b) => .ok (f a b)
  | (.error fault, _) => .error fault.text

def scalarOf : Value → Option Scalar
  | .leaf x => some x
  | _ => none

/-- A host of the stream converter that puts partial arguments this way. -/
def streamHost {G : Type} (host : PathHost) (h : GeminiStreamHost Value G R) :
    GeminiStreamHost Value G R :=
  { h with
    emptyObject := emptyObject
    quote := fun s => host.quote (bytes s)
    setPartialArg := fun arguments arg => resultOf (fun _ e => e)
      (putValue host arg.jsonPath (arg.value.bind scalarOf) arg.isString arguments) }

theorem setPartialArg_toStream {G : Type} (h : GeminiStreamHost Value G R) (arg : PartialArg)
    (arguments : Value) : (streamHost host h).setPartialArg arguments arg.toStream =
      resultOf (fun _ e => e) (putPartialArg host arg arguments) := by
  have hvalue : ((geminiPartialArgValue arg).map Document.leaf).bind scalarOf =
      geminiPartialArgValue arg := by
    cases geminiPartialArgValue arg <;> rfl
  simp only [streamHost, PartialArg.toStream, hvalue, putPartialArg]

theorem foldlM_setPartialArg {G : Type} (h : GeminiStreamHost Value G R) (args : List PartialArg)
    (arguments : Value) :
    (args.map PartialArg.toStream).foldlM (streamHost host h).setPartialArg arguments =
      resultOf (fun _ e => e) (putPartialArgs host args arguments) := by
  induction args generalizing arguments with
  | nil => rfl
  | cons arg args ih =>
    rw [map_cons, foldlM_cons, setPartialArg_toStream, putPartialArgs]
    cases putPartialArg host arg arguments with
    | mk outcome after =>
      cases outcome with
      | error f => rfl
      | ok u => exact ih after

/-- **The stream converter appends partial calls this way**, apart from what a rejected call
leaves: the converter ends there. -/
theorem appendPartialFunctionCall_eq {G : Type} (h : GeminiStreamHost Value G R) (s : State R U)
    (i : ℤ) (call : FunctionCall) :
    s.appendPartialFunctionCall (streamHost host h) i call.toStream =
      resultOf Prod.mk (appendPartialFunctionCall host s i call) := by
  have hargs : ∀ arguments, (call.partialArgs.map PartialArg.toStream).foldlM
      (streamHost host h).setPartialArg arguments =
        resultOf (fun _ e => e) (putPartialArgs host call.partialArgs arguments) :=
    foldlM_setPartialArg h call.partialArgs
  have hquote : ∀ s, (streamHost host h).quote s = host.quote (bytes s) := fun _ => rfl
  have hcurrent : (s.partialTool i).getD { arguments := (streamHost host h).emptyObject } =
    partialOf s i := rfl
  have hchanged : ∀ current next : String,
      (next ≠ "" ∧ current ≠ "" ∧ current ≠ next) ↔ changed current next = true := by
    intro current next
    simp only [changed, ne_eq, Bool.and_eq_true, decide_eq_true_eq, and_assoc]
  simp only [GeminiToChatStreamState.appendPartialFunctionCall, appendPartialFunctionCall,
    FunctionCall.toStream, hargs, hquote, hcurrent, hchanged]
  by_cases hid : changed (partialOf s i).id (trimSpace call.id) = true
  · rw [if_pos hid, if_pos hid]
    rfl
  · rw [if_neg hid, if_neg hid]
    generalize (if trimSpace call.id ≠ "" then
      { partialOf s i with id := trimSpace call.id } else partialOf s i) = current
    by_cases hname : changed current.name (trimSpace call.functionName) = true
    · rw [if_pos hname, if_pos hname]
      rfl
    · rw [if_neg hname, if_neg hname]
      generalize (if trimSpace call.functionName ≠ "" then
        { current with name := trimSpace call.functionName } else current) = current
      cases putPartialArgs host call.partialArgs current.arguments with
      | mk outcome arguments =>
        cases outcome with
        | error f => rfl
        | ok u =>
          dsimp only [resultOf]
          by_cases hcontinue : call.willContinue = some true
          · rw [if_pos hcontinue, if_pos hcontinue]
          · rw [if_neg hcontinue, if_neg hcontinue]
            by_cases hempty : current.name = ""
            · rw [if_pos hempty, if_pos hempty]
              rfl
            · rw [if_neg hempty, if_neg hempty]

end NexusTok.Convert.Partial
