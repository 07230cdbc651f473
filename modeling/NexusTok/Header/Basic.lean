import NexusTok.Text.Replace

/-!
# Header overrides

What a channel sends besides the headers of its adaptor.  `ApplyParamOverrideWithRelayInfo` runs the
param overrides of the channel on the body and on a map of header overrides, and leaves that map in
the request; `processHeaderOverride` makes headers of it: rules that pass client headers through, and
values with placeholders for the key of the channel and for a client header.

What the param overrides do to the body, and their conditions, rest on a JSON library and are
parameters here (`BodyTools`).  All maps are lists with one entry a key.  The values of the map of
header overrides are texts from the start: the context is built by `sanitizeHeaderOverrideMap`, and
every write to it is a text.
-/

namespace NexusTok

/-! ### Values -/

/-- A value decoded from JSON.  A number is kept as `%v` prints it. -/
inductive ConfigValue where
  | null
  | bool (b : Bool)
  | number (shown : String)
  | text (s : String)
  | list (items : List ConfigValue)
  | object (fields : List (String × ConfigValue))

mutual
/-- `fmt.Sprintf("%v", value)`, for objects with their fields in the order of the keys. -/
def ConfigValue.sprint : ConfigValue → String
  | .null => "<nil>"
  | .bool b => if b then "true" else "false"
  | .number shown => shown
  | .text s => s
  | .list items => "[" ++ sprintItems items ++ "]"
  | .object fields => "map[" ++ sprintFields fields ++ "]"

/-- The items of a list as `%v` prints them. -/
def sprintItems : List ConfigValue → String
  | [] => ""
  | [v] => v.sprint
  | v :: vs => v.sprint ++ " " ++ sprintItems vs

/-- The fields of an object as `%v` prints them. -/
def sprintFields : List (String × ConfigValue) → String
  | [] => ""
  | [(k, v)] => k ++ ":" ++ v.sprint
  | (k, v) :: vs => k ++ ":" ++ v.sprint ++ " " ++ sprintFields vs
end

/-- A map with one entry a key. -/
abbrev KeyMap (V : Type) := List (String × V)

namespace KeyMap

variable {V : Type}

/-- `m[k]`. -/
def get (m : KeyMap V) (k : String) : Option V := List.lookup k m

/-- `m[k] = v`. -/
def put (m : KeyMap V) (k : String) (v : V) : KeyMap V := m.filter (·.1 != k) ++ [(k, v)]

/-- `delete(m, k)`. -/
def del (m : KeyMap V) (k : String) : KeyMap V := m.filter (·.1 != k)

end KeyMap

/-- A map of header overrides. -/
abbrev HeaderMap := KeyMap String

/-- What goes wrong in an override. -/
inductive OverrideError where
  /-- `errSourceHeaderNotFound` -/
  | sourceHeaderNotFound (header : String)
  | text (message : String)
  /-- `operation mode failed: …` -/
  | operation (mode : String) (e : OverrideError)
  deriving Repr, DecidableEq

/-! ### Keys -/

/-- `normalizeHeaderContextKey`.  Names of headers are ASCII. -/
def normalizeHeaderContextKey (key : String) : String := trimSpace (toLower key)

def isHeaderPassthroughRuleKeyForOverride (key : String) : Bool :=
  let key := trimSpace (toLower key)
  key != "" && (key == "*" || hasPrefix key "re:" || hasPrefix key "regex:")

def isHeaderPassthroughRuleKey (key : String) : Bool :=
  let key := trimSpace key
  key != "" && (key == "*" || hasPrefix (toLower key) "re:" || hasPrefix (toLower key) "regex:")

/-- One entry of `sanitizeHeaderOverrideMap`. -/
def sanitizeEntry (target : HeaderMap) (key shown : String) : HeaderMap :=
  let normalizedKey := normalizeHeaderContextKey key
  if normalizedKey = "" then target
  else
    let normalizedValue := trimSpace shown
    if normalizedValue = "" then
      if isHeaderPassthroughRuleKeyForOverride normalizedKey then target.put normalizedKey ""
      else target
    else target.put normalizedKey normalizedValue

/-- `sanitizeHeaderOverrideMap` of a map that was configured. -/
def sanitizeConfigured (source : KeyMap ConfigValue) : HeaderMap :=
  source.foldl (fun target e => sanitizeEntry target e.1 e.2.sprint) []

/-- `sanitizeHeaderOverrideMap` of a map of texts. -/
def sanitizeHeaderOverrideMap (source : HeaderMap) : HeaderMap :=
  source.foldl (fun target e => sanitizeEntry target e.1 e.2) []

/-! ### Operations on headers -/

/-- The context of the param overrides: facts about the request and its retries, the headers of the
client and the header overrides. -/
structure OverrideContext (C : Type) where
  facts : C
  requestHeaders : HeaderMap
  headerOverride : HeaderMap

variable {B C : Type}

/-- A text of a map that is not blank, trimmed. -/
def textIn (source : HeaderMap) (headerName : String) : Option String :=
  match source.get headerName with
  | none => none
  | some raw => if trimSpace raw = "" then none else some (trimSpace raw)

variable (context : OverrideContext C)

def getHeaderValueFromContext (headerName : String) : Option String :=
  let headerName := normalizeHeaderContextKey headerName
  if headerName = "" then none
  else
    match textIn context.headerOverride headerName with
    | some value => some value
    | none => textIn context.requestHeaders headerName

/-- The loop of `lo.Uniq`. -/
def uniqFrom (seen : List String) : List String → List String
  | [] => []
  | x :: xs => if x ∈ seen then uniqFrom seen xs else x :: uniqFrom (x :: seen) xs

/-- `lo.Uniq`. -/
def uniq (xs : List String) : List String := uniqFrom [] xs

mutual
def parseHeaderReplacementTokens : ConfigValue → Except OverrideError (List String)
  | .null => .ok []
  | .text raw => .ok (commaTokens raw)
  | .list items =>
    match parseHeaderReplacementItems items with
    | .error e => .error e
    | .ok tokens => .ok (uniq tokens)
  | .object _ => .error (.text "header replacement value must be string, array or null")
  | .bool b => .ok [if b then "true" else "false"]
  | .number shown => .ok (if trimSpace shown = "" then [] else [trimSpace shown])

/-- The loop over an array of `parseHeaderReplacementTokens`. -/
def parseHeaderReplacementItems : List ConfigValue → Except OverrideError (List String)
  | [] => .ok []
  | item :: items =>
    match parseHeaderReplacementTokens item with
    | .error e => .error e
    | .ok tokens =>
      match parseHeaderReplacementItems items with
      | .error e => .error e
      | .ok rest => .ok (tokens ++ rest)
end

def parseHeaderAppendTokens (mapping : KeyMap ConfigValue) : Except OverrideError (List String) :=
  match mapping.get "$append" with
  | none => .ok []
  | some appendRaw => parseHeaderReplacementTokens appendRaw

def parseHeaderKeepOnlyDeclared (mapping : KeyMap ConfigValue) : Bool :=
  match mapping.get "$keep_only_declared" with
  | some (.bool b) => b
  | _ => false

/-- What a mapping makes of a token: `none` keeps it. -/
def replacementOf (mapping : KeyMap ConfigValue) (token : String) : Option ConfigValue :=
  match mapping.get token with
  | some replacement => some replacement
  | none => if parseHeaderKeepOnlyDeclared mapping then some .null else mapping.get "*"

/-- The loop over the source tokens of `resolveHeaderOverrideValueByMapping`. -/
def mapTokens (mapping : KeyMap ConfigValue) : List String → Except OverrideError (List String)
  | [] => .ok []
  | token :: tokens =>
    match replacementOf mapping token with
    | none =>
      match mapTokens mapping tokens with
      | .error e => .error e
      | .ok rest => .ok (token :: rest)
    | some replacement =>
      match parseHeaderReplacementTokens replacement with
      | .error e => .error e
      | .ok replaced =>
        match mapTokens mapping tokens with
        | .error e => .error e
        | .ok rest => .ok (replaced ++ rest)

def resolveHeaderOverrideValueByMapping (headerName : String)
    (mapping : KeyMap ConfigValue) : Except OverrideError (Option String) :=
  if mapping = [] then .error (.text "header value mapping cannot be empty")
  else
    match parseHeaderAppendTokens mapping with
    | .error e => .error e
    | .ok appendTokens =>
      let sourceTokens := ((getHeaderValueFromContext context headerName).map commaTokens).getD []
      match mapTokens mapping sourceTokens with
      | .error e => .error e
      | .ok tokens =>
        let resultTokens := uniq (tokens ++ appendTokens)
        .ok (if resultTokens = [] then none else some (joinComma resultTokens))

def resolveHeaderOverrideValue (headerName : String) :
    ConfigValue → Except OverrideError (Option String)
  | .null => .error (.text "header value is required")
  | .object mapping => resolveHeaderOverrideValueByMapping context headerName mapping
  | value =>
    let headerValue := trimSpace value.sprint
    .ok (if headerValue = "" then none else some headerValue)

def setHeaderOverrideInContext (headerName : String)
    (value : ConfigValue) (keepOrigin : Bool) : Except OverrideError (OverrideContext C) :=
  let headerName := normalizeHeaderContextKey headerName
  if headerName = "" then .error (.text "header name is required")
  else if keepOrigin ∧ (textIn context.headerOverride headerName).isSome then .ok context
  else
    match resolveHeaderOverrideValue context headerName value with
    | .error e => .error e
    | .ok none => .ok { context with headerOverride := context.headerOverride.del headerName }
    | .ok (some headerValue) =>
      .ok { context with headerOverride := context.headerOverride.put headerName headerValue }

def copyHeaderInContext (fromHeader toHeader : String)
    (keepOrigin : Bool) : Except OverrideError (OverrideContext C) :=
  let fromHeader := normalizeHeaderContextKey fromHeader
  let toHeader := normalizeHeaderContextKey toHeader
  if fromHeader = "" ∨ toHeader = "" then .error (.text "copy_header from/to is required")
  else
    match getHeaderValueFromContext context fromHeader with
    | none => .error (.sourceHeaderNotFound fromHeader)
    | some value => setHeaderOverrideInContext context toHeader (.text value) keepOrigin

def deleteHeaderOverrideInContext (headerName : String) :
    Except OverrideError (OverrideContext C) :=
  let headerName := normalizeHeaderContextKey headerName
  if headerName = "" then .error (.text "header name is required")
  else .ok { context with headerOverride := context.headerOverride.del headerName }

def moveHeaderInContext (fromHeader toHeader : String)
    (keepOrigin : Bool) : Except OverrideError (OverrideContext C) :=
  let fromHeader := normalizeHeaderContextKey fromHeader
  let toHeader := normalizeHeaderContextKey toHeader
  if fromHeader = "" ∨ toHeader = "" then .error (.text "move_header from/to is required")
  else
    match copyHeaderInContext context fromHeader toHeader keepOrigin with
    | .error e => .error e
    | .ok context =>
      if fromHeader = toHeader then .ok context
      else deleteHeaderOverrideInContext context fromHeader

/-- The loop of `pass_headers`: names that the client did not send are passed over. -/
def passHeaders (keepOrigin : Bool) : OverrideContext C → List String →
    Except OverrideError (OverrideContext C)
  | context, [] => .ok context
  | context, headerName :: headerNames =>
    match copyHeaderInContext context headerName headerName keepOrigin with
    | .error (.sourceHeaderNotFound _) => passHeaders keepOrigin context headerNames
    | .error e => .error e
    | .ok context => passHeaders keepOrigin context headerNames

/-! ### Operations -/

/-- One operation of a param override. -/
structure ParamOperation where
  path : String := ""
  mode : String
  value : ConfigValue := .null
  keepOrigin : Bool := false
  source : String := ""
  target : String := ""
  conditions : List (KeyMap ConfigValue) := []
  logic : String := "OR"

/-- The JSON library: conditions and operations on a body, with a path read and written. -/
structure BodyTools (B C : Type) where
  /-- `applyOperationsLegacy` -/
  legacy : B → KeyMap ConfigValue → Except OverrideError B
  /-- `checkConditions` -/
  conditionsHold : B → OverrideContext C → ParamOperation → Except OverrideError Bool
  /-- What the modes on the body do, and the error of an unknown mode. -/
  operate : B → OverrideContext C → ParamOperation → Except OverrideError B
  /-- `gjson.GetBytes` after `processNegativeIndex` -/
  read : B → String → Option ConfigValue
  /-- `sjson.SetBytes` after `processNegativeIndex` -/
  write : B → String → ConfigValue → Except OverrideError B
  /-- `parseHeaderPassThroughNames` -/
  passNames : ConfigValue → Except OverrideError (List String)

inductive SyncTarget where
  | json (key : String)
  | header (key : String)
  deriving Repr, DecidableEq

def parseSyncTarget (spec : String) : Except OverrideError SyncTarget :=
  let raw := trimSpace spec
  if raw = "" then .error (.text "sync_fields target is required")
  else
    match raw.toList.span (· != ':') with
    | (_, []) => .ok (.json raw)
    | (before, _ :: after) =>
      let kind := toLower (trimSpace (String.ofList before))
      let key := trimSpace (String.ofList after)
      if key = "" then .error (.text ("sync_fields target key is required: " ++ raw))
      else if kind = "json" ∨ kind = "body" then .ok (.json key)
      else if kind = "header" then .ok (.header key)
      else .error (.text ("sync_fields target prefix is invalid: " ++ raw))

variable (tools : BodyTools B C)

def readSyncTargetValue (data : B) (context : OverrideContext C) : SyncTarget → Option ConfigValue
  | .json key =>
    match tools.read data key with
    | none | some .null => none
    | some (.text s) => if trimSpace s = "" then none else some (.text s)
    | some value => some value
  | .header key => (getHeaderValueFromContext context key).map .text

def writeSyncTargetValue (data : B) (context : OverrideContext C)
    (target : SyncTarget) (value : ConfigValue) : Except OverrideError (B × OverrideContext C) :=
  match target with
  | .json key =>
    match tools.write data key value with
    | .error e => .error e
    | .ok data => .ok (data, context)
  | .header key =>
    match setHeaderOverrideInContext context key value false with
    | .error e => .error e
    | .ok context => .ok (data, context)

def syncFieldsBetweenTargets (data : B) (context : OverrideContext C)
    (fromSpec toSpec : String) : Except OverrideError (B × OverrideContext C) :=
  match parseSyncTarget fromSpec with
  | .error e => .error e
  | .ok fromTarget =>
    match parseSyncTarget toSpec with
    | .error e => .error e
    | .ok toTarget =>
      match readSyncTargetValue tools data context fromTarget,
          readSyncTargetValue tools data context toTarget with
      | some value, none => writeSyncTargetValue tools data context toTarget value
      | none, some value => writeSyncTargetValue tools data context fromTarget value
      | _, _ => .ok (data, context)

/-- Where `copy_header` and `move_header` read and write. -/
def ParamOperation.ends (op : ParamOperation) : String × String :=
  let source := trimSpace op.source
  let target := trimSpace op.target
  (if source = "" then trimSpace op.path else source,
    if target = "" then trimSpace op.path else target)

/-- What the mode of an operation does, in `applyOperations`. -/
def runOperation (op : ParamOperation) (data : B)
    (context : OverrideContext C) : Except OverrideError (B × OverrideContext C) :=
  if op.mode = "set_header" then
    match setHeaderOverrideInContext context op.path op.value op.keepOrigin with
    | .error e => .error (.operation op.mode e)
    | .ok context => .ok (data, context)
  else if op.mode = "delete_header" then
    match deleteHeaderOverrideInContext context op.path with
    | .error e => .error (.operation op.mode e)
    | .ok context => .ok (data, context)
  else if op.mode = "copy_header" then
    match copyHeaderInContext context op.ends.1 op.ends.2 op.keepOrigin with
    | .error (.sourceHeaderNotFound _) => .ok (data, context)
    | .error e => .error (.operation op.mode e)
    | .ok context => .ok (data, context)
  else if op.mode = "move_header" then
    match moveHeaderInContext context op.ends.1 op.ends.2 op.keepOrigin with
    | .error (.sourceHeaderNotFound _) => .ok (data, context)
    | .error e => .error (.operation op.mode e)
    | .ok context => .ok (data, context)
  else if op.mode = "pass_headers" then
    match tools.passNames op.value with
    | .error e => .error e
    | .ok headerNames =>
      match passHeaders op.keepOrigin context headerNames with
      | .error e => .error (.operation op.mode e)
      | .ok context => .ok (data, context)
  else if op.mode = "sync_fields" then
    match syncFieldsBetweenTargets tools data context op.source op.target with
    | .error e => .error (.operation op.mode e)
    | .ok acc => .ok acc
  else
    match tools.operate data context op with
    | .error e => .error e
    | .ok data => .ok (data, context)

/-- One turn of the loop of `applyOperations`. -/
def applyOperation (acc : B × OverrideContext C) (op : ParamOperation) :
    Except OverrideError (B × OverrideContext C) :=
  match tools.conditionsHold acc.1 acc.2 op with
  | .error e => .error e
  | .ok false => .ok acc
  | .ok true => runOperation tools op acc.1 acc.2

/-- The param overrides of a channel, as `tryParseOperations` reads them: the fields to set, and the
operations where the map has a list of them. -/
structure ParamOverride where
  legacy : KeyMap ConfigValue := []
  operations : Option (List ParamOperation) := none

/-- `len(paramOverride) == 0`. -/
def ParamOverride.isEmpty (o : ParamOverride) : Bool := o.legacy.isEmpty && o.operations.isNone

def applyParamOverride (jsonData : B) (paramOverride : ParamOverride)
    (context : OverrideContext C) : Except OverrideError (B × OverrideContext C) :=
  if paramOverride.isEmpty then .ok (jsonData, context)
  else
    let workingJSON := if paramOverride.legacy = [] then .ok jsonData
      else tools.legacy jsonData paramOverride.legacy
    match workingJSON with
    | .error e => .error e
    | .ok data =>
      match paramOverride.operations with
      | none => .ok (data, context)
      | some operations => operations.foldlM (applyOperation tools) (data, context)

/-! ### Headers of the client -/

/-- The headers of a request by their canonical names, each with its first value. -/
abbrev ClientHeaders := KeyMap String

/-- A character of a header name. -/
def isTokenChar (c : Char) : Bool := c.isAlphanum || "!#$%&'*+-.^_`|~".toList.contains c

/-- The letters of a canonical name. -/
def canonicalFrom (upper : Bool) : List Char → List Char
  | [] => []
  | c :: cs => (if upper then c.toUpper else c.toLower) :: canonicalFrom (c == '-') cs

/-- `textproto.CanonicalMIMEHeaderKey`. -/
def canonicalMIMEHeaderKey (name : String) : String :=
  if name.toList.all isTokenChar then String.ofList (canonicalFrom true name.toList) else name

/-- `http.Header.Get`. -/
def clientHeader (client : ClientHeaders) (name : String) : String :=
  (client.get (canonicalMIMEHeaderKey name)).getD ""

/-- `cloneRequestHeaders`, then `buildRequestHeadersContext`. -/
def buildRequestHeadersContext (client : ClientHeaders) : HeaderMap :=
  client.foldl (fun headers e =>
    let value := trimSpace (clientHeader client e.1)
    let normalized := normalizeHeaderContextKey e.1
    if value = "" ∨ normalized = "" then headers else headers.put normalized value) []

/-! ### Headers of the upstream request -/

def passthroughSkipHeaderNamesLower : List String :=
  ["connection", "keep-alive", "proxy-authenticate", "proxy-authorization", "te", "trailer",
    "transfer-encoding", "upgrade", "cookie", "host", "content-length", "accept-encoding",
    "authorization", "x-api-key", "x-goog-api-key", "sec-websocket-key", "sec-websocket-version",
    "sec-websocket-extensions"]

def shouldSkipPassthroughHeader (name : String) : Bool :=
  let name := trimSpace name
  name == "" || passthroughSkipHeaderNamesLower.contains (toLower name)

/-- `clientHeaderPlaceholderPrefix`. -/
def clientHeaderPlaceholder : String := "\x7bclient_header:"

def apiKeyPlaceholder : String := "\x7bapi_key\x7d"

/-- The name in a client header placeholder, when the placeholder is the whole text. -/
def placeholderName (afterPrefix : String) : Option String :=
  match afterPrefix.toList.span (· != '\x7d') with
  | (name, ['\x7d']) => some (trimSpace (String.ofList name))
  | _ => none

/-- `applyHeaderOverridePlaceholders`: the value, if it is included. -/
def applyHeaderOverridePlaceholders (template : String) (client : Option ClientHeaders)
    (apiKey : String) : Except OverrideError (Option String) :=
  match cutPrefix (trimSpace template) clientHeaderPlaceholder with
  | some afterPrefix =>
    match placeholderName afterPrefix with
    | none => .error (.text "client_header placeholder must be the full value")
    | some name =>
      if name = "" then .error (.text "client_header placeholder name is empty")
      else
        match client with
        | none => .error (.text "missing request context for client_header placeholder")
        | some client =>
          let clientHeaderValue := clientHeader client name
          .ok (if trimSpace clientHeaderValue = "" then none else some clientHeaderValue)
  | none =>
    let value := if containsText template apiKeyPlaceholder then
      replaceAll template apiKeyPlaceholder apiKey else template
    .ok (if trimSpace value = "" then none else some value)

/-- The pattern of a passthrough rule with a regular expression. -/
def rulePattern (key : String) : Option String :=
  match cutPrefix key "re:" with
  | some pattern => some (trimSpace pattern)
  | none => (cutPrefix key "regex:").map trimSpace

/-- The passthrough rules among the header overrides: whether all pass, and the patterns. -/
def passthroughRules (compile : String → Option (String → Bool)) :
    HeaderMap → Except OverrideError (Bool × List (String → Bool))
  | [] => .ok (false, [])
  | (k, _) :: source =>
    match passthroughRules compile source with
    | .error e => .error e
    | .ok (passAll, patterns) =>
      let key := trimSpace (toLower k)
      if key = "" then .ok (passAll, patterns)
      else if key = "*" then .ok (true, patterns)
      else
        match rulePattern key with
        | none => .ok (passAll, patterns)
        | some pattern =>
          if pattern = "" then .error (.text "header passthrough regex pattern is empty")
          else
            match compile pattern with
            | none => .error (.text "header passthrough regex is invalid")
            | some matchesName => .ok (passAll, matchesName :: patterns)

/-- The client headers that the rules pass through. -/
def passedThrough (client : ClientHeaders) (passAll : Bool) (patterns : List (String → Bool)) :
    HeaderMap :=
  client.foldl (fun headers e =>
    if shouldSkipPassthroughHeader e.1 then headers
    else if !passAll && !patterns.any (fun matchesName => matchesName e.1) then headers
    else
      let value := trimSpace (clientHeader client e.1)
      if value = "" then headers else headers.put (toLower (trimSpace e.1)) value) []

/-- What the explicit overrides put on top. -/
def explicitOverrides (isChannelTest : Bool) (client : Option ClientHeaders) (apiKey : String) :
    HeaderMap → HeaderMap → Except OverrideError HeaderMap
  | headers, [] => .ok headers
  | headers, (k, v) :: source =>
    let key := trimSpace (toLower k)
    if isHeaderPassthroughRuleKey k ∨ key = "" then
      explicitOverrides isChannelTest client apiKey headers source
    else if isChannelTest ∧ hasPrefix (trimSpace v) clientHeaderPlaceholder then
      explicitOverrides isChannelTest client apiKey headers source
    else
      match applyHeaderOverridePlaceholders v client apiKey with
      | .error e => .error e
      | .ok none => explicitOverrides isChannelTest client apiKey headers source
      | .ok (some value) =>
        explicitOverrides isChannelTest client apiKey (headers.put key value) source

/-- What of the request the header overrides read. -/
structure HeaderRequest where
  isChannelTest : Bool := false
  client : Option ClientHeaders
  compile : String → Option (String → Bool) := fun _ => none

/-- `processHeaderOverride` for an effective map of header overrides. -/
def processHeaderOverride (r : HeaderRequest) (apiKey : String) (source : HeaderMap) :
    Except OverrideError HeaderMap :=
  let rules := if r.isChannelTest then .ok (false, []) else passthroughRules r.compile source
  match rules with
  | .error e => .error e
  | .ok (passAll, patterns) =>
    if passAll ∨ patterns ≠ [] then
      match r.client with
      | none => .error (.text "missing request context for header passthrough")
      | some client =>
        explicitOverrides r.isChannelTest r.client apiKey (passedThrough client passAll patterns)
          source
    else explicitOverrides r.isChannelTest r.client apiKey [] source

/-! ### Attempts -/

/-- The part of `RelayInfo` that outlives an attempt. -/
structure RuntimeHeaders where
  useRuntimeHeadersOverride : Bool := false
  runtimeHeadersOverride : HeaderMap := []
  deriving Repr, DecidableEq

/-- One attempt: the channel that was selected, the facts of the retry, and the body for the
channel. -/
structure HeaderAttempt (B C : Type) where
  facts : C
  body : B
  paramOverride : ParamOverride := {}
  headersOverride : KeyMap ConfigValue := []
  apiKey : String := ""

/-- `GetEffectiveHeaderOverride`, after `InitChannelMeta` of the channel of the attempt. -/
def getEffectiveHeaderOverride (info : RuntimeHeaders) (a : HeaderAttempt B C) : HeaderMap :=
  if info.useRuntimeHeadersOverride then sanitizeHeaderOverrideMap info.runtimeHeadersOverride
  else sanitizeConfigured a.headersOverride

def buildParamOverrideContext (r : HeaderRequest) (info : RuntimeHeaders) (a : HeaderAttempt B C) :
    OverrideContext C where
  facts := a.facts
  requestHeaders := buildRequestHeadersContext (r.client.getD [])
  headerOverride := sanitizeHeaderOverrideMap (getEffectiveHeaderOverride info a)

/-- `ApplyParamOverrideWithRelayInfo`: the request after it, unless it fails. -/
def applyParamOverrideWithRelayInfo (r : HeaderRequest)
    (info : RuntimeHeaders) (a : HeaderAttempt B C) : Except OverrideError (RuntimeHeaders × B) :=
  match applyParamOverride tools a.body a.paramOverride (buildParamOverrideContext r info a) with
  | .error e => .error e
  | .ok (body, context) =>
    -- `syncRuntimeHeaderOverrideFromContext`
    .ok ({ useRuntimeHeadersOverride := true
           runtimeHeadersOverride := sanitizeHeaderOverrideMap context.headerOverride }, body)

/-- An attempt: the request after it, and the header overrides that are sent. -/
def headerAttempt (r : HeaderRequest) (info : RuntimeHeaders)
    (a : HeaderAttempt B C) : RuntimeHeaders × Except OverrideError HeaderMap :=
  if a.paramOverride.isEmpty then
    (info, processHeaderOverride r a.apiKey (getEffectiveHeaderOverride info a))
  else
    match applyParamOverrideWithRelayInfo tools r info a with
    | .error e => (info, .error e)
    | .ok (info, _) =>
      (info, processHeaderOverride r a.apiKey (getEffectiveHeaderOverride info a))

def headerAttempts (tools : BodyTools B C) (r : HeaderRequest) :
    RuntimeHeaders → List (HeaderAttempt B C) → List (Except OverrideError HeaderMap)
  | _, [] => []
  | info, a :: rest =>
    let (info, sent) := headerAttempt tools r info a
    sent :: headerAttempts tools r info rest

end NexusTok
