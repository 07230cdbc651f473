import NexusTok.Cachex.Same
import NexusTok.Text.Replace

/-!
# Channel affinity

A rule ties what a client sends, the id of a session say, to the channel that served it.  The
channel is cached under the name of the rule, the model and the group, as far as the rule includes
them, and the value of the client, with colons between them.  It is stored under the full key but
looked up under the rest of it, which the namespace normalises.

* `Met.fullKey_eq_iff` : which channels are looked up where they are stored.
* `Met.fits` : both backends of the cache take the calls alike.
* `keptApart_iff` : when two requests get back their own channels.
-/

namespace NexusTok.Affinity

open List

/-! ### Requests and rules -/

/-- `ChannelAffinityKeySource`. -/
structure KeySource where
  type : String
  key : String := ""
  path : String := ""

/-- `ChannelAffinityRule`. -/
structure Rule where
  name : String := ""
  modelRegex : List String
  pathRegex : List String := []
  userAgentInclude : List String := []
  keySources : List KeySource
  valueRegex : String := ""
  ttlSeconds : ℤ := 0
  includeRuleName : Bool := false
  includeModelName : Bool := false
  includeUsingGroup : Bool := false

/-- `ChannelAffinitySetting`. -/
structure Setting where
  enabled : Bool := true
  switchOnSuccess : Bool := false
  defaultTTLSeconds : ℤ := 0
  rules : List Rule

/-- `gjson.Result`. -/
structure JsonResult where
  scalar : Bool
  string : String
  raw : String

/-- What is read of a request. -/
structure Request where
  modelName : String
  usingGroup : String := ""
  path : String := ""
  userAgent : String := ""
  getInt : String → ℤ := fun _ => 0
  getString : String → String := fun _ => ""
  header : String → String := fun _ => ""
  /-- What is found at a path of the body, where there is a body. -/
  body : String → Option JsonResult := fun _ => none

def extractChannelAffinityValue (r : Request) (src : KeySource) : String :=
  if src.type = "context_int" then
    if src.key = "" ∨ r.getInt src.key ≤ 0 then ""
    else String.ofList (Nat.toDigits 10 (r.getInt src.key).toNat)
  else if src.type = "context_string" then
    if src.key = "" then "" else trimSpace (r.getString src.key)
  else if src.type = "request_header" then
    if src.key = "" then "" else trimSpace (r.header src.key)
  else if src.type = "gjson" then
    if src.path = "" then ""
    else
      match r.body src.path with
      | none => ""
      | some res => trimSpace (if res.scalar then res.string else res.raw)
  else ""

section Rules

-- whether a pattern compiles and matches
variable (regex : String → String → Bool)

def matchAnyRegexCached (patterns : List String) (s : String) : Bool :=
  s != "" && patterns.any fun pattern => pattern != "" && regex pattern s

def matchAnyIncludeFold (patterns : List String) (s : String) : Bool :=
  s != "" && patterns.any fun p =>
    trimSpace p != "" && containsText (toLower s) (toLower (trimSpace p))

/-- The value of the first source that has one. -/
def affinityValue (r : Request) (sources : List KeySource) : String :=
  ((sources.map (extractChannelAffinityValue r)).find? (· != "")).getD ""

/-- The rule that a request meets in the loop of `GetPreferredChannelByAffinity`, and the value. -/
def matchedRule (rules : List Rule) (r : Request) : Option (Rule × String) :=
  rules.findSome? fun rule =>
    if !matchAnyRegexCached regex rule.modelRegex r.modelName then none
    else if rule.pathRegex ≠ [] ∧ !matchAnyRegexCached regex rule.pathRegex r.path then none
    else if rule.userAgentInclude ≠ [] ∧
        !matchAnyIncludeFold rule.userAgentInclude r.userAgent then none
    else
      let value := affinityValue r rule.keySources
      if value = "" then none
      else if rule.valueRegex ≠ "" ∧ !matchAnyRegexCached regex [rule.valueRegex] value then none
      else some (rule, value)

end Rules

/-- The parts of a key: those of the rule name, the model and the group that are included and not
empty, and the value. -/
def keyParts (rule : Rule) (r : Request) (value : String) : List String :=
  (if rule.includeRuleName && rule.name != "" then [rule.name] else []) ++
    (if rule.includeModelName && r.modelName != "" then [r.modelName] else []) ++
      (if rule.includeUsingGroup && r.usingGroup != "" then [r.usingGroup] else []) ++ [value]

def buildChannelAffinityCacheKeySuffix (rule : Rule) (r : Request) (value : String) : String :=
  String.intercalate ":" (keyParts rule r value)

def channelAffinityCacheNamespace : String := "nexustok:channel_affinity:v1"

/-- The key under which the channel of a request is stored. -/
def cacheKeyFull (rule : Rule) (r : Request) (value : String) : String :=
  channelAffinityCacheNamespace ++ ":" ++ buildChannelAffinityCacheKeySuffix rule r value

/-! ### The cached channel -/

/-- What the gin context keeps of a match. -/
structure Context where
  cacheKey : Option String := none
  ttlSeconds : ℤ := 0
  skipRetry : Option Bool := none

def getChannelAffinityContext (c : Context) : Option (String × ℤ) :=
  match c.cacheKey with
  | none => none
  | some key => if key = "" then none else some (key, c.ttlSeconds)

def getPreferredChannelByAffinity (regex : String → String → Bool) (setting : Setting)
    (r : Request) (c : Context) (cache : CacheSpec ℤ) (now : ℤ) : Context × Option ℤ :=
  if !setting.enabled then (c, none)
  else
    match matchedRule regex setting.rules r with
    | none => (c, none)
    | some (rule, value) =>
      let ttlSeconds :=
        if rule.ttlSeconds ≤ 0 then setting.defaultTTLSeconds else rule.ttlSeconds
      let c := { c with cacheKey := some (cacheKeyFull rule r value), ttlSeconds := ttlSeconds }
      match (specCall channelAffinityCacheNamespace cache now
        (.get (buildChannelAffinityCacheKeySuffix rule r value))).2 with
      | .value (some channelID) => (c, some channelID)
      | _ => (c, none)

/-- The seconds for which a channel is recorded. -/
def recordTTL (setting : Setting) (ttlSeconds : ℤ) : ℤ :=
  let ttlSeconds := if ttlSeconds ≤ 0 then setting.defaultTTLSeconds else ttlSeconds
  if ttlSeconds ≤ 0 then 3600 else ttlSeconds

/-- The channel that is recorded, with the one that the context holds after a success. -/
def recordedChannel (setting : Setting) (successChannelID channelID : ℤ) : ℤ :=
  if setting.switchOnSuccess ∧ 0 < successChannelID then successChannelID else channelID

def recordChannelAffinity (setting : Setting) (c : Context) (successChannelID : ℤ)
    (cache : CacheSpec ℤ) (now channelID : ℤ) : CacheSpec ℤ :=
  if channelID ≤ 0 ∨ !setting.enabled then cache
  else
    match getChannelAffinityContext c with
    | none => cache
    | some (cacheKey, ttlSeconds) =>
      (specCall channelAffinityCacheNamespace cache now (.setWithTTL cacheKey
        (recordedChannel setting successChannelID channelID)
        (recordTTL setting ttlSeconds * 1000))).1

def clearCurrentChannelAffinityCache (c : Context) (cache : CacheSpec ℤ) (now : ℤ) :
    Context × CacheSpec ℤ × Bool :=
  match getChannelAffinityContext c with
  | none => (c, cache, false)
  | some (cacheKey, _) =>
    match specCall channelAffinityCacheNamespace cache now (.deleteMany [cacheKey]) with
    | (cache, .report deleted) =>
      ({ c with skipRetry := some false }, cache,
        (fullKeys channelAffinityCacheNamespace [cacheKey]).any fun k => deleted k == some true)
    | (cache, _) => (c, cache, false)

/-! ### What is stored where -/

section Stored

variable {regex : String → String → Bool} {setting : Setting} {r a b : Request} {rule : Rule}
  {value va vb : String}

/-- A value ends in no space. -/
theorem extract_getLast (r : Request) (src : KeySource) :
    ∀ c ∈ (extractChannelAffinityValue r src).toList.getLast?, isSpace c = false := by
  have hempty : ∀ c ∈ ("" : String).toList.getLast?, isSpace c = false := by simp
  have htrim (s : String) := (trimmed_trimSpace (s := s)).2
  unfold extractChannelAffinityValue
  split_ifs
  · exact hempty
  · intro c hc
    rw [String.toList_ofList] at hc
    have hdigit := Nat.isDigit_of_mem_toDigits (by decide) (by decide) (mem_of_mem_getLast? hc)
    have hrange : 48 ≤ c.toNat ∧ c.toNat ≤ 57 := Char.isDigit_iff_toNat.1 hdigit
    simp only [isSpace, Bool.or_eq_false_iff, Bool.and_eq_false_iff, decide_eq_false_iff_not,
      beq_eq_false_iff_ne]
    omega
  · exact hempty
  · exact htrim _
  · exact hempty
  · exact htrim _
  · exact hempty
  · split
    · exact hempty
    · exact htrim _
  · exact hempty

/-- The rule and the value that a request meets. -/
structure Met (regex : String → String → Bool) (setting : Setting) (r : Request) (rule : Rule)
    (value : String) : Prop where
  enabled : setting.enabled = true
  matched : matchedRule regex setting.rules r = some (rule, value)

theorem Met.value_spec (h : Met regex setting r rule value) :
    value ≠ "" ∧ ∀ c ∈ value.toList.getLast?, isSpace c = false := by
  obtain ⟨rule', -, hrule⟩ := exists_of_findSome?_eq_some h.matched
  dsimp only at hrule
  split_ifs at hrule with _ _ _ hne
  all_goals
    obtain ⟨rfl, rfl⟩ := Prod.mk.inj (Option.some.inj hrule)
    refine ⟨hne, ?_⟩
    unfold affinityValue
    cases hfind : (rule'.keySources.map (extractChannelAffinityValue r)).find? (· != "") with
    | none => simp
    | some v =>
      obtain ⟨src, -, rfl⟩ := mem_map.1 (mem_of_find?_eq_some hfind)
      exact extract_getLast r src

theorem keyParts_eq (rule : Rule) (r : Request) (value : String) :
    ∃ init, keyParts rule r value = init ++ [value] := ⟨_, rfl⟩

/-- A joined text ends as its last part does. -/
theorem exists_intercalate_append (init : List String) (last : String) :
    ∃ front, (String.intercalate ":" (init ++ [last])).toList = front ++ last.toList := by
  induction init with
  | nil => exact ⟨[], by simp⟩
  | cons part init ih =>
    obtain ⟨front, hfront⟩ := ih
    refine ⟨(part ++ ":").toList ++ front, ?_⟩
    rw [cons_append, intercalate_cons _ part (by simp), String.toList_append, hfront,
      append_assoc]

/-- The suffix of a key ends as the value does. -/
theorem Met.suffix_spec (h : Met regex setting r rule value) :
    buildChannelAffinityCacheKeySuffix rule r value ≠ "" ∧
      ∀ c ∈ (buildChannelAffinityCacheKeySuffix rule r value).toList.getLast?,
        isSpace c = false := by
  obtain ⟨init, hparts⟩ := keyParts_eq rule r value
  obtain ⟨hne, hlast⟩ := h.value_spec
  have hchars : value.toList ≠ [] := mt String.toList_eq_nil_iff.1 hne
  obtain ⟨front, hfront⟩ := exists_intercalate_append init value
  rw [← hparts] at hfront
  rw [buildChannelAffinityCacheKeySuffix, ← String.toList_inj.ne, hfront, getLast?_append_of_ne_nil _ hchars]
  exact ⟨append_ne_nil_of_right_ne_nil front hchars, hlast⟩

theorem namePrefix_namespace :
    namePrefix channelAffinityCacheNamespace = channelAffinityCacheNamespace ++ ":" := by decide

theorem Met.fullKey_cacheKeyFull (h : Met regex setting r rule value) :
    fullKey channelAffinityCacheNamespace (cacheKeyFull rule r value) =
      cacheKeyFull rule r value := by
  rw [cacheKeyFull, ← namePrefix_namespace]
  exact fullKey_append (by decide) h.suffix_spec.2

/-! ### Pieces -/

theorem toList_colon : (":" : String).toList = [':'] := rfl

/-- The pieces between the colons of the parts of a key. -/
def pieces (rule : Rule) (r : Request) (value : String) : List String :=
  (keyParts rule r value).flatMap (split ':')

theorem split_suffix (rule : Rule) (r : Request) (value : String) :
    split ':' (buildChannelAffinityCacheKeySuffix rule r value) = pieces rule r value := by
  obtain ⟨init, hparts⟩ := keyParts_eq rule r value
  refine split_intercalate toList_colon ?_
  rw [hparts]
  exact append_ne_nil_of_right_ne_nil init (cons_ne_nil value [])

theorem suffix_inj :
    buildChannelAffinityCacheKeySuffix rule a va = buildChannelAffinityCacheKeySuffix rule b vb ↔
      pieces rule a va = pieces rule b vb := by
  rw [← split_suffix, ← split_suffix]
  refine ⟨fun h => by rw [h], fun h => ?_⟩
  rw [← intercalate_split toList_colon (buildChannelAffinityCacheKeySuffix rule a va), h,
    intercalate_split toList_colon]

/-- **Pieces that the namespace leaves as they are**: the first one is not empty and starts with no
space, and they do not go on behind those of the namespace. -/
def Plain (l : List String) : Prop :=
  (l.head?.any fun first => first.toList.head?.any fun c => !isSpace c) = true ∧
    ¬["nexustok", "channel_affinity", "v1"] <+: l.dropLast

instance (l : List String) : Decidable (Plain l) := inferInstanceAs (Decidable (_ ∧ _))

/-- A text that goes on behind the namespace, in its pieces. -/
theorem hasPrefix_namespace_iff (s : String) :
    hasPrefix s (namePrefix channelAffinityCacheNamespace) = true ↔
      ["nexustok", "channel_affinity", "v1"] <+: (split ':' s).dropLast := by
  have hname : channelAffinityCacheNamespace =
      "nexustok" ++ ":" ++ ("channel_affinity" ++ ":" ++ "v1") := by decide
  have hjoined : ∀ l ≠ [], String.intercalate ":" (["nexustok", "channel_affinity", "v1"] ++ l) =
      namePrefix channelAffinityCacheNamespace ++ String.intercalate ":" l := by
    intro l hl
    rw [namePrefix_namespace, hname, cons_append, intercalate_cons _ _ (by simp),
      cons_append, intercalate_cons _ _ (by simp), cons_append,
      intercalate_cons _ _ (by simpa using hl), nil_append]
    simp only [String.append_assoc]
  have hpieces := split_ne_nil ':' s
  unfold hasPrefix
  rw [ isPrefixOf_iff_prefix]
  constructor
  · rintro ⟨rest, hrest⟩
    have hs : s = String.intercalate ":"
        (["nexustok", "channel_affinity", "v1"] ++ [String.ofList rest]) := by
      rw [hjoined _ (cons_ne_nil _ _), ← String.toList_inj, String.toList_append, ← hrest]
      simp
    rw [hs, split_intercalate toList_colon (by simp), flatMap_append, flatMap_singleton,
      dropLast_append_of_ne_nil (split_ne_nil ':' _)]
    exact prefix_append _ _
  · rintro ⟨l, hl⟩
    refine ⟨(String.intercalate ":" (l ++ [(split ':' s).getLast hpieces])).toList, ?_⟩
    rw [← String.toList_append, ← hjoined _ (by simp), ← append_assoc, hl,
      dropLast_append_getLast, intercalate_split toList_colon]

theorem plain_iff (s : String) : Plain (split ':' s) ↔ s ≠ "" ∧
    (∀ c ∈ s.toList.head?, isSpace c = false ∧ c ≠ ':') ∧
      hasPrefix s (namePrefix channelAffinityCacheNamespace) = false := by
  rw [Plain, ← hasPrefix_namespace_iff, Bool.not_eq_true, ← and_assoc]
  refine and_congr_left fun _ => ?_
  rw [split, ← String.toList_inj.ne]
  cases s.toList with
  | nil => simp
  | cons c cs =>
    rw [splitOn_cons_eq_if_modifyHead]
    by_cases hc : c = ':'
    · simp [hc]
    · rw [if_neg (by simpa using hc)]
      cases hsplit : cs.splitOn ':' with
      | nil => exact absurd hsplit (splitOn_ne_nil ':' cs)
      | cons first rest => simp [hc]

/-- **A channel is looked up where it is stored** iff the pieces of its key are plain. -/
theorem Met.fullKey_eq_iff (h : Met regex setting r rule value) :
    fullKey channelAffinityCacheNamespace (buildChannelAffinityCacheKeySuffix rule r value) =
      cacheKeyFull rule r value ↔ Plain (pieces rule r value) := by
  obtain ⟨hne, hlast⟩ := h.suffix_spec
  rw [cacheKeyFull, ← namePrefix_namespace, fullKey_eq_append_iff (by decide) hne hlast,
    ← split_suffix, plain_iff]
  exact (and_iff_right hne).symm

/-! ### Entries -/

theorem Met.get_eq (h : Met regex setting r rule value) (c : Context) (cache : CacheSpec ℤ)
    (now : ℤ) :
    getPreferredChannelByAffinity regex setting r c cache now =
      ({ c with
          cacheKey := some (cacheKeyFull rule r value)
          ttlSeconds :=
            if rule.ttlSeconds ≤ 0 then setting.defaultTTLSeconds else rule.ttlSeconds },
        cache.values.get now (fullKey channelAffinityCacheNamespace
          (buildChannelAffinityCacheKeySuffix rule r value))) := by
  simp only [getPreferredChannelByAffinity, h.enabled, h.matched, Bool.not_true,
    Bool.false_eq_true, if_false, specCall]
  cases cache.values.get now (fullKey channelAffinityCacheNamespace
    (buildChannelAffinityCacheKeySuffix rule r value)) <;> rfl

theorem Met.cacheKeyFull_ne (h : Met regex setting r rule value) : cacheKeyFull rule r value ≠ "" := by
  intro hempty
  have hnil := congrArg String.toList hempty
  rw [cacheKeyFull, String.toList_append] at hnil
  exact h.suffix_spec.1 (String.toList_eq_nil_iff.1 (append_eq_nil_iff.1 hnil).2)

/-- **The entry of a request**: recording writes it and clearing removes it, and nothing else. -/
def Owns (regex : String → String → Bool) (setting : Setting) (r : Request) (key : String) : Prop :=
  ∀ (c : Context) (cache₀ cache : CacheSpec ℤ) (t₀ t t' success channelID : ℤ) (k : String),
    0 < channelID →
    let c := (getPreferredChannelByAffinity regex setting r c cache₀ t₀).1
    (recordChannelAffinity setting c success cache t channelID).values.get t' k =
        (if k = key then
          if t' < t + recordTTL setting c.ttlSeconds * 1000 then
            some (recordedChannel setting success channelID)
          else none
        else cache.values.get t' k) ∧
      (clearCurrentChannelAffinityCache c cache t).2.1.values.get t' k =
        if k = key then none else cache.values.get t' k

theorem Met.owns (h : Met regex setting r rule value) :
    Owns regex setting r (cacheKeyFull rule r value) := by
  intro c cache₀ cache t₀ t t' success channelID k hpos
  have hcontext : ∀ ttl skip, getChannelAffinityContext
      ⟨some (cacheKeyFull rule r value), ttl, skip⟩ = some (cacheKeyFull rule r value, ttl) := by
    intro ttl skip
    simp only [getChannelAffinityContext, if_neg h.cacheKeyFull_ne]
  have hlive : ¬(channelID ≤ 0 ∨ (!setting.enabled) = true) := by
    rw [h.enabled]
    simpa using hpos
  dsimp only
  rw [h.get_eq]
  simp only [recordChannelAffinity, clearCurrentChannelAffinityCache, hcontext, if_neg hlive,
    specCall, h.fullKey_cacheKeyFull, if_neg h.cacheKeyFull_ne, Expiring.get_put,
    ExpiringEntry.live, Option.all_some, decide_eq_true_eq]
  refine ⟨trivial, ?_⟩
  rw [Expiring.get_deleteAll,
    fullKeys_eq (by simpa using ⟨h.fullKey_cacheKeyFull, h.cacheKeyFull_ne⟩)]
  simp only [mem_singleton]

theorem recordTTL_pos (setting : Setting) (ttlSeconds : ℤ) : 0 < recordTTL setting ttlSeconds := by
  simp only [recordTTL]
  split_ifs <;> omega

/-- **Both backends of the cache** take the calls of a request alike. -/
theorem Met.fits (h : Met regex setting r rule value) (cache : CacheSpec ℤ)
    (now ttlSeconds channelID : ℤ) {call : CacheCall ℤ}
    (hcall : call = .get (buildChannelAffinityCacheKeySuffix rule r value) ∨
      call = .setWithTTL (cacheKeyFull rule r value) channelID
        (recordTTL setting ttlSeconds * 1000) ∨
      call = .deleteMany [cacheKeyFull rule r value]) :
    FitsCall channelAffinityCacheNamespace (fun _ => False) cache now call := by
  have hpos := recordTTL_pos setting ttlSeconds
  rcases hcall with rfl | rfl | rfl
  · exact id
  · exact ⟨id, by omega, congrArg _ h.fullKey_cacheKeyFull⟩
  · exact fun _ _ => id

/-- **What is recorded is found** until it expires. -/
def Found (regex : String → String → Bool) (setting : Setting) (r : Request) : Prop :=
  ∀ (c c' : Context) (cache₀ cache : CacheSpec ℤ) (t₀ t t' success channelID : ℤ),
    0 < channelID →
    let c := (getPreferredChannelByAffinity regex setting r c cache₀ t₀).1
    t ≤ t' → t' < t + recordTTL setting c.ttlSeconds * 1000 →
    (getPreferredChannelByAffinity regex setting r c'
      (recordChannelAffinity setting c success cache t channelID) t').2 =
        some (recordedChannel setting success channelID)

/-- **What is recorded for one request is not read for another.** -/
def Unread (regex : String → String → Bool) (setting : Setting) (a b : Request) : Prop :=
  ∀ (c c' : Context) (cache₀ cache : CacheSpec ℤ) (t₀ t t' success channelID : ℤ),
    0 < channelID →
    let c := (getPreferredChannelByAffinity regex setting a c cache₀ t₀).1
    (getPreferredChannelByAffinity regex setting b c'
        (recordChannelAffinity setting c success cache t channelID) t').2 =
      (getPreferredChannelByAffinity regex setting b c' cache t').2

theorem Met.found_iff (h : Met regex setting r rule value) :
    Found regex setting r ↔ Plain (pieces rule r value) := by
  rw [← h.fullKey_eq_iff]
  constructor
  · intro hfound
    by_contra hne
    have hpos := recordTTL_pos setting
      (getPreferredChannelByAffinity regex setting r {} {} 0).1.ttlSeconds
    have hread := hfound {} {} {} {} 0 0 0 0 1 (by decide) (by decide) (by omega)
    rw [h.get_eq, (h.owns {} {} {} 0 0 0 0 1 _ (by decide)).1, if_neg hne] at hread
    cases hread
  · intro heq c c' cache₀ cache t₀ t t' success channelID hpos
    dsimp only
    intro hle hlt
    rw [h.get_eq _ (recordChannelAffinity ..), (h.owns c cache₀ cache t₀ t t' success channelID _ hpos).1, if_pos heq,
      if_pos hlt]

theorem Met.unread (ha : Met regex setting a rule va) (hb : Met regex setting b rule vb)
    (h : fullKey channelAffinityCacheNamespace (buildChannelAffinityCacheKeySuffix rule b vb) ≠
      cacheKeyFull rule a va) : Unread regex setting a b := by
  intro c c' cache₀ cache t₀ t t' success channelID hpos
  dsimp only
  rw [hb.get_eq, hb.get_eq, (ha.owns c cache₀ cache t₀ t t' success channelID _ hpos).1, if_neg h]

/-- The components of a request that a rule includes, and its value. -/
def included (rule : Rule) (r : Request) (value : String) : String × String × String :=
  (if rule.includeModelName then r.modelName else "",
    if rule.includeUsingGroup then r.usingGroup else "", value)

/-- **Requests keep their own channels**: each finds what is recorded for it and clears just that,
and where they differ in what the rule includes they share nothing. -/
structure KeptApart (regex : String → String → Bool) (setting : Setting) (rule : Rule)
    (a : Request) (va : String) (b : Request) (vb : String) : Prop where
  found : Found regex setting a ∧ Found regex setting b
  owns : Owns regex setting a (cacheKeyFull rule a va) ∧
    Owns regex setting b (cacheKeyFull rule b vb)
  apart : included rule a va ≠ included rule b vb →
    cacheKeyFull rule a va ≠ cacheKeyFull rule b vb ∧
      Unread regex setting a b ∧ Unread regex setting b a

/-- **Two requests that meet a rule keep their own channels** iff the pieces of both are plain, and
are different pieces where the requests differ in what the rule includes. -/
theorem keptApart_iff (ha : Met regex setting a rule va) (hb : Met regex setting b rule vb) :
    KeptApart regex setting rule a va b vb ↔
      Plain (pieces rule a va) ∧ Plain (pieces rule b vb) ∧
        (included rule a va ≠ included rule b vb → pieces rule a va ≠ pieces rule b vb) := by
  have hkey : cacheKeyFull rule a va = cacheKeyFull rule b vb ↔
      pieces rule a va = pieces rule b vb := by
    rw [← suffix_inj, cacheKeyFull, cacheKeyFull, ← String.toList_inj]
    simp only [String.toList_append, List.append_cancel_left_eq, String.toList_inj]
  constructor
  · intro h
    exact ⟨ha.found_iff.1 h.found.1, hb.found_iff.1 h.found.2, fun hne => mt hkey.2 (h.apart hne).1⟩
  · rintro ⟨hpa, hpb, hne⟩
    refine ⟨⟨ha.found_iff.2 hpa, hb.found_iff.2 hpb⟩, ⟨ha.owns, hb.owns⟩, fun hdiffer => ?_⟩
    have hkeys := mt hkey.1 (hne hdiffer)
    refine ⟨hkeys, ha.unread hb ?_, hb.unread ha ?_⟩
    · rw [hb.fullKey_eq_iff.2 hpb]
      exact Ne.symm hkeys
    · rw [ha.fullKey_eq_iff.2 hpa]
      exact hkeys

end Stored

/-- A rule for the id of a session, in a header. -/
def sessionRule : Rule :=
  { modelRegex := ["."], keySources := [{ type := "request_header", key := "X-Session" }] }

def sessionRequest (session : String) : Request :=
  { modelName := "gpt-4o", header := fun _ => session }

theorem keptApart_sessions :
    KeptApart (fun _ _ => true) { rules := [sessionRule] } sessionRule
      (sessionRequest "s-1") "s-1" (sessionRequest " s-2") "s-2" :=
  (keptApart_iff ⟨rfl, rfl⟩ ⟨rfl, rfl⟩).2 (by decide +kernel)

/-- **A session that starts with a colon** does not find its channel. -/
theorem not_found_colon :
    ¬Found (fun _ _ => true) { rules := [sessionRule] } (sessionRequest ":s-1") := by
  intro h
  exact absurd (h {} {} {} {} 0 0 0 0 7 (by decide) (by decide) (by decide)) (by decide)

end NexusTok.Affinity
