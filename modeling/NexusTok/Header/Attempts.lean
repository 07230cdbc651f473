import Mathlib.Algebra.GroupWithZero.Nat
import Mathlib.Algebra.Order.BigOperators.Group.List
import Mathlib.Algebra.Order.Group.Nat
import NexusTok.Header.Basic

/-!
# Header overrides over retries

A request that is retried on another channel should send the header overrides of that channel.  The
map that the param overrides leave in the request outlives the attempt: `InitChannelMeta` does not
drop it, and `GetEffectiveHeaderOverride` prefers it to the map of the channel.

* `headerAttempt_quiet` : an attempt whose channel has no param overrides, or whose param overrides
  fail, leaves nothing behind.
* `headerAttempt_own_unread` : after any other attempt, the header overrides of the channels are
  never read again.
* `headerAttempts_alone_iff` : a run sends on every attempt what the attempt sends alone, whatever
  channel comes last, exactly when all attempts before the last are quiet.
-/

namespace NexusTok

open List

variable {B C : Type} (tools : BodyTools B C) (r : HeaderRequest)

variable (a : HeaderAttempt B C)

/-- What an attempt sends as the only one: it depends on the request, the retry and the channel of
the attempt. -/
def sentAlone : Except OverrideError HeaderMap :=
  (headerAttempt tools r {} a).2

/-- An attempt without param overrides, or with param overrides that fail. -/
def QuietAttempt : Prop :=
  a.paramOverride.isEmpty = true ∨ ∃ e, applyParamOverrideWithRelayInfo tools r {} a = .error e

/-- The request after some attempts. -/
def infoAfter (before : List (HeaderAttempt B C)) (info : RuntimeHeaders) : RuntimeHeaders :=
  before.foldl (fun info a => (headerAttempt tools r info a).1) info

variable {tools r}

/-! ### Steps -/

theorem headerAttempt_quiet {a : HeaderAttempt B C} (h : QuietAttempt tools r a) :
    (headerAttempt tools r {} a).1 = {} := by
  unfold headerAttempt
  rcases h with h | ⟨e, he⟩
  · rw [if_pos h]
  · split_ifs
    · rfl
    · rw [he]

/-- Any other attempt leaves its map behind. -/
theorem headerAttempt_not_quiet {a : HeaderAttempt B C} (h : ¬QuietAttempt tools r a) :
    (headerAttempt tools r {} a).1.useRuntimeHeadersOverride = true := by
  obtain ⟨hempty, hok⟩ := not_or.1 h
  unfold headerAttempt
  rw [if_neg hempty]
  rcases happly : applyParamOverrideWithRelayInfo tools r {} a with e | p
  · exact absurd ⟨e, happly⟩ hok
  unfold applyParamOverrideWithRelayInfo at happly
  split at happly
  · exact absurd happly (by simp)
  · cases happly
    rfl

/-- Once a map was left behind, every later attempt finds one. -/
theorem headerAttempt_keeps {info : RuntimeHeaders} (h : info.useRuntimeHeadersOverride = true) :
    (headerAttempt tools r info a).1.useRuntimeHeadersOverride = true := by
  unfold headerAttempt
  split_ifs
  · exact h
  · cases happly : applyParamOverrideWithRelayInfo tools r info a with
    | error e => exact h
    | ok p =>
      unfold applyParamOverrideWithRelayInfo at happly
      split at happly
      · exact absurd happly (by simp)
      · cases happly
        rfl

/-- Where a map was left behind, the header overrides of the channel are not read. -/
theorem headerAttempt_own_unread {info : RuntimeHeaders}
    (h : info.useRuntimeHeadersOverride = true) (own : KeyMap ConfigValue) :
    headerAttempt tools r info { a with headersOverride := own } = headerAttempt tools r info a := by
  have heffective : ∀ i : RuntimeHeaders, i.useRuntimeHeadersOverride = true →
      getEffectiveHeaderOverride i { a with headersOverride := own } =
        getEffectiveHeaderOverride i a := by
    intro i hi
    simp only [getEffectiveHeaderOverride, hi, if_true]
  have happly : applyParamOverrideWithRelayInfo tools r info { a with headersOverride := own } =
      applyParamOverrideWithRelayInfo tools r info a := by
    simp only [applyParamOverrideWithRelayInfo, buildParamOverrideContext, heffective info h]
  have hkeeps : (headerAttempt tools r info a).1.useRuntimeHeadersOverride = true :=
    headerAttempt_keeps a h
  unfold headerAttempt at hkeeps ⊢
  rw [happly]
  dsimp only
  split_ifs at hkeeps ⊢
  · rw [heffective info h]
  · cases hp : applyParamOverrideWithRelayInfo tools r info a with
    | error e => rfl
    | ok p =>
      rw [hp] at hkeeps
      simp only [heffective p.1 hkeeps]

/-! ### Runs -/

/-- Quiet attempts leave nothing behind. -/
theorem infoAfter_quiet {before : List (HeaderAttempt B C)}
    (h : ∀ b ∈ before, QuietAttempt tools r b) : infoAfter tools r before {} = {} := by
  induction before with
  | nil => rfl
  | cons b before ih =>
    simp only [infoAfter, foldl_cons, headerAttempt_quiet (h b mem_cons_self)]
    exact ih fun b' hb' => h b' (mem_cons_of_mem b hb')

theorem infoAfter_keeps {before : List (HeaderAttempt B C)} {info : RuntimeHeaders}
    (h : info.useRuntimeHeadersOverride = true) :
    (infoAfter tools r before info).useRuntimeHeadersOverride = true := by
  induction before generalizing info with
  | nil => exact h
  | cons b before ih => exact ih (headerAttempt_keeps b h)

/-- One attempt that is not quiet is enough to leave a map behind. -/
theorem infoAfter_not_quiet {before : List (HeaderAttempt B C)}
    (h : ¬∀ b ∈ before, QuietAttempt tools r b) :
    (infoAfter tools r before {}).useRuntimeHeadersOverride = true := by
  induction before with
  | nil => exact absurd (fun b hb => absurd hb not_mem_nil) h
  | cons b before ih =>
    by_cases hb : QuietAttempt tools r b
    · simp only [infoAfter, foldl_cons, headerAttempt_quiet hb]
      exact ih fun hall => h (forall_mem_cons.2 ⟨hb, hall⟩)
    · have hkeeps : (infoAfter tools r before
          (headerAttempt tools r {} b).1).useRuntimeHeadersOverride = true :=
        infoAfter_keeps (headerAttempt_not_quiet hb)
      exact hkeeps

/-- The attempts of a run, the last one apart. -/
theorem headerAttempts_append (before : List (HeaderAttempt B C)) (a : HeaderAttempt B C)
    (info : RuntimeHeaders) :
    headerAttempts tools r info (before ++ [a]) =
      headerAttempts tools r info before ++
        [(headerAttempt tools r (infoAfter tools r before info) a).2] := by
  induction before generalizing info with
  | nil => rfl
  | cons b before ih => simp only [cons_append, headerAttempts, ih, infoAfter, foldl_cons]

/-! ### A header that was not there -/

variable (headers : HeaderMap)

/-- A name that is longer than those of some headers. -/
def freshName : String :=
  String.ofList (List.replicate ((headers.map fun e => e.1.toList.length).sum + 1) 'x')

theorem freshName_not_mem (v : String) : (freshName headers, v) ∉ headers := by
  intro hmem
  have hle := le_sum_of_mem (mem_map_of_mem (f := fun e => e.1.toList.length) hmem)
  simp [freshName] at hle

theorem toList_freshName : ∃ n, (freshName headers).toList = List.replicate (n + 1) 'x' :=
  ⟨_, String.toList_ofList⟩

theorem toLower_freshName : toLower (freshName headers) = freshName headers := by
  obtain ⟨n, hn⟩ := toList_freshName headers
  unfold toLower
  rw [hn, map_replicate, show lowerChar 'x' = 'x' by decide, ← hn, String.ofList_toList]

theorem trimSpace_freshName : trimSpace (freshName headers) = freshName headers := by
  obtain ⟨n, hn⟩ := toList_freshName headers
  refine trimSpace_of_trimmed ⟨fun c hc => ?_, fun c hc => ?_⟩
  · have : 'x' = c := by simpa [hn, replicate_succ] using hc
    rw [← this]
    decide
  · have : 'x' = c := by simpa [hn, getLast?_replicate] using hc
    rw [← this]
    decide

theorem normalize_freshName :
    normalizeHeaderContextKey (freshName headers) = freshName headers := by
  rw [normalizeHeaderContextKey, toLower_freshName, trimSpace_freshName]

theorem freshName_ne {headers : HeaderMap} {s : String} (h : 'x' ∉ s.toList) :
    freshName headers ≠ s := by
  rintro rfl
  obtain ⟨n, hn⟩ := toList_freshName headers
  exact h (by simp [hn])

theorem freshName_not_hasPrefix {c : Char} (cs : List Char) (h : c ≠ 'x') :
    hasPrefix (freshName headers) (String.ofList (c :: cs)) = false := by
  obtain ⟨n, hn⟩ := toList_freshName headers
  simp [hasPrefix, hn, replicate_succ, List.isPrefixOf, h]

/-- A channel that sends one header of its own. -/
def ownHeader (name : String) : HeaderAttempt B C :=
  { a with paramOverride := {}, headersOverride := [(name, .text "x")] }

theorem sentAlone_ownHeader (headers : HeaderMap) :
    sentAlone tools r (ownHeader a (freshName headers)) = .ok [(freshName headers, "x")] := by
  have hnorm := normalize_freshName headers
  have hkey : trimSpace (toLower (freshName headers)) = freshName headers := hnorm
  have hne : freshName headers ≠ "" := freshName_ne (by decide)
  have hstar : freshName headers ≠ "*" := freshName_ne (by decide)
  have hre : hasPrefix (freshName headers) "re:" = false :=
    freshName_not_hasPrefix headers ['e', ':'] (show 'r' ≠ 'x' by decide)
  have hregex : hasPrefix (freshName headers) "regex:" = false :=
    freshName_not_hasPrefix headers ['e', 'g', 'e', 'x', ':'] (show 'r' ≠ 'x' by decide)
  have hx : trimSpace "x" = "x" := by decide
  have hsource : getEffectiveHeaderOverride {} (ownHeader a (freshName headers)) =
      [(freshName headers, "x")] := by
    simp [getEffectiveHeaderOverride, ownHeader, sanitizeConfigured, sanitizeEntry, hnorm, hne,
      ConfigValue.sprint, hx, KeyMap.put]
  have hrule : isHeaderPassthroughRuleKey (freshName headers) = false := by
    simp [isHeaderPassthroughRuleKey, trimSpace_freshName, toLower_freshName, hne, hstar, hre,
      hregex]
  have hpattern : rulePattern (freshName headers) = none := by
    simp [rulePattern, cutPrefix, hre, hregex]
  have hrules : passthroughRules r.compile [(freshName headers, "x")] = .ok (false, []) := by
    simp [passthroughRules, hkey, hne, hstar, hpattern]
  have hvalue : applyHeaderOverridePlaceholders "x" r.client (ownHeader a (freshName headers)).apiKey =
      .ok (some "x") := by
    have hno : cutPrefix "x" clientHeaderPlaceholder = none := by decide
    have hnokey : containsText "x" apiKeyPlaceholder = false := by decide
    simp [applyHeaderOverridePlaceholders, hx, hno, hnokey]
  have hplain : hasPrefix (trimSpace "x") clientHeaderPlaceholder = false := by decide
  have hempty : (ownHeader a (freshName headers)).paramOverride.isEmpty = true := rfl
  simp only [sentAlone, headerAttempt, hempty, if_true, hsource, processHeaderOverride]
  rw [hrules]
  simp [explicitOverrides, hrule, hkey, hne, hplain, hvalue, KeyMap.put]

theorem headerAttempts_quiet {before : List (HeaderAttempt B C)}
    (h : ∀ b ∈ before, QuietAttempt tools r b) :
    headerAttempts tools r {} before = before.map (sentAlone tools r) := by
  induction before with
  | nil => rfl
  | cons b before ih =>
    simp only [headerAttempts, map_cons, headerAttempt_quiet (h b mem_cons_self)]
    rw [ih fun b' hb' => h b' (mem_cons_of_mem b hb')]
    rfl

/-- **Each attempt sends its own header overrides, as if it were the only one**, whatever channel
comes last, exactly when every attempt before the last has no param overrides or fails in them. -/
theorem headerAttempts_alone_iff (before : List (HeaderAttempt B C)) :
    (∀ a, headerAttempts tools r {} (before ++ [a]) = (before ++ [a]).map (sentAlone tools r)) ↔
      ∀ b ∈ before, QuietAttempt tools r b := by
  constructor
  · intro halone
    by_contra hloud
    have huse := infoAfter_not_quiet hloud
    obtain ⟨b, hb⟩ : ∃ b, b ∈ before := by
      by_contra hnone
      exact hloud fun b hb => absurd ⟨b, hb⟩ hnone
    have hlast : ∀ a, (headerAttempt tools r (infoAfter tools r before {}) a).2 =
        sentAlone tools r a := by
      intro a
      have h := halone a
      rw [headerAttempts_append, List.map_append] at h
      have := (List.append_inj' h rfl).2
      simpa using this
    -- the last channel has a header of its own that nothing left behind has
    cases hsent : sentAlone tools r (ownHeader b "") with
    | error e =>
      have h1 := hlast (ownHeader b (freshName []))
      rw [sentAlone_ownHeader] at h1
      have h2 := hlast (ownHeader b "")
      rw [hsent] at h2
      have h3 : headerAttempt tools r (infoAfter tools r before {}) (ownHeader b (freshName [])) =
          headerAttempt tools r (infoAfter tools r before {}) (ownHeader b "") :=
        headerAttempt_own_unread (ownHeader b "") huse _
      exact absurd (h1.symm.trans ((congrArg Prod.snd h3).trans h2)) (by simp)
    | ok headers =>
      have h1 := hlast (ownHeader b (freshName headers))
      rw [sentAlone_ownHeader] at h1
      have h2 := hlast (ownHeader b "")
      rw [hsent] at h2
      have h3 : headerAttempt tools r (infoAfter tools r before {})
            (ownHeader b (freshName headers)) =
          headerAttempt tools r (infoAfter tools r before {}) (ownHeader b "") :=
        headerAttempt_own_unread (ownHeader b "") huse _
      have h4 := Except.ok.inj (h1.symm.trans ((congrArg Prod.snd h3).trans h2))
      refine freshName_not_mem headers "x" ?_
      exact (congrArg (fun l => (freshName headers, "x") ∈ l) h4).mp (List.mem_singleton_self _)
  · intro hquiet a
    rw [headerAttempts_append, headerAttempts_quiet hquiet, infoAfter_quiet hquiet, List.map_append]
    rfl

/-! ### The run that breaks it -/

/-- A JSON library for param overrides without conditions that leave the body. -/
def headerTools : BodyTools Unit Unit where
  legacy data _ := .ok data
  conditionsHold _ _ op := .ok op.conditions.isEmpty
  operate data _ _ := .ok data
  read _ _ := none
  write data _ _ := .ok data
  passNames _ := .error (.text "pass_headers value is required")

/-- A channel that sets its credential in a param override. -/
def settingChannel : HeaderAttempt Unit Unit where
  facts := ()
  body := ()
  paramOverride := { operations := some [{ mode := "set_header", path := "Authorization",
                                           value := .text "Bearer first" }] }

/-- A channel with a header override. -/
def overridingChannel : HeaderAttempt Unit Unit where
  facts := ()
  body := ()
  headersOverride := [("X-Own", .text "second")]

/-- The credential of the first channel goes to the second, and the header override of the second
is lost. -/
theorem earlierCredential_sent :
    headerAttempts headerTools { client := some [] } {} [settingChannel, overridingChannel] =
        [.ok [("authorization", "Bearer first")], .ok [("authorization", "Bearer first")]] ∧
      sentAlone headerTools { client := some [] } overridingChannel = .ok [("x-own", "second")] ∧
      headerAttempts headerTools { client := some [] } {} [settingChannel, overridingChannel] ≠
        [settingChannel, overridingChannel].map (sentAlone headerTools { client := some [] }) := by
  decide +kernel

end NexusTok
