import NexusTok.Text.Replace

/-!
# Routes of plugins

A plugin declares routes by path patterns: fixed segments, `:name` for one segment and, at the end,
`*name` for the rest.  The host keeps namespaces for itself and refuses every route that could
capture a path in one of them; and it keeps one route for each shape of a pattern, which forgets
the names.

* `PathPattern.intersects_iff` : the test of a pattern against a namespace is exact.
* `PathPattern.eq_of_sameMatches` : patterns that match the same paths are equal.
* `routePattern_spec` : both for the routes that a plugin may declare, on paths as text.
-/

namespace NexusTok

open List

/-! ### Patterns -/

/-- A segment of a pattern: fixed, any one segment that is not empty, or all that is left. -/
inductive PathPiece (α : Type) where
  | fixed (a : α)
  | one
  | rest
  deriving DecidableEq

/-- A pattern of paths over segments of any type. -/
abbrev PathPattern (α : Type) := List (PathPiece α)

namespace PathPattern

variable {α : Type} {e : α}

/-- The paths that a pattern matches; `e` is the empty segment. -/
def Matches (e : α) : PathPattern α → List α → Prop
  | [], path => path = []
  | .rest :: _, path => path ≠ []
  | _ :: _, [] => False
  | .fixed a :: p, t :: path => t = a ∧ Matches e p path
  | .one :: p, t :: path => t ≠ e ∧ Matches e p path

/-- Nothing comes after the rest. -/
def Ended (p : PathPattern α) : Prop := ∀ a b, p = a ++ .rest :: b → b = []

/-- Whether the pattern takes the segments of a namespace, one by one. -/
def intersects [DecidableEq α] : PathPattern α → List α → Bool
  | _, [] => true
  | [], _ :: _ => false
  | .rest :: _, _ :: _ => true
  | .one :: p, _ :: ns => intersects p ns
  | .fixed a :: p, n :: ns => a = n && intersects p ns

variable {p q : PathPattern α}

theorem Ended.tail {x : PathPiece α} (h : Ended (x :: p)) : Ended p :=
  fun a b hp => h (x :: a) b (by rw [hp, cons_append])

/-- The fixed segments of a pattern are ones that a path may have. -/
def Over (good : α → Prop) (p : PathPattern α) : Prop := ∀ a, .fixed a ∈ p → good a

variable {good : α → Prop}

theorem Over.tail {x : PathPiece α} (h : Over good (x :: p)) : Over good p :=
  fun a ha => h a (mem_cons_of_mem x ha)

/-- Every pattern matches a path, where there is a segment that is not empty. -/
theorem exists_matches {t : α} (hg : good t) (ht : t ≠ e) (hp : Over good p) :
    ∃ path, (∀ t ∈ path, good t) ∧ p.Matches e path := by
  induction p with
  | nil => exact ⟨[], by simp, rfl⟩
  | cons x p ih =>
    obtain ⟨path, hpath, hm⟩ := ih hp.tail
    cases x with
    | fixed a =>
      exact ⟨a :: path, forall_mem_cons.mpr ⟨hp a mem_cons_self, hpath⟩, rfl, hm⟩
    | one => exact ⟨t :: path, forall_mem_cons.mpr ⟨hg, hpath⟩, ht, hm⟩
    | rest => exact ⟨[t], by simpa using hg, by simp [Matches]⟩

/-- **The test of a namespace is exact**: a pattern passes it where it matches a path that starts
with the segments of the namespace.  An empty segment at the end of the pattern, `s`, does not
count. -/
theorem intersects_iff [DecidableEq α] (e : α) (good : α → Prop) {t : α} (hg : good t) (ht : t ≠ e) {s : PathPattern α}
    (hs : s = [] ∨ s = [.fixed e]) {ns : List α} (hns : e ∉ ns) (hp : Over good (p ++ s)) :
    intersects p ns ↔ ∃ path, (∀ t ∈ path, good t) ∧ (p ++ s).Matches e (ns ++ path) := by
  induction ns generalizing p with
  | nil => simpa [intersects] using exists_matches hg ht hp
  | cons n ns ih =>
    rw [mem_cons, not_or] at hns
    cases p with
    | nil =>
      refine ⟨fun h => by simp [intersects] at h, ?_⟩
      rintro ⟨path, -, h⟩
      obtain rfl | rfl := hs
      · simp [Matches] at h
      · exact absurd h.1.symm hns.1
    | cons x p =>
      cases x with
      | fixed a =>
        simp only [intersects, Bool.and_eq_true, decide_eq_true_eq, ih hns.2 hp.tail,
          cons_append, Matches]
        refine ⟨fun ⟨h, path, hpath, hm⟩ => ⟨path, hpath, h.symm, hm⟩, ?_⟩
        rintro ⟨path, hpath, h, hm⟩
        exact ⟨h.symm, path, hpath, hm⟩
      | one =>
        simp only [intersects, ih hns.2 hp.tail, cons_append, Matches]
        exact exists_congr fun path => and_congr_right fun _ =>
          (and_iff_right (Ne.symm hns.1)).symm
      | rest => exact ⟨fun _ => ⟨[], by simp, by simp [Matches]⟩, fun _ => rfl⟩

/-- Patterns over the paths that there may be match the same ones. -/
def SameMatches (e : α) (good : α → Prop) (p q : PathPattern α) : Prop :=
  ∀ path, (∀ t ∈ path, good t) → (p.Matches e path ↔ q.Matches e path)

/-- Two patterns that start alike match the same paths only where what is left of them does. -/
theorem SameMatches.tail {x : PathPiece α} (hx : x ≠ .rest) {t : α} (hg : good t) (ht : t ≠ e)
    (hp : Over good (x :: p)) (h : SameMatches e good (x :: p) (x :: q)) :
    SameMatches e good p q := by
  intro path hpath
  cases x with
  | fixed a =>
    simpa [Matches] using
      h (a :: path) (forall_mem_cons.mpr ⟨hp a mem_cons_self, hpath⟩)
  | one => simpa [Matches, ht] using h (t :: path) (forall_mem_cons.mpr ⟨hg, hpath⟩)
  | rest => exact absurd rfl hx

/-- **Patterns that match the same paths are equal**, where there are segments enough to tell a
fixed one from any other. -/
theorem eq_of_sameMatches (e : α) (good : α → Prop) (he : good e) (other : ∀ a : α, ∃ t, good t ∧ t ≠ e ∧ t ≠ a)
    (hp : p.Ended) (hq : q.Ended) (op : Over good p) (oq : Over good q)
    (h : SameMatches e good p q) : p = q := by
  obtain ⟨t, hg, ht, -⟩ := other e
  induction p generalizing q with
  | nil =>
    cases q with
    | nil => rfl
    | cons y q => cases y <;> simpa [Matches] using h [] (by simp)
  | cons x p ih =>
    cases q with
    | nil => cases x <;> simpa [Matches] using h [] (by simp)
    | cons y q =>
      have tails (hxy : x = y) (hx : x ≠ .rest) : x :: p = y :: q := by
        subst hxy
        rw [ih hp.tail hq.tail op.tail oq.tail (h.tail hx hg ht op)]
      have fixed_ne_rest (a : α) {p : PathPattern α}
          (h : SameMatches e good (.fixed a :: p) [.rest]) : False := by
        obtain ⟨u, hu, -, hua⟩ := other a
        simpa [Matches, hua] using h [u] (by simpa using hu)
      have fixed_ne_one (a : α) {p q : PathPattern α} (oq : Over good q)
          (h : SameMatches e good (.fixed a :: p) (.one :: q)) : False := by
        obtain ⟨u, hu, hue, hua⟩ := other a
        obtain ⟨path, hpath, hm⟩ := exists_matches hg ht oq
        simpa [Matches, hue, hua, hm] using h (u :: path) (forall_mem_cons.mpr ⟨hu, hpath⟩)
      have one_ne_rest {p : PathPattern α} (h : SameMatches e good (.one :: p) [.rest]) :
          False := by
        simpa [Matches] using h [e] (by simpa using he)
      have swapped : SameMatches e good (y :: q) (x :: p) := fun path hpath => (h path hpath).symm
      cases x with
      | rest =>
        obtain rfl := hp [] p rfl
        cases y with
        | rest => rw [hq [] q rfl]
        | one => exact (one_ne_rest swapped).elim
        | fixed b => exact (fixed_ne_rest b swapped).elim
      | one =>
        cases y with
        | rest => exact (one_ne_rest (hq [] q rfl ▸ h)).elim
        | one => exact tails rfl (by simp)
        | fixed b => exact (fixed_ne_one b op.tail swapped).elim
      | fixed a =>
        cases y with
        | rest => exact (fixed_ne_rest a (hq [] q rfl ▸ h)).elim
        | one => exact (fixed_ne_one a oq.tail h).elim
        | fixed b =>
          obtain ⟨path, hpath, hm⟩ := exists_matches hg ht op.tail
          have hab : a = b := ((h (a :: path) (forall_mem_cons.mpr
            ⟨op a mem_cons_self, hpath⟩)).mp ⟨rfl, hm⟩).1
          exact tails (by rw [hab]) (by simp)

end PathPattern

/-! ### Routes -/

/-- What a route path is refused for. -/
inductive RoutePathError where
  /-- `plugin route path must start with /` -/
  | start
  /-- `plugin route path / is reserved` -/
  | root
  /-- `plugin route path "path" must not contain a query, fragment, or percent-encoding` -/
  | encoding (path : String)
  /-- `plugin route path "path" must not contain empty segments` -/
  | emptySegments (path : String)
  /-- `plugin route path "path" must not contain dot segments` -/
  | dotSegments (path : String)
  /-- `plugin route path "path" has invalid parameter "segment"` -/
  | parameter (path segment : String)
  /-- `plugin route path "path" repeats parameter "name"` -/
  | repeated (path name : String)
  /-- `plugin route path "path" has an invalid catch-all segment` -/
  | catchAll (path : String)
  /-- `plugin route path "path" has invalid segment "segment"` -/
  | segment (path segment : String)
  deriving Repr, DecidableEq

/-- `[A-Za-z_]` -/
def isNameStart (c : Char) : Bool :=
  ('a' ≤ c && c ≤ 'z') || ('A' ≤ c && c ≤ 'Z') || c == '_'

def pathNamePattern (name : String) : Bool :=
  match name.toList with
  | [] => false
  | c :: cs => isNameStart c && cs.all fun c => isNameStart c || ('0' ≤ c && c ≤ '9')

def staticSegment (segment : String) : Bool :=
  segment != "" && segment.toList.all fun c =>
    isNameStart c || ('0' ≤ c && c ≤ '9') || c == '.' || c == '~' || c == '-'

/-- The loop of `NormalizeRoutePath` over the segments that are left. -/
def checkSegments (routePath : String) : List String → List String → Except RoutePathError Unit
  | _, [] => .ok ()
  | seenNames, segment :: segments =>
    if segment = "" ∧ segments = [] then .ok ()
    else if segment = "." ∨ segment = ".." then .error (.dotSegments routePath)
    else
      match cutPrefix segment ":", cutPrefix segment "*" with
      | some name, _ =>
        if ¬ pathNamePattern name then .error (.parameter routePath segment)
        else if name ∈ seenNames then .error (.repeated routePath name)
        else checkSegments routePath (name :: seenNames) segments
      | none, some name =>
        if segments ≠ [] ∨ ¬ pathNamePattern name then .error (.catchAll routePath)
        else if name ∈ seenNames then .error (.repeated routePath name)
        else checkSegments routePath (name :: seenNames) segments
      | none, none =>
        if ¬ staticSegment segment then .error (.segment routePath segment)
        else checkSegments routePath seenNames segments

/-- `strings.TrimPrefix` of one character. -/
def trimFirst (c : Char) (s : String) : String :=
  match s.toList with
  | d :: cs => if d = c then String.ofList cs else s
  | [] => s

def pathSegments (path : String) : List String := split '/' (trimFirst '/' path)

def normalizeRoutePath (routePath : String) : Except RoutePathError String :=
  if routePath.toList.head? ≠ some '/' then .error .start
  else if routePath = "/" then .error .root
  else if routePath.toList.any fun c => c = '?' || c = '#' || c = '%' then
    .error (.encoding routePath)
  else if containsText routePath "//" then .error (.emptySegments routePath)
  else
    match checkSegments routePath [] (pathSegments routePath) with
    | .error e => .error e
    | .ok () => .ok routePath

def shapeSegment (segment : String) : String :=
  if hasPrefix segment ":" then ":" else if hasPrefix segment "*" then "*" else segment

/-- The shape of a path. -/
def shapeText (normalized : String) : String :=
  "/" ++ String.intercalate "/" ((pathSegments normalized).map shapeSegment)

def routePathShape (routePath : String) : Except RoutePathError String :=
  match normalizeRoutePath routePath with
  | .error e => .error e
  | .ok normalized => .ok (shapeText normalized)

/-- The loop of `routePatternIntersectsNamespace`. -/
def segmentsIntersect : List String → List String → Bool
  | _, [] => true
  | [], _ :: _ => false
  | routeSegment :: routeSegments, namespaceSegment :: namespaceSegments =>
    if hasPrefix routeSegment "*" then true
    else if !hasPrefix routeSegment ":" && routeSegment != namespaceSegment then false
    else segmentsIntersect routeSegments namespaceSegments

def routePatternIntersectsNamespace (routePath reserved : String) : Bool :=
  segmentsIntersect (split '/' (trim '/' (trimFirst '/' routePath))) (pathSegments reserved)

def reservedRouteNamespaces : List String :=
  ["/api", "/assets", "/setup", "/v1/tasks", "/console", "/login", "/forbidden", "/sign-in",
    "/sign-up", "/forgot-password", "/oauth", "/otp", "/register", "/reset", "/privacy-policy",
    "/user-agreement", "/about", "/pricing", "/rankings", "/user", "/401", "/403", "/404", "/500",
    "/503", "/chat2link", "/system-settings", "/channels", "/chat", "/dashboard", "/errors",
    "/keys", "/models", "/playground", "/profile", "/redemption-codes", "/subscriptions",
    "/system-info", "/task-plugins", "/usage-logs", "/users", "/wallet"]

def intersectingReservedNamespace (routePath : String) : Option String :=
  reservedRouteNamespaces.find? (routePatternIntersectsNamespace routePath)

/-! ### What a route matches -/

/-- The piece that a segment of a route stands for. -/
def routePiece (segment : String) : PathPiece String :=
  if hasPrefix segment ":" then .one else if hasPrefix segment "*" then .rest else .fixed segment

def routePattern (routePath : String) : PathPattern String :=
  (pathSegments routePath).map routePiece

/-- A route matches a concrete path. -/
def RouteMatches (routePath path : String) : Prop :=
  path.toList.head? = some '/' ∧ (routePattern routePath).Matches "" (pathSegments path)

/-- A path equals a namespace or lies below it. -/
def InNamespace (reserved path : String) : Prop :=
  path = reserved ∨ hasPrefix path (reserved ++ "/")

/-! ### Paths as text -/

/-- Joined parts are joined where two lists of them meet. -/
theorem intercalate_append {xs ys : List (List Char)} (c : Char) (hx : xs ≠ []) (hy : ys ≠ []) :
    [c].intercalate (xs ++ ys) = [c].intercalate xs ++ c :: [c].intercalate ys := by
  induction xs with
  | nil => exact absurd rfl hx
  | cons x xs ih =>
    cases xs with
    | nil => rw [singleton_append, intercalate_cons_of_ne_nil hy]; simp
    | cons x' xs =>
      rw [cons_append, intercalate_cons_of_ne_nil (by simp), ih (by simp),
        intercalate_cons_cons]
      simp

/-- A text whose parts start with all the parts of another starts with that text. -/
theorem of_splitOn_append {c : Char} {l r : List Char} {tail : List (List Char)}
    (h : l.splitOn c = r.splitOn c ++ tail) : l = r ∨ ∃ m, l = r ++ c :: m := by
  have hl := congrArg ([c].intercalate ·) h
  simp only [intercalate_splitOn] at hl
  by_cases ht : tail = []
  · rw [ht, append_nil, intercalate_splitOn] at hl
    exact .inl hl
  · rw [intercalate_append c (splitOn_ne_nil c r) ht, intercalate_splitOn] at hl
    exact .inr ⟨_, hl⟩

variable {path s start routePath segment a b : String}

theorem pathSegments_eq {l : List Char} (h : path.toList = '/' :: l) :
    pathSegments path = (l.splitOn '/').map String.ofList := by
  rw [pathSegments, split, trimFirst, h]
  simp

theorem toList_of_head (h : path.toList.head? = some '/') : ∃ l, path.toList = '/' :: l := by
  cases hp : path.toList with
  | nil => simp [hp] at h
  | cons c l =>
    rw [hp] at h
    exact ⟨l, by rw [Option.some.inj h]⟩

theorem inNamespace_iff {reserved : String} {r : List Char} (hr : reserved.toList = '/' :: r) :
    InNamespace reserved path ↔ path.toList.head? = some '/' ∧
      ∃ tail, pathSegments path = pathSegments reserved ++ tail := by
  rw [pathSegments_eq hr]
  constructor
  · rintro (rfl | h)
    · exact ⟨by rw [hr]; rfl, [], by rw [pathSegments_eq hr, append_nil]⟩
    · obtain ⟨m, hm⟩ := isPrefixOf_iff_prefix.mp h
      have hp : path.toList = '/' :: (r ++ '/' :: m) := by
        rw [← hm, String.toList_append, hr]
        simp
      refine ⟨by rw [hp]; rfl, (m.splitOn '/').map String.ofList, ?_⟩
      rw [pathSegments_eq hp, splitOn_append_cons_self, map_append]
  · rintro ⟨hhead, tail, htail⟩
    obtain ⟨l, hl⟩ := toList_of_head hhead
    rw [pathSegments_eq hl] at htail
    obtain ⟨tail', rfl⟩ : ∃ tail' : List (List Char), tail = tail'.map String.ofList :=
      ⟨tail.map String.toList, by simp [Function.comp_def]⟩
    rw [← map_append] at htail
    have hsplit := map_injective_iff.mpr (fun a b h => String.ofList_injective h) htail
    obtain rfl | ⟨m, rfl⟩ := of_splitOn_append hsplit
    · exact .inl (String.toList_inj.mp (hl.trans hr.symm))
    · refine .inr ( isPrefixOf_iff_prefix.mpr ⟨m, ?_⟩)
      rw [hl, String.toList_append, hr]
      simp

/-! ### Accepted routes -/

theorem cutPrefix_eq_none (h : cutPrefix s start = none) : hasPrefix s start = false := by
  unfold cutPrefix at h
  split_ifs at h with hp
  simpa using hp

theorem cutPrefix_eq_some {rest : String} (h : cutPrefix s start = some rest) :
    hasPrefix s start = true := by
  unfold cutPrefix at h
  split_ifs at h with hp
  exact hp

theorem not_star_and_colon (h : hasPrefix s "*" = true) (h' : hasPrefix s ":" = true) : False := by
  obtain ⟨m, hm⟩ := isPrefixOf_iff_prefix.mp h
  obtain ⟨m', hm'⟩ := isPrefixOf_iff_prefix.mp h'
  rw [← hm] at hm'
  simp at hm'

theorem ne_empty_of_hasPrefix (hne : start ≠ "") (h : hasPrefix s start = true) : s ≠ "" := by
  rintro rfl
  have hp := isPrefixOf_iff_prefix.mp h
  exact hne (String.toList_inj.mp (prefix_nil.mp hp))

/-- One segment of an accepted route that is not its last: it is not empty and takes no rest, and
the segments behind it are accepted too. -/
theorem checkSegments_cons {seenNames segments : List String}
    (hne : segments ≠ []) (h : checkSegments routePath seenNames (segment :: segments) = .ok ()) :
    segment ≠ "" ∧ hasPrefix segment "*" = false ∧
      ∃ seen, checkSegments routePath seen segments = .ok () := by
  unfold checkSegments at h
  rw [if_neg fun h => hne h.2] at h
  by_cases hdot : segment = "." ∨ segment = ".."
  · rw [if_pos hdot] at h
    cases h
  rw [if_neg hdot] at h
  cases hc : cutPrefix segment ":" with
  | some name =>
    have hcolon := cutPrefix_eq_some hc
    have hstar : hasPrefix segment "*" = false := by
      by_contra hs
      exact not_star_and_colon (Bool.not_eq_false _ ▸ hs) hcolon
    simp only [hc] at h
    split_ifs at h with h₁ h₂
    exact ⟨ne_empty_of_hasPrefix (by decide) hcolon, hstar, _, h⟩
  | none =>
    cases hs : cutPrefix segment "*" with
    | some name =>
      simp only [hc, hs, if_pos (show segments ≠ [] ∨ _ from .inl hne)] at h
      cases h
    | none =>
      simp only [hc, hs] at h
      split_ifs at h with hstatic
      refine ⟨?_, cutPrefix_eq_none hs, _, h⟩
      rintro rfl
      exact absurd hstatic (by decide)

/-- Of the segments of an accepted route only the last may be empty or take the rest. -/
theorem checkSegments_inner {segments : List String} :
    ∀ {seenNames}, checkSegments routePath seenNames segments = .ok () →
      ∀ a x b, segments = a ++ x :: b → b ≠ [] → x ≠ "" ∧ hasPrefix x "*" = false := by
  induction segments with
  | nil => intro _ _ a x b h; simp at h
  | cons segment segments ih =>
    intro seenNames h a x b hsplit hb
    cases a with
    | nil =>
      cases hsplit
      obtain ⟨hne, hstar, -⟩ := checkSegments_cons hb h
      exact ⟨hne, hstar⟩
    | cons y a =>
      cases hsplit
      obtain ⟨-, -, seen, hrest⟩ := checkSegments_cons (by simp) h
      exact ih hrest a x b rfl hb

/-- What is known of a route that `NormalizeRoutePath` accepts. -/
structure AcceptedRoute (routePath : String) (l : List Char) : Prop where
  toList : routePath.toList = '/' :: l
  ne : l ≠ []
  inner : ∀ a x b, pathSegments routePath = a ++ x :: b → b ≠ [] → x ≠ "" ∧ hasPrefix x "*" = false

theorem normalizeRoutePath_ok {normalized : String}
    (h : normalizeRoutePath routePath = .ok normalized) :
    normalized = routePath ∧ ∃ l, AcceptedRoute routePath l := by
  unfold normalizeRoutePath at h
  split_ifs at h with hstart hroot henc hempty
  obtain ⟨l, hl⟩ := toList_of_head (not_not.mp hstart)
  rcases hc : checkSegments routePath [] (pathSegments routePath) with _ | u
  · simp [hc] at h
  simp only [hc] at h
  refine ⟨(Except.ok.inj h).symm, l, hl, ?_, checkSegments_inner hc⟩
  rintro rfl
  exact hroot (String.toList_inj.mp hl)

/-! ### Segments without a slash -/

/-- A segment that a path may have. -/
def GoodSegment (segment : String) : Prop := '/' ∉ segment.toList

theorem goodSegment_split (s : String) : ∀ t ∈ split '/' s, GoodSegment t :=
  fun _ ht => not_mem_of_mem_split ht

theorem pathSegments_ne_nil (path : String) : pathSegments path ≠ [] := split_ne_nil _ _

/-- Segments without a slash are those of the path they make. -/
theorem pathSegments_join {ts : List String} (hne : ts ≠ []) (h : ∀ t ∈ ts, GoodSegment t) :
    pathSegments (String.ofList ('/' :: ['/'].intercalate (ts.map String.toList))) = ts := by
  rw [pathSegments_eq (String.toList_ofList), splitOn_intercalate]
  · simp [Function.comp_def]
  · simpa [GoodSegment] using h
  · simpa using hne

section Route

variable {routePath reserved : String} {l : List Char}

theorem over_routePattern (routePath : String) :
    PathPattern.Over GoodSegment (routePattern routePath) := by
  intro a ha
  obtain ⟨segment, hs, hp⟩ := mem_map.mp ha
  unfold routePiece at hp
  split_ifs at hp
  cases hp
  exact goodSegment_split _ a hs

theorem ended_routePattern (h : AcceptedRoute routePath l) : (routePattern routePath).Ended := by
  intro a b hab
  obtain ⟨as, bs, hsplit, rfl, hb⟩ := map_eq_append_iff.mp hab
  obtain ⟨x, bs, rfl, hx, rfl⟩ := map_eq_cons_iff.mp hb
  by_contra hne
  have hstar := (h.inner as x bs hsplit (by rintro rfl; exact hne rfl)).2
  unfold routePiece at hx
  simp [hstar] at hx
  split_ifs at hx

/-- The loop over segments is the test of the pattern they stand for. -/
theorem segmentsIntersect_eq (segments ns : List String) :
    segmentsIntersect segments ns = PathPattern.intersects (segments.map routePiece) ns := by
  induction ns generalizing segments with
  | nil => simp [segmentsIntersect, PathPattern.intersects]
  | cons n ns ih =>
    cases segments with
    | nil => rfl
    | cons segment segments =>
      rw [segmentsIntersect, map_cons, routePiece, ih]
      by_cases hs : hasPrefix segment "*" = true
      · have hc : hasPrefix segment ":" = false := by
          by_contra hc
          exact not_star_and_colon hs (Bool.not_eq_false _ ▸ hc)
        simp [hs, hc, PathPattern.intersects]
      · by_cases hc : hasPrefix segment ":" = true
        · simp [hs, hc, PathPattern.intersects]
        · rw [if_neg hs, if_neg hc, if_neg hs, PathPattern.intersects]
          by_cases hn : segment = n <;> simp [hc, hn]

theorem tested_segments (h : AcceptedRoute routePath l) :
    ∃ s, (s = [] ∨ s = [""]) ∧
      pathSegments routePath = split '/' (trim '/' (trimFirst '/' routePath)) ++ s := by
  have hfirst : trimFirst '/' routePath = String.ofList l := by simp [trimFirst, h.toList]
  have hsegments := pathSegments_eq h.toList
  -- an empty segment before another one is not accepted
  have inner (xs ys : List (List Char)) (hl : l.splitOn '/' = xs ++ [] :: ys) : ys = [] := by
    by_contra hne
    have := (h.inner (xs.map String.ofList) "" (ys.map String.ofList)
      (by rw [hsegments, hl, map_append, map_cons]) (by simpa using hne)).1
    exact this rfl
  have front : l.dropWhile (· == '/') = l := by
    cases hl : l with
    | nil => rfl
    | cons c m =>
      refine dropWhile_cons_of_neg fun hc => ?_
      obtain rfl : c = '/' := by simpa using hc
      have := inner [] (m.splitOn '/') (by
        rw [hl]; exact splitOn_append_cons_self [] m)
      exact splitOn_ne_nil _ _ this
  have htrim : trim '/' (String.ofList l) = String.ofList (l.rdropWhile (· == '/')) := by
    rw [trim, String.toList_ofList, front]
  rw [hfirst, htrim, hsegments, split, String.toList_ofList]
  obtain rfl | ⟨m, c, rfl⟩ := eq_nil_or_concat' l
  · exact absurd rfl h.ne
  · by_cases hc : c = '/'
    · subst hc
      have hsplit : (m ++ ['/']).splitOn '/' = m.splitOn '/' ++ [[]] := by
        rw [splitOn_append_cons_self]
        rfl
      have last : m.rdropWhile (· == '/') = m := by
        obtain rfl | ⟨m', d, rfl⟩ := eq_nil_or_concat' m
        · rfl
        · refine rdropWhile_concat_neg _ _ _ fun hd => ?_
          obtain rfl : d = '/' := by simpa using hd
          have := inner (m'.splitOn '/') [[]] (by
            rw [hsplit, splitOn_append_cons_self, append_assoc]
            rfl)
          cases this
      refine ⟨[""], .inr rfl, ?_⟩
      rw [hsplit, rdropWhile_concat_pos _ _ _ (by simp), last, map_append]
      rfl
    · refine ⟨[], .inl rfl, ?_⟩
      rw [rdropWhile_concat_neg _ _ _ (by simpa using hc), append_nil]

/-- **The test of a route against a namespace is exact.** -/
theorem routePatternIntersectsNamespace_iff (h : AcceptedRoute routePath l) {r : List Char}
    (hr : reserved.toList = '/' :: r) (hne : "" ∉ pathSegments reserved) :
    routePatternIntersectsNamespace routePath reserved = true ↔
      ∃ path, InNamespace reserved path ∧ RouteMatches routePath path := by
  obtain ⟨s, hs, hsegments⟩ := tested_segments h
  have hpattern : routePattern routePath =
      (split '/' (trim '/' (trimFirst '/' routePath))).map routePiece ++ s.map routePiece := by
    rw [routePattern, hsegments, map_append]
  have hs' : s.map routePiece = [] ∨ s.map routePiece = [.fixed ""] := by
    obtain rfl | rfl := hs
    · exact .inl rfl
    · exact .inr rfl
  have exact_test := PathPattern.intersects_iff "" GoodSegment (t := "x") (by simp [GoodSegment])
    (by decide) hs' hne (hpattern ▸ over_routePattern routePath)
  rw [routePatternIntersectsNamespace, segmentsIntersect_eq, exact_test, ← hpattern]
  constructor
  · rintro ⟨tail, htail, hm⟩
    have hgood : ∀ t ∈ pathSegments reserved ++ tail, GoodSegment t :=
      forall_mem_append.mpr ⟨goodSegment_split _, htail⟩
    have hjoin := pathSegments_join (by simp [pathSegments_ne_nil]) hgood
    refine ⟨_, (inNamespace_iff hr).mpr ⟨?_, tail, hjoin⟩, ?_, hjoin.symm ▸ hm⟩
    · simp
    · simp
  · rintro ⟨path, hin, -, hm⟩
    obtain ⟨-, tail, htail⟩ := (inNamespace_iff hr).mp hin
    refine ⟨tail, fun t ht => goodSegment_split (trimFirst '/' path) t ?_, htail ▸ hm⟩
    have : t ∈ pathSegments path := htail ▸ mem_append_right _ ht
    exact this

end Route

/-! ### Shapes -/

/-- The segment of a shape that a piece has. -/
def PathPiece.shape : PathPiece String → String
  | .fixed a => a
  | .one => ":"
  | .rest => "*"

theorem shape_routePiece (segment : String) :
    (routePiece segment).shape = shapeSegment segment := by
  unfold routePiece shapeSegment
  split_ifs <;> rfl

theorem routePiece_shapeSegment (segment : String) :
    routePiece (shapeSegment segment) = routePiece segment := by
  unfold shapeSegment
  split_ifs with h₁ h₂
  · simp [routePiece, h₁, show hasPrefix ":" ":" = true from rfl]
  · simp [routePiece, h₁, h₂, show hasPrefix "*" ":" = false from rfl,
      show hasPrefix "*" "*" = true from rfl]
  · rfl

theorem goodSegment_shapeSegment (h : GoodSegment segment) :
    GoodSegment (shapeSegment segment) := by
  unfold shapeSegment
  split_ifs
  · simp [GoodSegment]
  · simp [GoodSegment]
  · exact h

theorem routePathShape_ok {shape : String} (h : routePathShape routePath = .ok shape) :
    ∃ l, AcceptedRoute routePath l ∧ shape = shapeText routePath := by
  unfold routePathShape at h
  rcases hn : normalizeRoutePath routePath with _ | normalized
  · simp [hn] at h
  obtain ⟨rfl, l, accepted⟩ := normalizeRoutePath_ok hn
  simp only [hn] at h
  exact ⟨l, accepted, (Except.ok.inj h).symm⟩

theorem shapeText_inj : shapeText a = shapeText b ↔
    (pathSegments a).map shapeSegment = (pathSegments b).map shapeSegment := by
  refine ⟨fun h => ?_, fun h => by rw [shapeText, h, ← shapeText]⟩
  have back (c : String) : pathSegments (shapeText c) = (pathSegments c).map shapeSegment := by
    have : shapeText c = String.ofList ('/' :: ['/'].intercalate
        (((pathSegments c).map shapeSegment).map String.toList)) := by
      rw [← String.toList_inj]
      simp [shapeText, String.toList_append, String.toList_intercalate]
    rw [this, pathSegments_join (by simp [pathSegments_ne_nil])]
    intro t ht
    obtain ⟨segment, hs, rfl⟩ := mem_map.mp ht
    exact goodSegment_shapeSegment (goodSegment_split _ segment hs)
  rw [← back a, h, back b]

/-- **Two accepted routes have one shape exactly where they match the same paths.** -/
theorem routePathShape_eq_iff {sa sb : String} (ha : routePathShape a = .ok sa)
    (hb : routePathShape b = .ok sb) :
    sa = sb ↔ ∀ path, RouteMatches a path ↔ RouteMatches b path := by
  obtain ⟨la, accepted_a, rfl⟩ := routePathShape_ok ha
  obtain ⟨lb, accepted_b, rfl⟩ := routePathShape_ok hb
  have shapes : shapeText a = shapeText b ↔ routePattern a = routePattern b := by
    have parts (c : String) : (pathSegments c).map shapeSegment = (routePattern c).map
        PathPiece.shape := by
      simp [routePattern, Function.comp_def, shape_routePiece]
    have pieces (c : String) : routePattern c = ((pathSegments c).map shapeSegment).map
        routePiece := by
      simp [routePattern, Function.comp_def, routePiece_shapeSegment]
    rw [shapeText_inj]
    refine ⟨fun h => ?_, fun h => ?_⟩
    · rw [pieces a, h, ← pieces b]
    · rw [parts a, h, ← parts b]
  rw [shapes]
  refine ⟨fun h path => by rw [RouteMatches, h, ← RouteMatches], fun h => ?_⟩
  refine PathPattern.eq_of_sameMatches "" GoodSegment (by simp [GoodSegment])
    (fun s => ?_) (ended_routePattern accepted_a) (ended_routePattern accepted_b)
    (over_routePattern a) (over_routePattern b) fun ts hts => ?_
  · by_cases hs : s = "x"
    · exact ⟨"y", by simp [GoodSegment], by decide, by rw [hs]; decide⟩
    · exact ⟨"x", by simp [GoodSegment], by decide, Ne.symm hs⟩
  · by_cases hne : ts = []
    · have nothing (c : String) : ¬ (routePattern c).Matches "" [] := by
        obtain ⟨x, xs, hx⟩ := exists_cons_of_ne_nil (pathSegments_ne_nil c)
        rw [routePattern, hx, map_cons]
        cases routePiece x <;> simp [PathPattern.Matches]
      rw [hne]
      exact iff_of_false (nothing a) (nothing b)
    · have := h (String.ofList ('/' :: ['/'].intercalate (ts.map String.toList)))
      simpa only [RouteMatches, pathSegments_join hne hts, String.toList_ofList, head?_cons,
        true_and] using this

/-! ### Declared routes -/

/-- The method and the path of a `Route`. -/
structure RouteTarget where
  method : String
  path : String
  deriving Repr, DecidableEq

/-- What `validateRoute` refuses a method or a path for. -/
inductive RouteError where
  /-- `plugin route method "method" must use canonical uppercase spelling` -/
  | canonicalMethod (method : String)
  /-- `plugin route method "method" is not supported` -/
  | unsupportedMethod (method : String)
  | path (e : RoutePathError)
  /-- `plugin route path "path" intersects reserved namespace …` -/
  | reserved (path reserved : String)
  deriving Repr, DecidableEq

def normalizeRouteMethod (method : String) : Except RouteError String :=
  let method := toUpper (trimSpace method)
  if method ∈ ["GET", "POST", "PUT", "PATCH", "DELETE"] then .ok method
  else .error (.unsupportedMethod method)

/-- `validateRoute`, as far as it is about the method and the path; what its type asks of the
other fields comes after and leaves both. -/
def validateRoute (route : RouteTarget) : Except RouteError RouteTarget :=
  if route.method ≠ toUpper (trimSpace route.method) then .error (.canonicalMethod route.method)
  else
    match normalizeRouteMethod route.method with
    | .error e => .error e
    | .ok method =>
      match normalizeRoutePath route.path with
      | .error e => .error (.path e)
      | .ok path =>
        match intersectingReservedNamespace path with
        | some reserved => .error (.reserved path reserved)
        | none => .ok { method, path }

theorem validateRoute_ok {route accepted : RouteTarget} (h : validateRoute route = .ok accepted) :
    normalizeRoutePath route.path = .ok accepted.path ∧
      intersectingReservedNamespace accepted.path = none := by
  unfold validateRoute at h
  split_ifs at h
  rcases hm : normalizeRouteMethod route.method with _ | method
  · simp [hm] at h
  rcases hp : normalizeRoutePath route.path with _ | path
  · simp [hm, hp] at h
  cases hr : intersectingReservedNamespace path with
  | some reserved => simp [hm, hp, hr] at h
  | none =>
    simp only [hm, hp, hr] at h
    cases h
    exact ⟨rfl, hr⟩

theorem reservedRouteNamespaces_formed : reservedRouteNamespaces.all (fun reserved =>
    reserved.toList.head? == some '/' && !(pathSegments reserved).contains "") = true := by
  decide +kernel

/-- **Routes and namespaces**: the test of an accepted path against a namespace of the host is
exact, so that no accepted route captures a path in one; and two accepted paths have the same shape
exactly where they match the same paths. -/
theorem routePattern_spec :
    (∀ routePath normalized, normalizeRoutePath routePath = .ok normalized →
      ∀ reserved ∈ reservedRouteNamespaces,
        (routePatternIntersectsNamespace normalized reserved = true ↔
          ∃ path, InNamespace reserved path ∧ RouteMatches normalized path)) ∧
    (∀ route accepted, validateRoute route = .ok accepted →
      ∀ reserved ∈ reservedRouteNamespaces, ∀ path, InNamespace reserved path →
        ¬ RouteMatches accepted.path path) ∧
    ∀ a b sa sb, routePathShape a = .ok sa → routePathShape b = .ok sb →
      (sa = sb ↔ ∀ path, RouteMatches a path ↔ RouteMatches b path) := by
  have exact_test (routePath normalized : String)
      (h : normalizeRoutePath routePath = .ok normalized) (reserved : String)
      (hr : reserved ∈ reservedRouteNamespaces) :
      routePatternIntersectsNamespace normalized reserved = true ↔
        ∃ path, InNamespace reserved path ∧ RouteMatches normalized path := by
    obtain ⟨rfl, l, accepted⟩ := normalizeRoutePath_ok h
    have formed := List.all_eq_true.mp reservedRouteNamespaces_formed reserved hr
    rw [Bool.and_eq_true, beq_iff_eq] at formed
    obtain ⟨r, hr⟩ := toList_of_head formed.1
    exact routePatternIntersectsNamespace_iff accepted hr (by simpa using formed.2)
  refine ⟨exact_test, fun route accepted h reserved hr path hin hm => ?_,
    fun a b sa sb ha hb => routePathShape_eq_iff ha hb⟩
  obtain ⟨hp, hnone⟩ := validateRoute_ok h
  have := (exact_test _ _ hp reserved hr).mpr ⟨path, hin, hm⟩
  exact absurd this (by simpa using List.find?_eq_none.mp hnone reserved hr)

/-- A route under a parameter could capture the task paths of the host. -/
theorem routePattern_spec_parameter :
    (∃ path, InNamespace "/v1/tasks" path ∧ RouteMatches "/v1/:namespace" path) ∧
      ¬ ∃ path, InNamespace "/v1/tasks" path ∧ RouteMatches "/v1/videos/*rest" path := by
  have param : normalizeRoutePath "/v1/:namespace" = .ok "/v1/:namespace" := by decide +kernel
  have videos : normalizeRoutePath "/v1/videos/*rest" = .ok "/v1/videos/*rest" := by
    decide +kernel
  have tasks : "/v1/tasks" ∈ reservedRouteNamespaces := by decide +kernel
  refine ⟨(routePattern_spec.1 _ _ param _ tasks).mp (by decide +kernel), fun h => ?_⟩
  have := (routePattern_spec.1 _ _ videos _ tasks).mpr h
  exact absurd this (by decide +kernel)

end NexusTok
