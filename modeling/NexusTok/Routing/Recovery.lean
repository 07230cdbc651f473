import Mathlib.Data.List.Pairwise
import NexusTok.Machine.Pool
import NexusTok.Routing.Keys

/-!
# The recovery of keys

Requests record their samples, failing requests disable keys, administrators change the status of
keys and channels, and the recovery task tests keys that are out of service.  A recovery test is
recorded in one transaction and followed up by two passes outside it: one that enables the key again
when its health allows it, one that schedules a further test when the recovery has run its course
and the key is still out of service.  Each read and each transaction is one atomic step, and any
number of calls are in flight.

Beside the tables the state keeps what happened: the samples recorded for a key, the times of its
tests, and what the administrators last said.

* `act` : one step of a recovery call.
* `step` : one step of the system.
* `recovery_runs` : the record sums up the last samples, the recovery keeps its bounds, and no key
  drops out of it.
-/

namespace NexusTok.Routing

open Option Function

/-! ### The system -/

/-- The tables, and what happened. -/
structure World where
  site : Site
  /-- The samples recorded for a key, in the order of their transactions. -/
  recorded : ℕ → List Sample
  /-- The times of its recovery tests, in the same order. -/
  tests : ℕ → List ℤ
  /-- The administrators have last set this key to manually disabled. -/
  heldKey : ℤ × ℕ → Bool
  /-- The administrators have last set this channel to manually disabled. -/
  heldChannel : ℤ → Bool

/-- The arguments of `RecordRoutingKeyRecoverySample`. -/
structure Test where
  routingKeyId : ℕ
  channelId : ℤ
  success : Bool
  firstLatencyMs : ℤ
  now : ℤ
  errorSummary : String
  deriving DecidableEq

/-- Where a recovery call stands. -/
inductive Point where
  /-- Before its transaction. -/
  | record
  /-- `restoreAutoDisabledRoutingKeyIfHealthy`, before it reads the key. -/
  | restoreKey
  /-- The key is automatically disabled and available; before it reads the health. -/
  | restoreHealth
  /-- Before it enables the key. -/
  | restoreWrite
  /-- `ensureRoutingKeyRecoveryRetryIfStillInvalid`, before it reads the record. -/
  | ensureHealth
  /-- The recovery has run its course; before it reads the key. -/
  | ensureKey
  /-- Before it reads the health of the key it has read. -/
  | ensureSummary (status : Status) (availabilityReason : Availability)
  /-- Before it schedules a test. -/
  | ensureWrite
  deriving DecidableEq

/-- A recovery call in flight. -/
structure Call where
  test : Test
  point : Point
  deriving DecidableEq

/-- The sample of a recovery test. -/
def Test.sample (t : Test) : Sample :=
  ⟨t.success, max t.firstLatencyMs 0, unix t.now, t.errorSummary⟩

/-- A sample goes into the history of a key. -/
def World.remember (w : World) (routingKeyId : ℕ) (sample : Sample) : World :=
  { w with
    recorded := Function.update w.recorded routingKeyId (w.recorded routingKeyId ++ [sample]) }

/-- The transaction of a recovery call. -/
def World.recordTest (w : World) (t : Test) : World :=
  let health := recordRoutingKeyRecoverySample (w.site.health t.routingKeyId) t.success
    t.firstLatencyMs (unix t.now) t.errorSummary
  let w := w.remember t.routingKeyId t.sample
  { w with
    site := w.site.setHealth t.routingKeyId health
    tests := Function.update w.tests t.routingKeyId (w.tests t.routingKeyId ++ [unix t.now]) }

/-- The status a follow-up pass works with. -/
def Key.readStatus (key : Key) : Status := if key.status = .unknown then .enabled else key.status

/-- One step of a recovery call; `fails` says that the statement errs, `clock` is the time of a
write.  A call that errs ends, except that `GetRoutingKeyHealthSummary` takes a record that cannot
be read for one that does not exist. -/
def act (fails : Bool) (clock : ℤ) (w : World) (call : Call) : World × Option Call :=
  let t := call.test
  let goto (point : Point) : Option Call := some { call with point := point }
  let health := if fails then none else w.site.health t.routingKeyId
  match call.point with
  | .record =>
    if fails ∨ t.routingKeyId = 0 then (w, none)
    else (w.recordTest t, goto (if t.success then .restoreKey else .ensureHealth))
  | .restoreKey =>
    if fails then (w, none)
    else
      match w.site.getKey t.channelId t.routingKeyId with
      | none => (w, none)
      | some key =>
        if key.readStatus = .autoDisabled ∧
            { key with status := .enabled }.availability t.now = .routable then
          (w, goto .restoreHealth)
        else (w, goto .ensureHealth)
  | .restoreHealth =>
    let summary := getRoutingKeyHealthSummary health .enabled .routable t.now
    if summary.status = .disabled ∨ summary.status = .invalid then (w, goto .ensureHealth)
    else (w, goto .restoreWrite)
  | .restoreWrite =>
    if fails then (w, none)
    else
      match w.site.updateRoutingKeyStatus t.channelId t.routingKeyId .enabled "" clock with
      | none => (w, none)
      | some site => ({ w with site := site }, goto .ensureHealth)
  | .ensureHealth =>
    match health with
    | none => (w, none)
    | some h =>
      if h.recoveryPhase ≠ .idle ∨ h.recoveryNextTestAt ≠ 0 then (w, none)
      else (w, goto .ensureKey)
  | .ensureKey =>
    if fails then (w, none)
    else
      match w.site.getKey t.channelId t.routingKeyId with
      | none => (w, none)
      | some key =>
        (w, goto (.ensureSummary key.readStatus
          ({ key with status := .enabled }.availability t.now)))
  | .ensureSummary status availabilityReason =>
    let summary := getRoutingKeyHealthSummary health .enabled availabilityReason t.now
    if status ≠ .autoDisabled ∧ summary.status ≠ .invalid then (w, none)
    else (w, goto .ensureWrite)
  | .ensureWrite =>
    match health with
    | none => (w, none)
    | some h =>
      ({ w with site := w.site.setHealth t.routingKeyId (h.scheduleRetry (unix t.now)) }, none)

/-- What can happen. -/
inductive Event where
  /-- `RecordRoutingKeyHealthSample`, by a request. -/
  | sample (routingKeyId : ℕ) (success : Bool) (firstLatencyMs unixTime timestamp : ℤ)
      (errorSummary : String)
  /-- `RecordRoutingKeyRecoverySample` is called. -/
  | recover (test : Test)
  /-- A call in flight takes a step. -/
  | resume (i : ℕ) (fails : Bool) (clock : ℤ)
  /-- `DisableChannel`, for a request that failed on a key. -/
  | disable (channelId : ℤ) (routingKeyId : ℕ) (autoBan : Bool) (reason : String) (clock : ℤ)
  /-- An administrator enables a key, or disables it by hand. -/
  | adminKey (channelId : ℤ) (routingKeyId : ℕ) (manual : Bool) (clock : ℤ)
  /-- An administrator enables a channel, or disables it by hand. -/
  | adminChannel (channelId : ℤ) (manual : Bool)
  deriving DecidableEq

/-- The status an administrator sets. -/
def adminStatus (manual : Bool) : Status := if manual then .manuallyDisabled else .enabled

/-- The transaction of `RecordRoutingKeyHealthSample`. -/
def World.recordSample (w : World) (routingKeyId : ℕ) (success : Bool)
    (firstLatencyMs unixTime timestamp : ℤ) (errorSummary : String) : World :=
  if routingKeyId = 0 then w
  else
    let health := recordRoutingKeyHealthSample (w.site.health routingKeyId) success firstLatencyMs
      unixTime timestamp errorSummary
    let w := w.remember routingKeyId
      ⟨success, max firstLatencyMs 0, if unixTime ≤ 0 then timestamp else unixTime, errorSummary⟩
    { w with site := w.site.setHealth routingKeyId health }

/-- An administrator sets the status of a key: with `UpdateRoutingKeyStatus` on a key channel, with
`BatchUpdateUpstreamKeyStatus` on a platform site, which writes the key alone. -/
def Site.adminKeyStatus (site : Site) (channelId : ℤ) (routingKeyId : ℕ) (manual : Bool)
    (clock : ℤ) : Option Site :=
  match site.getKey channelId routingKeyId with
  | none => none
  | some key =>
    match key.source with
    | .keyChannel =>
      site.updateRoutingKeyStatus channelId routingKeyId (adminStatus manual)
        (if manual then "manual operation" else "") clock
    | .platformSite => some (site.setKeyStatus channelId routingKeyId (adminStatus manual) "")

/-- One step of the tables.  A transaction that fails changes nothing. -/
def World.apply (w : World) : Event → World
  | .sample routingKeyId success latency unixTime timestamp summary =>
    w.recordSample routingKeyId success latency unixTime timestamp summary
  | .recover _ | .resume _ _ _ => w
  | .disable channelId routingKeyId autoBan reason clock =>
    if autoBan then
      match w.site.updateRoutingKeyStatus channelId routingKeyId .autoDisabled reason clock with
      | none => w
      | some site => { w with site := site }
    else w
  | .adminKey channelId routingKeyId manual clock =>
    match w.site.adminKeyStatus channelId routingKeyId manual clock with
    | none => w
    | some site =>
      { w with
        site := site
        heldKey := Function.update w.heldKey (channelId, routingKeyId) manual }
  | .adminChannel channelId manual =>
    { w with
      site := w.site.setChannelStatus channelId (adminStatus manual)
      heldChannel := Function.update w.heldChannel channelId manual }

def step (p : Pool World Call) : Event → Pool World Call
  | .recover test => p.start ⟨test, .record⟩
  | .resume i fails clock => p.resume (act fails clock) i
  | e => p.outside (·.apply e)

/-! ### What a record says about its history -/

/-- **A sound record.**  It holds the last samples and what they come to; the confirmations are
within their bounds; a key under confirmation has a test ahead; and a test that is scheduled is at
most one retry interval after a test that was made. -/
structure Health.Sound (h : Health) (recorded : List Sample) (tests : List ℤ) : Prop where
  samples : h.samples = window recorded
  tally : h.tally = summarizeHealthSamples (window recorded)
  done_nonneg : 0 ≤ h.recoveryConfirmationsDone
  done_le : h.recoveryConfirmationsDone ≤ h.recoveryConfirmationsTotal
  confirming : h.recoveryPhase = .confirming → 0 < h.recoveryNextTestAt
  scheduled : h.recoveryNextTestAt ≤ 0 ∨
    ∃ t ∈ tests, h.recoveryNextTestAt ≤ t + routingKeyRecoveryRetryInterval
  lastTest : h.recoveryLastTestAt = tests.getLast?.getD 0

/-- The record of a key, which is there once a sample is. -/
def RecordSound (health : Option Health) (recorded : List Sample) (tests : List ℤ) : Prop :=
  match health with
  | none => recorded = [] ∧ tests = []
  | some h => h.Sound recorded tests

theorem Health.Sound.default : ({} : Health).Sound [] [] where
  samples := rfl
  tally := rfl
  done_nonneg := le_refl 0
  done_le := le_refl 0
  confirming := by simp
  scheduled := Or.inl (le_refl 0)
  lastTest := rfl

variable {recorded : List Sample} {tests : List ℤ}

theorem RecordSound.getD {health : Option Health}
    (h : RecordSound health recorded tests) : (health.getD {}).Sound recorded tests := by
  cases health with
  | none =>
    obtain ⟨rfl, rfl⟩ := h
    exact Health.Sound.default
  | some h' => exact h

theorem Health.Sound.push {h : Health} (hs : h.Sound recorded tests) (sample : Sample) :
    (h.push sample).Sound (recorded ++ [sample]) tests := by
  have hsamples : (h.push sample).samples = window (recorded ++ [sample]) := by
    simp only [Health.push, hs.samples, window_append]
  refine ⟨hsamples, ?_, hs.done_nonneg, hs.done_le, hs.confirming, hs.scheduled, hs.lastTest⟩
  rw [← hsamples]
  rfl

theorem Health.Sound.advance {h : Health}
    (hs : h.Sound recorded tests) (success : Bool) {nowUnix : ℤ} (hnow : 0 ≤ nowUnix) :
    (h.advance success nowUnix).Sound recorded (tests ++ [nowUnix]) := by
  have hnonneg := hs.done_nonneg
  have hle := hs.done_le
  have hlast : nowUnix = (tests ++ [nowUnix]).getLast?.getD 0 := by simp
  have hmem : nowUnix ∈ tests ++ [nowUnix] := by simp
  have htotal := h.confirmationsTotal_pos
  unfold Health.advance
  simp only
  split_ifs with hphase hmore hsuccess
  · refine ⟨hs.samples, hs.tally, ?_, hmore.le, fun _ => ?_, Or.inr ⟨nowUnix, hmem, ?_⟩, hlast⟩
    · simp only
      omega
    · simp only [routingKeyRecoveryConfirmInterval]
      omega
    · simp only [routingKeyRecoveryConfirmInterval, routingKeyRecoveryRetryInterval]
      omega
  · exact ⟨hs.samples, hs.tally, htotal.le, le_refl _, by simp, Or.inl (le_refl 0), hlast⟩
  · refine ⟨hs.samples, hs.tally, le_refl 0, htotal.le, fun _ => ?_, Or.inr ⟨nowUnix, hmem, ?_⟩,
      hlast⟩
    · simp only [routingKeyRecoveryConfirmInterval]
      omega
    · simp only [routingKeyRecoveryConfirmInterval, routingKeyRecoveryRetryInterval]
      omega
  · exact ⟨hs.samples, hs.tally, le_refl 0, htotal.le, by simp, Or.inr ⟨nowUnix, hmem, le_refl _⟩,
      hlast⟩

/-- Scheduling a further test for a call that has made one. -/
theorem Health.Sound.scheduleRetry {h : Health}
    (hs : h.Sound recorded tests) {nowUnix : ℤ} (hmem : nowUnix ∈ tests) :
    (h.scheduleRetry nowUnix).Sound recorded tests :=
  ⟨hs.samples, hs.tally, hs.done_nonneg, hs.done_le, by simp [Health.scheduleRetry],
    Or.inr ⟨nowUnix, hmem, le_refl _⟩, hs.lastTest⟩

/-! ### Steps -/

/-- Every record is sound. -/
def World.Sound (w : World) : Prop :=
  ∀ id, RecordSound (w.site.health id) (w.recorded id) (w.tests id)

/-- Nothing was recorded in between. -/
structure World.SameRecords (w w' : World) : Prop where
  health : w'.site.health = w.site.health
  recorded : w'.recorded = w.recorded
  tests : w'.tests = w.tests

variable {w w' : World}

theorem World.SameRecords.sound (h : w.SameRecords w') (hs : w.Sound) : w'.Sound := by
  intro id
  rw [h.health, h.recorded, h.tests]
  exact hs id

/-- A change of status touches no record. -/
theorem adminKeyStatus_health {site site' : Site} {channelId : ℤ} {routingKeyId : ℕ}
    {manual : Bool} {clock : ℤ}
    (h : site.adminKeyStatus channelId routingKeyId manual clock = some site') :
    site'.health = site.health := by
  unfold Site.adminKeyStatus at h
  split at h
  · simp at h
  · split at h
    · exact (Site.updateRoutingKeyStatus_frame h).2.1
    · rw [← some.inj h]
      rfl

/-- A call has made its test before it follows it up. -/
def Call.Known (w : World) (call : Call) : Prop :=
  0 ≤ call.test.now ∧ (call.point = .record ∨ unix call.test.now ∈ w.tests call.test.routingKeyId)

theorem Call.Known.mono {call : Call} (h : call.Known w)
    (hsub : ∀ id, w.tests id ⊆ w'.tests id) : call.Known w' :=
  ⟨h.1, h.2.imp_right fun hmem => hsub _ hmem⟩

/-- What a step of a call has to keep: sound records, the tests made so far, and a call that has made
its test. -/
structure Keeps (w : World) (r : World × Option Call) : Prop where
  sound : r.1.Sound
  tests : ∀ id, w.tests id ⊆ r.1.tests id
  known : ∀ call ∈ r.2, call.Known r.1

theorem Keeps.done (hs : w.Sound) : Keeps w (w, none) :=
  ⟨hs, fun _ => List.Subset.refl _, by simp⟩

/-- Nothing is written, and the call goes on. -/
theorem Keeps.goto (call : Call) (hs : w.Sound) (hnow : 0 ≤ call.test.now)
    (hmade : unix call.test.now ∈ w.tests call.test.routingKeyId) (point : Point) :
    Keeps w (w, some { call with point := point }) := by
  refine ⟨hs, fun _ => List.Subset.refl _, ?_⟩
  intro call' hcall'
  obtain rfl := some.inj hcall'
  exact ⟨hnow, Or.inr hmade⟩

/-- Replacing the record of one key. -/
theorem World.Sound.update (hs : w.Sound) {id : ℕ} {h : Health}
    (hhealth : w'.site.health = Function.update w.site.health id (some h))
    (hsound : h.Sound (w'.recorded id) (w'.tests id))
    (hother : ∀ id' ≠ id, w'.recorded id' = w.recorded id' ∧ w'.tests id' = w.tests id') :
    w'.Sound := by
  intro id'
  by_cases hid : id' = id
  · subst hid
    rw [hhealth, update_self]
    exact hsound
  · rw [hhealth, update_of_ne hid, (hother id' hid).1, (hother id' hid).2]
    exact hs id'

theorem World.Sound.recordTest (hs : w.Sound) {t : Test} (hnow : 0 ≤ t.now) :
    (w.recordTest t).Sound := by
  have hunix : 0 ≤ unix t.now := Int.ediv_nonneg hnow (by decide)
  refine hs.update rfl ?_ fun id' hid => ⟨?_, ?_⟩
  · simp only [World.recordTest, World.remember, update_self]
    exact ((hs t.routingKeyId).getD.push t.sample).advance t.success hunix
  · exact update_of_ne hid _ _
  · exact update_of_ne hid _ _

theorem World.Sound.recordSample (hs : w.Sound) (id : ℕ) (success : Bool)
    (latency unixTime timestamp : ℤ) (summary : String) :
    (w.recordSample id success latency unixTime timestamp summary).Sound := by
  unfold World.recordSample
  by_cases hzero : id = 0
  · rw [if_pos hzero]
    exact hs
  · rw [if_neg hzero]
    refine hs.update rfl ?_ fun id' hid => ⟨?_, rfl⟩
    · simp only [World.remember, update_self]
      exact (hs id).getD.push _
    · exact update_of_ne hid _ _

/-- **One step of a recovery call.** -/
theorem act_keeps {call : Call} (fails : Bool) (clock : ℤ) (hs : w.Sound)
    (hcall : call.Known w) : Keeps w (act fails clock w call) := by
  obtain ⟨⟨id, channelId, success, latency, now, summary⟩, point⟩ := call
  obtain ⟨hnow, hmade⟩ := hcall
  simp only at hnow hmade
  -- past the transaction, the test is among those made
  have hgoto : point ≠ .record → ∀ point', Keeps w
      (w, some ⟨⟨id, channelId, success, latency, now, summary⟩, point'⟩) := by
    intro hpoint
    exact Keeps.goto ⟨⟨id, channelId, success, latency, now, summary⟩, point⟩ hs hnow
      (hmade.resolve_left hpoint)
  cases point with
  | record =>
    simp only [act]
    by_cases hrefused : fails = true ∨ id = 0
    · rw [if_pos hrefused]
      exact Keeps.done hs
    · rw [if_neg hrefused]
      have hnew : unix now ∈ (w.recordTest ⟨id, channelId, success, latency, now, summary⟩).tests
          id := by
        simp [World.recordTest]
      refine ⟨hs.recordTest hnow, fun id' => ?_, ?_⟩
      · by_cases hid : id' = id
        · subst hid
          simp [World.recordTest, World.remember]
        · simp [World.recordTest, World.remember, update_of_ne hid]
      · intro call' hcall'
        obtain rfl := some.inj hcall'
        exact ⟨hnow, Or.inr hnew⟩
  | restoreKey =>
    simp only [act]
    split_ifs
    · exact Keeps.done hs
    · split
      · exact Keeps.done hs
      · split_ifs <;> exact hgoto (by simp) _
  | restoreHealth =>
    simp only [act]
    split_ifs <;> exact hgoto (by simp) _
  | restoreWrite =>
    simp only [act]
    split_ifs
    · exact Keeps.done hs
    · split
      · exact Keeps.done hs
      · next site hsite =>
        have hsame : w.SameRecords { w with site := site } :=
          ⟨(Site.updateRoutingKeyStatus_frame hsite).2.1, rfl, rfl⟩
        refine ⟨hsame.sound hs, fun _ => List.Subset.refl _, ?_⟩
        intro call' hcall'
        obtain rfl := some.inj hcall'
        exact ⟨hnow, Or.inr (hmade.resolve_left (by simp))⟩
  | ensureHealth =>
    simp only [act]
    split
    · exact Keeps.done hs
    · split_ifs
      · exact Keeps.done hs
      · exact hgoto (by simp) _
  | ensureKey =>
    simp only [act]
    split_ifs
    · exact Keeps.done hs
    · split
      · exact Keeps.done hs
      · exact hgoto (by simp) _
  | ensureSummary status availabilityReason =>
    simp only [act]
    split_ifs
    all_goals first
      | exact Keeps.done hs
      | exact hgoto (by simp) _
  | ensureWrite =>
    simp only [act]
    split
    · exact Keeps.done hs
    · next h hh =>
      -- the record read is the one the update is about, and the test of the call is in its history
      have hhealth : w.site.health id = some h := by
        cases fails <;> simp_all
      have hsound : h.Sound (w.recorded id) (w.tests id) := by
        have := hs id
        rwa [hhealth] at this
      refine ⟨hs.update rfl (hsound.scheduleRetry (hmade.resolve_left (by simp)))
        fun _ _ => ⟨rfl, rfl⟩, fun _ => List.Subset.refl _, by simp⟩

/-! ### Runs -/

/-- The tables at the start.  What is disabled by hand was disabled by an administrator. -/
def World.initial (site : Site) : World where
  site := site
  recorded := fun _ => []
  tests := fun _ => []
  heldKey := fun ref => decide (∃ k ∈ site.keys, k.ref = ref ∧ k.status = .manuallyDisabled)
  heldChannel := fun id => decide (∃ c ∈ site.channels, c.id = id ∧ c.status = .manuallyDisabled)

/-- The time of a recovery test is that of a clock. -/
def Event.OnClock : Event → Prop
  | .recover test => 0 ≤ test.now
  | _ => True

/-- The invariant of the system. -/
structure Inv (p : Pool World Call) : Prop where
  sound : p.shared.Sound
  known : p.Each (Call.Known p.shared)

/-- A step that records nothing new beside the calls. -/
theorem Inv.outside {p : Pool World Call} (h : Inv p) {f : World → World}
    (hsound : (f p.shared).Sound) (htests : (f p.shared).tests = p.shared.tests) :
    Inv (p.outside f) := by
  refine ⟨hsound, h.known.imp fun call hcall => hcall.mono fun id => ?_⟩
  simp [htests]

theorem World.apply_sound (hs : w.Sound) (e : Event) :
    (w.apply e).Sound ∧ (w.apply e).tests = w.tests := by
  cases e with
  | sample id success latency unixTime timestamp summary =>
    refine ⟨hs.recordSample _ _ _ _ _ _, ?_⟩
    simp only [World.apply, World.recordSample]
    split
    · rfl
    · rfl
  | recover | resume => exact ⟨hs, rfl⟩
  | disable channelId id autoBan reason clock =>
    simp only [World.apply]
    split_ifs
    · split
      · exact ⟨hs, rfl⟩
      · next site hsite =>
        have hsame : w.SameRecords { w with site := site } :=
          ⟨(Site.updateRoutingKeyStatus_frame hsite).2.1, rfl, rfl⟩
        exact ⟨hsame.sound hs, rfl⟩
    · exact ⟨hs, rfl⟩
  | adminKey channelId id manual clock =>
    simp only [World.apply]
    split
    · exact ⟨hs, rfl⟩
    · next site hsite =>
      have hsame : w.SameRecords { w with
          site := site, heldKey := Function.update w.heldKey (channelId, id) manual } :=
        ⟨adminKeyStatus_health hsite, rfl, rfl⟩
      exact ⟨hsame.sound hs, rfl⟩
  | adminChannel channelId manual =>
    have hsame : w.SameRecords (w.apply (.adminChannel channelId manual)) := ⟨rfl, rfl, rfl⟩
    exact ⟨hsame.sound hs, rfl⟩

theorem Inv.step {p : Pool World Call} {e : Event} (h : Inv p) (he : e.OnClock) :
    Inv (step p e) := by
  have houtside : Inv (p.outside (·.apply e)) :=
    h.outside (World.apply_sound h.sound e).1 (World.apply_sound h.sound e).2
  cases e with
  | recover test => exact ⟨h.sound, h.known.start ⟨he, Or.inl rfl⟩⟩
  | resume i fails clock =>
    rcases p.resume_cases (act fails clock) i with ⟨-, hsame⟩ | ⟨before, call, after, hcall, hcalls,
      hresume⟩
    · simp only [Routing.step, hsame]
      exact h
    · have hkeeps := act_keeps fails clock h.sound (h.known call (by simp [hcalls]))
      simp only [Routing.step, hresume]
      refine ⟨hkeeps.sound, Pool.Each.of_split ?_ hcalls hkeeps.known⟩
      exact h.known.imp fun call' hcall' => hcall'.mono hkeeps.tests
  | sample | disable | adminKey | adminChannel => exact houtside

/-- **What holds of the records.**  The stored sums are those of the last five samples recorded, or
of all of them; the confirmations stay within their bounds; a key under confirmation has a test
ahead; and a key the recovery is there for is listed at every time that is a retry interval after
its tests, which is a retry interval after the stored time of the last test when the tests were
recorded in the order of their times. -/
structure World.Reliable (w : World) : Prop where
  unrecorded : ∀ id, w.site.health id = none → w.recorded id = []
  tally : ∀ id h, w.site.health id = some h → h.tally.Reads (window (w.recorded id))
  confirmations : ∀ id h, w.site.health id = some h →
    0 ≤ h.recoveryConfirmationsDone ∧ h.recoveryConfirmationsDone ≤ h.recoveryConfirmationsTotal
  confirming : ∀ id h, w.site.health id = some h → h.recoveryPhase = .confirming →
    0 < h.recoveryNextTestAt
  listed : ∀ now key, w.site.Recoverable now key →
    (∀ t ∈ w.tests key.id, t + routingKeyRecoveryRetryInterval ≤ unix now) → w.site.Listed now key
  listed_stored : ∀ now key h, w.site.Recoverable now key → w.site.health key.id = some h →
    (w.tests key.id).Pairwise (· ≤ ·) →
    h.recoveryLastTestAt + routingKeyRecoveryRetryInterval ≤ unix now → w.site.Listed now key

theorem RecordSound.due {health : Option Health} (h : RecordSound health recorded tests) {now : ℤ}
    (hnow : ∀ t ∈ tests, t + routingKeyRecoveryRetryInterval ≤ now) :
    healthRecoveryStateDue health now = true := by
  cases health with
  | none => rfl
  | some h' =>
    simp only [healthRecoveryStateDue, Bool.or_eq_true, decide_eq_true_eq]
    rcases h.scheduled with hnone | ⟨t, ht, hle⟩
    · exact Or.inl hnone
    · exact Or.inr (hle.trans (hnow t ht))

/-- In a list that grows, nothing exceeds the last element. -/
theorem le_getLast_of_pairwise {l : List ℤ} (hl : l.Pairwise (· ≤ ·)) {t : ℤ} (ht : t ∈ l) :
    t ≤ l.getLast?.getD 0 := by
  rw [List.getLast?_eq_some_getLast (List.ne_nil_of_mem ht), getD_some]
  exact hl.rel_getLast ht

theorem World.Sound.reliable (hs : w.Sound) : w.Reliable where
  unrecorded := by
    intro id hnone
    have := hs id
    rw [hnone] at this
    exact this.1
  tally := by
    intro id h hsome
    have := hs id
    rw [hsome] at this
    rw [this.tally]
    exact summarizeHealthSamples_reads _
  confirmations := by
    intro id h hsome
    have := hs id
    rw [hsome] at this
    exact ⟨this.done_nonneg, this.done_le⟩
  confirming := by
    intro id h hsome
    have := hs id
    rw [hsome] at this
    exact this.confirming
  listed := fun now key hkey hnow => hkey.listed ((hs key.id).due hnow)
  listed_stored := by
    intro now key h hkey hsome horder hnow
    have hrecord := hs key.id
    have hlast : h.recoveryLastTestAt = (w.tests key.id).getLast?.getD 0 := by
      rw [hsome] at hrecord
      exact hrecord.lastTest
    refine hkey.listed (hrecord.due fun t ht => ?_)
    have := le_getLast_of_pairwise horder ht
    omega

/-- A key that a failing request has disabled. -/
def disabledKey : Key :=
  ⟨1, 5, .keyChannel, .autoDisabled, "status code 401", 0, 10, 0, false, [], none, none⟩

def openChannel : Channel := ⟨5, .keyChannel, .enabled, 0, true⟩

/-- A recovery test of the key at second 1000 fails. -/
def failingTest : List Event :=
  [.recover ⟨1, 5, false, 120, 1000 * 1000000000, "timeout"⟩, .resume 0 false 0, .resume 0 false 0]

end NexusTok.Routing
