import Mathlib.Data.List.TakeDrop
import Mathlib.Order.Basic
import Mathlib.Tactic.Ring

/-!
# The health record of a routing key

Every request on a key leaves a *sample* in the health record of the key: whether it succeeded, when,
and after what latency.  The record keeps the last five samples and what they come to.  A key with
five fresh samples of which at most one succeeded is *invalid* and takes no requests.

Keys that are out of service are tested from time to time.  A test is recorded like any sample, and
moves the *recovery* of the key: it probes until a test succeeds, then confirms with a number of
further tests, then stops.

* `summarizeHealthSamples_reads` : what `summarizeHealthSamples` computes, read off the samples.
* `window_append` : a sample appended to the last five, cut to five again.
* `Health.allows_record` : when a failed sample takes a key out of service.
-/

namespace NexusTok.Routing

open List

/-! ### Time -/

/-- An instant is given in nanoseconds; `Unix` is its second. -/
def unix (now : ℤ) : ℤ := now / 1000000000

/-! ### Samples -/

/-- `RoutingKeyHealthSample`. -/
structure Sample where
  success : Bool
  firstLatencyMs : ℤ
  createdAt : ℤ
  errorSummary : String
  deriving DecidableEq

/-- What a list of samples comes to. -/
structure SampleTally where
  sampleCount : ℕ
  successCount : ℕ
  maxFirstLatencyMs : ℤ
  lastFirstLatencyMs : ℤ
  lastSampleAt : ℤ
  deriving DecidableEq

/-- The body of the loop of `summarizeHealthSamples`. -/
def SampleTally.count (t : SampleTally) (sample : Sample) : SampleTally :=
  { sampleCount := t.sampleCount
    successCount := if sample.success then t.successCount + 1 else t.successCount
    maxFirstLatencyMs :=
      if sample.firstLatencyMs > t.maxFirstLatencyMs then sample.firstLatencyMs
      else t.maxFirstLatencyMs
    lastFirstLatencyMs := sample.firstLatencyMs
    lastSampleAt := sample.createdAt }

variable (samples : List Sample)

def summarizeHealthSamples : SampleTally :=
  samples.foldl SampleTally.count ⟨samples.length, 0, 0, 0, 0⟩

def routingKeyHealthWindowSize : ℕ := 5

/-- The last samples of a list, as many as the window holds. -/
def window : List Sample :=
  samples.drop (samples.length - routingKeyHealthWindowSize)

theorem length_window :
    (window samples).length = min routingKeyHealthWindowSize samples.length := by
  simp only [window, length_drop]
  omega

/-- **The window moves by one.**  Only the last five samples are stored, and that is enough. -/
theorem window_append (sample : Sample) :
    window (window samples ++ [sample]) = window (samples ++ [sample]) := by
  have hlen := length_window samples
  have hpos : 0 < routingKeyHealthWindowSize := by decide
  by_cases h : samples.length ≤ routingKeyHealthWindowSize
  · -- nothing has been dropped so far
    have hall : window samples = samples := by
      rw [window, Nat.sub_eq_zero_of_le h, drop_zero]
    rw [hall]
  · have hcut : window samples = samples.drop (samples.length - routingKeyHealthWindowSize) := rfl
    have hfull : (window samples).length = routingKeyHealthWindowSize := by omega
    have hleft : window (window samples ++ [sample]) = (window samples).drop 1 ++ [sample] := by
      rw [window, length_append, hfull, length_singleton, Nat.add_sub_cancel_left,
        drop_append_of_le_length (by omega)]
    have hright : window (samples ++ [sample]) =
        samples.drop (samples.length + 1 - routingKeyHealthWindowSize) ++ [sample] := by
      rw [window, length_append, length_singleton,
        drop_append_of_le_length (by omega)]
    rw [hleft, hright, hcut, drop_drop]
    congr 2
    omega

theorem getLast?_window (sample : Sample) :
    (window (samples ++ [sample])).getLast? = some sample := by
  have hpos : 0 < routingKeyHealthWindowSize := by decide
  rw [window, drop_append_of_le_length (by simp; omega)]
  simp

/-- The samples, read without a loop: how many, how many of them good, the highest latency (or
zero), and the last one. -/
structure SampleTally.Reads (t : SampleTally) (samples : List Sample) : Prop where
  sampleCount : t.sampleCount = samples.length
  successCount : t.successCount = (samples.filter Sample.success).length
  maxFirstLatencyMs : t.maxFirstLatencyMs = (samples.map Sample.firstLatencyMs).foldl max 0
  last : t.lastFirstLatencyMs = (samples.getLast?.map Sample.firstLatencyMs).getD 0 ∧
    t.lastSampleAt = (samples.getLast?.map Sample.createdAt).getD 0

/-- The loop, from any point of it. -/
theorem foldl_count (t : SampleTally) : let r := samples.foldl SampleTally.count t
    r.sampleCount = t.sampleCount ∧
      r.successCount = t.successCount + (samples.filter Sample.success).length ∧
      r.maxFirstLatencyMs = samples.foldl (fun m s => max m s.firstLatencyMs) t.maxFirstLatencyMs ∧
      r.lastFirstLatencyMs = (samples.getLast?.map Sample.firstLatencyMs).getD t.lastFirstLatencyMs ∧
      r.lastSampleAt = (samples.getLast?.map Sample.createdAt).getD t.lastSampleAt := by
  induction samples generalizing t with
  | nil => simp
  | cons s samples ih =>
    obtain ⟨hcount, hsuccess, hmax, hlatency, hat⟩ := ih (t.count s)
    refine ⟨hcount, ?_, ?_, ?_, ?_⟩
    · rw [foldl_cons, hsuccess, filter_cons]
      cases hs : s.success with
      | false => simp [SampleTally.count, hs]
      | true =>
        simp only [SampleTally.count, hs, if_true, length_cons]
        omega
    · rw [foldl_cons, hmax, foldl_cons]
      congr 1
      simp only [SampleTally.count]
      omega
    · rw [foldl_cons, hlatency, getLast?_cons]
      cases samples.getLast? <;> rfl
    · rw [foldl_cons, hat, getLast?_cons]
      cases samples.getLast? <;> rfl

theorem summarizeHealthSamples_reads : (summarizeHealthSamples samples).Reads samples := by
  obtain ⟨hcount, hsuccess, hmax, hlatency, hat⟩ := foldl_count samples ⟨samples.length, 0, 0, 0, 0⟩
  refine ⟨hcount, ?_, ?_, hlatency, hat⟩
  · rw [summarizeHealthSamples, hsuccess, Nat.zero_add]
  · rw [summarizeHealthSamples, hmax, foldl_map]

/-! ### The record -/

/-- `recovery_phase`; `idle` is the empty text. -/
inductive Phase where
  | idle
  | probing
  | confirming
  deriving DecidableEq

/-- `RoutingKeyHealth`.  A record that does not exist yet reads as the default one. -/
structure Health where
  samples : List Sample := []
  tally : SampleTally := ⟨0, 0, 0, 0, 0⟩
  recoveryPhase : Phase := .idle
  recoveryNextTestAt : ℤ := 0
  recoveryLastTestAt : ℤ := 0
  recoveryConfirmationsDone : ℤ := 0
  recoveryConfirmationsTotal : ℤ := 0
  deriving DecidableEq

variable (h : Health)

/-- The samples of a record after one more. -/
def Health.push (sample : Sample) : Health :=
  let samples := window (h.samples ++ [sample])
  { h with samples := samples, tally := summarizeHealthSamples samples }

variable (health : Option Health)

/-- The transaction of `RecordRoutingKeyHealthSample`; `timestamp` is the clock, which stands in for
a missing time. -/
def recordRoutingKeyHealthSample (success : Bool) (firstLatencyMs : ℤ)
    (unixTime timestamp : ℤ) (errorSummary : String) : Health :=
  let unixTime := if unixTime ≤ 0 then timestamp else unixTime
  (health.getD {}).push ⟨success, max firstLatencyMs 0, unixTime, errorSummary⟩

def routingKeyRecoveryConfirmations : ℤ := 5

/-- `RoutingKeyRecoveryRetryInterval`, in seconds. -/
def routingKeyRecoveryRetryInterval : ℤ := 1800

/-- `RoutingKeyRecoveryConfirmInterval`, in seconds. -/
def routingKeyRecoveryConfirmInterval : ℤ := 300

/-- The number of confirmations, with its default. -/
def Health.confirmationsTotal : ℤ :=
  if h.recoveryConfirmationsTotal ≤ 0 then routingKeyRecoveryConfirmations
  else h.recoveryConfirmationsTotal

theorem Health.confirmationsTotal_pos : 0 < h.confirmationsTotal := by
  unfold confirmationsTotal routingKeyRecoveryConfirmations
  omega

/-- How a test moves the recovery. -/
def Health.advance (success : Bool) (nowUnix : ℤ) : Health :=
  let total := h.confirmationsTotal
  let h := { h with recoveryLastTestAt := nowUnix, recoveryConfirmationsTotal := total }
  if h.recoveryPhase = .confirming then
    if h.recoveryConfirmationsDone + 1 < total then
      { h with
        recoveryConfirmationsDone := h.recoveryConfirmationsDone + 1
        recoveryNextTestAt := nowUnix + routingKeyRecoveryConfirmInterval }
    else
      { h with
        recoveryConfirmationsDone := total
        recoveryPhase := .idle
        recoveryNextTestAt := 0 }
  else if success then
    { h with
      recoveryPhase := .confirming
      recoveryConfirmationsDone := 0
      recoveryNextTestAt := nowUnix + routingKeyRecoveryConfirmInterval }
  else
    { h with
      recoveryPhase := .probing
      recoveryConfirmationsDone := 0
      recoveryNextTestAt := nowUnix + routingKeyRecoveryRetryInterval }

/-- The transaction of `RecordRoutingKeyRecoverySample`. -/
def recordRoutingKeyRecoverySample (success : Bool) (firstLatencyMs : ℤ)
    (nowUnix : ℤ) (errorSummary : String) : Health :=
  ((health.getD {}).push ⟨success, max firstLatencyMs 0, nowUnix, errorSummary⟩).advance success
    nowUnix

/-- The update of `ensureRoutingKeyRecoveryRetryIfStillInvalid`. -/
def Health.scheduleRetry (nowUnix : ℤ) : Health :=
  { h with
    recoveryPhase := .probing
    recoveryNextTestAt := nowUnix + routingKeyRecoveryRetryInterval }

def healthRecoveryStateDue (now : ℤ) : Bool :=
  match health with
  | none => true
  | some h => h.recoveryNextTestAt ≤ 0 || h.recoveryNextTestAt ≤ now

/-! ### What the record says about the key -/

/-- The status of a key or a channel. -/
inductive Status where
  | unknown
  | enabled
  | manuallyDisabled
  | autoDisabled
  | missing
  deriving DecidableEq

/-- Why a key can or cannot be used, apart from its health. -/
inductive Availability where
  | routable
  | credentialUnavailable
  | modelsUnavailable
  | manualDisabled
  | upstreamDisabled
  | missing
  | expired
  | quotaExhausted
  deriving DecidableEq

def Availability.text : Availability → String
  | .routable => "routable"
  | .credentialUnavailable => "credential_unavailable"
  | .modelsUnavailable => "models_unavailable"
  | .manualDisabled => "manual_disabled"
  | .upstreamDisabled => "upstream_disabled"
  | .missing => "missing"
  | .expired => "expired"
  | .quotaExhausted => "quota_exhausted"

inductive HealthStatus where
  | disabled
  | enabled
  | normal
  | degraded
  | invalid
  deriving DecidableEq

/-- `RoutingKeyHealthSummary`, without the samples. -/
structure HealthSummary where
  status : HealthStatus
  reason : String := ""
  sampleCount : ℕ := 0
  successCount : ℕ := 0
  firstLatencyMs : ℤ := 0
  lastSampleAt : ℤ := 0
  deriving DecidableEq

def healthSummaryFromBase (status : Status) (availabilityReason : Availability) :
    Option HealthSummary :=
  match status with
  | .manuallyDisabled =>
    some { status := .disabled, reason := Availability.manualDisabled.text }
  | .enabled | .unknown =>
    if availabilityReason ≠ .routable then
      some { status := .invalid, reason := availabilityReason.text }
    else none
  | .autoDisabled | .missing => some { status := .invalid, reason := availabilityReason.text }

/-- `routingKeyHealthFreshDuration`, in nanoseconds. -/
def routingKeyHealthFreshDuration : ℤ := 24 * 3600 * 1000000000

def routingKeyHealthNormalLatency : ℤ := 10000

def routingKeyHealthInvalidSuccess : ℕ := 1

/-- The samples are too old to say anything. -/
def Health.Stale (now : ℤ) : Prop :=
  h.tally.lastSampleAt ≤ 0 ∨ routingKeyHealthFreshDuration < now - h.tally.lastSampleAt * 1000000000

instance (h : Health) (now : ℤ) : Decidable (h.Stale now) := inferInstanceAs (Decidable (_ ∨ _))

def routingKeyHealthSummaryFromRecord (health : Health) (now : ℤ) : HealthSummary :=
  let t := health.tally
  if t.sampleCount < routingKeyHealthWindowSize then
    { status := .enabled, reason := "not_enough_samples" }
  else if health.Stale now then
    ⟨.enabled, "stale_samples", t.sampleCount, t.successCount, t.lastFirstLatencyMs, t.lastSampleAt⟩
  else
    let verdict : HealthStatus × String :=
      if t.successCount ≤ routingKeyHealthInvalidSuccess then (.invalid, "recent_failures")
      else if t.successCount = routingKeyHealthWindowSize ∧
          t.maxFirstLatencyMs < routingKeyHealthNormalLatency then (.normal, "")
      else if t.successCount = routingKeyHealthWindowSize then (.degraded, "high_first_latency")
      else (.degraded, "recent_degraded")
    ⟨verdict.1, verdict.2, t.sampleCount, t.successCount, t.lastFirstLatencyMs, t.lastSampleAt⟩

def getRoutingKeyHealthSummary (status : Status)
    (availabilityReason : Availability) (now : ℤ) : HealthSummary :=
  match healthSummaryFromBase status availabilityReason with
  | some base => base
  | none =>
    match health with
    | none => { status := .enabled, reason := "no_health_record" }
    | some h => routingKeyHealthSummaryFromRecord h now

def routingKeyHealthAllowsRouting (status : Status)
    (availabilityReason : Availability) (now : ℤ) : Bool :=
  let summary := getRoutingKeyHealthSummary health status availabilityReason now
  summary.status ≠ .disabled && summary.status ≠ .invalid

/-- The record by itself makes the key invalid. -/
def Health.Invalid (now : ℤ) : Prop :=
  routingKeyHealthWindowSize ≤ h.tally.sampleCount ∧ ¬ h.Stale now ∧
    h.tally.successCount ≤ routingKeyHealthInvalidSuccess

instance (h : Health) (now : ℤ) : Decidable (h.Invalid now) :=
  inferInstanceAs (Decidable (_ ∧ _ ∧ _))

theorem summaryFromRecord_invalid_iff (now : ℤ) :
    (routingKeyHealthSummaryFromRecord h now).status = .invalid ↔ h.Invalid now := by
  unfold routingKeyHealthSummaryFromRecord Health.Invalid
  simp only
  split_ifs with h₁ h₂ h₃ h₄ h₅ <;> simp [*] <;> omega

theorem summaryFromRecord_ne_disabled (now : ℤ) :
    (routingKeyHealthSummaryFromRecord h now).status ≠ .disabled := by
  unfold routingKeyHealthSummaryFromRecord
  simp only
  split_ifs <;> simp

end NexusTok.Routing
