import Mathlib.Data.List.Dedup
import NexusTok.Cachex.Claims

/-!
# The hybrid cache: both backends

Redis and the memory give the results that the cache is for.

* `FitsCall`, `FitsCalls` : keys of values are not keys of claims, prefixes are no patterns, and no
  claim is live under a prefix that is listed or deleted.
* `RedisShows`, `MemoryShows` : the state of a backend shows the values and claims.
* `sameResults` : then both backends give the results of the specification.  Without the condition
  they do not: `deletedClaim_differs`.
-/

namespace NexusTok

open List

variable {V M : Type}

/-! ### Conditions -/

/-- Text that a pattern takes literally. -/
def Literal (s : String) : Prop := ∀ c ∈ s.toList, c ∉ "*?[\\".toList

/-- No claim is live under a prefix. -/
def Unclaimed (s : CacheSpec V) (now : Int) (start : String) : Prop :=
  ∀ k, (s.claims.get now k).isSome → hasPrefix k start = false

/-- **A call that both backends take alike**, with the keys of claims apart: values live for a
positive time under full keys, and what lists or deletes by a prefix has a literal one with no live
claim under it. -/
def FitsCall (ns : String) (claimKeys : String → Prop) (s : CacheSpec V) (now : Int) :
    CacheCall V → Prop
  | .get key => ¬claimKeys (fullKey ns key)
  | .setWithTTL key _ ttl =>
    ¬claimKeys (fullKey ns key) ∧ 0 < ttl ∧ fullKey ns (fullKey ns key) = fullKey ns key
  | .tryClaim key _ _ => fullKey ns key ≠ "" → claimKeys (claimFullKey ns key)
  | .releaseClaim key _ => fullKey ns key ≠ "" → claimKeys (claimFullKey ns key)
  | .claimMatches key _ => fullKey ns key ≠ "" → claimKeys (claimFullKey ns key)
  | .deleteClaim key => fullKey ns key ≠ "" → claimKeys (claimFullKey ns key)
  | .keys => Literal (namePrefix ns) ∧ Unclaimed s now ""
  | .purge => Literal (namePrefix ns) ∧ Unclaimed s now ""
  | .deleteByPrefix start =>
    Literal (fullPrefix ns start) ∧ Unclaimed s now (fullPrefix ns start)
  | .deleteMany keys => ∀ key ∈ keys, ¬claimKeys (fullKey ns key)

/-- The calls of a run fit. -/
def FitsCalls (ns : String) (claimKeys : String → Prop) :
    CacheSpec V → List (Int × CacheCall V) → Prop
  | _, [] => True
  | s, (now, call) :: calls =>
    FitsCall ns claimKeys s now call ∧ FitsCalls ns claimKeys (specCall ns s now call).1 calls

/-! ### Deletions -/

variable {ks ks' : List String}

theorem deletedCount_deletionReport {there : String → Bool} (hn : ks.Nodup)
    (hall : ∀ k ∈ ks, there k = true) : deletedCount ks (deletionReport there ks) = ks.length := by
  unfold deletedCount
  rw [dedup_eq_self.2 hn, filter_eq_self.2]
  intro k hk
  simp only [deletionReport, if_pos hk, hall k hk, count_eq_one_of_mem hn hk]
  decide

theorem deletionReport_congr {there there' : String → Bool}
    (h : ∀ k ∈ ks, there k = there' k) : deletionReport there ks = deletionReport there' ks := by
  funext k
  unfold deletionReport
  by_cases hk : k ∈ ks
  · rw [if_pos hk, if_pos hk, h k hk]
  · rw [if_neg hk, if_neg hk]

/-- **The pipeline** deletes the keys, and reports which were there. -/
theorem unlink_spec (now : Int) (r : Redis) (res : String → Option Bool) (ks : List String) :
    (∀ t k, (Redis.unlink now r res ks).1.get t k = if k ∈ ks then none else r.get t k) ∧
      ∀ k, (Redis.unlink now r res ks).2 k =
        if k ∈ ks then some ((r.get now k).isSome && ks.count k == 1) else res k := by
  induction ks generalizing r res with
  | nil => exact ⟨fun _ _ => rfl, fun _ => rfl⟩
  | cons k' ks ih =>
    obtain ⟨hget, hreport⟩ := ih (r.delete k') (Function.update res k' (some (r.get now k').isSome))
    refine ⟨fun t k => ?_, fun k => ?_⟩
    · rw [Redis.unlink, hget, Expiring.get_delete]
      by_cases hk : k = k'
      · simp [hk]
      · simp [hk]
    · rw [Redis.unlink, hreport, Expiring.get_delete]
      by_cases hk : k = k'
      · subst hk
        by_cases hm : k ∈ ks
        · have := count_pos_iff.2 hm
          simp [hm, count_cons_self]
          intro _
          omega
        · simp [hm, count_cons_self, count_eq_zero_of_not_mem hm]
      · have hne : ¬k' = k := fun h => hk h.symm
        simp [hk, count_cons_of_ne hne]

theorem redisDeleteMany_get (ns : String) (r : Redis) (now t : Int) (keys : List String)
    (k : String) :
    (redisDeleteMany ns r now keys).1.get t k =
      if k ∈ fullKeys ns keys then none else r.get t k :=
  (unlink_spec now r (fun _ => none) (fullKeys ns keys)).1 t k

theorem redisDeleteMany_report (ns : String) (r : Redis) (now : Int) (keys : List String) :
    (redisDeleteMany ns r now keys).2 =
      deletionReport (fun k => (r.get now k).isSome) (fullKeys ns keys) :=
  funext (unlink_spec now r (fun _ => none) (fullKeys ns keys)).2

variable {ns full : String}

theorem fullKeys_eq {keys : List String}
    (h : ∀ k ∈ keys, fullKey ns k = k ∧ k ≠ "") : fullKeys ns keys = keys := by
  have hmap : keys.map (fullKey ns) = keys := by
    conv_rhs => rw [← map_id keys]
    exact map_congr_left fun k hk => (h k hk).1
  rw [fullKeys, hmap, filter_eq_self.2]
  intro k hk
  simpa using (h k hk).2

theorem specCall_tryClaim (ns : String) (s : CacheSpec V) (now : Int) (key token : String)
    (ttl : Int) :
    specCall ns s now (.tryClaim key token ttl) =
      if claimFullKey ns key = "" ∨ trimSpace token = "" ∨ ttl ≤ 0 then (s, .answer false)
      else if (s.claims.get now (claimFullKey ns key)).isSome then (s, .answer false)
      else
        ({ s with
            claims := s.claims.put ⟨claimFullKey ns key, trimSpace token, some (now + ttl)⟩ },
          .answer true) := by
  simp only [specCall, ← or_assoc]
  by_cases hnone : (claimFullKey ns key = "" ∨ trimSpace token = "") ∨ ttl ≤ 0
  · rw [if_pos hnone, if_pos (.inl hnone)]
  · rw [if_neg hnone]
    simp only [hnone, false_or]

theorem value_empty {s : CacheSpec V} {now : Int}
    (h : ∀ k, (s.values.get now k).isSome → fullKey ns k = k ∧ k ≠ "") :
    s.values.get now "" = none :=
  Option.not_isSome_iff_eq_none.1 fun hsome => (h "" hsome).2 rfl

/-- Deleting a claim without a name changes nothing. -/
theorem claims_delete_empty {s : CacheSpec V} {t : Int} (h : s.claims.get t "" = none)
    (k : String) : (s.claims.delete "").get t k = s.claims.get t k := by
  rw [Expiring.get_delete]
  split
  · rename_i hk
    rw [hk, h]
  · rfl

/-! ### Redis -/

/-- **Redis shows the values and claims**, each under its own keys. -/
structure RedisShows (codec : ValueCodec V) (ns : String) (claimKeys : String → Prop) (now : Int)
    (r : Redis) (s : CacheSpec V) : Prop where
  value : ∀ t, now ≤ t → ∀ k, ¬claimKeys k → r.get t k = (s.values.get t k).bind codec.encode
  claim : ∀ t, now ≤ t → ∀ k, claimKeys k → r.get t k = s.claims.get t k
  noValue : ∀ t, now ≤ t → ∀ k, claimKeys k → s.values.get t k = none
  noClaim : ∀ t, now ≤ t → ∀ k, ¬claimKeys k → s.claims.get t k = none
  /-- Values live under full keys. -/
  full : ∀ t, now ≤ t → ∀ k, (s.values.get t k).isSome → fullKey ns k = k ∧ k ≠ ""
  noName : ∀ t, now ≤ t → s.claims.get t "" = none

/-- A codec that decodes what it encodes. -/
def ValueCodec.RoundTrips (codec : ValueCodec V) : Prop :=
  ∀ v, ∃ raw, codec.encode v = some raw ∧ codec.decode raw = some v

/-- `SCAN` with a literal prefix. -/
def ScansPrefixes (scanMatch : String → String → Bool) : Prop :=
  ∀ start k, Literal start → scanMatch (start ++ "*") k = hasPrefix k start

section Redis

variable {codec : ValueCodec V} {scanMatch : String → String → Bool} {ns : String}
  {claimKeys : String → Prop} {now : Int} {r : Redis} {s : CacheSpec V}

theorem RedisShows.later (h : RedisShows codec ns claimKeys now r s) {now' : Int}
    (hle : now ≤ now') : RedisShows codec ns claimKeys now' r s :=
  ⟨fun t ht => h.value t (Int.le_trans hle ht), fun t ht => h.claim t (Int.le_trans hle ht),
    fun t ht => h.noValue t (Int.le_trans hle ht), fun t ht => h.noClaim t (Int.le_trans hle ht),
    fun t ht => h.full t (Int.le_trans hle ht), fun t ht => h.noName t (Int.le_trans hle ht)⟩

theorem encoded_isSome (hcodec : codec.RoundTrips) (o : Option V) :
    (o.bind codec.encode).isSome = o.isSome := by
  cases o with
  | none => rfl
  | some v =>
    obtain ⟨raw, hraw, -⟩ := hcodec v
    simp [hraw]

theorem Redis.get_set (r : Redis) {ttl : Int} (hpos : 0 < ttl) (now t : Int) (key value k : String) :
    (r.set now key value ttl).get t k =
      if k = key then (if t < now + ttl then some value else none) else r.get t k := by
  rw [Redis.set, Expiring.get_put]
  simp only [ExpiringEntry.live, if_pos hpos, Option.all_some, decide_eq_true_eq]

section

variable (h : RedisShows codec ns claimKeys now r s)
include h

theorem RedisShows.setValue {raw : String} {v : V}
    {ttl : Int} (hkey : ¬claimKeys full) (hfull : fullKey ns full = full) (hne : full ≠ "")
    (hraw : codec.encode v = some raw) (hpos : 0 < ttl) :
    RedisShows codec ns claimKeys now (r.set now full raw ttl)
      { s with values := s.values.put ⟨full, v, some (now + ttl)⟩ } := by
  have hlive : ∀ t, (ExpiringEntry.mk full v (some (now + ttl))).live t = decide (t < now + ttl) :=
    fun _ => rfl
  refine ⟨fun t ht k hk => ?_, fun t ht k hk => ?_, fun t ht k hk => ?_, h.noClaim,
    fun t ht k hk => ?_, h.noName⟩
  · rw [Redis.get_set r hpos, Expiring.get_put, hlive]
    by_cases heq : k = full
    · simp only [if_pos heq, decide_eq_true_eq]
      split
      · exact hraw.symm
      · rfl
    · simp only [if_neg heq]
      exact h.value t ht k hk
  · have heq : k ≠ full := fun heq => hkey (heq ▸ hk)
    rw [Redis.get_set r hpos, if_neg heq]
    exact h.claim t ht k hk
  · have heq : k ≠ full := fun heq => hkey (heq ▸ hk)
    rw [Expiring.get_put, if_neg heq]
    exact h.noValue t ht k hk
  · rw [Expiring.get_put] at hk
    by_cases heq : k = full
    · rw [heq]
      exact ⟨hfull, hne⟩
    · rw [if_neg heq] at hk
      exact h.full t ht k hk

theorem RedisShows.setClaim {token : String}
    {ttl : Int} (hkey : claimKeys full) (hne : full ≠ "") (hpos : 0 < ttl) :
    RedisShows codec ns claimKeys now (r.set now full token ttl)
      { s with claims := s.claims.put ⟨full, token, some (now + ttl)⟩ } := by
  have hlive : ∀ t, (ExpiringEntry.mk full token (some (now + ttl))).live t =
      decide (t < now + ttl) := fun _ => rfl
  refine ⟨fun t ht k hk => ?_, fun t ht k hk => ?_, h.noValue, fun t ht k hk => ?_, h.full,
    fun t ht => ?_⟩
  · have heq : k ≠ full := fun heq => hk (heq ▸ hkey)
    rw [Redis.get_set r hpos, if_neg heq]
    exact h.value t ht k hk
  · rw [Redis.get_set r hpos, Expiring.get_put, hlive]
    by_cases heq : k = full
    · simp only [if_pos heq, decide_eq_true_eq]
    · simp only [if_neg heq]
      exact h.claim t ht k hk
  · have heq : k ≠ full := fun heq => hk (heq ▸ hkey)
    rw [Expiring.get_put, if_neg heq]
    exact h.noClaim t ht k hk
  · rw [Expiring.get_put, if_neg (Ne.symm hne)]
    exact h.noName t ht

theorem RedisShows.deleteClaim (hkey : claimKeys full) :
    RedisShows codec ns claimKeys now (r.delete full)
      { s with claims := s.claims.delete full } := by
  refine ⟨fun t ht k hk => ?_, fun t ht k hk => ?_, h.noValue, fun t ht k hk => ?_, h.full,
    fun t ht => ?_⟩
  · have heq : k ≠ full := fun heq => hk (heq ▸ hkey)
    rw [Expiring.get_delete, if_neg heq]
    exact h.value t ht k hk
  · rw [Expiring.get_delete, Expiring.get_delete, h.claim t ht k hk]
  · rw [Expiring.get_delete, h.noClaim t ht k hk, ite_self]
  · rw [Expiring.get_delete, h.noName t ht, ite_self]

theorem RedisShows.deleteValues {r' : Redis} (hkeys : ∀ k ∈ ks, ¬claimKeys k)
    (hget : ∀ t k, r'.get t k = if k ∈ ks then none else r.get t k) (hks : ∀ k, k ∈ ks ↔ k ∈ ks') :
    RedisShows codec ns claimKeys now r' { s with values := s.values.deleteAll ks' } := by
  refine ⟨fun t ht k hk => ?_, fun t ht k hk => ?_, fun t ht k hk => ?_, h.noClaim,
    fun t ht k hk => ?_, h.noName⟩
  · rw [hget, Expiring.get_deleteAll, h.value t ht k hk]
    by_cases hm : k ∈ ks
    · rw [if_pos hm, if_pos ((hks k).1 hm)]
      rfl
    · rw [if_neg hm, if_neg fun hm' => hm ((hks k).2 hm')]
  · rw [hget, if_neg fun hm => hkeys k hm hk]
    exact h.claim t ht k hk
  · rw [Expiring.get_deleteAll, h.noValue t ht k hk, ite_self]
  · rw [Expiring.get_deleteAll] at hk
    split at hk
    · cases hk
    · exact h.full t ht k hk

/-- **What is scanned** under a literal prefix without claims are the keys of the values. -/
theorem RedisShows.scan (hcodec : codec.RoundTrips)
    (hscan : ScansPrefixes scanMatch) {start : String} (hliteral : Literal start)
    (hfree : Unclaimed s now start) :
    (scanKeys scanMatch r now (start ++ "*")).Perm
        ((s.values.keys now).filter (hasPrefix · start)) ∧
      (∀ k ∈ scanKeys scanMatch r now (start ++ "*"), ¬claimKeys k) ∧
      fullKeys ns (scanKeys scanMatch r now (start ++ "*")) =
        scanKeys scanMatch r now (start ++ "*") := by
  have hmem : ∀ k, k ∈ scanKeys scanMatch r now (start ++ "*") ↔
      (r.get now k).isSome ∧ hasPrefix k start = true := by
    intro k
    rw [scanKeys, mem_filter, Expiring.mem_keys, hscan start k hliteral]
  have hvalue : ∀ k, k ∈ scanKeys scanMatch r now (start ++ "*") → ¬claimKeys k := by
    intro k hk hclaim
    obtain ⟨hsome, hprefix⟩ := (hmem k).1 hk
    rw [h.claim now (Int.le_refl _) k hclaim] at hsome
    rw [hfree k hsome] at hprefix
    cases hprefix
  have hnodup : (scanKeys scanMatch r now (start ++ "*")).Nodup := (r.keys_nodup now).filter _
  refine ⟨?_, hvalue, fullKeys_eq fun k hk => ?_⟩
  · refine (perm_ext_iff_of_nodup hnodup ((s.values.keys_nodup now).filter _)).2 fun k => ?_
    rw [mem_filter, Expiring.mem_keys]
    constructor
    · intro hk
      obtain ⟨hsome, hprefix⟩ := (hmem k).1 hk
      rw [h.value now (Int.le_refl _) k (hvalue k hk), encoded_isSome hcodec] at hsome
      exact ⟨hsome, hprefix⟩
    · rintro ⟨hsome, hprefix⟩
      refine (hmem k).2 ⟨?_, hprefix⟩
      have hnot : ¬claimKeys k := fun hclaim => by
        rw [h.noValue now (Int.le_refl _) k hclaim] at hsome
        cases hsome
      rw [h.value now (Int.le_refl _) k hnot, encoded_isSome hcodec]
      exact hsome
  · have hsome := ((hmem k).1 hk).1
    rw [h.value now (Int.le_refl _) k (hvalue k hk), encoded_isSome hcodec] at hsome
    exact h.full now (Int.le_refl _) k hsome

end

theorem claimFullKey_eq_empty {key : String} : claimFullKey ns key = "" ↔ fullKey ns key = "" := by
  unfold claimFullKey
  dsimp only
  split
  · rename_i h
    exact ⟨fun _ => h, fun _ => rfl⟩
  · rename_i h
    refine ⟨fun hempty => ?_, fun hempty => absurd hempty h⟩
    have := congrArg String.toList hempty
    simp [String.toList_append] at this

theorem matchPattern_eq (ns : String) : matchPattern ns = namePrefix ns ++ "*" := by
  unfold matchPattern
  dsimp only
  split
  · rename_i h
    rw [h]
    rfl
  · rfl

theorem hasPrefix_append (start s : String) : hasPrefix (start ++ s) start = true := by
  rw [hasPrefix, String.toList_append, isPrefixOf_iff_prefix]
  exact prefix_append ..

theorem hasPrefix_empty (s : String) : hasPrefix s "" = true := by
  simp [hasPrefix]

theorem hasPrefix_of_full {k : String} (hfull : fullKey ns k = k) (hne : k ≠ "") :
    hasPrefix k (namePrefix ns) = true := by
  unfold fullKey at hfull
  dsimp only at hfull
  split at hfull
  · exact absurd hfull.symm hne
  · split at hfull
    · rename_i hp
      rw [hp]
      exact hasPrefix_empty k
    · split at hfull
      · rename_i hstarts
        exact (congrArg (fun x => hasPrefix x (namePrefix ns)) hfull).symm.trans hstarts
      · rw [← hfull]
        exact hasPrefix_append ..

theorem RedisShows.values_keys (h : RedisShows codec ns claimKeys now r s) :
    (s.values.keys now).filter (hasPrefix · (namePrefix ns)) = s.values.keys now := by
  refine filter_eq_self.2 fun k hk => ?_
  obtain ⟨hfull, hne⟩ := h.full now (Int.le_refl _) k (Expiring.mem_keys.1 hk)
  exact hasPrefix_of_full hfull hne

/-- Without live claims there are none under any prefix. -/
theorem Unclaimed.all (h : Unclaimed s now "") (start : String) : Unclaimed s now start := by
  intro k hk
  have := h k hk
  rw [hasPrefix_empty] at this
  cases this

theorem RedisShows.purge (h : RedisShows codec ns claimKeys now r s) (hcodec : codec.RoundTrips)
    (hscan : ScansPrefixes scanMatch) (hliteral : Literal (namePrefix ns))
    (hfree : Unclaimed s now "") :
    RedisShows codec ns claimKeys now
      (redisDeleteMany ns r now (scanKeys scanMatch r now (matchPattern ns))).1
      { s with values := {} } := by
  obtain ⟨hperm, hkeys, hfull⟩ := h.scan hcodec hscan hliteral (hfree.all _)
  rw [h.values_keys] at hperm
  rw [← matchPattern_eq] at hperm hkeys hfull
  have hget := redisDeleteMany_get ns r now
  refine ⟨fun t ht k hk => ?_, fun t ht k hk => ?_, fun _ _ _ _ => rfl, h.noClaim,
    (fun _ _ _ hk => nomatch hk), h.noName⟩
  · rw [hget, hfull]
    split
    · rfl
    · rename_i hm
      have hnone : s.values.get now k = none := by
        have : k ∉ s.values.keys now := fun hk => hm (hperm.mem_iff.2 hk)
        rw [Expiring.mem_keys] at this
        simpa using this
      rw [h.value t ht k hk, Expiring.get_later hnone ht]
      rfl
  · rw [hget, hfull, if_neg fun hm => hkeys k hm hk]
    exact h.claim t ht k hk

theorem RedisShows.call (h : RedisShows codec ns claimKeys now r s) (hcodec : codec.RoundTrips)
    (hscan : ScansPrefixes scanMatch) {call : CacheCall V}
    (hfits : FitsCall ns claimKeys s now call) :
    (redisCall codec scanMatch ns r now call).2.Same (specCall ns s now call).2 ∧
      RedisShows codec ns claimKeys now (redisCall codec scanMatch ns r now call).1
        (specCall ns s now call).1 := by
  cases call with
  | get key =>
    simp only [redisCall, specCall]
    by_cases hfull : fullKey ns key = ""
    · rw [hfull, if_pos rfl, value_empty (h.full now (Int.le_refl _))]
      exact ⟨.inl rfl, h⟩
    · rw [if_neg hfull, h.value now (Int.le_refl _) _ hfits]
      cases hg : s.values.get now (fullKey ns key) with
      | none => exact ⟨.inl rfl, h⟩
      | some v =>
        obtain ⟨raw, hraw, hdecode⟩ := hcodec v
        simp only [Option.bind_some, hraw, hdecode]
        exact ⟨.inl rfl, h⟩
  | setWithTTL key v ttl =>
    obtain ⟨hkey, hpos, hstable⟩ := hfits
    simp only [redisCall, specCall]
    by_cases hfull : fullKey ns key = ""
    · rw [if_pos hfull, if_pos hfull]
      exact ⟨.inl rfl, h⟩
    · obtain ⟨raw, hraw, -⟩ := hcodec v
      rw [if_neg hfull, if_neg hfull]
      simp only [hraw]
      exact ⟨.inl rfl, h.setValue hkey hstable hfull hraw hpos⟩
  | tryClaim key token ttl =>
    rw [specCall_tryClaim]
    simp only [redisCall]
    by_cases hnone : claimFullKey ns key = "" ∨ trimSpace token = "" ∨ ttl ≤ 0
    · rw [if_pos hnone, if_pos hnone]
      exact ⟨.inl rfl, h⟩
    · rw [if_neg hnone, if_neg hnone]
      simp only [not_or, Int.not_le] at hnone
      have hkey := hfits fun hempty => hnone.1 (claimFullKey_eq_empty.2 hempty)
      rw [h.claim now (Int.le_refl _) _ hkey]
      by_cases htaken : (s.claims.get now (claimFullKey ns key)).isSome = true
      · rw [if_pos htaken, if_pos htaken]
        exact ⟨.inl rfl, h⟩
      · rw [if_neg htaken, if_neg htaken]
        exact ⟨.inl rfl, h.setClaim hkey hnone.1 hnone.2.2⟩
  | releaseClaim key token =>
    simp only [redisCall, specCall]
    by_cases hnone : claimFullKey ns key = "" ∨ trimSpace token = ""
    · rw [if_pos hnone, if_neg fun hall => hnone.elim hall.1 hall.2.1]
      exact ⟨.inl rfl, h⟩
    · rw [if_neg hnone]
      simp only [not_or] at hnone
      have hkey := hfits fun hempty => hnone.1 (claimFullKey_eq_empty.2 hempty)
      rw [h.claim now (Int.le_refl _) _ hkey]
      by_cases hholder : s.claims.get now (claimFullKey ns key) = some (trimSpace token)
      · rw [if_pos hholder, if_pos ⟨hnone.1, hnone.2, hholder⟩]
        exact ⟨.inl rfl, h.deleteClaim hkey⟩
      · rw [if_neg hholder, if_neg fun hall => hholder hall.2.2]
        exact ⟨.inl rfl, h⟩
  | claimMatches key token =>
    simp only [redisCall, specCall]
    by_cases hnone : claimFullKey ns key = "" ∨ trimSpace token = ""
    · rw [if_pos hnone]
      refine ⟨.inl (congrArg CacheResult.answer ?_), h⟩
      exact (decide_eq_false fun hall => hnone.elim hall.1 hall.2.1).symm
    · rw [if_neg hnone]
      simp only [not_or] at hnone
      have hkey := hfits fun hempty => hnone.1 (claimFullKey_eq_empty.2 hempty)
      rw [h.claim now (Int.le_refl _) _ hkey]
      refine ⟨.inl (congrArg CacheResult.answer ?_), h⟩
      simp only [ne_eq, hnone.1, hnone.2, not_false_eq_true, true_and]
  | deleteClaim key =>
    simp only [redisCall, specCall]
    by_cases hfull : claimFullKey ns key = ""
    · rw [if_pos hfull]
      simp only [hfull]
      have hsame := fun t ht => claims_delete_empty (h.noName t ht)
      exact ⟨.inl rfl, h.value, fun t ht k hk => (h.claim t ht k hk).trans (hsame t ht k).symm,
        h.noValue, fun t ht k hk => (hsame t ht k).trans (h.noClaim t ht k hk), h.full,
        fun t ht => (hsame t ht "").trans (h.noName t ht)⟩
    · rw [if_neg hfull]
      have hkey := hfits fun hempty => hfull (claimFullKey_eq_empty.2 hempty)
      exact ⟨.inl rfl, h.deleteClaim hkey⟩
  | keys =>
    simp only [redisCall, specCall]
    obtain ⟨hperm, -, -⟩ := h.scan hcodec hscan hfits.1 (hfits.2.all _)
    rw [h.values_keys, ← matchPattern_eq] at hperm
    exact ⟨.inr ⟨_, _, rfl, rfl, hperm⟩, h⟩
  | purge =>
    simp only [redisCall, specCall]
    exact ⟨.inl rfl, h.purge hcodec hscan hfits.1 hfits.2⟩
  | deleteByPrefix start =>
    simp only [redisCall, specCall]
    by_cases hfull : fullPrefix ns start = ""
    · rw [if_pos hfull, if_pos hfull]
      exact ⟨.inl rfl, h⟩
    · rw [if_neg hfull, if_neg hfull]
      obtain ⟨hperm, hkeys, hself⟩ := h.scan hcodec hscan hfits.1 hfits.2
      have hnodup : (scanKeys scanMatch r now (fullPrefix ns start ++ "*")).Nodup :=
        (r.keys_nodup now).filter _
      refine ⟨.inl (congrArg CacheResult.count ?_), ?_⟩
      · rw [redisDeleteMany_report, hself, deletedCount_deletionReport hnodup, hperm.length_eq]
        intro k hk
        exact Expiring.mem_keys.1 (mem_filter.1 hk).1
      · refine h.deleteValues hkeys (fun t k => ?_) fun k => hperm.mem_iff
        rw [redisDeleteMany_get, hself]
  | deleteMany keys =>
    simp only [redisCall, specCall]
    have hkeys : ∀ k ∈ fullKeys ns keys, ¬claimKeys k := by
      intro k hk
      obtain ⟨key, hkey, rfl⟩ := mem_map.1 (mem_filter.1 hk).1
      exact hfits key hkey
    refine ⟨.inl (congrArg CacheResult.report ?_), ?_⟩
    · rw [redisDeleteMany_report]
      refine deletionReport_congr fun k hk => ?_
      rw [h.value now (Int.le_refl _) k (hkeys k hk), encoded_isSome hcodec]
    · exact h.deleteValues hkeys (fun t k => redisDeleteMany_get ns r now t keys k) fun _ => Iff.rfl

theorem RedisShows.run (hcodec : codec.RoundTrips) (hscan : ScansPrefixes scanMatch)
    (calls : List (Int × CacheCall V)) (h : RedisShows codec ns claimKeys now r s)
    (hsorted : Chronological calls) (hstart : ∀ call ∈ calls, now ≤ call.1)
    (hfits : FitsCalls ns claimKeys s calls) :
    SameResults (redisRun codec scanMatch ns r calls) (specRun ns s calls) := by
  induction calls generalizing now r s with
  | nil => exact List.Forall₂.nil
  | cons call calls ih =>
    obtain ⟨at', call⟩ := call
    unfold Chronological at hsorted
    rw [map_cons, pairwise_cons] at hsorted
    obtain ⟨hsame, hshows⟩ := (h.later (hstart (at', call) (by simp))).call hcodec hscan hfits.1
    exact List.Forall₂.cons hsame (ih hshows hsorted.2
      (fun c hc => hsorted.1 c.1 (mem_map_of_mem hc)) hfits.2)

end Redis

/-! ### Memory -/

/-- The token that holds a claim at a time. -/
def MemoryCache.holder (c : MemoryCache M) (t : Int) (k : String) : Option String :=
  (c.claims k).bind fun claim => if t < claim.expiresAt then some claim.token else none

/-- **The memory shows the values and claims.** -/
structure MemoryShows (hot : HotCache V M) (ns : String) (now : Int) (c : MemoryCache M)
    (s : CacheSpec V) : Prop where
  value : ∀ t, now ≤ t → ∀ k, hot.get c.mem t k = s.values.get t k
  claim : ∀ t, now ≤ t → ∀ k, c.holder t k = s.claims.get t k
  full : ∀ t, now ≤ t → ∀ k, (s.values.get t k).isSome → fullKey ns k = k ∧ k ≠ ""
  noName : ∀ t, now ≤ t → s.claims.get t "" = none

section Memory

variable {hot : HotCache V M} {ns : String} {now : Int} {c : MemoryCache M} {s : CacheSpec V}

theorem MemoryShows.later (h : MemoryShows hot ns now c s) {now' : Int} (hle : now ≤ now') :
    MemoryShows hot ns now' c s :=
  ⟨fun t ht => h.value t (Int.le_trans hle ht), fun t ht => h.claim t (Int.le_trans hle ht),
    fun t ht => h.full t (Int.le_trans hle ht), fun t ht => h.noName t (Int.le_trans hle ht)⟩

theorem holder_update (c : MemoryCache M) (full : String) (claim : Option CacheClaim) (t : Int)
    (k : String) :
    ({ c with claims := Function.update c.claims full claim } : MemoryCache M).holder t k =
      if k = full then claim.bind fun claim => if t < claim.expiresAt then some claim.token else none
      else c.holder t k := by
  unfold MemoryCache.holder
  by_cases hk : k = full
  · rw [if_pos hk, hk]
    dsimp only
    rw [Function.update_self]
  · rw [if_neg hk]
    dsimp only
    rw [Function.update_of_ne hk]

section

variable (h : MemoryShows hot ns now c s)
include h

theorem MemoryShows.drop {claim : CacheClaim}
    (hclaim : c.claims full = some claim) (hexpired : ¬now < claim.expiresAt) :
    MemoryShows hot ns now
      ({ c with claims := Function.update c.claims full none } : MemoryCache M) s := by
  refine ⟨h.value, fun t ht k => ?_, h.full, h.noName⟩
  rw [holder_update, ← h.claim t ht k]
  split
  · rename_i hk
    have hlate : ¬t < claim.expiresAt := by omega
    rw [hk]
    simp [MemoryCache.holder, hclaim, hlate]
  · rfl

theorem MemoryShows.deleteClaim (full : String) :
    MemoryShows hot ns now
      ({ c with claims := Function.update c.claims full none } : MemoryCache M)
      { s with claims := s.claims.delete full } := by
  refine ⟨h.value, fun t ht k => ?_, h.full, fun t ht => ?_⟩
  · rw [holder_update, Expiring.get_delete, h.claim t ht k]
    rfl
  · rw [Expiring.get_delete, h.noName t ht, ite_self]

theorem MemoryShows.deleteValues {mem : M}
    (hget : ∀ t k, now ≤ t → hot.get mem t k = if k ∈ ks then none else hot.get c.mem t k)
    (hks : ∀ k, k ∈ ks ↔ k ∈ ks') : MemoryShows hot ns now { c with mem := mem }
      { s with values := s.values.deleteAll ks' } := by
  refine ⟨fun t ht k => ?_, h.claim, fun t ht k hk => ?_, h.noName⟩
  · rw [hget t k ht, Expiring.get_deleteAll, h.value t ht k]
    by_cases hm : k ∈ ks
    · rw [if_pos hm, if_pos ((hks k).1 hm)]
    · rw [if_neg hm, if_neg fun hm' => hm ((hks k).2 hm')]
  · rw [Expiring.get_deleteAll] at hk
    split at hk
    · cases hk
    · exact h.full t ht k hk

theorem MemoryShows.deleteMany (hhot : hot.Lawful)
    (keys : List String) (hks : ∀ k, k ∈ fullKeys ns keys ↔ k ∈ ks) :
    (memoryDeleteMany hot ns c now keys).2 =
        deletionReport (fun k => (s.values.get now k).isSome) (fullKeys ns keys) ∧
      MemoryShows hot ns now (memoryDeleteMany hot ns c now keys).1
        { s with values := s.values.deleteAll ks } := by
  unfold memoryDeleteMany
  dsimp only
  split
  · rename_i hnil
    rw [hnil]
    refine ⟨rfl, ?_⟩
    rw [hnil] at hks
    exact h.deleteValues (fun t k _ => (if_neg not_mem_nil).symm) hks
  · refine ⟨?_, h.deleteValues (hhot.get_deleteMany c.mem now (fullKeys ns keys)) hks⟩
    rw [hhot.deleteMany_report]
    exact deletionReport_congr fun k _ => by rw [h.value now (Int.le_refl _) k]

theorem MemoryShows.keys (hhot : hot.Lawful) : (hot.keys c.mem now).Perm (s.values.keys now) := by
  refine (perm_ext_iff_of_nodup (hhot.keys_nodup ..) (s.values.keys_nodup now)).2 fun k => ?_
  rw [hhot.mem_keys, Expiring.mem_keys, h.value now (Int.le_refl _) k]

theorem MemoryShows.claim_cases (full : String) :
    (c.claims full = none ∧ s.claims.get now full = none) ∨
      ∃ claim, c.claims full = some claim ∧
        ((now < claim.expiresAt ∧ s.claims.get now full = some claim.token) ∨
          (¬now < claim.expiresAt ∧ s.claims.get now full = none)) := by
  rw [← h.claim now (Int.le_refl _), MemoryCache.holder]
  cases c.claims full with
  | none => exact .inl ⟨rfl, rfl⟩
  | some claim =>
    refine .inr ⟨claim, rfl, ?_⟩
    by_cases hlive : now < claim.expiresAt
    · exact .inl ⟨hlive, if_pos hlive⟩
    · exact .inr ⟨hlive, if_neg hlive⟩

theorem MemoryShows.call (hhot : hot.Lawful)
    {claimKeys : String → Prop} {call : CacheCall V} (hfits : FitsCall ns claimKeys s now call) :
    (memoryCall hot ns c now call).2.Same (specCall ns s now call).2 ∧
      MemoryShows hot ns now (memoryCall hot ns c now call).1 (specCall ns s now call).1 := by
  cases call with
  | get key =>
    simp only [memoryCall, specCall]
    by_cases hfull : fullKey ns key = ""
    · rw [hfull, if_pos rfl, value_empty (h.full now (Int.le_refl _))]
      exact ⟨.inl rfl, h⟩
    · rw [if_neg hfull, h.value now (Int.le_refl _)]
      exact ⟨.inl rfl, h⟩
  | setWithTTL key v ttl =>
    obtain ⟨-, hpos, hstable⟩ := hfits
    simp only [memoryCall, specCall]
    by_cases hfull : fullKey ns key = ""
    · rw [if_pos hfull, if_pos hfull]
      exact ⟨.inl rfl, h⟩
    · rw [if_neg hfull, if_neg hfull]
      refine ⟨.inl rfl, fun t ht k => ?_, h.claim, fun t ht k hk => ?_, h.noName⟩
      · rw [hhot.get_setWithTTL _ _ _ _ _ _ _ hpos ht, Expiring.get_put, h.value t ht k]
        simp only [ExpiringEntry.live, Option.all_some, decide_eq_true_eq]
      · rw [Expiring.get_put] at hk
        by_cases heq : k = fullKey ns key
        · rw [heq]
          exact ⟨hstable, hfull⟩
        · rw [if_neg heq] at hk
          exact h.full t ht k hk
  | tryClaim key token ttl =>
    rw [specCall_tryClaim]
    simp only [memoryCall]
    have htaken : (c.claims (claimFullKey ns key)).any (now < ·.expiresAt) =
        (s.claims.get now (claimFullKey ns key)).isSome := by
      obtain ⟨hclaim, hget⟩ | ⟨claim, hclaim, ⟨hlive, hget⟩ | ⟨hlive, hget⟩⟩ :=
        h.claim_cases (claimFullKey ns key)
      · rw [hclaim, hget]
        rfl
      · simp [hclaim, hget, hlive]
      · simp [hclaim, hget, hlive]
    rw [htaken]
    by_cases hnone : claimFullKey ns key = "" ∨ trimSpace token = "" ∨ ttl ≤ 0
    · rw [if_pos hnone, if_pos hnone]
      exact ⟨.inl rfl, h⟩
    · rw [if_neg hnone, if_neg hnone]
      by_cases hclaimed : (s.claims.get now (claimFullKey ns key)).isSome = true
      · rw [if_pos hclaimed, if_pos hclaimed]
        exact ⟨.inl rfl, h⟩
      · rw [if_neg hclaimed, if_neg hclaimed]
        refine ⟨.inl rfl, h.value, fun t ht k => ?_, h.full, fun t ht => ?_⟩
        · rw [holder_update, Expiring.get_put, h.claim t ht k]
          simp only [Option.bind_some, ExpiringEntry.live, Option.all_some, decide_eq_true_eq]
        · rw [Expiring.get_put, if_neg fun hempty => hnone (.inl hempty.symm)]
          exact h.noName t ht
  | releaseClaim key token =>
    simp only [memoryCall, specCall]
    by_cases hnone : claimFullKey ns key = "" ∨ trimSpace token = ""
    · rw [if_pos hnone, if_neg fun hall => hnone.elim hall.1 hall.2.1]
      exact ⟨.inl rfl, h⟩
    · rw [if_neg hnone]
      simp only [not_or] at hnone
      obtain ⟨hclaim, hget⟩ | ⟨claim, hclaim, ⟨hlive, hget⟩ | ⟨hlive, hget⟩⟩ :=
        h.claim_cases (claimFullKey ns key)
      all_goals simp only [hclaim, hget]
      · rw [if_neg fun hall => by cases hall.2.2]
        exact ⟨.inl rfl, h⟩
      · rw [if_neg (not_not_intro hlive)]
        by_cases htoken : claim.token = trimSpace token
        · rw [if_neg (not_not_intro htoken), if_pos ⟨hnone.1, hnone.2, congrArg some htoken⟩]
          exact ⟨.inl rfl, h.deleteClaim _⟩
        · rw [if_pos htoken, if_neg fun hall => htoken (Option.some.inj hall.2.2)]
          exact ⟨.inl rfl, h⟩
      · rw [if_pos hlive, if_neg fun hall => by cases hall.2.2]
        exact ⟨.inl rfl, h.drop hclaim hlive⟩
  | claimMatches key token =>
    simp only [memoryCall, specCall]
    by_cases hnone : claimFullKey ns key = "" ∨ trimSpace token = ""
    · rw [if_pos hnone]
      refine ⟨.inl (congrArg CacheResult.answer ?_), h⟩
      exact (decide_eq_false fun hall => hnone.elim hall.1 hall.2.1).symm
    · rw [if_neg hnone]
      simp only [not_or] at hnone
      obtain ⟨hclaim, hget⟩ | ⟨claim, hclaim, ⟨hlive, hget⟩ | ⟨hlive, hget⟩⟩ :=
        h.claim_cases (claimFullKey ns key)
      all_goals simp only [hclaim, hget]
      · refine ⟨.inl (congrArg CacheResult.answer ?_), h⟩
        exact (decide_eq_false fun hall => by cases hall.2.2).symm
      · rw [if_neg (not_not_intro hlive)]
        refine ⟨.inl (congrArg CacheResult.answer ?_), h⟩
        simp only [ne_eq, hnone.1, hnone.2, not_false_eq_true, true_and, Option.some.injEq]
      · rw [if_pos hlive]
        refine ⟨.inl (congrArg CacheResult.answer ?_), h.drop hclaim hlive⟩
        exact (decide_eq_false fun hall => by cases hall.2.2).symm
  | deleteClaim key =>
    simp only [memoryCall, specCall]
    by_cases hfull : claimFullKey ns key = ""
    · rw [if_pos hfull]
      simp only [hfull]
      have hsame := fun t ht => claims_delete_empty (h.noName t ht)
      exact ⟨.inl rfl, h.value, fun t ht k => (h.claim t ht k).trans (hsame t ht k).symm, h.full,
        fun t ht => (hsame t ht "").trans (h.noName t ht)⟩
    · rw [if_neg hfull]
      exact ⟨.inl rfl, h.deleteClaim _⟩
  | keys => exact ⟨.inr ⟨_, _, rfl, rfl, h.keys hhot⟩, h⟩
  | purge =>
    exact ⟨.inl rfl, fun t _ k => hhot.get_purge c.mem t k, h.claim,
      (fun _ _ _ hk => by cases hk), h.noName⟩
  | deleteByPrefix start =>
    simp only [memoryCall, specCall]
    by_cases hfull : fullPrefix ns start = ""
    · rw [if_pos hfull, if_pos hfull]
      exact ⟨.inl rfl, h⟩
    · rw [if_neg hfull, if_neg hfull]
      have hperm := (h.keys hhot).filter (hasPrefix · (fullPrefix ns start))
      have hself : fullKeys ns ((hot.keys c.mem now).filter (hasPrefix · (fullPrefix ns start))) =
          (hot.keys c.mem now).filter (hasPrefix · (fullPrefix ns start)) := by
        refine fullKeys_eq fun k hk => h.full now (Int.le_refl _) k ?_
        rw [← h.value now (Int.le_refl _) k, ← hhot.mem_keys]
        exact (mem_filter.1 hk).1
      have hmem : ∀ k, k ∈ fullKeys ns ((hot.keys c.mem now).filter
            (hasPrefix · (fullPrefix ns start))) ↔
          k ∈ (s.values.keys now).filter (hasPrefix · (fullPrefix ns start)) := by
        intro k
        rw [hself]
        exact hperm.mem_iff
      obtain ⟨hreport, hshows⟩ := h.deleteMany hhot
        ((hot.keys c.mem now).filter (hasPrefix · (fullPrefix ns start))) hmem
      refine ⟨.inl (congrArg CacheResult.count ?_), hshows⟩
      have hnodup := (hhot.keys_nodup c.mem now).filter (hasPrefix · (fullPrefix ns start))
      rw [hreport, hself, deletedCount_deletionReport hnodup, hperm.length_eq]
      intro k hk
      rw [← h.value now (Int.le_refl _) k, ← hhot.mem_keys]
      exact (mem_filter.1 hk).1
  | deleteMany keys =>
    simp only [memoryCall, specCall]
    obtain ⟨hreport, hshows⟩ := h.deleteMany hhot keys
      (fun k => (Iff.rfl : k ∈ fullKeys ns keys ↔ k ∈ fullKeys ns keys))
    exact ⟨.inl (congrArg CacheResult.report hreport), hshows⟩

end

theorem MemoryShows.run (hhot : hot.Lawful) {claimKeys : String → Prop}
    (calls : List (Int × CacheCall V)) (h : MemoryShows hot ns now c s)
    (hsorted : Chronological calls) (hstart : ∀ call ∈ calls, now ≤ call.1)
    (hfits : FitsCalls ns claimKeys s calls) :
    SameResults (memoryRun hot ns c calls) (specRun ns s calls) := by
  induction calls generalizing now c s with
  | nil => exact List.Forall₂.nil
  | cons call calls ih =>
    obtain ⟨at', call⟩ := call
    unfold Chronological at hsorted
    rw [map_cons, pairwise_cons] at hsorted
    obtain ⟨hsame, hshows⟩ := (h.later (hstart (at', call) (by simp))).call hhot hfits.1
    exact List.Forall₂.cons hsame (ih hshows hsorted.2
      (fun c hc => hsorted.1 c.1 (mem_map_of_mem hc)) hfits.2)

end Memory

/-! ### Both -/

theorem SameResults.trans_symm {a b c : List (CacheResult V)} (h : SameResults a c)
    (h' : SameResults b c) : SameResults a b := by
  induction h generalizing b with
  | nil =>
    cases h'
    exact List.Forall₂.nil
  | cons hsame _ ih =>
    cases h' with
    | cons hsame' hrest => exact List.Forall₂.cons (hsame.trans hsame'.symm) (ih hrest)

theorem SameResults.answered {results results' : List (CacheResult V)}
    (h : SameResults results results') :
    results.map CacheResult.answered = results'.map CacheResult.answered := by
  induction h with
  | nil => rfl
  | cons hsame _ ih => rw [map_cons, map_cons, hsame.answered, ih]

/-- One holder is a matter of the answers. -/
theorem Exclusive.congr {calls : List (Int × CacheCall V)}
    {results results' : List (CacheResult V)} (h : Exclusive ns calls results')
    (hsame : SameResults results results') : Exclusive ns calls results := by
  intro before between rest now now' key key' token token' ttl ttl' hzip
  rw [hsame.answered] at hzip
  exact h before between rest now now' key key' token token' ttl ttl' hzip

/-- **Both backends give the same results**, which are those that the cache is for, and a claim has
one holder in both. -/
theorem sameResults (codec : ValueCodec V) (scanMatch : String → String → Bool)
    (hot : HotCache V M) (ns : String) (claimKeys : String → Prop)
    (calls : List (Int × CacheCall V)) (hcodec : codec.RoundTrips)
    (hscan : ScansPrefixes scanMatch) (hhot : hot.Lawful) (hsorted : Chronological calls)
    (hfits : FitsCalls ns claimKeys {} calls) :
    SameResults (redisRun codec scanMatch ns {} calls)
        (memoryRun hot ns { mem := hot.new } calls) ∧
      SameResults (redisRun codec scanMatch ns {} calls) (specRun ns {} calls) ∧
      SameResults (memoryRun hot ns { mem := hot.new } calls) (specRun ns {} calls) ∧
      Exclusive ns calls (redisRun codec scanMatch ns {} calls) ∧
      Exclusive ns calls (memoryRun hot ns { mem := hot.new } calls) := by
  obtain ⟨now, hstart⟩ : ∃ now, ∀ call ∈ calls, now ≤ call.1 := by
    cases calls with
    | nil => exact ⟨0, nofun⟩
    | cons call calls =>
      unfold Chronological at hsorted
      rw [List.map_cons, List.pairwise_cons] at hsorted
      refine ⟨call.1, fun c hc => ?_⟩
      rcases List.mem_cons.1 hc with rfl | hc
      · exact Int.le_refl _
      · exact hsorted.1 c.1 (List.mem_map_of_mem hc)
  have hredisShows : RedisShows codec ns claimKeys now {} ({} : CacheSpec V) :=
    ⟨fun _ _ _ _ => rfl, fun _ _ _ _ => rfl, fun _ _ _ _ => rfl, fun _ _ _ _ => rfl,
      (fun _ _ _ hk => nomatch hk), fun _ _ => rfl⟩
  have hmemoryShows : MemoryShows hot ns now { mem := hot.new } ({} : CacheSpec V) :=
    ⟨fun t _ k => hhot.get_new t k, fun _ _ _ => rfl, (fun _ _ _ hk => nomatch hk), fun _ _ => rfl⟩
  have hredis := hredisShows.run hcodec hscan calls hsorted hstart hfits
  have hmemory := hmemoryShows.run hhot calls hsorted hstart hfits
  have hspec := specRun_exclusive ns ({} : CacheSpec V) calls hsorted
  exact ⟨hredis.trans_symm hmemory, hredis, hmemory, hspec.congr hredis, hspec.congr hmemory⟩

/-! ### A hot cache and a codec -/

/-- A hot cache that evicts nothing. -/
def Expiring.hotCache (V : Type) : HotCache V (Expiring String V) :=
  { new := ⟨[], nodup_nil⟩
    get := Expiring.get
    setWithTTL := fun m now key v ttl => m.put ⟨key, v, some (now + ttl)⟩
    keys := Expiring.keys
    purge := fun _ => ⟨[], nodup_nil⟩
    deleteMany := fun m now ks =>
      (m.deleteAll ks, deletionReport (fun k => (m.get now k).isSome) ks) }

theorem Expiring.hotCache_lawful (V : Type) : (Expiring.hotCache V).Lawful where
  get_new _ _ := rfl
  get_setWithTTL m now k v ttl t k' _ _ := by
    simp only [hotCache]
    rw [Expiring.get_put]
    simp only [ExpiringEntry.live, Option.all_some, decide_eq_true_eq]
  mem_keys _ _ _ := Expiring.mem_keys
  keys_nodup m now := m.keys_nodup now
  get_purge _ _ _ := rfl
  get_deleteMany m now ks t k _ := m.get_deleteAll ks t k
  deleteMany_report _ _ _ := rfl

def stringCodec : ValueCodec String := { encode := some, decode := some }

/-- Patterns that end in a star, for keys that start with the rest. -/
def starMatch (pattern key : String) : Bool := pattern.toList.dropLast.isPrefixOf key.toList

theorem starMatch_scans : ScansPrefixes starMatch := by
  intro start k _
  have hstar : ("*" : String).toList = ['*'] := rfl
  rw [starMatch, hasPrefix, String.toList_append, hstar, dropLast_concat]

/-- A claim, and a value that is deleted by its prefix. -/
def captureCalls : List (Int × CacheCall String) :=
  [(0, .tryClaim "capture-1" "token-a" 60000), (1, .setWithTTL "user:1" "x" 60000),
    (2, .deleteByPrefix "user"), (3, .releaseClaim "capture-1" "token-a")]

/-- The claim is not under the prefix that is deleted. -/
theorem sameResults_capture :
    SameResults (redisRun stringCodec starMatch "claim-test" {} captureCalls)
        (memoryRun (Expiring.hotCache String) "claim-test" { mem := {} } captureCalls) ∧
      SameResults (redisRun stringCodec starMatch "claim-test" {} captureCalls)
        (specRun "claim-test" {} captureCalls) ∧
      SameResults (memoryRun (Expiring.hotCache String) "claim-test" { mem := {} } captureCalls)
        (specRun "claim-test" {} captureCalls) ∧
      Exclusive "claim-test" captureCalls
        (redisRun stringCodec starMatch "claim-test" {} captureCalls) ∧
      Exclusive "claim-test" captureCalls
        (memoryRun (Expiring.hotCache String) "claim-test" { mem := {} } captureCalls) := by
  refine sameResults stringCodec starMatch (Expiring.hotCache String) "claim-test"
    (· = "claim-test:capture-1:claim") captureCalls (fun v => ⟨v, rfl, rfl⟩) starMatch_scans
    (Expiring.hotCache_lawful String) ?_ ⟨?_, ?_, ?_, ?_, trivial⟩
  · simp [Chronological, captureCalls]
  · exact fun _ => by decide
  · exact ⟨by decide, by decide, by decide⟩
  · have hall : ((fullPrefix "claim-test" "user").toList.all fun c =>
        decide (c ∉ "*?[\\".toList)) = true := by decide
    refine ⟨fun c hc => of_decide_eq_true (List.all_eq_true.1 hall c hc), fun k hk => ?_⟩
    -- the only claim is that of the capture
    change ((({} : Expiring String String).put
      ⟨"claim-test:capture-1:claim", "token-a", some 60000⟩).get 2 k).isSome = true at hk
    rw [Expiring.get_put] at hk
    split at hk
    · rename_i hself
      rw [hself]
      decide
    · cases hk
  · exact fun _ => by decide

/-- Redis deletes and counts the claim of a key with the values under it. -/
theorem deletedClaim_differs :
    ¬SameResults
      (redisRun stringCodec starMatch "claim-test" {}
        [(0, .tryClaim "capture-1" "token-a" 60000), (1, .deleteByPrefix "capture-1")])
      (memoryRun (Expiring.hotCache String) "claim-test" { mem := {} }
        [(0, .tryClaim "capture-1" "token-a" 60000), (1, .deleteByPrefix "capture-1")]) := by
  have hredis : redisRun stringCodec starMatch "claim-test" {}
      [(0, .tryClaim "capture-1" "token-a" 60000), (1, .deleteByPrefix "capture-1")] =
        [.answer true, .count 1] := by rfl
  have hmemory : memoryRun (Expiring.hotCache String) "claim-test" { mem := {} }
      [(0, .tryClaim "capture-1" "token-a" 60000), (1, .deleteByPrefix "capture-1")] =
        [.answer true, .count 0] := by rfl
  rw [hredis, hmemory]
  intro h
  cases h with
  | cons _ hrest =>
    cases hrest with
    | cons hsame _ =>
      rcases hsame with heq | ⟨ks, ks', heq, -, -⟩
      · cases heq
      · cases heq

end NexusTok
