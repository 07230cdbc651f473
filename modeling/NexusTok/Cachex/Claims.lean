import NexusTok.Cachex.Hybrid

/-!
# The hybrid cache: claims

What the cache is for gives a claim to one holder at a time.

* `CacheResult.Same` : results up to the order of keys.
* `Exclusive` : a claim that is given away again before it expires has been deleted in between, or
  released by its holder.
* `specRun_exclusive` : so it is for what the cache is for.
-/

namespace NexusTok

open List

variable {V M : Type}

/-! ### Results -/

/-- The same result; keys come in any order. -/
def CacheResult.Same (a b : CacheResult V) : Prop :=
  a = b ∨ ∃ ks ks', a = .keys ks ∧ b = .keys ks' ∧ ks.Perm ks'

theorem CacheResult.Same.symm {a b : CacheResult V} (h : a.Same b) : b.Same a := by
  rcases h with rfl | ⟨ks, ks', rfl, rfl, hp⟩
  · exact .inl rfl
  · exact .inr ⟨ks', ks, rfl, rfl, hp.symm⟩

theorem CacheResult.Same.trans {a b c : CacheResult V} (h : a.Same b) (h' : b.Same c) :
    a.Same c := by
  rcases h with rfl | ⟨ks, ks', rfl, rfl, hp⟩
  · exact h'
  · rcases h' with rfl | ⟨ks₁, ks₂, heq, rfl, hp'⟩
    · exact .inr ⟨ks, ks', rfl, rfl, hp⟩
    · cases heq
      exact .inr ⟨ks, ks₂, rfl, rfl, hp.trans hp'⟩

/-- The answer of a method that has one. -/
def CacheResult.answered : CacheResult V → Option Bool
  | .answer b => some b
  | _ => none

theorem CacheResult.Same.answered {a b : CacheResult V} (h : a.Same b) :
    a.answered = b.answered := by
  rcases h with rfl | ⟨ks, ks', rfl, rfl, -⟩
  · rfl
  · rfl

/-- The results, in order. -/
def SameResults (results results' : List (CacheResult V)) : Prop :=
  List.Forall₂ CacheResult.Same results results'

/-! ### One holder -/

/-- A call with its answer that ends the claim of a token: the claim is deleted, or released by its
holder. -/
def Ends (ns full token : String) : (Int × CacheCall V) × Option Bool → Prop
  | ((_, .deleteClaim key), _) => claimFullKey ns key = full
  | ((_, .releaseClaim key token'), some true) =>
    claimFullKey ns key = full ∧ trimSpace token' = token
  | _ => False

/-- **A claim has one holder**: if it is given away again before it expires, it has ended in
between. -/
def Exclusive (ns : String) (calls : List (Int × CacheCall V)) (results : List (CacheResult V)) :
    Prop :=
  ∀ before between rest now now' key key' token token' ttl ttl',
    calls.zip (results.map CacheResult.answered) =
      before ++ ((now, CacheCall.tryClaim key token ttl), some true) ::
        between ++ ((now', CacheCall.tryClaim key' token' ttl'), some true) :: rest →
    claimFullKey ns key = claimFullKey ns key' → now' < now + ttl →
      ∃ e ∈ between, Ends ns (claimFullKey ns key) (trimSpace token) e

/-- Times do not go back. -/
def Chronological (calls : List (Int × CacheCall V)) : Prop :=
  (calls.map Prod.fst).Pairwise (· ≤ ·)

theorem specCall_keeps_claim {ns full token : String} {s : CacheSpec V} {now until' : Int}
    (hclaim : ∀ t, now ≤ t → t < until' → s.claims.get t full = some token) (hnow : now < until')
    (call : CacheCall V) (hends : ¬Ends ns full token ((now, call), (specCall ns s now call).2.answered)) :
    ∀ t, now ≤ t → t < until' → (specCall ns s now call).1.claims.get t full = some token := by
  intro t hle hlt
  have hheld := hclaim t hle hlt
  cases call with
  | get | claimMatches | keys | purge | deleteMany => exact hheld
  | setWithTTL | deleteByPrefix =>
    simp only [specCall]
    split <;> exact hheld
  | deleteClaim key =>
    simp only [specCall, Expiring.get_delete]
    rw [if_neg fun h => hends (show claimFullKey ns key = full from h.symm)]
    exact hheld
  | tryClaim key token' ttl =>
    simp only [specCall]
    split
    · exact hheld
    · rename_i hfree
      have hne : full ≠ claimFullKey ns key := by
        rintro rfl
        exact hfree (.inr (.inr (.inr (by rw [hclaim now (Int.le_refl _) hnow]; rfl))))
      rw [Expiring.get_put, if_neg hne]
      exact hheld
  | releaseClaim key token' =>
    simp only [specCall] at hends ⊢
    split
    · rename_i hholder
      rw [if_pos hholder] at hends
      have hne : full ≠ claimFullKey ns key := by
        rintro rfl
        rw [hclaim now (Int.le_refl _) hnow] at hholder
        exact hends ⟨rfl, (Option.some.inj hholder.2.2).symm⟩
      rw [Expiring.get_delete, if_neg hne]
      exact hheld
    · exact hheld

/-- While a claim lasts and does not end, it is not given away. -/
theorem specRun_held {ns full token : String} {until' : Int} (between : List (Int × CacheCall V))
    {s : CacheSpec V} {now : Int}
    (hclaim : ∀ t, now ≤ t → t < until' → s.claims.get t full = some token)
    {rest : List (Int × CacheCall V)} {now' : Int} {key' token' : String} {ttl' : Int}
    (hsorted : Chronological (between ++ (now', .tryClaim key' token' ttl') :: rest))
    (hstart : ∀ call ∈ between ++ (now', CacheCall.tryClaim key' token' ttl') :: rest, now ≤ call.1)
    (hkey : full = claimFullKey ns key') (huntil : now' < until')
    (hgiven : ((specRun ns s (between ++ (now', .tryClaim key' token' ttl') :: rest)).map
      CacheResult.answered)[between.length]? = some (some true)) :
    ∃ e ∈ between.zip ((specRun ns s (between ++ (now', .tryClaim key' token' ttl') :: rest)).map
      CacheResult.answered), Ends ns full token e := by
  induction between generalizing s now with
  | nil =>
    have hle : now ≤ now' := hstart (now', .tryClaim key' token' ttl') (by simp)
    simp only [nil_append, specRun, map_cons, length_nil,
      getElem?_cons_zero] at hgiven
    simp only [specCall] at hgiven
    rw [if_pos (.inr (.inr (.inr (by rw [← hkey, hclaim now' hle huntil]; rfl))))] at hgiven
    exact absurd (Option.some.inj hgiven) (by simp [CacheResult.answered])
  | cons call between ih =>
    obtain ⟨at', call⟩ := call
    have hle : now ≤ at' := hstart (at', call) (by simp)
    unfold Chronological at hsorted
    rw [cons_append, map_cons, pairwise_cons] at hsorted
    have hbefore : ∀ c ∈ between ++ (now', CacheCall.tryClaim key' token' ttl') :: rest,
        at' ≤ c.1 := fun c hc => hsorted.1 c.1 (mem_map_of_mem hc)
    have hlt : at' < until' :=
      Int.lt_of_le_of_lt (hbefore (now', .tryClaim key' token' ttl') (by simp)) huntil
    by_cases hends : Ends ns full token ((at', call), (specCall ns s at' call).2.answered)
    · exact ⟨_, by simp [specRun], hends⟩
    · have hkept := specCall_keeps_claim (fun t ht => hclaim t (Int.le_trans hle ht)) hlt call hends
      obtain ⟨e, he, hend⟩ := ih hkept hsorted.2 hbefore hgiven
      refine ⟨e, ?_, hend⟩
      simp only [cons_append, specRun, map_cons, zip_cons_cons]
      exact .tail _ he

theorem specRun_length (ns : String) (s : CacheSpec V) (calls : List (Int × CacheCall V)) :
    (specRun ns s calls).length = calls.length := by
  induction calls generalizing s with
  | nil => rfl
  | cons call calls ih => simp only [specRun, length_cons, ih]

/-- A trace from its calls and its results, of which there may be more. -/
theorem zip_map_append {α β : Type} (trace : List (α × β)) (more : List β) :
    (trace.map Prod.fst).zip (trace.map Prod.snd ++ more) = trace := by
  induction trace with
  | nil => rfl
  | cons e trace ih => rw [map_cons, map_cons, cons_append, zip_cons_cons, ih]

/-- A claim that is given away lasts. -/
theorem specCall_gives {ns key token : String} {s : CacheSpec V} {now ttl : Int}
    (hgiven : (specCall ns s now (.tryClaim key token ttl)).2.answered = some true) :
    ∀ t, now ≤ t → t < now + ttl →
      (specCall ns s now (.tryClaim key token ttl)).1.claims.get t (claimFullKey ns key) =
        some (trimSpace token) := by
  intro t _ hlt
  simp only [specCall] at hgiven ⊢
  split at hgiven
  · exact absurd hgiven (by simp [CacheResult.answered])
  · rename_i hfree
    rw [if_neg hfree, Expiring.get_put, if_pos rfl]
    exact if_pos (by simpa [ExpiringEntry.live] using hlt)

/-- **What the cache is for gives a claim to one holder.** -/
theorem specRun_exclusive (ns : String) (s : CacheSpec V) (calls : List (Int × CacheCall V))
    (hsorted : Chronological calls) : Exclusive ns calls (specRun ns s calls) := by
  intro before between rest now now' key key' token token' ttl ttl' hzip hkey hlt
  induction before generalizing s calls with
  | cons e before ih =>
    cases calls with
    | nil => simp [specRun] at hzip
    | cons call calls =>
      rw [specRun, map_cons, zip_cons_cons, cons_append, cons_append] at hzip
      unfold Chronological at hsorted
      rw [map_cons, pairwise_cons] at hsorted
      exact ih _ calls hsorted.2 (List.cons.inj hzip).2
  | nil =>
    cases calls with
    | nil => simp [specRun] at hzip
    | cons call calls =>
      obtain ⟨at', call⟩ := call
      rw [specRun, map_cons, zip_cons_cons, nil_append, cons_append] at hzip
      obtain ⟨hhead, htail⟩ := List.cons.inj hzip
      obtain ⟨hcall, hgiven⟩ := Prod.mk.inj hhead
      obtain ⟨rfl, rfl⟩ := Prod.mk.inj hcall
      have hlength := specRun_length ns
        (specCall ns s at' (.tryClaim key token ttl)).1 calls
      -- the calls and the results are those of the trace
      have hcalls := congrArg (List.map Prod.fst) htail
      have hresults := congrArg (List.map Prod.snd) htail
      rw [map_fst_zip (by rw [length_map]; omega), map_append, map_cons] at hcalls
      rw [map_snd_zip (by rw [length_map]; omega), map_append,
        map_cons] at hresults
      unfold Chronological at hsorted
      rw [map_cons, pairwise_cons] at hsorted
      have hstart : ∀ c ∈ calls, at' ≤ c.1 := fun c hc => hsorted.1 c.1 (mem_map_of_mem hc)
      have hrest := hsorted.2
      have hheld := specRun_held (between.map Prod.fst)
        (specCall_gives hgiven) (by rw [← hcalls]; exact hrest) (by rw [← hcalls]; exact hstart) hkey
        hlt (by rw [← hcalls, hresults]; simp)
      rw [← hcalls, hresults, zip_map_append] at hheld
      exact hheld

end NexusTok
