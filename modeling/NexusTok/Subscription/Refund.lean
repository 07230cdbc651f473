import NexusTok.Machine.Run
import NexusTok.Subscription.PreConsume

/-!
# Refunds of a request, over and over

`RefundSubscriptionPreConsume` writes twice: the used amount of the subscription, through a
settlement that commits on its own, and then the record, in the enclosing transaction.  A failure
of the second write leaves the first one standing, the call reports an error, and
`refundWithRetry` calls again.

The machine of this file is one request's record under any number of refund calls, each with its
own pattern of failing statements, and with anything else happening to the database in between
except to the record.  It counts the calls that lowered the used amount, and watches whether a call
that returned an error changed anything.

* `refund_outcome` : the four ways a call can end.
* `refund_runs_iff` : exactly the runs without a *stranded* settlement (`Strands`) refund at most
  once and leave nothing behind on an error.
-/

namespace NexusTok

open Machine

/-- `SubscriptionFunding.Refund`. -/
def subscriptionFundingRefund (preConsumed : ℤ) (requestId : String) (f₁ f₂ f₃ : Faults) (db : DB) :
    Except Err Unit × DB :=
  if preConsumed ≤ 0 then (.ok (), db)
  else refundWithRetry (fun f => refundSubscriptionPreConsume f requestId) f₁ f₂ f₃ db

namespace RefundRuns

/-- The used amount of the subscription that the request pre-consumed from. -/
def usedFor (requestId : String) (db : DB) : Option ℤ :=
  (db.preConsumeRecord requestId).bind fun r =>
    (db.subscription r.userSubscriptionId).map UserSubscription.amountUsed

/-- The used amount went down. -/
def lowered : Option ℤ → Option ℤ → Bool
  | some before, some after => decide (after < before)
  | _, _ => false

/-- The database, the number of calls that lowered the used amount, and whether every call that
returned an error has left the used amount and the record as they were. -/
structure State where
  db : DB
  lowerings : ℕ
  clean : Bool

/-- What can happen: a refund call, whose statements fail as `faults` says, or anything that does
not touch the record. -/
inductive Event where
  | call (faults : Faults)
  | elsewhere (db : DB)

/-- The call left the used amount and the record as they were. -/
def leftAlone (requestId : String) (before after : DB) : Bool :=
  decide (usedFor requestId after = usedFor requestId before ∧
    after.preConsumeRecord requestId = before.preConsumeRecord requestId)

def step (requestId : String) (s : State) : Event → State
  | .call f =>
    let out := refundSubscriptionPreConsume f requestId s.db
    { db := out.2
      lowerings := s.lowerings +
        if lowered (usedFor requestId s.db) (usedFor requestId out.2) then 1 else 0
      clean := s.clean && (out.1.isOk || leftAlone requestId s.db out.2) }
  | .elsewhere db' =>
    if db'.preConsumeRecord requestId = s.db.preConsumeRecord requestId then { s with db := db' }
    else s

/-- At most one call lowered the used amount, and calls with an error left nothing behind. -/
def Good (s : State) : Prop := s.lowerings ≤ 1 ∧ s.clean = true

/-- The call strands its settlement: the settlement takes effect and changes the used amount, and
then the record cannot be saved or the transaction cannot commit. -/
def Strands (f : Faults) (requestId : String) (db : DB) : Prop :=
  ∃ r sub, Refunds f requestId db r ∧ 0 < r.preConsumed ∧
    Settles f r.userSubscriptionId (-r.preConsumed) db sub ∧
    sub.usedAfter (-r.preConsumed) ≠ sub.amountUsed ∧
    (f ⟨.save, .preConsumeRecords, 0⟩ = true ∨ f ⟨.commit, .preConsumeRecords, 0⟩ = true)

/-- The event strands nothing. -/
def Whole (requestId : String) (s : State) : Event → Prop
  | .call f => ¬ Strands f requestId s.db
  | .elsewhere _ => True

/-! ### One call -/

section Call

variable {f : Faults} {rid : String} {db : DB}

/-- **How a refund call ends**: with an error and the database as it was; with a record that was
marked before, and the database as it was; with the record marked now; or with an error after the
settlement has committed. -/
theorem refund_outcome (f : Faults) (rid : String) (db : DB) :
    (∃ e, refundSubscriptionPreConsume f rid db = (.error e, db)) ∨
      (refundSubscriptionPreConsume f rid db = (.ok (), db)) ∨
      (∃ r db', refundSubscriptionPreConsume f rid db = (.ok (), db') ∧
        db.preConsumeRecord rid = some r ∧ r.status = .consumed ∧
        db'.preConsumeRecord rid = some { r with status := .refunded }) ∨
      ∃ r sub e, Refunds f rid db r ∧ 0 < r.preConsumed ∧
        Settles f r.userSubscriptionId (-r.preConsumed) db sub ∧
        (f ⟨.save, .preConsumeRecords, 0⟩ = true ∨ f ⟨.commit, .preConsumeRecords, 0⟩ = true) ∧
        refundSubscriptionPreConsume f rid db =
          (.error e, db.saveSubscription (sub.settle (-r.preConsumed))) := by
  obtain he | ⟨r, -, -, hok⟩ | ⟨r, hr⟩ := refund_cases f rid db
  · exact .inl he
  · exact .inr (.inl hok)
  · have hid : r.requestId = rid := DB.preConsumeRecord_requestId hr.row
    by_cases hp : r.preConsumed ≤ 0
    · -- nothing to give back: only the record is written
      rw [hr.eq, if_pos hp]
      obtain ⟨he, -⟩ | ⟨hok, -⟩ := markRefunded_cases f r db
      · exact .inl he
      · exact .inr (.inr (.inl ⟨r, _, hok, hr.row, hr.consumed,
          DB.preConsumeRecord_save hr.row hid⟩))
    · rw [hr.eq, if_neg hp]
      obtain ⟨e, he⟩ | ⟨h0, -⟩ | ⟨sub, hs⟩ :=
        postConsume_cases f r.userSubscriptionId (-r.preConsumed) db
      · exact .inl ⟨e, by rw [he]⟩
      · omega
      · rw [hs.eq]
        obtain ⟨⟨e, he⟩, hfault⟩ | ⟨hok, -⟩ :=
          markRefunded_cases f r (db.saveSubscription (sub.settle (-r.preConsumed)))
        · exact .inr (.inr (.inr ⟨r, sub, e, hr, not_le.1 hp, hs, hfault, he⟩))
        · exact .inr (.inr (.inl ⟨r, _, hok, hr.row, hr.consumed,
            DB.preConsumeRecord_save hr.row hid⟩))

theorem usedFor_settle {r : SubscriptionPreConsumeRecord} {sub : UserSubscription} {delta : ℤ}
    (hr : db.preConsumeRecord rid = some r) (hs : db.subscription r.userSubscriptionId = some sub) :
    usedFor rid (db.saveSubscription (sub.settle delta)) = some (sub.usedAfter delta) := by
  have hid : sub.id = r.userSubscriptionId := DB.subscription_id hs
  have hsave : (db.saveSubscription (sub.settle delta)).subscription r.userSubscriptionId =
      some (sub.settle delta) := DB.subscription_save hs hid
  simp only [usedFor, DB.preConsumeRecord_saveSubscription, hr, Option.bind_some, hsave]
  rfl

theorem usedFor_eq {r : SubscriptionPreConsumeRecord} {sub : UserSubscription}
    (hr : db.preConsumeRecord rid = some r) (hs : db.subscription r.userSubscriptionId = some sub) :
    usedFor rid db = some sub.amountUsed := by
  simp [usedFor, hr, hs]

theorem lowered_self (a : Option ℤ) : lowered a a = false := by
  cases a <;> simp [lowered]

theorem leftAlone_self (rid : String) (db : DB) : leftAlone rid db db = true := by
  simp [leftAlone]

/-- A stranded settlement returns an error and has moved the used amount. -/
theorem Strands.not_leftAlone (h : Strands f rid db) :
    (refundSubscriptionPreConsume f rid db).1.isOk = false ∧
      leftAlone rid db (refundSubscriptionPreConsume f rid db).2 = false := by
  obtain ⟨r, sub, hr, hp, hs, hne, hfault⟩ := h
  have heq : refundSubscriptionPreConsume f rid db =
      markRefunded f r (db.saveSubscription (sub.settle (-r.preConsumed))) := by
    rw [hr.eq, if_neg (not_le.2 hp), hs.eq]
  obtain ⟨⟨e, he⟩, -⟩ | ⟨-, hsave, hcommit⟩ :=
    markRefunded_cases f r (db.saveSubscription (sub.settle (-r.preConsumed)))
  · rw [heq, he]
    refine ⟨rfl, ?_⟩
    have hne' : usedFor rid (db.saveSubscription (sub.settle (-r.preConsumed))) ≠
        usedFor rid db := by
      rw [usedFor_settle hr.row hs.row, usedFor_eq hr.row hs.row]
      exact fun h => hne (Option.some.inj h)
    simp [leftAlone, hne']
  · rw [hsave, hcommit] at hfault
    simp at hfault

end Call

/-! ### Runs -/

/-- The invariant: nothing has been lowered yet, or the record is marked. -/
def Inv (rid : String) (s : State) : Prop :=
  s.clean = true ∧ (s.lowerings = 0 ∨
    s.lowerings = 1 ∧ ∃ r, s.db.preConsumeRecord rid = some r ∧ r.status = .refunded)

theorem Inv.good {rid : String} {s : State} (h : Inv rid s) : Good s := by
  obtain ⟨hc, h0 | ⟨h1, -⟩⟩ := h
  · exact ⟨by omega, hc⟩
  · exact ⟨by omega, hc⟩

/-- A call that strands nothing keeps the invariant. -/
theorem Inv.call {rid : String} {s : State} {f : Faults} (h : Inv rid s)
    (hw : ¬ Strands f rid s.db) : Inv rid (step rid s (.call f)) := by
  obtain ⟨hclean, hcount⟩ := h
  -- a call after which the database is what it was
  have same : ∀ res, refundSubscriptionPreConsume f rid s.db = (res, s.db) →
      Inv rid (step rid s (.call f)) := by
    intro res hres
    refine ⟨?_, ?_⟩
    · simp only [step, hres, leftAlone_self, Bool.or_true, hclean, Bool.and_true]
    · simpa only [step, hres, lowered_self, Bool.false_eq_true, ↓reduceIte, Nat.add_zero]
        using hcount
  obtain ⟨e, he⟩ | hok | ⟨r, db', hok, hr, hcons, hr'⟩ | ⟨r, sub, e, hr, hp, hs, hfault, he⟩ :=
    refund_outcome f rid s.db
  · exact same _ he
  · exact same _ hok
  · -- the record was unmarked, so no call has lowered the amount before this one
    have h0 : s.lowerings = 0 := by
      obtain h0 | ⟨-, r₀, hr₀, href⟩ := hcount
      · exact h0
      · rw [hr, Option.some.injEq] at hr₀
        subst hr₀
        rw [hcons] at href; cases href
    refine ⟨by simp [step, hok, hclean, Except.isOk, Except.toBool], ?_⟩
    simp only [step, hok, h0, Nat.zero_add]
    split_ifs
    · exact .inr ⟨rfl, _, hr', rfl⟩
    · exact .inl rfl
  · -- the settlement was committed, but it did not move the used amount
    have hsame : sub.usedAfter (-r.preConsumed) = sub.amountUsed := by
      by_contra hne
      exact hw ⟨r, sub, hr, hp, hs, hne, hfault⟩
    have hused : usedFor rid (s.db.saveSubscription (sub.settle (-r.preConsumed))) =
        usedFor rid s.db := by
      rw [usedFor_settle hr.row hs.row, usedFor_eq hr.row hs.row, hsame]
    refine ⟨?_, ?_⟩
    · simp [step, he, hclean, leftAlone, hused]
    · simpa only [step, he, hused, lowered_self, Bool.false_eq_true, ↓reduceIte, Nat.add_zero,
        DB.preConsumeRecord_saveSubscription] using hcount

theorem Inv.step {rid : String} (s : State) (e : Event) (h : Inv rid s) (hw : Whole rid s e) :
    Inv rid (step rid s e) := by
  cases e with
  | call f => exact h.call hw
  | elsewhere db' =>
    simp only [RefundRuns.step]
    split_ifs with heq
    · obtain ⟨hc, h0 | ⟨h1, r, hr, href⟩⟩ := h
      · exact ⟨hc, .inl h0⟩
      · exact ⟨hc, .inr ⟨h1, r, by rw [← hr]; exact heq, href⟩⟩
    · exact h

theorem whole_of_good {rid : String} (s : State) (e : Event) (h : Good (step rid s e)) :
    Whole rid s e := by
  cases e with
  | elsewhere _ => trivial
  | call f =>
    intro hs
    obtain ⟨hok, hleft⟩ := hs.not_leftAlone
    have := h.2
    simp [RefundRuns.step, hok, hleft] at this

/-- The attempts of a retry loop are calls of the machine. -/
theorem retry_run (rid : String) (s : State) (e : Err) (fs : List Faults) :
    ∃ n ≤ fs.length, (retry (fun f => refundSubscriptionPreConsume f rid) e fs s.db).2 =
      (run (step rid) s ((fs.take n).map .call)).db := by
  induction fs generalizing s e with
  | nil => exact ⟨0, le_rfl, rfl⟩
  | cons f fs ih =>
    cases hout : refundSubscriptionPreConsume f rid s.db with
    | mk res db' =>
      have hdb : (step rid s (.call f)).db = db' := by simp [RefundRuns.step, hout]
      cases res with
      | ok u => exact ⟨1, by simp, by simp only [retry, hout]; exact hdb.symm⟩
      | error e' =>
        obtain ⟨n, hn, hrun⟩ := ih (step rid s (.call f)) e'
        refine ⟨n + 1, by simpa using hn, ?_⟩
        rw [hdb] at hrun
        simp only [retry, hout, List.take_succ_cons, List.map_cons, run_cons]
        exact hrun

theorem fundingRefund_run (rid : String) (s : State) (preConsumed : ℤ) (f₁ f₂ f₃ : Faults) :
    ∃ n ≤ 3, (subscriptionFundingRefund preConsumed rid f₁ f₂ f₃ s.db).2 =
      (run (step rid) s (([f₁, f₂, f₃].take n).map .call)).db := by
  by_cases hp : preConsumed ≤ 0
  · exact ⟨0, by omega, by rw [subscriptionFundingRefund, if_pos hp]; rfl⟩
  · -- the first attempt is a turn of the loop like the others
    have hretry : subscriptionFundingRefund preConsumed rid f₁ f₂ f₃ s.db =
        retry (fun f => refundSubscriptionPreConsume f rid) .diverges [f₁, f₂, f₃] s.db := by
      rw [subscriptionFundingRefund, if_neg hp, refundWithRetry, retry]
    rw [hretry]
    exact retry_run rid s .diverges [f₁, f₂, f₃]

/-- **Which runs refund at most once.**  In a run of refund calls of one request, the used amount is
lowered at most once and every call with an error leaves the used amount and the record as they
were, iff no call strands its settlement.  A call of `SubscriptionFunding.Refund` is such a run. -/
theorem refund_runs_iff (rid : String) (db : DB) (es : List Event) :
    (Always (step rid) Good ⟨db, 0, true⟩ es ↔
        Meets (step rid) (Whole rid) ⟨db, 0, true⟩ es) ∧
      ∀ preConsumed f₁ f₂ f₃, ∃ n ≤ 3,
        (subscriptionFundingRefund preConsumed rid f₁ f₂ f₃ db).2 =
          (run (step rid) ⟨db, 0, true⟩ (([f₁, f₂, f₃].take n).map .call)).db := by
  refine ⟨?_, fun p f₁ f₂ f₃ => fundingRefund_run rid ⟨db, 0, true⟩ p f₁ f₂ f₃⟩
  exact always_iff_meets (J := Inv rid) (fun _ h => h.good) (fun s e h hw => h.step s e hw)
    (fun s e _ h => whole_of_good s e h) ⟨rfl, .inl rfl⟩

/-! ### A stranded settlement -/

/-- A request that took 10 of the 30 used. -/
def strandedDB : DB :=
  { DB.empty with
    subscriptions := [
      { id := 1
        userId := 7
        planId := 1
        amountTotal := 100
        amountUsed := 30
        startTime := 0
        endTime := 1000
        status := .active
        source := "order"
        lastResetTime := 0
        nextResetTime := 0
        upgradeGroup := ""
        prevUserGroup := ""
        downgradeGroup := ""
        allowWalletOverflow := true }]
    preConsumeRecords := [⟨"req", 7, 1, 10, .consumed⟩] }

/-- Saving the record fails. -/
def recordSaveFails : Faults := fun s => decide (s = ⟨.save, .preConsumeRecords, 0⟩)

/-- The record cannot be saved at the first attempt and can at the second: the retry lowers the used
amount again, from 30 over 20 to 10. -/
theorem refund_lowers_twice :
    ¬ Always (step "req") Good ⟨strandedDB, 0, true⟩ [.call recordSaveFails, .call .none] ∧
      (run (step "req") ⟨strandedDB, 0, true⟩ [.call recordSaveFails, .call .none]).lowerings = 2 ∧
      usedFor "req" (subscriptionFundingRefund 10 "req" recordSaveFails .none .none strandedDB).2 =
        some 10 := by
  refine ⟨fun h => ?_, by decide, by decide⟩
  exact absurd h.run.1 (by decide)

end RefundRuns

end NexusTok
