import ShardLedger.Client.Resolver
import Mathlib.Data.Nat.Find
import Mathlib.Order.MinMax
import Mathlib.Tactic.ByContra
/-
When polls are made, as long as they find nothing.

The first poll is made at once.  After a poll that finds nothing a resolver waits as long as its policy
says, and no longer than is left of the time budget.  So the times of the polls are a sequence that the
policy alone decides, whatever the node is; and so is the first poll after which a budget is spent.  What
the node decides is at which poll it shows the receipt, if ever; then it is settled how the polling ends.

How long a wait really lasts is up to the timer.  A timer that ends waits on whole milliseconds keeps to
the sequence if the policy is of whole milliseconds, begins on one, and asks for no wait that the timer
would cut.
-/

set_option autoImplicit false

namespace ShardLedger

namespace BackoffPolicy

/-! ## 1. The sequence -/

/-- **The wait after a number of polls** that found nothing, so much time after the first. -/
def pause (p : BackoffPolicy) (polls elapsed : Nat) : Duration :=
  min (p.delayFor (UInt32.ofNat polls))
    ⟨p.maxElapsed.total - elapsed, Nat.lt_of_le_of_lt (Nat.sub_le _ _) p.maxElapsed.total_lt⟩

/-- **The time of a poll**, from the first poll on, if those before it found nothing.  Polls are counted
from one. -/
def pollTime (p : BackoffPolicy) : Nat → Nat
  | 0 | 1 => 0
  | k + 2 => p.pollTime (k + 1)
      + min (p.delayFor (UInt32.ofNat (k + 1))).total (p.maxElapsed.total - p.pollTime (k + 1))

/-- **Both budgets allow another poll** after so many polls that found nothing. -/
def Allows (p : BackoffPolicy) (polls : Nat) : Prop :=
  polls < p.maxPolls.toNat ∧ p.pollTime polls < p.maxElapsed.total

instance (p : BackoffPolicy) (polls : Nat) : Decidable (p.Allows polls) :=
  inferInstanceAs (Decidable (_ ∧ _))

variable (p : BackoffPolicy)

/-- The next poll follows after the pause. -/
theorem pollTime_succ {k : Nat} (hk : 1 ≤ k) :
    p.pollTime (k + 1) = p.pollTime k + (p.pause k (p.pollTime k)).total := by
  obtain ⟨j, rfl⟩ : ∃ j, k = j + 1 := ⟨k - 1, by omega⟩
  rw [pollTime, pause, Duration.total_min]

/-- No poll is made past the time budget. -/
theorem pollTime_le (k : Nat) : p.pollTime k ≤ p.maxElapsed.total := by
  induction k with
  | zero => exact Nat.zero_le _
  | succ k ih =>
    by_cases hk : 1 ≤ k
    · rw [pollTime_succ p hk, pause, Duration.total_min]
      simp only
      omega
    · obtain rfl : k = 0 := by omega
      exact Nat.zero_le _

/-! ## 2. The poll that spends a budget -/

/-- The poll budget allows no poll after its last. -/
theorem not_allows_last : ¬ p.Allows (max 1 p.maxPolls.toNat) := by
  intro h
  have hpolls := h.1
  omega

/-- If a budget is spent at all, there is a first poll after which it is. -/
theorem exists_first_spent {n : Nat} (hn : 1 ≤ n) (hspent : ¬ p.Allows n) :
    ∃ m, 1 ≤ m ∧ m ≤ n ∧ ¬ p.Allows m ∧ ∀ k, 1 ≤ k → k < m → p.Allows k := by
  have hex : ∃ m, 1 ≤ m ∧ ¬ p.Allows m := ⟨n, hn, hspent⟩
  obtain ⟨hone, hfirst⟩ := Nat.find_spec hex
  refine ⟨Nat.find hex, hone, Nat.find_min' hex ⟨hn, hspent⟩, hfirst, ?_⟩
  intro k hk hlt
  by_contra hnot
  exact Nat.find_min hex hlt ⟨hk, hnot⟩

/-! ## 3. The end of the polling -/

end BackoffPolicy

/-- **The outcome that a final receipt tells.** -/
def Outcome.ofReceipt (receipt : Receipt) : Outcome :=
  if receipt.status.isSuccess then .success receipt else .failure receipt.status (some receipt)

namespace BackoffPolicy

/-- **How polling for a receipt ends** that is held back for so many polls, or for ever: after how many
polls, and with which outcome. -/
inductive Concludes (p : BackoffPolicy) (receipt : Receipt) (held : Option Nat) :
    (polls : Nat) → Outcome → Prop where
  /-- The budgets last as long as the receipt is held back, and the next poll finds it. -/
  | revealed {n : Nat} (shown : held = some n) (lasts : ∀ k, 1 ≤ k → k ≤ n → p.Allows k) :
    Concludes p receipt held (n + 1) (.ofReceipt receipt)
  /-- A budget is spent for the first time after a poll for which the receipt is held back. -/
  | spent {m : Nat} (one : 1 ≤ m) (hidden : ∀ n ∈ held, m ≤ n) (spent : ¬ p.Allows m)
      (first : ∀ k, 1 ≤ k → k < m → p.Allows k) :
    Concludes p receipt held m (.unresolved m (p.pollTime m))

/-- Polling ends, whatever the policy and however long the receipt is held back. -/
theorem exists_concludes (p : BackoffPolicy) (receipt : Receipt) (held : Option Nat) :
    ∃ polls o, p.Concludes receipt held polls o := by
  -- Either all polls before the receipt are allowed, or one of them spends a budget.
  by_cases hall : ∃ n, held = some n ∧ ∀ k, 1 ≤ k → k ≤ n → p.Allows k
  · obtain ⟨n, hn, hlasts⟩ := hall
    exact ⟨n + 1, _, .revealed hn hlasts⟩
  · have hspent : ∃ j, 1 ≤ j ∧ (∀ n ∈ held, j ≤ n) ∧ ¬ p.Allows j := by
      cases held with
      | none => exact ⟨max 1 p.maxPolls.toNat, Nat.le_max_left _ _, nofun, p.not_allows_last⟩
      | some n =>
        simp only [Option.some.injEq, exists_eq_left', not_forall] at hall
        obtain ⟨j, hone, hj, hnot⟩ := hall
        refine ⟨j, hone, ?_, hnot⟩
        intro i hi
        obtain rfl := Option.some.inj hi
        exact hj
    obtain ⟨j, hj, hhidden, hnot⟩ := hspent
    obtain ⟨m, hone, hm, hfirst, hbefore⟩ := p.exists_first_spent hj hnot
    exact ⟨m, _, .spent hone (fun n hn => Nat.le_trans hm (hhidden n hn)) hfirst hbefore⟩

/-! ## 4. Policies of whole milliseconds -/

/-- **All spans of the policy are whole milliseconds.** -/
structure IsWhole (p : BackoffPolicy) : Prop where
  initialDelay : nanosPerMilli ∣ p.initialDelay.total
  maxDelay : nanosPerMilli ∣ p.maxDelay.total
  maxElapsed : nanosPerMilli ∣ p.maxElapsed.total

variable {p : BackoffPolicy}

/-- Every delay of a policy of whole milliseconds is one of them. -/
theorem IsWhole.delayFor (h : p.IsWhole) (polls : UInt32) :
    nanosPerMilli ∣ (p.delayFor polls).total := by
  -- The product is a multiple of the first delay, or else the longest wait stands in for it.
  have hproduct : ∀ factor, nanosPerMilli ∣ ((p.initialDelay.mul? factor).getD p.maxDelay).total := by
    intro factor
    unfold Duration.mul? Duration.ofNanos?
    split
    · exact Nat.dvd_mul_right_of_dvd h.initialDelay factor
    · exact h.maxDelay
  rw [BackoffPolicy.delayFor, Duration.total_min]
  exact min_rec' (nanosPerMilli ∣ ·) (hproduct _) h.maxDelay

/-- Every poll of a policy of whole milliseconds is made on one of them. -/
theorem IsWhole.pollTime (h : p.IsWhole) (k : Nat) : nanosPerMilli ∣ p.pollTime k := by
  induction k with
  | zero => exact Nat.dvd_zero _
  | succ k ih =>
    by_cases hk : 1 ≤ k
    · rw [pollTime_succ p hk, pause, Duration.total_min]
      refine Nat.dvd_add ih (min_rec' (nanosPerMilli ∣ ·) (h.delayFor _) ?_)
      exact Nat.dvd_sub h.maxElapsed ih
    · obtain rfl : k = 0 := by omega
      exact Nat.dvd_zero _

end BackoffPolicy

/-! ## 5. Timers that keep to the sequence -/

namespace Timer

/-- **A timer keeps to a policy** from an instant on: every pause between two polls takes exactly as
long as it is asked to. -/
def Keeps (t : Timer) (p : BackoffPolicy) (start : Instant) : Prop :=
  ∀ k, 1 ≤ k →
    t.pauseEnd (start + p.pollTime k) (p.pause k (p.pollTime k)) = start + p.pollTime (k + 1)

/-- The exact timer keeps to every policy. -/
theorem exact_keeps (p : BackoffPolicy) (start : Instant) : exact.Keeps p start := by
  intro k hk
  have hpause : exact.pauseEnd (start + p.pollTime k) (p.pause k (p.pollTime k))
      = start + p.pollTime k + (p.pause k (p.pollTime k)).total := rfl
  rw [hpause, BackoffPolicy.pollTime_succ p hk, Nat.add_assoc]

/-- An instant on a whole millisecond is its own tick. -/
theorem tick_of_dvd {t : Instant} (ht : nanosPerMilli ∣ t) (hlast : t ≤ lastInstant) :
    tick t = t := by
  obtain ⟨n, rfl⟩ := ht
  have hround : (nanosPerMilli * n + (nanosPerMilli - 1)) / nanosPerMilli = n := by
    simp only [nanosPerMilli]
    omega
  rw [tick, hround, Nat.mul_comm n, Nat.min_eq_right hlast]

/-- **The timer of milliseconds keeps to policies of whole milliseconds** that begin on one and end
before the timer does. -/
theorem milliseconds_keeps {p : BackoffPolicy} {start : Instant} (hwhole : p.IsWhole)
    (hstart : nanosPerMilli ∣ start) (hlong : p.maxElapsed.total ≤ thirtyYears)
    (hlast : start + p.maxElapsed.total ≤ lastInstant) : milliseconds.Keeps p start := by
  intro k hk
  have hnext := BackoffPolicy.pollTime_succ p hk
  have hend := p.pollTime_le (k + 1)
  have hpause : milliseconds.pauseEnd (start + p.pollTime k) (p.pause k (p.pollTime k))
      = if (p.pause k (p.pollTime k)).total = 0 then start + p.pollTime k
        else tick (start + p.pollTime k + min (p.pause k (p.pollTime k)).total thirtyYears) := rfl
  rw [hpause]
  by_cases hzero : (p.pause k (p.pollTime k)).total = 0
  · rw [if_pos hzero, hnext, hzero, Nat.add_zero]
  · -- No pause is longer than the time budget, so none is cut.
    have hshort : min (p.pause k (p.pollTime k)).total thirtyYears = (p.pause k (p.pollTime k)).total := by
      omega
    rw [if_neg hzero, hshort, Nat.add_assoc, ← hnext]
    have hbefore : start + p.pollTime (k + 1) ≤ lastInstant :=
      Nat.le_trans (Nat.add_le_add_left hend start) hlast
    exact tick_of_dvd (Nat.dvd_add hstart (hwhole.pollTime _)) hbefore

end Timer

end ShardLedger
