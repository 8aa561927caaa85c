import ShardLedger.Proofs.Admission
import ShardLedger.Proofs.TimestampOrder
/-
When a transaction may be accepted, in exact time.

Two checks stand for the window.  One compares the start of a transaction with the clock by the order of
timestamps, seconds first; the other adds the validity to the start and stops at the ends of a word.
The start comes off the wire, and its nanoseconds may be anything.

Where the nanoseconds of the start stay within their second, and nothing is near the lower end of the
word, both checks say what exact time says.  Nanoseconds that run over their second are not carried by
the order: such a start may lie further ahead than it should, by as much as they run over.  Near the
lower end, about the year 1677, a count may be too great, but never beyond the floor.
-/

set_option autoImplicit false

namespace ShardLedger

/-! ## 1. The spans of the window -/

theorem total_maxStartAhead : (maxStartAhead.total : Int) = 10 * Timestamp.second := by
  decide

/-- A validity in range counts its seconds. -/
theorem TransactionBody.total_validity_eq {body : TransactionBody} (hmin : 15 ≤ body.validSeconds.toInt)
    (hmax : body.validSeconds.toInt ≤ 180) :
    (body.validity.total : Int) = body.validSeconds.toInt * Timestamp.second := by
  have hlt : body.validSeconds.toInt.toNat < 2 ^ 64 := by omega
  rw [validity, Duration.total_ofSeconds, UInt64.toNat_ofNat_of_lt' hlt]
  simp only [nanosPerSecond, Timestamp.second]
  omega

namespace Ledger

section Window

variable [SignatureScheme] {c : Config} {l : Ledger} {t : SignedTransaction} {r : ClockReading}
  {body : TransactionBody} {payer : Account}

theorem Admitted.validity_bounds {now : Timestamp} (ha : Admitted c l t now body payer) :
    15 ≤ body.validSeconds.toInt ∧ body.validSeconds.toInt ≤ 180 := by
  have hfifteen : minValidSeconds.toInt = 15 := by decide
  have hmost : maxValidSeconds.toInt = 180 := by decide
  obtain ⟨hmin, hmax⟩ := ha.validity
  rw [Int64.le_iff_toInt_le] at hmin hmax
  omega

/-! ## 2. The two ends of the window -/

/-- **An admitted transaction has started**, ten seconds ahead at the most, but for nanoseconds that run
over their second. -/
theorem Admitted.start_le (ha : Admitted c l t r.timestamp body payer) :
    body.id.validStart.exact
      ≤ max r.timestamp.exact Timestamp.floor + 10 * Timestamp.second + body.id.validStart.overrun := by
  obtain ⟨n, heq, hn⟩ := r.timestamp.exists_saturatingAdd_eq maxStartAhead
  have hstarted := ha.started
  rw [heq] at hstarted
  have hle := Timestamp.exact_le_of_le_ofNanos hstarted
  have hspan := total_maxStartAhead
  have hfloor : Timestamp.floor = -2 ^ 63 + (2 ^ 31 - 1) := rfl
  omega

/-- **An admitted transaction has not expired.** -/
theorem Admitted.lt_end (ha : Admitted c l t r.timestamp body payer) :
    r.timestamp.exact
      < max body.id.validStart.exact Timestamp.floor + body.validSeconds.toInt * Timestamp.second := by
  obtain ⟨n, heq, hn⟩ := body.id.validStart.exists_saturatingAdd_eq body.validity
  have hunexpired := ha.unexpired
  rw [TransactionBody.expiresAt, heq] at hunexpired
  -- What the clock shows is made from a count.
  have hclock : r.timestamp = .ofNanos (Timestamp.asNanos ⟨r.seconds, Int32.ofNat r.nanos.toNat⟩) := rfl
  rw [hclock] at hunexpired ⊢
  have hlt := Timestamp.toInt_lt_of_ofNanos_lt hunexpired
  have hleast := Int64.le_toInt (Timestamp.asNanos ⟨r.seconds, Int32.ofNat r.nanos.toNat⟩)
  rw [Timestamp.exact_ofNanos]
  obtain ⟨hmin, hmax⟩ := ha.validity_bounds
  have hspan := TransactionBody.total_validity_eq hmin hmax
  omega

/-- **Transactions are accepted within their window.**  What is accepted is valid for fifteen to a hundred
and eighty seconds from its start, starts ten seconds after the clock at the most, and has not expired by
the clock, all in exact time, except that a start may lie ahead by as much more as its nanoseconds run
over their second, and that what is before the floor may count as the floor.

The work is in `Admitted.start_le` and `Admitted.lt_end`, which take the checks of the node from saturated
counts to exact ones. -/
theorem accepted_in_window (c : Config) (l : Ledger) (t : SignedTransaction) (r : ClockReading)
    (h : (l.submit c t r.timestamp).1 = .ok) :
    ∃ body, t.body = .ok body
      ∧ 15 ≤ body.validSeconds.toInt ∧ body.validSeconds.toInt ≤ 180
      ∧ body.id.validStart.exact
        ≤ max r.timestamp.exact Timestamp.floor + 10 * Timestamp.second + body.id.validStart.overrun
      ∧ r.timestamp.exact
        < max body.id.validStart.exact Timestamp.floor + body.validSeconds.toInt * Timestamp.second := by
  rcases submit_cases c l t r.timestamp with ⟨status, hne, heq⟩ | ⟨body, payer, ha, -⟩
  · rw [heq] at h
    exact absurd h hne
  · obtain ⟨hmin, hmax⟩ := ha.validity_bounds
    exact ⟨body, ha.decodes, hmin, hmax, ha.start_le, ha.lt_end⟩

end Window

end Ledger

/-! ## 3. A start that runs over -/

namespace Trial

/-- **The deletion, ahead of time**: its nanoseconds run over their second by more than another one. -/
def earlyDeletion : TransactionBody :=
  { deletion with id := ⟨.simple 2, ⟨1009, 2147483647⟩⟩ }

/-- **The deletion ahead of time, signed** by the payer and by the account that is deleted. -/
def signedEarlyDeletion : SignedTransaction where
  bodyBytes := letI := scheme; Wired.toBytes earlyDeletion
  signatures := [⟨(key 2).bytes⟩, ⟨(key 4).bytes⟩]

end Trial

namespace Ledger

open Trial in
set_option maxRecDepth 10000 in
/-- The deletion ahead of time is accepted a second after the clock of its ledger, within its window. -/
theorem accepted_in_window_early :
    letI := scheme
    let r : ClockReading := ⟨1001, 0⟩
    (ledger.submit {} signedEarlyDeletion r.timestamp).1 = .ok
      ∧ ∃ body, signedEarlyDeletion.body = .ok body
        ∧ 15 ≤ body.validSeconds.toInt ∧ body.validSeconds.toInt ≤ 180
        ∧ body.id.validStart.exact
          ≤ max r.timestamp.exact Timestamp.floor + 10 * Timestamp.second + body.id.validStart.overrun
        ∧ r.timestamp.exact
          < max body.id.validStart.exact Timestamp.floor
            + body.validSeconds.toInt * Timestamp.second := by
  let := scheme
  intro r
  have haccepted : (ledger.submit {} signedEarlyDeletion r.timestamp).1 = .ok := by decide +kernel
  exact ⟨haccepted, accepted_in_window {} ledger signedEarlyDeletion r haccepted⟩

open Trial in
set_option maxRecDepth 10000 in
/-- **A start may lie too far ahead**: the deletion is accepted though it starts more than eleven seconds
after the clock. -/
theorem late_start_accepted :
    letI := scheme
    let r : ClockReading := ⟨1000, 0⟩
    (ledger.submit {} signedEarlyDeletion r.timestamp).1 = .ok
      ∧ signedEarlyDeletion.body = .ok earlyDeletion
      ∧ r.timestamp.exact + 11 * Timestamp.second < earlyDeletion.id.validStart.exact := by
  let := scheme
  decide +kernel

end Ledger

end ShardLedger
