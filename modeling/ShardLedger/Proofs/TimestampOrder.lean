import ShardLedger.Timestamp
import Mathlib.Tactic.ByContra
/-
The order of timestamps, and adding spans to them.

Timestamps off the wire may carry any nanoseconds, and arithmetic on them stops at the ends of a word,
near the lower end in two steps.  So a sum of spans is not always the span of the sum.  What does hold
everywhere is monotony: a longer span never leads to an earlier timestamp, and two spans one after the
other never lead to an earlier one than a single span that is no longer than both together.

The exact count of a timestamp is an integer, and no word bounds it.  Two things keep the order and the
arithmetic from being those of exact counts: nanoseconds that pass their second, which the order never
carries into the seconds, and the lower end of the word.
-/

set_option autoImplicit false

namespace ShardLedger.Timestamp

/-! ## 1. The laws of the order -/

theorem lt_iff_compare {a b : Timestamp} : a < b ↔ compare a b = .lt := Iff.rfl

theorem le_iff_compare {a b : Timestamp} : a ≤ b ↔ compare a b ≠ .gt := Iff.rfl

instance : Std.LawfulOrderOrd Timestamp where
  isLE_compare a b := by
    rw [le_iff_compare, Ordering.isLE_iff_ne_gt]
  isGE_compare a b := by
    rw [le_iff_compare, Std.OrientedCmp.isGE_iff_isLE, Ordering.isLE_iff_ne_gt]

instance : Std.LawfulOrderLT Timestamp :=
  .of_ord Timestamp fun _ _ => lt_iff_compare

instance : Std.IsLinearOrder Timestamp :=
  .of_ord

/-- By seconds, then by nanoseconds. -/
theorem le_iff {a b : Timestamp} :
    a ≤ b ↔ a.seconds.toInt < b.seconds.toInt
      ∨ a.seconds.toInt = b.seconds.toInt ∧ a.nanos.toInt ≤ b.nanos.toInt := by
  have hthen : compare a b = (compare a.seconds b.seconds).then (compare a.nanos b.nanos) := rfl
  rw [← Std.isLE_compare, hthen, Ordering.isLE_then_iff_or, Std.compare_eq_lt,
    Std.compare_eq_eq_iff_eq, Std.isLE_compare, Int64.lt_iff_toInt_lt, ← Int64.toInt_inj,
    Int32.le_iff_toInt_le]

/-! ## 2. Counts and timestamps -/

theorem toInt_seconds_ofNanos (n : Int64) : (ofNanos n).seconds.toInt = n.toInt / second := by
  have := n.toInt_lt
  have := n.le_toInt
  rw [ofNanos, Int64.toInt_ofInt_of_le] <;> simp only [second] <;> omega

theorem toInt_nanos_ofNanos (n : Int64) : (ofNanos n).nanos.toInt = n.toInt % second := by
  have := n.toInt_lt
  have := n.le_toInt
  rw [ofNanos, Int32.toInt_ofInt_of_le] <;> simp only [second] <;> omega

/-- A later count is a later timestamp. -/
theorem ofNanos_le_ofNanos {m n : Int64} (h : m.toInt ≤ n.toInt) : ofNanos m ≤ ofNanos n := by
  rw [le_iff, toInt_seconds_ofNanos, toInt_seconds_ofNanos, toInt_nanos_ofNanos,
    toInt_nanos_ofNanos]
  simp only [second]
  omega

/-- The count of a timestamp made from a count is no smaller: the seconds alone may stop at the lower
end, and then the nanoseconds are added above it. -/
theorem le_asNanos_ofNanos (n : Int64) : n.toInt ≤ (ofNanos n).asNanos.toInt := by
  have := n.toInt_lt
  have := n.le_toInt
  rw [asNanos, toInt_saturateI64, toInt_saturateI64, toInt_seconds_ofNanos, toInt_nanos_ofNanos]
  simp only [second]
  omega

/-! ## 3. Adding spans -/

/-- A longer span leads to a later timestamp. -/
theorem saturatingAdd_mono (t : Timestamp) {d e : Duration} (h : d ≤ e) :
    t.saturatingAdd d ≤ t.saturatingAdd e := by
  have hle := Duration.le_iff.mp h
  refine ofNanos_le_ofNanos ?_
  simp only [toInt_saturateI64]
  omega

/-- **Two spans in turn reach as far as one** that is no longer than both together. -/
theorem saturatingAdd_le_add_add (t : Timestamp) {d e f : Duration}
    (h : f.total ≤ d.total + e.total) :
    t.saturatingAdd f ≤ (t.saturatingAdd d).saturatingAdd e := by
  have hfirst := le_asNanos_ofNanos (saturateI64 (t.asNanos.toInt + (saturateI64 d.total).toInt))
  have := t.asNanos.le_toInt
  refine ofNanos_le_ofNanos ?_
  -- Where the first span stops at the upper end, the second cannot leave it.
  rw [← saturatingAdd] at hfirst
  simp only [toInt_saturateI64] at hfirst ⊢
  omega

/-! ## 4. Exact counts -/

/-- **The exact nanosecond count** of a timestamp. -/
def exact (t : Timestamp) : Int :=
  t.seconds.toInt * second + t.nanos.toInt

/-- **How far the nanoseconds run over** the second that they belong to. -/
def overrun (t : Timestamp) : Int :=
  max 0 (t.nanos.toInt - second)

/-- **The floor of exact arithmetic.**  Seconds that have stopped at the lower end of the word still have
their nanoseconds added, and no nanoseconds lead beyond this count. -/
def floor : Int := -2 ^ 63 + (2 ^ 31 - 1)

/-- A timestamp made from a count has exactly that count. -/
theorem exact_ofNanos (n : Int64) : (ofNanos n).exact = n.toInt := by
  rw [exact, toInt_seconds_ofNanos, toInt_nanos_ofNanos]
  simp only [second]
  omega

/-- Of timestamps made from counts the later one has the greater count. -/
theorem toInt_lt_of_ofNanos_lt {m n : Int64} (h : ofNanos m < ofNanos n) : m.toInt < n.toInt := by
  by_contra hle
  exact Std.not_lt.mpr (ofNanos_le_ofNanos (Int.not_lt.mp hle)) h

/-- A timestamp made from a greater count is a later one. -/
theorem ofNanos_lt_ofNanos {m n : Int64} (h : m.toInt < n.toInt) : ofNanos m < ofNanos n := by
  by_contra hle
  have hback := le_iff.mp (Std.not_lt.mp hle)
  rw [toInt_seconds_ofNanos, toInt_seconds_ofNanos, toInt_nanos_ofNanos, toInt_nanos_ofNanos] at hback
  simp only [second] at hback
  omega

/-- Of timestamps made from counts one that is no later has no greater count. -/
theorem toInt_le_of_ofNanos_le {m n : Int64} (h : ofNanos m ≤ ofNanos n) : m.toInt ≤ n.toInt := by
  by_contra hlt
  exact Std.not_lt.mpr h (ofNanos_lt_ofNanos (Int.not_le.mp hlt))

/-- What a clock shows is made from a count. -/
theorem exists_timestamp_eq (r : ClockReading) : ∃ n : Int64, r.timestamp = ofNanos n :=
  ⟨_, rfl⟩

/-- **The order bounds the exact count**, but for nanoseconds that run over. -/
theorem exact_le_of_le_ofNanos {t : Timestamp} {n : Int64} (h : t ≤ ofNanos n) :
    t.exact ≤ n.toInt + t.overrun := by
  rw [le_iff, toInt_seconds_ofNanos, toInt_nanos_ofNanos] at h
  rw [exact, overrun]
  simp only [second] at h ⊢
  omega

/-- **The count of a timestamp is no greater than the exact one**, unless that is below the floor. -/
theorem asNanos_le (t : Timestamp) : t.asNanos.toInt ≤ max t.exact floor := by
  have := t.nanos.toInt_lt
  rw [asNanos, toInt_saturateI64, toInt_saturateI64, exact, floor]
  simp only [second]
  omega

/-- **A count from the floor on comes back** from its timestamp. -/
theorem toInt_asNanos_ofNanos {n : Int64} (h : floor ≤ n.toInt) :
    (ofNanos n).asNanos.toInt = n.toInt := by
  have hle := asNanos_le (ofNanos n)
  have hge := le_asNanos_ofNanos n
  rw [exact_ofNanos] at hle
  omega

/-- A span that fits in a word is its own nearest word. -/
theorem toInt_saturateI64_total {d : Duration} (h : (d.total : Int) < 2 ^ 63) :
    (saturateI64 d.total).toInt = d.total := by
  rw [toInt_saturateI64]
  omega

/-- **A span added to a count from the floor on** is added to the count, up to the end of the word. -/
theorem saturatingAdd_ofNanos {n : Int64} (hn : floor ≤ n.toInt) {d : Duration}
    (hd : (d.total : Int) < 2 ^ 63) :
    (ofNanos n).saturatingAdd d = ofNanos (saturateI64 (n.toInt + d.total)) := by
  rw [saturatingAdd, toInt_asNanos_ofNanos hn, toInt_saturateI64_total hd]

/-- **A span taken from a count from the floor on** is taken from the count, down to the end of the word. -/
theorem saturatingSub_ofNanos {n : Int64} (hn : floor ≤ n.toInt) {d : Duration}
    (hd : (d.total : Int) < 2 ^ 63) :
    (ofNanos n).saturatingSub d = ofNanos (saturateI64 (n.toInt - d.total)) := by
  rw [saturatingSub, toInt_asNanos_ofNanos hn, toInt_saturateI64_total hd]

/-- A span added to a timestamp reaches no further than exact arithmetic does from the floor on. -/
theorem exists_saturatingAdd_eq (t : Timestamp) (d : Duration) :
    ∃ n : Int64, t.saturatingAdd d = ofNanos n
      ∧ n.toInt ≤ max (-2 ^ 63) (max t.exact floor + d.total) := by
  have hcount := asNanos_le t
  refine ⟨_, rfl, ?_⟩
  simp only [toInt_saturateI64]
  omega

end ShardLedger.Timestamp
