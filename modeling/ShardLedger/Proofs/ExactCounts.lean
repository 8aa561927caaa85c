import ShardLedger.Proofs.TimestampOrder
/-
Where the arithmetic of timestamps is exact.

The count of a timestamp is worked out in two steps, the seconds and then the nanoseconds, and each step
stops at the ends of the word.  Stopping once would be enough.  Where the seconds alone lie beyond one end
and the nanoseconds lead back towards the word, the first step has already thrown away how far beyond it
they lie, and the second goes on from the end.  So the count is the exact one, stopped at the ends of the
word, unless seconds and nanoseconds pull in different directions there.

That happens to proper timestamps too.  No end of the word is a whole number of seconds, and a timestamp
made from a count has its nanoseconds counted upwards from the second below; so the last part of a second
above the lower end is lost when it is counted again.

A span is stopped at the upper end on its own before it is added or taken away.  A longer span makes a
difference where the count lies on the other side of zero, since the sum could still have gone further.
-/

set_option autoImplicit false

namespace ShardLedger.Timestamp

/-! ## 1. Counts that stop early -/

/-- **The exact count of the seconds** alone. -/
def wholeSeconds (t : Timestamp) : Int :=
  t.seconds.toInt * second

/-- **The exact count has a word.** -/
def Countable (t : Timestamp) : Prop :=
  -2 ^ 63 ≤ t.exact ∧ t.exact < 2 ^ 63

/-- **The count stops early at the lower end**: the seconds lie below it, and the nanoseconds lead up. -/
def StopsBelow (t : Timestamp) : Prop :=
  t.wholeSeconds < -2 ^ 63 ∧ 0 < t.nanos.toInt

/-- **The count stops early at the upper end**: the seconds lie beyond it, and the nanoseconds lead down. -/
def StopsAbove (t : Timestamp) : Prop :=
  2 ^ 63 ≤ t.wholeSeconds ∧ t.nanos.toInt < 0

/-- **The count stops early** at one end of the word. -/
def StopsEarly (t : Timestamp) : Prop :=
  t.StopsBelow ∨ t.StopsAbove

instance (t : Timestamp) : Decidable t.Countable := inferInstanceAs (Decidable (_ ∧ _))

instance (t : Timestamp) : Decidable t.StopsBelow := inferInstanceAs (Decidable (_ ∧ _))

instance (t : Timestamp) : Decidable t.StopsAbove := inferInstanceAs (Decidable (_ ∧ _))

instance (t : Timestamp) : Decidable t.StopsEarly := inferInstanceAs (Decidable (_ ∨ _))

section Count

variable {t : Timestamp}

theorem exact_eq (t : Timestamp) : t.exact = t.wholeSeconds + t.nanos.toInt := rfl

/-- The two steps of a count, as integers. -/
theorem toInt_asNanos (t : Timestamp) :
    t.asNanos.toInt
      = max (-2 ^ 63) (min (max (-2 ^ 63) (min t.wholeSeconds (2 ^ 63 - 1)) + t.nanos.toInt)
          (2 ^ 63 - 1)) := by
  rw [asNanos, toInt_saturateI64, toInt_saturateI64]
  rfl

/-- Below the lower end the count starts from the end. -/
theorem StopsBelow.toInt_asNanos (h : t.StopsBelow) : t.asNanos.toInt = -2 ^ 63 + t.nanos.toInt := by
  obtain ⟨hseconds, hnanos⟩ := h
  have := t.nanos.toInt_lt
  rw [Timestamp.toInt_asNanos]
  omega

/-- Beyond the upper end the count starts from the end. -/
theorem StopsAbove.toInt_asNanos (h : t.StopsAbove) :
    t.asNanos.toInt = 2 ^ 63 - 1 + t.nanos.toInt := by
  obtain ⟨hseconds, hnanos⟩ := h
  have := t.nanos.le_toInt
  rw [Timestamp.toInt_asNanos]
  omega

/-- **A count that does not stop early** is the exact one, stopped at the ends of the word. -/
theorem toInt_asNanos_of_not_stopsEarly (h : ¬ t.StopsEarly) :
    t.asNanos.toInt = max (-2 ^ 63) (min t.exact (2 ^ 63 - 1)) := by
  have hbelow : ¬ t.StopsBelow := fun hb => h (.inl hb)
  have habove : ¬ t.StopsAbove := fun ha => h (.inr ha)
  unfold StopsBelow at hbelow
  unfold StopsAbove at habove
  rw [toInt_asNanos, exact_eq]
  omega

/-- **Where counts are exact**: a count is the exact one, stopped at the ends of the word, exactly if it
does not stop early. -/
theorem asNanos_eq_saturateI64_iff : t.asNanos = saturateI64 t.exact ↔ ¬ t.StopsEarly := by
  rw [← Int64.toInt_inj, toInt_saturateI64]
  constructor
  · intro h hearly
    have hexact := t.exact_eq
    rcases hearly with hb | ha
    · -- The count lies above the end by the nanoseconds, the exact one by less.
      rw [hb.toInt_asNanos] at h
      obtain ⟨hseconds, hnanos⟩ := hb
      have := t.nanos.toInt_lt
      omega
    · rw [ha.toInt_asNanos] at h
      obtain ⟨hseconds, hnanos⟩ := ha
      have := t.nanos.le_toInt
      omega
  · exact toInt_asNanos_of_not_stopsEarly

end Count

/-! ## 2. Timestamps made from counts -/

/-- Different counts make different timestamps. -/
theorem ofNanos_inj {m n : Int64} : ofNanos m = ofNanos n ↔ m = n := by
  refine ⟨fun h => ?_, fun h => h ▸ rfl⟩
  rw [← Int64.toInt_inj, ← exact_ofNanos m, h, exact_ofNanos]

/-- A timestamp made from a count stops early exactly if the count lies in the part of a second between the
lower end of the word and the first whole second above it. -/
theorem stopsEarly_ofNanos_iff {n : Int64} :
    (ofNanos n).StopsEarly ↔ n.toInt < -9223372036 * second := by
  have := n.le_toInt
  have := n.toInt_lt
  unfold StopsEarly StopsBelow StopsAbove wholeSeconds
  rw [toInt_seconds_ofNanos, toInt_nanos_ofNanos]
  simp only [second]
  omega

/-- **Which counts come back** from the timestamps made of them: those from the first whole second of the
word on. -/
theorem asNanos_ofNanos_iff {n : Int64} :
    (ofNanos n).asNanos = n ↔ -9223372036 * second ≤ n.toInt := by
  have hexact : saturateI64 (ofNanos n).exact = n := by
    rw [exact_ofNanos, saturateI64_toInt]
  have hcount := asNanos_eq_saturateI64_iff (t := ofNanos n)
  rw [hexact, stopsEarly_ofNanos_iff] at hcount
  rw [hcount, Int.not_lt]

/-! ## 3. Spans -/

/-- **A span is added exactly**: the timestamp is that of the exact sum, stopped at the ends of the word. -/
def AddsExactly (t : Timestamp) (d : Duration) : Prop :=
  t.saturatingAdd d = ofNanos (saturateI64 (t.exact + d.total))

/-- **A span is taken away exactly**: the timestamp is that of the exact difference, stopped at the ends of
the word. -/
def SubtractsExactly (t : Timestamp) (d : Duration) : Prop :=
  t.saturatingSub d = ofNanos (saturateI64 (t.exact - d.total))

section Spans

variable {t : Timestamp} {d : Duration}

/-- The word of a span stops at the upper end only. -/
theorem toInt_span (d : Duration) :
    (saturateI64 d.total).toInt = min (d.total : Int) (2 ^ 63 - 1) := by
  rw [toInt_saturateI64]
  omega

/-- Adding exactly, as an equation between integers. -/
theorem addsExactly_iff :
    t.AddsExactly d ↔
      max (-2 ^ 63) (min (t.asNanos.toInt + min (d.total : Int) (2 ^ 63 - 1)) (2 ^ 63 - 1))
        = max (-2 ^ 63) (min (t.exact + d.total) (2 ^ 63 - 1)) := by
  rw [AddsExactly, saturatingAdd, ofNanos_inj, ← Int64.toInt_inj, toInt_span, toInt_saturateI64,
    toInt_saturateI64]

/-- Taking away exactly, as an equation between integers. -/
theorem subtractsExactly_iff :
    t.SubtractsExactly d ↔
      max (-2 ^ 63) (min (t.asNanos.toInt - min (d.total : Int) (2 ^ 63 - 1)) (2 ^ 63 - 1))
        = max (-2 ^ 63) (min (t.exact - d.total) (2 ^ 63 - 1)) := by
  rw [SubtractsExactly, saturatingSub, ofNanos_inj, ← Int64.toInt_inj, toInt_span, toInt_saturateI64,
    toInt_saturateI64]

/-- **Spans and exact counts.**  A span that fits in a word is added and taken away exactly.  A longer one
is added exactly from zero on, where the sum stops at the upper end anyway, and taken away exactly below
zero. -/
theorem spans_exact_iff (hcount : t.Countable) (h : ¬ t.StopsEarly) :
    (t.AddsExactly d ↔ (d.total : Int) < 2 ^ 63 ∨ 0 ≤ t.exact)
      ∧ (t.SubtractsExactly d ↔ (d.total : Int) < 2 ^ 63 ∨ t.exact < 0) := by
  obtain ⟨hlo, hhi⟩ := hcount
  have hexact : t.asNanos.toInt = t.exact := by
    rw [toInt_asNanos_of_not_stopsEarly h]
    omega
  rw [addsExactly_iff, subtractsExactly_iff, hexact]
  constructor <;> omega

/-- Where the count stops early at the lower end, a span is added exactly only if it is too long for a word
by as much as the seconds are, and taken away exactly if it leads beyond the end. -/
theorem StopsBelow.spans_exact_iff (hcount : t.Countable) (h : t.StopsBelow) :
    (t.AddsExactly d ↔ (d.total : Int) = -1 - t.wholeSeconds)
      ∧ (t.SubtractsExactly d ↔ t.nanos.toInt ≤ d.total) := by
  obtain ⟨hlo, hhi⟩ := hcount
  have hexact := t.exact_eq
  have hstart := h.toInt_asNanos
  obtain ⟨hseconds, hnanos⟩ := h
  have := t.nanos.toInt_lt
  rw [addsExactly_iff, subtractsExactly_iff, hstart]
  constructor <;> omega

/-- Where the count stops early at the upper end, a span is added exactly if it leads beyond the end, and
taken away exactly only if it is the span of the seconds. -/
theorem StopsAbove.spans_exact_iff (hcount : t.Countable) (h : t.StopsAbove) :
    (t.AddsExactly d ↔ -t.nanos.toInt ≤ d.total)
      ∧ (t.SubtractsExactly d ↔ (d.total : Int) = t.wholeSeconds) := by
  obtain ⟨hlo, hhi⟩ := hcount
  have hexact := t.exact_eq
  have hstart := h.toInt_asNanos
  obtain ⟨hseconds, hnanos⟩ := h
  have := t.nanos.le_toInt
  rw [addsExactly_iff, subtractsExactly_iff, hstart]
  constructor <;> omega

end Spans

/-! ## 4. Where arithmetic is exact -/

/-- **Where the arithmetic of timestamps is exact.**  Stopping at the ends of the word apart:

* the count of a timestamp is the exact one, and the timestamp of seconds and nanoseconds is that of their
  exact count, exactly if the count does not stop early;
* a count comes back from the timestamp that is made of it exactly from the first whole second of the word
  on;
* on a timestamp whose exact count has a word, and whose count does not stop early, a span is added exactly
  if it fits in a word or the count is not negative, and taken away exactly if it fits in a word or the count
  is negative, and not otherwise;
* where the count does stop early, it is off by as much as the seconds lie beyond the end, and spans are
  exact only if they lead beyond the end as well, or are stopped by as much as the seconds.

The work is in the three counts: `toInt_asNanos_of_not_stopsEarly`, `StopsBelow.toInt_asNanos`,
`StopsAbove.toInt_asNanos`. -/
theorem exact_arithmetic_iff (t : Timestamp) (n : Int64) (d : Duration) :
    (t.asNanos = saturateI64 t.exact ↔ ¬ t.StopsEarly)
      ∧ (ofParts t.seconds t.nanos = ofNanos (saturateI64 t.exact) ↔ ¬ t.StopsEarly)
      ∧ ((ofNanos n).asNanos = n ↔ -9223372036 * second ≤ n.toInt)
      ∧ (t.Countable → ¬ t.StopsEarly →
        (t.AddsExactly d ↔ (d.total : Int) < 2 ^ 63 ∨ 0 ≤ t.exact)
          ∧ (t.SubtractsExactly d ↔ (d.total : Int) < 2 ^ 63 ∨ t.exact < 0))
      ∧ (t.Countable → t.StopsBelow →
        t.asNanos.toInt = t.exact + (-2 ^ 63 - t.wholeSeconds)
          ∧ (t.AddsExactly d ↔ (d.total : Int) = -1 - t.wholeSeconds)
          ∧ (t.SubtractsExactly d ↔ t.nanos.toInt ≤ d.total))
      ∧ (t.Countable → t.StopsAbove →
        t.asNanos.toInt = t.exact + (2 ^ 63 - 1 - t.wholeSeconds)
          ∧ (t.AddsExactly d ↔ -t.nanos.toInt ≤ d.total)
          ∧ (t.SubtractsExactly d ↔ (d.total : Int) = t.wholeSeconds)) := by
  have hexact := t.exact_eq
  refine ⟨asNanos_eq_saturateI64_iff, ?_, asNanos_ofNanos_iff, spans_exact_iff, fun hcount h => ?_,
    fun hcount h => ?_⟩
  · rw [ofParts, ofNanos_inj]
    exact asNanos_eq_saturateI64_iff
  · refine ⟨?_, h.spans_exact_iff hcount⟩
    rw [h.toInt_asNanos]
    omega
  · refine ⟨?_, h.spans_exact_iff hcount⟩
    rw [h.toInt_asNanos]
    omega

/-- A second before the epoch a span that is too long for a word is taken away exactly, but not added
exactly.  At the first count of the word an hour is taken away exactly, and not added exactly; at the last
one, written as seconds and nanoseconds that lead back to it, it is the other way round. -/
theorem exact_arithmetic_at_ends :
    let hour := Duration.ofSeconds 3600
    let early : Timestamp := ⟨-1, 0⟩
    let first := ofNanos Int64.minValue
    let last : Timestamp := ⟨9223372037, -145224193⟩
    (early.Countable ∧ ¬ early.StopsEarly ∧ first.Countable ∧ first.StopsBelow ∧ last.Countable
        ∧ last.StopsAbove)
      ∧ (early.SubtractsExactly Duration.longest ∧ ¬ early.AddsExactly Duration.longest)
      ∧ (first.SubtractsExactly hour ∧ ¬ first.AddsExactly hour)
      ∧ (last.AddsExactly hour ∧ ¬ last.SubtractsExactly hour) := by
  intro hour early first last
  have hearly : early.Countable ∧ ¬ early.StopsEarly := by decide
  have hfirst : first.Countable ∧ first.StopsBelow := by decide
  have hlast : last.Countable ∧ last.StopsAbove := by decide
  obtain ⟨-, -, -, hspans, -, -⟩ := exact_arithmetic_iff early 0 Duration.longest
  obtain ⟨-, -, -, -, hbelow, -⟩ := exact_arithmetic_iff first 0 hour
  obtain ⟨-, -, -, -, -, habove⟩ := exact_arithmetic_iff last 0 hour
  obtain ⟨hadd, hsubtract⟩ := hspans hearly.1 hearly.2
  obtain ⟨-, haddFirst, hsubtractFirst⟩ := hbelow hfirst.1 hfirst.2
  obtain ⟨-, haddLast, hsubtractLast⟩ := habove hlast.1 hlast.2
  rw [hadd, hsubtract, haddFirst, hsubtractFirst, haddLast, hsubtractLast]
  exact ⟨⟨hearly.1, hearly.2, hfirst.1, hfirst.2, hlast.1, hlast.2⟩, by decide, by decide, by decide⟩

/-- **The first counts of the word do not come back**, since the seconds stop before the nanoseconds are
added; nor is the count of the last one exact where its nanoseconds lead back to it; and a second before the
epoch, a span that is too long for a word is not added exactly. -/
theorem first_count_not_regained :
    (ofNanos Int64.minValue).asNanos ≠ Int64.minValue
      ∧ (ofNanos Int64.minValue).exact = Int64.minValue.toInt
      ∧ (asNanos ⟨9223372037, -145224193⟩).toInt ≠ exact ⟨9223372037, -145224193⟩
      ∧ exact ⟨9223372037, -145224193⟩ = Int64.maxValue.toInt
      ∧ (saturatingAdd ⟨-1, 0⟩ (.ofSeconds 9223372037)
          ≠ ofNanos (saturateI64 (exact ⟨-1, 0⟩ + (Duration.ofSeconds 9223372037).total))) := by
  decide

end ShardLedger.Timestamp
