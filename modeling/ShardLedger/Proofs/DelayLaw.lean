import ShardLedger.Client.Backoff
/-
How the waits between polls grow.

The wait is to grow by a factor after every poll that finds nothing new, up to a longest wait.  It is worked
out in words: the power of the factor in 32 bits, its product with the first wait in the span of a duration.
Either may be too large for its word, and each has something that stands in for it.

A product that is too long is no matter, since the longest wait stands in for it, and that is what the law
comes to.  A power that is too large is one: the largest word stands in for it, and a first wait that is short
enough is still below the longest wait when it is multiplied by that.  From there on the wait grows no more.
-/

set_option autoImplicit false

namespace ShardLedger

namespace Duration

/-- A product that is too long is longer than any span, so cutting it to a span has one value. -/
theorem total_min_mul? (d limit : Duration) (k : Nat) :
    (min ((d.mul? k).getD limit) limit).total = min (d.total * k) limit.total := by
  have hlimit := limit.total_lt
  rw [total_min, mul?, ofNanos?]
  by_cases h : d.total * k < 2 ^ 64 * nanosPerSecond
  · rw [dif_pos h, Option.getD_some]
  · rw [dif_neg h, Option.getD_none]
    omega

end Duration

namespace BackoffPolicy

/-! ## 1. The factor -/

/-- **A power is given exactly if it fits its word.** -/
theorem power?_eq (base exponent : UInt32) :
    power? base exponent
      = if base.toNat ^ exponent.toNat < UInt32.size then some (base.toNat ^ exponent.toNat) else none := by
  have hsize : UInt32.size = 2 ^ 32 := rfl
  unfold power?
  by_cases hbase : base ≤ 1
  · -- Powers of zero and one do not grow.
    rw [if_pos hbase]
    have hle : base.toNat ≤ 1 := UInt32.le_iff_toNat_le.mp hbase
    by_cases hexponent : exponent = 0
    · have hone : base.toNat ^ exponent.toNat = 1 := by simp [hexponent]
      rw [if_pos hexponent, hone, if_pos (by omega)]
    · have hpos : exponent.toNat ≠ 0 := by
        intro hzero
        apply hexponent
        exact UInt32.toNat_inj.mp hzero
      have hsame : base.toNat ^ exponent.toNat = base.toNat := by
        obtain hzero | hone : base.toNat = 0 ∨ base.toNat = 1 := by omega
        · rw [hzero, Nat.zero_pow (Nat.pos_of_ne_zero hpos)]
        · rw [hone, Nat.one_pow]
      rw [if_neg hexponent, hsame, if_pos (by omega)]
  · rw [if_neg hbase]
    by_cases hexponent : exponent < 32
    · rw [if_pos hexponent]
    · -- The powers of two are the smallest, and the thirty-second does not fit.
      have htwo : 2 ≤ base.toNat := by
        have hlt : 1 < base.toNat := UInt32.lt_iff_toNat_lt.mp (UInt32.not_le.mp hbase)
        omega
      have hlarge : 32 ≤ exponent.toNat := by
        exact UInt32.le_iff_toNat_le.mp (UInt32.not_lt.mp hexponent)
      have hpower : 2 ^ 32 ≤ base.toNat ^ exponent.toNat :=
        calc 2 ^ 32 ≤ 2 ^ exponent.toNat := Nat.pow_le_pow_right (by omega) hlarge
          _ ≤ base.toNat ^ exponent.toNat := Nat.pow_le_pow_left htwo _
      rw [if_neg hexponent, if_neg (by omega)]

/-- The factor of a delay is the power, and no more than the largest word. -/
theorem factor_eq (base exponent : UInt32) :
    (power? base exponent).getD (UInt32.size - 1)
      = min (base.toNat ^ exponent.toNat) (UInt32.size - 1) := by
  have hsize : UInt32.size = 2 ^ 32 := rfl
  rw [power?_eq]
  by_cases h : base.toNat ^ exponent.toNat < UInt32.size
  · rw [if_pos h, Option.getD_some]
    omega
  · rw [if_neg h, Option.getD_none]
    omega

/-! ## 2. The delay -/

/-- **The delay by the law**, in exact arithmetic: the first delay times a power of the multiplier, and no
more than the longest delay. -/
def lawfulDelay (p : BackoffPolicy) (pending : Nat) : Nat :=
  min (p.initialDelay.total * p.multiplier.toNat ^ (pending - 1)) p.maxDelay.total

/-- The exponent of a delay is one less than the polls that found nothing. -/
theorem toNat_exponent (pending : UInt32) : (pending - min pending 1).toNat = pending.toNat - 1 := by
  have hmin : min pending 1 = if pending ≤ 1 then pending else 1 := rfl
  rw [hmin]
  by_cases h : pending ≤ 1
  · have hle : pending.toNat ≤ 1 := UInt32.le_iff_toNat_le.mp h
    rw [if_pos h, UInt32.sub_self]
    simp only [UInt32.toNat_zero]
    omega
  · have hone : (1 : UInt32) ≤ pending := UInt32.le_of_lt (UInt32.not_le.mp h)
    rw [if_neg h, UInt32.toNat_sub_of_le _ _ hone]
    rfl

/-- **The delay of a policy** is the law's, with a factor that goes no further than the largest word. -/
theorem total_delayFor (p : BackoffPolicy) (pending : UInt32) :
    (p.delayFor pending).total
      = min (p.initialDelay.total * min (p.multiplier.toNat ^ (pending.toNat - 1)) (UInt32.size - 1))
          p.maxDelay.total := by
  rw [delayFor, Duration.total_min_mul?, factor_eq, toNat_exponent]

/-- **Where delays follow the law.**  A delay is the law's exactly if the power fits its word, or a power
that does not fit makes no difference: nothing is multiplied, or the largest word already leads to the longest
delay.  Elsewhere the delay stays short of the law, at the first delay times the largest word.

The work is in `total_delayFor`, which says the delay in whole numbers; what is left compares two factors. -/
theorem delayFor_lawful_iff (p : BackoffPolicy) (pending : UInt32) :
    ((p.delayFor pending).total = p.lawfulDelay pending.toNat
        ↔ p.multiplier.toNat ^ (pending.toNat - 1) < UInt32.size
          ∨ p.initialDelay.total = 0
          ∨ p.maxDelay.total ≤ p.initialDelay.total * (UInt32.size - 1))
      ∧ ((p.delayFor pending).total ≠ p.lawfulDelay pending.toNat →
          (p.delayFor pending).total = p.initialDelay.total * (UInt32.size - 1)
            ∧ (p.delayFor pending).total < p.lawfulDelay pending.toNat) := by
  have hsize : UInt32.size = 4294967296 := rfl
  have hdelay := p.total_delayFor pending
  have hlaw : p.lawfulDelay pending.toNat
      = min (p.initialDelay.total * p.multiplier.toNat ^ (pending.toNat - 1)) p.maxDelay.total := rfl
  by_cases hfits : p.multiplier.toNat ^ (pending.toNat - 1) < UInt32.size
  · -- The factor is the power itself.
    have hfactor : min (p.multiplier.toNat ^ (pending.toNat - 1)) (UInt32.size - 1)
        = p.multiplier.toNat ^ (pending.toNat - 1) := by omega
    rw [hfactor, ← hlaw] at hdelay
    exact ⟨⟨fun _ => .inl hfits, fun _ => hdelay⟩, fun hne => absurd hdelay hne⟩
  · have hfactor : min (p.multiplier.toNat ^ (pending.toNat - 1)) (UInt32.size - 1)
        = UInt32.size - 1 := by omega
    rw [hfactor] at hdelay
    by_cases hzero : p.initialDelay.total = 0
    · rw [hzero, Nat.zero_mul] at hdelay hlaw
      have hsame : (p.delayFor pending).total = p.lawfulDelay pending.toNat := hdelay.trans hlaw.symm
      exact ⟨⟨fun _ => .inr (.inl hzero), fun _ => hsame⟩, fun hne => absurd hsame hne⟩
    · -- The largest word is a smaller factor than the power.
      have hless : p.initialDelay.total * (UInt32.size - 1)
          < p.initialDelay.total * p.multiplier.toNat ^ (pending.toNat - 1) :=
        Nat.mul_lt_mul_of_pos_left (by omega) (Nat.pos_of_ne_zero hzero)
      rw [hdelay, hlaw]
      constructor
      · constructor
        · intro hsame
          right
          right
          omega
        · intro hcases
          omega
      · intro hne
        omega

/-- **A delay that stops short of the law.**  The fifth delay of a policy that begins with a microsecond and
goes on by the thousand is to be two hours, the longest delay, and is not much more than one. -/
theorem delayFor_short_of_law :
    let p : BackoffPolicy :=
      { initialDelay := ⟨1000, by decide⟩, multiplier := 1000, maxDelay := Duration.ofSeconds 7200 }
    p.lawfulDelay 5 = 7200 * nanosPerSecond ∧ (p.delayFor 5).total = 4294967295000
      ∧ (p.delayFor 5).total ≠ p.lawfulDelay 5 := by
  decide +kernel

end BackoffPolicy

end ShardLedger
