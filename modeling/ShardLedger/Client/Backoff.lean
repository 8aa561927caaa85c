import ShardLedger.Duration
/-
How long to wait between two polls.

The wait grows by a factor after every poll that finds nothing new, up to a longest wait.  Two budgets
bound the polling, one in polls and one in time.
-/

set_option autoImplicit false

namespace ShardLedger

/-- **A policy of polling.** -/
structure BackoffPolicy where
  /-- The wait after the first poll. -/
  initialDelay : Duration := Duration.ofSeconds 1
  /-- By what the wait grows after every further poll. -/
  multiplier : UInt32 := 2
  /-- The longest wait. -/
  maxDelay : Duration := Duration.ofSeconds 8
  /-- The most polls, the first counted. -/
  maxPolls : UInt32 := 30
  /-- The longest time from the first poll on. -/
  maxElapsed : Duration := Duration.ofSeconds 120
deriving DecidableEq

namespace BackoffPolicy

/-- **The same wait between all polls.** -/
def fixed (delay : Duration) (maxPolls : UInt32) : BackoffPolicy where
  initialDelay := delay
  multiplier := 1
  maxDelay := delay
  maxPolls := maxPolls
  maxElapsed := delay.saturatingMul maxPolls.toNat

/-- **A power within an unsigned 32-bit word**, if it fits.  From the base two on, an exponent of
thirty-two is too large already. -/
def power? (base exponent : UInt32) : Option Nat :=
  if base ≤ 1 then some (if exponent = 0 then 1 else base.toNat)
  else if exponent < 32 then
    let p := base.toNat ^ exponent.toNat
    if p < UInt32.size then some p else none
  else none

/-- **The wait after the `pending`-th poll** that found nothing new.  A power that does not fit its
word counts as the largest word, and a product that is too long as the longest wait. -/
def delayFor (p : BackoffPolicy) (pending : UInt32) : Duration :=
  let factor := (power? p.multiplier (pending - min pending 1)).getD (UInt32.size - 1)
  min ((p.initialDelay.mul? factor).getD p.maxDelay) p.maxDelay

end BackoffPolicy

end ShardLedger
