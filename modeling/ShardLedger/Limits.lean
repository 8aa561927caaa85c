import ShardLedger.Duration
/-
The limits and defaults of the network.

Clients and nodes work from the same figures: what a transaction costs, how long it is valid, in which
periods an account may renew, and how long a receipt is kept.
-/

set_option autoImplicit false

namespace ShardLedger

/-! ## 1. Transactions -/

/-- **The fee of a transaction**, unless set otherwise. -/
def defaultFee : UInt64 := 10

/-- **How long a transaction is valid**, unless it says otherwise. -/
def defaultValidity : Duration := Duration.ofSeconds 120

/-- **The fewest seconds** a transaction may be valid for. -/
def minValidSeconds : Int64 := 15

/-- **The most seconds** a transaction may be valid for. -/
def maxValidSeconds : Int64 := 180

/-- **How far ahead of the clock** a transaction may start. -/
def maxStartAhead : Duration := Duration.ofSeconds 10

/-- **The longest memo**, in bytes. -/
def maxMemoBytes : Nat := 100

/-- **How long receipts outlive** the validity of their transaction, unless set otherwise. -/
def defaultRetention : Duration := Duration.ofSeconds 180

/-! ## 2. Renewal of accounts -/

/-- **How an account renews**, unless it says otherwise: every thirty days. -/
def defaultAutoRenew : Duration := Duration.ofSeconds 2592000

/-- **The shortest period** in which an account may renew. -/
def minAutoRenew : Duration := Duration.ofSeconds 604800

/-- **The longest period** in which an account may renew. -/
def maxAutoRenew : Duration := Duration.ofSeconds 8000001

/-- **A period in which an account may renew.** -/
def Duration.IsAutoRenew (d : Duration) : Prop :=
  minAutoRenew ≤ d ∧ d ≤ maxAutoRenew

instance (d : Duration) : Decidable d.IsAutoRenew :=
  inferInstanceAs (Decidable (_ ∧ _))

end ShardLedger
