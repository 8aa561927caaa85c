import ShardLedger.Timestamp
/-
Transaction identifiers, and how fresh ones are minted.

A transaction is known by the account that pays for it and the moment from which it is valid.  The
network takes a second submission under one identifier for a repetition of the first, so whoever
starts a new transaction needs an identifier never used before.  A mint keeps the last moment it has
handed out: the next one is a little behind the clock, to allow for drift between client and node,
and at least one nanosecond after the last.
-/

set_option autoImplicit false

namespace ShardLedger

/-- **A transaction identifier**: the paying account and the start of validity. -/
structure TransactionId where
  accountId : AccountId
  validStart : Timestamp
deriving DecidableEq, Repr

namespace TransactionId

/-- **The order of transaction identifiers**: by payer, then by start. -/
def order : TransactionId → TransactionId → Ordering :=
  compareLex (compareOn accountId) (compareOn validStart)

instance : Ord TransactionId := ⟨order⟩

/-- **The text form**: the account, an at sign, the start. -/
def chars (id : TransactionId) : List Char :=
  id.accountId.chars ++ '@' :: id.validStart.chars

/-- **The text form** as a string. -/
def text (id : TransactionId) : String :=
  String.ofList id.chars

/-- **Read the text form.** -/
def ofChars? (cs : List Char) : Option TransactionId := do
  let (account, start) ← Text.cut '@' cs
  let accountId ← AccountId.ofChars? account
  let validStart ← Timestamp.ofChars? start
  return ⟨accountId, validStart⟩

/-- **Read the text form**, or refuse the whole input. -/
def parse (s : String) : Except Malformed TransactionId :=
  match ofChars? s.toList with
  | some id => .ok id
  | none => .error ⟨.transactionId, s⟩

/-! ## The order is total -/

instance : Std.TransOrd TransactionId :=
  inferInstanceAs (Std.TransCmp (compareLex (compareOn accountId) (compareOn validStart)))

instance : Std.LawfulEqOrd TransactionId where
  eq_of_compare := by
    intro a b h
    change order a b = .eq at h
    obtain ⟨p, t⟩ := a
    obtain ⟨p', t'⟩ := b
    simp only [order, compareLex, compareOn, Ordering.then_eq_eq,
      Std.LawfulEqOrd.compare_eq_iff_eq] at h
    simp_all

end TransactionId

/-! ## The mint -/

/-- **How far behind the clock a fresh start lies.** -/
def startSkew : Duration := Duration.ofSeconds 5

/-- **A mint** of valid starts, with the nanosecond count it handed out last. -/
structure Mint where
  last : Int64
deriving DecidableEq, Repr

namespace Mint

/-- **A mint that has handed out nothing.** -/
def fresh : Mint := ⟨Int64.minValue⟩

/-- **What the clock alone would give**: its reading less the skew. -/
def candidate (now : Timestamp) : Int64 :=
  (now.saturatingSub startSkew).asNanos

/-- **The next valid start**: the candidate, or one nanosecond past the last start if that is later. -/
def start (m : Mint) (now : Timestamp) : Timestamp × Mint :=
  let next := max (candidate now) (saturateI64 (m.last.toInt + 1))
  (Timestamp.ofNanos next, ⟨next⟩)

/-- **A fresh transaction identifier** for a payer. -/
def transactionId (m : Mint) (now : Timestamp) (payer : AccountId) : TransactionId × Mint :=
  let (start, m) := m.start now
  (⟨payer, start⟩, m)

/-- **The identifiers that a mint hands out** one after the other, each at a reading of the clock and for a
payer. -/
def ids (m : Mint) : List (ClockReading × AccountId) → List TransactionId
  | [] => []
  | (r, payer) :: calls =>
    let (id, m) := m.transactionId r.timestamp payer
    id :: m.ids calls

end Mint

end ShardLedger
