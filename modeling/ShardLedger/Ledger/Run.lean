import ShardLedger.Ledger.Inquiry
/-
Runs of a ledger.

Transactions and queries arrive in any order, and whoever keeps the ledger may open accounts and
overwrite balances between them.  A run is the list of what is done.  An operation that needs to know
the time carries what the clock reads when it is performed; nothing is said here of how the clock goes.
-/

set_option autoImplicit false

namespace ShardLedger

/-- **What is done to a ledger.** -/
inductive Operation where
  | submit (t : SignedTransaction) (now : Timestamp)
  | ask (q : Query)
  /-- Open an account directly. -/
  | createAccount (id : AccountId) (key : PublicKey) (balance : UInt64) (now : Timestamp)
  /-- Overwrite a balance directly. -/
  | setBalance (id : AccountId) (balance : UInt64)

namespace Operation

/-- **What the clock reads**, if the operation looks at it. -/
def clock? : Operation → Option Timestamp
  | .submit _ now => some now
  | .createAccount _ _ _ now => some now
  | .ask _ | .setBalance _ _ => none

/-- **The account that an operation opens directly**, if it does. -/
def registers? : Operation → Option AccountId
  | .createAccount id _ _ _ => some id
  | .submit _ _ | .ask _ | .setBalance _ _ => none

/-- **The operation is a request**, and not done to the accounts directly. -/
def IsRequest : Operation → Prop
  | .submit _ _ | .ask _ => True
  | .createAccount _ _ _ _ | .setBalance _ _ => False

end Operation

/-- **The readings of the clock** in a run, in order. -/
def readings (ops : List Operation) : List Timestamp :=
  ops.filterMap Operation.clock?

/-- What the clock reads in a run it reads at the first operation or in the rest. -/
theorem mem_readings_cons {op : Operation} {ops : List Operation} {now : Timestamp} :
    now ∈ readings (op :: ops) ↔ now ∈ op.clock? ∨ now ∈ readings ops := by
  rw [readings, List.filterMap_cons]
  cases op.clock? with
  | none => simp [readings]
  | some first => simp [readings, eq_comm]

/-- **The accounts that a run opens directly**, in order. -/
def registered (ops : List Operation) : List AccountId :=
  ops.filterMap Operation.registers?

namespace Ledger

variable [SignatureScheme]

/-- **Perform an operation.** -/
def perform (c : Config) (l : Ledger) : Operation → Ledger
  | .submit t now => (l.submit c t now).2
  | .ask q => (l.ask c q).2
  | .createAccount id key balance now => l.createAccount id key balance now
  | .setBalance id balance => l.setBalance id balance

/-- **The ledger after a run.** -/
def run (c : Config) (l : Ledger) (ops : List Operation) : Ledger :=
  ops.foldl (perform c) l

/-- **The transaction that an operation has accepted**, if it is one and the answer is `ok`. -/
def acceptedBy (c : Config) (l : Ledger) : Operation → Option TransactionBody
  | .submit t now => if (l.submit c t now).1 = .ok then t.body.toOption else none
  | .ask _ | .createAccount _ _ _ _ | .setBalance _ _ => none

/-- **The transactions that a run has accepted**, in order. -/
def accepted (c : Config) : Ledger → List Operation → List TransactionBody
  | _, [] => []
  | l, op :: ops => (l.acceptedBy c op).toList ++ accepted c (l.perform c op) ops

/-- **The receipt that an operation has left**, if it is a transaction that it has accepted. -/
def receiptedBy (c : Config) (l : Ledger) (op : Operation) : Option Retained :=
  (l.acceptedBy c op).bind fun body => (l.perform c op).receipts.get? body.id

/-- **The receipts that a run has left**, each as it was on acceptance, in order. -/
def receipted (c : Config) : Ledger → List Operation → List Retained
  | _, [] => []
  | l, op :: ops => (l.receiptedBy c op).toList ++ receipted c (l.perform c op) ops

/-- **The account that an operation has created**: the receipt of a transaction that it has accepted
names it. -/
def createdBy (c : Config) (l : Ledger) (op : Operation) : Option AccountId :=
  (l.acceptedBy c op).bind fun body =>
    ((l.perform c op).receipts.get? body.id).bind fun r => r.record.receipt.accountId

/-- **The accounts that a run has created**, in order. -/
def created (c : Config) : Ledger → List Operation → List AccountId
  | _, [] => []
  | l, op :: ops => (l.createdBy c op).toList ++ created c (l.perform c op) ops

end Ledger

end ShardLedger
