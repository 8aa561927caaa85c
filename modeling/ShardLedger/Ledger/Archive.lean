import ShardLedger.Ledger.Run
/-
An archive: the ledger that never drops a receipt.

It differs from a ledger in one thing only, that nothing is dropped before a transaction is checked.
Beside the ledger it stands for what a ledger would answer if it remembered everything.
-/

set_option autoImplicit false

namespace ShardLedger

section Submitted

variable [SignatureScheme]

/-- **The body that an operation submits**, if it submits one that can be read. -/
def Operation.body? : Operation → Option TransactionBody
  | .submit t _ => t.body.toOption
  | .ask _ | .createAccount _ _ _ _ | .setBalance _ _ => none

/-- **The bodies that a run submits**, in order, accepted or not. -/
def submitted (ops : List Operation) : List TransactionBody :=
  ops.filterMap Operation.body?

end Submitted

/-- **A receipt outlasts a body** under the same identifier: the validity of the transaction that the
receipt is of and the retention are together no shorter than the validity of the body. -/
def TransactionBody.Outlasts (c : Config) (receipted body : TransactionBody) : Prop :=
  body.validity.total ≤ receipted.validity.total + c.receiptRetention.total

instance (c : Config) (receipted body : TransactionBody) : Decidable (receipted.Outlasts c body) :=
  inferInstanceAs (Decidable (_ ≤ _))

namespace Ledger

variable [SignatureScheme]

/-- **Submit a transaction to an archive.** -/
def submitArchiving (c : Config) (l : Ledger) (t : SignedTransaction) (now : Timestamp) :
    Status × Ledger :=
  match l.precheck c t now with
  | .error status => (status, l)
  | .ok body => (.ok, l.accept c t body now)

/-- **Perform an operation** where transactions are submitted in the given way; a submission is answered
with a status. -/
def performBy (submit : Ledger → SignedTransaction → Timestamp → Status × Ledger) (c : Config)
    (l : Ledger) : Operation → Option Status × Ledger
  | .submit t now => (some (submit l t now).1, (submit l t now).2)
  | .ask q => (none, l.perform c (.ask q))
  | .createAccount id key balance now => (none, l.perform c (.createAccount id key balance now))
  | .setBalance id balance => (none, l.perform c (.setBalance id balance))

/-- A ledger submits in its own way. -/
theorem performBy_submit {c : Config} {l : Ledger} {op : Operation} :
    (l.performBy (submit c) c op).2 = l.perform c op := by
  cases op <;> rfl

/-- **The statuses that a run is answered with**, one for each submission, where transactions are
submitted in the given way. -/
def statuses (submit : Ledger → SignedTransaction → Timestamp → Status × Ledger) (c : Config) :
    Ledger → List Operation → List Status
  | _, [] => []
  | l, op :: ops =>
    (l.performBy submit c op).1.toList ++ statuses submit c (l.performBy submit c op).2 ops

/-- **Receipts outlast a run**: whatever it submits again under an identifier that it has had accepted,
with a validity that may be accepted, is outlasted by the receipt. -/
def ReceiptsOutlast (c : Config) : Ledger → List Operation → Prop
  | _, [] => True
  | l, op :: ops =>
    (∀ receipted ∈ l.acceptedBy c op, ∀ body ∈ submitted ops, body.id = receipted.id →
        minValidSeconds ≤ body.validSeconds ∧ body.validSeconds ≤ maxValidSeconds →
        receipted.Outlasts c body)
      ∧ ReceiptsOutlast c (l.perform c op) ops

/-- Whether receipts outlast a run can be found out by running it. -/
instance decidableReceiptsOutlast (c : Config) :
    (l : Ledger) → (ops : List Operation) → Decidable (ReceiptsOutlast c l ops)
  | _, [] => inferInstanceAs (Decidable True)
  | l, op :: ops =>
    haveI := decidableReceiptsOutlast c (l.perform c op) ops
    inferInstanceAs (Decidable ((∀ receipted ∈ l.acceptedBy c op, ∀ body ∈ submitted ops, _) ∧ _))

end Ledger

end ShardLedger
