import ShardLedger.Crypto.Sha2
import ShardLedger.Ledger.Effects
/-
Submitting a transaction.

A node first checks a transaction in a fixed order, and the first check that fails is its answer; then
nothing has changed but that old receipts are gone.  A transaction that passes pays its fee, is
applied, and leaves a receipt, whatever its outcome.

Signatures count by position.  The first must be the payer's; then come those of the accounts that a
transfer debits, leg by leg, or of the account that is updated or deleted; and last that of a new
key.  More signatures do no harm.
-/

set_option autoImplicit false

namespace ShardLedger

/-- **The digest of a signed transaction.** -/
def SignedTransaction.hash (t : SignedTransaction) : Bytes :=
  sha384 (Wired.toBytes t)

/-- **The span of validity** of a body whose seconds are in range. -/
def TransactionBody.validity (b : TransactionBody) : Duration :=
  Duration.ofSeconds (UInt64.ofNat b.validSeconds.toInt.toNat)

/-- **The end of validity** of a body. -/
def TransactionBody.expiresAt (b : TransactionBody) : Timestamp :=
  b.id.validStart.saturatingAdd b.validity

/-- **Demand a condition**, or answer with a status. -/
def require (p : Prop) [Decidable p] (otherwise : Status) : Except Status Unit :=
  if p then .ok () else .error otherwise

namespace Ledger

/-! ## 1. The checks -/

/-- **The keys that must sign**, in the order of their signatures. -/
def requiredKeys (l : Ledger) (payer : Account) (payload : Payload) : List PublicKey :=
  payer.key ::
    match payload with
    | .create _ => []
    | .transfer legs => (legs.filter (·.amount < 0)).filterMap fun leg => l.keyOf? leg.accountId
    | .update u => (l.keyOf? u.accountId).toList ++ u.key.toList
    | .delete d => (l.keyOf? d.accountId).toList

/-- **The signatures of a transaction begin with those of the keys.** -/
def isSignedBy [SignatureScheme] (keys : List PublicKey) (t : SignedTransaction) : Bool :=
  keys.length ≤ t.signatures.length
    && (keys.zip t.signatures).all fun ks => ks.1.verify t.bodyBytes ks.2

/-- **The account that pays**, if it can pay at all. -/
def payer (l : Ledger) (id : AccountId) : Except Status Account := do
  let a ← match l.accounts.get? id with
    | some a => Except.ok a
    | none => .error .payerAccountNotFound
  require (¬ a.deleted) .accountDeleted
  return a

/-- **Check a transaction**, and give its body if nothing is wrong. -/
def precheck [SignatureScheme] (c : Config) (l : Ledger) (t : SignedTransaction) (now : Timestamp) :
    Except Status TransactionBody := do
  let body ← t.body.mapError fun _ => .invalidTransactionBody
  require (body.node ∈ c.nodeAccounts) .invalidNodeAccount
  let payer ← l.payer body.id.accountId
  require (minValidSeconds ≤ body.validSeconds ∧ body.validSeconds ≤ maxValidSeconds)
    .invalidTransactionDuration
  require (body.id.validStart ≤ now.saturatingAdd maxStartAhead) .invalidTransactionStart
  require (now < body.expiresAt) .transactionExpired
  require (body.memo.utf8ByteSize ≤ maxMemoBytes) .memoTooLong
  require (c.transactionFee ≤ body.fee) .insufficientTxFee
  require (¬ l.receipts.contains body.id) .duplicateTransaction
  require (isSignedBy (l.requiredKeys payer body.payload) t) .invalidSignature
  require (c.transactionFee ≤ payer.balance) .insufficientPayerBalance
  return body

/-! ## 2. Applying -/

/-- **Charge the fee** to the payer for the node. -/
def chargeFee (c : Config) (l : Ledger) (body : TransactionBody) : Ledger :=
  (l.debit body.id.accountId c.transactionFee).credit body.node c.transactionFee

/-- **Keep a receipt**, its record written from the journal, which is emptied. -/
def retain (c : Config) (l : Ledger) (t : SignedTransaction) (body : TransactionBody)
    (receipt : Receipt) (now : Timestamp) : Ledger :=
  let consensus := l.nextConsensus now
  let record : Record :=
    { id := body.id
      receipt := receipt
      hash := t.hash
      consensus := consensus
      memo := body.memo
      fee := c.transactionFee
      transfers := netChanges l.journal }
  { l with
    lastConsensus := consensus
    journal := .empty
    receipts := l.receipts.set body.id
      { record := record
        listed := body.listed
        expiresAt := body.expiresAt
        remainingPolls := c.consensusPolls } }

/-- **Apply a checked transaction.** -/
def accept (c : Config) (l : Ledger) (t : SignedTransaction) (body : TransactionBody)
    (now : Timestamp) : Ledger :=
  let l := chargeFee c { l with journal := .empty } body
  let (receipt, l) := l.apply body.id.accountId body.payload now
  l.retain c t body receipt now

/-- **Submit a transaction.** -/
def submit [SignatureScheme] (c : Config) (l : Ledger) (t : SignedTransaction) (now : Timestamp) :
    Status × Ledger :=
  let l := l.prune now c.receiptRetention
  match l.precheck c t now with
  | .error status => (status, l)
  | .ok body => (.ok, l.accept c t body now)

end Ledger

end ShardLedger
