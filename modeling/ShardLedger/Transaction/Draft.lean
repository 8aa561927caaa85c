import ShardLedger.Error
import ShardLedger.Limits
/-
Transactions under construction.

A draft is edited part by part, in any order, and signed any number of times.  The first signature, or
the submission if there is none, gives the draft an identifier if it has none yet.  Every signature is
of the body as it stands, and all signatures of a draft must be of one and the same body: once signed,
a draft whose body has changed can neither be signed again nor be submitted.

A submission uses up the draft.  To repeat a transaction, build it again under the same identifier;
the network then takes the second submission for a repetition.
-/

set_option autoImplicit false

namespace ShardLedger

/-! ## 1. Drafts -/

/-- **What a draft is to do**, with parts that may still be missing. -/
inductive PayloadDraft where
  | create (key : Option PublicKey) (initialBalance : UInt64) (autoRenew : Duration)
  | transfer (legs : List AccountAmount)
  | update (accountId : AccountId) (key : Option PublicKey) (autoRenew : Option Duration)
  | delete (accountId : AccountId) (beneficiary : Option AccountId)

/-- **A transaction under construction.** -/
structure Draft where
  id : Option TransactionId
  /-- The paying account, under which an identifier is minted. -/
  operator : Option AccountId
  /-- The node that is to receive the transaction. -/
  node : Option AccountId
  memo : String
  fee : UInt64
  validity : Duration
  /-- List the record in the history of the payer. -/
  listed : Bool
  payload : PayloadDraft
  /-- Signatures in the order they were given. -/
  signatures : List Signature
  /-- The bytes that the signatures are of. -/
  signedBytes : Option Bytes

/-- **A change to a draft.** -/
inductive Edit where
  | id (id : TransactionId)
  | operator (id : AccountId)
  | node (id : AccountId)
  | memo (s : String)
  | fee (fee : UInt64)
  | validity (d : Duration)
  | listed (b : Bool)
  /-- The key of a new account, or the new key of an account. -/
  | key (k : PublicKey)
  /-- What a new account receives from the payer. -/
  | initialBalance (amount : UInt64)
  /-- The period in which the account renews. -/
  | autoRenew (period : Duration)
  /-- One more leg of a transfer; a negative amount debits the account. -/
  | leg (id : AccountId) (amount : Int64)
  /-- Who receives what a deleted account still holds. -/
  | beneficiary (id : AccountId)

namespace PayloadDraft

/-- **The creation of an account.** -/
def creation : PayloadDraft := .create none 0 defaultAutoRenew

/-- **A transfer without legs.** -/
def emptyTransfer : PayloadDraft := .transfer []

/-- **An update of an account** that changes nothing yet. -/
def updateOf (id : AccountId) : PayloadDraft := .update id none none

/-- **The deletion of an account.** -/
def deletionOf (id : AccountId) : PayloadDraft := .delete id none

/-- **A period in which accounts may renew**, or the error that says it is none. -/
def checkAutoRenew (period : Duration) : Except ClientError Unit :=
  if period.IsAutoRenew then .ok () else .error (.autoRenewPeriod period)

/-- **The sum of the amounts** of a transfer. -/
def sumOf (legs : List AccountAmount) : Int :=
  (legs.map fun leg => leg.amount.toInt).sum

/-- **Check what can be checked before anything is sent.** -/
def validate : PayloadDraft → Except ClientError Unit
  | .create none _ _ => .error (.missingField .key)
  | .create (some _) _ autoRenew => checkAutoRenew autoRenew
  | .transfer legs => if sumOf legs = 0 then .ok () else .error (.unbalancedTransfer (sumOf legs))
  | .update _ _ none => .ok ()
  | .update _ _ (some autoRenew) => checkAutoRenew autoRenew
  | .delete _ none => .error (.missingField .beneficiary)
  | .delete _ (some _) => .ok ()

/-- **Whole seconds as they are written** into a body, modulo their word. -/
def wireSeconds (d : Duration) : Int64 :=
  Int64.ofNat d.seconds.toNat

/-- **What the body will say**, if no part is missing. -/
def payload : PayloadDraft → Except ClientError Payload
  | .create none _ _ => .error (.missingField .key)
  | .create (some key) balance autoRenew => .ok (.create ⟨key, balance, wireSeconds autoRenew⟩)
  | .transfer legs => .ok (.transfer legs)
  | .update id key autoRenew => .ok (.update ⟨id, key, autoRenew.map wireSeconds⟩)
  | .delete _ none => .error (.missingField .beneficiary)
  | .delete id (some beneficiary) => .ok (.delete ⟨id, beneficiary⟩)

/-- **Change a part of what a draft is to do**, if this kind of transaction has that part. -/
def edit? : PayloadDraft → Edit → Option PayloadDraft
  | .create _ balance autoRenew, .key k => some (.create (some k) balance autoRenew)
  | .create key _ autoRenew, .initialBalance amount => some (.create key amount autoRenew)
  | .create key balance _, .autoRenew period => some (.create key balance period)
  | .transfer legs, .leg id amount => some (.transfer (legs ++ [⟨id, amount⟩]))
  | .update id _ autoRenew, .key k => some (.update id (some k) autoRenew)
  | .update id key _, .autoRenew period => some (.update id key (some period))
  | .delete id _, .beneficiary b => some (.delete id (some b))
  | _, _ => none

end PayloadDraft

namespace Draft

/-! ## 2. Building -/

/-- **A draft with nothing given but its payload.** -/
def ofPayload (payload : PayloadDraft) : Draft where
  id := none
  operator := none
  node := none
  memo := ""
  fee := defaultFee
  validity := defaultValidity
  listed := false
  payload := payload
  signatures := []
  signedBytes := none

/-- **Change a part of a draft**, if it has that part.  Signatures stay as they are. -/
def edit? (d : Draft) : Edit → Option Draft
  | .id id => some { d with id := some id }
  | .operator id => some { d with operator := some id }
  | .node id => some { d with node := some id }
  | .memo s => some { d with memo := s }
  | .fee fee => some { d with fee := fee }
  | .validity v => some { d with validity := v }
  | .listed b => some { d with listed := b }
  | e => (d.payload.edit? e).map fun p => { d with payload := p }

/-- **A part that must be given.** -/
def demand {α : Type} (part : Option α) (field : Field) : Except ClientError α :=
  match part with
  | some a => .ok a
  | none => .error (.missingField field)

/-- **The body as it stands**, if no part is missing. -/
def body (d : Draft) : Except ClientError TransactionBody := do
  let id ← demand d.id (if d.operator.isSome then .transactionId else .operator)
  let node ← demand d.node .node
  let payload ← d.payload.payload
  return {
    id := id
    node := node
    fee := d.fee
    validSeconds := PayloadDraft.wireSeconds d.validity
    listed := d.listed
    memo := d.memo
    payload := payload }

/-- **Give a draft an identifier**, minted under the operator, unless it has one. -/
def identify (d : Draft) (m : Mint) (now : Timestamp) : Except ClientError Draft × Mint :=
  match d.id, d.operator with
  | some _, _ => (.ok d, m)
  | none, none => (.error (.missingField .operator), m)
  | none, some operator =>
    let (id, m) := m.transactionId now operator
    (.ok { d with id := some id }, m)

/-- **The signatures are of these bytes**, if there are any. -/
def checkSigned (d : Draft) (bytes : Bytes) : Except ClientError Unit :=
  match d.signedBytes with
  | some signed => if signed = bytes then .ok () else .error .staleSignature
  | none => .ok ()

variable [SignatureScheme]

/-! ## 3. Signing and sealing -/

/-- **Sign the body of an identified draft.** -/
def signBody (d : Draft) (signer : Signer) : Except ClientError Draft := do
  let bytes := Wired.toBytes (← d.body)
  d.checkSigned bytes
  return { d with signatures := d.signatures ++ [signer bytes], signedBytes := some bytes }

/-- **Sign the body as it stands.** -/
def sign (d : Draft) (signer : Signer) (m : Mint) (now : Timestamp) :
    Except ClientError Draft × Mint :=
  let (identified, m) := d.identify m now
  (identified.bind fun d => d.signBody signer, m)

/-- **The envelope of an identified draft**, with its identifier. -/
def sealBody (d : Draft) : Except ClientError (TransactionId × SignedTransaction) := do
  let body ← d.body
  let bytes := Wired.toBytes body
  d.checkSigned bytes
  return (body.id, ⟨bytes, d.signatures⟩)

/-- **Close a draft for submission**: check it, identify it, and put it into its envelope. -/
def close (d : Draft) (m : Mint) (now : Timestamp) :
    Except ClientError (TransactionId × SignedTransaction) × Mint :=
  match d.payload.validate with
  | .error e => (.error e, m)
  | .ok () =>
    let (identified, m) := d.identify m now
    (identified.bind sealBody, m)

end Draft

end ShardLedger
