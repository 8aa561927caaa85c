import ShardLedger.Crypto.Scheme
import ShardLedger.Status
import ShardLedger.TransactionId
import ShardLedger.Wire.Codec
/-
Transactions as they travel.

The body of a transaction says who pays, which node receives it, for how long it is valid, and what is
to be done.  Its binary form is what signers sign.  The envelope carries those very bytes with the
signatures in the order they were given, so a check of signatures never depends on writing a body a
second time.
-/

set_option autoImplicit false

namespace ShardLedger

open Wire

/-! ## 1. Identifiers on the wire -/

/-- **Identifiers off the wire have no negative component.** -/
def AccountId.guard : Datum → Option Fault
  | .record [.int shard, .int realm, .int account] =>
    match AccountId.ofParts (Int64.ofInt shard) (Int64.ofInt realm) (Int64.ofInt account) with
    | .ok _ => none
    | .error m => some (.malformed m)
  | _ => none

instance : Wired AccountId where
  schema := .guarded AccountId.guard
    (.recordOf [("shard", .int .i64), ("realm", .int .i64), ("account", .int .i64)])
  toDatum id := .record [.int id.shard.toInt, .int id.realm.toInt, .int id.account.toInt]
  ofDatum?
    | .record [.int shard, .int realm, .int account] =>
      some ⟨Int64.ofInt shard, Int64.ofInt realm, Int64.ofInt account⟩
    | _ => none

instance : Wired Timestamp where
  schema := .recordOf [("seconds", .int .i64), ("nanos", .int .i32)]
  toDatum t := .record [.int t.seconds.toInt, .int t.nanos.toInt]
  ofDatum?
    | .record [.int seconds, .int nanos] => some ⟨Int64.ofInt seconds, Int32.ofInt nanos⟩
    | _ => none

instance : Wired TransactionId where
  schema := .recordOf
    [("account_id", Wired.schema AccountId), ("valid_start", Wired.schema Timestamp)]
  toDatum id := .record [Wired.toDatum id.accountId, Wired.toDatum id.validStart]
  ofDatum?
    | .record [account, start] => do
      return ⟨← Wired.ofDatum? account, ← Wired.ofDatum? start⟩
    | _ => none

instance : Wired Status where
  schema := .int .i32
  toDatum s := .int s.code.toInt
  ofDatum?
    | .int i => some (Status.ofCode (Int32.ofInt i))
    | _ => none

/-! ## 2. Keys and signatures on the wire -/

/-- **Public keys off the wire are points.** -/
def PublicKey.guard [SignatureScheme] : Datum → Option Fault
  | .record [.bytes b] => if SignatureScheme.isPoint b then none else some .invalidKey
  | _ => none

instance [SignatureScheme] : Wired PublicKey where
  schema := .guarded PublicKey.guard (.recordOf [("bytes", .bytes (some 32))])
  toDatum k := .record [.bytes k.bytes]
  ofDatum?
    | .record [.bytes b] => some ⟨b⟩
    | _ => none

instance : Wired Signature where
  schema := .recordOf [("bytes", .bytes none)]
  toDatum s := .record [.bytes s.bytes]
  ofDatum?
    | .record [.bytes b] => some ⟨b⟩
    | _ => none

/-! ## 3. What a transaction does -/

/-- **An amount for an account.**  In a transfer a negative amount debits the account. -/
structure AccountAmount where
  accountId : AccountId
  amount : Int64
deriving DecidableEq

/-- **A new account**: who controls it, and what the payer puts into it. -/
structure Creation where
  key : PublicKey
  initialBalance : UInt64
  autoRenewSeconds : Int64
deriving DecidableEq

/-- **A change to an account.**  What is absent stays as it is; a new key signs after the old one. -/
structure Update where
  accountId : AccountId
  key : Option PublicKey
  autoRenewSeconds : Option Int64
deriving DecidableEq

/-- **The end of an account**, and who receives what it still holds. -/
structure Deletion where
  accountId : AccountId
  beneficiary : AccountId
deriving DecidableEq

/-- **What a transaction does.** -/
inductive Payload where
  | create (c : Creation)
  | transfer (legs : List AccountAmount)
  | update (u : Update)
  | delete (d : Deletion)
deriving DecidableEq

/-- **The short name** of what a transaction does. -/
def Payload.name : Payload → String
  | .create _ => "crypto_create_account"
  | .transfer _ => "crypto_transfer"
  | .update _ => "crypto_update_account"
  | .delete _ => "crypto_delete_account"

instance : Wired AccountAmount where
  schema := .recordOf [("account_id", Wired.schema AccountId), ("amount", Wired.schema Int64)]
  toDatum a := .record [Wired.toDatum a.accountId, Wired.toDatum a.amount]
  ofDatum?
    | .record [account, amount] => do
      return ⟨← Wired.ofDatum? account, ← Wired.ofDatum? amount⟩
    | _ => none

instance [SignatureScheme] : Wired Creation where
  schema := .recordOf
    [("key", Wired.schema PublicKey), ("initial_balance", Wired.schema UInt64),
      ("auto_renew_period_seconds", Wired.schema Int64)]
  toDatum c := .record
    [Wired.toDatum c.key, Wired.toDatum c.initialBalance, Wired.toDatum c.autoRenewSeconds]
  ofDatum?
    | .record [key, balance, seconds] => do
      return ⟨← Wired.ofDatum? key, ← Wired.ofDatum? balance, ← Wired.ofDatum? seconds⟩
    | _ => none

/-- **Transfers on the wire**: a record of their legs. -/
def Transfer.schema : Schema :=
  .recordOf [("transfers", Wired.schema (List AccountAmount))]

instance [SignatureScheme] : Wired Update where
  schema := .recordOf
    [("account_id", Wired.schema AccountId), ("key", Wired.schema (Option PublicKey)),
      ("auto_renew_period_seconds", Wired.schema (Option Int64))]
  toDatum u := .record
    [Wired.toDatum u.accountId, Wired.toDatum u.key, Wired.toDatum u.autoRenewSeconds]
  ofDatum?
    | .record [account, key, seconds] => do
      return ⟨← Wired.ofDatum? account, ← Wired.ofDatum? key, ← Wired.ofDatum? seconds⟩
    | _ => none

instance : Wired Deletion where
  schema := .recordOf
    [("delete_account_id", Wired.schema AccountId), ("transfer_account_id", Wired.schema AccountId)]
  toDatum d := .record [Wired.toDatum d.accountId, Wired.toDatum d.beneficiary]
  ofDatum?
    | .record [account, beneficiary] => do
      return ⟨← Wired.ofDatum? account, ← Wired.ofDatum? beneficiary⟩
    | _ => none

instance [SignatureScheme] : Wired Payload where
  schema := .choiceOf
    [("CryptoCreateAccount", .wrapped, Wired.schema Creation),
      ("CryptoTransfer", .wrapped, Transfer.schema),
      ("CryptoUpdateAccount", .wrapped, Wired.schema Update),
      ("CryptoDeleteAccount", .wrapped, Wired.schema Deletion)]
  toDatum
    | .create c => .choice 0 (Wired.toDatum c)
    | .transfer legs => .choice 1 (.record [Wired.toDatum legs])
    | .update u => .choice 2 (Wired.toDatum u)
    | .delete d => .choice 3 (Wired.toDatum d)
  ofDatum?
    | .choice 0 c => (Wired.ofDatum? c).map .create
    | .choice 1 (.record [legs]) => (Wired.ofDatum? legs).map .transfer
    | .choice 2 u => (Wired.ofDatum? u).map .update
    | .choice 3 d => (Wired.ofDatum? d).map .delete
    | _ => none

/-! ## 4. Bodies and envelopes -/

/-- **The body of a transaction.** -/
structure TransactionBody where
  id : TransactionId
  /-- The node the transaction is meant for. -/
  node : AccountId
  /-- The most that the payer agrees to pay. -/
  fee : UInt64
  /-- For how many seconds after its start the transaction is valid. -/
  validSeconds : Int64
  /-- The record is to be listed in the history of the payer. -/
  listed : Bool
  memo : String
  payload : Payload
deriving DecidableEq

instance [SignatureScheme] : Wired TransactionBody where
  schema := .recordOf
    [("transaction_id", Wired.schema TransactionId), ("node_account_id", Wired.schema AccountId),
      ("transaction_fee", Wired.schema UInt64), ("valid_duration_seconds", Wired.schema Int64),
      ("generate_record", Wired.schema Bool), ("memo", Wired.schema String),
      ("data", Wired.schema Payload)]
  toDatum b := .record
    [Wired.toDatum b.id, Wired.toDatum b.node, Wired.toDatum b.fee, Wired.toDatum b.validSeconds,
      Wired.toDatum b.listed, Wired.toDatum b.memo, Wired.toDatum b.payload]
  ofDatum?
    | .record [id, node, fee, seconds, listed, memo, payload] => do
      return ⟨← Wired.ofDatum? id, ← Wired.ofDatum? node, ← Wired.ofDatum? fee,
        ← Wired.ofDatum? seconds, ← Wired.ofDatum? listed, ← Wired.ofDatum? memo,
        ← Wired.ofDatum? payload⟩
    | _ => none

/-- **A signed transaction**: the bytes of a body, and signatures in the order they were given. -/
structure SignedTransaction where
  bodyBytes : Bytes
  signatures : List Signature
deriving DecidableEq

instance : Wired SignedTransaction where
  schema := .recordOf
    [("body_bytes", .bytes none), ("signatures", Wired.schema (List Signature))]
  toDatum t := .record [.bytes t.bodyBytes, Wired.toDatum t.signatures]
  ofDatum?
    | .record [.bytes b, signatures] => do return ⟨b, ← Wired.ofDatum? signatures⟩
    | _ => none

/-- **The body that the bytes of an envelope spell.** -/
def SignedTransaction.body [SignatureScheme] (t : SignedTransaction) : Except Fault TransactionBody :=
  Wired.ofBytes t.bodyBytes

end ShardLedger
