import ShardLedger.Transaction.Body
/-
Receipts, records and account listings.

A receipt is the outcome of a transaction.  Until the outcome is settled it says so; a receipt of a
successful creation also names the new account.  A record is the receipt with what was charged and
moved.
-/

set_option autoImplicit false

namespace ShardLedger

open Wire

/-! ## 1. Receipts -/

/-- **The outcome of a transaction.** -/
structure Receipt where
  status : Status
  /-- The account that a successful creation made. -/
  accountId : Option AccountId
deriving DecidableEq

namespace Receipt

/-- **The receipt of a status** alone. -/
def ofStatus (status : Status) : Receipt :=
  ⟨status, none⟩

/-- **The receipt of a transaction whose outcome is not settled.** -/
def pending : Receipt :=
  ofStatus .unknown

/-- **Name the account that was made.**  Only a receipt of success takes a name. -/
def withAccountId (r : Receipt) (id : AccountId) : Receipt :=
  if r.status.isSuccess then { r with accountId := some id } else r

end Receipt

instance : Wired Receipt where
  schema := .recordOf
    [("status", Wired.schema Status), ("account_id", Wired.schema (Option AccountId))]
  toDatum r := .record [Wired.toDatum r.status, Wired.toDatum r.accountId]
  ofDatum?
    | .record [status, account] => do
      return ⟨← Wired.ofDatum? status, ← Wired.ofDatum? account⟩
    | _ => none

/-! ## 2. Records -/

/-- **What is remembered of a transaction** that reached consensus. -/
structure Record where
  id : TransactionId
  receipt : Receipt
  /-- The digest of the signed transaction as it was submitted. -/
  hash : Bytes
  consensus : Timestamp
  memo : String
  /-- The fee that was charged. -/
  fee : UInt64
  /-- Net changes of balances, fees included, one for each account in account order. -/
  transfers : List AccountAmount
deriving DecidableEq

instance : Wired Record where
  schema := .recordOf
    [("transaction_id", Wired.schema TransactionId), ("receipt", Wired.schema Receipt),
      ("transaction_hash", .bytes none), ("consensus_timestamp", Wired.schema Timestamp),
      ("memo", Wired.schema String), ("transaction_fee", Wired.schema UInt64),
      ("transfers", Wired.schema (List AccountAmount))]
  toDatum r := .record
    [Wired.toDatum r.id, Wired.toDatum r.receipt, .bytes r.hash, Wired.toDatum r.consensus,
      Wired.toDatum r.memo, Wired.toDatum r.fee, Wired.toDatum r.transfers]
  ofDatum?
    | .record [id, receipt, .bytes hash, consensus, memo, fee, transfers] => do
      return ⟨← Wired.ofDatum? id, ← Wired.ofDatum? receipt, hash, ← Wired.ofDatum? consensus,
        ← Wired.ofDatum? memo, ← Wired.ofDatum? fee, ← Wired.ofDatum? transfers⟩
    | _ => none

/-- **The net change** that a transaction made to an account, zero if it is not named.  The sum is
taken within its word. -/
def Record.netChange (r : Record) (id : AccountId) : Int64 :=
  (r.transfers.filter fun a => a.accountId = id).foldl (fun sum a => sum + a.amount) 0

/-! ## 3. Account listings -/

/-- **What is known of an account.** -/
structure AccountInfo where
  accountId : AccountId
  key : PublicKey
  balance : UInt64
  deleted : Bool
  autoRenewSeconds : Int64
  expiration : Timestamp
deriving DecidableEq

instance [SignatureScheme] : Wired AccountInfo where
  schema := .recordOf
    [("account_id", Wired.schema AccountId), ("key", Wired.schema PublicKey),
      ("balance", Wired.schema UInt64), ("deleted", Wired.schema Bool),
      ("auto_renew_period_seconds", Wired.schema Int64), ("expiration_time", Wired.schema Timestamp)]
  toDatum a := .record
    [Wired.toDatum a.accountId, Wired.toDatum a.key, Wired.toDatum a.balance,
      Wired.toDatum a.deleted, Wired.toDatum a.autoRenewSeconds, Wired.toDatum a.expiration]
  ofDatum?
    | .record [account, key, balance, deleted, seconds, expiration] => do
      return ⟨← Wired.ofDatum? account, ← Wired.ofDatum? key, ← Wired.ofDatum? balance,
        ← Wired.ofDatum? deleted, ← Wired.ofDatum? seconds, ← Wired.ofDatum? expiration⟩
    | _ => none

end ShardLedger
