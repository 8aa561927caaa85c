import ShardLedger.Limits
import ShardLedger.Record
import ShardLedger.Table
/-
The ledger: its state, and the moves that every transaction is made of.

A ledger holds accounts and the receipts of recent transactions.  Every change of a balance while a
transaction is applied is noted in a journal, from which the record is written; between transactions
the journal is empty.

Consensus is immediate.  Only the sight of a receipt is held back, for so many polls as the settings
say, or for ever.
-/

set_option autoImplicit false

namespace ShardLedger

/-! ## 1. Settings -/

/-- **The settings of a ledger.** -/
structure Config where
  /-- The node accounts that transactions are accepted for. -/
  nodeAccounts : List AccountId := [AccountId.simple 3]
  /-- Polls that a receipt is held back for; absent, it is never shown. -/
  consensusPolls : Option UInt32 := some 1
  /-- What every accepted transaction is charged. -/
  transactionFee : UInt64 := defaultFee
  /-- What is asked for the answer to a paid query. -/
  queryCost : UInt64 := 25
  /-- The number of the first account that a transaction creates. -/
  firstAccountNumber : Int64 := 1001
  /-- How long receipts outlive the validity of their transaction. -/
  receiptRetention : Duration := defaultRetention
deriving DecidableEq

/-! ## 2. State -/

/-- **An account.** -/
structure Account where
  key : PublicKey
  balance : UInt64
  autoRenewSeconds : Int64
  expiration : Timestamp
  deleted : Bool
deriving DecidableEq

namespace Account

/-- **A new account.** -/
def opened (key : PublicKey) (balance : UInt64) (autoRenew : Duration) (now : Timestamp) : Account where
  key := key
  balance := balance
  autoRenewSeconds := Int64.ofNat autoRenew.seconds.toNat
  expiration := now.saturatingAdd autoRenew
  deleted := false

/-- **What is told of an account.** -/
def info (a : Account) (id : AccountId) : AccountInfo where
  accountId := id
  key := a.key
  balance := a.balance
  deleted := a.deleted
  autoRenewSeconds := a.autoRenewSeconds
  expiration := a.expiration

end Account

/-- **A receipt that is kept**, with its record. -/
structure Retained where
  record : Record
  /-- The record is listed in the history of the payer. -/
  listed : Bool
  /-- The end of the validity of the transaction. -/
  expiresAt : Timestamp
  /-- Polls left before the receipt is shown; absent, it is never shown. -/
  remainingPolls : Option UInt32
deriving DecidableEq

/-- **The receipt is shown.** -/
def Retained.isRevealed (r : Retained) : Bool :=
  r.remainingPolls = some 0

/-- **The state of a ledger.** -/
structure Ledger where
  accounts : Table AccountId Account
  receipts : Table TransactionId Retained
  /-- The number of the next account that a transaction creates. -/
  nextAccount : Int64
  /-- The consensus time of the last accepted transaction. -/
  lastConsensus : Timestamp
  /-- Net changes of balances by the transaction that is being applied. -/
  journal : Table AccountId Int

namespace Ledger

/-- **The empty ledger.** -/
def empty (c : Config) : Ledger where
  accounts := .empty
  receipts := .empty
  nextAccount := c.firstAccountNumber
  lastConsensus := .epoch
  journal := .empty

/-! ## 3. Accounts -/

/-- **An account that is there and not deleted**, or the status that says which it is not. -/
def liveAccount (l : Ledger) (id : AccountId) : Except Status Account :=
  match l.accounts.get? id with
  | none => .error .invalidAccountId
  | some a => if a.deleted then .error .accountDeleted else .ok a

/-- **The key of an account**, if it is there. -/
def keyOf? (l : Ledger) (id : AccountId) : Option PublicKey :=
  (l.accounts.get? id).map Account.key

/-- **Open an account directly**, in place of one of the same identifier. -/
def createAccount (l : Ledger) (id : AccountId) (key : PublicKey) (balance : UInt64)
    (now : Timestamp) : Ledger :=
  { l with accounts := l.accounts.set id (.opened key balance defaultAutoRenew now) }

/-- **The balance of an account.** -/
def balance? (l : Ledger) (id : AccountId) : Option UInt64 :=
  (l.accounts.get? id).map Account.balance

/-- **Overwrite the balance of an account**, if it is there. -/
def setBalance (l : Ledger) (id : AccountId) (balance : UInt64) : Ledger :=
  { l with accounts := l.accounts.adjust id fun a => { a with balance := balance } }

/-! ## 4. Moves of value -/

/-- **Add to the entry of an account**, which starts from zero. -/
def post (journal : Table AccountId Int) (id : AccountId) (delta : Int) : Table AccountId Int :=
  journal.set id ((journal.get? id).getD 0 + delta)

/-- **Take from an account**, and no more than it holds. -/
def debit (l : Ledger) (id : AccountId) (amount : UInt64) : Ledger :=
  match l.accounts.get? id with
  | none => l
  | some a =>
    let taken := min amount a.balance
    { l with
      accounts := l.accounts.set id { a with balance := a.balance - taken }
      journal := post l.journal id (-taken.toNat) }

/-- **Give to an account**, and no more than it has room for. -/
def credit (l : Ledger) (id : AccountId) (amount : UInt64) : Ledger :=
  match l.accounts.get? id with
  | none => l
  | some a =>
    let balance := saturateU64 (a.balance.toNat + amount.toNat)
    { l with
      accounts := l.accounts.set id { a with balance := balance }
      journal := post l.journal id (balance.toNat - a.balance.toNat) }

/-- **The net changes of a journal**, without zeros. -/
def netChanges (journal : Table AccountId Int) : List AccountAmount :=
  journal.entries.filterMap fun e =>
    if e.2 = 0 then none else (toI64? e.2).map fun amount => ⟨e.1, amount⟩

/-! ## 5. Time -/

/-- **The next consensus time**: the clock, or just after the last one if the clock is not. -/
def nextConsensus (l : Ledger) (now : Timestamp) : Timestamp :=
  if l.lastConsensus < now then now else l.lastConsensus.saturatingAdd ⟨1, by decide⟩

/-- **Drop the receipts that have been kept long enough.** -/
def prune (l : Ledger) (now : Timestamp) (retention : Duration) : Ledger :=
  { l with receipts := l.receipts.filter fun _ r => now < r.expiresAt.saturatingAdd retention }

end Ledger

end ShardLedger
