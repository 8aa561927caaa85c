import ShardLedger.Ledger.Submission
import ShardLedger.Message
/-
Answering queries, and requests of any kind.

Only one query changes anything: asking for a receipt counts as a poll, and so brings the receipt
nearer to being shown.  Records are shown together with the receipt.
-/

set_option autoImplicit false

namespace ShardLedger

/-- **Count a poll** of a receipt that is held back. -/
def Retained.polled (r : Retained) : Retained :=
  { r with remainingPolls := r.remainingPolls.map (· - 1) }

namespace Ledger

/-! ## 1. History -/

/-- **Put a record in its place** by consensus time, after others of the same time. -/
def insertByTime (r : Record) : List Record → List Record
  | [] => [r]
  | s :: rs => if s.consensus ≤ r.consensus then s :: insertByTime r rs else r :: s :: rs

/-- **The history of an account**: the listed records that are shown, in order of consensus. -/
def history (l : Ledger) (id : AccountId) : List Record :=
  (l.receipts.values.filter fun r =>
      r.listed && r.isRevealed && r.record.id.accountId = id).foldl
    (fun rs r => insertByTime r.record rs) []

/-! ## 2. Answers -/

/-- **The receipt that a poll shows**, and what is kept after it. -/
def pollReceipt (r : Retained) : Receipt × Retained :=
  if r.isRevealed then (r.record.receipt, r) else (.pending, r.polled)

/-- **Whether a question may be asked**, before its phase matters. -/
def admits (l : Ledger) : Question → Except Status Unit
  | .accountBalance id => (l.liveAccount id).map fun _ => ()
  | .accountInfo id => require (l.accounts.contains id) .invalidAccountId
  | .accountRecords id => require (l.accounts.contains id) .invalidAccountId
  | .transactionReceipt _ => .ok ()
  | .transactionRecord _ => .ok ()

/-- **What the answer to a question costs.**  Receipts are free. -/
def price (c : Config) : Question → UInt64
  | .transactionReceipt _ => 0
  | _ => c.queryCost

/-- **The answer to a question**, or the status that stands in for it. -/
def answer (l : Ledger) : Question → Except Status (Answer × Ledger)
  | .accountBalance id => do
    let a ← l.liveAccount id
    return (.accountBalance id a.balance, l)
  | .accountInfo id =>
    match l.accounts.get? id with
    | some a => .ok (.accountInfo (a.info id), l)
    | none => .error .invalidAccountId
  | .accountRecords id =>
    if l.accounts.contains id then .ok (.accountRecords id (l.history id), l)
    else .error .invalidAccountId
  | .transactionReceipt id =>
    match l.receipts.get? id with
    | some r =>
      let (receipt, r) := pollReceipt r
      .ok (.transactionReceipt receipt, { l with receipts := l.receipts.set id r })
    | none => .error .receiptNotFound
  | .transactionRecord id =>
    match l.receipts.get? id with
    | some r => if r.isRevealed then .ok (.transactionRecord r.record, l) else .error .recordNotFound
    | none => .error .recordNotFound

/-- **Answer a query.** -/
def ask (c : Config) (l : Ledger) (q : Query) : QueryResponse × Ledger :=
  match q.phase with
  | .cost =>
    match l.admits q.question with
    | .error status => (⟨status, .cost, 0, none⟩, l)
    | .ok () => (⟨.ok, .cost, price c q.question, none⟩, l)
  | .answer =>
    match l.answer q.question with
    | .error status => (⟨status, .answer, 0, none⟩, l)
    | .ok (a, l) => (⟨.ok, .answer, 0, some a⟩, l)

/-! ## 3. Requests -/

/-- **Handle a request.** -/
def handle [SignatureScheme] (c : Config) (l : Ledger) (r : Request) (now : Timestamp) :
    Response × Ledger :=
  match r with
  | .transaction t =>
    let (status, l) := l.submit c t now
    (.transaction status, l)
  | .query q =>
    let (response, l) := l.ask c q
    (.query response, l)

end Ledger

end ShardLedger
