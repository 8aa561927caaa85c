import ShardLedger.Record
/-
Requests to a node, and its responses.

A request submits a transaction or asks a question.  A question is asked in one of two phases: what
would the answer cost, or the answer itself.  Every response carries the verdict of the node's first
check.
-/

set_option autoImplicit false

namespace ShardLedger

open Wire

/-! ## 1. Questions -/

/-- **The phase of a query.** -/
inductive Phase where
  /-- Give the answer. -/
  | answer
  /-- Say only what the answer would cost. -/
  | cost
deriving DecidableEq, Repr

/-- **The wire name** of a phase. -/
def Phase.name : Phase → String
  | .answer => "answer_only"
  | .cost => "cost_answer"

/-- **What is asked.** -/
inductive Question where
  | accountBalance (id : AccountId)
  | accountInfo (id : AccountId)
  /-- Records of listed transactions that the account paid for. -/
  | accountRecords (id : AccountId)
  | transactionReceipt (id : TransactionId)
  | transactionRecord (id : TransactionId)
deriving DecidableEq

/-- **The short name** of a question. -/
def Question.name : Question → String
  | .accountBalance _ => "account_balance"
  | .accountInfo _ => "account_info"
  | .accountRecords _ => "account_records"
  | .transactionReceipt _ => "transaction_receipt"
  | .transactionRecord _ => "transaction_record"

/-- **A query**: a question in a phase. -/
structure Query where
  phase : Phase
  question : Question
deriving DecidableEq

/-! ## 2. Answers -/

/-- **An answer**; its variant tells which question it answers. -/
inductive Answer where
  | accountBalance (id : AccountId) (balance : UInt64)
  | accountInfo (info : AccountInfo)
  | accountRecords (id : AccountId) (records : List Record)
  | transactionReceipt (receipt : Receipt)
  | transactionRecord (record : Record)
deriving DecidableEq

/-- **The response to a query.** -/
structure QueryResponse where
  precheck : Status
  /-- The phase that was asked for. -/
  phase : Phase
  cost : UInt64
  /-- Present when the node answered. -/
  answer : Option Answer
deriving DecidableEq

/-! ## 3. Requests and responses -/

/-- **A request.** -/
inductive Request where
  | transaction (t : SignedTransaction)
  | query (q : Query)
deriving DecidableEq

/-- **The short name** of a request. -/
def Request.name : Request → String
  | .transaction _ => "transaction"
  | .query q => q.question.name

/-- **A response.** -/
inductive Response where
  | transaction (precheck : Status)
  | query (r : QueryResponse)
deriving DecidableEq

/-! ## 4. Wire forms -/

instance : Wired Phase where
  schema := .choiceOf [("answer_only", .unit, .record .nil), ("cost_answer", .unit, .record .nil)]
  toDatum
    | .answer => .choice 0 (.record [])
    | .cost => .choice 1 (.record [])
  ofDatum?
    | .choice 0 _ => some .answer
    | .choice 1 _ => some .cost
    | _ => none

/-- **A record with the one field** `account_id`. -/
def accountField : Schema :=
  .recordOf [("account_id", Wired.schema AccountId)]

/-- **A record with the one field** `transaction_id`. -/
def transactionField : Schema :=
  .recordOf [("transaction_id", Wired.schema TransactionId)]

instance : Wired Question where
  schema := .choiceOf
    [("account_balance", .fields, accountField), ("account_info", .fields, accountField),
      ("account_records", .fields, accountField),
      ("transaction_receipt", .fields, transactionField),
      ("transaction_record", .fields, transactionField)]
  toDatum
    | .accountBalance id => .choice 0 (.record [Wired.toDatum id])
    | .accountInfo id => .choice 1 (.record [Wired.toDatum id])
    | .accountRecords id => .choice 2 (.record [Wired.toDatum id])
    | .transactionReceipt id => .choice 3 (.record [Wired.toDatum id])
    | .transactionRecord id => .choice 4 (.record [Wired.toDatum id])
  ofDatum?
    | .choice 0 (.record [id]) => (Wired.ofDatum? id).map .accountBalance
    | .choice 1 (.record [id]) => (Wired.ofDatum? id).map .accountInfo
    | .choice 2 (.record [id]) => (Wired.ofDatum? id).map .accountRecords
    | .choice 3 (.record [id]) => (Wired.ofDatum? id).map .transactionReceipt
    | .choice 4 (.record [id]) => (Wired.ofDatum? id).map .transactionRecord
    | _ => none

instance : Wired Query where
  schema := .recordOf [("response_type", Wired.schema Phase), ("body", Wired.schema Question)]
  toDatum q := .record [Wired.toDatum q.phase, Wired.toDatum q.question]
  ofDatum?
    | .record [phase, question] => do
      return ⟨← Wired.ofDatum? phase, ← Wired.ofDatum? question⟩
    | _ => none

variable [SignatureScheme]

instance : Wired Answer where
  schema := .choiceOf
    [("account_balance", .fields,
        .recordOf [("account_id", Wired.schema AccountId), ("balance", Wired.schema UInt64)]),
      ("account_info", .wrapped, Wired.schema AccountInfo),
      ("account_records", .fields,
        .recordOf [("account_id", Wired.schema AccountId), ("records", Wired.schema (List Record))]),
      ("transaction_receipt", .wrapped, Wired.schema Receipt),
      ("transaction_record", .wrapped, Wired.schema Record)]
  toDatum
    | .accountBalance id balance => .choice 0 (.record [Wired.toDatum id, Wired.toDatum balance])
    | .accountInfo info => .choice 1 (Wired.toDatum info)
    | .accountRecords id records => .choice 2 (.record [Wired.toDatum id, Wired.toDatum records])
    | .transactionReceipt receipt => .choice 3 (Wired.toDatum receipt)
    | .transactionRecord record => .choice 4 (Wired.toDatum record)
  ofDatum?
    | .choice 0 (.record [id, balance]) => do
      return .accountBalance (← Wired.ofDatum? id) (← Wired.ofDatum? balance)
    | .choice 1 info => (Wired.ofDatum? info).map .accountInfo
    | .choice 2 (.record [id, records]) => do
      return .accountRecords (← Wired.ofDatum? id) (← Wired.ofDatum? records)
    | .choice 3 receipt => (Wired.ofDatum? receipt).map .transactionReceipt
    | .choice 4 record => (Wired.ofDatum? record).map .transactionRecord
    | _ => none

instance : Wired QueryResponse where
  schema := .recordOf
    [("precheck", Wired.schema Status), ("response_type", Wired.schema Phase),
      ("cost", Wired.schema UInt64), ("answer", Wired.schema (Option Answer))]
  toDatum r := .record
    [Wired.toDatum r.precheck, Wired.toDatum r.phase, Wired.toDatum r.cost, Wired.toDatum r.answer]
  ofDatum?
    | .record [precheck, phase, cost, answer] => do
      return ⟨← Wired.ofDatum? precheck, ← Wired.ofDatum? phase, ← Wired.ofDatum? cost,
        ← Wired.ofDatum? answer⟩
    | _ => none

omit [SignatureScheme] in
instance : Wired Request where
  schema := .choiceOf
    [("transaction", .wrapped, Wired.schema SignedTransaction),
      ("query", .wrapped, Wired.schema Query)]
  toDatum
    | .transaction t => .choice 0 (Wired.toDatum t)
    | .query q => .choice 1 (Wired.toDatum q)
  ofDatum?
    | .choice 0 t => (Wired.ofDatum? t).map .transaction
    | .choice 1 q => (Wired.ofDatum? q).map .query
    | _ => none

instance : Wired Response where
  schema := .choiceOf
    [("transaction", .fields, .recordOf [("precheck", Wired.schema Status)]),
      ("query", .wrapped, Wired.schema QueryResponse)]
  toDatum
    | .transaction precheck => .choice 0 (.record [Wired.toDatum precheck])
    | .query r => .choice 1 (Wired.toDatum r)
  ofDatum?
    | .choice 0 (.record [precheck]) => (Wired.ofDatum? precheck).map .transaction
    | .choice 1 r => (Wired.ofDatum? r).map .query
    | _ => none

end ShardLedger
