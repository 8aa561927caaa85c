import ShardLedger.Client.Connection
import ShardLedger.Transaction.Draft
/-
What a client does over a connection: asking questions and submitting transactions.

Every operation makes at most one request.  Whatever can be found wrong here is found before anything
is sent.
-/

set_option autoImplicit false

namespace ShardLedger

/-! ## 1. Queries -/

/-- **What answers a question.** -/
def Question.expected : Question → Expected
  | .accountBalance _ => .accountBalance
  | .accountInfo _ => .accountInfo
  | .accountRecords _ => .accountRecords
  | .transactionReceipt _ => .transactionReceipt
  | .transactionRecord _ => .transactionRecord

/-- **What kind of answer it is.** -/
def Answer.kind : Answer → Expected
  | .accountBalance _ _ => .accountBalance
  | .accountInfo _ => .accountInfo
  | .accountRecords _ _ => .accountRecords
  | .transactionReceipt _ => .transactionReceipt
  | .transactionRecord _ => .transactionRecord

/-- **The response of a node to a question**: one that answers another question is an error. -/
def Question.check (q : Question) (response : Response) : Except ClientError QueryResponse :=
  match response with
  | .transaction _ => .error (.unexpectedResponse q.expected)
  | .query r => if r.answer.all (·.kind = q.expected) then .ok r
    else .error (.unexpectedResponse q.expected)

/-- **The response of a node to a request for the cost**: its answer does not matter. -/
def Question.checkCost (q : Question) (response : Response) : Except ClientError QueryResponse :=
  match response with
  | .transaction _ => .error (.unexpectedResponse q.expected)
  | .query r => .ok r

namespace Connection

variable {σ : Type}

/-- **Ask a question.** -/
def ask (c : Connection σ) (q : Question) : ClientM σ QueryResponse := do
  let response ← c.call (.query ⟨.answer, q⟩)
  ExceptT.mk (pure (q.check response))

/-- **Ask what the answer to a question costs.** -/
def askCost (c : Connection σ) (q : Question) : ClientM σ QueryResponse := do
  let response ← c.call (.query ⟨.cost, q⟩)
  ExceptT.mk (pure (q.checkCost response))

/-- **Ask for the answer itself**; a node that refuses is an error here. -/
def answer (c : Connection σ) (q : Question) : ClientM σ Answer := do
  let r ← c.ask q
  if r.precheck.isOk then
    match r.answer with
    | some a => return a
    | none => throw (.unexpectedResponse q.expected)
  else throw (.preCheck r.precheck)

end Connection

/-! ## 2. Submission -/

variable {σ : Type}

/-- **Sign a draft** at the wall clock. -/
def Draft.signNow [SignatureScheme] (d : Draft) (signer : Signer) : ClientM σ Draft :=
  ExceptT.mk fun s =>
    let (result, mint) := d.sign signer s.mint s.wall
    (result, { s with mint := mint })

/-- **Close a draft** at the wall clock. -/
def Draft.closeNow [SignatureScheme] (d : Draft) :
    ClientM σ (TransactionId × SignedTransaction) :=
  ExceptT.mk fun s =>
    let (result, mint) := d.close s.mint s.wall
    (result, { s with mint := mint })

/-- **Submit a draft** and give its identifier with the verdict of the node. -/
def Connection.execute [SignatureScheme] (c : Connection σ) (d : Draft) :
    ClientM σ (TransactionId × Status) := do
  let (id, t) ← d.closeNow
  match ← c.call (.transaction t) with
  | .transaction precheck => return (id, precheck)
  | .query _ => throw (.unexpectedResponse .precheck)

end ShardLedger
