import ShardLedger.Client.Backoff
import ShardLedger.Client.Operations
/-
Waiting for the outcome of a transaction.

A resolver polls for a receipt until it is final or a budget is spent.  A budget that is spent leaves
the outcome open: the transaction may still succeed.  An error ends the waiting but not the resolver,
and no transaction is ever submitted again.

A resolver that has its outcome keeps it, and polls no more.
-/

set_option autoImplicit false

namespace ShardLedger

/-! ## 1. Outcomes -/

/-- **How the waiting ended.** -/
inductive Outcome where
  /-- The transaction was applied. -/
  | success (receipt : Receipt)
  /-- The transaction failed for good; without a receipt if the node refused the question. -/
  | failure (status : Status) (receipt : Option Receipt)
  /-- A budget was spent while the outcome was open. -/
  | unresolved (polls : Nat) (elapsed : Nat)
deriving DecidableEq

namespace Outcome

/-- **The transaction was applied.** -/
def isSuccess : Outcome → Bool
  | .success _ => true
  | _ => false

/-- **The final status**, if there is one. -/
def status? : Outcome → Option Status
  | .success receipt => some receipt.status
  | .failure status _ => some status
  | .unresolved _ _ => none

/-- **The account that a successful creation made.** -/
def accountId? : Outcome → Option AccountId
  | .success receipt => receipt.accountId
  | _ => none

end Outcome

/-- **What one poll tells.** -/
inductive Finding where
  /-- Nothing yet. -/
  | pending
  /-- The outcome. -/
  | final (o : Outcome)

/-- **The finding of a response** to a poll: a node that says "ask again later", and a receipt that is
not settled, tell nothing yet. -/
def findingOf (r : QueryResponse) : Except ClientError Finding :=
  if r.precheck.isTransient then .ok .pending
  else if ¬ r.precheck.isOk then .ok (.final (.failure r.precheck none))
  else
    match r.answer with
    | some (.transactionReceipt receipt) =>
      if receipt.status.isPending then .ok .pending
      else if receipt.status.isSuccess then .ok (.final (.success receipt))
      else .ok (.final (.failure receipt.status (some receipt)))
    | _ => .error (.unexpectedResponse .transactionReceipt)

/-! ## 2. Resolvers -/

/-- **Where a resolver stands.** -/
inductive ResolverState where
  /-- No poll was made. -/
  | submitted
  /-- So many polls were made, and the outcome is open. -/
  | polling (attempt : Nat)
  /-- The outcome is known, or given up. -/
  | resolved (o : Outcome)
deriving DecidableEq

/-- **A resolver** of one transaction. -/
structure Resolver where
  id : TransactionId
  policy : BackoffPolicy
  state : ResolverState
  /-- Polls made. -/
  polls : Nat
  /-- Polls that found nothing yet. -/
  pendingPolls : Nat
  /-- When the first poll was made. -/
  startedAt : Option Instant

namespace Resolver

/-- **A resolver that has not polled.** -/
def start (id : TransactionId) (policy : BackoffPolicy) : Resolver :=
  ⟨id, policy, .submitted, 0, 0, none⟩

/-- **The outcome**, if there is one. -/
def outcome? (r : Resolver) : Option Outcome :=
  match r.state with
  | .resolved o => some o
  | _ => none

/-- **The time since the first poll.** -/
def elapsed (r : Resolver) (now : Instant) : Nat :=
  now - r.startedAt.getD now

/-- **The question of every poll.** -/
def question (r : Resolver) : Question :=
  .transactionReceipt r.id

/-- **Begin a poll.** -/
def beginPoll (r : Resolver) (now : Instant) : Resolver :=
  { r with
    startedAt := some (r.startedAt.getD now)
    polls := r.polls + 1
    state := .polling (r.polls + 1) }

/-- **Both budgets allow another poll.** -/
def hasBudget (r : Resolver) (now : Instant) : Bool :=
  r.polls < r.policy.maxPolls.toNat && r.elapsed now < r.policy.maxElapsed.total

/-- **Take in a finding.** -/
def settle (r : Resolver) (now : Instant) : Finding → Resolver
  | .final o => { r with state := .resolved o }
  | .pending =>
    let r := { r with pendingPolls := r.pendingPolls + 1 }
    if r.hasBudget now then r
    else { r with state := .resolved (.unresolved r.polls (r.elapsed now)) }

/-- **End a poll** with the result of its request.  An error leaves the resolver as it is. -/
def endPoll (r : Resolver) (now : Instant) (result : Except ClientError Response) :
    Except ClientError (Option Outcome) × Resolver :=
  match (result.bind r.question.check).bind findingOf with
  | .error e => (.error e, r)
  | .ok finding =>
    let r := r.settle now finding
    (.ok r.outcome?, r)

/-- **The wait before the next poll**: what the policy says, and no longer than the time left. -/
def delay (r : Resolver) (now : Instant) : Duration :=
  min (r.policy.delayFor (UInt32.ofNat r.pendingPolls))
    ⟨r.policy.maxElapsed.total - r.elapsed now,
      Nat.lt_of_le_of_lt (Nat.sub_le _ _) r.policy.maxElapsed.total_lt⟩

end Resolver

/-! ## 3. Polling and resolving -/

namespace Connection

variable {σ : Type}

/-- **Make one poll**, unless the outcome is known.  Gives the resolver after the poll, with the
outcome if there is one now, or the error that the poll ended with. -/
def poll (c : Connection σ) (r : Resolver) :
    StateM (ClientState σ) (Except ClientError (Option Outcome) × Resolver) := do
  match r.outcome? with
  | some o => return (.ok (some o), r)
  | none =>
    let r := r.beginPoll (← get).now
    let result ← (c.call (.query ⟨.answer, r.question⟩)).run
    return r.endPoll (← get).now result

/-- **Poll and wait until there is an outcome**, with so many polls left after the next.  A poll that
leaves the outcome open has left polls in the budget, so the last case is never met. -/
def resolveWithin (c : Connection σ) : (left : Nat) → Resolver →
    StateM (ClientState σ) (Except ClientError Outcome)
  | left, r => do
    match ← c.poll r with
    | (.error e, _) => return .error e
    | (.ok (some o), _) => return .ok o
    | (.ok none, r) =>
      match left with
      | 0 => return .ok (.unresolved r.polls (r.elapsed (← get).now))
      | left + 1 => do
        modify fun s => s.waitUntil (c.timer.pauseEnd s.now (r.delay s.now))
        c.resolveWithin left r

/-- **Resolve**: poll and wait until there is an outcome. -/
def resolve (c : Connection σ) (r : Resolver) :
    StateM (ClientState σ) (Except ClientError Outcome) :=
  c.resolveWithin (r.policy.maxPolls.toNat - r.polls) r

end Connection

end ShardLedger
