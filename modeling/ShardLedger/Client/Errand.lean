import ShardLedger.Client.Resolver
/-
Errands over a connection, and sharing it.

Whatever a client does over a connection is an errand: it submits a draft, asks a question or its cost, or
polls for a receipt.  An errand first does what it can do without the channel.  Then it has its result, or
it has one request ready and knows what to make of the response, or of the error in its place.

Errands may share a connection, with each other and with whoever closes it.  Then anything may happen
between two steps of an errand: between the look whether the connection is closed and the call of the
channel, and between the call and its end.  To close is two steps as well: the connection is marked first,
and only who has marked it lets the channel go.

A happening that cannot happen when its turn comes is passed over, so that every list of happenings is one
interleaving, also one in which an errand is given up on its way.  What comes of a call is whatever
happens to come.  How the channel was used is a matter of history: it is noted and never looked at.
-/

set_option autoImplicit false

namespace ShardLedger

/-! ## 1. Errands -/

/-- **What can be done over a connection.** -/
inductive Errand where
  /-- Submit a draft. -/
  | submit (d : Draft)
  /-- Ask a question. -/
  | ask (q : Question)
  /-- Ask what the answer to a question costs. -/
  | askCost (q : Question)
  /-- Ask for the answer itself. -/
  | answer (q : Question)
  /-- Poll for a receipt. -/
  | poll (r : Resolver)

/-- **What an errand gives**, if it ends well. -/
inductive Gain where
  | verdict (id : TransactionId) (precheck : Status)
  | response (r : QueryResponse)
  | answer (a : Answer)
  | outcome (o : Option Outcome)

/-- **The answer in a response**; a node that refuses is an error here. -/
def Question.answerIn (q : Question) (r : QueryResponse) : Except ClientError Answer :=
  if r.precheck.isOk then
    match r.answer with
    | some a => .ok a
    | none => .error (.unexpectedResponse q.expected)
  else .error (.preCheck r.precheck)

namespace Errand

/-- **A request that is ready**, and what is made, at an instant, of the response or of the error in its
place. -/
structure Order where
  request : Request
  conclude : Instant → Except ClientError Response → Except ClientError Gain

/-- **What an errand has come to** without the channel. -/
inductive Preparation where
  | done (result : Except ClientError Gain)
  | ordered (o : Order)

/-- **What is made of the response to a submission.** -/
def verdictOf (id : TransactionId) : Response → Except ClientError Gain
  | .transaction precheck => .ok (.verdict id precheck)
  | .query _ => .error (.unexpectedResponse .precheck)

variable [SignatureScheme]

/-- **Prepare an errand**, at readings of the two clocks. -/
def prepare (e : Errand) (mint : Mint) (wall : Timestamp) (now : Instant) : Preparation × Mint :=
  match e with
  | .submit d =>
    match d.close mint wall with
    | (.error error, mint) => (.done (.error error), mint)
    | (.ok (id, t), mint) => (.ordered ⟨.transaction t, fun _ result => result.bind (verdictOf id)⟩, mint)
  | .ask q =>
    (.ordered ⟨.query ⟨.answer, q⟩, fun _ result => (result.bind q.check).map .response⟩, mint)
  | .askCost q =>
    (.ordered ⟨.query ⟨.cost, q⟩, fun _ result => (result.bind q.checkCost).map .response⟩, mint)
  | .answer q =>
    (.ordered ⟨.query ⟨.answer, q⟩,
      fun _ result => ((result.bind q.check).bind q.answerIn).map .answer⟩, mint)
  | .poll r =>
    match r.outcome? with
    | some o => (.done (.ok (.outcome (some o))), mint)
    | none =>
      (.ordered ⟨.query ⟨.answer, r.question⟩,
        fun later result => ((r.beginPoll now).endPoll later result).1.map .outcome⟩, mint)

variable {σ : Type}

/-- **Do an errand** over a connection. -/
def run (c : Connection σ) : Errand → ClientM σ Gain
  | .submit d => do
    let (id, precheck) ← c.execute d
    return .verdict id precheck
  | .ask q => return .response (← c.ask q)
  | .askCost q => return .response (← c.askCost q)
  | .answer q => return .answer (← c.answer q)
  | .poll r => ExceptT.mk do
    let (result, _) ← c.poll r
    return result.map .outcome

end Errand

/-! ## 2. A connection that is shared -/

/-- **How far an errand has come.** -/
inductive Errand.Stage where
  /-- Its request is ready. -/
  | ready (o : Order)
  /-- The connection was found open. -/
  | admitted (o : Order)
  /-- The channel was called. -/
  | called (o : Order)
  | ended (result : Except ClientError Gain)

/-- **The stage behind a preparation.** -/
def Errand.Preparation.stage : Errand.Preparation → Errand.Stage
  | .done result => .ended result
  | .ordered o => .ready o

/-- **What comes of a call** of the channel: a reply, or none before the deadline. -/
abbrev Upshot := Option (Except TransportError Response)

/-- **The end of a request**, by what came of the call. -/
def Upshot.response (timeout : Duration) : Upshot → Except ClientError Response
  | some reply => reply.mapError .submission
  | none => .error (.timeout timeout)

/-- **An errand that is being done.** -/
structure Doing where
  errand : Errand
  stage : Errand.Stage

/-- **The result**, once there is one. -/
def Doing.result? (d : Doing) : Option (Except ClientError Gain) :=
  match d.stage with
  | .ended result => some result
  | _ => none

/-- **A use of the channel.** -/
inductive ChannelUse where
  /-- The channel is called for the errand at a place. -/
  | call (place : Nat) (r : Request)
  /-- It is let go. -/
  | close

/-- **A shared connection.**  Every errand has a place, which does not change. -/
structure Sharing where
  closed : Bool
  /-- How many have marked the connection and have yet to let the channel go. -/
  owed : Nat
  doings : List Doing
  /-- The uses of the channel, in order. -/
  uses : List ChannelUse

/-- **What happens on a shared connection.** -/
inductive Happening where
  /-- An errand is begun and prepared. -/
  | begin (e : Errand) (mint : Mint) (wall : Timestamp) (now : Instant)
  /-- An errand looks whether the connection is closed. -/
  | look (place : Nat) (now : Instant)
  /-- An errand that has found it open calls the channel. -/
  | call (place : Nat)
  /-- The request of an errand ends. -/
  | finish (place : Nat) (upshot : Upshot) (now : Instant)
  /-- Someone begins to close the connection and marks it, unless it is marked. -/
  | mark
  /-- Who has marked it lets the channel go. -/
  | letGo

namespace Sharing

/-- **A connection that nobody uses yet.** -/
def start (closed : Bool) : Sharing where
  closed := closed
  owed := 0
  doings := []
  uses := []

/-- **How far the errand at a place has come.** -/
def stage? (s : Sharing) (place : Nat) : Option Errand.Stage :=
  s.doings[place]?.map Doing.stage

/-- **Begin an errand**, at the next place. -/
def join (s : Sharing) (d : Doing) : Sharing :=
  { s with doings := s.doings ++ [d] }

/-- **Move the errand at a place on.** -/
def move (s : Sharing) (place : Nat) (stage : Errand.Stage) : Sharing :=
  { s with doings := s.doings.modify place fun d => { d with stage := stage } }

/-- **Note a use of the channel.** -/
def note (s : Sharing) (use : ChannelUse) : Sharing :=
  { s with uses := s.uses ++ [use] }

/-- **The requests that the channel was called with** for the errand at a place. -/
def callsOf (s : Sharing) (place : Nat) : List Request :=
  s.uses.filterMap fun
    | .call p r => if p = place then some r else none
    | .close => none

/-- **How many times the channel was let go.** -/
def closings (s : Sharing) : Nat :=
  s.uses.countP fun
    | .call _ _ => false
    | .close => true

variable [SignatureScheme]

/-- **What a happening does**, under the deadline of requests. -/
def step (timeout : Duration) (s : Sharing) : Happening → Sharing
  | .begin e mint wall now => s.join ⟨e, (e.prepare mint wall now).1.stage⟩
  | .look place now =>
    match s.stage? place with
    | some (.ready o) =>
      s.move place (if s.closed then .ended (o.conclude now (.error .connectionClosed)) else .admitted o)
    | _ => s
  | .call place =>
    match s.stage? place with
    | some (.admitted o) => (s.move place (.called o)).note (.call place o.request)
    | _ => s
  | .finish place upshot now =>
    match s.stage? place with
    | some (.called o) => s.move place (.ended (o.conclude now (upshot.response timeout)))
    | _ => s
  | .mark => if s.closed then s else { s with closed := true, owed := s.owed + 1 }
  | .letGo => if s.owed = 0 then s else { s with owed := s.owed - 1 }.note .close

/-- **The connection after happenings.** -/
def run (timeout : Duration) (s : Sharing) (happenings : List Happening) : Sharing :=
  happenings.foldl (step timeout) s

end Sharing

end ShardLedger
