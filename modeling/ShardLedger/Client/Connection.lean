import ShardLedger.Error
import ShardLedger.TransactionId
/-
Connections: one request and its reply, under a deadline.

Two clocks matter.  The wall clock is what timestamps are read from.  The other clock, the steady one,
counts nanoseconds from some beginning and is what deadlines and waits are measured by; it stands still
while code runs and goes on only while everything waits.  A timer says when waits end.

Code runs in turns.  Within one turn a wait whose end has come already goes by at once, but only so many
of them: then the turn is over, and the next one begins at the same instant.

A channel decides at once what becomes of a request, and says when its reply will be there.
-/

set_option autoImplicit false

namespace ShardLedger

/-! ## 1. The steady clock -/

/-- **An instant of the steady clock**, in nanoseconds. -/
abbrev Instant := Nat

/-- **Nanoseconds in a millisecond.** -/
def nanosPerMilli : Nat := 1000000

/-- **A timer**: when the waits end that begin at an instant. -/
structure Timer where
  /-- When a pause ends. -/
  pauseEnd : Instant → Duration → Instant
  /-- When a deadline falls. -/
  deadline : Instant → Duration → Instant

namespace Timer

/-- **The exact timer.** -/
def exact : Timer where
  pauseEnd now d := now + d.total
  deadline now d := now + d.total

/-- **The last instant** at which a wait can end. -/
def lastInstant : Instant := (2 ^ 64 - 3) * nanosPerMilli

/-- **Thirty years**, in nanoseconds. -/
def thirtyYears : Nat := 946080000 * nanosPerSecond

/-- **The next whole millisecond**, unless the instant is on one. -/
def tick (t : Instant) : Instant :=
  min lastInstant ((t + (nanosPerMilli - 1)) / nanosPerMilli * nanosPerMilli)

/-- **The time to a deadline.**  One too far off to be counted in seconds stands for thirty years. -/
def countable (now : Instant) (d : Duration) : Nat :=
  if now + d.total < (2 ^ 63 - 1) * nanosPerSecond then d.total else thirtyYears

/-- **The timer of milliseconds**: waits end on whole milliseconds, and no pause is longer than thirty
years. -/
def milliseconds : Timer where
  pauseEnd now d := if d.total = 0 then now else tick (now + min d.total thirtyYears)
  deadline now d := if d.total = 0 then now else tick (now + countable now d)

end Timer

/-! ## 2. Channels -/

/-- **What becomes of a request.** -/
inductive Delivery where
  /-- No reply will come. -/
  | never
  /-- The reply is there at once. -/
  | atOnce (reply : Except TransportError Response)
  /-- The reply comes after a pause. -/
  | after (delay : Duration) (reply : Except TransportError Response)

/-- **A channel** to a node in a world `σ`. -/
structure Channel (σ : Type) where
  /-- The address of the peer. -/
  address : String
  /-- Send a request, at a reading of the wall clock. -/
  call : (now : Timestamp) → Request → σ → Delivery × σ
  /-- Let go of what the channel holds. -/
  close : σ → σ

/-- **A connection**: a channel, the deadline of its requests, and the timer of its waits. -/
structure Connection (σ : Type) where
  channel : Channel σ
  requestTimeout : Duration := Duration.ofSeconds 10
  timer : Timer := .milliseconds

/-! ## 3. The state of a client -/

/-- **How many waits may end in one turn.** -/
def turnAllowance : Nat := 128

/-- **The state of a client** on its connection. -/
structure ClientState (σ : Type) where
  /-- The wall clock. -/
  wall : Timestamp
  /-- The steady clock. -/
  now : Instant := 0
  /-- How many waits may still end in this turn. -/
  allowance : Nat := turnAllowance
  /-- The mint of identifiers. -/
  mint : Mint := .fresh
  /-- The connection is closed. -/
  closed : Bool := false
  world : σ

namespace ClientState

variable {σ : Type}

/-- **End a wait** for an instant in this turn, if that instant has come and the turn allows it. -/
def endWait? (s : ClientState σ) (t : Instant) : Option (ClientState σ) :=
  if t ≤ s.now ∧ 0 < s.allowance then some { s with allowance := s.allowance - 1 } else none

/-- **A new turn**, not before an instant. -/
def newTurn (s : ClientState σ) (t : Instant) : ClientState σ :=
  { s with now := max s.now t, allowance := turnAllowance }

/-- **Wait until an instant.**  If the wait cannot end in this turn, it ends in the next one that
begins when its instant has come. -/
def waitUntil (s : ClientState σ) (t : Instant) : ClientState σ :=
  match s.endWait? t with
  | some s => s
  | none => { s.newTurn t with allowance := turnAllowance - 1 }

end ClientState

/-- **A client operation**: it changes the state, also when it fails. -/
abbrev ClientM (σ : Type) := ExceptT ClientError (StateM (ClientState σ))

/-! ## 4. Requests -/

/-- **A request under way**: the instant it waits for, if it waits, and how it ends then. -/
structure Pending where
  due : Option Instant
  result : Except ClientError Response

namespace Connection

variable {σ : Type}

/-- **How a request ends**: with its reply, or at the deadline if the reply comes after it.  A reply
at the very deadline is in time. -/
def pendingOf (c : Connection σ) (now : Instant) (d : Delivery) : Pending :=
  let deadline := c.timer.deadline now c.requestTimeout
  match d with
  | .never => ⟨some deadline, .error (.timeout c.requestTimeout)⟩
  | .atOnce reply => ⟨none, reply.mapError .submission⟩
  | .after delay reply =>
    let arrival := c.timer.pauseEnd now delay
    if arrival ≤ deadline then ⟨some arrival, reply.mapError .submission⟩
    else ⟨some deadline, .error (.timeout c.requestTimeout)⟩

/-- **Send a request**, unless the connection is closed. -/
def send (c : Connection σ) (request : Request) : ClientM σ Pending := do
  let s ← get
  if s.closed then throw .connectionClosed
  else do
    let (delivery, world) := c.channel.call s.wall request s.world
    set { s with world := world }
    return c.pendingOf s.now delivery

/-- **Wait for the end of a request**, if it is not there at once. -/
def await (p : Pending) : ClientM σ Response := do
  match p.due with
  | some t => modify fun s => s.waitUntil t
  | none => pure ()
  match p.result with
  | .ok response => return response
  | .error e => throw e

/-- **One round trip.** -/
def call (c : Connection σ) (request : Request) : ClientM σ Response := do
  await (← c.send request)

/-- **Close the connection.**  To close it again does nothing. -/
def close (c : Connection σ) : ClientM σ Unit :=
  modify fun s =>
    if s.closed then s else { s with closed := true, world := c.channel.close s.world }

/-- **The short form** of a connection. -/
def shortText (c : Connection σ) (closed : Bool) : String :=
  "Connection \x7b address: " ++ Text.quoted c.channel.address ++ ", closed: "
    ++ (if closed then "true" else "false") ++ " \x7d"

end Connection

end ShardLedger
