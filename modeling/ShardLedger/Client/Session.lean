import ShardLedger.Client.Link
import ShardLedger.Ledger.Run
import ShardLedger.Rpc.Dispatch
/-
A client and a node at the two ends of a stream.

Calls may be made at any time, but only one has the link.  It writes its line and then reads until its
reply is there; the others wait.  A call may be given up while it waits for the link, while it waits for
its reply, or in the middle of its line.  The stream delivers bytes in order and without loss, a few at a
time.  Bytes that were sent and not yet used are kept in one place, wherever on the way they are, and be
it in a buffer of the receiver.  The line of a call is written with its last byte, because flushing a
socket does not wait.

A schedule is the list of what happens at either end.  Whatever cannot happen when its turn comes is
passed over, so that every list is a schedule.  What is done besides is a matter of history: it is
noted and never looked at.
-/

set_option autoImplicit false

namespace ShardLedger

open Wire

/-! ## 1. The session -/

/-- **The call that has the link.** -/
structure Holder where
  /-- The number of the call. -/
  call : Nat
  outgoing : Outgoing
  /-- What is left of the line to be written. -/
  left : Bytes

/-- **A line that the node has answered.** -/
structure Answered where
  line : Bytes
  now : Timestamp
  before : Ledger
  after : Ledger

/-- **A client and a node on one stream.** -/
structure Session where
  /-- The requests of all calls, by the number of the call. -/
  calls : List Request
  /-- The calls that wait for the link. -/
  waiting : List Nat
  link : Link
  holder : Option Holder
  /-- Bytes that the node has not used. -/
  toNode : Bytes
  /-- Bytes that the client has not used. -/
  toClient : Bytes
  ledger : Ledger
  /-- The node has closed the stream. -/
  hungUp : Bool
  /-- The calls whose lines were written, in order. -/
  sent : List Nat
  /-- The lines that the node has answered, in order. -/
  answered : List Answered
  /-- The calls that have returned, with their results. -/
  returned : List (Nat × Except TransportError Response)

/-- **What happens in a session.** -/
inductive Event where
  /-- A call is made. -/
  | call (r : Request)
  /-- A call that waits for the link is given up. -/
  | leave (call : Nat)
  /-- A call that waits gets the link. -/
  | take (call : Nat)
  /-- The stream accepts so many bytes of the line. -/
  | write (count : Nat)
  /-- The node answers a line. -/
  | answer (now : Timestamp)
  /-- So many bytes arrive, and the call reads on. -/
  | read (count : Nat)
  /-- The call that has the link is given up. -/
  | abandon
  /-- Something else is done to the ledger. -/
  | operate (op : Operation)

/-- **The requests of the calls** that a schedule makes. -/
def requestsOf (events : List Event) : List Request :=
  events.filterMap fun
    | .call r => some r
    | _ => none

namespace Session

variable [SignatureScheme]

/-- **A session on a new stream.** -/
def start (l : Ledger) : Session where
  calls := []
  waiting := []
  link := .opened
  holder := none
  toNode := []
  toClient := []
  ledger := l
  hungUp := false
  sent := []
  answered := []
  returned := []

/-- **A line is being written.** -/
def isWriting (s : Session) : Bool :=
  s.holder.any fun h => !h.left.isEmpty

/-! ## 2. The client -/

/-- **A call gets the link**, if it waits and no other has it. -/
def take (s : Session) (call : Nat) : Session :=
  match s.holder, s.calls[call]? with
  | none, some r =>
    if call ∈ s.waiting then
      let s := { s with waiting := s.waiting.erase call }
      match s.link.begin r with
      | (.error e, link) => { s with link := link, returned := s.returned ++ [(call, .error e)] }
      | (.ok o, link) => { s with link := link, holder := some ⟨call, o, o.line⟩ }
    else s
  | _, _ => s

/-- **A part of the line is written.**  With its last byte the line is. -/
def write (s : Session) (count : Nat) : Session :=
  match s.holder with
  | none => s
  | some h =>
    if h.left.isEmpty then s
    else
      let rest := h.left.drop count
      let s := { s with
        toNode := s.toNode ++ h.left.take count
        holder := some { h with left := rest } }
      if rest.isEmpty then { s with link := s.link.written, sent := s.sent ++ [h.call] } else s

/-- **The call reads on**, once its line is written. -/
def read (s : Session) (count : Nat) : Session :=
  match s.holder with
  | none => s
  | some h =>
    if h.left.isEmpty then
      let later := s.toClient.drop count
      match s.link.receive h.outgoing (s.toClient.take count) (s.hungUp && later.isEmpty) with
      | (none, link, rest) => { s with link := link, toClient := rest ++ later }
      | (some result, link, rest) =>
        { s with
          link := link
          toClient := rest ++ later
          holder := none
          returned := s.returned ++ [(h.call, result)] }
    else s

/-! ## 3. The node -/

/-- **The bytes of lines**, each with its line feed. -/
def bytesOf (lines : List Bytes) : Bytes :=
  lines.flatMap (· ++ [0x0A])

/-- **The line of a reply**, without its line feed. -/
def replyLine (e : Rpc.ResponseEnvelope) : Bytes :=
  Bytes.ofText (Wired.toJson e).text

/-- **The node answers the next line**, if there is a whole one. -/
def answer (c : Config) (s : Session) (now : Timestamp) : Session :=
  if s.hungUp then s
  else
    match Rpc.cutLines s.toNode with
    | ([], _) => s
    | (line :: lines, rest) =>
      let (replies, served, ledger) := Rpc.serveLines c now [line] s.ledger
      { s with
        toNode := bytesOf lines ++ rest
        toClient := s.toClient ++ bytesOf (replies.map replyLine)
        ledger := ledger
        hungUp := !served
        answered := s.answered ++ [⟨line, now, s.ledger, ledger⟩] }

/-! ## 4. Schedules -/

/-- **What an event does.** -/
def step (c : Config) (s : Session) : Event → Session
  | .call r => { s with calls := s.calls ++ [r], waiting := s.waiting ++ [s.calls.length] }
  | .leave call => { s with waiting := s.waiting.erase call }
  | .take call => s.take call
  | .write count => s.write count
  | .answer now => s.answer c now
  | .read count => s.read count
  | .abandon => { s with holder := none }
  | .operate op => { s with ledger := s.ledger.perform c op }

/-- **The session after a schedule.** -/
def run (c : Config) (s : Session) (events : List Event) : Session :=
  events.foldl (step c) s

/-- **The points of a schedule**: each event, with the session that it meets. -/
def points (c : Config) : Session → List Event → List (Session × Event)
  | _, [] => []
  | s, e :: es => (s, e) :: points c (s.step c e) es

end Session

end ShardLedger
