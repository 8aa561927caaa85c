import ShardLedger.Client.Link
/-
Calls one after the other, against a peer of which nothing is known.

Only one call has the link, so that calls follow each other.  A call that has the link writes its line and
then reads until it can return.  It may be given up at either, and the socket may fail at either; and it
may be given up before, while it waits for the link, when it has done nothing yet.

The peer may send any bytes whatever.  They arrive a few at a time, and after the last of them the peer may
close its end.  Bytes that were not used yet are kept in one place, wherever on the way they are.
-/

set_option autoImplicit false

namespace ShardLedger

/-! ## 1. Calls -/

/-- **What happens to a call** that has the link, apart from the bytes that the peer sends. -/
inductive Progress where
  /-- It is given up in the middle of its line. -/
  | cutOff
  /-- The socket fails in the middle of its line. -/
  | unwritten
  /-- Its line is written, and so many bytes arrive at a time.  If it has not returned with the last of
  them, the socket fails or the call is given up. -/
  | written (portions : List Nat) (fails : Bool)

/-- **A call that is made**: what it asks, and what happens to it.  It is given up while it waits for the
link if nothing does. -/
structure Attempt where
  request : Request
  progress : Option Progress

/-- **How a call ends.** -/
inductive Ending where
  /-- It was given up, but not in the middle of its line. -/
  | left
  /-- It was given up in the middle of its line. -/
  | cut
  /-- It has returned.  If it has read the reply to its own line, that is `reply`. -/
  | returned (result : Except TransportError Response) (reply : Option Rpc.ResponseEnvelope)

/-! ## 2. The caller -/

/-- **The side of the caller**: the link, and what comes from the peer. -/
structure Caller where
  link : Link
  /-- Bytes of the peer that were not used yet. -/
  unused : Bytes
  /-- The peer closes its end after them. -/
  closes : Bool

/-- **The reply that a call finds** among the bytes that have arrived: the first line that bears its
identifier, unless reading fails before. -/
def Link.reply? (l : Link) (o : Outgoing) (arrived : Bytes) (ended : Bool) :
    Option Rpc.ResponseEnvelope :=
  match l.stream with
  | none => none
  | some s =>
    match readOn o.id ended s.unfinished arrived with
    | .reply r _ => some r
    | .more _ | .failed _ => none

namespace Caller

/-- **A caller on a new stream.** -/
def start (sent : Bytes) (closes : Bool) : Caller :=
  ⟨.opened, sent, closes⟩

variable [SignatureScheme]

/-- **A call reads**, portion by portion. -/
def read (o : Outgoing) : (portions : List Nat) → (fails : Bool) → Caller → Ending × Caller
  | [], false, s => (.left, s)
  | [], true, s => (.returned (.error .io) none, { s with link := s.link.dropped })
  | n :: portions, fails, s =>
    let later := s.unused.drop n
    let ended := s.closes && later.isEmpty
    let reply := s.link.reply? o (s.unused.take n) ended
    match s.link.receive o (s.unused.take n) ended with
    | (none, link, rest) => read o portions fails { s with link := link, unused := rest ++ later }
    | (some result, link, rest) =>
      (.returned result reply, { s with link := link, unused := rest ++ later })

/-- **A call goes on** once it has begun. -/
def goOn (s : Caller) (o : Outgoing) : Progress → Ending × Caller
  | .cutOff => (.cut, s)
  | .unwritten => (.returned (.error .io) none, { s with link := s.link.dropped })
  | .written portions fails => read o portions fails { s with link := s.link.written }

/-- **A call is made.** -/
def attempt (s : Caller) (a : Attempt) : Ending × Caller :=
  match a.progress with
  | none => (.left, s)
  | some progress =>
    match s.link.begin a.request with
    | (.error e, link) => (.returned (.error e) none, { s with link := link })
    | (.ok o, link) => goOn { s with link := link } o progress

/-- **The caller after calls.** -/
def run (s : Caller) (calls : List Attempt) : Caller :=
  calls.foldl (fun s a => (s.attempt a).2) s

/-- **How calls end**, in order. -/
def endings : Caller → List Attempt → List Ending
  | _, [] => []
  | s, a :: calls => (s.attempt a).1 :: endings (s.attempt a).2 calls

end Caller

end ShardLedger
