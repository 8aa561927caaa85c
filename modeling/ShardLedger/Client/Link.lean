import ShardLedger.Rpc.Envelope
/-
The client's end of a stream.

Requests go out one line each, under identifiers that grow, and replies come back one line each.  A
call may be given up at any point.  What it leaves behind is taken care of by the next call: a reply
that comes too late carries an identifier that is too low and is skipped, and the part of a reply line
that was read already is kept.  Only a request line that was given up half-written cannot be mended.

Any other failure to make sense of the stream ends its use, and so does its own end; every later call
then fails without reading on.
-/

set_option autoImplicit false

namespace ShardLedger

open Wire

/-! ## 1. Text of reply lines -/

/-- **The character at the front of bytes**, and what follows it: the shortest valid UTF-8 sequence
of at most four bytes. -/
def Bytes.takeChar? (b : Bytes) : Option (Char × Bytes) :=
  [1, 2, 3, 4].findSome? fun n =>
    match (toText? (b.take n)).map String.toList with
    | some [c] => some (c, b.drop n)
    | _ => none

/-- **What stands for a byte that is part of no character**: the replacement character, and an escape of
half of a surrogate pair.  The half spoils the string that it stands in, and that alone, since it is the
second of a pair and the character before it is no first.  The character keeps it from being read as
part of an escape that begins before it, where such a byte is a fault of syntax. -/
def spoiler : List Char :=
  '\uFFFD' :: "\\udc00".toList

/-- **The characters of a reply line.**  A byte that is part of no character spoils the string that it
stands in, so that only a string that is skipped may hold it; behind a backslash and outside of strings
it breaks the syntax.  The bound is never reached. -/
def replyChars : (bound : Nat) → Bytes → List Char
  | 0, _ => []
  | _, [] => []
  | bound + 1, b :: bs =>
    match Bytes.takeChar? (b :: bs) with
    | some (c, rest) => c :: replyChars bound rest
    | none => spoiler ++ replyChars bound bs

/-- **Read a reply line.** -/
def readReply (line : Bytes) : Except Fault Rpc.ResponseEnvelope :=
  Wired.ofChars (replyChars line.length line)

/-! ## 2. The link -/

/-- **A stream in use.** -/
structure Stream where
  /-- The part of a reply line that was read already. -/
  unfinished : Bytes
  /-- A request line is being written. -/
  writing : Bool
deriving DecidableEq

/-- **The client's end of a stream**: the stream, while it is in use, and the next identifier. -/
structure Link where
  stream : Option Stream
  nextId : UInt64
deriving DecidableEq

/-- **A call under way**: its identifier, its method, and the line to be written. -/
structure Outgoing where
  id : UInt64
  method : Rpc.Method
  line : Bytes

/-- **How far reading has come.** -/
inductive Reading where
  /-- The reply is not there yet; this part of a line is. -/
  | more (unfinished : Bytes)
  /-- The reply, and what follows it. -/
  | reply (r : Rpc.ResponseEnvelope) (rest : Bytes)
  /-- The stream is of no more use. -/
  | failed (e : TransportError)

/-- **What a reply line is to a call.** -/
inductive Relevance where
  /-- It is the reply. -/
  | current (r : Rpc.ResponseEnvelope)
  /-- It is the reply to a call that was given up. -/
  | stale
  /-- It is neither. -/
  | wrong (e : FrameFault)

/-- **Judge a reply line** by its identifier. -/
def judge (id : UInt64) (line : Bytes) : Relevance :=
  match readReply line with
  | .error fault => .wrong (.undecodable fault)
  | .ok r =>
    match r.id.natural? with
    | none => .wrong (.otherId r.id id)
    | some got =>
      if got = id then .current r
      else if got < id then .stale
      else .wrong (.otherId r.id id)

/-- **Read on**, byte by byte, until the reply is there or nothing is left.  At the end of the stream
a reply can no longer come. -/
def readOn (id : UInt64) (ended : Bool) : (unfinished : Bytes) → (arrived : Bytes) → Reading
  | unfinished, [] => if ended then .failed .closed else .more unfinished
  | unfinished, b :: bs =>
    if b = 0x0A then
      match judge id unfinished with
      | .current r => .reply r bs
      | .stale => readOn id ended [] bs
      | .wrong fault => .failed (.frame fault)
    else readOn id ended (unfinished ++ [b]) bs

namespace Link

/-- **A link on a new stream.** -/
def opened : Link :=
  ⟨some ⟨[], false⟩, 1⟩

/-- **A link whose stream is of no more use.** -/
def dropped (l : Link) : Link :=
  { l with stream := none }

/-- **Begin a call.**  A stream with a half-written line is given up. -/
def begin (l : Link) (request : Request) : Except TransportError Outgoing × Link :=
  match l.stream with
  | none => (.error .closed, l)
  | some s =>
    let id := l.nextId
    let l := { l with nextId := id + 1 }
    if s.writing then (.error .closed, l.dropped)
    else
      let envelope := Rpc.RequestEnvelope.ofRequest id request
      let line := Bytes.ofText (Wired.toJson envelope).text ++ [0x0A]
      (.ok ⟨id, envelope.method, line⟩, { l with stream := some { s with writing := true } })

/-- **The line of a call is written.** -/
def written (l : Link) : Link :=
  { l with stream := l.stream.map fun s => { s with writing := false } }

variable [SignatureScheme]

/-- **Go on with a call** whose line is written, with the bytes that have arrived.  Gives the result if
there is one, the link, and the bytes not used.  A reply that is an error, or whose result does not
decode, leaves the stream in use. -/
def receive (l : Link) (o : Outgoing) (arrived : Bytes) (ended : Bool) :
    Option (Except TransportError Response) × Link × Bytes :=
  match l.stream with
  | none => (some (.error .closed), l, arrived)
  | some s =>
    match readOn o.id ended s.unfinished arrived with
    | .more unfinished => (none, { l with stream := some { s with unfinished := unfinished } }, [])
    | .reply r rest =>
      (some (r.response o.method), { l with stream := some { s with unfinished := [] } }, rest)
    | .failed e => (some (.error e), l.dropped, [])

end Link

end ShardLedger
