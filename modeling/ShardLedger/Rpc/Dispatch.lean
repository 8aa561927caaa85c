import ShardLedger.Ledger.Inquiry
import ShardLedger.Rpc.Envelope
import ShardLedger.Text.Blank
/-
The line protocol of a node.

A node answers every line that is not blank with one line.  Nothing that comes in makes it fail: a
line that cannot be answered is answered with an error.  A stream ends at a line that is not UTF-8.
-/

set_option autoImplicit false

namespace ShardLedger

namespace Rpc

variable [SignatureScheme]

/-! ## 1. One line -/

/-- **The identifier of a line**, null if it has none. -/
def idOf (j : Json) : Json :=
  (j.get? "id").getD .null

/-- **Open the envelope of a parsed line.** -/
def openEnvelope (j : Json) : Except ErrorObject Request := do
  if (j.get? "jsonrpc").bind Json.string? ≠ some protocolVersion then
    .error (.invalidRequest "jsonrpc must be \"2.0\"")
  else
    match (j.get? "method").bind Json.string? with
    | none => .error (.invalidRequest "missing method")
    | some name =>
      if (Method.ofName? name).isNone then .error (.methodNotFound name)
      else do
        let envelope : RequestEnvelope ←
          (Wired.ofTree j).mapError fun fault => .invalidRequest fault.message
        envelope.request

/-- **Answer a line.** -/
def dispatch (c : Config) (l : Ledger) (line : List Char) (now : Timestamp) :
    ResponseEnvelope × Ledger :=
  match Json.ofChars? line with
  | none => (.failure .null (.parseError "line is not JSON"), l)
  | some j =>
    match openEnvelope j with
    | .error error => (.failure (idOf j) error, l)
    | .ok request =>
      let (response, l) := l.handle c request now
      (.ofResponse (idOf j) response, l)

/-! ## 2. A stream -/

/-- **The lines of a stream**, and what stands behind the last line feed. -/
def cutLines : Bytes → List Bytes × Bytes
  | [] => ([], [])
  | b :: bs =>
    let (lines, rest) := cutLines bs
    if b = 0x0A then ([] :: lines, rest)
    else
      match lines with
      | [] => ([], b :: rest)
      | line :: lines => ((b :: line) :: lines, rest)

/-- **The lines that a stream asks with**: the last one need not end. -/
def lines (stream : Bytes) : List Bytes :=
  let (lines, rest) := cutLines stream
  lines ++ (if rest.isEmpty then [] else [rest])

/-- **Answer the lines of a stream** one after the other.  Gives the replies, whether the stream ended
well, and the ledger left. -/
def serveLines (c : Config) (now : Timestamp) :
    List Bytes → Ledger → List ResponseEnvelope × Bool × Ledger
  | [], l => ([], true, l)
  | line :: rest, l =>
    match Bytes.toText? line with
    | none => ([], false, l)
    | some s =>
      if Text.isBlankText s.toList then serveLines c now rest l
      else
        let (reply, l) := dispatch c l s.toList now
        let (replies, served, l) := serveLines c now rest l
        (reply :: replies, served, l)

/-- **Serve a stream.** -/
def serve (c : Config) (l : Ledger) (stream : Bytes) (now : Timestamp) :
    List ResponseEnvelope × Bool × Ledger :=
  serveLines c now (lines stream) l

end Rpc

end ShardLedger
