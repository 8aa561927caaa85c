import ShardLedger.Duration
import ShardLedger.Message
/-
What can go wrong for a client.

An error means that the client never learned the verdict of the node, or did not ask because the
input was wrong on its face.  A verdict that is not favourable is no error but an answer.  Errors are
causes; their wording is in one place.
-/

set_option autoImplicit false

namespace ShardLedger

open Wire

/-! ## 1. The channel -/

/-- **Why a frame was refused.** -/
inductive FrameFault where
  /-- The frame or its content does not decode. -/
  | undecodable (fault : Fault)
  /-- The response has no outcome. -/
  | noOutcome
  /-- The response carries another identifier than the request. -/
  | otherId (got : Json) (wanted : UInt64)

/-- **The message of a refused frame.** -/
def FrameFault.message : FrameFault → String
  | .undecodable fault => fault.message
  | .noOutcome => "response has neither result nor error"
  | .otherId got wanted =>
    "response id " ++ got.text ++ " does not match request id "
      ++ String.ofList (Text.digits wanted.toNat)

/-- **Failures of the channel** between client and node. -/
inductive TransportError where
  /-- The socket failed. -/
  | io
  /-- The channel is closed, by the peer or here. -/
  | closed
  /-- The node cannot be reached at all. -/
  | unreachable
  /-- A frame was refused. -/
  | frame (fault : FrameFault)
  /-- The node answered with an error. -/
  | rpc (code : Int32) (message : String)

/-- **The message of a channel failure.** -/
def TransportError.message : TransportError → String
  | .io => "i/o error"
  | .closed => "channel closed"
  | .unreachable => "node unreachable"
  | .frame fault => "malformed frame: " ++ fault.message
  | .rpc code message =>
    "rpc error " ++ String.ofList (Text.integer code.toInt) ++ ": " ++ message

/-! ## 2. The client -/

/-- **A part of a transaction** that must be given. -/
inductive Field where
  | operator
  | transactionId
  | node
  | key
  | beneficiary
deriving DecidableEq, Repr

/-- **The name of a part** in messages. -/
def Field.name : Field → String
  | .operator => "operator"
  | .transactionId => "transaction_id"
  | .node => "node"
  | .key => "key"
  | .beneficiary => "transfer_account"

/-- **What a response should have been.** -/
inductive Expected where
  | precheck
  | accountBalance
  | accountInfo
  | accountRecords
  | transactionReceipt
  | transactionRecord
deriving DecidableEq, Repr

/-- **The name of an expected response** in messages. -/
def Expected.name : Expected → String
  | .precheck => "transaction precheck"
  | .accountBalance => "account balance"
  | .accountInfo => "account info"
  | .accountRecords => "account records"
  | .transactionReceipt => "transaction receipt"
  | .transactionRecord => "transaction record"

/-- **Errors of client operations.** -/
inductive ClientError where
  /-- No channel to the address could be made. -/
  | connection (address : String) (cause : TransportError)
  /-- The connection was closed before. -/
  | connectionClosed
  /-- The channel failed; the node may have received the request or not. -/
  | submission (cause : TransportError)
  /-- No reply came in time. -/
  | timeout (after : Duration)
  /-- The amounts of a transfer do not sum to zero. -/
  | unbalancedTransfer (sum : Int)
  /-- Accounts may not renew in this period. -/
  | autoRenewPeriod (period : Duration)
  /-- A part of the transaction was never given. -/
  | missingField (field : Field)
  /-- The body has changed since it was signed. -/
  | staleSignature
  /-- The node refused a query whose answer is needed. -/
  | preCheck (status : Status)
  /-- The response does not match the request. -/
  | unexpectedResponse (expected : Expected)

/-- **The message of a client error.** -/
def ClientError.message : ClientError → String
  | .connection address cause => "failed to connect to " ++ address ++ ": " ++ cause.message
  | .connectionClosed => "connection is closed"
  | .submission cause => "submission failed: " ++ cause.message
  | .timeout after => "request timed out after " ++ after.text
  | .unbalancedTransfer sum =>
    "transfer amounts do not net to zero (sum " ++ String.ofList (Text.integer sum) ++ ")"
  | .autoRenewPeriod period =>
    "auto-renew period " ++ period.text ++ " is outside the accepted range"
  | .missingField field => "missing required field: " ++ field.name
  | .staleSignature => "transaction body changed after it was signed"
  | .preCheck status => "node rejected the request: " ++ status.text
  | .unexpectedResponse expected => "unexpected response: expected " ++ expected.name

end ShardLedger
