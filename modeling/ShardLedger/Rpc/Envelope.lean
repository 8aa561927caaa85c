import ShardLedger.Error
/-
JSON-RPC envelopes.

Over a stream a request and its response travel as JSON-RPC 2.0 envelopes, one on each line.  The
method of the request says which type its parameters have, and which type the result of the response
will have.  A response has a result or an error.
-/

set_option autoImplicit false

namespace ShardLedger

open Wire

namespace Rpc

/-! ## 1. Envelopes -/

/-- **The version** that every envelope carries. -/
def protocolVersion : String := "2.0"

/-- **The methods** of a node. -/
inductive Method where
  | submit
  | query
deriving DecidableEq, Repr

/-- **The name of a method.** -/
def Method.name : Method → String
  | .submit => "ledger_submitTransaction"
  | .query => "ledger_query"

/-- **The method of a name.** -/
def Method.ofName? (name : String) : Option Method :=
  if name = Method.submit.name then some .submit
  else if name = Method.query.name then some .query
  else none

/-- **A request envelope.** -/
structure RequestEnvelope where
  version : String
  id : Json
  method : Method
  params : Json

/-- **An error object.** -/
structure ErrorObject where
  code : Int32
  message : String
  data : Option Json

/-- **A response envelope.** -/
structure ResponseEnvelope where
  version : String
  id : Json
  result : Option Json
  error : Option ErrorObject

/-- **The result of a submission.** -/
structure SubmitResult where
  precheck : Status

/-! ## 2. Wire forms -/

instance : Wired Json where
  schema := .json
  toDatum j := .json j
  ofDatum?
    | .json j => some j
    | _ => none

instance : Wired Method where
  schema := .choiceOf
    [(Method.submit.name, .unit, .record .nil), (Method.query.name, .unit, .record .nil)]
  toDatum
    | .submit => .choice 0 (.record [])
    | .query => .choice 1 (.record [])
  ofDatum?
    | .choice 0 _ => some .submit
    | .choice 1 _ => some .query
    | _ => none

instance : Wired SubmitResult where
  schema := .recordOf [("precheck", Wired.schema Status)]
  toDatum r := .record [Wired.toDatum r.precheck]
  ofDatum?
    | .record [precheck] => do return ⟨← Wired.ofDatum? precheck⟩
    | _ => none

instance : Wired ErrorObject where
  schema := .record
    (.cons "code" .always (Wired.schema Int32)
      (.cons "message" .always (Wired.schema String)
        (.cons "data" .whenPresent (Wired.schema (Option Json)) .nil)))
  toDatum e := .record [Wired.toDatum e.code, Wired.toDatum e.message, Wired.toDatum e.data]
  ofDatum?
    | .record [code, message, data] => do
      return ⟨← Wired.ofDatum? code, ← Wired.ofDatum? message, ← Wired.ofDatum? data⟩
    | _ => none

instance : Wired RequestEnvelope where
  schema := .record
    (.cons "jsonrpc" .always (Wired.schema String)
      (.cons "id" .always (Wired.schema Json)
        (.cons "method" .always (Wired.schema Method)
          (.cons "params" .orNull (Wired.schema Json) .nil))))
  toDatum e := .record
    [Wired.toDatum e.version, Wired.toDatum e.id, Wired.toDatum e.method, Wired.toDatum e.params]
  ofDatum?
    | .record [version, id, method, params] => do
      return ⟨← Wired.ofDatum? version, ← Wired.ofDatum? id, ← Wired.ofDatum? method,
        ← Wired.ofDatum? params⟩
    | _ => none

instance : Wired ResponseEnvelope where
  schema := .record
    (.cons "jsonrpc" .always (Wired.schema String)
      (.cons "id" .always (Wired.schema Json)
        (.cons "result" .whenPresent (Wired.schema (Option Json))
          (.cons "error" .whenPresent (Wired.schema (Option ErrorObject)) .nil))))
  toDatum e := .record
    [Wired.toDatum e.version, Wired.toDatum e.id, Wired.toDatum e.result, Wired.toDatum e.error]
  ofDatum?
    | .record [version, id, result, error] => do
      return ⟨← Wired.ofDatum? version, ← Wired.ofDatum? id, ← Wired.ofDatum? result,
        ← Wired.ofDatum? error⟩
    | _ => none

/-! ## 3. Errors -/

namespace ErrorObject

/-- **The line is no JSON.** -/
def parseError (message : String) : ErrorObject := ⟨-32700, message, none⟩

/-- **The line is no request envelope.** -/
def invalidRequest (message : String) : ErrorObject := ⟨-32600, message, none⟩

/-- **There is no such method.** -/
def methodNotFound (method : String) : ErrorObject :=
  ⟨-32601, "method not found: " ++ method, none⟩

/-- **The parameters are not those of the method.** -/
def invalidParams (message : String) : ErrorObject := ⟨-32602, message, none⟩

end ErrorObject

/-! ## 4. Wrapping and unwrapping -/

/-- **The method of a request.** -/
def methodOf : Request → Method
  | .transaction _ => .submit
  | .query _ => .query

/-- **Wrap a request.** -/
def RequestEnvelope.ofRequest (id : UInt64) (r : Request) : RequestEnvelope where
  version := protocolVersion
  id := .natural id
  method := methodOf r
  params :=
    match r with
    | .transaction t => Wired.toTree t
    | .query q => Wired.toTree q

/-- **Unwrap a request.** -/
def RequestEnvelope.request (e : RequestEnvelope) : Except ErrorObject Request :=
  let read : Except Fault Request :=
    match e.method with
    | .submit => (Wired.ofTree e.params).map .transaction
    | .query => (Wired.ofTree e.params).map .query
  read.mapError fun fault => .invalidParams fault.message

/-- **A response with a result.** -/
def ResponseEnvelope.success (id result : Json) : ResponseEnvelope :=
  ⟨protocolVersion, id, some result, none⟩

/-- **A response with an error.** -/
def ResponseEnvelope.failure (id : Json) (error : ErrorObject) : ResponseEnvelope :=
  ⟨protocolVersion, id, none, some error⟩

variable [SignatureScheme]

/-- **Wrap a response.** -/
def ResponseEnvelope.ofResponse (id : Json) (r : Response) : ResponseEnvelope :=
  .success id
    (match r with
    | .transaction precheck => Wired.toTree (SubmitResult.mk precheck)
    | .query q => Wired.toTree q)

/-- **Unwrap the response** to a request of a method. -/
def ResponseEnvelope.response (e : ResponseEnvelope) (method : Method) :
    Except TransportError Response :=
  match e.error, e.result with
  | some error, _ => .error (.rpc error.code error.message)
  | none, none => .error (.frame .noOutcome)
  | none, some result =>
    let read : Except Fault Response :=
      match method with
      | .submit => (Wired.ofTree result).map fun r : SubmitResult => .transaction r.precheck
      | .query => (Wired.ofTree result).map .query
    read.mapError fun fault => .frame (.undecodable fault)

end Rpc

end ShardLedger
