import ShardLedger.Proofs.ProperMessages
import ShardLedger.Rpc.Dispatch
/-
Envelopes on the line.

The line of a request is one line of JSON, and a node reads back from it the very envelope that was
written, whatever the request is; so what it answers depends on the envelope alone.  The line of a reply
is read back by the client in the same way.  Whether the parameters in the one and the result in the
other make sense again is a question of the messages they were made from.
-/

set_option autoImplicit false

namespace ShardLedger

open Wire
open Wired (Travels)

namespace Rpc

/-! ## 1. Requests -/

section Request

variable (id : UInt64) (r : Request)

/-- The parameters of a request are a tree. -/
theorem canonical_params :
    (RequestEnvelope.ofRequest id r).params.canonical = (RequestEnvelope.ofRequest id r).params := by
  cases r <;> exact Json.canonical_canonical _

theorem isSimple_params : IsSimple 10 (RequestEnvelope.ofRequest id r).params := by
  cases r with
  | transaction t => exact (Wired.isSimple_toTree t rfl).mono (by decide)
  | query q => exact (Wired.isSimple_toTree q rfl).mono (by decide)

theorem Method.travels (m : Method) : Travels m := by
  cases m <;> exact ⟨trivial, rfl⟩

theorem Method.toJson_eq (m : Method) : Wired.toJson m = .string m.name := by
  cases m <;> rfl

/-- **The envelope of a request travels unharmed**, whatever the request is. -/
theorem RequestEnvelope.travels : Travels (RequestEnvelope.ofRequest id r) where
  told := ⟨trivial, rfl, (methodOf r).travels.told, canonical_params id r, trivial⟩
  recovered := Wired.ofDatum?_toDatum _

/-- The members of the envelope of a request. -/
theorem toJson_ofRequest :
    Wired.toJson (RequestEnvelope.ofRequest id r)
      = .object [("jsonrpc", .string protocolVersion), ("id", .natural id),
          ("method", .string (methodOf r).name), ("params", (RequestEnvelope.ofRequest id r).params)] := by
  rw [← Method.toJson_eq]
  rfl

theorem isSimple_ofRequest :
    IsSimple Json.Raw.maxDepth (Wired.toJson (RequestEnvelope.ofRequest id r)) := by
  rw [toJson_ofRequest]
  have hmembers : ∀ m ∈ [("jsonrpc", .string protocolVersion), ("id", .natural id),
      ("method", .string (methodOf r).name), ("params", (RequestEnvelope.ofRequest id r).params)],
      IsSimple 10 m.2 := by
    simp only [List.forall_mem_cons]
    exact ⟨⟨rfl, Nat.zero_le _⟩, ⟨rfl, Nat.zero_le _⟩, ⟨rfl, Nat.zero_le _⟩, isSimple_params id r,
      List.forall_mem_nil _⟩
  exact (IsSimple.object hmembers).mono (by decide)

/-- **The line of a request.** -/
def requestLine : List Char :=
  (Wired.toJson (RequestEnvelope.ofRequest id r)).chars

/-- **A node reads from the line of a request** the tree of its envelope. -/
theorem ofChars?_requestLine :
    Json.ofChars? (requestLine id r) = some (Wired.toTree (RequestEnvelope.ofRequest id r)) :=
  Json.ofChars?_chars (isSimple_ofRequest id r).1 (isSimple_ofRequest id r).2

/-- A member of the envelope of a request, in the tree that a node reads. -/
theorem get?_toTree (name : String) {j : Json}
    (h : (name, j) ∈ [("jsonrpc", .string protocolVersion), ("id", .natural id),
      ("method", .string (methodOf r).name),
      ("params", (RequestEnvelope.ofRequest id r).params)]) :
    (Wired.toTree (RequestEnvelope.ofRequest id r)).get? name = some j.canonical := by
  rw [Wired.toTree, toJson_ofRequest]
  exact Json.get?_canonical (show ["jsonrpc", "id", "method", "params"].Nodup by decide) h

theorem idOf_toTree : idOf (Wired.toTree (RequestEnvelope.ofRequest id r)) = .natural id := by
  rw [idOf, get?_toTree id r "id" (j := .natural id) (by simp)]
  rfl

theorem ofName?_name (m : Method) : Method.ofName? m.name = some m := by
  cases m <;> decide

/-- **The envelope is opened** to what its parameters say. -/
theorem openEnvelope_toTree :
    openEnvelope (Wired.toTree (RequestEnvelope.ofRequest id r))
      = (RequestEnvelope.ofRequest id r).request := by
  have hversion := get?_toTree id r "jsonrpc" (j := .string protocolVersion) (by simp)
  have hmethod := get?_toTree id r "method" (j := .string (methodOf r).name) (by simp)
  have hread := (RequestEnvelope.travels id r).ofTree_toTree rfl
  unfold openEnvelope
  rw [hversion, hmethod]
  simp only [Option.bind_some, Json.canonical, Json.string?, ofName?_name, hread]
  rfl

/-- **What a node answers to the line of a request** is decided by its envelope: an error if the
parameters make no sense, and otherwise the response to what they ask. -/
theorem dispatch_requestLine [SignatureScheme] (c : Config) (l : Ledger) (now : Timestamp) :
    dispatch c l (requestLine id r) now
      = match (RequestEnvelope.ofRequest id r).request with
        | .error error => (.failure (.natural id) error, l)
        | .ok asked =>
          (.ofResponse (.natural id) (l.handle c asked now).1, (l.handle c asked now).2) := by
  rw [dispatch, ofChars?_requestLine]
  cases hasked : (RequestEnvelope.ofRequest id r).request with
  | error error => simp only [openEnvelope_toTree, idOf_toTree, hasked]
  | ok asked => simp only [openEnvelope_toTree, idOf_toTree, hasked]

/-- **The parameters of a proper request** say what was asked. -/
theorem request_ofRequest {r : Request} (h : r.Proper) :
    (RequestEnvelope.ofRequest id r).request = .ok r := by
  cases r with
  | transaction t =>
    have hread := t.travels.ofTree_toTree rfl
    rw [RequestEnvelope.request]
    simp only [RequestEnvelope.ofRequest, methodOf, hread]
    rfl
  | query q =>
    have hread := (Query.travels h).ofTree_toTree rfl
    rw [RequestEnvelope.request]
    simp only [RequestEnvelope.ofRequest, methodOf, hread]
    rfl

/-- Parameters that make no sense are all that can be wrong with an envelope. -/
theorem request_error {e : RequestEnvelope} {error : ErrorObject} (h : e.request = .error error) :
    ∃ message, error = .invalidParams message := by
  have hread : ∀ {read : Except Fault Request},
      read.mapError (fun fault => ErrorObject.invalidParams fault.message) = .error error →
        ∃ message, error = .invalidParams message := by
    intro read h
    cases read with
    | error fault => exact ⟨_, (Except.error.inj h).symm⟩
    | ok r => cases h
  exact hread h

end Request

/-! ## 2. Replies -/

section Reply

theorem SubmitResult.travels {precheck : Status} (h : precheck.Canonical) :
    Travels (SubmitResult.mk precheck) where
  told := ⟨h.travels.told, trivial⟩
  recovered := by
    change (do return ⟨← Wired.ofDatum? (Wired.toDatum precheck)⟩ : Option SubmitResult) = _
    rw [h.travels.recovered]
    rfl

variable [SignatureScheme]

/-- **The envelope of a response travels unharmed**, whatever the response says, under an identifier
whose members are in order. -/
theorem ResponseEnvelope.travels {id : Json} (hid : id.canonical = id) (r : Response) :
    Travels (ResponseEnvelope.ofResponse id r) where
  told := by
    cases r <;> exact ⟨trivial, hid, ⟨Json.canonical_canonical _, nofun⟩, trivial, trivial⟩
  recovered := Wired.ofDatum?_toDatum _

omit [SignatureScheme] in
/-- The envelope of a reply is simple if the identifier and what is told are. -/
theorem isSimple_told {id told : Json} (hid : IsSimple 10 id) (name : String) (htold : IsSimple 10 told) :
    IsSimple Json.Raw.maxDepth
      (.object [("jsonrpc", .string protocolVersion), ("id", id), (name, told)]) := by
  refine IsSimple.mono (.object (n := 10) ?_) (by decide)
  simp only [List.forall_mem_cons]
  exact ⟨⟨rfl, Nat.zero_le _⟩, hid, htold, List.forall_mem_nil _⟩

theorem isSimple_ofResponse {id : Json} (hid : IsSimple 10 id) (r : Response) :
    IsSimple Json.Raw.maxDepth (Wired.toJson (ResponseEnvelope.ofResponse id r)) := by
  cases r with
  | transaction precheck =>
    exact isSimple_told hid "result"
      ((Wired.isSimple_toTree (SubmitResult.mk precheck) rfl).mono (by decide))
  | query q =>
    exact isSimple_told hid "result" ((Wired.isSimple_toTree q rfl).mono (Nat.le_of_ble_eq_true rfl))

/-- **A reply that a node gives**: a response or an error, under the identifier of a request. -/
inductive IsReply (id : UInt64) : ResponseEnvelope → Prop
  | response (r : Response) : IsReply id (.ofResponse (.natural id) r)
  | error (code : Int32) (message : String) :
    IsReply id (.failure (.natural id) ⟨code, message, none⟩)

variable {id : UInt64} {e : ResponseEnvelope}

theorem IsReply.id_eq (h : IsReply id e) : e.id = .natural id := by
  cases h <;> rfl

/-- **A reply travels unharmed**, whatever it says. -/
theorem IsReply.travels (h : IsReply id e) : Travels e := by
  cases h with
  | response r => exact ResponseEnvelope.travels rfl r
  | error code message =>
    refine ⟨?_, Wired.ofDatum?_toDatum _⟩
    exact ⟨trivial, rfl, trivial,
      ⟨⟨Width.holds_i32 code, trivial, trivial, trivial⟩, nofun⟩, trivial⟩

theorem IsReply.isSimple (h : IsReply id e) : IsSimple Json.Raw.maxDepth (Wired.toJson e) := by
  have hid : IsSimple 10 (Json.natural id) := ⟨rfl, Nat.zero_le _⟩
  cases h with
  | response r => exact isSimple_ofResponse hid r
  | error code message =>
    have hmembers : ∀ m ∈ [("code", Json.integer code.toInt), ("message", .string message)],
        IsSimple 9 m.2 := by
      simp only [List.forall_mem_cons]
      exact ⟨.integer _, ⟨rfl, Nat.zero_le _⟩, List.forall_mem_nil _⟩
    exact isSimple_told hid "error" (.object hmembers)

/-- **A client reads a reply back** from its line. -/
theorem IsReply.ofChars_chars (h : IsReply id e) : Wired.ofChars (Wired.toJson e).chars = .ok e :=
  h.travels.ofChars_chars rfl h.isSimple

/-- **The reply to the line of a request** bears its identifier. -/
theorem isReply_dispatch (id : UInt64) (r : Request) (c : Config) (l : Ledger) (now : Timestamp) :
    IsReply id (dispatch c l (requestLine id r) now).1 := by
  rw [dispatch_requestLine]
  split
  · rename_i error herror
    obtain ⟨message, rfl⟩ := request_error herror
    exact .error _ _
  · exact .response _

/-- **The method that a response is to.** -/
def responseMethod : Response → Method
  | .transaction _ => .submit
  | .query _ => .query

/-- A request is answered by its own method. -/
theorem responseMethod_handle (c : Config) (l : Ledger) (r : Request) (now : Timestamp) :
    responseMethod (l.handle c r now).1 = methodOf r := by
  cases r <;> rfl

/-- **The result of a proper response** says what was answered. -/
theorem response_ofResponse {r : Response} (h : r.Proper) (id : Json) :
    (ResponseEnvelope.ofResponse id r).response (responseMethod r) = .ok r := by
  cases r with
  | transaction precheck =>
    have hread := (SubmitResult.travels h).ofTree_toTree rfl
    simp only [ResponseEnvelope.response, ResponseEnvelope.ofResponse, ResponseEnvelope.success,
      responseMethod, hread]
    rfl
  | query q =>
    have hread := (QueryResponse.Proper.travels h).ofTree_toTree rfl
    simp only [ResponseEnvelope.response, ResponseEnvelope.ofResponse, ResponseEnvelope.success,
      responseMethod, hread]
    rfl

end Reply

end Rpc

end ShardLedger
