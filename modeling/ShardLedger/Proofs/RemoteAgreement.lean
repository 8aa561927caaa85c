import ShardLedger.Proofs.EnvelopeLines
import ShardLedger.Proofs.ProperLedger
/-
Asking over a line is asking the ledger.

A proper request comes out of its line as it was asked.  So the node hands it to its ledger, and the
ledger that is left is the one that the request itself would leave.  On a ledger that can be reached the
response is proper, and comes out of its own line as it was given.
-/

set_option autoImplicit false

namespace ShardLedger

open Wire

namespace Rpc

section Agreement

variable [SignatureScheme]

/-! ## 1. One request -/

section Lines

variable {c : Config} {l : Ledger} {r : Request}

/-- **The line of a proper request** is answered with the response of the ledger. -/
theorem dispatch_proper (hr : r.Proper) (id : UInt64) (now : Timestamp) :
    dispatch c l (requestLine id r) now
      = (.ofResponse (.natural id) (l.handle c r now).1, (l.handle c r now).2) := by
  rw [dispatch_requestLine, request_ofRequest id hr]

/-- **The reply to a proper request**, from a proper ledger, says what the ledger answered. -/
theorem response_dispatch (hl : l.Proper) (hr : r.Proper) (id : UInt64) (now : Timestamp) :
    (dispatch c l (requestLine id r) now).1.response (methodOf r)
      = .ok (l.handle c r now).1 := by
  have hresponse := response_ofResponse (hl.response_handle (c := c) hr now) (.natural id)
  rw [dispatch_proper hr, ← responseMethod_handle c l r now]
  exact hresponse

end Lines

/-! ## 2. The two paths -/

/-- **The remote path agrees with the direct one.**  On a ledger that can be reached, at any time and
under any identifier, a proper request is written on one line.  The node's answer to the line leaves the
ledger as the request itself would.  It is one line again, and what a client reads from it bears the
identifier and gives, for the method of the request, the response of the ledger.

The work is in `dispatch_proper` for the way to the node, and in `response_dispatch` for the way back. -/
theorem remote_agrees_with_direct (c : Config) (l : Ledger) (hl : l.Reachable c) (r : Request)
    (hr : r.Proper) (id : UInt64) (now : Timestamp) :
    let line := (Wired.toJson (RequestEnvelope.ofRequest id r)).text
    let answered := dispatch c l line.toList now
    let reply := (Wired.toJson answered.1).text
    '\n' ∉ line.toList ∧ '\n' ∉ reply.toList
      ∧ answered.2 = (l.handle c r now).2
      ∧ ∃ e : ResponseEnvelope, Wired.ofChars reply.toList = .ok e
          ∧ e.id = .natural id
          ∧ e.response (RequestEnvelope.ofRequest id r).method = .ok (l.handle c r now).1 := by
  intro line answered reply
  have hline : line.toList = requestLine id r := String.toList_ofList
  have hreply : reply.toList = (Wired.toJson answered.1).chars := String.toList_ofList
  have hisReply : IsReply id answered.1 := by
    have h := isReply_dispatch id r c l now
    rwa [← hline] at h
  have hresponse := response_dispatch (c := c) hl.proper hr id now
  rw [← hline] at hresponse
  refine ⟨?_, ?_, ?_, answered.1, ?_, hisReply.id_eq, hresponse⟩
  · rw [hline]
    exact Json.lineFeed_notMem_chars _
  · rw [hreply]
    exact Json.lineFeed_notMem_chars _
  · change (dispatch c l line.toList now).2 = _
    rw [hline, dispatch_proper hr]
  · rw [hreply]
    exact hisReply.ofChars_chars

end Agreement

open Trial in
/-- Asking for an account of the ledger for trials. -/
theorem remote_agrees_with_direct_accountInfo :
    letI := scheme
    let asked : Request := .query ⟨.answer, .accountInfo (.simple 4)⟩
    let line := (Wired.toJson (RequestEnvelope.ofRequest 7 asked)).text
    let answered := dispatch {} ledger line.toList ⟨1001, 0⟩
    let reply := (Wired.toJson answered.1).text
    (ledger.Reachable {} ∧ asked.Proper)
      ∧ '\n' ∉ line.toList ∧ '\n' ∉ reply.toList
      ∧ answered.2 = (ledger.handle {} asked ⟨1001, 0⟩).2
      ∧ ∃ e : ResponseEnvelope, Wired.ofChars reply.toList = .ok e
          ∧ e.id = .natural 7
          ∧ e.response .query = .ok (ledger.handle {} asked ⟨1001, 0⟩).1 := by
  let := scheme
  have hasked : (Request.query ⟨.answer, .accountInfo (.simple 4)⟩).Proper :=
    show (AccountId.simple 4).Proper by decide
  exact ⟨⟨reachable_ledger, hasked⟩,
    remote_agrees_with_direct {} ledger reachable_ledger _ hasked 7 ⟨1001, 0⟩⟩

end Rpc

end ShardLedger
