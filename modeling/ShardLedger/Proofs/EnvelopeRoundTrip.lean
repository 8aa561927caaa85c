import ShardLedger.Proofs.Admission
import ShardLedger.Proofs.LineBytes
/-
What is written in an envelope is read from it.

A client chooses the identifiers of its requests among the natural numbers of a word; a node answers
under whatever identifier it was sent, and there other clients may have other habits.  Whichever it is,
the text of an envelope is read back as an envelope with this identifier, and if the message in it is
proper then it is the message that comes out.  The text has no line feed in it, for all that the message
may say, and so it ends where its line does.
-/

set_option autoImplicit false

namespace ShardLedger

open Wire

namespace Rpc

/-! ## 1. Identifiers -/

/-- **An identifier of an envelope**: null, an integer within a word, or a string. -/
inductive IsIdentifier : Json → Prop
  | null : IsIdentifier .null
  | integer (n : Json.Number) (h : n.isWord = true) : IsIdentifier (.number n)
  | string (s : String) : IsIdentifier (.string s)

section Identifier

variable {id : Json}

theorem IsIdentifier.isSimple (h : IsIdentifier id) (n : Nat) : IsSimple n id := by
  cases h with
  | null => exact .null
  | integer n hword => exact ⟨hword, Nat.zero_le _⟩
  | string s => exact ⟨rfl, Nat.zero_le _⟩

/-- Nothing in an identifier is out of order. -/
theorem IsIdentifier.canonical_eq (h : IsIdentifier id) : id.canonical = id := by
  cases h <;> rfl

end Identifier

/-! ## 2. Texts -/

/-- **The text of a request** is read back as its envelope. -/
theorem ofChars_text_ofRequest (id : UInt64) (r : Request) :
    Wired.ofChars (Wired.toJson (RequestEnvelope.ofRequest id r)).text.toList
      = .ok (RequestEnvelope.ofRequest id r) := by
  rw [Json.text, String.toList_ofList]
  exact (RequestEnvelope.travels id r).ofChars_chars rfl (isSimple_ofRequest id r)

section Signing

variable [SignatureScheme]

/-- **The text of a response** is read back as its envelope. -/
theorem ofChars_text_ofResponse {id : Json} (hid : IsIdentifier id) (r : Response) :
    Wired.ofChars (Wired.toJson (ResponseEnvelope.ofResponse id r)).text.toList
      = .ok (ResponseEnvelope.ofResponse id r) := by
  have htravels := ResponseEnvelope.travels hid.canonical_eq r
  rw [Json.text, String.toList_ofList]
  exact htravels.ofChars_chars rfl (isSimple_ofResponse (hid.isSimple 10) r)

/-! ## 3. The round trip -/

/-- **Envelopes make the round trip.**  The text of a proper request is read back as an envelope with its
identifier that contains the request.  The text of a proper response, under any identifier, is read back
as an envelope with this identifier that contains the response, for the method that it is to.  Proper or
not, neither text has a byte of a line feed.

The work is in `request_ofRequest` and `response_ofResponse`, and for the texts in `Travels.ofChars_chars`. -/
theorem envelopes_round_trip :
    (∀ (id : UInt64) (r : Request), r.Proper →
        ∃ e : RequestEnvelope,
          Wired.ofChars (Wired.toJson (RequestEnvelope.ofRequest id r)).text.toList = .ok e
            ∧ e.id = .natural id ∧ e.request = .ok r)
      ∧ (∀ (id : Json) (r : Response), IsIdentifier id → r.Proper →
        ∃ e : ResponseEnvelope,
          Wired.ofChars (Wired.toJson (ResponseEnvelope.ofResponse id r)).text.toList = .ok e
            ∧ e.id = id ∧ e.response (responseMethod r) = .ok r)
      ∧ (∀ (id : UInt64) (r : Request),
        0x0A ∉ Bytes.ofText (Wired.toJson (RequestEnvelope.ofRequest id r)).text)
      ∧ ∀ (id : Json) (r : Response), IsIdentifier id →
        0x0A ∉ Bytes.ofText (Wired.toJson (ResponseEnvelope.ofResponse id r)).text := by
  refine ⟨?_, ?_, ?_, ?_⟩
  · intro id r hr
    exact ⟨_, ofChars_text_ofRequest id r, rfl, request_ofRequest id hr⟩
  · intro id r hid hr
    exact ⟨_, ofChars_text_ofResponse hid r, rfl, response_ofResponse hr id⟩
  · intro id r
    exact lineFeed_notMem_text _
  · intro id r hid
    exact lineFeed_notMem_text _

end Signing

end Rpc

namespace Trial

/-- **A record of many kinds**: its status is not known, and there are line feeds in its hash and memo. -/
def motleyRecord : Record where
  id := deletion.id
  receipt := ⟨.unrecognized 99, some (.simple 4)⟩
  hash := [0x0A]
  consensus := ⟨-1, 999999999⟩
  memo := "one\ntwo"
  fee := 18446744073709551615
  transfers := [⟨.simple 2, -9223372036854775808⟩]

/-- **The response that tells of it**, in the history of its payer. -/
def motleyResponse : Response :=
  .query ⟨.ok, .answer, 0, some (.accountRecords (.simple 2) [motleyRecord])⟩

theorem proper_motleyResponse : letI := scheme; motleyResponse.Proper := by
  let := scheme
  have hpayer : (AccountId.simple 2).Proper := by decide
  have hnamed : (AccountId.simple 4).Proper := by decide
  have hstatus : Status.Canonical (.unrecognized 99) := by
    rintro c ⟨⟩
    decide
  have hrecord : motleyRecord.Proper := by
    refine ⟨hpayer, ⟨hstatus, ?_⟩, List.forall_mem_singleton.mpr hpayer⟩
    rintro _ ⟨⟩
    exact hnamed
  refine ⟨Status.canonical_of_mem (by decide), ?_⟩
  rintro _ ⟨⟩
  exact ⟨hpayer, List.forall_mem_singleton.mpr hrecord⟩

end Trial

namespace Rpc

open Trial in
/-- The response of many kinds makes the round trip under an identifier with a line feed in it. -/
theorem envelopes_round_trip_motley :
    letI := scheme
    let id : Json := .string "7\n"
    (IsIdentifier id ∧ motleyResponse.Proper)
      ∧ ∃ e : ResponseEnvelope,
          Wired.ofChars (Wired.toJson (ResponseEnvelope.ofResponse id motleyResponse)).text.toList = .ok e
            ∧ e.id = id ∧ e.response .query = .ok motleyResponse := by
  let := scheme
  intro id
  have hid : IsIdentifier id := .string "7\n"
  obtain ⟨-, hresponses, -, -⟩ := envelopes_round_trip
  exact ⟨⟨hid, proper_motleyResponse⟩, hresponses id motleyResponse hid proper_motleyResponse⟩

end Rpc

end ShardLedger
