import ShardLedger.Transaction.Draft
/-
Building a transaction, call by call.

A draft begins with the payload of its kind and nothing else.  What follows are edits and signatures in
any order, each taking the draft as the one before it left it.  A signature also needs the mint, which
others may have used in between, and the clock; so each signing carries the mint and the reading that it
meets.  A call that fails uses the draft up, and nothing can follow it.

Along with the draft a building keeps two lists, the calls that were made and the bodies that were
assembled to be signed.
-/

set_option autoImplicit false

namespace ShardLedger

/-- **A payload as it begins**, for each kind of transaction. -/
inductive PayloadDraft.Blank : PayloadDraft → Prop
  | creation : Blank .creation
  | transfer : Blank .emptyTransfer
  | update (id : AccountId) : Blank (.updateOf id)
  | deletion (id : AccountId) : Blank (.deletionOf id)

namespace Draft

/-- **A call on a draft.** -/
inductive Call where
  | edit (e : Edit)
  /-- Sign with the mint and the clock as the call meets them. -/
  | sign (signer : Signer) (m : Mint) (now : Timestamp)

/-- **Who signs**, if the call signs. -/
def Call.signer? : Call → Option Signer
  | .edit _ => none
  | .sign signer _ _ => some signer

/-- **The signers of calls**, in order and with repetitions. -/
def signers (calls : List Call) : List Signer :=
  calls.filterMap Call.signer?

/-- An edit signs nothing. -/
theorem signers_edit (calls : List Call) (e : Edit) :
    signers (calls ++ [.edit e]) = signers calls := by
  rw [signers, List.filterMap_append]
  exact List.append_nil _

/-- A signature adds its signer. -/
theorem signers_sign (calls : List Call) (signer : Signer) (m : Mint) (now : Timestamp) :
    signers (calls ++ [.sign signer m now]) = signers calls ++ [signer] := by
  rw [signers, List.filterMap_append]
  rfl

/-- **Bytes with the signatures of signers**, in order. -/
def envelope (signers : List Signer) (bytes : Bytes) : SignedTransaction :=
  ⟨bytes, signers.map fun signer => signer bytes⟩

/-- One signer more signs after the others. -/
theorem envelope_concat (signers : List Signer) (signer : Signer) (bytes : Bytes) :
    (envelope (signers ++ [signer]) bytes).signatures
      = (envelope signers bytes).signatures ++ [signer bytes] :=
  List.map_append

/-- **The body that would be assembled now**: the draft is given an identifier if it has none. -/
def assembled (d : Draft) (m : Mint) (now : Timestamp) : Except ClientError TransactionBody :=
  (d.identify m now).1.bind body

/-- **A draft is built** by calls that all succeed, with the bodies that were assembled to be signed. -/
inductive Built [SignatureScheme] (p : PayloadDraft) :
    List Call → List TransactionBody → Draft → Prop
  | blank : Built p [] [] (.ofPayload p)
  | edit {calls : List Call} {bodies : List TransactionBody} {d d' : Draft} {e : Edit}
    (before : Built p calls bodies d) (edits : d.edit? e = some d') :
    Built p (calls ++ [.edit e]) bodies d'
  | sign {calls : List Call} {bodies : List TransactionBody} {d d' : Draft} {signer : Signer}
    {m : Mint} {now : Timestamp} {b : TransactionBody}
    (before : Built p calls bodies d) (assembles : d.assembled m now = .ok b)
    (signs : (d.sign signer m now).1 = .ok d') :
    Built p (calls ++ [.sign signer m now]) (bodies ++ [b]) d'

end Draft

end ShardLedger
