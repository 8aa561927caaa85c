import ShardLedger.Proofs.BinaryReading
import ShardLedger.Proofs.SignatureCover
/-
The binary form of bodies is an exact prefix code.

A body has one binary form, and it is read back whatever follows it.  The other way round, bytes are read
as a body only if they begin with a spelling of it: the binary form itself, or the binary form with
letters of hexadecimal texts in upper case.  And what is read is proper, so the checks that a node leaves
to its reader are made.

An envelope has one binary form as well, which its digest is of.

The values are those that a memory can hold: texts, lists and byte strings whose lengths fit the words
they are written in.
-/

set_option autoImplicit false

namespace ShardLedger

open Wire

/-! ## 1. Bodies that fit -/

section Bodies

theorem AccountId.Proper.fits {id : AccountId} (h : id.Proper) : Wired.Fits id :=
  ⟨id.fits_bare, AccountId.guard_toDatum h⟩

variable [SignatureScheme]

theorem PublicKey.Proper.fits {k : PublicKey} (h : k.Proper) : Wired.Fits k :=
  ⟨PublicKey.fits_bare h.1, if_pos h.2⟩

/-- A payload fits its schema if it is proper and a memory can hold it. -/
theorem Payload.Proper.fits {p : Payload} (h : p.Proper) (hs : p.Storable) : Wired.Fits p := by
  cases p with
  | create c => exact ⟨PublicKey.Proper.fits h, Width.holds_u64 _, Width.holds_i64 _, trivial⟩
  | transfer legs =>
    refine ⟨⟨by rw [List.length_map]; exact hs, fun d hd => ?_⟩, trivial⟩
    obtain ⟨leg, hleg, rfl⟩ := List.mem_map.mp hd
    exact ⟨AccountId.Proper.fits (h leg hleg), Width.holds_i64 _, trivial⟩
  | update u =>
    obtain ⟨id, key, seconds⟩ := u
    refine ⟨AccountId.Proper.fits h.1, ?_, ?_, trivial⟩
    · cases key with
      | none => trivial
      | some k => exact PublicKey.Proper.fits (h.2 k rfl)
    · cases seconds with
      | none => trivial
      | some x => exact Width.holds_i64 x
  | delete d => exact ⟨AccountId.Proper.fits h.1, AccountId.Proper.fits h.2, trivial⟩

/-- A memory can hold a payload that fits its schema. -/
theorem Payload.storable_of_fits {p : Payload} (h : Wired.Fits p) : p.Storable := by
  have hproper := Payload.proper_of_fits h
  cases p with
  | create c => exact hproper.1
  | transfer legs =>
    have hlength := h.1.1
    rwa [List.length_map] at hlength
  | update u => exact fun k hk => (hproper.2 k hk).1
  | delete d => trivial

/-- **A body fits its schema exactly if it is proper and a memory can hold it.** -/
theorem TransactionBody.fits_iff {b : TransactionBody} : Wired.Fits b ↔ b.Proper ∧ b.Storable := by
  constructor
  · intro h
    have hfits := h
    obtain ⟨-, -, -, -, -, hmemo, hpayload, -⟩ := hfits
    exact ⟨TransactionBody.proper_of_fits h, hmemo, Payload.storable_of_fits hpayload⟩
  · rintro ⟨h, hs⟩
    exact ⟨⟨AccountId.Proper.fits h.id, b.id.validStart.fits_bare, trivial⟩, AccountId.Proper.fits h.node,
      Width.holds_u64 _, Width.holds_i64 _, trivial, hs.memo, h.payload.fits hs.payload, trivial⟩

end Bodies

/-! ## 2. Envelopes -/

/-- **An envelope that a memory can hold.** -/
structure SignedTransaction.Storable (t : SignedTransaction) : Prop where
  body : 2 * t.bodyBytes.length < 2 ^ 64
  count : t.signatures.length < 2 ^ 64
  signatures : ∀ s ∈ t.signatures, 2 * s.bytes.length < 2 ^ 64

/-- An envelope that a memory can hold fits its schema. -/
theorem SignedTransaction.Storable.fits_bare {t : SignedTransaction} (h : t.Storable) :
    (Wired.schema SignedTransaction).bare.Fits (Wired.toDatum t) := by
  refine ⟨⟨nofun, h.body⟩, ⟨by rw [List.length_map]; exact h.count, fun d hd => ?_⟩, trivial⟩
  obtain ⟨s, hs, rfl⟩ := List.mem_map.mp hd
  exact ⟨⟨nofun, h.signatures s hs⟩, trivial⟩

/-! ## 3. The code -/

section Code

variable [SignatureScheme]

/-- **The binary form of bodies is an exact prefix code.**  A proper body is read back from its binary
form, whatever follows, and so no binary form begins with another.  Bytes are read as a body exactly if
it is proper and they begin with a spelling of it, which differs from its binary form in the case of
letters alone.  And the bytes that the digest of an envelope is of tell envelopes apart.

The work is in `Schema.take_eq_ok_iff`, by recursion on the schema: a value is read exactly from its
spellings. -/
theorem TransactionBody.exact_code :
    (∀ b : TransactionBody, b.Proper → b.Storable →
        ∀ t : Bytes, Wired.ofBytes (Wired.toBytes b ++ t) = .ok b)
      ∧ (∀ b c : TransactionBody, b.Proper → b.Storable → c.Proper → c.Storable →
          Wired.toBytes b <+: Wired.toBytes c → b = c)
      ∧ (∀ (s : Bytes) (b : TransactionBody), Wired.ofBytes s = .ok b ↔
          (b.Proper ∧ b.Storable) ∧ ∃ p t, (Wired.schema TransactionBody).Spells (Wired.toDatum b) p
            ∧ List.Forall₂ Hex.StandsFor p (Wired.toBytes b) ∧ s = p ++ t)
      ∧ ∀ t u : SignedTransaction, t.Storable → u.Storable →
          Wired.toBytes t = Wired.toBytes u → t = u := by
  have hread : ∀ (s : Bytes) (b : TransactionBody), Wired.ofBytes s = .ok b ↔
      (b.Proper ∧ b.Storable) ∧ ∃ p t, (Wired.schema TransactionBody).Spells (Wired.toDatum b) p
        ∧ List.Forall₂ Hex.StandsFor p (Wired.toBytes b) ∧ s = p ++ t := by
    intro s b
    rw [Wired.ofBytes_eq_ok_iff rfl, TransactionBody.fits_iff]
    apply and_congr_right
    intro hb
    constructor
    · rintro ⟨p, t, hp, hs⟩
      exact ⟨p, t, hp, Schema.standsFor_of_spells _ (fits_iff.mpr hb) hp, hs⟩
    · rintro ⟨p, t, hp, -, hs⟩
      exact ⟨p, t, hp, hs⟩
  have hback : ∀ b : TransactionBody, b.Proper → b.Storable →
      ∀ t : Bytes, Wired.ofBytes (Wired.toBytes b ++ t) = .ok b := by
    intro b hproper hstorable t
    apply (hread _ b).mpr
    have hspells := Schema.spells_put _ (fits_iff.mpr ⟨hproper, hstorable⟩)
    exact ⟨⟨hproper, hstorable⟩, _, t, hspells, Hex.standsFor_rfl _, rfl⟩
  refine ⟨hback, ?_, hread, ?_⟩
  · -- The longer form is read as the one body and as the other.
    rintro b c hb hb' hc hc' ⟨t, ht⟩
    have hboth := hback b hb hb' t
    rw [ht, ← List.append_nil (Wired.toBytes c), hback c hc hc' []] at hboth
    exact (Except.ok.inj hboth).symm
  · intro t u ht hu h
    exact Wired.toBytes_inj rfl ht.fits_bare hu.fits_bare h

end Code

namespace Trial

/-- **The creation in upper case**, with something after it. -/
def upperCreation : Bytes :=
  letI := scheme
  (Wired.toBytes creation).map (fun x => if 97 ≤ x ∧ x ≤ 102 then x - 32 else x) ++ [1, 2, 3]

end Trial

open Trial in
set_option maxRecDepth 10000 in
/-- The creation is read back in front of other bytes, and in upper case too; it does not begin with the
deletion; and the signatures of the deletion count. -/
theorem TransactionBody.exact_code_creation :
    letI := scheme
    (creation.Proper ∧ creation.Storable ∧ deletion.Proper ∧ deletion.Storable)
      ∧ Wired.ofBytes (Wired.toBytes creation ++ [1, 2, 3]) = .ok creation
      ∧ ¬ Wired.toBytes deletion <+: Wired.toBytes creation
      ∧ (Wired.ofBytes upperCreation = .ok creation
        ∧ ∃ p t, (Wired.schema TransactionBody).Spells (Wired.toDatum creation) p
          ∧ List.Forall₂ Hex.StandsFor p (Wired.toBytes creation) ∧ upperCreation = p ++ t)
      ∧ (signedDeletion.Storable ∧ SignedTransaction.Storable { signedDeletion with signatures := [] })
      ∧ Wired.toBytes signedDeletion ≠ Wired.toBytes { signedDeletion with signatures := [] } := by
  let := scheme
  have hpayer : deletion.id.accountId.Proper := by decide
  have hnode : deletion.node.Proper := by decide
  have hcreation : creation.Proper ∧ creation.Storable :=
    ⟨⟨hpayer, hnode, rfl, rfl⟩, ⟨by decide, rfl⟩⟩
  have hdeletion : deletion.Proper ∧ deletion.Storable :=
    ⟨⟨hpayer, hnode, by decide, by decide⟩, ⟨by decide, trivial⟩⟩
  have hsigned : signedDeletion.Storable := ⟨by decide +kernel, by decide, by decide⟩
  have hunsigned : SignedTransaction.Storable { signedDeletion with signatures := [] } :=
    ⟨hsigned.body, by decide, nofun⟩
  have hupper : Wired.ofBytes upperCreation = .ok creation := by decide +kernel
  obtain ⟨hback, hprefix, hread, henvelope⟩ := TransactionBody.exact_code
  refine ⟨⟨hcreation.1, hcreation.2, hdeletion⟩, hback creation hcreation.1 hcreation.2 _, ?_,
    ⟨hupper, ((hread _ _).mp hupper).2⟩, ⟨hsigned, hunsigned⟩, ?_⟩
  · intro h
    have heq := hprefix deletion creation hdeletion.1 hdeletion.2 hcreation.1 hcreation.2 h
    exact absurd heq (by decide)
  · intro h
    have heq := henvelope _ _ hsigned hunsigned h
    exact absurd (congrArg SignedTransaction.signatures heq) (by decide)

end ShardLedger
