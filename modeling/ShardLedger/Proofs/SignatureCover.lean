import ShardLedger.Client.Witness
import ShardLedger.Node.Emulator
import ShardLedger.Transaction.Building
import ShardLedger.Proofs.Admission
import ShardLedger.Proofs.BinaryForm
import ShardLedger.Proofs.WiredValues
/-
Signatures cover what is submitted.

A draft remembers the bytes that its signatures are of, and refuses to sign or to be submitted when the
body spells other bytes by then.  So all signatures are of one and the same bytes, and these are the
bytes that are sent.  Since equal bytes come from equal bodies, the comparison of bytes misses no change
of a body; and since it is made of the body as it stands, a change that was undone is none.

Bytes tell bodies apart as far as lengths fit the words they are written in, and keys have the bytes a
key has.  Both are so of whatever a memory can hold, and a building keeps them.
-/

set_option autoImplicit false

namespace ShardLedger

open Wire

/-! ## 1. Bodies are told by their bytes -/

/-- **A payload that a memory can hold.** -/
def Payload.Storable : Payload → Prop
  | .create c => c.key.bytes.length = 32
  | .transfer legs => legs.length < 2 ^ 64
  | .update u => ∀ k ∈ u.key, k.bytes.length = 32
  | .delete _ => True

/-- **A body that a memory can hold**: its text and its list fit their lengths, and its keys are
keys. -/
structure TransactionBody.Storable (b : TransactionBody) : Prop where
  memo : b.memo.utf8ByteSize < 2 ^ 64
  payload : b.payload.Storable

section Fits

/-- Identifiers fit their words. -/
theorem AccountId.fits_bare (id : AccountId) :
    (Wired.schema AccountId).bare.Fits (Wired.toDatum id) :=
  ⟨Width.holds_i64 _, Width.holds_i64 _, Width.holds_i64 _, trivial⟩

theorem Timestamp.fits_bare (t : Timestamp) :
    (Wired.schema Timestamp).bare.Fits (Wired.toDatum t) :=
  ⟨Width.holds_i64 _, Width.holds_i32 _, trivial⟩

variable [SignatureScheme]

/-- A key of thirty-two bytes fits its schema. -/
theorem PublicKey.fits_bare {k : PublicKey} (h : k.bytes.length = 32) :
    (Wired.schema PublicKey).bare.Fits (Wired.toDatum k) := by
  refine ⟨⟨?_, by rw [h]; decide⟩, trivial⟩
  rintro n ⟨⟩
  exact h

/-- A storable payload fits its schema. -/
theorem Payload.Storable.fits_bare {p : Payload} (h : p.Storable) :
    (Wired.schema Payload).bare.Fits (Wired.toDatum p) := by
  cases p with
  | create c => exact ⟨PublicKey.fits_bare h, Width.holds_u64 _, Width.holds_i64 _, trivial⟩
  | transfer legs =>
    refine ⟨⟨by rw [List.length_map]; exact h, fun d hd => ?_⟩, trivial⟩
    obtain ⟨leg, -, rfl⟩ := List.mem_map.mp hd
    exact ⟨leg.accountId.fits_bare, Width.holds_i64 _, trivial⟩
  | update u =>
    obtain ⟨id, key, seconds⟩ := u
    refine ⟨id.fits_bare, ?_, ?_, trivial⟩
    · cases key with
      | none => trivial
      | some k => exact PublicKey.fits_bare (h k rfl)
    · cases seconds with
      | none => trivial
      | some x => exact Width.holds_i64 x
  | delete d => exact ⟨d.accountId.fits_bare, d.beneficiary.fits_bare, trivial⟩

/-- A storable body fits its schema. -/
theorem TransactionBody.Storable.fits_bare {b : TransactionBody} (h : b.Storable) :
    (Wired.schema TransactionBody).bare.Fits (Wired.toDatum b) :=
  ⟨⟨b.id.accountId.fits_bare, b.id.validStart.fits_bare, trivial⟩, b.node.fits_bare, Width.holds_u64 _,
    Width.holds_i64 _, trivial, h.memo, h.payload.fits_bare, trivial⟩

omit [SignatureScheme] in
/-- Values that are written as the same bytes are the same. -/
theorem Wired.toBytes_inj {α : Type} [Wired α] [LawfulWired α] (hbinary : (schema α).isBinary) {x y : α}
    (hx : (schema α).bare.Fits (toDatum x)) (hy : (schema α).bare.Fits (toDatum y))
    (h : toBytes x = toBytes y) : x = y := by
  have hbytes : (schema α).put (toDatum x) ++ [] = (schema α).put (toDatum y) ++ [] :=
    congrArg (· ++ []) h
  exact toDatum_inj (Schema.put_inj hbinary hx hy hbytes).1

/-- **Bodies that spell the same bytes are the same.** -/
theorem TransactionBody.toBytes_inj {b c : TransactionBody} (hb : b.Storable) (hc : c.Storable)
    (h : Wired.toBytes b = Wired.toBytes c) : b = c :=
  Wired.toBytes_inj rfl hb.fits_bare hc.fits_bare h

end Fits

namespace Draft

/-! ## 2. What each call leaves alone -/

section Calls

variable {d d' : Draft}

/-- An edit leaves the signatures, and what they are of. -/
theorem edit?_signed {e : Edit} (h : d.edit? e = some d') :
    d'.signatures = d.signatures ∧ d'.signedBytes = d.signedBytes := by
  -- Edits of the payload leave all else as it is.
  have hpayload : ∀ {o : Option PayloadDraft},
      o.map (fun p => { d with payload := p }) = some d' →
        d'.signatures = d.signatures ∧ d'.signedBytes = d.signedBytes := by
    intro o h
    obtain ⟨p, -, rfl⟩ := Option.map_eq_some_iff.mp h
    exact ⟨rfl, rfl⟩
  cases e with
  | id | operator | node | memo | fee | validity | listed =>
    obtain rfl := Option.some.inj h
    exact ⟨rfl, rfl⟩
  | key | initialBalance | autoRenew | leg | beneficiary => exact hpayload h

/-- Giving an identifier leaves the signatures, and what they are of. -/
theorem identify_signed {m : Mint} {now : Timestamp} (h : (d.identify m now).1 = .ok d') :
    d'.signatures = d.signatures ∧ d'.signedBytes = d.signedBytes ∧ d'.payload = d.payload
      ∧ d'.memo = d.memo := by
  unfold identify at h
  split at h
  · obtain rfl := Except.ok.inj h
    exact ⟨rfl, rfl, rfl, rfl⟩
  · cases h
  · obtain rfl := Except.ok.inj h
    exact ⟨rfl, rfl, rfl, rfl⟩

/-- A body is assembled from a draft that has been given its identifier. -/
theorem assembled_eq_ok {m : Mint} {now : Timestamp} {b : TransactionBody} :
    d.assembled m now = .ok b ↔ ∃ d₁, (d.identify m now).1 = .ok d₁ ∧ d₁.body = .ok b := by
  rw [assembled]
  cases (d.identify m now).1 <;> simp [Except.bind]

variable [SignatureScheme]

/-- **Signing is decided by the bytes of the body**: they are what is signed, unless the signatures
are of other bytes. -/
theorem sign_eq {signer : Signer} {m : Mint} {now : Timestamp} {d₁ : Draft} {b : TransactionBody}
    (hd : (d.identify m now).1 = .ok d₁) (hb : d₁.body = .ok b) :
    (d.sign signer m now).1
      = if ∀ signed ∈ d.signedBytes, signed = Wired.toBytes b then
          .ok { d₁ with
            signatures := d.signatures ++ [signer (Wired.toBytes b)]
            signedBytes := some (Wired.toBytes b) }
        else .error .staleSignature := by
  obtain ⟨hsignatures, hsigned, -⟩ := identify_signed hd
  have hsign : (d.sign signer m now).1 = (d.identify m now).1.bind (·.signBody signer) := rfl
  rw [hsign, hd, ← hsigned, ← hsignatures]
  simp only [Except.bind, signBody, hb, bind, checkSigned, pure, Except.pure]
  cases d₁.signedBytes with
  | none => rfl
  | some signed =>
    by_cases heq : signed = Wired.toBytes b
    · simp [heq]
    · simp [heq]

/-- **Closing is decided by the payload's own check and then by the bytes of the body.** -/
theorem close_eq {m : Mint} {now : Timestamp} {b : TransactionBody}
    (hb : d.assembled m now = .ok b) :
    (d.close m now).1
      = match d.payload.validate with
        | .error e => .error e
        | .ok () =>
          if ∀ signed ∈ d.signedBytes, signed = Wired.toBytes b then
            .ok (b.id, ⟨Wired.toBytes b, d.signatures⟩)
          else .error .staleSignature := by
  obtain ⟨d₁, hd, hb⟩ := assembled_eq_ok.mp hb
  obtain ⟨hsignatures, hsigned, -⟩ := identify_signed hd
  unfold close
  cases d.payload.validate with
  | error e => rfl
  | ok =>
    rw [← hsigned, ← hsignatures]
    simp only [hd, Except.bind, sealBody, hb, bind, checkSigned, pure, Except.pure]
    cases d₁.signedBytes with
    | none => rfl
    | some signed =>
      by_cases heq : signed = Wired.toBytes b
      · simp [heq]
      · simp [heq]

/-- What is closed was assembled. -/
theorem assembled_of_close {m : Mint} {now : Timestamp} {id : TransactionId}
    {t : SignedTransaction} (h : (d.close m now).1 = .ok (id, t)) :
    ∃ b, d.assembled m now = .ok b := by
  unfold close at h
  split at h
  · cases h
  · cases hd : (d.identify m now).1 with
    | error e =>
      simp only [hd, Except.bind] at h
      cases h
    | ok d₁ =>
      simp only [hd, Except.bind, sealBody] at h
      cases hb : d₁.body with
      | error e =>
        rw [hb] at h
        cases h
      | ok b => exact ⟨b, assembled_eq_ok.mpr ⟨d₁, hd, hb⟩⟩

end Calls

end Draft

/-! ## 3. What a building keeps -/

/-- **A payload that a memory can hold** after so many calls: each adds one leg at the most. -/
def PayloadDraft.Storable (calls : Nat) : PayloadDraft → Prop
  | .create key _ _ => ∀ k ∈ key, k.bytes.length = 32
  | .transfer legs => legs.length ≤ calls
  | .update _ key _ => ∀ k ∈ key, k.bytes.length = 32
  | .delete _ _ => True

/-- **An edit that a memory can hold.** -/
def Edit.Storable : Edit → Prop
  | .memo s => s.utf8ByteSize < 2 ^ 64
  | .key k => k.bytes.length = 32
  | _ => True

/-- **A call that a memory can hold.** -/
def Draft.Call.Storable : Draft.Call → Prop
  | .edit e => e.Storable
  | .sign _ _ _ => True

namespace PayloadDraft

variable {p p' : PayloadDraft} {n : Nat}

theorem Blank.storable (h : p.Blank) : p.Storable 0 := by
  cases h with
  | creation | update => exact fun k hk => nomatch hk
  | transfer => exact Nat.le_refl 0
  | deletion => trivial

theorem Storable.mono (h : p.Storable n) : p.Storable (n + 1) := by
  cases p with
  | create | update | delete => exact h
  | transfer legs => exact Nat.le_succ_of_le h

/-- An edit adds one leg at the most. -/
theorem Storable.edit {e : Edit} (h : p.Storable n) (he : e.Storable) (hp : p.edit? e = some p') :
    p'.Storable (n + 1) := by
  unfold edit? at hp
  split at hp <;> cases hp
  · rintro k ⟨⟩
    exact he
  · exact h
  · exact h
  · simpa [Storable] using h
  · rintro k ⟨⟩
    exact he
  · exact h
  · trivial

/-- What is written into a body can be held if the draft can. -/
theorem Storable.payload {q : Payload} (h : p.Storable n) (hn : n < 2 ^ 64)
    (hq : p.payload = .ok q) : q.Storable := by
  unfold PayloadDraft.payload at hq
  split at hq <;> cases hq
  · exact h _ rfl
  · exact Nat.lt_of_le_of_lt h hn
  · exact h
  · trivial

end PayloadDraft

namespace Draft

/-- **A draft that a memory can hold** after so many calls. -/
structure Storable (calls : Nat) (d : Draft) : Prop where
  memo : d.memo.utf8ByteSize < 2 ^ 64
  payload : d.payload.Storable calls

section Storable

variable {d d' : Draft} {n : Nat}

theorem Storable.mono (h : d.Storable n) : d.Storable (n + 1) := ⟨h.memo, h.payload.mono⟩

theorem Storable.edit {e : Edit} (h : d.Storable n) (he : e.Storable) (hd : d.edit? e = some d') :
    d'.Storable (n + 1) := by
  cases e with
  | id | operator | node | fee | validity | listed =>
    obtain rfl := Option.some.inj hd
    exact ⟨h.memo, h.payload.mono⟩
  | memo s =>
    obtain rfl := Option.some.inj hd
    exact ⟨he, h.payload.mono⟩
  | key | initialBalance | autoRenew | leg | beneficiary =>
    obtain ⟨p, hp, rfl⟩ := Option.map_eq_some_iff.mp hd
    exact ⟨h.memo, h.payload.edit he hp⟩

theorem Storable.identify {m : Mint} {now : Timestamp} (h : d.Storable n)
    (hd : (d.identify m now).1 = .ok d') : d'.Storable n := by
  obtain ⟨-, -, hpayload, hmemo⟩ := identify_signed hd
  exact ⟨hmemo ▸ h.memo, hpayload ▸ h.payload⟩

theorem Storable.sign [SignatureScheme] {signer : Signer} {m : Mint} {now : Timestamp}
    {b : TransactionBody} (h : d.Storable n) (hb : d.assembled m now = .ok b)
    (hd : (d.sign signer m now).1 = .ok d') : d'.Storable n := by
  obtain ⟨d₁, hd₁, hb⟩ := assembled_eq_ok.mp hb
  rw [sign_eq hd₁ hb] at hd
  split at hd <;> cases hd
  exact ⟨(h.identify hd₁).memo, (h.identify hd₁).payload⟩

/-- What is assembled can be held if the draft can. -/
theorem Storable.assembled {m : Mint} {now : Timestamp} {b : TransactionBody} (h : d.Storable n)
    (hn : n < 2 ^ 64) (hb : d.assembled m now = .ok b) : b.Storable := by
  obtain ⟨d₁, hd, hb⟩ := assembled_eq_ok.mp hb
  obtain ⟨id, hid, hb⟩ := bind_eq_ok.mp hb
  obtain ⟨node, hnode, hb⟩ := bind_eq_ok.mp hb
  obtain ⟨q, hq, hb⟩ := bind_eq_ok.mp hb
  obtain rfl := Except.ok.inj hb
  exact ⟨(h.identify hd).memo, (h.identify hd).payload.payload hn hq⟩

end Storable

/-! ## 4. Bodies and signatures of a building -/

section Building

variable [SignatureScheme]

/-- **The signatures of a draft are of the bytes it remembers**, by these signers in order, and they
are the bytes of each of these bodies.  While it remembers none, nobody has signed anything. -/
def Covers (signers : List Signer) (bodies : List TransactionBody) (d : Draft) : Prop :=
  match d.signedBytes with
  | none => bodies = [] ∧ signers = [] ∧ d.signatures = []
  | some signed => (∃ x, x ∈ bodies) ∧ (∀ x ∈ bodies, Wired.toBytes x = signed)
    ∧ d.signatures = (envelope signers signed).signatures

namespace Covers

variable {signers : List Signer} {bodies : List TransactionBody} {d d' : Draft}

/-- Nothing but these bytes is signed exactly if every body spells them. -/
theorem signed_iff (h : Covers signers bodies d) (bytes : Bytes) :
    (∀ signed ∈ d.signedBytes, signed = bytes) ↔ ∀ x ∈ bodies, Wired.toBytes x = bytes := by
  unfold Covers at h
  split at h
  · rename_i hs
    simp [hs, h.1]
  · rename_i signed hs
    obtain ⟨⟨x, hx⟩, hall, -⟩ := h
    constructor
    · exact fun heq y hy => (hall y hy).trans (heq signed hs)
    · intro heq signed' hs'
      obtain rfl := Option.some.inj (hs.symm.trans hs')
      exact (hall x hx).symm.trans (heq x hx)

/-- **If nothing but these bytes is signed**, the signatures are what the signers make of them. -/
theorem sealed_eq (h : Covers signers bodies d) {bytes : Bytes}
    (hbytes : ∀ signed ∈ d.signedBytes, signed = bytes) :
    ⟨bytes, d.signatures⟩ = envelope signers bytes := by
  unfold Covers at h
  split at h
  · rw [h.2.1, h.2.2]
    rfl
  · rename_i signed hs
    rw [h.2.2, hbytes signed hs]
    rfl

theorem edit {e : Edit} (h : Covers signers bodies d) (hd : d.edit? e = some d') :
    Covers signers bodies d' := by
  obtain ⟨hsignatures, hsigned⟩ := edit?_signed hd
  unfold Covers
  rw [hsignatures, hsigned]
  exact h

theorem sign {signer : Signer} {m : Mint} {now : Timestamp} {b : TransactionBody}
    (h : Covers signers bodies d) (hb : d.assembled m now = .ok b)
    (hd : (d.sign signer m now).1 = .ok d') :
    Covers (signers ++ [signer]) (bodies ++ [b]) d' := by
  obtain ⟨d₁, hd₁, hb⟩ := assembled_eq_ok.mp hb
  rw [sign_eq hd₁ hb] at hd
  split at hd <;> cases hd
  rename_i hsame
  refine ⟨⟨b, List.mem_concat_self⟩, fun x hx => ?_, ?_⟩
  · obtain hx | rfl := List.mem_append.mp hx |>.imp_right List.mem_singleton.mp
    · exact (h.signed_iff _).mp hsame x hx
    · rfl
  · rw [envelope_concat, ← h.sealed_eq hsame]

end Covers

namespace Built

variable {p : PayloadDraft} {calls : List Call} {bodies : List TransactionBody} {d : Draft}

/-- **A building covers its bodies**, with the signatures of its signers. -/
theorem covers (h : Built p calls bodies d) : Covers (signers calls) bodies d := by
  induction h with
  | blank => exact ⟨rfl, rfl, rfl⟩
  | edit before edits ih =>
    rw [signers_edit]
    exact ih.edit edits
  | sign before assembles signs ih =>
    rw [signers_sign]
    exact ih.sign assembles signs

/-- **A memory that holds the calls holds what is built by them**, the bodies included. -/
theorem storable (h : Built p calls bodies d) (blank : p.Blank)
    (hcalls : ∀ call ∈ calls, call.Storable) (hlength : calls.length < 2 ^ 64) :
    d.Storable calls.length ∧ ∀ x ∈ bodies, x.Storable := by
  induction h with
  | blank => exact ⟨⟨by simp [ofPayload], blank.storable⟩, nofun⟩
  | @edit calls bodies d d' e before edits ih =>
    rw [List.length_append] at hlength ⊢
    obtain ⟨hd, hbodies⟩ := ih (fun call h => hcalls call (List.mem_append_left _ h))
      (Nat.lt_of_le_of_lt (Nat.le_add_right _ _) hlength)
    have he : (Call.edit e).Storable := hcalls _ List.mem_concat_self
    exact ⟨hd.edit he edits, hbodies⟩
  | @sign calls bodies d d' signer m now b before assembles signs ih =>
    rw [List.length_append] at hlength ⊢
    have hcount : calls.length < 2 ^ 64 := Nat.lt_of_le_of_lt (Nat.le_add_right _ _) hlength
    obtain ⟨hd, hbodies⟩ := ih (fun call h => hcalls call (List.mem_append_left _ h)) hcount
    refine ⟨(hd.sign assembles signs).mono, fun x hx => ?_⟩
    obtain hx | rfl := List.mem_append.mp hx |>.imp_right List.mem_singleton.mp
    · exact hbodies x hx
    · exact hd.assembled hcount assembles

/-- **Nothing but the body's bytes is signed exactly if nothing but the body is**, in a memory that
holds the calls. -/
theorem signed_iff (h : Built p calls bodies d) (blank : p.Blank)
    (hcalls : ∀ call ∈ calls, call.Storable) (hlength : calls.length < 2 ^ 64) {m : Mint}
    {now : Timestamp} {b : TransactionBody} (hb : d.assembled m now = .ok b) :
    (∀ signed ∈ d.signedBytes, signed = Wired.toBytes b) ↔ ∀ x ∈ bodies, x = b := by
  obtain ⟨hd, hbodies⟩ := h.storable blank hcalls hlength
  rw [h.covers.signed_iff]
  refine forall₂_congr fun x hx => ⟨fun heq => ?_, fun heq => heq ▸ rfl⟩
  exact TransactionBody.toBytes_inj (hbodies x hx) (hd.assembled hlength hb) heq

end Built

end Building

end Draft

/-! ## 5. What reaches the channel -/

section Sending

variable [SignatureScheme] {σ : Type}

/-- **Submitting a draft closes it and sends its envelope**, unless it cannot be closed or the
connection is. -/
theorem Connection.witness_execute (c : Connection σ) (d : Draft) (s : ClientState σ) :
    match (d.close s.mint s.wall).1 with
    | .error e => c.witness (·.execute d) s = (.error e, [])
    | .ok (_, t) =>
      (c.witness (·.execute d) s).2 = if s.closed then [] else [.transaction t] := by
  have hclose : d.closeNow.run s.witnessed
      = ((d.close s.mint s.wall).1,
          { s.witnessed with mint := (d.close s.mint s.wall).2 }) := rfl
  unfold witness execute
  rw [ClientM.run_bind, hclose]
  cases (d.close s.mint s.wall).1 with
  | error e => rfl
  | ok closed =>
    obtain ⟨id, t⟩ := closed
    dsimp only
    rw [ClientM.run_bind]
    -- What is made of the response sends nothing more.
    refine Eq.trans ?_ (sent_call c _ { s.witnessed with mint := (d.close s.mint s.wall).2 })
    rcases (c.witnessed.call (.transaction t)).run _ with ⟨_ | _ | _, _⟩ <;> rfl

/-- Signing sends nothing. -/
theorem Connection.witness_signNow (c : Connection σ) (d : Draft) (signer : Signer)
    (s : ClientState σ) :
    c.witness (fun _ => d.signNow signer) s = ((d.sign signer s.mint s.wall).1, []) := rfl

variable {p : PayloadDraft} {calls : List Draft.Call} {bodies : List TransactionBody} {d : Draft}

namespace Draft

namespace Built

/-- **What a submission sends**, if it sends anything: the bytes of the body as it stands, under the
signatures of all signers. -/
theorem sent (built : Built p calls bodies d) (c : Connection σ) (s : ClientState σ) :
    (c.witness (·.execute d) s).2 = []
      ∨ ∃ b, d.assembled s.mint s.wall = .ok b
        ∧ (c.witness (·.execute d) s).2
          = [.transaction (envelope (signers calls) (Wired.toBytes b))] := by
  have hexecute := c.witness_execute d s
  cases hclosed : (d.close s.mint s.wall).1 with
  | error e =>
    rw [hclosed] at hexecute
    exact .inl (congrArg Prod.snd hexecute)
  | ok closed =>
    obtain ⟨b, hb⟩ := assembled_of_close hclosed
    rw [hclosed] at hexecute
    rw [close_eq hb] at hclosed
    split at hclosed
    · cases hclosed
    · split at hclosed <;> cases hclosed
      rename_i hsame
      rw [built.covers.sealed_eq hsame] at hexecute
      cases hc : s.closed with
      | true => exact .inl (by simpa [hc] using hexecute)
      | false => exact .inr ⟨b, hb, by simpa [hc] using hexecute⟩

variable {c : Connection σ} {s : ClientState σ} {b : TransactionBody}

/-- **Where other bytes are signed**, nothing is signed any more, and nothing is sent. -/
theorem refused (hb : d.assembled s.mint s.wall = .ok b)
    (hother : ¬ ∀ signed ∈ d.signedBytes, signed = Wired.toBytes b) :
    (∀ signer, c.witness (fun _ => d.signNow signer) s = (.error .staleSignature, []))
      ∧ c.witness (·.execute d) s
        = (.error (match d.payload.validate with
            | .error e => e
            | .ok () => .staleSignature), []) := by
  obtain ⟨d₁, hd₁, hb₁⟩ := assembled_eq_ok.mp hb
  have hexecute := c.witness_execute d s
  rw [close_eq hb, if_neg hother] at hexecute
  refine ⟨fun signer => ?_, ?_⟩
  · rw [c.witness_signNow, sign_eq hd₁ hb₁, if_neg hother]
  · cases hvalid : d.payload.validate with
    | error e => simpa [hvalid] using hexecute
    | ok => simpa [hvalid] using hexecute

/-- **Where only these bytes are signed**, one more signature is added, and a valid payload is
sent. -/
theorem taken (built : Built p calls bodies d) (hb : d.assembled s.mint s.wall = .ok b)
    (hsame : ∀ signed ∈ d.signedBytes, signed = Wired.toBytes b) :
    (∀ signer, ∃ d', c.witness (fun _ => d.signNow signer) s = (.ok d', [])
        ∧ d'.signatures = (envelope (signers calls ++ [signer]) (Wired.toBytes b)).signatures)
      ∧ (d.payload.validate = .ok () → s.closed = false →
        (c.witness (·.execute d) s).2
          = [.transaction (envelope (signers calls) (Wired.toBytes b))]) := by
  obtain ⟨d₁, hd₁, hb₁⟩ := assembled_eq_ok.mp hb
  have hexecute := c.witness_execute d s
  rw [close_eq hb, if_pos hsame, built.covers.sealed_eq hsame] at hexecute
  refine ⟨fun signer => ⟨_, by rw [c.witness_signNow, sign_eq hd₁ hb₁, if_pos hsame], ?_⟩,
    fun hvalid hopen => ?_⟩
  · rw [envelope_concat, ← built.covers.sealed_eq hsame]
  · simpa [hvalid, hopen] using hexecute

end Built

/-- **Signatures cover what is submitted.**  Of a draft of any kind, built by any calls, submission
sends one request at the most, and its signatures are what the signers of the calls make of the bytes
that are sent, in the order of the calls and with repetitions.

If the body assembled by now is not the one that was assembled for every signature so far, the draft
can be signed no more, and submitting it ends with the error of the payload's own check or else with
the one of stale signatures; nothing is sent.  If it is, whatever it was in between, a signature is
added, and a valid payload is sent on a connection that is open.

The work is in `Built.signed_iff`, which makes a question of bodies out of the one of bytes that signing and
submitting ask. -/
theorem signatures_cover_submission (blank : p.Blank) (built : Built p calls bodies d)
    (hcalls : ∀ call ∈ calls, call.Storable) (hlength : calls.length < 2 ^ 64)
    (c : Connection σ) (s : ClientState σ) :
    ((c.witness (·.execute d) s).2 = []
      ∨ ∃ b, d.assembled s.mint s.wall = .ok b
        ∧ (c.witness (·.execute d) s).2
          = [.transaction (envelope (signers calls) (Wired.toBytes b))])
    ∧ ∀ b, d.assembled s.mint s.wall = .ok b →
      ((∃ x ∈ bodies, x ≠ b) →
        (∀ signer, c.witness (fun _ => d.signNow signer) s = (.error .staleSignature, []))
        ∧ c.witness (·.execute d) s
          = (.error (match d.payload.validate with
              | .error e => e
              | .ok () => .staleSignature), []))
      ∧ ((∀ x ∈ bodies, x = b) →
        (∀ signer, ∃ d', c.witness (fun _ => d.signNow signer) s = (.ok d', [])
          ∧ d'.signatures = (envelope (signers calls ++ [signer]) (Wired.toBytes b)).signatures)
        ∧ (d.payload.validate = .ok () → s.closed = false →
          (c.witness (·.execute d) s).2
            = [.transaction (envelope (signers calls) (Wired.toBytes b))])) := by
  refine ⟨built.sent c s, fun b hb => ?_⟩
  have hsame := built.signed_iff blank hcalls hlength hb
  refine ⟨fun ⟨x, hx, hne⟩ => ?_, fun hfresh => ?_⟩
  · exact Built.refused hb fun h => hne (hsame.mp h x hx)
  · exact built.taken hb (hsame.mpr hfresh)

end Draft

end Sending

/-! ## 6. A deletion, built -/

namespace Trial

open Draft

/-- **Whoever signs by the number** of an account. -/
def signer (number : UInt8) : Signer := fun _ => ⟨(key number).bytes⟩

/-- **Calls that build the deletion** and have it signed.  In between the memo is changed and changed
back. -/
def deletionCalls : List Call :=
  [.edit (.id deletion.id), .edit (.node (.simple 3)), .edit (.beneficiary (.simple 5)),
    .edit (.listed true), .sign (signer 2) .fresh ⟨1000, 0⟩, .edit (.memo "again"),
    .edit (.memo ""), .sign (signer 4) .fresh ⟨1000, 0⟩]

/-- **The draft of the deletion**, with the signatures of some. -/
def deletionDraft (signatures : List Signature) (signedBytes : Option Bytes) : Draft where
  id := some deletion.id
  operator := none
  node := some deletion.node
  memo := ""
  fee := defaultFee
  validity := defaultValidity
  listed := true
  payload := .delete (.simple 4) (some (.simple 5))
  signatures := signatures
  signedBytes := signedBytes

/-- **The draft that both have signed.** -/
def signedDraft : Draft :=
  deletionDraft signedDeletion.signatures (some signedDeletion.bodyBytes)

/-- **The calls with one more**, which changes the memo for good. -/
def staleCalls : List Call :=
  deletionCalls ++ [.edit (.memo "again")]

/-- **The draft after that change.** -/
def staleDraft : Draft :=
  { signedDraft with memo := "again" }

/-- The calls build the draft, and the same body is assembled for both signatures. -/
theorem built_deletion :
    letI := scheme
    Built (.deletionOf (.simple 4)) deletionCalls [deletion, deletion] signedDraft := by
  let := scheme
  have edited : Built (.deletionOf (.simple 4)) (deletionCalls.take 4) [] (deletionDraft [] none) :=
    .edit (.edit (.edit (.edit .blank rfl) rfl) rfl) rfl
  have signed : Built (.deletionOf (.simple 4)) (deletionCalls.take 5) [deletion]
      (deletionDraft [signer 2 []] (some signedDeletion.bodyBytes)) :=
    .sign edited rfl ((sign_eq rfl rfl).trans (if_pos nofun))
  have restored : Built (.deletionOf (.simple 4)) (deletionCalls.take 7) [deletion]
      (deletionDraft [signer 2 []] (some signedDeletion.bodyBytes)) :=
    .edit (.edit signed rfl) rfl
  exact .sign restored rfl
    ((sign_eq rfl rfl).trans (if_pos fun _ h => (Option.some.inj h).symm))

/-- **A connection to a node in memory**, which is the world. -/
def connection [SignatureScheme] : Connection Emulator where
  channel := Emulator.channel id fun _ e => e

/-- **A client** of the node that has the ledger for trials. -/
def client : ClientState Emulator where
  wall := ⟨1001, 0⟩
  world := ⟨{}, ledger, false, 0⟩

end Trial

namespace Draft

open Trial in
/-- On a connection to a node in memory, the very same deletion is sent that was signed, under both
signatures.  With its memo changed once more it is stale, and not sent. -/
theorem signatures_cover_deletion :
    letI := scheme
    ((PayloadDraft.deletionOf (.simple 4)).Blank
        ∧ Built (.deletionOf (.simple 4)) deletionCalls [deletion, deletion] signedDraft
        ∧ Built (.deletionOf (.simple 4)) staleCalls [deletion, deletion] staleDraft
        ∧ (∀ call ∈ staleCalls, call.Storable) ∧ staleCalls.length < 2 ^ 64)
      ∧ (connection.witness (·.execute signedDraft) client).2 = [.transaction signedDeletion]
      ∧ connection.witness (·.execute staleDraft) client = (.error .staleSignature, []) := by
  let := scheme
  have blank : (PayloadDraft.deletionOf (.simple 4)).Blank := .deletion _
  have built : Built (.deletionOf (.simple 4)) staleCalls [deletion, deletion] staleDraft :=
    .edit built_deletion rfl
  have hcalls : ∀ call ∈ staleCalls, call.Storable := by
    have hmemo : "again".utf8ByteSize < 2 ^ 64 := by decide
    simpa [staleCalls, deletionCalls, Call.Storable, Edit.Storable] using hmemo
  have hlength : staleCalls.length < 2 ^ 64 := by decide
  have hcalls' : ∀ call ∈ deletionCalls, call.Storable := fun call h =>
    hcalls call (List.mem_append_left _ h)
  obtain ⟨-, hsigned⟩ :=
    signatures_cover_submission blank built_deletion hcalls' (by decide) connection client
  obtain ⟨-, hstale⟩ :=
    signatures_cover_submission blank built hcalls hlength connection client
  have hsame : ∀ x ∈ [deletion, deletion], x = deletion := by simp
  have hassembled : staleDraft.assembled client.mint client.wall
      = .ok { deletion with memo := "again" } := rfl
  have hother : deletion ≠ { deletion with memo := "again" } := fun h =>
    absurd (congrArg TransactionBody.memo h) (by decide)
  exact ⟨⟨blank, built_deletion, built, hcalls, hlength⟩,
    ((hsigned deletion rfl).2 hsame).2 rfl rfl,
    ((hstale _ hassembled).1 ⟨deletion, List.mem_cons_self, hother⟩).2⟩

end Draft

end ShardLedger
