import Mathlib.Data.List.TakeWhile
import ShardLedger.Proofs.SignatureCover
/-
Who pays for a transaction that was built.

A draft that is not given an identifier has one minted under its operator.  This happens as late as it can,
but not later than the first signature, since signatures are of bodies with their identifier in them.  From
then on the draft has two accounts to name: its operator, which may be given again, and the payer in its
identifier, which stays.  A body knows the payer alone, so an operator that is given after the first
signature leaves the body as it was, and no signature is stale for it.

So the operator at the first signature pays.  Whether this is the operator that was given last is a matter
of the calls behind that signature only.
-/

set_option autoImplicit false

namespace ShardLedger

namespace Draft

/-! ## 1. Operators among the calls -/

/-- **The operator that a call gives**, if it gives one. -/
def Call.operator? : Call → Option AccountId
  | .edit (.operator id) => some id
  | _ => none

/-- **The operator that is given last** by calls. -/
def lastOperator (calls : List Call) : Option AccountId :=
  (calls.filterMap Call.operator?).getLast?

/-- **The calls before the first signature**, all of them if there is none. -/
def beforeSigning (calls : List Call) : List Call :=
  calls.takeWhile (·.signer?.isNone)

/-- **The calls from the first signature on.** -/
def fromSigning (calls : List Call) : List Call :=
  calls.dropWhile (·.signer?.isNone)

section Calls

variable {calls more : List Call}

/-- What is given later counts before what was given earlier. -/
theorem lastOperator_append (calls more : List Call) :
    lastOperator (calls ++ more) = (lastOperator more).or (lastOperator calls) := by
  rw [lastOperator, List.filterMap_append, List.getLast?_append]
  rfl

theorem beforeSigning_append_fromSigning (calls : List Call) :
    beforeSigning calls ++ fromSigning calls = calls :=
  List.takeWhile_append_dropWhile

/-- Without a signature all calls are before the first. -/
theorem beforeSigning_of_unsigned (h : signers calls = []) : beforeSigning calls = calls := by
  refine List.takeWhile_eq_self_iff.mpr fun call hcall => ?_
  rw [List.filterMap_eq_nil_iff.mp h call hcall]
  rfl

/-- With a signature the calls before the first one are settled. -/
theorem beforeSigning_append_of_signed (h : signers calls ≠ []) (more : List Call) :
    beforeSigning (calls ++ more) = beforeSigning calls := by
  have hshort : (beforeSigning calls).length ≠ calls.length := by
    intro hlength
    have hall : beforeSigning calls = calls :=
      (List.takeWhile_prefix _).eq_of_length hlength
    apply h
    refine List.filterMap_eq_nil_iff.mpr fun call hcall => ?_
    exact Option.isNone_iff_eq_none.mp (List.takeWhile_eq_self_iff.mp hall call hcall)
  rw [beforeSigning, List.takeWhile_append, ← beforeSigning, if_neg hshort]

end Calls

/-! ## 2. Operator and identifier of a draft -/

section Steps

variable {d d' : Draft} {m : Mint} {now : Timestamp}

/-- An edit gives the draft its operator if it is one of the operator, and leaves the identifier unless it is
one of it. -/
theorem edit?_operator {e : Edit} (h : d.edit? e = some d') :
    d'.operator = (Call.edit e).operator?.or d.operator ∧ ((∀ id, e ≠ .id id) → d'.id = d.id) := by
  -- Edits of the payload leave all else as it is.
  have hpayload : ∀ {o : Option PayloadDraft},
      o.map (fun p => { d with payload := p }) = some d' → d'.operator = d.operator ∧ d'.id = d.id := by
    intro o h
    obtain ⟨p, -, rfl⟩ := Option.map_eq_some_iff.mp h
    exact ⟨rfl, rfl⟩
  cases e with
  | id id =>
    obtain rfl := Option.some.inj h
    exact ⟨rfl, fun hne => absurd rfl (hne id)⟩
  | operator | node | memo | fee | validity | listed =>
    obtain rfl := Option.some.inj h
    exact ⟨rfl, fun _ => rfl⟩
  | key | initialBalance | autoRenew | leg | beneficiary =>
    obtain ⟨hoperator, hid⟩ := hpayload h
    exact ⟨hoperator, fun _ => hid⟩

/-- A draft keeps its identifier, or is given one under its operator. -/
theorem identify_operator (h : (d.identify m now).1 = .ok d') :
    d'.operator = d.operator
      ∧ ∃ id, d'.id = some id ∧ (d.id = some id ∨ d.id = none ∧ d.operator = some id.accountId) := by
  unfold identify at h
  split at h
  · rename_i id hid
    obtain rfl := Except.ok.inj h
    exact ⟨rfl, id, hid, .inl hid⟩
  · cases h
  · rename_i operator hid hoperator
    obtain rfl := Except.ok.inj h
    exact ⟨rfl, _, rfl, .inr ⟨hid, hoperator⟩⟩

/-- A body has the identifier of its draft. -/
theorem id_of_body {b : TransactionBody} (h : d.body = .ok b) : d.id = some b.id := by
  obtain ⟨id, hid, h⟩ := bind_eq_ok.mp h
  obtain ⟨node, -, h⟩ := bind_eq_ok.mp h
  obtain ⟨payload, -, h⟩ := bind_eq_ok.mp h
  obtain rfl := Except.ok.inj h
  unfold demand at hid
  split at hid
  · rename_i id' hsome
    obtain rfl := Except.ok.inj hid
    exact hsome
  · cases hid

/-- **Once there is an identifier, a body has nothing of the operator.** -/
theorem body_operator {id : TransactionId} (h : d.id = some id) (operator : Option AccountId) :
    Draft.body { d with operator := operator } = d.body := by
  unfold body
  simp only [h, demand]

end Steps

/-- **What calls make of operator and identifier**, if they give no identifier: the operator is the one given
last, and the identifier is minted with the first signature, under the operator of that time. -/
structure Operated (calls : List Call) (d : Draft) : Prop where
  operator : d.operator = lastOperator calls
  unsigned : signers calls = [] → d.id = none
  signed : signers calls ≠ [] → ∃ id, d.id = some id
    ∧ lastOperator (beforeSigning calls) = some id.accountId

namespace Operated

variable {calls : List Call} {d d' : Draft} {m : Mint} {now : Timestamp}

theorem edit {e : Edit} (h : Operated calls d) (he : ∀ id, e ≠ .id id) (hd : d.edit? e = some d') :
    Operated (calls ++ [.edit e]) d' := by
  obtain ⟨hoperator, hid⟩ := edit?_operator hd
  refine ⟨?_, ?_, ?_⟩
  · have hlast : lastOperator [.edit e] = (Call.edit e).operator? := by cases e <;> rfl
    rw [hoperator, h.operator, lastOperator_append, hlast]
  · rw [signers_edit, hid he]
    exact h.unsigned
  · rw [signers_edit, hid he]
    intro hsigned
    rw [beforeSigning_append_of_signed hsigned]
    exact h.signed hsigned

/-- **Whoever is the operator at the first signature pays**, and if there is none, whoever is it now. -/
theorem payer (h : Operated calls d) {d₁ : Draft} (hd : (d.identify m now).1 = .ok d₁) :
    ∃ id, d₁.id = some id ∧ lastOperator (beforeSigning calls) = some id.accountId := by
  obtain ⟨-, id, hid, hsource⟩ := identify_operator hd
  refine ⟨id, hid, ?_⟩
  by_cases hunsigned : signers calls = []
  · rw [beforeSigning_of_unsigned hunsigned]
    rcases hsource with hold | ⟨-, hoperator⟩
    · rw [h.unsigned hunsigned] at hold
      cases hold
    · rw [← h.operator, hoperator]
  · obtain ⟨id', hid', hpayer⟩ := h.signed hunsigned
    rcases hsource with hold | ⟨hnone, -⟩
    · rw [hold] at hid'
      obtain rfl := Option.some.inj hid'
      exact hpayer
    · rw [hnone] at hid'
      cases hid'

theorem sign [SignatureScheme] {signer : Signer} {b : TransactionBody} (h : Operated calls d)
    (hb : d.assembled m now = .ok b) (hd : (d.sign signer m now).1 = .ok d') :
    Operated (calls ++ [.sign signer m now]) d' := by
  obtain ⟨d₁, hd₁, hb⟩ := assembled_eq_ok.mp hb
  obtain ⟨id, hid, hpayer⟩ := h.payer hd₁
  obtain ⟨hoperator, -⟩ := identify_operator hd₁
  rw [sign_eq hd₁ hb] at hd
  split at hd <;> cases hd
  have hlast : lastOperator (calls ++ [.sign signer m now]) = lastOperator calls :=
    lastOperator_append calls _
  have hbefore : beforeSigning (calls ++ [.sign signer m now]) = beforeSigning calls := by
    by_cases hunsigned : signers calls = []
    · have hall : (calls.takeWhile (·.signer?.isNone)).length = calls.length :=
        congrArg List.length (beforeSigning_of_unsigned hunsigned)
      rw [beforeSigning_of_unsigned hunsigned, beforeSigning, List.takeWhile_append, if_pos hall]
      exact List.append_nil _
    · exact beforeSigning_append_of_signed hunsigned _
  refine ⟨?_, ?_, ?_⟩
  · rw [hlast, ← h.operator]
    exact hoperator
  · rw [signers_sign]
    intro hnone
    exact absurd hnone (List.append_ne_nil_of_right_ne_nil _ (List.cons_ne_nil _ _))
  · rw [hbefore]
    exact fun _ => ⟨id, hid, hpayer⟩

end Operated

/-! ## 3. Who pays -/

section Paying

variable [SignatureScheme] {σ : Type} {p : PayloadDraft} {calls : List Call}
  {bodies : List TransactionBody} {d : Draft}

/-- **A building that is given no identifier** keeps operator and identifier as it should. -/
theorem Built.operated (built : Built p calls bodies d)
    (hcalls : ∀ call ∈ calls, ∀ id, call ≠ .edit (.id id)) : Operated calls d := by
  induction built with
  | blank => exact ⟨rfl, fun _ => rfl, fun h => absurd rfl h⟩
  | @edit calls bodies d d' e before edits ih =>
    have he : ∀ id, e ≠ .id id := fun id h =>
      hcalls (.edit e) List.mem_concat_self id (congrArg Call.edit h)
    exact (ih fun call h => hcalls call (List.mem_append_left _ h)).edit he edits
  | sign before assembles signs ih =>
    exact (ih fun call h => hcalls call (List.mem_append_left _ h)).sign assembles signs

/-- **The operator at the first signature pays.**  Of a draft of any kind, built by any calls that give it
no identifier, submission sends one request at the most.  The payer in the body that is sent is the operator
that was given last before the first signature, or given last at all if there is no signature.

So it is the operator that was given last exactly if the calls from the first signature on give no operator,
or end with giving the same one.

The work is in `Built.operated`: the first signature fixes the identifier under the operator of that moment,
and nothing takes it back. -/
theorem operator_at_first_signature_pays (built : Built p calls bodies d)
    (hcalls : ∀ call ∈ calls, ∀ id, call ≠ .edit (.id id)) (c : Connection σ) (s : ClientState σ) :
    (c.witness (·.execute d) s).2 = []
      ∨ ∃ b : TransactionBody, (c.witness (·.execute d) s).2
          = [.transaction (envelope (signers calls) (Wired.toBytes b))]
        ∧ lastOperator (beforeSigning calls) = some b.id.accountId
        ∧ (lastOperator calls = some b.id.accountId
          ↔ ∀ id ∈ lastOperator (fromSigning calls), id = b.id.accountId) := by
  refine (built.sent c s).imp_right ?_
  rintro ⟨b, hb, hsent⟩
  obtain ⟨d₁, hd₁, hbody⟩ := assembled_eq_ok.mp hb
  obtain ⟨id, hid, hpayer⟩ := (built.operated hcalls).payer hd₁
  rw [id_of_body hbody] at hid
  obtain rfl := Option.some.inj hid
  refine ⟨b, hsent, hpayer, ?_⟩
  have hsplit : lastOperator calls
      = (lastOperator (fromSigning calls)).or (lastOperator (beforeSigning calls)) := by
    rw [← lastOperator_append, beforeSigning_append_fromSigning]
  rw [hsplit, hpayer]
  cases lastOperator (fromSigning calls) <;> simp

end Paying

end Draft

/-! ## 4. A deletion under an operator -/

namespace Trial

open Draft

/-- **Calls that build the deletion** for an operator, who is given after another, and have it signed. -/
def operatedCalls : List Call :=
  [.edit (.operator (.simple 5)), .edit (.operator (.simple 2)), .edit (.node (.simple 3)),
    .edit (.beneficiary (.simple 5)), .edit (.listed true), .sign (signer 2) .fresh ⟨1005, 0⟩,
    .sign (signer 4) .fresh ⟨1005, 0⟩]

/-- **The draft of the deletion under an operator**, signed by both. -/
def operatedDraft (operator : AccountId) : Draft :=
  { signedDraft with operator := some operator }

/-- **The same calls, and then another operator.** -/
def reoperatedCalls : List Call :=
  operatedCalls ++ [.edit (.operator (.simple 5))]

/-- The calls build the draft: five seconds behind the clock the identifier of the deletion is minted. -/
theorem built_operated :
    letI := scheme
    Built (.deletionOf (.simple 4)) operatedCalls [deletion, deletion]
      (operatedDraft (.simple 2)) := by
  let := scheme
  let edits : Draft := { deletionDraft [] none with id := none, operator := some (.simple 2) }
  let once : Draft :=
    { deletionDraft [signer 2 []] (some signedDeletion.bodyBytes) with operator := some (.simple 2) }
  have edited : Built (.deletionOf (.simple 4)) (operatedCalls.take 5) [] edits :=
    .edit (.edit (.edit (.edit (.edit .blank rfl) rfl) rfl) rfl) rfl
  have hminted : (edits.identify .fresh ⟨1005, 0⟩).1
      = .ok { edits with id := some deletion.id } := rfl
  have hbody : Draft.body { edits with id := some deletion.id } = .ok deletion :=
    body_operator (d := deletionDraft [] none) rfl _
  have signed : Built (.deletionOf (.simple 4)) (operatedCalls.take 6) [deletion] once :=
    .sign edited (assembled_eq_ok.mpr ⟨_, hminted, hbody⟩)
      ((sign_eq hminted hbody).trans (if_pos nofun))
  have hsame : once.body = .ok deletion := body_operator rfl _
  exact .sign signed hsame
    ((sign_eq rfl hsame).trans (if_pos fun _ h => (Option.some.inj h).symm))

/-- Whatever its operator is by now, the draft is sent as it was signed. -/
theorem sent_operated {calls : List Call} {operator : AccountId} :
    letI := scheme
    Built (.deletionOf (.simple 4)) calls [deletion, deletion] (operatedDraft operator) →
      (connection.witness (·.execute (operatedDraft operator)) client).2
        = [.transaction (envelope (signers calls) (Wired.toBytes deletion))] := by
  let := scheme
  intro built
  have hbody : (operatedDraft operator).assembled client.mint client.wall = .ok deletion :=
    body_operator (d := signedDraft) rfl _
  have hsigned : ∀ bytes ∈ (operatedDraft operator).signedBytes, bytes = Wired.toBytes deletion :=
    fun _ h => (Option.some.inj h).symm
  exact (built.taken (c := connection) hbody hsigned).2 rfl rfl

end Trial

namespace Draft

open Trial in
/-- The deletion is sent at the cost of the operator that was given last. -/
theorem operator_at_first_signature_pays_deletion :
    letI := scheme
    (Built (.deletionOf (.simple 4)) operatedCalls [deletion, deletion] (operatedDraft (.simple 2))
        ∧ ∀ call ∈ operatedCalls, ∀ id, call ≠ .edit (.id id))
      ∧ (connection.witness (·.execute (operatedDraft (.simple 2))) client).2
          = [.transaction (envelope (signers operatedCalls) (Wired.toBytes deletion))]
      ∧ lastOperator (beforeSigning operatedCalls) = some (.simple 2)
      ∧ lastOperator operatedCalls = some (.simple 2) := by
  let := scheme
  have hcalls : ∀ call ∈ operatedCalls, ∀ id, call ≠ .edit (.id id) := by
    simp [operatedCalls]
  have hsent := sent_operated built_operated
  refine ⟨⟨built_operated, hcalls⟩, hsent, rfl, ?_⟩
  rcases operator_at_first_signature_pays built_operated hcalls connection client with
    hnone | ⟨b, -, hpayer, hiff⟩
  · rw [hsent] at hnone
    cases hnone
  · -- From the first signature on no operator is given.
    have hlast := hiff.mpr nofun
    rw [hlast, ← hpayer]
    rfl

open Trial in
/-- An operator that is given after the first signature does not pay.  The deletion is sent as it was signed,
and the one who pays for it is not the operator that was given last. -/
theorem late_operator_does_not_pay :
    letI := scheme
    Built (.deletionOf (.simple 4)) reoperatedCalls [deletion, deletion] (operatedDraft (.simple 5))
      ∧ (∀ call ∈ reoperatedCalls, ∀ id, call ≠ .edit (.id id))
      ∧ (connection.witness (·.execute (operatedDraft (.simple 5))) client).2
          = [.transaction (envelope (signers reoperatedCalls) (Wired.toBytes deletion))]
      ∧ deletion.id.accountId = .simple 2
      ∧ lastOperator reoperatedCalls = some (.simple 5) := by
  let := scheme
  have built : Built (.deletionOf (.simple 4)) reoperatedCalls [deletion, deletion]
      (operatedDraft (.simple 5)) :=
    .edit built_operated rfl
  exact ⟨built, by simp [reoperatedCalls, operatedCalls], sent_operated built, rfl, rfl⟩

end Draft

end ShardLedger
