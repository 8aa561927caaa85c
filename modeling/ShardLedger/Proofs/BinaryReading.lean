import ShardLedger.Proofs.Admission
import ShardLedger.Proofs.BinaryForm
import ShardLedger.Proofs.ProperMessages
/-
What is read from bytes fits, and is what they spell.

A reader gives nothing but data that fit its schema: words of their widths, texts and lists that were
counted, and whatever passes every guard.  And it takes nothing from the front of the bytes but a
spelling of the data.  So a reader accepts exactly the spellings of the data that fit; and a body that was
read, from whatever bytes, names proper accounts and proper keys only.
-/

set_option autoImplicit false

namespace ShardLedger

/-! ## 1. Words and texts -/

/-- A little-endian byte string writes a word of its length. -/
theorem Bytes.toNatLE_lt (b : Bytes) : toNatLE b < 256 ^ b.length := by
  induction b with
  | nil => exact Nat.one_pos
  | cons x xs ih =>
    have hx := x.toNat_lt
    rw [toNatLE, List.length_cons, Nat.pow_succ']
    omega

/-- Bytes that spell a text are its bytes. -/
theorem Bytes.ofText_of_toText? {b : Bytes} {s : String} (h : toText? b = some s) :
    ofText s = b := by
  rw [toText?, String.fromUTF8?] at h
  split at h
  · obtain rfl := Option.some.inj h
    rfl
  · cases h

namespace Wire

namespace Width

/-- The integer of a word is of its width. -/
theorem holds_ofWord {w : Width} {n : Nat} (h : n < 256 ^ w.bytes) : w.Holds (w.ofWord n) := by
  cases w <;> simp only [Width.bytes] at h <;> simp only [Width.Holds, Width.ofWord] <;> omega

/-- A word is the word of its integer. -/
theorem toWord_ofWord {w : Width} {n : Nat} (h : n < 256 ^ w.bytes) : w.toWord (w.ofWord n) = n := by
  have hword := toWord_eq w (w.ofWord n)
  cases w <;> simp only [Width.bytes, Width.ofWord] at h hword ⊢ <;> omega

end Width

/-! ## 2. Reading the pieces -/

section Pieces

variable {b t : Bytes} {n : Nat}

theorem of_takeBytes {w : Bytes} (h : takeBytes n b = .ok (w, t)) : w.length = n ∧ b = w ++ t := by
  unfold takeBytes at h
  by_cases hn : n ≤ b.length
  · rw [if_pos hn] at h
    obtain ⟨rfl, rfl⟩ := Prod.mk.inj (Except.ok.inj h)
    exact ⟨List.length_take_of_le hn, (List.take_append_drop n b).symm⟩
  · rw [if_neg hn] at h
    cases h

theorem of_takeWord {width : Nat} (h : takeWord width b = .ok (n, t)) :
    n < 256 ^ width ∧ b = Bytes.ofNatLE width n ++ t := by
  obtain ⟨⟨w, rest⟩, hw, h⟩ := bind_eq_ok.mp h
  obtain ⟨rfl, rfl⟩ := Prod.mk.inj (Except.ok.inj h)
  obtain ⟨hlength, hb⟩ := of_takeBytes hw
  rw [← hlength, Bytes.ofNatLE_toNatLE]
  exact ⟨Bytes.toNatLE_lt w, hb⟩

theorem of_takeText {s : String} (h : takeText b = .ok (s, t)) :
    s.utf8ByteSize < 2 ^ 64 ∧ b = putCounted (Bytes.ofText s) ++ t := by
  obtain ⟨⟨n, rest⟩, hn, h⟩ := bind_eq_ok.mp h
  obtain ⟨⟨w, rest'⟩, hw, h⟩ := bind_eq_ok.mp h
  obtain ⟨hlt, hb⟩ := of_takeWord hn
  obtain ⟨hlength, hrest⟩ := of_takeBytes hw
  dsimp only at h hrest
  split at h
  · rename_i s' hs
    obtain ⟨rfl, rfl⟩ := Prod.mk.inj (Except.ok.inj h)
    obtain rfl := Bytes.ofText_of_toText? hs
    rw [← Bytes.length_ofText, hlength, hb, hrest, putCounted, putLength, hlength, List.append_assoc]
    exact ⟨hlt, rfl⟩
  · cases h

theorem of_takeFlag {f : Bool} (h : takeFlag b = .ok (f, t)) : b = (if f then 1 else 0) :: t := by
  unfold takeFlag at h
  split at h
  · obtain ⟨rfl, rfl⟩ := Prod.mk.inj (Except.ok.inj h)
    rfl
  · obtain ⟨rfl, rfl⟩ := Prod.mk.inj (Except.ok.inj h)
    rfl
  · cases h

/-- Of many values each was read by itself. -/
theorem of_takeMany {α : Type} {one : Reader α} {R : α → Bytes → Prop}
    (hone : ∀ {b a t}, one b = .ok (a, t) → ∃ q, R a q ∧ b = q ++ t) {as : List α}
    (h : takeMany one n b = .ok (as, t)) :
    as.length = n ∧ ∃ qs, List.Forall₂ R as qs ∧ b = qs.flatten ++ t := by
  induction n generalizing b t as with
  | zero =>
    obtain ⟨rfl, rfl⟩ := Prod.mk.inj (Except.ok.inj h)
    exact ⟨rfl, [], .nil, rfl⟩
  | succ n ih =>
    obtain ⟨⟨a, rest⟩, ha, h⟩ := bind_eq_ok.mp h
    obtain ⟨⟨as', rest'⟩, has, h⟩ := bind_eq_ok.mp h
    obtain ⟨rfl, rfl⟩ := Prod.mk.inj (Except.ok.inj h)
    obtain ⟨q, hq, hb⟩ := hone ha
    obtain ⟨hlength, qs, hqs, hrest⟩ := ih has
    refine ⟨congrArg (· + 1) hlength, q :: qs, .cons hq hqs, ?_⟩
    rw [List.flatten_cons, List.append_assoc, ← hrest, hb]

end Pieces

/-! ## 3. What is read -/

mutual

/-- **What is read under a schema fits it**, guards included, and is what the bytes spell that were
taken.  The induction is on the schema; each case opens its reader and puts the pieces together again. -/
theorem Schema.of_take : ∀ (s : Schema) {b t : Bytes} {d : Datum}, s.take b = .ok (d, t) →
    s.Fits d ∧ ∃ p, s.Spells d p ∧ b = p ++ t
  | .int w, b, t, d, h => by
    obtain ⟨⟨n, rest⟩, hn, h⟩ := bind_eq_ok.mp h
    obtain ⟨rfl, rfl⟩ := Prod.mk.inj (Except.ok.inj h)
    obtain ⟨hlt, hb⟩ := of_takeWord hn
    refine ⟨Width.holds_ofWord hlt, _, rfl, ?_⟩
    rw [Schema.put, Width.toWord_ofWord hlt]
    exact hb
  | .bool, b, t, d, h => by
    obtain ⟨⟨f, rest⟩, hf, h⟩ := bind_eq_ok.mp h
    obtain ⟨rfl, rfl⟩ := Prod.mk.inj (Except.ok.inj h)
    exact ⟨trivial, _, rfl, of_takeFlag hf⟩
  | .text, b, t, d, h => by
    obtain ⟨⟨s, rest⟩, hs, h⟩ := bind_eq_ok.mp h
    obtain ⟨rfl, rfl⟩ := Prod.mk.inj (Except.ok.inj h)
    obtain ⟨hsize, hb⟩ := of_takeText hs
    exact ⟨hsize, _, rfl, hb⟩
  | .bytes length, b, t, d, h => by
    obtain ⟨⟨x, rest⟩, hx, h⟩ := bind_eq_ok.mp h
    obtain ⟨hsize, hb⟩ := of_takeText hx
    dsimp only at h
    split at h
    · rename_i bs hbs
      -- The text is of hexadecimal digits; what is left to check is how many bytes they are.
      split at h
      · rename_i hlength
        obtain ⟨rfl, rfl⟩ := Prod.mk.inj (Except.ok.inj h)
        refine ⟨⟨fun n hn => ?_, ?_⟩, _, ⟨x, Hex.decode_eq_some_iff.mp hbs, rfl⟩, hb⟩
        · obtain rfl : length = some n := hn
          exact (of_decide_eq_true hlength).symm
        · rw [← Hex.utf8ByteSize_of_decode hbs]
          exact hsize
      · cases h
    · cases h
  | .option s, b, t, d, h => by
    obtain ⟨⟨f, rest⟩, hf, h⟩ := bind_eq_ok.mp h
    have hb := of_takeFlag hf
    cases f with
    | false =>
      obtain ⟨rfl, rfl⟩ := Prod.mk.inj (Except.ok.inj h)
      exact ⟨trivial, _, rfl, hb⟩
    | true =>
      obtain ⟨⟨d', rest'⟩, hd, h⟩ := bind_eq_ok.mp h
      obtain ⟨rfl, rfl⟩ := Prod.mk.inj (Except.ok.inj h)
      obtain ⟨hfits, q, hq, hrest⟩ := Schema.of_take s hd
      refine ⟨hfits, _, ⟨q, hq, rfl⟩, ?_⟩
      rw [hb, hrest]
      rfl
  | .list s, b, t, d, h => by
    obtain ⟨⟨n, rest⟩, hn, h⟩ := bind_eq_ok.mp h
    obtain ⟨⟨ds, rest'⟩, hds, h⟩ := bind_eq_ok.mp h
    obtain ⟨rfl, rfl⟩ := Prod.mk.inj (Except.ok.inj h)
    obtain ⟨hlt, hb⟩ := of_takeWord hn
    -- Both facts of an item go through the list at once.
    have hone : ∀ {b d t}, s.take b = .ok (d, t) → ∃ q, (s.Fits d ∧ s.Spells d q) ∧ b = q ++ t := by
      intro b d t hd
      obtain ⟨hfits, q, hq, hb⟩ := Schema.of_take s hd
      exact ⟨q, ⟨hfits, hq⟩, hb⟩
    obtain ⟨rfl, qs, hqs, hrest⟩ := of_takeMany hone hds
    obtain ⟨hfits, hspells⟩ := (List.forall₂_and_left _ _).mp hqs
    refine ⟨⟨hlt, hfits⟩, _, ⟨qs, hspells, rfl⟩, ?_⟩
    rw [hb, hrest, putLength, List.append_assoc]
  | .record fs, b, t, d, h => by
    obtain ⟨⟨ds, rest⟩, hds, h⟩ := bind_eq_ok.mp h
    obtain ⟨rfl, rfl⟩ := Prod.mk.inj (Except.ok.inj h)
    exact Fields.of_take fs hds
  | .choice vs, b, t, d, h => by
    obtain ⟨⟨i, rest⟩, hi, h⟩ := bind_eq_ok.mp h
    obtain ⟨⟨d', rest'⟩, hd, h⟩ := bind_eq_ok.mp h
    obtain ⟨rfl, rfl⟩ := Prod.mk.inj (Except.ok.inj h)
    obtain ⟨hfit, q, hq, hrest⟩ := Variants.of_take vs hd
    refine ⟨hfit, _, ⟨q, hq, rfl⟩, ?_⟩
    rw [(of_takeWord hi).2, hrest, List.append_assoc]
  | .guarded guard s, b, t, d, h => by
    obtain ⟨⟨d', rest⟩, hd, h⟩ := bind_eq_ok.mp h
    dsimp only at h
    split at h
    · rename_i hguard
      obtain ⟨rfl, rfl⟩ := Prod.mk.inj (Except.ok.inj h)
      obtain ⟨hfits, p, hp, hb⟩ := Schema.of_take s hd
      exact ⟨⟨hfits, hguard⟩, p, (Schema.spells_guarded _ _ _ _).mpr hp, hb⟩
    · cases h

theorem Fields.of_take : ∀ (fs : Fields) {b t : Bytes} {ds : List Datum},
    fs.take b = .ok (ds, t) → fs.Fit ds ∧ ∃ p, fs.Spell ds p ∧ b = p ++ t
  | .nil, b, t, ds, h => by
    obtain ⟨rfl, rfl⟩ := Prod.mk.inj (Except.ok.inj h)
    exact ⟨trivial, [], rfl, rfl⟩
  | .cons _ _ s rest, b, t, ds, h => by
    obtain ⟨⟨d, b'⟩, hd, h⟩ := bind_eq_ok.mp h
    obtain ⟨⟨ds', b''⟩, hds, h⟩ := bind_eq_ok.mp h
    obtain ⟨rfl, rfl⟩ := Prod.mk.inj (Except.ok.inj h)
    obtain ⟨hfits, q, hq, hb⟩ := Schema.of_take s hd
    obtain ⟨hfit, r, hr, hrest⟩ := Fields.of_take rest hds
    refine ⟨⟨hfits, hfit⟩, q ++ r, ⟨q, r, hq, hr, rfl⟩, ?_⟩
    rw [hb, hrest, List.append_assoc]

theorem Variants.of_take : ∀ (vs : Variants) {i : Nat} {b t : Bytes} {d : Datum},
    vs.take i b = .ok (d, t) → vs.Fit i d ∧ ∃ p, vs.Spells i d p ∧ b = p ++ t
  | .nil, _, _, _, _, h => by cases h
  | .cons _ _ s _, 0, _, _, _, h => Schema.of_take s h
  | .cons _ _ _ rest, _ + 1, _, _, _, h => Variants.of_take rest h

end

/-- Values that one reader takes another takes too, if it takes each of them. -/
theorem takeMany_of_forall {α : Type} {one one' : Reader α}
    (hone : ∀ {b a t}, one b = .ok (a, t) → one' b = .ok (a, t)) {n : Nat} {b t : Bytes} {as : List α}
    (h : takeMany one n b = .ok (as, t)) : takeMany one' n b = .ok (as, t) := by
  induction n generalizing b t as with
  | zero => exact h
  | succ n ih =>
    obtain ⟨⟨a, rest⟩, ha, h⟩ := bind_eq_ok.mp h
    obtain ⟨⟨as', rest'⟩, has, h⟩ := bind_eq_ok.mp h
    exact bind_eq_ok.mpr ⟨_, hone ha, bind_eq_ok.mpr ⟨_, ih has, h⟩⟩

mutual

/-- **Guards only refuse**: what is read with them is read without them. -/
theorem Schema.take_bare : ∀ (s : Schema) {b t : Bytes} {d : Datum}, s.take b = .ok (d, t) →
    s.bare.take b = .ok (d, t)
  | .int _, _, _, _, h | .bool, _, _, _, h | .text, _, _, _, h | .bytes _, _, _, _, h => h
  | .option s, b, t, d, h => by
    obtain ⟨⟨f, rest⟩, hf, h⟩ := bind_eq_ok.mp h
    refine bind_eq_ok.mpr ⟨(f, rest), hf, ?_⟩
    cases f with
    | false => exact h
    | true =>
      obtain ⟨d', hd, h⟩ := bind_eq_ok.mp h
      exact bind_eq_ok.mpr ⟨d', Schema.take_bare s hd, h⟩
  | .list s, b, t, d, h => by
    obtain ⟨n, hn, h⟩ := bind_eq_ok.mp h
    obtain ⟨ds, hds, h⟩ := bind_eq_ok.mp h
    exact bind_eq_ok.mpr ⟨n, hn, bind_eq_ok.mpr ⟨ds, takeMany_of_forall (Schema.take_bare s) hds, h⟩⟩
  | .record fs, b, t, d, h => by
    obtain ⟨ds, hds, h⟩ := bind_eq_ok.mp h
    exact bind_eq_ok.mpr ⟨ds, Fields.take_bare fs hds, h⟩
  | .choice vs, b, t, d, h => by
    obtain ⟨i, hi, h⟩ := bind_eq_ok.mp h
    obtain ⟨d', hd, h⟩ := bind_eq_ok.mp h
    exact bind_eq_ok.mpr ⟨i, hi, bind_eq_ok.mpr ⟨d', Variants.take_bare vs hd, h⟩⟩
  | .guarded guard s, b, t, d, h => by
    obtain ⟨⟨d', rest⟩, hd, h⟩ := bind_eq_ok.mp h
    dsimp only at h
    split at h
    · obtain ⟨rfl, rfl⟩ := Prod.mk.inj (Except.ok.inj h)
      exact Schema.take_bare s hd
    · cases h

theorem Fields.take_bare : ∀ (fs : Fields) {b t : Bytes} {ds : List Datum},
    fs.take b = .ok (ds, t) → fs.bare.take b = .ok (ds, t)
  | .nil, _, _, _, h => h
  | .cons _ _ s rest, b, t, ds, h => by
    obtain ⟨d, hd, h⟩ := bind_eq_ok.mp h
    obtain ⟨ds', hds, h⟩ := bind_eq_ok.mp h
    exact bind_eq_ok.mpr
      ⟨d, Schema.take_bare s hd, bind_eq_ok.mpr ⟨ds', Fields.take_bare rest hds, h⟩⟩

theorem Variants.take_bare : ∀ (vs : Variants) {i : Nat} {b t : Bytes} {d : Datum},
    vs.take i b = .ok (d, t) → vs.bare.take i b = .ok (d, t)
  | .nil, _, _, _, _, h => by cases h
  | .cons _ _ s _, 0, _, _, _, h => Schema.take_bare s h
  | .cons _ _ _ rest, _ + 1, _, _, _, h => Variants.take_bare rest h

end

/-- **A reader accepts the spellings of the data that fit its schema**, and nothing else. -/
theorem Schema.take_eq_ok_iff {s : Schema} (hb : s.isBinary) {b t : Bytes} {d : Datum} :
    s.take b = .ok (d, t) ↔ s.Fits d ∧ ∃ p, s.Spells d p ∧ b = p ++ t := by
  constructor
  · exact s.of_take
  · rintro ⟨hfits, p, hp, rfl⟩
    exact s.take_of_spells hb hfits hp t

end Wire

open Wire

/-- **Reading a value**: it is read from its spellings, and they may be followed by anything. -/
theorem Wired.ofBytes_eq_ok_iff {α : Type} [Wired α] [LawfulWired α] [ExactWired α]
    (hb : (schema α).isBinary) {s : Bytes} {a : α} :
    ofBytes s = .ok a ↔ Fits a ∧ ∃ p t, (schema α).Spells (toDatum a) p ∧ s = p ++ t := by
  have hvalue : ∀ {d : Datum}, ofDatum d = .ok a ↔ ofDatum? d = some a := by
    intro d
    unfold ofDatum
    cases ofDatum? (α := α) d <;> simp
  constructor
  · intro h
    obtain ⟨⟨d, t⟩, hd, h⟩ := bind_eq_ok.mp h
    obtain ⟨hfits, p, hp, hs⟩ := (schema α).of_take hd
    obtain rfl := ExactWired.told hfits (hvalue.mp h)
    exact ⟨hfits, p, t, hp, hs⟩
  · rintro ⟨hfits, p, t, hp, hs⟩
    have hread := (Schema.take_eq_ok_iff hb).mpr ⟨hfits, p, hp, hs⟩
    exact bind_eq_ok.mpr ⟨(toDatum a, t), hread, hvalue.mpr (ofDatum?_toDatum a)⟩

/-- **What a value was written as is read back as this value, if at all**: a guard may refuse it, but no
other value is read. -/
theorem Wired.eq_of_ofBytes_toBytes {α : Type} [Wired α] [LawfulWired α]
    (hb : (schema α).isBinary) {a a' : α} (hfits : (schema α).bare.Fits (toDatum a))
    (h : ofBytes (toBytes a) = .ok a') : a' = a := by
  obtain ⟨⟨d, t⟩, hd, h⟩ := bind_eq_ok.mp h
  have hbare : (schema α).bare.isBinary := (Schema.isBinary_bare _).trans hb
  have hread := Schema.take_put hbare hfits []
  rw [Schema.put_bare, List.append_nil] at hread
  have hboth : (toDatum a, []) = (d, t) :=
    Except.ok.inj (hread.symm.trans ((schema α).take_bare hd))
  obtain ⟨rfl, rfl⟩ := Prod.mk.inj hboth
  have hvalue : ofDatum (toDatum a) = .ok a := by
    unfold ofDatum
    rw [ofDatum?_toDatum]
  exact Except.ok.inj (h.symm.trans hvalue)

/-! ## 4. Bodies that were read -/

/-- **A payload is proper**: its accounts are, and its keys. -/
def Payload.Proper [SignatureScheme] : Payload → Prop
  | .create c => c.key.Proper
  | .transfer legs => ∀ leg ∈ legs, leg.accountId.Proper
  | .update u => u.accountId.Proper ∧ ∀ k ∈ u.key, k.Proper
  | .delete d => d.accountId.Proper ∧ d.beneficiary.Proper

/-- **A body is proper**: the accounts and keys in it are. -/
structure TransactionBody.Proper [SignatureScheme] (b : TransactionBody) : Prop where
  id : b.id.Proper
  node : b.node.Proper
  payload : b.payload.Proper

section Read

theorem AccountId.proper_of_fits {id : AccountId} (h : Wired.Fits id) : id.Proper := by
  have hguard : AccountId.guard (Wired.toDatum id) = none := h.2
  simp only [Wired.toDatum, AccountId.guard, AccountId.ofParts, Int64.ofInt_toInt] at hguard
  by_contra hnot
  rw [if_neg hnot] at hguard
  cases hguard

variable [SignatureScheme]

theorem PublicKey.proper_of_fits {k : PublicKey} (h : Wired.Fits k) : k.Proper := by
  have hguard : PublicKey.guard (Wired.toDatum k) = none := h.2
  refine ⟨h.1.1.1 32 rfl, ?_⟩
  by_contra hnot
  simp only [Wired.toDatum, PublicKey.guard, if_neg hnot] at hguard
  cases hguard

theorem Payload.proper_of_fits {p : Payload} (h : Wired.Fits p) : p.Proper := by
  cases p with
  | create c => exact PublicKey.proper_of_fits h.1
  | transfer legs =>
    intro leg hleg
    have hlegs := h.1.2 (Wired.toDatum leg) (List.mem_map_of_mem hleg)
    exact AccountId.proper_of_fits hlegs.1
  | update u =>
    obtain ⟨id, key, seconds⟩ := u
    refine ⟨AccountId.proper_of_fits h.1, ?_⟩
    rintro k ⟨⟩
    exact PublicKey.proper_of_fits h.2.1
  | delete d => exact ⟨AccountId.proper_of_fits h.1, AccountId.proper_of_fits h.2.1⟩

theorem TransactionBody.proper_of_fits {b : TransactionBody} (h : Wired.Fits b) : b.Proper := by
  obtain ⟨hid, hnode, -, -, -, -, hpayload, -⟩ := h
  exact ⟨AccountId.proper_of_fits hid.1, AccountId.proper_of_fits hnode,
    Payload.proper_of_fits hpayload⟩

/-- **A body that was read is proper**, whatever the bytes were. -/
theorem SignedTransaction.proper_of_body {t : SignedTransaction} {b : TransactionBody}
    (h : t.body = .ok b) : b.Proper :=
  TransactionBody.proper_of_fits ((Wired.ofBytes_eq_ok_iff rfl).mp h).1

end Read

end ShardLedger
