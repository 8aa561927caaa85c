import ShardLedger.Crypto.Ed25519
import ShardLedger.Crypto.KeyText
import ShardLedger.Proofs.BinaryForm
import ShardLedger.Proofs.ProperMessages
/-
The texts of keys.

A key has four texts and their mixtures: its bytes alone or behind the header of its kind, in digits of
either letter case.  A reader looks at the number of bytes first, and only then at the header.  The headers
of the two kinds differ in length, and neither is empty, so the number of bytes alone says which of the
forms a text can be, and nothing is read as one form that was written as another.

What tells a secret key from a public one is the header, and so only the texts that have one: thirty-two
bytes alone may be read as a key of either kind.
-/

set_option autoImplicit false

namespace ShardLedger

/-! ## 1. Hexadecimal texts -/

namespace Hex

/-- **A text writes bytes**: it is their hexadecimal text, in digits of either letter case. -/
def Writes (s : String) (b : Bytes) : Prop :=
  s.toLower = encode b

instance (s : String) (b : Bytes) : Decidable (Writes s b) :=
  inferInstanceAs (Decidable (_ = _))

/-- The hexadecimal text of bytes writes them. -/
theorem writes_encode (b : Bytes) : Writes (encode b) b :=
  decode_eq_some_iff.mp (decode_encode b)

/-- A text writes one byte string at the most. -/
theorem Writes.unique {s : String} {b b' : Bytes} (h : Writes s b) (h' : Writes s b') : b = b' :=
  Option.some.inj ((decode_eq_some_iff.mpr h).symm.trans (decode_eq_some_iff.mpr h'))

end Hex

/-! ## 2. Key bytes -/

/-- **A text writes key bytes** under a header: it is the text of the bytes, or of the header and the
bytes. -/
def WritesKey (header : Bytes) (s : String) (b : Bytes) : Prop :=
  Hex.Writes s b ∨ Hex.Writes s (header ++ b)

/-- **What is read as key bytes** is what is written, if it has as many bytes as a key. -/
theorem keyBytes?_eq_some_iff {header : Bytes} {s : String} {b : Bytes} :
    keyBytes? header s = some b ↔ b.length = 32 ∧ WritesKey header s b := by
  simp only [keyBytes?, bind, Option.bind_eq_some_iff, Hex.decode_eq_some_iff]
  constructor
  · rintro ⟨x, hx, h⟩
    by_cases hbare : x.length = 32
    · rw [if_pos hbare] at h
      obtain rfl := Option.some.inj h
      exact ⟨hbare, .inl hx⟩
    · rw [if_neg hbare] at h
      by_cases hheaded : x.length = header.length + 32 ∧ x.take header.length = header
      · rw [if_pos hheaded] at h
        obtain rfl := Option.some.inj h
        obtain ⟨hlength, htake⟩ := hheaded
        have hsplit : header ++ x.drop header.length = x := by
          calc header ++ x.drop header.length
              = x.take header.length ++ x.drop header.length := by rw [htake]
            _ = x := List.take_append_drop _ _
        refine ⟨by rw [List.length_drop]; omega, .inr ?_⟩
        rw [hsplit]
        exact hx
      · rw [if_neg hheaded] at h
        cases h
  · rintro ⟨hlength, hbare | hheaded⟩
    · exact ⟨b, hbare, if_pos hlength⟩
    · refine ⟨header ++ b, hheaded, ?_⟩
      by_cases hempty : (header ++ b).length = 32
      · -- There is no room for a header, so it is the empty one.
        rw [List.length_append] at hempty
        obtain rfl : header = [] := List.length_eq_zero_iff.mp (by omega)
        exact if_pos hlength
      · have hboth : (header ++ b).length = header.length + 32
            ∧ (header ++ b).take header.length = header := by
          rw [List.length_append, List.take_left, hlength]
          exact ⟨rfl, rfl⟩
        rw [if_neg hempty, if_pos hboth, List.drop_left]

/-! ## 3. Secret keys -/

namespace SecretKey

theorem ofSeed?_eq_some_iff {b : Bytes} {key : SecretKey} : ofSeed? b = some key ↔ b = key.seed := by
  obtain ⟨seed, hseed⟩ := key
  rw [ofSeed?]
  constructor
  · intro h
    split at h <;> cases h
    rfl
  · rintro rfl
    exact dif_pos hseed

/-- **What is read as a secret key** is a text of it. -/
theorem parse_eq_ok_iff {s : String} {key : SecretKey} :
    parse s = .ok key ↔ WritesKey header s key.seed := by
  have hread : (keyBytes? header s).bind ofSeed? = some key ↔ WritesKey header s key.seed := by
    simp only [Option.bind_eq_some_iff, ofSeed?_eq_some_iff, keyBytes?_eq_some_iff]
    constructor
    · rintro ⟨b, ⟨-, hb⟩, rfl⟩
      exact hb
    · intro h
      exact ⟨key.seed, ⟨key.length_eq, h⟩, rfl⟩
  rw [← hread, parse]
  cases (keyBytes? header s).bind ofSeed? <;> simp

/-- **A secret key is read back from its text.** -/
theorem parse_text (key : SecretKey) : parse key.text = .ok key :=
  parse_eq_ok_iff.mpr (.inr (Hex.writes_encode _))

end SecretKey

/-! ## 4. Public keys -/

namespace PublicKey

section Signing

variable [SignatureScheme] {s : String} {key : PublicKey}

theorem ofBytes?_eq_some_iff {b : Bytes} : ofBytes? b = some key ↔ b = key.bytes ∧ key.Proper := by
  obtain ⟨bytes⟩ := key
  rw [ofBytes?]
  constructor
  · intro h
    split at h <;> cases h
    rename_i hpoint
    exact ⟨rfl, hpoint⟩
  · rintro ⟨rfl, hpoint⟩
    exact if_pos hpoint

/-- **What is read as a public key** is a text of it, and it is a point. -/
theorem parse_eq_ok_iff : parse s = .ok key ↔ key.Proper ∧ WritesKey header s key.bytes := by
  have hread : (keyBytes? header s).bind ofBytes? = some key
      ↔ key.Proper ∧ WritesKey header s key.bytes := by
    simp only [Option.bind_eq_some_iff, ofBytes?_eq_some_iff, keyBytes?_eq_some_iff]
    constructor
    · rintro ⟨b, ⟨-, hb⟩, rfl, hproper⟩
      exact ⟨hproper, hb⟩
    · rintro ⟨hproper, h⟩
      exact ⟨key.bytes, ⟨hproper.1, h⟩, rfl, hproper⟩
  rw [← hread, parse]
  cases (keyBytes? header s).bind ofBytes? <;> simp

/-- **A public key is read back from its text.** -/
theorem parse_text (h : key.Proper) : parse key.text = .ok key :=
  parse_eq_ok_iff.mpr ⟨h, .inr (Hex.writes_encode _)⟩

end Signing

end PublicKey

/-! ## 5. The two kinds -/

/-- **The header shows in the number of bytes**: a text of a header and a key does not write a key under a
header of another length, unless one of the headers is empty. -/
theorem not_writesKey_of_header {header other b b' : Bytes} (hb : b.length = 32) (hb' : b'.length = 32)
    (hheader : 0 < header.length) (hother : header.length ≠ other.length) :
    ¬ WritesKey other (Hex.encode (header ++ b)) b' := by
  rintro (h | h)
  · have hsame := congrArg List.length ((Hex.writes_encode (header ++ b)).unique h)
    rw [List.length_append] at hsame
    omega
  · have hsame := congrArg List.length ((Hex.writes_encode (header ++ b)).unique h)
    rw [List.length_append, List.length_append] at hsame
    omega

section Kinds

variable [SignatureScheme]

/-- **The texts of keys.**  A text is read as a secret key exactly if it is the hexadecimal text, in either
letter case, of the seed or of the header of secret keys and the seed; and as a public key exactly if that
key is a point and the text is that of its bytes or of the header of public keys and its bytes.  Any other
text is refused, without a word of what it was.  So keys are read back from their texts, and neither kind is
ever read from the text of a key of the other kind.

The work is in the two `parse_eq_ok_iff`, and for keys of the other kind in `not_writesKey_of_header`, which
tells the headers apart by their lengths. -/
theorem key_texts :
    (∀ s (key : SecretKey), SecretKey.parse s = .ok key
        ↔ Hex.Writes s key.seed ∨ Hex.Writes s (SecretKey.header ++ key.seed))
      ∧ (∀ s (key : PublicKey), PublicKey.parse s = .ok key
        ↔ key.Proper ∧ (Hex.Writes s key.bytes ∨ Hex.Writes s (PublicKey.header ++ key.bytes)))
      ∧ (∀ s e, SecretKey.parse s = .error e → e = .invalidSecretKey)
      ∧ (∀ s e, PublicKey.parse s = .error e → e = .invalidPublicKey)
      ∧ (∀ key : SecretKey, SecretKey.parse key.text = .ok key)
      ∧ (∀ key : PublicKey, key.Proper → PublicKey.parse key.text = .ok key)
      ∧ (∀ key : SecretKey, PublicKey.parse key.text = .error .invalidPublicKey)
      ∧ ∀ key : PublicKey, key.Proper → SecretKey.parse key.text = .error .invalidSecretKey := by
  have hsecret : ∀ s e, SecretKey.parse s = .error e → e = .invalidSecretKey := by
    intro s e h
    unfold SecretKey.parse at h
    split at h <;> cases h
    rfl
  have hpublic : ∀ s e, PublicKey.parse s = .error e → e = .invalidPublicKey := by
    intro s e h
    unfold PublicKey.parse at h
    split at h <;> cases h
    rfl
  refine ⟨fun _ _ => SecretKey.parse_eq_ok_iff, fun _ _ => PublicKey.parse_eq_ok_iff, hsecret, hpublic,
    SecretKey.parse_text, fun _ => PublicKey.parse_text, fun key => ?_, fun key hkey => ?_⟩
  · cases h : PublicKey.parse key.text with
    | error e => rw [hpublic _ e h]
    | ok other =>
      obtain ⟨hproper, hwrites⟩ := PublicKey.parse_eq_ok_iff.mp h
      exact absurd hwrites (not_writesKey_of_header key.length_eq hproper.1 (by decide) (by decide))
  · cases h : SecretKey.parse key.text with
    | error e => rw [hsecret _ e h]
    | ok other =>
      exact absurd (SecretKey.parse_eq_ok_iff.mp h)
        (not_writesKey_of_header hkey.1 other.length_eq (by decide) (by decide))

end Kinds

namespace Trial

/-- **The base point of the curve**, as a key. -/
def basePoint : PublicKey :=
  ⟨0x58 :: List.replicate 31 0x66⟩

end Trial

open Trial in
set_option maxRecDepth 10000 in
/-- The base point is a public key of the scheme in use, and its text is read as that key and as no secret
one. -/
theorem key_texts_basePoint :
    basePoint.Proper
      ∧ PublicKey.parse basePoint.text = .ok basePoint
      ∧ SecretKey.parse basePoint.text = .error .invalidSecretKey := by
  have hproper : basePoint.Proper := by
    refine ⟨by decide, ?_⟩
    decide +kernel
  obtain ⟨-, -, -, -, -, hback, -, hkind⟩ := key_texts
  exact ⟨hproper, hback basePoint hproper, hkind basePoint hproper⟩

end ShardLedger
