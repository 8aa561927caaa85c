import ShardLedger.Wire.Codec
import Mathlib.Data.List.Forall2
/-
The binary form is a prefix code.

Whatever is written under a schema is read back from the front of a byte string, and what follows is
left alone.  The argument is one induction on the schema: words have a fixed width, texts and lists are
counted, options and flags are marked, and the fields of a record follow each other.  It needs the data
to fit the schema, since a word keeps only what it has room for.

A reader takes hexadecimal text in either case, while a writer has one.  So a datum has several
spellings, alike but for the letter case of such texts, and all of them are read back; what is written is
one of them.

A guard matters to a reader only.  What is written under a schema is written the same without its
guards, so data that would fail a guard still have a binary form of their own: equal bytes come from
equal data, guards or not.
-/

set_option autoImplicit false

namespace ShardLedger

/-! ## 1. Texts as bytes -/

namespace Bytes

/-- The bytes of a text spell it. -/
theorem toText?_ofText (s : String) : toText? (ofText s) = some s := by
  have hbytes : (⟨(ofText s).toArray⟩ : ByteArray) = s.toByteArray := rfl
  rw [toText?, hbytes, String.fromUTF8?, dif_pos s.isValidUTF8]
  rfl

/-- The bytes of a text are as many as its size says. -/
theorem length_ofText (s : String) : (ofText s).length = s.utf8ByteSize := rfl

theorem ofText_ofList (cs : List Char) :
    ofText (String.ofList cs) = cs.flatMap String.utf8EncodeChar := by
  rw [ofText, String.toByteArray_ofList, List.utf8Encode, List.data_toByteArray]

/-- The bytes of a text are those of its characters. -/
theorem ofText_eq (s : String) : ofText s = s.toList.flatMap String.utf8EncodeChar := by
  rw [← ofText_ofList, String.ofList_toList]

end Bytes

namespace Hex

/-- The lower-case text consists of the lower-case characters. -/
theorem toList_toLower (x : String) : x.toLower.toList = x.toList.map Char.toLower :=
  String.toList_map

/-- What holds of all ASCII characters holds of one. -/
theorem of_ascii {P : Char → Prop} (h : ∀ k < 128, P (Char.ofNat k)) {c : Char}
    (hc : c.toNat < 128) : P c := by
  have hk := h c.toNat hc
  rwa [Char.ofNat_toNat] at hk

/-- **A byte stands for another**: it is the same, or the upper-case letter of it. -/
def StandsFor (x y : UInt8) : Prop :=
  x = y ∨ (65 ≤ x ∧ x ≤ 90 ∧ y = x + 32)

instance (x y : UInt8) : Decidable (StandsFor x y) :=
  inferInstanceAs (Decidable (_ ∨ _))

/-- A byte string stands for itself. -/
theorem standsFor_rfl (b : Bytes) : List.Forall₂ StandsFor b b :=
  List.forall₂_same.mpr fun _ _ => .inl rfl

/-- The bytes of a character stand for those of its lower-case letter. -/
theorem standsFor_toLower (c : Char) :
    List.Forall₂ StandsFor (String.utf8EncodeChar c) (String.utf8EncodeChar c.toLower) := by
  by_cases hc : c.toNat < 128
  · exact of_ascii (P := fun c => List.Forall₂ StandsFor (String.utf8EncodeChar c)
      (String.utf8EncodeChar c.toLower)) (by decide +kernel) hc
  · -- Beyond ASCII no letter has another.
    have hsame : c.toLower = c := by
      unfold Char.toLower
      rw [dif_neg]
      intro h
      have hlast : c.val.toNat ≤ 90 := h.2
      exact hc (Nat.lt_of_le_of_lt hlast (by decide))
    rw [hsame]
    exact standsFor_rfl _

/-- The bytes of a text stand for those of its lower-case text. -/
theorem standsFor_ofText (x : String) :
    List.Forall₂ StandsFor (Bytes.ofText x) (Bytes.ofText x.toLower) := by
  rw [Bytes.ofText_eq, Bytes.ofText_eq, toList_toLower, List.flatMap_map]
  induction x.toList with
  | nil => exact .nil
  | cons c cs ih =>
    rw [List.flatMap_cons, List.flatMap_cons]
    exact List.rel_append (standsFor_toLower c) ih

/-- A lower-case letter does not come before its letter. -/
theorem toNat_le_toLower (c : Char) : c.toNat ≤ c.toLower.toNat := by
  unfold Char.toLower
  split
  · rename_i h
    have hlast : c.val.toNat ≤ 90 := h.2
    have hshift : ('a'.val - 'A'.val).toNat = 32 := by decide
    simp only [Char.toNat, UInt32.toNat_add, hshift]
    omega
  · exact Nat.le_refl _

/-- Digits are ASCII characters. -/
theorem lt_of_value? {c : Char} {n : Nat} (h : value? c = some n) : c.toNat < 128 := by
  have hle : ∀ {last : Char}, c ≤ last → last.toNat < 128 → c.toNat < 128 :=
    fun hlast hlt => Nat.lt_of_le_of_lt hlast hlt
  unfold value? at h
  split at h
  · rename_i hdigit
    exact hle hdigit.2 (by decide)
  · split at h
    · rename_i hlower
      exact hle hlower.2 (by decide)
    · split at h
      · rename_i hupper
        exact hle hupper.2 (by decide)
      · cases h

/-- **A character has a value exactly if it is the digit of it**, in either case. -/
theorem value?_eq_some_iff {c : Char} {n : Nat} :
    value? c = some n ↔ n < 16 ∧ c.toLower = digit n := by
  constructor
  · intro h
    have hall : ∀ k < 128, ∀ n ∈ value? (Char.ofNat k), n < 16 ∧ (Char.ofNat k).toLower = digit n := by
      decide +kernel
    exact of_ascii (P := fun c => ∀ n ∈ value? c, n < 16 ∧ c.toLower = digit n) hall (lt_of_value? h) n h
  · rintro ⟨hn, h⟩
    have hdigits : ∀ n < 16, (digit n).toNat < 128 := by decide
    have hc : c.toNat < 128 := Nat.lt_of_le_of_lt (toNat_le_toLower c) (h ▸ hdigits n hn)
    have hall : ∀ k < 128, ∀ n < 16, (Char.ofNat k).toLower = digit n →
        value? (Char.ofNat k) = some n := by
      decide +kernel
    exact of_ascii (P := fun c => ∀ n < 16, c.toLower = digit n → value? c = some n) hall hc n hn h

/-- A text that is read as bytes has two bytes for each of them. -/
theorem utf8ByteSize_of_decode {s : String} {b : Bytes} (h : decode s = some b) :
    s.utf8ByteSize = 2 * b.length := by
  have hone : ∀ {c n}, value? c = some n → c.utf8Size = 1 := by
    intro c n h
    exact of_ascii (P := fun c => c.utf8Size = 1) (by decide +kernel) (lt_of_value? h)
  have hchars : ∀ {cs : List Char} {b : Bytes}, decodeChars cs = some b →
      (String.ofList cs).utf8ByteSize = 2 * b.length := by
    intro cs
    fun_induction decodeChars cs with
    | case1 =>
      rintro b ⟨⟩
      rfl
    | case2 h l cs ih =>
      intro b hb
      simp only [bind, Option.bind_eq_some_iff] at hb
      obtain ⟨high, hhigh, low, hlow, bs, hbs, hb⟩ := hb
      obtain rfl := Option.some.inj hb
      simp only [String.ofList_cons, String.utf8ByteSize_append, String.utf8ByteSize_singleton,
        hone hhigh, hone hlow, ih hbs, List.length_cons]
      omega
    | case3 => nofun
  have hs := hchars h
  rwa [String.ofList_toList] at hs

/-- Digits are read as the bytes whose digits they are, in either case. -/
theorem decodeChars_eq_some_iff : ∀ {cs : List Char} {b : Bytes},
    decodeChars cs = some b ↔ cs.map Char.toLower = encodeChars b
  | [], [] => by simp [decodeChars, encodeChars]
  | [], _ :: _ => by simp [decodeChars, encodeChars]
  | [_], [] => by simp [decodeChars, encodeChars]
  | [_], _ :: _ => by simp [decodeChars, encodeChars]
  | h :: l :: cs, [] => by simp [decodeChars, encodeChars, bind, Option.bind_eq_some_iff]
  | h :: l :: cs, x :: xs => by
    have ih := @decodeChars_eq_some_iff cs xs
    have hx := x.toNat_lt
    simp only [decodeChars, encodeChars, bind, Option.bind_eq_some_iff, pure, Option.some.injEq,
      List.cons.injEq, List.map_cons, value?_eq_some_iff]
    constructor
    · rintro ⟨high, ⟨hhigh, hh⟩, low, ⟨hlow, hl⟩, bs, hbs, rfl, rfl⟩
      have hvalue : (UInt8.ofNat (16 * high + low)).toNat = 16 * high + low := by
        rw [UInt8.toNat_ofNat']
        omega
      have hdiv : (16 * high + low) / 16 = high := by omega
      have hmod : (16 * high + low) % 16 = low := by omega
      rw [hvalue, hdiv, hmod]
      exact ⟨hh, hl, ih.mp hbs⟩
    · rintro ⟨hh, hl, hcs⟩
      have hvalue : UInt8.ofNat (16 * (x.toNat / 16) + x.toNat % 16) = x := by
        apply UInt8.toNat_inj.mp
        rw [UInt8.toNat_ofNat']
        omega
      exact ⟨x.toNat / 16, ⟨by omega, hh⟩, x.toNat % 16, ⟨by omega, hl⟩, xs, ih.mpr hcs, hvalue, rfl⟩

/-- **A text is read as the bytes whose text it is**, in either case. -/
theorem decode_eq_some_iff {s : String} {b : Bytes} :
    decode s = some b ↔ s.toLower = encode b := by
  rw [decode, decodeChars_eq_some_iff, encode, ← String.toList_inj, toList_toLower, String.toList_ofList]

end Hex

namespace Wire

/-! ## 2. Reading the pieces -/

namespace Width

/-- The word of an integer is its remainder. -/
theorem toWord_eq (w : Width) (i : Int) : (w.toWord i : Int) = i % 256 ^ w.bytes := by
  rw [toWord, Int.toNat_of_nonneg (Int.emod_nonneg i (by cases w <;> simp only [bytes] <;> omega))]

/-- An integer of a width is the integer of its word. -/
theorem ofWord_toWord {w : Width} {i : Int} (h : w.Holds i) : w.ofWord (w.toWord i) = i := by
  have hword := toWord_eq w i
  cases w with
  | i32 | i64 =>
    simp only [Holds, bytes] at h hword
    rw [ofWord]
    -- A negative integer is written with its top bit set.
    by_cases hneg : i < 0
    · rw [if_neg (by omega)]
      omega
    · rw [if_pos (by omega)]
      omega
  | u64 =>
    simp only [Holds, bytes] at h hword
    rw [ofWord]
    omega

/-- Words are of their widths. -/
theorem holds_i64 (x : Int64) : i64.Holds x.toInt := ⟨x.le_toInt, x.toInt_lt⟩

theorem holds_i32 (x : Int32) : i32.Holds x.toInt := ⟨x.le_toInt, x.toInt_lt⟩

theorem holds_u64 (x : UInt64) : u64.Holds x.toNat :=
  ⟨Int.natCast_nonneg _, by exact_mod_cast x.toNat_lt⟩

/-- A word has its width. -/
theorem toWord_lt (w : Width) (i : Int) : w.toWord i < 256 ^ w.bytes := by
  have hword := toWord_eq w i
  cases w <;> simp only [bytes] at hword ⊢ <;> omega

end Width

section Pieces

variable (t : Bytes)

theorem takeBytes_append {n : Nat} {b : Bytes} (h : b.length = n) :
    takeBytes n (b ++ t) = .ok (b, t) := by
  rw [takeBytes, if_pos (by rw [List.length_append]; omega), List.take_left' h, List.drop_left' h]

theorem takeWord_append {width n : Nat} (h : n < 256 ^ width) :
    takeWord width (Bytes.ofNatLE width n ++ t) = .ok (n, t) := by
  rw [takeWord, takeBytes_append t (Bytes.length_ofNatLE width n)]
  have hword : Bytes.toNatLE (Bytes.ofNatLE width n) = n := by
    rw [Bytes.toNatLE_ofNatLE, Nat.mod_eq_of_lt h]
  simp only [bind, Except.bind, pure, Except.pure, hword]

theorem takeText_append {s : String} (h : s.utf8ByteSize < 2 ^ 64) :
    takeText (putCounted (Bytes.ofText s) ++ t) = .ok (s, t) := by
  have hlength : (Bytes.ofText s).length < 256 ^ 8 := by rw [Bytes.length_ofText]; omega
  rw [putCounted, putLength, List.append_assoc, takeText, takeWord_append _ hlength]
  simp only [bind, Except.bind, takeBytes_append t (b := Bytes.ofText s) rfl,
    Bytes.toText?_ofText]
  rfl

theorem takeFlag_append (b : Bool) : takeFlag ((if b then 1 else 0) :: t) = .ok (b, t) := by
  cases b <;> rfl

/-- Values that are read back one by one are read back together. -/
theorem takeMany_append {α : Type} {one : Reader α} {as : List α} {qs : List Bytes}
    (h : List.Forall₂ (fun a q => ∀ t, one (q ++ t) = .ok (a, t)) as qs) :
    takeMany one as.length (qs.flatten ++ t) = .ok (as, t) := by
  induction h with
  | nil => rfl
  | cons hq _ ih =>
    rw [List.flatten_cons, List.append_assoc, List.length_cons, takeMany, hq]
    simp only [bind, Except.bind, ih]
    rfl

end Pieces

/-! ## 3. Schemas with a binary form -/

mutual

/-- **The schema has a binary form**: nowhere a free value, nowhere more variants than words. -/
def Schema.isBinary : Schema → Bool
  | .int _ | .bool | .text | .bytes _ => true
  | .option s | .list s | .guarded _ s => s.isBinary
  | .record fs => fs.areBinary
  | .choice vs => vs.areBinary && vs.size < 2 ^ 32
  | .json => false

def Fields.areBinary : Fields → Bool
  | .nil => true
  | .cons _ _ s rest => s.isBinary && rest.areBinary

def Variants.areBinary : Variants → Bool
  | .nil => true
  | .cons _ _ s rest => s.isBinary && rest.areBinary

end

/-- A variant that something fits is one of them. -/
theorem Variants.lt_size_of_fit {vs : Variants} {i : Nat} {d : Datum} (h : vs.Fit i d) :
    i < vs.size := by
  induction i generalizing vs with
  | zero =>
    cases vs with
    | nil => exact h.elim
    | cons => exact Nat.succ_pos _
  | succ i ih =>
    cases vs with
    | nil => exact h.elim
    | cons => exact Nat.succ_lt_succ (ih h)

/-! ## 4. Spellings -/

mutual

/-- **The bytes spell a datum** under a schema: they are its binary form, but for the letter case of
hexadecimal texts. -/
def Schema.Spells : Schema → Datum → Bytes → Prop
  | .bytes _, .bytes b, p => ∃ x : String, x.toLower = Hex.encode b ∧ p = putCounted (Bytes.ofText x)
  | .option s, .present d, p => ∃ q, s.Spells d q ∧ p = 1 :: q
  | .list s, .list ds, p => ∃ qs, List.Forall₂ s.Spells ds qs ∧ p = putLength ds.length ++ qs.flatten
  | .record fs, .record ds, p => fs.Spell ds p
  | .choice vs, .choice i d, p => ∃ q, vs.Spells i d q ∧ p = Bytes.ofNatLE 4 i ++ q
  | .guarded _ s, d, p => s.Spells d p
  | s, d, p => p = s.put d

/-- **The bytes spell the values of a record**, one after the other. -/
def Fields.Spell : Fields → List Datum → Bytes → Prop
  | .cons _ _ s rest, d :: ds, p => ∃ q r, s.Spells d q ∧ rest.Spell ds r ∧ p = q ++ r
  | _, _, p => p = []

/-- **The bytes spell the content of a variant.** -/
def Variants.Spells : Variants → Nat → Datum → Bytes → Prop
  | .nil, _, _, p => p = []
  | .cons _ _ s _, 0, d, p => s.Spells d p
  | .cons _ _ _ rest, i + 1, d, p => rest.Spells i d p

end

/-- Guards leave no trace in spellings. -/
theorem Schema.spells_guarded (guard : Datum → Option Fault) (s : Schema) (d : Datum) (p : Bytes) :
    (Schema.guarded guard s).Spells d p ↔ s.Spells d p := by
  cases d <;> rfl

mutual

/-- **What is written is a spelling.** -/
theorem Schema.spells_put : ∀ (s : Schema) {d : Datum}, s.Fits d → s.Spells d (s.put d)
  | .int _, .int _, _ => rfl
  | .bool, .bool _, _ => rfl
  | .text, .text _, _ => rfl
  | .bytes _, .bytes b, _ => ⟨Hex.encode b, Hex.decode_eq_some_iff.mp (Hex.decode_encode b), rfl⟩
  | .option _, .absent, _ => rfl
  | .option s, .present d, h => ⟨s.put d, Schema.spells_put s h, rfl⟩
  | .list s, .list ds, h => by
    refine ⟨ds.map s.put, ?_, by rw [← List.flatMap_def]; rfl⟩
    rw [List.forall₂_map_right_iff, List.forall₂_same]
    intro d hd
    exact Schema.spells_put s (h.2 d hd)
  | .record fs, .record _, h => Fields.spell_put fs h
  | .choice vs, .choice i d, h => ⟨vs.put i d, Variants.spells_put vs h, rfl⟩
  | .guarded _ s, _, h => (Schema.spells_guarded _ _ _ _).mpr (Schema.spells_put s h.1)
  | .json, .json _, _ => rfl

theorem Fields.spell_put : ∀ (fs : Fields) {ds : List Datum}, fs.Fit ds → fs.Spell ds (fs.put ds)
  | .nil, [], _ => rfl
  | .cons _ _ s rest, d :: ds, h =>
    ⟨s.put d, rest.put ds, Schema.spells_put s h.1, Fields.spell_put rest h.2, rfl⟩

theorem Variants.spells_put : ∀ (vs : Variants) {i : Nat} {d : Datum}, vs.Fit i d →
    vs.Spells i d (vs.put i d)
  | .cons _ _ s _, 0, _, h => Schema.spells_put s h
  | .cons _ _ _ rest, _ + 1, _, h => Variants.spells_put rest h

end

mutual

/-- **A spelling stands for what is written**, byte by byte. -/
theorem Schema.standsFor_of_spells : ∀ (s : Schema) {d : Datum} {p : Bytes}, s.Fits d → s.Spells d p →
    List.Forall₂ Hex.StandsFor p (s.put d)
  | .int _, .int _, _, _, hp | .bool, .bool _, _, _, hp | .text, .text _, _, _, hp
  | .option _, .absent, _, _, hp | .json, .json _, _, _, hp => by
    obtain rfl := hp
    exact Hex.standsFor_rfl _
  | .bytes _, .bytes b, _, _, hp => by
    obtain ⟨x, hx, rfl⟩ := hp
    have htext := Hex.standsFor_ofText x
    rw [hx] at htext
    rw [Schema.put, putCounted, putCounted, htext.length_eq]
    exact List.rel_append (Hex.standsFor_rfl _) htext
  | .option s, .present d, _, h, hp => by
    obtain ⟨q, hq, rfl⟩ := hp
    exact .cons (.inl rfl) (Schema.standsFor_of_spells s h hq)
  | .list s, .list ds, _, h, hp => by
    obtain ⟨qs, hqs, rfl⟩ := hp
    have ih : List.Forall₂ (fun d q => List.Forall₂ Hex.StandsFor q (s.put d)) ds qs :=
      ((List.forall₂_and_left _ _).mpr ⟨h.2, hqs⟩).imp fun _ _ hd =>
        Schema.standsFor_of_spells s hd.1 hd.2
    rw [Schema.put, List.flatMap_def]
    refine List.rel_append (Hex.standsFor_rfl _) (List.rel_flatten ?_)
    exact List.forall₂_map_right_iff.mpr ih.flip
  | .record fs, .record _, _, h, hp => Fields.standsFor_of_spell fs h hp
  | .choice vs, .choice i d, _, h, hp => by
    obtain ⟨q, hq, rfl⟩ := hp
    exact List.rel_append (Hex.standsFor_rfl _) (Variants.standsFor_of_spells vs h hq)
  | .guarded _ s, _, _, h, hp => by
    rw [Schema.put]
    exact Schema.standsFor_of_spells s h.1 ((Schema.spells_guarded _ _ _ _).mp hp)

theorem Fields.standsFor_of_spell : ∀ (fs : Fields) {ds : List Datum} {p : Bytes}, fs.Fit ds →
    fs.Spell ds p → List.Forall₂ Hex.StandsFor p (fs.put ds)
  | .nil, [], _, _, hp => by
    obtain rfl := hp
    exact .nil
  | .cons _ _ s rest, d :: ds, _, h, hp => by
    obtain ⟨q, r, hq, hr, rfl⟩ := hp
    exact List.rel_append (Schema.standsFor_of_spells s h.1 hq) (Fields.standsFor_of_spell rest h.2 hr)

theorem Variants.standsFor_of_spells : ∀ (vs : Variants) {i : Nat} {d : Datum} {p : Bytes}, vs.Fit i d →
    vs.Spells i d p → List.Forall₂ Hex.StandsFor p (vs.put i d)
  | .cons _ _ s _, 0, _, _, h, hp => Schema.standsFor_of_spells s h hp
  | .cons _ _ _ rest, _ + 1, _, _, h, hp => Variants.standsFor_of_spells rest h hp

end

/-! ## 5. Reading back -/

mutual

/-- **What spells a datum is read as it**, and what follows is left alone.  The induction is on the schema,
for whatever follows, since what follows a piece is the other pieces. -/
theorem Schema.take_of_spells : ∀ (s : Schema) {d : Datum} {p : Bytes}, s.isBinary → s.Fits d →
    s.Spells d p → ∀ t : Bytes, s.take (p ++ t) = .ok (d, t)
  | .int w, .int i, _, _, h, hp, t => by
    obtain rfl := hp
    rw [Schema.put, Schema.take, takeWord_append t (w.toWord_lt i)]
    simp only [bind, Except.bind, Width.ofWord_toWord h]
    rfl
  | .bool, .bool b, _, _, _, hp, t => by
    obtain rfl := hp
    rw [Schema.put, Schema.take, List.singleton_append, takeFlag_append]
    rfl
  | .text, .text x, _, _, h, hp, t => by
    obtain rfl := hp
    rw [Schema.put, Schema.take, takeText_append t h]
    rfl
  | .bytes length, .bytes b, _, _, h, hp, t => by
    obtain ⟨x, hx, rfl⟩ := hp
    have hdecode := Hex.decode_eq_some_iff.mpr hx
    have hsize : x.utf8ByteSize < 2 ^ 64 := by
      rw [Hex.utf8ByteSize_of_decode hdecode]
      exact h.2
    have hlength : length.all (· = b.length) = true := by
      cases length with
      | none => rfl
      | some n => exact decide_eq_true (h.1 n rfl).symm
    rw [Schema.take, takeText_append t hsize]
    simp only [bind, Except.bind, hdecode, hlength, if_true]
    rfl
  | .option s, .absent, _, _, _, hp, t => by
    obtain rfl := hp
    rfl
  | .option s, .present d, _, hb, h, hp, t => by
    obtain ⟨q, hq, rfl⟩ := hp
    have ih := Schema.take_of_spells s hb h hq t
    have hflag : takeFlag (1 :: (q ++ t)) = .ok (true, q ++ t) := rfl
    rw [Schema.take, List.cons_append, hflag]
    simp only [bind, Except.bind, ih, if_true]
    rfl
  | .list s, .list ds, _, hb, h, hp, t => by
    obtain ⟨qs, hqs, rfl⟩ := hp
    have ih : List.Forall₂ (fun d q => ∀ t, s.take (q ++ t) = .ok (d, t)) ds qs :=
      ((List.forall₂_and_left _ _).mpr ⟨h.2, hqs⟩).imp fun _ _ hd => Schema.take_of_spells s hb hd.1 hd.2
    rw [Schema.take, putLength, List.append_assoc, takeWord_append _ (by exact h.1)]
    simp only [bind, Except.bind, takeMany_append t ih]
    rfl
  | .record fs, .record ds, _, hb, h, hp, t => by
    have ih := Fields.take_of_spell fs hb h hp t
    rw [Schema.take, ih]
    rfl
  | .choice vs, .choice i d, _, hb, h, hp, t => by
    obtain ⟨q, hq, rfl⟩ := hp
    rw [Schema.isBinary, Bool.and_eq_true, decide_eq_true_eq] at hb
    have ih := Variants.take_of_spells vs hb.1 h hq t
    -- A tag is a word of four bytes, and there are not more forms than these can number.
    have hi : i < 256 ^ 4 := Nat.lt_trans (Variants.lt_size_of_fit h) hb.2
    rw [Schema.take, List.append_assoc, takeWord_append _ hi]
    simp only [bind, Except.bind, ih]
    rfl
  | .guarded guard s, d, p, hb, h, hp, t => by
    have ih := Schema.take_of_spells s hb h.1 ((Schema.spells_guarded _ _ _ _).mp hp) t
    rw [Schema.take, ih]
    simp only [bind, Except.bind, h.2]
    rfl

theorem Fields.take_of_spell : ∀ (fs : Fields) {ds : List Datum} {p : Bytes}, fs.areBinary →
    fs.Fit ds → fs.Spell ds p → ∀ t : Bytes, fs.take (p ++ t) = .ok (ds, t)
  | .nil, [], _, _, _, hp, t => by
    obtain rfl := hp
    rfl
  | .cons _ _ s rest, d :: ds, _, hb, h, hp, t => by
    obtain ⟨q, r, hq, hr, rfl⟩ := hp
    rw [Fields.areBinary, Bool.and_eq_true] at hb
    rw [Fields.take, List.append_assoc, Schema.take_of_spells s hb.1 h.1 hq]
    simp only [bind, Except.bind, Fields.take_of_spell rest hb.2 h.2 hr t]
    rfl

theorem Variants.take_of_spells : ∀ (vs : Variants) {i : Nat} {d : Datum} {p : Bytes}, vs.areBinary →
    vs.Fit i d → vs.Spells i d p → ∀ t : Bytes, vs.take i (p ++ t) = .ok (d, t)
  | .cons _ _ s _, 0, _, _, hb, h, hp, t => by
    rw [Variants.areBinary, Bool.and_eq_true] at hb
    exact Schema.take_of_spells s hb.1 h hp t
  | .cons _ _ _ rest, i + 1, _, _, hb, h, hp, t => by
    rw [Variants.areBinary, Bool.and_eq_true] at hb
    exact Variants.take_of_spells rest hb.2 h hp t

end

/-- **What is written is read back**, and what follows is left alone. -/
theorem Schema.take_put {s : Schema} {d : Datum} (hb : s.isBinary) (h : s.Fits d) (t : Bytes) :
    s.take (s.put d ++ t) = .ok (d, t) :=
  s.take_of_spells hb h (s.spells_put h) t

/-! ## 6. Without guards -/

mutual

/-- **The schema without its guards.** -/
def Schema.bare : Schema → Schema
  | .option s => .option s.bare
  | .list s => .list s.bare
  | .record fs => .record fs.bare
  | .choice vs => .choice vs.bare
  | .guarded _ s => s.bare
  | s => s

def Fields.bare : Fields → Fields
  | .nil => .nil
  | .cons name presence s rest => .cons name presence s.bare rest.bare

def Variants.bare : Variants → Variants
  | .nil => .nil
  | .cons name form s rest => .cons name form s.bare rest.bare

end

theorem Variants.size_bare : ∀ vs : Variants, vs.bare.size = vs.size
  | .nil => rfl
  | .cons _ _ _ rest => congrArg (· + 1) (Variants.size_bare rest)

mutual

theorem Schema.isBinary_bare : ∀ s : Schema, s.bare.isBinary = s.isBinary
  | .int _ | .bool | .text | .bytes _ | .json => rfl
  | .option s | .list s | .guarded _ s => Schema.isBinary_bare s
  | .record fs => Fields.areBinary_bare fs
  | .choice vs => by
    rw [Schema.bare, Schema.isBinary, Schema.isBinary, Variants.size_bare,
      Variants.areBinary_bare vs]

theorem Fields.areBinary_bare : ∀ fs : Fields, fs.bare.areBinary = fs.areBinary
  | .nil => rfl
  | .cons _ _ s rest => by
    rw [Fields.bare, Fields.areBinary, Fields.areBinary, Schema.isBinary_bare s,
      Fields.areBinary_bare rest]

theorem Variants.areBinary_bare : ∀ vs : Variants, vs.bare.areBinary = vs.areBinary
  | .nil => rfl
  | .cons _ _ s rest => by
    rw [Variants.bare, Variants.areBinary, Variants.areBinary, Schema.isBinary_bare s,
      Variants.areBinary_bare rest]

end

mutual

/-- Guards leave no trace in what is written. -/
theorem Schema.put_bare : ∀ s : Schema, s.bare.put = s.put
  | .int _ | .bool | .text | .bytes _ | .json => rfl
  | .option s => by
    have ih := Schema.put_bare s
    funext d
    cases d <;> simp only [Schema.bare, Schema.put, ih]
  | .list s => by
    have ih := Schema.put_bare s
    funext d
    cases d <;> simp only [Schema.bare, Schema.put, ih]
  | .record fs => by
    have ih := Fields.put_bare fs
    funext d
    cases d <;> simp only [Schema.bare, Schema.put, ih]
  | .choice vs => by
    have ih := Variants.put_bare vs
    funext d
    cases d <;> simp only [Schema.bare, Schema.put, ih]
  | .guarded _ s => by
    have ih := Schema.put_bare s
    funext d
    rw [Schema.bare, Schema.put, ih]

theorem Fields.put_bare : ∀ fs : Fields, fs.bare.put = fs.put
  | .nil => rfl
  | .cons _ _ s rest => by
    have hs := Schema.put_bare s
    have hrest := Fields.put_bare rest
    funext ds
    cases ds <;> simp only [Fields.bare, Fields.put, hs, hrest]

theorem Variants.put_bare : ∀ vs : Variants, vs.bare.put = vs.put
  | .nil => rfl
  | .cons _ _ s rest => by
    have hs := Schema.put_bare s
    have hrest := Variants.put_bare rest
    funext i d
    cases i <;> simp only [Variants.bare, Variants.put, hs, hrest]

end

/-- **Equal bytes come from equal data.**  Data that fit a schema, whether they pass its guards or not,
are told by the bytes they are written as, also where other bytes follow. -/
theorem Schema.put_inj {s : Schema} (hb : s.isBinary) {d e : Datum} (hd : s.bare.Fits d)
    (he : s.bare.Fits e) {t u : Bytes} (h : s.put d ++ t = s.put e ++ u) : d = e ∧ t = u := by
  rw [← s.put_bare] at h
  have hbare : s.bare.isBinary := (s.isBinary_bare).trans hb
  have hread := Schema.take_put hbare hd t
  rw [h, Schema.take_put hbare he u] at hread
  obtain ⟨rfl, rfl⟩ := Prod.mk.inj (Except.ok.inj hread)
  exact ⟨rfl, rfl⟩

end Wire

end ShardLedger
