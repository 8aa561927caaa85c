import Mathlib.Data.List.Basic
import Mathlib.Data.List.TakeWhile
import ShardLedger.Json.Raw
/-
The grammar of JSON texts.

The grammar says which texts a value has, and nothing of how they are read: it has one rule for each way
to spell a value, puts blanks where they may stand and has no bound.  A reader goes from left to right,
decides by the next character and stops at the first fault.  Strings and numbers are scanned as they are
spelled: a string ends at its quote, a number at whatever does not go on with it.
-/

set_option autoImplicit false

namespace ShardLedger

namespace Json

open Raw (Piece Literal)

/-! ## 1. The grammar -/

namespace Grammar

/-- **Blanks**, any number of them. -/
def Blanks (cs : List Char) : Prop :=
  ∀ c ∈ cs, Raw.isBlank c = true

/-- **A run of digits.** -/
structure Digits (ds : List Char) : Prop where
  nonempty : ds ≠ []
  isDigit : ∀ c ∈ ds, c.isDigit = true

/-- **The texts of a piece of a string**: a character that may stand for itself, a character with a letter
of its own, or the four hexadecimal digits of a code unit. -/
inductive PieceText : Piece → List Char → Prop
  | plain {c : Char} (quote : c ≠ '"') (backslash : c ≠ '\\') (printable : 32 ≤ c.toNat) :
    PieceText (.char c) [c]
  | letter {c e : Char} (escape : Raw.unescape? c = some e) : PieceText (.char e) ['\\', c]
  | unit {a b c d : Char} {u : Nat} (digits : Raw.unit? a b c d = some u) :
    PieceText (.unit u) ['\\', 'u', a, b, c, d]

/-- **The texts of a string**, without its quotes. -/
inductive StringText : List Piece → List Char → Prop
  | nil : StringText [] []
  | cons {p : Piece} {ps : List Piece} {cs ds : List Char} (piece : PieceText p cs)
    (rest : StringText ps ds) : StringText (p :: ps) (cs ++ ds)

/-- **The text of a fraction**, if there is one. -/
inductive FractionText : Option (List Char) → List Char → Prop
  | none : FractionText none []
  | some {ds : List Char} (digits : Digits ds) : FractionText (some ds) ('.' :: ds)

/-- **The texts of an exponent**, if there is one. -/
inductive ExponentText : Option (Bool × List Char) → List Char → Prop
  | none : ExponentText none []
  | plain {e : Char} {ds : List Char} (mark : e = 'e' ∨ e = 'E') (digits : Digits ds) :
    ExponentText (some (false, ds)) (e :: ds)
  | plus {e : Char} {ds : List Char} (mark : e = 'e' ∨ e = 'E') (digits : Digits ds) :
    ExponentText (some (false, ds)) (e :: '+' :: ds)
  | minus {e : Char} {ds : List Char} (mark : e = 'e' ∨ e = 'E') (digits : Digits ds) :
    ExponentText (some (true, ds)) (e :: '-' :: ds)

/-- **The texts of a number**: a sign if it is negative, digits with no idle zero, a fraction, an
exponent. -/
inductive NumberText : Literal → List Char → Prop
  | mk {whole : List Char} {fraction : Option (List Char)} {exponent : Option (Bool × List Char)}
    {fs es : List Char} (negative : Bool) (digits : Digits whole)
    (idle : whole.head? = some '0' → whole.length = 1) (fracted : FractionText fraction fs)
    (raised : ExponentText exponent es) :
    NumberText ⟨negative, whole, fraction, exponent⟩
      ((if negative then ['-'] else []) ++ (whole ++ (fs ++ es)))

/-- **The content of a string**; nothing if half of a surrogate pair stands alone in it. -/
def content (ps : List Piece) : Option String :=
  (Raw.joinPieces ps).map String.ofList

mutual

/-- **The texts of a value.** -/
inductive ValueText : Raw → List Char → Prop
  | null : ValueText .null "null".toList
  | true : ValueText (.bool true) "true".toList
  | false : ValueText (.bool false) "false".toList
  | number {l : Literal} {cs : List Char} (text : NumberText l cs) : ValueText (.number l.number?) cs
  | string {ps : List Piece} {cs : List Char} (text : StringText ps cs) :
    ValueText (.string (content ps)) ('"' :: (cs ++ ['"']))
  | emptyArray {b : List Char} (blanks : Blanks b) : ValueText (.array []) ('[' :: (b ++ [']']))
  | array {vs : List Raw} {cs : List Char} (items : ItemsText vs cs) :
    ValueText (.array vs) ('[' :: (cs ++ [']']))
  | emptyObject {b : List Char} (blanks : Blanks b) :
    ValueText (.object []) ('\x7b' :: (b ++ ['\x7d']))
  | object {ms : List (Option String × Raw)} {cs : List Char} (members : MembersText ms cs) :
    ValueText (.object ms) ('\x7b' :: (cs ++ ['\x7d']))

/-- **The texts of items**, at least one, with commas between them. -/
inductive ItemsText : List Raw → List Char → Prop
  | single {v : Raw} {b cs b' : List Char} (before : Blanks b) (value : ValueText v cs)
    (after : Blanks b') : ItemsText [v] (b ++ (cs ++ b'))
  | cons {v : Raw} {vs : List Raw} {b cs b' ds : List Char} (before : Blanks b)
    (value : ValueText v cs) (after : Blanks b') (rest : ItemsText vs ds) :
    ItemsText (v :: vs) (b ++ (cs ++ (b' ++ ',' :: ds)))

/-- **The texts of members**, at least one, with commas between them. -/
inductive MembersText : List (Option String × Raw) → List Char → Prop
  | single {ps : List Piece} {v : Raw} {b ns b₁ b₂ cs b' : List Char} (before : Blanks b)
    (name : StringText ps ns) (front : Blanks b₁) (back : Blanks b₂) (value : ValueText v cs)
    (after : Blanks b') :
    MembersText [(content ps, v)] (b ++ '"' :: (ns ++ '"' :: (b₁ ++ ':' :: (b₂ ++ (cs ++ b')))))
  | cons {ps : List Piece} {v : Raw} {ms : List (Option String × Raw)}
    {b ns b₁ b₂ cs b' ds : List Char} (before : Blanks b) (name : StringText ps ns)
    (front : Blanks b₁) (back : Blanks b₂) (value : ValueText v cs) (after : Blanks b')
    (rest : MembersText ms ds) :
    MembersText ((content ps, v) :: ms)
      (b ++ '"' :: (ns ++ '"' :: (b₁ ++ ':' :: (b₂ ++ (cs ++ (b' ++ ',' :: ds))))))

end

/-- **The texts of JSON**: a value with nothing but blanks around it. -/
def Text (v : Raw) (cs : List Char) : Prop :=
  ∃ b w b', Blanks b ∧ ValueText v w ∧ Blanks b' ∧ cs = b ++ (w ++ b')

/-! ### Blanks in front -/

section Blanks

variable {b b' w : List Char}

theorem blanks_nil : Blanks [] :=
  nofun

theorem Blanks.append (h : Blanks b) (h' : Blanks b') : Blanks (b ++ b') := by
  intro c hc
  rcases List.mem_append.mp hc with hc | hc
  · exact h c hc
  · exact h' c hc

/-- Blanks may stand before the items of an array. -/
theorem ItemsText.blanks {vs : List Raw} (hb : Blanks b) (h : ItemsText vs w) :
    ItemsText vs (b ++ w) := by
  cases h with
  | single before value after =>
    rw [← List.append_assoc]
    exact .single (Blanks.append hb before) value after
  | cons before value after rest =>
    rw [← List.append_assoc]
    exact .cons (Blanks.append hb before) value after rest

/-- Blanks may stand before the members of an object. -/
theorem MembersText.blanks {ms : List (Option String × Raw)} (hb : Blanks b)
    (h : MembersText ms w) : MembersText ms (b ++ w) := by
  cases h with
  | single before name front back value after =>
    rw [← List.append_assoc]
    exact .single (Blanks.append hb before) name front back value after
  | cons before name front back value after rest =>
    rw [← List.append_assoc]
    exact .cons (Blanks.append hb before) name front back value after rest

end Blanks

end Grammar

namespace Raw

open Grammar

/-! ## 2. Strings -/

section Strings

variable {cs : List Char}

theorem scanPieces_letter {c e : Char} (h : unescape? c = some e) :
    scanPieces ('\\' :: c :: cs) = (scanPieces cs).map fun r => (.char e :: r.1, r.2) := by
  have hu : c ≠ 'u' := by
    rintro rfl
    cases h
  rw [scanPieces, h]
  · cases scanPieces cs <;> rfl
  · rintro a b d e cs rfl -
    exact hu rfl

/-- A character that no escape begins with breaks the string behind a backslash. -/
theorem scanPieces_no_escape {c : Char} (h : unescape? c = none) (hu : c ≠ 'u') :
    scanPieces ('\\' :: c :: cs) = none := by
  rw [scanPieces, h]
  · rfl
  · rintro a b d e cs rfl -
    exact hu rfl

theorem scanPieces_unit {a b c d : Char} {u : Nat} (h : unit? a b c d = some u) :
    scanPieces ('\\' :: 'u' :: a :: b :: c :: d :: cs)
      = (scanPieces cs).map fun r => (.unit u :: r.1, r.2) := by
  rw [scanPieces, h]
  cases scanPieces cs <;> rfl

theorem scanPieces_char {c : Char} (hquote : c ≠ '"') (hback : c ≠ '\\') (h : 32 ≤ c.toNat) :
    scanPieces (c :: cs) = (scanPieces cs).map fun r => (.char c :: r.1, r.2) := by
  rw [scanPieces, if_neg (not_or.mpr ⟨Nat.not_lt.mpr h, hback⟩)]
  · cases scanPieces cs <;> rfl
  · exact hquote
  · rintro a b d e cs rfl
    exact (hback rfl).elim
  · rintro a cs rfl
    exact (hback rfl).elim

/-- A piece is scanned as it is spelled. -/
theorem scanPieces_piece {p : Piece} {w : List Char} (h : PieceText p w) :
    scanPieces (w ++ cs) = (scanPieces cs).map fun r => (p :: r.1, r.2) := by
  cases h with
  | plain quote backslash printable => exact scanPieces_char quote backslash printable
  | letter escape => exact scanPieces_letter escape
  | unit digits => exact scanPieces_unit digits

/-- A part of a string is scanned as it is spelled, whatever follows. -/
theorem scanPieces_append {ps : List Piece} {w : List Char} (h : StringText ps w) :
    scanPieces (w ++ cs) = (scanPieces cs).map fun r => (ps ++ r.1, r.2) := by
  induction h with
  | nil => exact Option.map_id'.symm
  | cons piece _ ih =>
    rw [List.append_assoc, scanPieces_piece piece, ih, Option.map_map]
    rfl

/-- **A string is scanned as it is spelled**, up to its closing quote. -/
theorem scanPieces_of_text {ps : List Piece} {w rest : List Char} (h : StringText ps w) :
    scanPieces (w ++ '"' :: rest) = some (ps, rest) := by
  rw [scanPieces_append h, scanPieces, Option.map_some, List.append_nil]

/-- What is scanned as a string is spelled as one.  The induction is on the scan, piece by piece. -/
theorem text_of_scanPieces {ps : List Piece} {rest : List Char} (h : scanPieces cs = some (ps, rest)) :
    ∃ w, StringText ps w ∧ cs = w ++ '"' :: rest := by
  fun_induction scanPieces cs generalizing ps with
  | case1 => cases h
  | case2 cs =>
    obtain ⟨rfl, rfl⟩ := Prod.mk.inj (Option.some.inj h)
    exact ⟨[], .nil, rfl⟩
  | case3 a b c d cs ih =>
    obtain ⟨u, hu, h⟩ := Option.bind_eq_some_iff.mp h
    obtain ⟨⟨ps', rest'⟩, hps, h⟩ := Option.bind_eq_some_iff.mp h
    obtain ⟨rfl, rfl⟩ := Prod.mk.inj (Option.some.inj h)
    obtain ⟨w, hw, rfl⟩ := ih hps
    exact ⟨_, .cons (.unit hu) hw, rfl⟩
  | case4 c cs _ ih =>
    obtain ⟨e, he, h⟩ := Option.bind_eq_some_iff.mp h
    obtain ⟨⟨ps', rest'⟩, hps, h⟩ := Option.bind_eq_some_iff.mp h
    obtain ⟨rfl, rfl⟩ := Prod.mk.inj (Option.some.inj h)
    obtain ⟨w, hw, rfl⟩ := ih hps
    exact ⟨_, .cons (.letter he) hw, rfl⟩
  -- A control, or a backslash at the end of the text.
  | case5 c cs => cases h
  | case6 c cs hquote _ _ hplain ih =>
    obtain ⟨⟨ps', rest'⟩, hps, h⟩ := Option.bind_eq_some_iff.mp h
    obtain ⟨rfl, rfl⟩ := Prod.mk.inj (Option.some.inj h)
    obtain ⟨w, hw, rfl⟩ := ih hps
    obtain ⟨hprintable, hback⟩ := not_or.mp hplain
    exact ⟨_, .cons (.plain (fun hc => hquote hc) hback (Nat.le_of_not_lt hprintable)) hw, rfl⟩

/-- A string is scanned as it is spelled, joined to its characters. -/
theorem scanString_of_text {ps : List Piece} {w : List Char} (h : StringText ps w)
    (rest : List Char) : scanString (w ++ '"' :: rest) = some (joinPieces ps, rest) := by
  rw [scanString, scanPieces_of_text h, Option.map_some]

/-- **The scanner of strings and the grammar agree.** -/
theorem scanString_eq_some_iff {s : Option (List Char)} {rest : List Char} :
    scanString cs = some (s, rest)
      ↔ ∃ ps w, StringText ps w ∧ joinPieces ps = s ∧ cs = w ++ '"' :: rest := by
  rw [scanString, Option.map_eq_some_iff]
  constructor
  · rintro ⟨⟨ps, rest'⟩, hps, heq⟩
    obtain ⟨hs, rfl⟩ := Prod.mk.inj heq
    obtain ⟨w, hw, rfl⟩ := text_of_scanPieces hps
    exact ⟨ps, w, hw, hs, rfl⟩
  · rintro ⟨ps, w, hw, rfl, rfl⟩
    exact ⟨(ps, rest), scanPieces_of_text hw, rfl⟩

end Strings

/-! ## 3. Numbers -/

/-- **What may follow a number**: anything that does not go on with it. -/
def EndsNumber (rest : List Char) : Prop :=
  ∀ c ∈ rest.head?, c.isDigit = false ∧ c ≠ '.' ∧ c ≠ 'e' ∧ c ≠ 'E'

/-- **What may follow the digits of a number**: anything that is no further digit. -/
def EndsDigits (rest : List Char) : Prop :=
  ∀ c ∈ rest.head?, c.isDigit = false

section Numbers

variable {cs ds fs es rest : List Char}

theorem EndsNumber.endsDigits (h : EndsNumber rest) : EndsDigits rest :=
  fun c hc => (h c hc).1

/-- Digits are taken up to where they end. -/
theorem takeDigits_append (hds : ∀ c ∈ ds, c.isDigit = true) (hrest : EndsDigits rest) :
    takeDigits (ds ++ rest) = (ds, rest) := by
  -- What follows begins with no digit, so nothing of it is taken.
  have hstop : rest.takeWhile Char.isDigit = [] ∧ rest.dropWhile Char.isDigit = rest := by
    cases rest with
    | nil => exact ⟨rfl, rfl⟩
    | cons c cs =>
      have hc : c.isDigit = false := hrest c rfl
      exact ⟨by rw [List.takeWhile_cons_of_neg (by simp [hc])],
        by rw [List.dropWhile_cons_of_neg (by simp [hc])]⟩
  rw [takeDigits, List.takeWhile_append_of_pos hds, List.dropWhile_append_of_pos hds, hstop.1,
    hstop.2, List.append_nil]

/-- What is taken are digits, and they stand in front. -/
theorem of_takeDigits (h : takeDigits cs = (ds, rest)) :
    (∀ c ∈ ds, c.isDigit = true) ∧ cs = ds ++ rest := by
  obtain ⟨rfl, rfl⟩ := Prod.mk.inj h
  exact ⟨fun c hc => List.mem_takeWhile_imp hc, List.takeWhile_append_dropWhile.symm⟩

/-- Some digits that are taken are a run of digits. -/
theorem digits_of_not_isEmpty (hds : ∀ c ∈ ds, c.isDigit = true) (hne : ¬ ds.isEmpty = true) :
    Digits ds :=
  ⟨fun h => hne (List.isEmpty_iff.mpr h), hds⟩

theorem not_isEmpty_of_digits (h : Digits ds) : ¬ ds.isEmpty = true :=
  fun hempty => h.nonempty (List.isEmpty_iff.mp hempty)

/-- A fraction is scanned as it is spelled. -/
theorem scanFraction_append {f : Option (List Char)} (h : FractionText f fs)
    (hdigits : EndsDigits rest) (hpoint : ∀ c ∈ rest.head?, c ≠ '.') :
    scanFraction (fs ++ rest) = some (f, rest) := by
  cases h with
  | none =>
    rw [List.nil_append]
    unfold scanFraction
    split
    · exact absurd rfl (hpoint _ rfl)
    · rfl
  | some digits =>
    rw [List.cons_append, scanFraction, takeDigits_append digits.isDigit hdigits]
    exact if_neg (not_isEmpty_of_digits digits)

/-- What is scanned as a fraction is spelled as one. -/
theorem fractionText_of_scan {f : Option (List Char)} (h : scanFraction cs = some (f, rest)) :
    ∃ fs, FractionText f fs ∧ cs = fs ++ rest := by
  unfold scanFraction at h
  split at h
  · rename_i cs
    cases htake : takeDigits cs with
    | mk ds rest' =>
      simp only [htake] at h
      split at h
      · cases h
      · rename_i hne
        obtain ⟨rfl, rfl⟩ := Prod.mk.inj (Option.some.inj h)
        obtain ⟨hds, rfl⟩ := of_takeDigits htake
        exact ⟨_, .some (digits_of_not_isEmpty hds hne), rfl⟩
  · obtain ⟨rfl, rfl⟩ := Prod.mk.inj (Option.some.inj h)
    exact ⟨[], .none, rfl⟩

/-- A digit is not mistaken for a sign. -/
theorem ne_sign_of_digits (h : Digits ds) (sign : Char) (hsign : sign.isDigit = false)
    (cs' : List Char) : ds ++ rest ≠ sign :: cs' := by
  intro heq
  cases ds with
  | nil => exact h.nonempty rfl
  | cons d ds =>
    obtain ⟨rfl, -⟩ := List.cons.inj heq
    rw [h.isDigit d List.mem_cons_self] at hsign
    cases hsign

/-- **Scan the digits of an exponent**, behind its sign. -/
def scanPower (negative : Bool) (cs : List Char) : Option (Option (Bool × List Char) × List Char) :=
  if (takeDigits cs).1.isEmpty then none
  else some (some (negative, (takeDigits cs).1), (takeDigits cs).2)

/-- An exponent is a mark, a sign if there is one, and digits. -/
theorem scanExponent_cons (c : Char) (cs : List Char) :
    scanExponent (c :: cs)
      = if c = 'e' ∨ c = 'E' then
          match cs with
          | '+' :: cs => scanPower false cs
          | '-' :: cs => scanPower true cs
          | cs => scanPower false cs
        else some (none, c :: cs) := rfl

/-- The digits of an exponent are scanned as they are spelled. -/
theorem scanPower_append (negative : Bool) (h : Digits ds) (hrest : EndsNumber rest) :
    scanPower negative (ds ++ rest) = some (some (negative, ds), rest) := by
  rw [scanPower, takeDigits_append h.isDigit hrest.endsDigits]
  exact if_neg (not_isEmpty_of_digits h)

/-- What is scanned as the digits of an exponent are digits. -/
theorem digits_of_scanPower {negative : Bool} {e : Option (Bool × List Char)}
    (h : scanPower negative cs = some (e, rest)) :
    ∃ ds, e = some (negative, ds) ∧ Digits ds ∧ cs = ds ++ rest := by
  unfold scanPower at h
  split at h
  · cases h
  · rename_i hne
    obtain ⟨rfl, rfl⟩ := Prod.mk.inj (Option.some.inj h)
    obtain ⟨hds, hcs⟩ := of_takeDigits (rfl : takeDigits cs = _)
    exact ⟨_, rfl, digits_of_not_isEmpty hds hne, hcs⟩

/-- An exponent is scanned as it is spelled. -/
theorem scanExponent_append {e : Option (Bool × List Char)} (h : ExponentText e es)
    (hrest : EndsNumber rest) : scanExponent (es ++ rest) = some (e, rest) := by
  cases h with
  | none =>
    cases rest with
    | nil => rfl
    | cons c cs =>
      obtain ⟨-, -, he, hE⟩ := hrest c rfl
      exact if_neg (not_or.mpr ⟨he, hE⟩)
  | plain mark digits =>
    rw [List.cons_append, scanExponent_cons, if_pos mark]
    split
    · exact absurd ‹_› (ne_sign_of_digits digits '+' rfl _)
    · exact absurd ‹_› (ne_sign_of_digits digits '-' rfl _)
    · exact scanPower_append false digits hrest
  | plus mark digits =>
    rw [List.cons_append, scanExponent_cons, if_pos mark]
    exact scanPower_append false digits hrest
  | minus mark digits =>
    rw [List.cons_append, scanExponent_cons, if_pos mark]
    exact scanPower_append true digits hrest

/-- What is scanned as an exponent is spelled as one. -/
theorem exponentText_of_scan {e : Option (Bool × List Char)} (h : scanExponent cs = some (e, rest)) :
    ∃ es, ExponentText e es ∧ cs = es ++ rest := by
  cases cs with
  | nil =>
    obtain ⟨rfl, rfl⟩ := Prod.mk.inj (Option.some.inj h)
    exact ⟨[], .none, rfl⟩
  | cons c cs =>
    rw [scanExponent_cons] at h
    split at h
    · rename_i mark
      split at h
      · obtain ⟨ds, rfl, hds, rfl⟩ := digits_of_scanPower h
        exact ⟨_, .plus mark hds, rfl⟩
      · obtain ⟨ds, rfl, hds, rfl⟩ := digits_of_scanPower h
        exact ⟨_, .minus mark hds, rfl⟩
      · obtain ⟨ds, rfl, hds, rfl⟩ := digits_of_scanPower h
        exact ⟨_, .plain mark hds, rfl⟩
    · obtain ⟨rfl, rfl⟩ := Prod.mk.inj (Option.some.inj h)
      exact ⟨[], .none, rfl⟩

/-- Behind the digits before it, neither an exponent nor what ends a number goes on with them. -/
theorem ends_of_exponentText {e : Option (Bool × List Char)} (h : ExponentText e es)
    (hrest : EndsNumber rest) :
    EndsDigits (es ++ rest) ∧ ∀ c ∈ (es ++ rest).head?, c ≠ '.' := by
  have hmark : ∀ {c : Char} {cs : List Char}, c = 'e' ∨ c = 'E' →
      EndsDigits (c :: cs) ∧ ∀ d ∈ (c :: cs).head?, d ≠ '.' := by
    intro c cs hc
    constructor <;> rintro d ⟨⟩ <;> obtain rfl | rfl := hc <;> decide
  cases h with
  | none => exact ⟨hrest.endsDigits, fun c hc => (hrest c hc).2.1⟩
  | plain mark | plus mark | minus mark => exact hmark mark

/-- Behind the digits before it, a fraction does not go on with them. -/
theorem endsDigits_of_fractionText {f : Option (List Char)} (h : FractionText f fs)
    (hrest : EndsDigits rest) : EndsDigits (fs ++ rest) := by
  cases h with
  | none => exact hrest
  | some digits =>
    rintro c ⟨⟩
    rfl

/-- **Scan a number** behind its sign. -/
def scanUnsigned (negative : Bool) (cs : List Char) : Option (Literal × List Char) := do
  let (whole, cs) := takeDigits cs
  if whole.isEmpty ∨ (whole.head? = some '0' ∧ whole.length ≠ 1) then none
  else
    let (fraction, cs) ← scanFraction cs
    let (exponent, cs) ← scanExponent cs
    return (⟨negative, whole, fraction, exponent⟩, cs)

theorem scanNumber_sign (cs : List Char) : scanNumber ('-' :: cs) = scanUnsigned true cs := rfl

/-- Where no sign stands, a number is scanned without it. -/
theorem scanNumber_unsigned (h : ∀ cs', cs ≠ '-' :: cs') : scanNumber cs = scanUnsigned false cs := by
  unfold scanNumber
  split
  rename_i hsplit
  split at hsplit
  · exact absurd rfl (h _)
  · obtain ⟨rfl, rfl⟩ := Prod.mk.inj hsplit
    rfl

/-- What stands behind the sign of a number is scanned as it is spelled. -/
theorem scanUnsigned_append {whole : List Char} {fraction : Option (List Char)}
    {exponent : Option (Bool × List Char)} (negative : Bool) (digits : Digits whole)
    (idle : whole.head? = some '0' → whole.length = 1) (fracted : FractionText fraction fs)
    (raised : ExponentText exponent es) (hrest : EndsNumber rest) :
    scanUnsigned negative (whole ++ (fs ++ (es ++ rest)))
      = some (⟨negative, whole, fraction, exponent⟩, rest) := by
  -- Each part ends where the next one begins, because none begins with what would go on with it.
  obtain ⟨hdigits, hpoint⟩ := ends_of_exponentText raised hrest
  have htake := takeDigits_append digits.isDigit (endsDigits_of_fractionText fracted hdigits)
  have hwhole : ¬ (whole.isEmpty = true ∨ whole.head? = some '0' ∧ whole.length ≠ 1) := by
    rintro (hempty | ⟨hzero, hlength⟩)
    · exact not_isEmpty_of_digits digits hempty
    · exact hlength (idle hzero)
  simp only [scanUnsigned, htake, if_neg hwhole, scanFraction_append fracted hdigits hpoint,
    scanExponent_append raised hrest, bind, Option.bind, pure]

/-- What is scanned behind the sign of a number is spelled so. -/
theorem numberText_of_scanUnsigned {negative : Bool} {l : Literal}
    (h : scanUnsigned negative cs = some (l, rest)) :
    ∃ w, NumberText l ((if negative then ['-'] else []) ++ w) ∧ cs = w ++ rest := by
  unfold scanUnsigned at h
  cases htake : takeDigits cs with
  | mk whole behind =>
    simp only [htake] at h
    split at h
    · cases h
    · rename_i hwhole
      obtain ⟨⟨fraction, behind'⟩, hfraction, h⟩ := Option.bind_eq_some_iff.mp h
      obtain ⟨⟨exponent, behind''⟩, hexponent, h⟩ := Option.bind_eq_some_iff.mp h
      obtain ⟨rfl, rfl⟩ := Prod.mk.inj (Option.some.inj h)
      obtain ⟨hdigits, rfl⟩ := of_takeDigits htake
      obtain ⟨fs, hfs, rfl⟩ := fractionText_of_scan hfraction
      obtain ⟨es, hes, rfl⟩ := exponentText_of_scan hexponent
      obtain ⟨hne, hidle⟩ := not_or.mp hwhole
      have hzero : whole.head? = some '0' → whole.length = 1 :=
        fun hzero => not_not.mp fun hlength => hidle ⟨hzero, hlength⟩
      refine ⟨_, .mk negative (digits_of_not_isEmpty hdigits hne) hzero hfs hes, ?_⟩
      simp only [List.append_assoc]

/-- **A number is scanned as it is spelled**, if what follows does not go on with it. -/
theorem scanNumber_append {l : Literal} {w : List Char} (h : NumberText l w)
    (hrest : EndsNumber rest) : scanNumber (w ++ rest) = some (l, rest) := by
  cases h with
  | mk negative digits idle fracted raised =>
    have hunsigned := scanUnsigned_append negative digits idle fracted raised hrest
    cases negative with
    | true =>
      rw [if_pos rfl, List.singleton_append, List.cons_append, List.append_assoc, List.append_assoc,
        scanNumber_sign]
      exact hunsigned
    | false =>
      rw [if_neg Bool.false_ne_true, List.nil_append, List.append_assoc, List.append_assoc,
        scanNumber_unsigned (ne_sign_of_digits digits '-' rfl)]
      exact hunsigned

/-- **What is scanned as a number is spelled as one.** -/
theorem numberText_of_scan {l : Literal} (h : scanNumber cs = some (l, rest)) :
    ∃ w, NumberText l w ∧ cs = w ++ rest := by
  by_cases hsign : ∃ cs', cs = '-' :: cs'
  · obtain ⟨cs, rfl⟩ := hsign
    obtain ⟨w, hw, rfl⟩ := numberText_of_scanUnsigned h
    exact ⟨_, hw, rfl⟩
  · rw [scanNumber_unsigned fun cs' hcs => hsign ⟨cs', hcs⟩] at h
    obtain ⟨w, hw, rfl⟩ := numberText_of_scanUnsigned h
    exact ⟨_, hw, rfl⟩

end Numbers

end Raw

end Json

end ShardLedger
