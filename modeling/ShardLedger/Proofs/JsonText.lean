import ShardLedger.Proofs.JsonReading
/-
The text of a JSON value is read back as that value.

Each kind of text has its own reason to be one of the grammar.  A character of a string is spelled as one
piece, and the piece is joined to that character alone: an escaped control is never the half of a surrogate
pair.  The digits of a word begin with no idle zero, and they are gathered without running over.  Between
values stand commas and no blanks.

Numbers that are words are meant.  A double is spelled so that reading it finds the same double, which
is another matter; but its text, too, has no line feed.
-/

set_option autoImplicit false

namespace ShardLedger

namespace Json

namespace Raw

open Grammar

/-! ## 1. Strings -/

section Strings

theorem value?_digitChar {n : Nat} (h : n < 16) : Hex.value? (Nat.digitChar n) = some n := by
  revert n
  decide

/-- A control is the unit of its escape. -/
theorem unit?_control {n : Nat} (h : n < 32) :
    unit? '0' '0' (Nat.digitChar (n / 16)) (Nat.digitChar (n % 16)) = some n := by
  have hzero : Hex.value? '0' = some 0 := rfl
  simp only [unit?, hzero, value?_digitChar (show n / 16 < 16 by omega),
    value?_digitChar (show n % 16 < 16 by omega), bind, Option.bind, pure, Option.some.injEq]
  omega

/-- **The spelling of a character is one piece**, which is joined to that character. -/
theorem exists_pieceText (c : Char) : ∃ p : Piece,
    PieceText p (escape c) ∧ ∀ ps, joinPieces (p :: ps) = (joinPieces ps).map (c :: ·) := by
  unfold escape
  split
  -- Only a character with no short escape needs a reason.
  case h_8 hquote hback _ _ _ _ _ =>
    by_cases hlt : c.toNat < 32
    · rw [if_pos hlt]
      refine ⟨_, .unit (unit?_control hlt), fun ps => ?_⟩
      -- A control is below both halves of a surrogate pair, so it stands alone.
      have hleading : isLeading c.toNat = false := by simp [isLeading]; omega
      have htrailing : isTrailing c.toNat = false := by simp [isTrailing]; omega
      conv => lhs; unfold joinPieces
      simp [hleading, htrailing]
    · rw [if_neg hlt]
      exact ⟨_, .plain hquote hback (by omega), fun ps => rfl⟩
  all_goals exact ⟨_, .letter rfl, fun ps => rfl⟩

/-- The characters of a string are spelled one after the other. -/
theorem exists_stringText (s : List Char) :
    ∃ ps, StringText ps (s.flatMap escape) ∧ joinPieces ps = some s := by
  induction s with
  | nil => exact ⟨[], .nil, rfl⟩
  | cons c s ih =>
    obtain ⟨p, hp, hjoin⟩ := exists_pieceText c
    obtain ⟨ps, hps, hjoins⟩ := ih
    exact ⟨p :: ps, .cons hp hps, by rw [hjoin, hjoins, Option.map_some]⟩

/-- **A string is spelled** as one with its content. -/
theorem exists_content_eq (s : String) :
    ∃ ps, StringText ps (s.toList.flatMap escape) ∧ content ps = some s := by
  obtain ⟨ps, hps, hjoin⟩ := exists_stringText s.toList
  exact ⟨ps, hps, by rw [content, hjoin, Option.map_some, String.ofList_toList]⟩

end Strings

/-! ## 2. Numbers -/

section Numbers

/-- No number but zero begins with the digit zero. -/
theorem head?_digits {n : Nat} (h : 0 < n) : (Text.digits n).head? ≠ some '0' := by
  induction n using Nat.strongRecOn with
  | ind n ih =>
    rw [Text.digits]
    by_cases hn : n < 10
    · rw [Nat.toDigits_of_lt_base hn]
      have hdigit : ∀ d < 10, 0 < d → Nat.digitChar d ≠ '0' := by decide
      exact fun hzero => hdigit n hn h (Option.some.inj hzero)
    -- A longer number begins as it does without its last digit.
    · have hhead : (Nat.toDigits 10 (n / 10)).head? ≠ some '0' := ih (n / 10) (by omega) (by omega)
      rw [Nat.toDigits_of_base_le (by omega) (by omega),
        List.head?_append_of_ne_nil _ Nat.toDigits_ne_nil]
      exact hhead

theorem le_ofDigitChars (ds : List Char) (m : Nat) : m ≤ Nat.ofDigitChars 10 ds m := by
  induction ds generalizing m with
  | nil => exact Nat.le_refl m
  | cons c ds ih =>
    rw [Nat.ofDigitChars_cons]
    exact Nat.le_trans (by omega) (ih _)

theorem gather_digits {ds : List Char} {s : Nat} (taken : Nat)
    (h : Nat.ofDigitChars 10 ds s < UInt64.size) :
    gather s taken ds = (Nat.ofDigitChars 10 ds s, taken + ds.length, []) := by
  induction ds generalizing s taken with
  | nil => rfl
  | cons c cs ih =>
    rw [Nat.ofDigitChars_cons] at h ⊢
    have hs : s * 10 + (c.toNat - 48) = 10 * s + (c.toNat - '0'.toNat) := by
      rw [Nat.mul_comm]
      rfl
    rw [gather, hs]
    rw [if_pos (Nat.lt_of_le_of_lt (le_ofDigitChars cs _) h), ih _ h, List.length_cons, Nat.add_assoc,
      Nat.add_comm 1]

/-- The digits of a number are digits. -/
theorem isDigit_of_mem_digits {n : Nat} {c : Char} (h : c ∈ Text.digits n) : c.isDigit = true :=
  Nat.isDigit_of_mem_toDigits (by omega) (by omega) h

/-- The digits of a number are a run of digits, with no idle zero in front. -/
theorem digits_digits (n : Nat) :
    Digits (Text.digits n) ∧ ((Text.digits n).head? = some '0' → (Text.digits n).length = 1) := by
  refine ⟨⟨Nat.toDigits_ne_nil, fun c => isDigit_of_mem_digits⟩, fun hzero => ?_⟩
  by_cases hn : 0 < n
  · exact absurd hzero (head?_digits hn)
  · obtain rfl : n = 0 := by omega
    rfl

/-- **The digits of a number are a text of it**, behind a sign or not. -/
theorem numberText_digits (negative : Bool) (n : Nat) :
    NumberText ⟨negative, Text.digits n, none, none⟩
      ((if negative then ['-'] else []) ++ Text.digits n) := by
  obtain ⟨hdigits, hidle⟩ := digits_digits n
  have htext := NumberText.mk negative hdigits hidle .none .none
  rwa [List.append_nil, List.append_nil] at htext

/-- **A word is the number of its literal.** -/
theorem number?_natural (n : UInt64) :
    Literal.number? ⟨false, Text.digits n.toNat, none, none⟩ = some (.natural n) := by
  have hdigits : Nat.ofDigitChars 10 (Text.digits n.toNat) 0 = n.toNat :=
    Nat.ofDigitChars_ten_toDigits
  have hgather := gather_digits 0 (hdigits.symm ▸ n.toNat_lt)
  simp [Literal.number?, hgather, hdigits]

/-- A negative word is the number of its literal. -/
theorem number?_negative {i : Int64} (hi : i < 0) :
    Literal.number? ⟨true, Text.digits i.toInt.natAbs, none, none⟩ = some (.negative i) := by
  have hlow := i.le_toInt
  have hneg : i.toInt < 0 := Int64.lt_iff_toInt_lt.mp hi
  have hdigits : Nat.ofDigitChars 10 (Text.digits i.toInt.natAbs) 0 = i.toInt.natAbs :=
    Nat.ofDigitChars_ten_toDigits
  have hsize : i.toInt.natAbs < UInt64.size := by simp only [UInt64.size]; omega
  have hgather := gather_digits 0 (hdigits.symm ▸ hsize)
  have habs : -(i.toInt.natAbs : Int) = i.toInt := by omega
  have hfits : 0 < i.toInt.natAbs ∧ i.toInt.natAbs ≤ 2 ^ 63 := by omega
  rw [Literal.number?, hgather, hdigits]
  simp only [Option.isNone_none, List.isEmpty_nil, Bool.and_self, not_true_eq_false, and_false,
    if_false]
  rw [if_pos ⟨trivial, hfits⟩, habs, Int64.ofInt_toInt]

end Numbers

end Raw

/-! ## 3. Values -/

/-- **The number is a word**, and a negative one if it is kept so. -/
def Number.isWord : Number → Bool
  | .natural _ => true
  | .negative i => i < 0
  | .real _ => false

mutual

/-- **Every number inside is a word.** -/
def isPlain : Json → Bool
  | .number n => n.isWord
  | .array items => plainItems items
  | .object members => plainMembers members
  | .null | .bool _ | .string _ => true

def plainItems : List Json → Bool
  | [] => true
  | j :: js => isPlain j && plainItems js

def plainMembers : List (String × Json) → Bool
  | [] => true
  | (_, j) :: ms => isPlain j && plainMembers ms

end

namespace Raw

open Grammar

section Values

/-- A word is spelled as a number. -/
theorem valueText_number {n : Number} (h : n.isWord = true) :
    ValueText (.number (some n)) n.chars := by
  cases n with
  | natural n => exact number?_natural n ▸ .number (numberText_digits false n.toNat)
  | negative i =>
    have hi : i < 0 := of_decide_eq_true h
    rw [Number.chars, Text.integer, if_pos (show i.toInt < 0 from Int64.lt_iff_toInt_lt.mp hi)]
    exact number?_negative hi ▸ .number (numberText_digits true i.toInt.natAbs)
  | real x => cases h

mutual

/-- **The text of a value is one of its texts.** -/
theorem valueText_chars : ∀ (j : Json), j.isPlain = true → ValueText (ofJson j) j.chars
  | .null, _ => .null
  | .bool true, _ => .true
  | .bool false, _ => .false
  | .number _, h => valueText_number h
  | .string s, _ => by
    obtain ⟨ps, hps, hcontent⟩ := exists_content_eq s
    have htext := ValueText.string hps
    rwa [hcontent] at htext
  | .array [], _ => .emptyArray blanks_nil
  | .array (j :: js), h => by
    obtain ⟨w, hw, hchars⟩ := itemsText_chars (j :: js) h (List.cons_ne_nil _ _)
    rw [itemsChars, List.cons_append, List.tail_cons] at hchars
    rw [chars, List.cons_append, hchars]
    exact .array hw
  | .object [], _ => .emptyObject blanks_nil
  | .object ((name, j) :: ms), h => by
    obtain ⟨w, hw, hchars⟩ := membersText_chars ((name, j) :: ms) h (List.cons_ne_nil _ _)
    simp only [membersChars, List.cons_append, List.tail_cons] at hchars
    simp only [chars, List.cons_append, hchars]
    exact .object hw

/-- Items are spelled behind the comma of the first, up to the closing bracket. -/
theorem itemsText_chars : ∀ (js : List Json), plainItems js = true → js ≠ [] →
    ∃ w, ItemsText (ofItems js) w ∧ (itemsChars js).tail = w ++ [']']
  | [], _, h => absurd rfl h
  | [j], h, _ => by
    have hj := valueText_chars j (Bool.and_eq_true_iff.mp h).1
    refine ⟨_, .single blanks_nil hj blanks_nil, ?_⟩
    simp only [itemsChars, List.cons_append, List.tail_cons, List.nil_append, List.append_nil]
  | j :: j' :: js, h, _ => by
    obtain ⟨hj, hjs⟩ := Bool.and_eq_true_iff.mp h
    obtain ⟨w, hw, hchars⟩ := itemsText_chars (j' :: js) hjs (List.cons_ne_nil _ _)
    refine ⟨_, .cons blanks_nil (valueText_chars j hj) blanks_nil hw, ?_⟩
    rw [itemsChars, List.cons_append, List.tail_cons] at hchars ⊢
    rw [itemsChars, List.cons_append, hchars]
    simp only [List.nil_append, List.append_assoc, List.cons_append]

theorem membersText_chars : ∀ (ms : List (String × Json)), plainMembers ms = true → ms ≠ [] →
    ∃ w, MembersText (ofMembers ms) w ∧ (membersChars ms).tail = w ++ ['\x7d']
  | [], _, h => absurd rfl h
  | [(name, j)], h, _ => by
    have hj := valueText_chars j (Bool.and_eq_true_iff.mp h).1
    obtain ⟨ps, hps, hcontent⟩ := exists_content_eq name
    have htext := MembersText.single blanks_nil hps blanks_nil blanks_nil hj blanks_nil
    refine ⟨_, hcontent ▸ htext, ?_⟩
    simp only [membersChars, stringChars, List.cons_append, List.tail_cons, List.nil_append,
      List.append_assoc, List.append_nil]
  | (name, j) :: m :: ms, h, _ => by
    obtain ⟨hj, hms⟩ := Bool.and_eq_true_iff.mp h
    obtain ⟨w, hw, hchars⟩ := membersText_chars (m :: ms) hms (List.cons_ne_nil _ _)
    obtain ⟨ps, hps, hcontent⟩ := exists_content_eq name
    have htext := MembersText.cons blanks_nil hps blanks_nil blanks_nil (valueText_chars j hj)
      blanks_nil hw
    refine ⟨_, hcontent ▸ htext, ?_⟩
    simp only [membersChars, stringChars, List.cons_append, List.tail_cons, List.nil_append,
      List.append_assoc] at hchars ⊢
    rw [hchars]

end

end Values

/-- **The text of a value is read as that value**, and nothing is left over. -/
theorem ofChars_chars {j : Json} (h : j.isPlain = true) : ofChars j.chars = (ofJson j, true) :=
  ofChars_eq_iff.mpr ⟨[], j.chars, [], blanks_nil, valueText_chars j h, blanks_nil,
    (List.append_nil _).symm⟩

end Raw

/-! ## 4. One line -/

section Line

/-- No character is spelled with a line feed. -/
theorem lineFeed_notMem_escape (c : Char) : '\n' ∉ escape c := by
  unfold escape
  split
  case h_8 =>
    split
    · rename_i hlt
      -- The line feed has an escape of its own, and other escapes are letters and digits.
      have hdigit : ∀ d < 16, Nat.digitChar d ≠ '\n' := by decide
      have hhigh := hdigit (c.toNat / 16) (by omega)
      have hlow := hdigit (c.toNat % 16) (by omega)
      simp [hhigh.symm, hlow.symm]
    · rename_i hfeed _ _ _ _ _
      exact fun h => hfeed (List.mem_singleton.mp h).symm
  all_goals decide

theorem lineFeed_notMem_stringChars (s : String) : '\n' ∉ stringChars s := by
  simp only [stringChars, List.cons_append, List.mem_cons, List.mem_append, List.mem_flatMap]
  rintro (h | ⟨c, -, h⟩ | h | h)
  · cases h
  · exact lineFeed_notMem_escape c h
  · cases h
  · cases h

theorem lineFeed_notMem_digits (n : Nat) : '\n' ∉ Text.digits n := fun h =>
  absurd (Raw.isDigit_of_mem_digits h) (by decide)

/-- A double is spelled with digits, a point, a mark and signs. -/
theorem lineFeed_notMem_real (x : Binary64) : '\n' ∉ x.chars := by
  unfold Binary64.chars
  lift_lets
  extract_lets sign d ds n point e power
  have hsign : '\n' ∉ sign := by
    change '\n' ∉ if x.negative then ['-'] else []
    split <;> decide
  have hds : '\n' ∉ ds := lineFeed_notMem_digits d.digits
  have htake : ∀ k, '\n' ∉ ds.take k := fun k h => hds (List.mem_of_mem_take h)
  have hdrop : ∀ k, '\n' ∉ ds.drop k := fun k h => hds (List.mem_of_mem_drop h)
  have hzeros : ∀ k, '\n' ∉ List.replicate k '0' := fun k h => by
    cases List.eq_of_mem_replicate h
  have hpower : '\n' ∉ power := by
    have he : '\n' ∉ Nat.toDigits 10 e.natAbs := lineFeed_notMem_digits _
    have hmark : '\n' ≠ if e < 0 then '-' else '+' := by split <;> decide
    simp [power, he, hmark]
  split
  · simp [hsign]
  · rw [List.mem_append, not_or]
    refine ⟨hsign, ?_⟩
    split
    · simp [hds, hzeros]
    · split
      · simp [htake, hdrop]
      · split
        · simp [hds, hzeros]
        · split <;> simp only [List.mem_append, List.mem_cons, not_or]
          · exact ⟨hds, hpower⟩
          · exact ⟨⟨htake _, by decide, hdrop _⟩, hpower⟩

theorem lineFeed_notMem_number (n : Number) : '\n' ∉ n.chars := by
  cases n with
  | natural n => exact lineFeed_notMem_digits _
  | negative i =>
    rw [Number.chars, Text.integer]
    split
    · rintro (⟨⟩ | ⟨_, h⟩)
      exact lineFeed_notMem_digits _ h
    · exact lineFeed_notMem_digits _
  | real x => exact lineFeed_notMem_real x

mutual

/-- **The text of a value is one line.** -/
theorem lineFeed_notMem_chars : ∀ j : Json, '\n' ∉ j.chars
  | .null => by decide
  | .bool true => by decide
  | .bool false => by decide
  | .number n => lineFeed_notMem_number n
  | .string s => lineFeed_notMem_stringChars s
  | .array [] => by decide
  | .array (j :: js) => by
    have hitems := lineFeed_notMem_items (j :: js)
    simpa [chars, itemsChars] using hitems
  | .object [] => by decide
  | .object ((name, j) :: ms) => by
    have hmembers := lineFeed_notMem_members ((name, j) :: ms)
    simpa [chars, membersChars] using hmembers

theorem lineFeed_notMem_items : ∀ js : List Json, '\n' ∉ itemsChars js
  | [] => by decide
  | j :: js => by simp [itemsChars, lineFeed_notMem_chars j, lineFeed_notMem_items js]

theorem lineFeed_notMem_members : ∀ ms : List (String × Json), '\n' ∉ membersChars ms
  | [] => by decide
  | (name, j) :: ms => by
    simp [membersChars, lineFeed_notMem_stringChars name, lineFeed_notMem_chars j,
      lineFeed_notMem_members ms]

end

end Line

end Json

end ShardLedger
