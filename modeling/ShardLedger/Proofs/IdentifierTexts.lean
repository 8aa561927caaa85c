import Mathlib.Data.List.Induction
import ShardLedger.TransactionId
/-
The texts of identifiers.

A text is read in three steps: it is cut at the first at sign, what follows at the first dot, and what
stands before at all dots.  What is accepted in the end is put down here as a grammar that knows nothing of
cutting: numerals, which any number of zeros may begin, with dots and an at sign between them.

Whatever is written is in the grammar if it has no minus sign, and it is read back as what it was; and
different identifiers have different texts, with a minus sign or without.
-/

set_option autoImplicit false

namespace ShardLedger

namespace Text

/-! ## 1. Numerals -/

/-- **A numeral writes a number**: a digit does, and one more digit counts ten times what stands before
it. -/
inductive Numeral : List Char → Nat → Prop
  | digit {d : Nat} (isDigit : d < 10) : Numeral [d.digitChar] d
  | more {cs : List Char} {n d : Nat} (before : Numeral cs n) (isDigit : d < 10) :
    Numeral (cs ++ [d.digitChar]) (10 * n + d)

/-- An ASCII digit is the digit of a number below ten. -/
theorem exists_digitChar {c : Char} (h : c.isDigit = true) : ∃ d < 10, c = d.digitChar := by
  obtain ⟨hlow, hhigh⟩ := Bool.and_eq_true_iff.mp h
  have hlow : 48 ≤ c.toNat := UInt32.le_iff_toNat_le.mp (of_decide_eq_true hlow)
  have hhigh : c.toNat ≤ 57 := UInt32.le_iff_toNat_le.mp (of_decide_eq_true hhigh)
  have hall : ∀ k < 58, 48 ≤ k → ∃ d < 10, Char.ofNat k = d.digitChar := by decide
  obtain ⟨d, hd, heq⟩ := hall c.toNat (by omega) hlow
  exact ⟨d, hd, by rw [← heq, Char.ofNat_toNat]⟩

/-- One more digit is read as it is written. -/
theorem ofDigitChars_concat {d : Nat} (hd : d < 10) (cs : List Char) :
    Nat.ofDigitChars 10 (cs ++ [d.digitChar]) 0 = 10 * Nat.ofDigitChars 10 cs 0 + d := by
  have hvalue : d.digitChar.toNat - '0'.toNat = d := Nat.toNat_digitChar_sub_48_of_lt_ten hd
  rw [Nat.ofDigitChars_eq_foldl, Nat.ofDigitChars_eq_foldl, List.foldl_append, List.foldl_cons,
    List.foldl_nil, hvalue]

namespace Numeral

variable {cs : List Char} {n : Nat}

/-- A numeral is a digit string, read as its number. -/
theorem read (h : Numeral cs n) : isDigits cs = true ∧ Nat.ofDigitChars 10 cs 0 = n := by
  have hdigits : ∀ d < 10, d.digitChar.isDigit = true := by decide
  induction h with
  | @digit d hd =>
    have hread := ofDigitChars_concat hd []
    refine ⟨by simp [isDigits, hdigits d hd], ?_⟩
    simpa using hread
  | @more cs n d before hd ih =>
    obtain ⟨hcs, hn⟩ := ih
    refine ⟨?_, by rw [ofDigitChars_concat hd, hn]⟩
    have hall : cs.all Char.isDigit = true := (Bool.and_eq_true_iff.mp hcs).2
    simp [isDigits, hall, hdigits d hd]

/-- Every digit string is a numeral.  The induction is from its end, where the last digit is. -/
theorem of_isDigits (h : isDigits cs = true) : Numeral cs (Nat.ofDigitChars 10 cs 0) := by
  induction cs using List.reverseRecOn with
  | nil => cases h
  | append_singleton cs c ih =>
    simp only [isDigits, List.all_append, List.all_cons, List.all_nil, Bool.and_true,
      Bool.and_eq_true] at h
    obtain ⟨d, hd, rfl⟩ := exists_digitChar h.2.2
    rw [ofDigitChars_concat hd]
    cases cs with
    | nil => simpa using Numeral.digit hd
    | cons c cs => exact .more (ih (by simp [isDigits, h.2.1])) hd

/-- A numeral has digits only. -/
theorem notMem (h : Numeral cs n) {c : Char} (hc : c.isDigit = false) : c ∉ cs := by
  intro hmem
  have hall : ∀ c ∈ cs, c.isDigit = true :=
    List.all_eq_true.mp (Bool.and_eq_true_iff.mp h.read.1).2
  rw [hall c hmem] at hc
  cases hc

/-- A numeral writes no larger number than it has places for. -/
theorem lt_pow (h : Numeral cs n) : n < 10 ^ cs.length := by
  induction h with
  | digit hd => exact hd
  | more _ hd ih =>
    rw [List.length_append, List.length_singleton, Nat.pow_succ]
    omega

/-- A numeral writes one number only. -/
theorem unique {m : Nat} (h : Numeral cs n) (h' : Numeral cs m) : n = m :=
  h.read.2.symm.trans h'.read.2

/-- A zero in front changes nothing. -/
theorem zero_cons (h : Numeral cs n) : Numeral ('0' :: cs) n := by
  induction h with
  | @digit d hd =>
    have hmore := Numeral.more (.digit (d := 0) (by decide)) hd
    rwa [Nat.mul_zero, Nat.zero_add] at hmore
  | more _ hd ih => exact .more ih hd

/-- Nor do zeros. -/
theorem zeros_append (h : Numeral cs n) (k : Nat) : Numeral (List.replicate k '0' ++ cs) n := by
  induction k with
  | zero => exact h
  | succ k ih => exact ih.zero_cons

end Numeral

/-- **A number is read exactly from the numerals that write it.** -/
theorem number?_eq_some_iff {cs : List Char} {n : Nat} : number? cs = some n ↔ Numeral cs n := by
  unfold number?
  constructor
  · intro h
    split at h
    · rename_i hdigits
      obtain rfl := Option.some.inj h
      exact .of_isDigits hdigits
    · cases h
  · intro h
    rw [if_pos h.read.1, h.read.2]

/-- The digits of a number are a numeral of it. -/
theorem numeral_digits (n : Nat) : Numeral (digits n) n := by
  induction n using Nat.strongRecOn with
  | ind n ih =>
    rw [digits]
    by_cases hn : n < 10
    · rw [Nat.toDigits_of_lt_base hn]
      exact .digit hn
    · rw [Nat.toDigits_of_base_le (by decide) (Nat.le_of_not_lt hn)]
      have hmore := Numeral.more (ih (n / 10) (by omega)) (Nat.mod_lt n (by decide : 0 < 10))
      rwa [Nat.div_add_mod] at hmore

/-- So are its digits padded. -/
theorem numeral_paddedDigits (width n : Nat) : Numeral (paddedDigits width n) n :=
  (numeral_digits n).zeros_append _

/-- Padded digits fill their width, if the number does not need more. -/
theorem length_paddedDigits {width n : Nat} (hw : 0 < width) (h : n < 10 ^ width) :
    (paddedDigits width n).length = width := by
  have hlength : (digits n).length ≤ width := (Nat.length_toDigits_le_iff (by decide) hw).mpr h
  rw [paddedDigits, List.length_append, List.length_replicate]
  omega

/-- **Integers are told by sign and numeral**, whatever zeros are in front. -/
theorem signed_inj {i j : Int} {a b : List Char} (ha : Numeral a i.natAbs) (hb : Numeral b j.natAbs)
    (h : (if i < 0 then '-' :: a else a) = if j < 0 then '-' :: b else b) : i = j := by
  have hminus : ∀ {cs : List Char} {n : Nat}, Numeral cs n → '-' ∉ cs := fun hcs =>
    hcs.notMem (by decide)
  by_cases hi : i < 0
  · by_cases hj : j < 0
    · rw [if_pos hi, if_pos hj] at h
      obtain rfl := (List.cons.inj h).2
      have habs := ha.unique hb
      omega
    · rw [if_pos hi, if_neg hj] at h
      exact absurd (h ▸ List.mem_cons_self) (hminus hb)
  · by_cases hj : j < 0
    · rw [if_neg hi, if_pos hj] at h
      exact absurd (h ▸ List.mem_cons_self) (hminus ha)
    · rw [if_neg hi, if_neg hj] at h
      subst h
      have habs := ha.unique hb
      omega

/-- An integer that is not negative is written as its number. -/
theorem integer_natCast (n : Nat) : integer n = digits n :=
  if_neg (Int.not_lt.mpr (Int.natCast_nonneg n))

theorem paddedInteger_natCast (width n : Nat) : paddedInteger width n = paddedDigits width n :=
  if_neg (Int.not_lt.mpr (Int.natCast_nonneg n))

/-- Different integers have different texts. -/
theorem integer_inj {i j : Int} (h : integer i = integer j) : i = j :=
  signed_inj (numeral_digits _) (numeral_digits _) h

/-- Different integers have different padded texts. -/
theorem paddedInteger_inj {width : Nat} {i j : Int}
    (h : paddedInteger width i = paddedInteger width j) : i = j := by
  -- The sign takes one place of the width.
  have hpad : ∀ k : Int, paddedInteger width k
      = if k < 0 then '-' :: paddedDigits (if k < 0 then width - 1 else width) k.natAbs
        else paddedDigits (if k < 0 then width - 1 else width) k.natAbs := by
    intro k
    unfold paddedInteger
    split <;> rfl
  rw [hpad, hpad] at h
  exact signed_inj (numeral_paddedDigits _ _) (numeral_paddedDigits _ _) h

/-- An integer has digits only, behind its sign. -/
theorem notMem_integer {c : Char} (hc : c.isDigit = false) (hminus : c ≠ '-') (i : Int) :
    c ∉ integer i := by
  have hdigits := (numeral_digits i.natAbs).notMem hc
  unfold integer
  split
  · exact fun hmem => (List.mem_cons.mp hmem).elim hminus hdigits
  · exact hdigits

/-! ## 2. Separators -/

variable {sep : Char} {cs a b : List Char}

/-- What stands before the first separator is cut off. -/
theorem cut_append (h : sep ∉ a) : cut sep (a ++ sep :: b) = some (a, b) := by
  induction a with
  | nil => exact if_pos rfl
  | cons c a ih =>
    obtain ⟨hc, ha⟩ := not_or.mp (mt List.mem_cons.mpr h)
    rw [List.cons_append, cut, if_neg fun heq => hc heq.symm, ih ha]
    rfl

/-- **Cutting at the first separator** takes what stands before it, and leaves what follows. -/
theorem cut_eq_some_iff : cut sep cs = some (a, b) ↔ sep ∉ a ∧ cs = a ++ sep :: b := by
  refine ⟨fun h => ?_, fun ⟨ha, hcs⟩ => hcs ▸ cut_append ha⟩
  induction cs generalizing a with
  | nil => cases h
  | cons c cs ih =>
    rw [cut] at h
    split at h
    · rename_i hc
      obtain ⟨rfl, rfl⟩ := Prod.mk.inj (Option.some.inj h)
      exact ⟨List.not_mem_nil, congrArg (· :: cs) hc⟩
    · rename_i hc
      obtain ⟨⟨a', b'⟩, hcut, heq⟩ := Option.map_eq_some_iff.mp h
      obtain ⟨rfl, rfl⟩ := Prod.mk.inj heq
      obtain ⟨ha, rfl⟩ := ih hcut
      refine ⟨fun hmem => ?_, rfl⟩
      exact (List.mem_cons.mp hmem).elim (fun heq => hc heq.symm) ha

/-- Nothing is cut exactly if there is no separator. -/
theorem cut_eq_none_iff : cut sep cs = none ↔ sep ∉ cs := by
  constructor
  · intro h hmem
    obtain ⟨a, b, rfl, ha⟩ := List.eq_append_cons_of_mem hmem
    rw [cut_append ha] at h
    cases h
  · intro h
    cases hcut : cut sep cs with
    | none => rfl
    | some p =>
      obtain ⟨-, rfl⟩ := cut_eq_some_iff.mp hcut
      exact absurd (List.mem_append_right _ List.mem_cons_self) h

/-- Texts that are cut alike are alike before the separator and behind it. -/
theorem append_sep_inj {a' b' : List Char} (ha : sep ∉ a) (ha' : sep ∉ a')
    (h : a ++ sep :: b = a' ++ sep :: b') : a = a' ∧ b = b' := by
  have hcut : cut sep (a ++ sep :: b) = some (a, b) := cut_append ha
  rw [h, cut_append ha'] at hcut
  obtain ⟨rfl, rfl⟩ := Prod.mk.inj (Option.some.inj hcut)
  exact ⟨rfl, rfl⟩

/-- **The parts between separators**, one by one: what stands before the first, and the parts of what
follows. -/
theorem parts_eq (sep : Char) (cs : List Char) :
    parts sep cs = match cut sep cs with
      | none => [cs]
      | some (a, b) => a :: parts sep b := by
  induction cs with
  | nil => rfl
  | cons c cs ih =>
    rw [parts, cut]
    by_cases hc : c = sep
    · rw [if_pos hc, if_pos hc]
    · rw [if_neg hc, if_neg hc, ih]
      cases cut sep cs <;> rfl

theorem parts_ne_nil (sep : Char) (cs : List Char) : parts sep cs ≠ [] := by
  rw [parts_eq]
  split <;> exact List.cons_ne_nil _ _

/-- A text is one part exactly if it has no separator. -/
theorem parts_eq_singleton_iff : parts sep cs = [a] ↔ sep ∉ a ∧ cs = a := by
  rw [parts_eq]
  cases hcut : cut sep cs with
  | none =>
    have hnone := cut_eq_none_iff.mp hcut
    constructor
    · rintro ⟨⟩
      exact ⟨hnone, rfl⟩
    · rintro ⟨-, rfl⟩
      rfl
  | some p =>
    obtain ⟨-, hcs⟩ := cut_eq_some_iff.mp hcut
    constructor
    · intro h
      exact absurd (List.cons.inj h).2 (parts_ne_nil sep p.2)
    · rintro ⟨ha, rfl⟩
      exact absurd (hcs ▸ List.mem_append_right _ List.mem_cons_self) ha

/-- A text of several parts begins with the first of them. -/
theorem parts_eq_cons_cons_iff {p : List Char} {ps : List (List Char)} :
    parts sep cs = a :: p :: ps
      ↔ sep ∉ a ∧ ∃ rest, cs = a ++ sep :: rest ∧ parts sep rest = p :: ps := by
  rw [parts_eq]
  constructor
  · intro h
    split at h
    · cases h
    · rename_i a' rest hcut
      obtain ⟨rfl, hrest⟩ := List.cons.inj h
      obtain ⟨ha, hcs⟩ := cut_eq_some_iff.mp hcut
      exact ⟨ha, rest, hcs, hrest⟩
  · rintro ⟨ha, rest, rfl, hrest⟩
    rw [cut_append ha, ← hrest]

/-- **Three parts** are three texts without separators, and a separator between each two. -/
theorem parts_eq_three_iff {c : List Char} :
    parts sep cs = [a, b, c]
      ↔ (sep ∉ a ∧ sep ∉ b ∧ sep ∉ c) ∧ cs = a ++ sep :: (b ++ sep :: c) := by
  constructor
  · intro h
    obtain ⟨ha, rest, rfl, hrest⟩ := parts_eq_cons_cons_iff.mp h
    obtain ⟨hb, last, rfl, hlast⟩ := parts_eq_cons_cons_iff.mp hrest
    obtain ⟨hc, rfl⟩ := parts_eq_singleton_iff.mp hlast
    exact ⟨⟨ha, hb, hc⟩, rfl⟩
  · rintro ⟨⟨ha, hb, hc⟩, rfl⟩
    have hlast := parts_eq_singleton_iff.mpr ⟨hc, rfl⟩
    have hrest := parts_eq_cons_cons_iff.mpr ⟨hb, _, rfl, hlast⟩
    exact parts_eq_cons_cons_iff.mpr ⟨ha, _, rfl, hrest⟩

end Text

/-! ## 3. Account identifiers -/

/-- A signed word that is not negative is a number that fits it. -/
theorem exists_ofNat_of_nonneg {x : Int64} (h : 0 ≤ x) :
    ∃ n < 2 ^ 63, x = Int64.ofNat n ∧ x.toInt = n := by
  have hnonneg : 0 ≤ x.toInt := Int64.le_iff_toInt_le.mp h
  have hlt := x.toInt_lt
  have hfits : x.toInt.toNat < 2 ^ 63 := by omega
  have hvalue : x.toInt = x.toInt.toNat := (Int.toNat_of_nonneg hnonneg).symm
  refine ⟨x.toInt.toNat, hfits, Int64.toInt_inj.mp ?_, hvalue⟩
  rw [Int64.toInt_ofNat_of_lt hfits]
  exact hvalue

namespace AccountId

/-- **The texts of an account identifier**: three numerals within a signed word, with single dots between
them, for shard, realm and account. -/
inductive Written : List Char → AccountId → Prop
  | mk {s r a : List Char} {shard realm account : Nat}
    (shards : Text.Numeral s shard) (realms : Text.Numeral r realm) (accounts : Text.Numeral a account)
    (fits : shard < 2 ^ 63 ∧ realm < 2 ^ 63 ∧ account < 2 ^ 63) :
    Written (s ++ '.' :: (r ++ '.' :: a))
      ⟨Int64.ofNat shard, Int64.ofNat realm, Int64.ofNat account⟩

/-- A component is read from the numerals that fit its word. -/
theorem component?_eq_some_iff {cs : List Char} {x : Int64} :
    component? cs = some x ↔ ∃ n, Text.Numeral cs n ∧ n < 2 ^ 63 ∧ Int64.ofNat n = x := by
  simp only [component?, bind, Option.bind_eq_some_iff, Text.number?_eq_some_iff]
  refine exists_congr fun n => and_congr_right fun _ => ?_
  by_cases hn : n < 2 ^ 63
  · rw [if_pos hn, Option.some.injEq]
    exact (and_iff_right hn).symm
  · rw [if_neg hn]
    exact iff_of_false nofun fun h => hn h.1

/-- **What is read as an account identifier** is one of its texts. -/
theorem ofChars?_eq_some_iff {cs : List Char} {id : AccountId} :
    ofChars? cs = some id ↔ Written cs id := by
  unfold ofChars?
  constructor
  · intro h
    split at h
    · rename_i s r a hparts
      obtain ⟨-, rfl⟩ := Text.parts_eq_three_iff.mp hparts
      simp only [bind, Option.bind_eq_some_iff, component?_eq_some_iff] at h
      obtain ⟨_, ⟨shard, hs, hshard, rfl⟩, _, ⟨realm, hr, hrealm, rfl⟩, _, ⟨account, ha, haccount, rfl⟩,
        h⟩ := h
      obtain rfl := Option.some.inj h
      exact .mk hs hr ha ⟨hshard, hrealm, haccount⟩
    · cases h
  · rintro ⟨hs, hr, ha, hshard, hrealm, haccount⟩
    have hdot : ∀ {cs : List Char} {n : Nat}, Text.Numeral cs n → '.' ∉ cs := fun hcs =>
      hcs.notMem (by decide)
    rw [Text.parts_eq_three_iff.mpr ⟨⟨hdot hs, hdot hr, hdot ha⟩, rfl⟩]
    have hread : ∀ {cs : List Char} {n : Nat}, Text.Numeral cs n → n < 2 ^ 63 →
        component? cs = some (Int64.ofNat n) := fun hcs hn =>
      component?_eq_some_iff.mpr ⟨_, hcs, hn, rfl⟩
    simp only [hread hs hshard, hread hr hrealm, hread ha haccount]
    rfl

theorem parse_eq_ok_iff {s : String} {id : AccountId} : parse s = .ok id ↔ Written s.toList id := by
  rw [parse, ← ofChars?_eq_some_iff]
  cases ofChars? s.toList <;> simp

/-- None of the texts has an at sign. -/
theorem Written.notMem_at {cs : List Char} {id : AccountId} (h : Written cs id) : '@' ∉ cs := by
  obtain ⟨hs, hr, ha, -⟩ := h
  simp only [List.mem_append, List.mem_cons, not_or]
  exact ⟨hs.notMem (by decide), by decide, hr.notMem (by decide), by decide, ha.notMem (by decide)⟩

/-- What is read is proper. -/
theorem Written.proper {cs : List Char} {id : AccountId} (h : Written cs id) : id.Proper := by
  obtain ⟨-, -, -, hshard, hrealm, haccount⟩ := h
  have hnonneg : ∀ {n : Nat}, n < 2 ^ 63 → 0 ≤ Int64.ofNat n := by
    intro n hn
    rw [Int64.le_iff_toInt_le, Int64.toInt_ofNat_of_lt hn]
    exact Int.natCast_nonneg n
  exact ⟨hnonneg hshard, hnonneg hrealm, hnonneg haccount⟩

/-- The text of an identifier, dot by dot. -/
theorem chars_eq (id : AccountId) :
    id.chars = Text.integer id.shard.toInt ++ '.' :: (Text.integer id.realm.toInt
      ++ '.' :: Text.integer id.account.toInt) := by
  rw [chars, List.append_assoc]
  rfl

/-- **A proper identifier is written as one of its texts.** -/
theorem Proper.written {id : AccountId} (h : id.Proper) : Written id.chars id := by
  obtain ⟨shard, realm, account⟩ := id
  obtain ⟨s, hs, rfl, hshard⟩ := exists_ofNat_of_nonneg h.1
  obtain ⟨r, hr, rfl, hrealm⟩ := exists_ofNat_of_nonneg h.2.1
  obtain ⟨a, ha, rfl, haccount⟩ := exists_ofNat_of_nonneg h.2.2
  rw [chars_eq, hshard, hrealm, haccount, Text.integer_natCast, Text.integer_natCast,
    Text.integer_natCast]
  exact .mk (Text.numeral_digits s) (Text.numeral_digits r) (Text.numeral_digits a) ⟨hs, hr, ha⟩

/-- **So it is read back from its text.** -/
theorem parse_text {id : AccountId} (h : id.Proper) : parse id.text = .ok id := by
  rw [parse_eq_ok_iff, text, String.toList_ofList]
  exact h.written

/-- Nor has what an identifier is written as, proper or not. -/
theorem notMem_chars (id : AccountId) : '@' ∉ id.chars := by
  have hat : ∀ x : Int64, '@' ∉ Text.integer x.toInt := fun x =>
    Text.notMem_integer (by decide) (by decide) _
  rw [chars_eq]
  simp only [List.mem_append, List.mem_cons, not_or]
  exact ⟨hat _, by decide, hat _, by decide, hat _⟩

/-- **Different account identifiers have different texts.** -/
theorem chars_inj {id id' : AccountId} (h : id.chars = id'.chars) : id = id' := by
  have hdot : ∀ x : Int64, '.' ∉ Text.integer x.toInt := fun x =>
    Text.notMem_integer (by decide) (by decide) _
  rw [chars_eq, chars_eq] at h
  obtain ⟨hshard, h⟩ := Text.append_sep_inj (hdot _) (hdot _) h
  obtain ⟨hrealm, haccount⟩ := Text.append_sep_inj (hdot _) (hdot _) h
  obtain ⟨shard, realm, account⟩ := id
  obtain ⟨shard', realm', account'⟩ := id'
  obtain rfl := Int64.toInt_inj.mp (Text.integer_inj hshard)
  obtain rfl := Int64.toInt_inj.mp (Text.integer_inj hrealm)
  obtain rfl := Int64.toInt_inj.mp (Text.integer_inj haccount)
  rfl

end AccountId

/-! ## 4. Moments -/

namespace Timestamp

/-- **The texts of a moment**: a numeral within a signed word for the seconds, a dot, and a numeral of nine
digits at the most, which counts nanoseconds. -/
inductive Written : List Char → Timestamp → Prop
  | mk {s n : List Char} {seconds nanos : Nat}
    (whole : Text.Numeral s seconds) (fits : seconds < 2 ^ 63)
    (rest : Text.Numeral n nanos) (short : n.length ≤ 9) :
    Written (s ++ '.' :: n) ⟨Int64.ofNat seconds, Int32.ofNat nanos⟩

/-- **What is read as a moment** is one of its texts. -/
theorem ofChars?_eq_some_iff {cs : List Char} {t : Timestamp} : ofChars? cs = some t ↔ Written cs t := by
  simp only [ofChars?, bind, Option.bind_eq_some_iff, Prod.exists, Text.cut_eq_some_iff,
    Text.number?_eq_some_iff]
  constructor
  · rintro ⟨s, n, ⟨-, rfl⟩, seconds, hs, nanos, hn, h⟩
    split at h
    · rename_i hfits
      obtain rfl := Option.some.inj h
      exact .mk hs hfits.2 hn hfits.1
    · cases h
  · rintro ⟨hs, hfits, hn, hshort⟩
    exact ⟨_, _, ⟨hs.notMem (by decide), rfl⟩, _, hs, _, hn, if_pos ⟨hshort, hfits⟩⟩

/-- **A regular moment**: at or after the epoch, its nanoseconds below a second. -/
structure Regular (t : Timestamp) : Prop where
  seconds : 0 ≤ t.seconds
  nanos : 0 ≤ t.nanos
  nanos_lt : t.nanos < 1000000000

/-- What is read is regular. -/
theorem Written.regular {cs : List Char} {t : Timestamp} (h : Written cs t) : t.Regular := by
  obtain ⟨-, hseconds, hn, hshort⟩ := h
  rename_i seconds nanos
  have hlt : nanos < 10 ^ 9 :=
    Nat.lt_of_lt_of_le hn.lt_pow (Nat.pow_le_pow_right (by decide) hshort)
  have hvalue : (Int32.ofNat nanos).toInt = nanos := Int32.toInt_ofNat_of_lt (by omega)
  refine ⟨?_, ?_, ?_⟩
  · rw [Int64.le_iff_toInt_le, Int64.toInt_ofNat_of_lt hseconds]
    exact Int.natCast_nonneg seconds
  · rw [Int32.le_iff_toInt_le, hvalue]
    exact Int.natCast_nonneg nanos
  · have hsecond : (1000000000 : Int32).toInt = 1000000000 := rfl
    rw [Int32.lt_iff_toInt_lt, hvalue, hsecond]
    omega

/-- **A regular moment is written as one of its texts.** -/
theorem Regular.written {t : Timestamp} (h : t.Regular) : Written t.chars t := by
  obtain ⟨seconds, nanos⟩ := t
  obtain ⟨s, hs, rfl, hseconds⟩ := exists_ofNat_of_nonneg h.seconds
  have hnonneg : 0 ≤ nanos.toInt := Int32.le_iff_toInt_le.mp h.nanos
  have hlt : nanos.toInt < 1000000000 := Int32.lt_iff_toInt_lt.mp h.nanos_lt
  obtain ⟨n, hn⟩ := Int.eq_ofNat_of_zero_le hnonneg
  have hfits : n < 10 ^ 9 := by omega
  have hnanos : nanos = Int32.ofNat n := by
    rw [← Int32.toInt_inj, Int32.toInt_ofNat_of_lt (by omega)]
    exact hn
  have hchars : chars ⟨Int64.ofNat s, nanos⟩ = Text.digits s ++ '.' :: Text.paddedDigits 9 n := by
    rw [chars, hseconds, hn, Text.integer_natCast, Text.paddedInteger_natCast]
  rw [hchars, hnanos]
  exact .mk (Text.numeral_digits s) hs (Text.numeral_paddedDigits 9 n)
    (Nat.le_of_eq (Text.length_paddedDigits (by decide) hfits))

/-- **Different moments have different texts.** -/
theorem chars_inj {t t' : Timestamp} (h : t.chars = t'.chars) : t = t' := by
  have hdot : ∀ x : Int64, '.' ∉ Text.integer x.toInt := fun x =>
    Text.notMem_integer (by decide) (by decide) _
  obtain ⟨hseconds, hnanos⟩ := Text.append_sep_inj (hdot _) (hdot _) h
  obtain ⟨seconds, nanos⟩ := t
  obtain ⟨seconds', nanos'⟩ := t'
  obtain rfl := Int64.toInt_inj.mp (Text.integer_inj hseconds)
  obtain rfl := Int32.toInt_inj.mp (Text.paddedInteger_inj hnanos)
  rfl

end Timestamp

/-! ## 5. Transaction identifiers -/

namespace TransactionId

/-- **The texts of a transaction identifier**: one of the account, an at sign, one of the start. -/
inductive Written : List Char → TransactionId → Prop
  | mk {p s : List Char} {payer : AccountId} {start : Timestamp}
    (payers : AccountId.Written p payer) (starts : Timestamp.Written s start) :
    Written (p ++ '@' :: s) ⟨payer, start⟩

/-- **What is read as a transaction identifier** is one of its texts. -/
theorem ofChars?_eq_some_iff {cs : List Char} {id : TransactionId} :
    ofChars? cs = some id ↔ Written cs id := by
  simp only [ofChars?, bind, Option.bind_eq_some_iff, Prod.exists, Text.cut_eq_some_iff,
    AccountId.ofChars?_eq_some_iff, Timestamp.ofChars?_eq_some_iff]
  constructor
  · rintro ⟨p, s, ⟨-, rfl⟩, payer, hpayer, start, hstart, h⟩
    obtain rfl := Option.some.inj h
    exact .mk hpayer hstart
  · rintro ⟨hpayer, hstart⟩
    exact ⟨_, _, ⟨hpayer.notMem_at, rfl⟩, _, hpayer, _, hstart, rfl⟩

theorem parse_eq_ok_iff {s : String} {id : TransactionId} : parse s = .ok id ↔ Written s.toList id := by
  rw [parse, ← ofChars?_eq_some_iff]
  cases ofChars? s.toList <;> simp

/-- What is read has a proper account and a regular start. -/
theorem Written.regular {cs : List Char} {id : TransactionId} (h : Written cs id) :
    id.accountId.Proper ∧ id.validStart.Regular := by
  obtain ⟨hpayer, hstart⟩ := h
  exact ⟨hpayer.proper, hstart.regular⟩

/-- **An identifier of a proper account and a regular moment is read back from its text.** -/
theorem parse_text {id : TransactionId} (hpayer : id.accountId.Proper)
    (hstart : id.validStart.Regular) : parse id.text = .ok id := by
  rw [parse_eq_ok_iff, text, String.toList_ofList]
  exact .mk hpayer.written hstart.written

/-- **Different transaction identifiers have different texts.** -/
theorem chars_inj {id id' : TransactionId} (h : id.chars = id'.chars) : id = id' := by
  obtain ⟨hpayer, hstart⟩ :=
    Text.append_sep_inj id.accountId.notMem_chars id'.accountId.notMem_chars h
  obtain ⟨payer, start⟩ := id
  obtain ⟨payer', start'⟩ := id'
  obtain rfl := AccountId.chars_inj hpayer
  obtain rfl := Timestamp.chars_inj hstart
  rfl

end TransactionId

/-! ## 6. Reading and writing -/

/-- **The texts of identifiers.**  A text is read as an account identifier exactly if it is three numerals
within a signed word with single dots between them, and as a transaction identifier exactly if it is such a
text, an at sign, and seconds and nanoseconds with a dot between them; it is read as what the numerals
write.  Any other text is refused as a whole.

An account identifier that is proper is read back from the text that it is written as, and so is a
transaction identifier of a proper account and a regular moment.  What was read is written as a text that is
read as the same again.  Different identifiers have different texts.

The work is in the two `parse_eq_ok_iff`: no separator is part of a numeral, so a text is cut in one way. -/
theorem identifier_texts :
    (∀ s id, AccountId.parse s = .ok id ↔ AccountId.Written s.toList id)
    ∧ (∀ s id, TransactionId.parse s = .ok id ↔ TransactionId.Written s.toList id)
    ∧ (∀ s e, AccountId.parse s = .error e → e = ⟨.accountId, s⟩)
    ∧ (∀ s e, TransactionId.parse s = .error e → e = ⟨.transactionId, s⟩)
    ∧ (∀ id : AccountId, id.Proper → AccountId.parse id.text = .ok id)
    ∧ (∀ id : TransactionId, id.accountId.Proper → id.validStart.Regular →
        TransactionId.parse id.text = .ok id)
    ∧ (∀ s id, AccountId.parse s = .ok id → AccountId.parse id.text = .ok id)
    ∧ (∀ s id, TransactionId.parse s = .ok id → TransactionId.parse id.text = .ok id)
    ∧ (∀ id id' : AccountId, id.text = id'.text → id = id')
    ∧ ∀ id id' : TransactionId, id.text = id'.text → id = id' := by
  refine ⟨fun s id => AccountId.parse_eq_ok_iff, fun s id => TransactionId.parse_eq_ok_iff,
    fun s e h => ?_, fun s e h => ?_, fun id => AccountId.parse_text,
    fun id => TransactionId.parse_text, fun s id h => ?_, fun s id h => ?_, fun id id' h => ?_,
    fun id id' h => ?_⟩
  · unfold AccountId.parse at h
    split at h <;> cases h
    rfl
  · unfold TransactionId.parse at h
    split at h <;> cases h
    rfl
  · exact AccountId.parse_text (AccountId.parse_eq_ok_iff.mp h).proper
  · obtain ⟨hpayer, hstart⟩ := (TransactionId.parse_eq_ok_iff.mp h).regular
    exact TransactionId.parse_text hpayer hstart
  · exact AccountId.chars_inj (String.ofList_injective h)
  · exact TransactionId.chars_inj (String.ofList_injective h)

/-- The longest identifier is read back, and so is one that was written with idle zeros and with few
places, though not as it was written. -/
theorem identifier_texts_longest :
    let longest : TransactionId := ⟨⟨0, 9223372036854775807, 9223372036854775807⟩,
      ⟨9223372036854775807, 999999999⟩⟩
    let short : TransactionId := ⟨⟨7, 0, 2⟩, ⟨17, 5⟩⟩
    (longest.accountId.Proper ∧ longest.validStart.Regular
        ∧ TransactionId.parse "007.0.2@017.5" = .ok short)
      ∧ TransactionId.parse longest.text = .ok longest
      ∧ AccountId.parse longest.accountId.text = .ok longest.accountId
      ∧ short.text = "7.0.2@17.000000005" ∧ TransactionId.parse short.text = .ok short := by
  intro longest short
  obtain ⟨-, -, -, -, haccount, htransaction, -, hagain, -⟩ := identifier_texts
  have hproper : longest.accountId.Proper := by decide
  have hregular : longest.validStart.Regular := ⟨by decide, by decide, by decide⟩
  have hshort : TransactionId.parse "007.0.2@017.5" = .ok short := by decide +kernel
  exact ⟨⟨hproper, hregular, hshort⟩, htransaction longest hproper hregular,
    haccount longest.accountId hproper, by decide +kernel, hagain _ short hshort⟩

end ShardLedger
