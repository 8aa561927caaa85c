import ShardLedger.Proofs.JsonGrammar
/-
The reader of JSON texts reads the grammar.

What the reader takes off the front of a text is a text of the value that it gives; and from whatever
begins with a text of a value it takes this text off, unless what follows goes on with a number.  Each is
shown for values, items and members together, by induction on the bound of the reader, which a text never
uses up.
-/

set_option autoImplicit false

namespace ShardLedger

namespace Json

namespace Raw

open Grammar

/-! ## 1. Blanks, and how values begin -/

section Blanks

variable {b w cs rest : List Char}

theorem skipBlanks_append (h : Blanks b) (cs : List Char) : skipBlanks (b ++ cs) = skipBlanks cs :=
  List.dropWhile_append_of_pos h

/-- What is skipped are blanks. -/
theorem exists_blanks (cs : List Char) : ∃ b, Blanks b ∧ cs = b ++ skipBlanks cs :=
  ⟨cs.takeWhile isBlank, fun _ hc => List.mem_takeWhile_imp hc, List.takeWhile_append_dropWhile.symm⟩

/-- A blank or a closing bracket does not begin a value. -/
def isOpening (c : Char) : Bool :=
  !(isBlank c || c = ']' || c = '\x7d')

theorem isOpening_of_isDigit {c : Char} (h : c.isDigit = true) : isOpening c = true := by
  have hne : ∀ d : Char, d.isDigit = false → c ≠ d := by
    rintro d hd rfl
    rw [hd] at h
    cases h
  simp [isOpening, isBlank, hne _ (show ' '.isDigit = false from rfl),
    hne _ (show '\n'.isDigit = false from rfl), hne _ (show '\t'.isDigit = false from rfl),
    hne _ (show '\r'.isDigit = false from rfl), hne _ (show ']'.isDigit = false from rfl),
    hne _ (show '\x7d'.isDigit = false from rfl)]

/-- Nothing is skipped where no blank stands. -/
theorem skipBlanks_of_not_isBlank {c : Char} (h : isBlank c = false) (cs : List Char) :
    skipBlanks (c :: cs) = c :: cs := by
  rw [skipBlanks, List.dropWhile_cons_of_neg (by simp [h])]

theorem isBlank_of_isOpening {c : Char} (h : isOpening c = true) : isBlank c = false := by
  simp only [isOpening, Bool.not_eq_true', Bool.or_eq_false_iff] at h
  exact h.1.1

/-- Blanks are skipped up to what is no blank. -/
theorem skipBlanks_blanks (h : Blanks b) {c : Char} (hc : isBlank c = false) (cs : List Char) :
    skipBlanks (b ++ c :: cs) = c :: cs := by
  rw [skipBlanks_append h, skipBlanks_of_not_isBlank hc]

/-- The text of a number begins with a digit or a minus sign. -/
theorem numberText_head {l : Literal} (h : NumberText l w) :
    ∃ c cs, w = c :: cs ∧ (c.isDigit = true ∨ c = '-') := by
  cases h with
  | @mk whole fraction exponent fs es negative digits =>
    cases negative with
    | true => exact ⟨'-', _, rfl, .inr rfl⟩
    | false =>
      obtain ⟨d, ds, rfl⟩ := List.exists_cons_of_ne_nil digits.nonempty
      exact ⟨d, _, rfl, .inl (digits.isDigit d List.mem_cons_self)⟩

/-- The text of a value begins as no blank and no closing bracket does. -/
theorem valueText_head {v : Raw} (h : ValueText v w) :
    ∃ c cs, w = c :: cs ∧ isOpening c = true := by
  cases h with
  | number text =>
    obtain ⟨c, cs, hw, hc⟩ := numberText_head text
    refine ⟨c, cs, hw, ?_⟩
    rcases hc with hc | rfl
    · exact isOpening_of_isDigit hc
    · rfl
  | null | true | false | string | emptyArray | array | emptyObject | object => exact ⟨_, _, rfl, rfl⟩

/-- Items begin with a value, behind blanks that may be left out. -/
theorem itemsText_head {vs : List Raw} (h : ItemsText vs w) :
    ∃ b c cs, Blanks b ∧ isOpening c = true ∧ w = b ++ c :: cs ∧ ItemsText vs (c :: cs) := by
  cases h with
  | single before value after =>
    obtain ⟨c, cs, rfl, hc⟩ := valueText_head value
    exact ⟨_, c, _, before, hc, rfl, .single blanks_nil value after⟩
  | cons before value after rest =>
    obtain ⟨c, cs, rfl, hc⟩ := valueText_head value
    exact ⟨_, c, _, before, hc, rfl, .cons blanks_nil value after rest⟩

/-- Members begin with a quote, behind blanks that may be left out. -/
theorem membersText_head {ms : List (Option String × Raw)} (h : MembersText ms w) :
    ∃ b cs, Blanks b ∧ w = b ++ '"' :: cs ∧ MembersText ms ('"' :: cs) := by
  cases h with
  | single before name front back value after =>
    exact ⟨_, _, before, rfl, .single blanks_nil name front back value after⟩
  | cons before name front back value after rest =>
    exact ⟨_, _, before, rfl, .cons blanks_nil name front back value after rest⟩

/-- What follows a value inside a text goes on with no number. -/
theorem endsNumber_cons {c : Char} (h : c = ',' ∨ c = ']' ∨ c = '\x7d') (cs : List Char) :
    EndsNumber (c :: cs) := by
  rintro _ ⟨⟩
  obtain rfl | rfl | rfl := h <;> exact ⟨rfl, by decide, by decide, by decide⟩

/-- A blank ends a number. -/
theorem endsNumber_blanks (hb : Blanks b) (h : EndsNumber rest) : EndsNumber (b ++ rest) := by
  cases b with
  | nil => exact h
  | cons c b =>
    have hc := hb c List.mem_cons_self
    simp only [isBlank, Bool.or_eq_true, decide_eq_true_eq] at hc
    rintro _ ⟨⟩
    rcases hc with ((rfl | rfl) | rfl) | rfl <;> exact ⟨rfl, by decide, by decide, by decide⟩

end Blanks

/-! ## 2. What is read is spelled so -/

section Sound

variable {cs rest : List Char}

/-- A word that is read is spelled. -/
theorem eq_of_afterWord? {word : List Char} (h : afterWord? word cs = some rest) : cs = word ++ rest := by
  induction word generalizing cs with
  | nil => exact Option.some.inj h
  | cons c word ih =>
    cases cs with
    | nil => cases h
    | cons d cs =>
      rw [afterWord?] at h
      split at h
      · rename_i hc
        rw [hc, ih h]
        rfl
      · cases h

theorem eq_of_ofWord {v value : Raw} {word : String} (h : ofWord value word cs = (v, some rest)) :
    v = value ∧ cs = word.toList ++ rest := by
  unfold ofWord at h
  split at h
  · rename_i hword
    obtain ⟨rfl, hrest⟩ := Prod.mk.inj h
    obtain rfl := Option.some.inj hrest
    exact ⟨rfl, eq_of_afterWord? hword⟩
  · cases (Prod.mk.inj h).2

/-- Skip what was taken for blanks: what is read behind them is read. -/
theorem exists_text_of_skipBlanks {v : Raw} (h : ∃ w, ValueText v w ∧ skipBlanks cs = w ++ rest) :
    ∃ b w, Blanks b ∧ ValueText v w ∧ cs = b ++ (w ++ rest) := by
  obtain ⟨b, hb, hcs⟩ := exists_blanks cs
  obtain ⟨w, hw, hskip⟩ := h
  exact ⟨b, w, hb, hw, hskip ▸ hcs⟩

/-- **What a reader with this bound reads is spelled so**: values, items and members. -/
structure Spelled (bound : Nat) : Prop where
  value {cs rest : List Char} {v : Raw} (read : readValue bound cs = (v, some rest)) :
    ∃ b w, Blanks b ∧ ValueText v w ∧ cs = b ++ (w ++ rest)
  items {cs rest : List Char} {vs : List Raw} (read : readItems bound cs = (vs, some rest)) :
    ∃ w, ItemsText vs w ∧ cs = w ++ ']' :: rest
  members {cs rest : List Char} {ms : List (Option String × Raw)}
    (read : readMembers bound cs = (ms, some rest)) :
    ∃ w, MembersText ms w ∧ cs = w ++ '\x7d' :: rest

section Step

variable {bound : Nat}

/-- An array that is read behind its bracket is spelled so. -/
theorem Spelled.array (ih : Spelled bound) {v : Raw}
    (h : (match skipBlanks cs with
        | ']' :: rest => (.array [], some rest)
        | cs => (.array (readItems bound cs).1, (readItems bound cs).2)) = (v, some rest)) :
    ∃ w, ValueText v w ∧ '[' :: cs = w ++ rest := by
  obtain ⟨b, hb, hcs⟩ := exists_blanks cs
  split at h
  · rename_i hclosed
    obtain ⟨rfl, hrest⟩ := Prod.mk.inj h
    obtain rfl := Option.some.inj hrest
    rw [hclosed] at hcs
    exact ⟨_, .emptyArray hb, by rw [hcs, List.cons_append, List.append_assoc]; rfl⟩
  · obtain ⟨rfl, hread⟩ := Prod.mk.inj h
    obtain ⟨w, hw, hskip⟩ := ih.items (Prod.ext rfl hread)
    rw [hskip, ← List.append_assoc] at hcs
    exact ⟨_, .array (hw.blanks hb), by rw [hcs, List.cons_append, List.append_assoc _ [']']]; rfl⟩

/-- An object that is read behind its brace is spelled so. -/
theorem Spelled.object (ih : Spelled bound) {v : Raw}
    (h : (match skipBlanks cs with
        | '\x7d' :: rest => (.object [], some rest)
        | cs => (.object (readMembers bound cs).1, (readMembers bound cs).2)) = (v, some rest)) :
    ∃ w, ValueText v w ∧ '\x7b' :: cs = w ++ rest := by
  obtain ⟨b, hb, hcs⟩ := exists_blanks cs
  split at h
  · rename_i hclosed
    obtain ⟨rfl, hrest⟩ := Prod.mk.inj h
    obtain rfl := Option.some.inj hrest
    rw [hclosed] at hcs
    exact ⟨_, .emptyObject hb, by rw [hcs, List.cons_append, List.append_assoc]; rfl⟩
  · obtain ⟨rfl, hread⟩ := Prod.mk.inj h
    obtain ⟨w, hw, hskip⟩ := ih.members (Prod.ext rfl hread)
    rw [hskip, ← List.append_assoc] at hcs
    exact ⟨_, .object (hw.blanks hb), by
      rw [hcs, List.cons_append, List.append_assoc _ ['\x7d']]; rfl⟩

/-- A value that is read is spelled so, if what is read inside it is. -/
theorem Spelled.succ_value (ih : Spelled bound) {v : Raw}
    (h : readValue (bound + 1) cs = (v, some rest)) :
    ∃ b w, Blanks b ∧ ValueText v w ∧ cs = b ++ (w ++ rest) := by
  apply exists_text_of_skipBlanks
  rw [readValue] at h
  -- The first character decides what is read.
  split at h
  case h_1 => cases h
  case h_2 heq =>
    obtain ⟨rfl, rfl⟩ := eq_of_ofWord h
    exact ⟨_, .null, heq⟩
  case h_3 heq =>
    obtain ⟨rfl, rfl⟩ := eq_of_ofWord h
    exact ⟨_, .true, heq⟩
  case h_4 heq =>
    obtain ⟨rfl, rfl⟩ := eq_of_ofWord h
    exact ⟨_, .false, heq⟩
  case h_5 heq =>
    split at h
    · rename_i hscan
      obtain ⟨rfl, hrest⟩ := Prod.mk.inj h
      obtain rfl := Option.some.inj hrest
      obtain ⟨ps, w, hw, rfl, rfl⟩ := scanString_eq_some_iff.mp hscan
      exact ⟨_, .string hw, by rw [heq, List.cons_append, List.append_assoc]; rfl⟩
    · cases h
  case h_6 heq => exact heq ▸ ih.array h
  case h_7 heq => exact heq ▸ ih.object h
  case h_8 =>
    split at h
    · rename_i hscan
      obtain ⟨rfl, hrest⟩ := Prod.mk.inj h
      obtain rfl := Option.some.inj hrest
      obtain ⟨w, hw, heq⟩ := numberText_of_scan hscan
      exact ⟨w, .number hw, heq⟩
    · cases h

/-- Items that are read are spelled so. -/
theorem Spelled.succ_items (ih : Spelled bound) {vs : List Raw}
    (h : readItems (bound + 1) cs = (vs, some rest)) :
    ∃ w, ItemsText vs w ∧ cs = w ++ ']' :: rest := by
  rw [readItems] at h
  split at h
  · cases h
  · rename_i v behind hvalue
    obtain ⟨b, w, hb, hw, rfl⟩ := ih.value hvalue
    obtain ⟨b', hb', hbehind⟩ := exists_blanks behind
    -- Behind the item and its blanks stands the bracket that closes, or a comma and more items.
    split at h
    · rename_i hclosed
      obtain ⟨rfl, hrest⟩ := Prod.mk.inj h
      obtain rfl := Option.some.inj hrest
      rw [hclosed] at hbehind
      exact ⟨_, .single hb hw hb', by simp only [hbehind, List.append_assoc]⟩
    · rename_i hcomma
      obtain ⟨rfl, hread⟩ := Prod.mk.inj h
      obtain ⟨w', hw', rfl⟩ := ih.items (Prod.ext rfl hread)
      rw [hcomma] at hbehind
      exact ⟨_, .cons hb hw hb' hw', by simp only [hbehind, List.append_assoc, List.cons_append]⟩
    · cases h

/-- Members that are read are spelled so. -/
theorem Spelled.succ_members (ih : Spelled bound) {ms : List (Option String × Raw)}
    (h : readMembers (bound + 1) cs = (ms, some rest)) :
    ∃ w, MembersText ms w ∧ cs = w ++ '\x7d' :: rest := by
  obtain ⟨b, hb, hcs⟩ := exists_blanks cs
  rw [readMembers] at h
  split at h
  case h_2 => cases h
  rename_i hquote
  rw [hquote] at hcs
  split at h
  · cases h
  rename_i behindName hscan
  obtain ⟨ps, ns, hns, rfl, rfl⟩ := scanString_eq_some_iff.mp hscan
  obtain ⟨b₁, hb₁, hname⟩ := exists_blanks behindName
  split at h
  case h_2 => cases h
  rename_i hcolon
  rw [hcolon] at hname
  split at h
  · cases h
  rename_i v behind hvalue
  obtain ⟨b₂, w, hb₂, hw, rfl⟩ := ih.value hvalue
  obtain ⟨b', hb', hbehind⟩ := exists_blanks behind
  split at h
  · rename_i hclosed
    obtain ⟨rfl, hrest⟩ := Prod.mk.inj h
    obtain rfl := Option.some.inj hrest
    rw [hclosed] at hbehind
    exact ⟨_, .single hb hns hb₁ hb₂ hw hb', by
      simp only [hcs, hname, hbehind, List.append_assoc, List.cons_append]⟩
  · rename_i hcomma
    obtain ⟨rfl, hread⟩ := Prod.mk.inj h
    obtain ⟨w', hw', rfl⟩ := ih.members (Prod.ext rfl hread)
    rw [hcomma] at hbehind
    exact ⟨_, .cons hb hns hb₁ hb₂ hw hb' hw', by
      simp only [hcs, hname, hbehind, List.append_assoc, List.cons_append]⟩
  · cases h

end Step

/-- **Whatever is read is spelled so.** -/
theorem spelled (bound : Nat) : Spelled bound := by
  induction bound with
  | zero => exact ⟨nofun, nofun, nofun⟩
  | succ bound ih => exact ⟨ih.succ_value, ih.succ_items, ih.succ_members⟩

end Sound

/-! ## 3. What is spelled is read so -/

section Complete

variable {b cs rest : List Char} {bound : Nat}

theorem afterWord?_append (w rest : List Char) : afterWord? w (w ++ rest) = some rest := by
  induction w with
  | nil => rfl
  | cons c w ih => rw [List.cons_append, afterWord?, if_pos rfl, ih]

theorem ofWord_append (v : Raw) (word : String) (rest : List Char) :
    ofWord v word (word.toList ++ rest) = (v, some rest) := by
  rw [ofWord, afterWord?_append]

/-- Blanks before a value are skipped. -/
theorem readValue_blanks (hb : Blanks b) (cs : List Char) :
    readValue bound (b ++ cs) = readValue bound cs := by
  cases bound with
  | zero => rfl
  | succ bound => rw [readValue, readValue, skipBlanks_append hb]

/-- What begins as a number is read as one. -/
theorem readValue_number {c : Char} (hc : c.isDigit = true ∨ c = '-') :
    readValue (bound + 1) (c :: cs) = match scanNumber (c :: cs) with
      | some (l, rest) => (.number l.number?, some rest)
      | none => (.broken, none) := by
  have hopening : isOpening c = true := by
    obtain hc | rfl := hc
    · exact isOpening_of_isDigit hc
    · rfl
  rw [readValue, skipBlanks_of_not_isBlank (isBlank_of_isOpening hopening)]
  split
  case h_1 h => cases h
  case h_8 => rfl
  -- No other value begins with a digit or a minus sign.
  all_goals
    rename_i h
    obtain ⟨rfl, -⟩ := List.cons.inj h
    simp at hc

/-- Behind an opening bracket the items are read, unless it is closed at once. -/
theorem readValue_array {c : Char} (h : isOpening c = true) :
    readValue (bound + 1) ('[' :: c :: cs)
      = (.array (readItems bound (c :: cs)).1, (readItems bound (c :: cs)).2) := by
  simp only [readValue, skipBlanks_of_not_isBlank (c := '[') rfl,
    skipBlanks_of_not_isBlank (isBlank_of_isOpening h)]
  split
  · rename_i heq
    obtain ⟨rfl, -⟩ := List.cons.inj heq
    cases h
  · rfl

/-- Behind an opening brace the members are read, unless it is closed at once. -/
theorem readValue_object {c : Char} (h : isOpening c = true) :
    readValue (bound + 1) ('\x7b' :: c :: cs)
      = (.object (readMembers bound (c :: cs)).1, (readMembers bound (c :: cs)).2) := by
  simp only [readValue, skipBlanks_of_not_isBlank (c := '\x7b') rfl,
    skipBlanks_of_not_isBlank (isBlank_of_isOpening h)]
  split
  · rename_i heq
    obtain ⟨rfl, -⟩ := List.cons.inj heq
    cases h
  · rfl

/-- Blanks behind an opening bracket or brace are skipped. -/
theorem readValue_inner_blanks {c : Char} (hc : c = '[' ∨ c = '\x7b') (hb : Blanks b)
    (cs : List Char) : readValue bound (c :: (b ++ cs)) = readValue bound (c :: cs) := by
  cases bound with
  | zero => rfl
  | succ bound =>
    rcases hc with rfl | rfl
    · simp only [readValue, skipBlanks_of_not_isBlank (c := '[') rfl, skipBlanks_append hb]
    · simp only [readValue, skipBlanks_of_not_isBlank (c := '\x7b') rfl, skipBlanks_append hb]

/-- **What is spelled is read so** by a reader with this bound, if the bound exceeds the text. -/
structure Reads (bound : Nat) : Prop where
  value {v : Raw} {w rest : List Char} (text : ValueText v w) (enough : w.length ≤ bound)
    (ends : EndsNumber rest) : readValue bound (w ++ rest) = (v, some rest)
  items {vs : List Raw} {w : List Char} (text : ItemsText vs w) (enough : w.length < bound)
    (rest : List Char) : readItems bound (w ++ ']' :: rest) = (vs, some rest)
  members {ms : List (Option String × Raw)} {w : List Char} (text : MembersText ms w)
    (enough : w.length < bound) (rest : List Char) :
    readMembers bound (w ++ '\x7d' :: rest) = (ms, some rest)

section Step

variable {w : List Char}

theorem Reads.succ_value (ih : Reads bound) {v : Raw} (h : ValueText v w)
    (hbound : w.length ≤ bound + 1) (hrest : EndsNumber rest) :
    readValue (bound + 1) (w ++ rest) = (v, some rest) := by
  cases h with
  | null => exact ofWord_append .null "ull" rest
  | true => exact ofWord_append (.bool true) "rue" rest
  | false => exact ofWord_append (.bool false) "alse" rest
  | number text =>
    have hscan := scanNumber_append text hrest
    obtain ⟨c, cs, rfl, hc⟩ := numberText_head text
    rw [List.cons_append] at hscan ⊢
    rw [readValue_number hc, hscan]
  | string text =>
    have hscan := scanString_of_text text rest
    rw [List.cons_append, List.append_assoc, readValue, skipBlanks_of_not_isBlank rfl]
    simp only [List.singleton_append, hscan]
    rfl
  | emptyArray hb =>
    rw [List.cons_append, List.append_assoc, readValue_inner_blanks (.inl rfl) hb]
    rfl
  | array items =>
    -- Blanks behind the bracket are skipped first; what is left begins as a value does.
    obtain ⟨b, c, cs, hb, hc, rfl, hitems⟩ := itemsText_head items
    simp only [List.length_cons, List.length_append, List.length_nil] at hbound
    rw [List.cons_append, List.append_assoc, List.append_assoc, readValue_inner_blanks (.inl rfl) hb]
    have hread := ih.items hitems (by simp only [List.length_cons]; omega) rest
    rw [List.cons_append] at hread ⊢
    rw [readValue_array hc]
    simp only [List.singleton_append, hread]
  | emptyObject hb =>
    rw [List.cons_append, List.append_assoc, readValue_inner_blanks (.inr rfl) hb]
    rfl
  | object members =>
    obtain ⟨b, cs, hb, rfl, hmembers⟩ := membersText_head members
    simp only [List.length_cons, List.length_append, List.length_nil] at hbound
    rw [List.cons_append, List.append_assoc, List.append_assoc, readValue_inner_blanks (.inr rfl) hb]
    have hread := ih.members hmembers (by simp only [List.length_cons]; omega) rest
    rw [List.cons_append] at hread ⊢
    rw [readValue_object rfl]
    simp only [List.singleton_append, hread]

theorem Reads.succ_items (ih : Reads bound) {vs : List Raw} (h : ItemsText vs w)
    (hbound : w.length < bound + 1) (rest : List Char) :
    readItems (bound + 1) (w ++ ']' :: rest) = (vs, some rest) := by
  cases h with
  | single before value after =>
    have hvalue := ih.value value (by simp only [List.length_append] at hbound; omega)
      (endsNumber_blanks after (endsNumber_cons (.inr (.inl rfl)) rest))
    rw [List.append_assoc, List.append_assoc, readItems, readValue_blanks before, hvalue]
    simp only [skipBlanks_blanks after (c := ']') rfl]
  | cons before value after more =>
    simp only [List.length_append, List.length_cons] at hbound
    have hvalue := fun rest => ih.value value (by omega)
      (endsNumber_blanks after (endsNumber_cons (.inl rfl) rest))
    -- The item and its comma take something of the bound, and what is left is enough for the others.
    have hmore := ih.items more (by omega) rest
    simp only [List.append_assoc, List.cons_append]
    rw [readItems, readValue_blanks before, hvalue]
    simp only [skipBlanks_blanks after (c := ',') rfl, hmore]

theorem Reads.succ_members (ih : Reads bound) {ms : List (Option String × Raw)}
    (h : MembersText ms w) (hbound : w.length < bound + 1) (rest : List Char) :
    readMembers (bound + 1) (w ++ '\x7d' :: rest) = (ms, some rest) := by
  cases h with
  | single before name front back value after =>
    simp only [List.length_append, List.length_cons] at hbound
    have hvalue := ih.value value (by omega)
      (endsNumber_blanks after (endsNumber_cons (.inr (.inr rfl)) rest))
    have hscan := scanString_of_text name
    simp only [List.append_assoc, List.cons_append]
    rw [readMembers, skipBlanks_blanks before rfl]
    simp only [hscan, skipBlanks_blanks front (c := ':') rfl, readValue_blanks back, hvalue,
      skipBlanks_blanks after (c := '\x7d') rfl]
    rfl
  | cons before name front back value after more =>
    simp only [List.length_append, List.length_cons] at hbound
    have hvalue := fun rest => ih.value value (by omega)
      (endsNumber_blanks after (endsNumber_cons (.inl rfl) rest))
    have hscan := scanString_of_text name
    have hmore := ih.members more (by omega) rest
    simp only [List.append_assoc, List.cons_append]
    rw [readMembers, skipBlanks_blanks before rfl]
    simp only [hscan, skipBlanks_blanks front (c := ':') rfl, readValue_blanks back, hvalue,
      skipBlanks_blanks after (c := ',') rfl, hmore]
    rfl

end Step

/-- **Whatever is spelled is read so.** -/
theorem reads (bound : Nat) : Reads bound := by
  induction bound with
  | zero =>
    refine ⟨?_, nofun, nofun⟩
    intro v w rest text enough
    obtain ⟨c, cs, rfl, -⟩ := valueText_head text
    exact absurd enough (Nat.not_succ_le_zero _)
  | succ bound ih => exact ⟨ih.succ_value, ih.succ_items, ih.succ_members⟩

/-- **The reader reads the texts of the grammar**, each as the value that it spells, and no others. -/
theorem ofChars_eq_iff {v : Raw} : ofChars cs = (v, true) ↔ Text v cs := by
  constructor
  · intro h
    unfold ofChars at h
    split at h
    · rename_i rest hread
      obtain ⟨rfl, hempty⟩ := Prod.mk.inj h
      obtain ⟨b, w, hb, hw, rfl⟩ := (spelled _).value hread
      obtain ⟨b', hb', hrest⟩ := exists_blanks rest
      rw [List.isEmpty_iff.mp hempty, List.append_nil] at hrest
      exact ⟨b, w, b', hb, hw, hb', hrest ▸ rfl⟩
    · cases (Prod.mk.inj h).2
  · rintro ⟨b, w, b', hb, hw, hb', rfl⟩
    have hends : EndsNumber (b' ++ []) := endsNumber_blanks hb' nofun
    rw [List.append_nil] at hends
    have hread := (reads (2 * (b ++ (w ++ b')).length + 2)).value hw
      (by simp only [List.length_append]; omega) hends
    have hskip : skipBlanks b' = [] := List.append_nil b' ▸ skipBlanks_append hb' []
    rw [ofChars, readValue_blanks hb, hread]
    simp only [hskip, List.isEmpty_nil]

end Complete

end Raw

end Json

end ShardLedger
