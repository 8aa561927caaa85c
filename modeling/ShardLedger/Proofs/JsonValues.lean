import Mathlib.Data.List.Forall2
import ShardLedger.Proofs.JsonOrder
/-
The value of a JSON text.

A text of the grammar says one thing only, but not everything that it may say is taken in: a reader
refuses what nests deeper than it has room for, a number beyond the range of doubles, and half of a
surrogate pair.  What it takes in, it takes in canonical form, so of several members of one name the last
one counts.  Blanks at the end of a text say nothing.
-/

set_option autoImplicit false

namespace ShardLedger

namespace Json

namespace Raw

open Grammar

/-! ## 1. What is taken in -/

mutual

/-- **Nothing is missing inside**: no number is beyond the range of doubles, no string has half of a
surrogate pair, and nothing is broken. -/
def isEntire : Raw → Bool
  | .broken => false
  | .null | .bool _ => true
  | .number n => n.isSome
  | .string s => s.isSome
  | .array items => entireItems items
  | .object members => entireMembers members

def entireItems : List Raw → Bool
  | [] => true
  | v :: vs => isEntire v && entireItems vs

def entireMembers : List (Option String × Raw) → Bool
  | [] => true
  | (name, v) :: ms => name.isSome && isEntire v && entireMembers ms

end

/-- Two results are there together. -/
theorem isSome_pair {α β γ : Type} {a : Option α} {b : Option β} {f : α → β → γ} :
    (do return f (← a) (← b) : Option γ).isSome = (a.isSome && b.isSome) := by
  cases a <;> cases b <;> rfl

mutual

/-- **A value is taken in** if nothing is missing in it and it nests no deeper than there is room. -/
theorem isSome_toJson? : ∀ (v : Raw) (room : Nat),
    (v.toJson? room).isSome = (v.isEntire && decide (v.depth ≤ room))
  | .broken, room => by cases room <;> rfl
  | .null, room => by cases room <;> rfl
  | .bool _, room => by cases room <;> rfl
  | .number n, room => by cases room <;> cases n <;> rfl
  | .string s, room => by cases room <;> cases s <;> rfl
  | .array vs, 0 => by simp [toJson?, depth]
  | .object ms, 0 => by simp [toJson?, depth]
  | .array vs, room + 1 => by
    rw [toJson?, Option.isSome_map, isSome_toItems? vs room, isEntire, depth]
    simp only [Nat.add_le_add_iff_right]
  | .object ms, room + 1 => by
    rw [toJson?, Option.isSome_map, isSome_toMembers? ms room, isEntire, depth]
    simp only [Nat.add_le_add_iff_right]

theorem isSome_toItems? : ∀ (vs : List Raw) (room : Nat),
    (toItems? room vs).isSome = (entireItems vs && decide (depthItems vs ≤ room))
  | [], room => by simp [toItems?, entireItems, depthItems]
  | v :: vs, room => by
    rw [toItems?, isSome_pair, isSome_toJson? v room, isSome_toItems? vs room, entireItems, depthItems]
    simp only [Nat.max_le, Bool.decide_and]
    ac_rfl

theorem isSome_toMembers? : ∀ (ms : List (Option String × Raw)) (room : Nat),
    (toMembers? room ms).isSome = (entireMembers ms && decide (depthMembers ms ≤ room))
  | [], room => by simp [toMembers?, entireMembers, depthMembers]
  | (none, v) :: ms, room => rfl
  | (some name, v) :: ms, room => by
    have hpair := isSome_pair (a := v.toJson? room) (b := toMembers? room ms)
      (f := fun j js => (name, j) :: js)
    rw [isSome_toJson? v room, isSome_toMembers? ms room] at hpair
    rw [toMembers?, entireMembers, depthMembers]
    simp only [Nat.max_le, Bool.decide_and, Option.isSome_some, Bool.true_and]
    refine hpair.trans ?_
    ac_rfl

end

/-! ## 2. The form it is taken in -/

mutual

/-- **What is taken in is in canonical form.** -/
theorem canonical_of_toJson? : ∀ (v : Raw) {room : Nat} {j : Json},
    v.toJson? room = some j → j.canonical = j
  | .null, room, j, h => by
    cases room <;> cases h <;> rfl
  | .bool _, room, j, h => by
    cases room <;> cases h <;> rfl
  | .number n, room, j, h => by
    cases room <;> cases n <;> cases h <;> rfl
  | .string s, room, j, h => by
    cases room <;> cases s <;> cases h <;> rfl
  | .array vs, room + 1, j, h => by
    obtain ⟨js, hjs, rfl⟩ := Option.map_eq_some_iff.mp h
    have hitems := canonical_of_toItems? vs hjs
    rw [canonical, canonicalItems_eq, List.map_congr_left hitems, List.map_id']
  | .object ms, room + 1, j, h => by
    obtain ⟨js, hjs, rfl⟩ := Option.map_eq_some_iff.mp h
    -- Sorting has put the members in order, and each value is canonical already.
    have hmembers : ∀ m ∈ sortMembers js, (m.1, m.2.canonical) = m := fun m hm =>
      congrArg (m.1, ·) (canonical_of_toMembers? ms hjs m (mem_of_mem_sortMembers hm))
    rw [canonical, canonicalMembers_eq, List.map_congr_left hmembers, List.map_id',
      (isSorted_sortMembers js).sortMembers_eq]

theorem canonical_of_toItems? : ∀ (vs : List Raw) {room : Nat} {js : List Json},
    toItems? room vs = some js → ∀ j ∈ js, j.canonical = j
  | [], room, js, h => by
    cases h
    nofun
  | v :: vs, room, js, h => by
    obtain ⟨j, hj, h⟩ := Option.bind_eq_some_iff.mp h
    obtain ⟨js', hjs, h⟩ := Option.bind_eq_some_iff.mp h
    cases h
    exact List.forall_mem_cons.mpr ⟨canonical_of_toJson? v hj, canonical_of_toItems? vs hjs⟩

theorem canonical_of_toMembers? : ∀ (ms : List (Option String × Raw)) {room : Nat}
    {js : List (String × Json)}, toMembers? room ms = some js → ∀ m ∈ js, m.2.canonical = m.2
  | [], room, js, h => by
    cases h
    nofun
  | (some name, v) :: ms, room, js, h => by
    obtain ⟨j, hj, h⟩ := Option.bind_eq_some_iff.mp h
    obtain ⟨js', hjs, h⟩ := Option.bind_eq_some_iff.mp h
    cases h
    exact List.forall_mem_cons.mpr ⟨canonical_of_toJson? v hj, canonical_of_toMembers? ms hjs⟩

end

end Raw

/-! ## 3. Members -/

section Members

variable {name : String}

/-- What is put in its place is found there; other names are found where they were. -/
theorem find?_putMember (n : String) (value : Json) (ms : List (String × Json)) :
    ((putMember n value ms).find? fun m => m.1 = name).map Prod.snd
      = if n = name then some value else (ms.find? fun m => m.1 = name).map Prod.snd := by
  induction ms with
  | nil => by_cases h : n = name <;> simp [putMember, h]
  | cons m ms ih =>
    rw [putMember]
    split
    · by_cases h : n = name <;> simp [h]
    · split
      · rename_i heq
        by_cases h : n = name <;> simp [h, heq ▸ h]
      · rename_i hne
        rw [List.find?_cons, List.find?_cons]
        by_cases hm : m.1 = name
        · simp [hm, hm ▸ hne]
        · simp only [hm, decide_false, ih]

/-- **Of several members of one name** sorting keeps the last. -/
theorem get?_sortMembers (ms : List (String × Json)) :
    (Json.object (sortMembers ms)).get? name
      = (ms.reverse.find? fun m => m.1 = name).map Prod.snd := by
  rw [get?, sortMembers, ← List.foldr_reverse]
  induction ms.reverse with
  | nil => rfl
  | cons m ms ih =>
    rw [List.foldr_cons, find?_putMember, ih, List.find?_cons]
    by_cases h : m.1 = name <;> simp [h]

end Members

namespace Raw

/-- **The last member of a name** in the text of an object. -/
def last? (name : String) : Raw → Option Raw
  | .object ms => (ms.reverse.find? fun m => m.1 = some name).map Prod.snd
  | _ => none

/-- Members are taken in one by one. -/
theorem forall₂_of_toMembers? {ms : List (Option String × Raw)} {room : Nat}
    {js : List (String × Json)} (h : toMembers? room ms = some js) :
    List.Forall₂ (fun m p => m.1 = some p.1 ∧ m.2.toJson? room = some p.2) ms js := by
  induction ms generalizing js with
  | nil =>
    cases h
    exact .nil
  | cons m ms ih =>
    obtain ⟨name, v⟩ := m
    obtain ⟨n, hn, h⟩ := Option.bind_eq_some_iff.mp h
    obtain ⟨j, hj, h⟩ := Option.bind_eq_some_iff.mp h
    obtain ⟨js', hjs, h⟩ := Option.bind_eq_some_iff.mp h
    cases h
    exact .cons ⟨hn, hj⟩ (ih hjs)

/-- **The value of a member** is that of the last one of its name. -/
theorem get?_of_toJson? {v : Raw} {room : Nat} {j : Json} (h : v.toJson? room = some j)
    (name : String) : j.get? name = (v.last? name).bind (toJson? (room - 1)) := by
  cases v with
  | broken => cases room <;> cases h
  | null | bool => cases room <;> cases h <;> rfl
  | number n => cases room <;> cases n <;> cases h <;> rfl
  | string s => cases room <;> cases s <;> cases h <;> rfl
  | array vs =>
    cases room with
    | zero => cases h
    | succ room =>
      obtain ⟨js, -, rfl⟩ := Option.map_eq_some_iff.mp h
      rfl
  | object ms =>
    cases room with
    | zero => cases h
    | succ room =>
      obtain ⟨js, hjs, rfl⟩ := Option.map_eq_some_iff.mp h
      have hmembers := List.forall₂_reverse_iff.mpr (forall₂_of_toMembers? hjs)
      rw [get?_sortMembers, last?, Nat.add_sub_cancel]
      -- The last members of both lists are found side by side.
      generalize ms.reverse = ms', js.reverse = js' at hmembers
      induction hmembers with
      | nil => rfl
      | @cons m p ms js hm _ ih =>
        rw [List.find?_cons, List.find?_cons, hm.1]
        by_cases hname : p.1 = name
        · simp [hname, hm.2]
        · simp only [Option.some.injEq, hname, decide_false, ih]

end Raw

/-! ## 4. Blanks at the end -/

namespace Grammar

variable {v : Raw} {w cs : List Char} {c : Char}

/-- A digit is no blank. -/
theorem isBlank_of_isDigit (h : c.isDigit = true) : Raw.isBlank c = false :=
  Raw.isBlank_of_isOpening (Raw.isOpening_of_isDigit h)

/-- No blank stands in the text of a number. -/
theorem NumberText.isBlank_of_mem {l : Raw.Literal} (h : NumberText l w) (hc : c ∈ w) :
    Raw.isBlank c = false := by
  have hdigits : ∀ {ds : List Char}, Digits ds → ∀ d ∈ ds, Raw.isBlank d = false :=
    fun hds d hd => isBlank_of_isDigit (hds.isDigit d hd)
  have hmark : ∀ {e : Char}, e = 'e' ∨ e = 'E' → Raw.isBlank e = false := by
    rintro e (rfl | rfl) <;> rfl
  cases h with
  | @mk whole fraction exponent fs es negative digits _ fracted raised =>
    have hsign : ∀ d ∈ if negative then ['-'] else [], Raw.isBlank d = false := by
      cases negative <;> simp [Raw.isBlank]
    have hfraction : ∀ d ∈ fs, Raw.isBlank d = false := by
      cases fracted with
      | none => exact List.forall_mem_nil _
      | some digits => exact List.forall_mem_cons.mpr ⟨rfl, hdigits digits⟩
    have hexponent : ∀ d ∈ es, Raw.isBlank d = false := by
      cases raised with
      | none => exact List.forall_mem_nil _
      | plain mark digits => exact List.forall_mem_cons.mpr ⟨hmark mark, hdigits digits⟩
      | plus mark digits | minus mark digits =>
        exact List.forall_mem_cons.mpr
          ⟨hmark mark, List.forall_mem_cons.mpr ⟨rfl, hdigits digits⟩⟩
    simp only [List.mem_append] at hc
    rcases hc with hc | hc | hc | hc
    · exact hsign c hc
    · exact hdigits digits c hc
    · exact hfraction c hc
    · exact hexponent c hc

/-- The text of a value ends with no blank. -/
theorem isBlank_of_getLast? (h : ValueText v w) (hc : c ∈ w.getLast?) :
    Raw.isBlank c = false := by
  cases h with
  | number text => exact text.isBlank_of_mem (List.mem_of_getLast? hc)
  | null | true | false =>
    obtain rfl := Option.some.inj hc
    rfl
  | string | emptyArray | array | emptyObject | object =>
    rw [List.getLast?_cons, List.getLast?_append] at hc
    obtain rfl := Option.some.inj hc
    rfl

/-- **A blank at the end of a text** says nothing. -/
theorem text_concat_iff (hc : Raw.isBlank c = true) : Text v (cs ++ [c]) ↔ Text v cs := by
  constructor
  · rintro ⟨b, w, b', hb, hw, hb', heq⟩
    rcases List.eq_nil_or_concat b' with rfl | ⟨b'', d, rfl⟩
    -- A value ends with no blank, so the blank stands behind it.
    · have hlast := congrArg List.getLast? heq
      obtain ⟨d, ds, rfl, -⟩ := Raw.valueText_head hw
      rw [List.append_nil, List.getLast?_concat, List.getLast?_append, List.getLast?_cons] at hlast
      have hblank := isBlank_of_getLast? hw (by
        rw [List.getLast?_cons]
        exact hlast.symm)
      rw [hc] at hblank
      cases hblank
    · rw [List.concat_eq_append, ← List.append_assoc, ← List.append_assoc] at heq
      obtain ⟨rfl, -⟩ := List.append_inj' heq rfl
      refine ⟨b, w, b'', hb, hw, fun d hd => hb' d ?_, List.append_assoc _ _ _⟩
      rw [List.concat_eq_append]
      exact List.mem_append_left _ hd
  · rintro ⟨b, w, b', hb, hw, hb', rfl⟩
    refine ⟨b, w, b' ++ [c], hb, hw, Blanks.append hb' ?_, by simp only [List.append_assoc]⟩
    exact List.forall_mem_singleton.mpr hc

end Grammar

/-! ## 5. Texts -/

open Raw (maxDepth)

section Texts

variable {cs : List Char} {j : Json}

/-- **A text has one value.** -/
theorem Grammar.Text.unique {v v' : Raw} (h : Text v cs) (h' : Text v' cs) : v = v' :=
  (Prod.mk.inj ((Raw.ofChars_eq_iff.mpr h).symm.trans (Raw.ofChars_eq_iff.mpr h'))).1

/-- **What a text says** to a reader: the value that it spells, if this is taken in. -/
def Says (cs : List Char) (j : Json) : Prop :=
  ∃ v, Grammar.Text v cs ∧ v.toJson? maxDepth = some j

/-- **A text is read as what it says.** -/
theorem ofChars?_eq_some_iff : ofChars? cs = some j ↔ Says cs j := by
  unfold ofChars?
  constructor
  · intro h
    split at h
    · rename_i v hread
      exact ⟨v, Raw.ofChars_eq_iff.mp hread, h⟩
    · cases h
  · rintro ⟨v, htext, hvalue⟩
    rw [Raw.ofChars_eq_iff.mpr htext]
    exact hvalue

theorem Says.unique {j' : Json} (h : Says cs j) (h' : Says cs j') : j = j' :=
  Option.some.inj ((ofChars?_eq_some_iff.mpr h).symm.trans (ofChars?_eq_some_iff.mpr h'))

/-- **Which texts are taken in**: those of the grammar that miss nothing and nest no deeper than there is
room. -/
theorem exists_says_iff :
    (∃ j, Says cs j) ↔ ∃ v, Grammar.Text v cs ∧ v.isEntire = true ∧ v.depth ≤ maxDepth := by
  have htaken : ∀ v : Raw, (∃ j, v.toJson? maxDepth = some j)
      ↔ v.isEntire = true ∧ v.depth ≤ maxDepth := by
    intro v
    rw [← Option.isSome_iff_exists, Raw.isSome_toJson?, Bool.and_eq_true, decide_eq_true_eq]
  constructor
  · rintro ⟨j, v, htext, hvalue⟩
    exact ⟨v, htext, (htaken v).mp ⟨j, hvalue⟩⟩
  · rintro ⟨v, htext, hv⟩
    obtain ⟨j, hvalue⟩ := (htaken v).mpr hv
    exact ⟨j, v, htext, hvalue⟩

/-- **The members of what a text says** are the last ones of their names in the text. -/
theorem Says.get?_eq {v : Raw} (h : Says cs j) (htext : Grammar.Text v cs) (name : String) :
    j.get? name = (v.last? name).bind (Raw.toJson? (maxDepth - 1)) := by
  obtain ⟨v', htext', hvalue⟩ := h
  obtain rfl := htext.unique htext'
  exact Raw.get?_of_toJson? hvalue name

/-- What a text says is in canonical form. -/
theorem Says.canonical_eq (h : Says cs j) : j.canonical = j := by
  obtain ⟨v, -, hvalue⟩ := h
  exact Raw.canonical_of_toJson? v hvalue

/-- **A blank at the end of a text** is not read. -/
theorem ofChars?_concat {c : Char} (hc : Raw.isBlank c = true) : ofChars? (cs ++ [c]) = ofChars? cs := by
  ext j
  rw [ofChars?_eq_some_iff, ofChars?_eq_some_iff, Says, Says]
  simp only [Grammar.text_concat_iff hc]

end Texts

end Json

end ShardLedger
