import ShardLedger.Arithmetic
/-
Finite tables, sorted by key.

Accounts, retained receipts and the running balance changes of a transaction are tables from keys to
values.  A table is its list of entries in strictly ascending key order, so each key occurs once, the
entries read in order are what listings show, and two tables that answer every look-up alike are
equal.
-/

set_option autoImplicit false

namespace ShardLedger

universe u v

/-- **The keys ascend strictly.** -/
def Ascending {κ : Type u} {α : Type v} [Ord κ] (es : List (κ × α)) : Prop :=
  es.Pairwise fun a b => compare a.1 b.1 = .lt

/-- **A table** from keys to values. -/
structure Table (κ : Type u) (α : Type v) [Ord κ] where
  entries : List (κ × α)
  ascending : Ascending entries

namespace Table

variable {κ : Type u} {α : Type v} {β : Type v} [Ord κ]

/-! ## 1. Operations on entry lists -/

/-- **Find the value of a key** in an entry list. -/
def find? (k : κ) : List (κ × α) → Option α
  | [] => none
  | e :: es => if compare k e.1 = .eq then some e.2 else find? k es

/-- **Put a value at a key**, in its place by order. -/
def put (k : κ) (v : α) : List (κ × α) → List (κ × α)
  | [] => [(k, v)]
  | e :: es =>
    match compare k e.1 with
    | .lt => (k, v) :: e :: es
    | .eq => (k, v) :: es
    | .gt => e :: put k v es

theorem mem_put {k : κ} {v : α} {x : κ × α} {es : List (κ × α)} (h : x ∈ put k v es) :
    x = (k, v) ∨ x ∈ es := by
  induction es with
  | nil => simpa [put] using h
  | cons e es ih =>
    rw [put] at h
    split at h
    · simpa using h
    · rcases List.mem_cons.mp h with h | h
      · exact .inl h
      · exact .inr (List.mem_cons_of_mem _ h)
    · rcases List.mem_cons.mp h with h | h
      · exact .inr (h ▸ List.mem_cons_self)
      · rcases ih h with h | h
        · exact .inl h
        · exact .inr (List.mem_cons_of_mem _ h)

theorem find?_eq_none_of_forall_lt {k : κ} {es : List (κ × α)}
    (h : ∀ e ∈ es, compare k e.1 = .lt) : find? k es = none := by
  induction es with
  | nil => rfl
  | cons e es ih =>
    rw [find?, if_neg, ih fun x hx => h x (List.mem_cons_of_mem _ hx)]
    rw [h e List.mem_cons_self]
    decide

theorem mem_of_find? [Std.LawfulEqOrd κ] {k : κ} {v : α} {es : List (κ × α)}
    (h : find? k es = some v) : (k, v) ∈ es := by
  induction es with
  | nil => simp [find?] at h
  | cons e es ih =>
    rw [find?] at h
    split at h
    · rename_i hk
      have := Std.LawfulEqOrd.compare_eq_iff_eq.mp hk
      obtain ⟨a, b⟩ := e
      simp_all
    · exact List.mem_cons_of_mem _ (ih h)

variable [Std.TransOrd κ]

theorem ascending_put {es : List (κ × α)} (h : Ascending es) (k : κ) (v : α) :
    Ascending (put k v es) := by
  induction es with
  | nil => simp [put, Ascending]
  | cons e es ih =>
    obtain ⟨he, hes⟩ := List.pairwise_cons.mp h
    rw [put]
    split
    · rename_i hlt
      refine List.pairwise_cons.mpr ⟨fun x hx => ?_, h⟩
      rcases List.mem_cons.mp hx with rfl | hx
      · exact hlt
      · exact Std.TransCmp.lt_trans hlt (he x hx)
    · rename_i heq
      refine List.pairwise_cons.mpr ⟨fun x hx => ?_, hes⟩
      exact Std.TransCmp.lt_of_eq_of_lt heq (he x hx)
    · rename_i hgt
      refine List.pairwise_cons.mpr ⟨fun x hx => ?_, ih hes⟩
      rcases mem_put hx with rfl | hx
      · exact Std.OrientedCmp.lt_of_gt hgt
      · exact he x hx

/-! ## 2. Operations on tables -/

/-- **The table without entries.** -/
def empty : Table κ α :=
  ⟨[], List.Pairwise.nil⟩

instance : Inhabited (Table κ α) := ⟨empty⟩

/-- **The value at a key.** -/
def get? (t : Table κ α) (k : κ) : Option α :=
  find? k t.entries

/-- **The key has a value.** -/
def contains (t : Table κ α) (k : κ) : Bool :=
  (t.get? k).isSome

/-- **Put a value at a key**, in place of the one there. -/
def set (t : Table κ α) (k : κ) (v : α) : Table κ α :=
  ⟨put k v t.entries, ascending_put t.ascending k v⟩

/-- **Change the value at a key**, if there is one. -/
def adjust (t : Table κ α) (k : κ) (f : α → α) : Table κ α :=
  match t.get? k with
  | some v => t.set k (f v)
  | none => t

/-- **Keep the entries that pass a test.** -/
def filter (t : Table κ α) (p : κ → α → Bool) : Table κ α :=
  ⟨t.entries.filter fun e => p e.1 e.2, t.ascending.filter _⟩

/-- **The number of entries.** -/
def size (t : Table κ α) : Nat :=
  t.entries.length

/-- **The values**, in key order. -/
def values (t : Table κ α) : List α :=
  t.entries.map Prod.snd

/-! ## 3. What each operation does to look-ups -/

theorem find?_put {k k' : κ} {v : α} {es : List (κ × α)} (h : Ascending es) :
    find? k' (put k v es) = if compare k' k = .eq then some v else find? k' es := by
  induction es with
  | nil => simp [put, find?]
  | cons e es ih =>
    obtain ⟨he, hes⟩ := List.pairwise_cons.mp h
    rw [put]
    split
    · rfl
    · rename_i heq
      rw [find?]
      split
      · rfl
      · rename_i hne
        rw [find?, if_neg]
        intro hk
        exact hne (Std.TransCmp.eq_trans hk (Std.OrientedCmp.eq_symm heq))
    · rename_i hgt
      rw [find?, ih hes, find?]
      by_cases hk : compare k' k = .eq
      · have hne : ¬ compare k' e.1 = .eq := by
          rw [Std.TransCmp.congr_left hk, hgt]
          decide
        rw [if_neg hne, if_pos hk, if_pos hk]
      · rw [if_neg hk, if_neg hk]

omit [Std.TransOrd κ] in
@[simp]
theorem get?_empty (k : κ) : (empty : Table κ α).get? k = none := rfl

/-- A look-up after putting a value. -/
theorem get?_set [Std.LawfulEqOrd κ] [DecidableEq κ] (t : Table κ α) (k k' : κ) (v : α) :
    (t.set k v).get? k' = if k' = k then some v else t.get? k' := by
  rw [get?, set, find?_put t.ascending]
  simp only [Std.LawfulEqOrd.compare_eq_iff_eq]
  rfl

/-- A look-up after changing a value. -/
theorem get?_adjust [Std.LawfulEqOrd κ] [DecidableEq κ] (t : Table κ α) (k k' : κ) (f : α → α) :
    (t.adjust k f).get? k' = if k' = k then (t.get? k).map f else t.get? k' := by
  unfold adjust
  split
  · rename_i v hv
    rw [get?_set]
    split <;> simp_all
  · rename_i hv
    split <;> simp_all

/-- Changing a value leaves what is there. -/
theorem isSome_get?_adjust [Std.LawfulEqOrd κ] [DecidableEq κ] (t : Table κ α) (k k' : κ)
    (f : α → α) : ((t.adjust k f).get? k').isSome = (t.get? k').isSome := by
  rw [get?_adjust]
  by_cases h : k' = k
  · rw [if_pos h, h, Option.isSome_map]
  · rw [if_neg h]

/-! ## 4. Tables are their look-ups -/

theorem find?_of_mem [Std.LawfulEqOrd κ] {k : κ} {v : α} {es : List (κ × α)} (h : Ascending es)
    (hm : (k, v) ∈ es) : find? k es = some v := by
  induction es with
  | nil => simp at hm
  | cons e es ih =>
    obtain ⟨he, hes⟩ := List.pairwise_cons.mp h
    rw [find?]
    rcases List.mem_cons.mp hm with rfl | hm
    · rw [if_pos Std.ReflCmp.compare_self]
    · rw [if_neg, ih hes hm]
      intro hk
      have hlt := he _ hm
      have : compare e.1 k = .eq := Std.OrientedCmp.eq_symm hk
      simp only [this] at hlt
      exact absurd hlt (by decide)

/-- An entry is in the table exactly if its key looks up to its value. -/
theorem mem_entries_iff [Std.LawfulEqOrd κ] (t : Table κ α) (k : κ) (v : α) :
    (k, v) ∈ t.entries ↔ t.get? k = some v :=
  ⟨find?_of_mem t.ascending, mem_of_find?⟩

/-- A look-up after keeping some entries. -/
theorem get?_filter [Std.LawfulEqOrd κ] (t : Table κ α) (p : κ → α → Bool) (k : κ) :
    (t.filter p).get? k = (t.get? k).filter (p k) := by
  cases h : t.get? k with
  | none =>
    rw [Option.filter_none]
    cases h' : (t.filter p).get? k with
    | none => rfl
    | some v =>
      have hm := (mem_entries_iff _ _ _).mpr h'
      have := (mem_entries_iff _ _ _).mp (List.mem_filter.mp hm).1
      simp_all
  | some v =>
    have hm := (mem_entries_iff _ _ _).mpr h
    cases hp : p k v with
    | true =>
      rw [Option.filter_some_pos hp]
      exact (mem_entries_iff _ _ _).mp (List.mem_filter.mpr ⟨hm, hp⟩)
    | false =>
      rw [Option.filter_some_neg (by simp [hp])]
      cases h' : (t.filter p).get? k with
      | none => rfl
      | some w =>
        have hm' := List.mem_filter.mp ((mem_entries_iff _ _ _).mpr h')
        have := (mem_entries_iff _ _ _).mp hm'.1
        simp_all

theorem entries_ext [Std.LawfulEqOrd κ] {es fs : List (κ × α)} (he : Ascending es)
    (hf : Ascending fs) (h : ∀ k, find? k es = find? k fs) : es = fs := by
  induction es generalizing fs with
  | nil =>
    cases fs with
    | nil => rfl
    | cons f fs =>
      have := h f.1
      simp [find?, Std.ReflCmp.compare_self] at this
  | cons e es ih =>
    obtain ⟨he1, he2⟩ := List.pairwise_cons.mp he
    cases fs with
    | nil =>
      have := h e.1
      simp [find?, Std.ReflCmp.compare_self] at this
    | cons f fs =>
      obtain ⟨hf1, hf2⟩ := List.pairwise_cons.mp hf
      have hkey : compare e.1 f.1 = .eq := by
        cases hc : compare e.1 f.1 with
        | eq => rfl
        | lt =>
          have h1 := h e.1
          rw [find?, if_pos Std.ReflCmp.compare_self, find?_eq_none_of_forall_lt] at h1
          · simp at h1
          · intro x hx
            rcases List.mem_cons.mp hx with rfl | hx
            · exact hc
            · exact Std.TransCmp.lt_trans hc (hf1 x hx)
        | gt =>
          have hc' : compare f.1 e.1 = .lt := Std.OrientedCmp.lt_of_gt hc
          have h1 := h f.1
          rw [find?_eq_none_of_forall_lt, find?, if_pos Std.ReflCmp.compare_self] at h1
          · simp at h1
          · intro x hx
            rcases List.mem_cons.mp hx with rfl | hx
            · exact hc'
            · exact Std.TransCmp.lt_trans hc' (he1 x hx)
      have hk := Std.LawfulEqOrd.compare_eq_iff_eq.mp hkey
      obtain ⟨k, v⟩ := e
      obtain ⟨k', v'⟩ := f
      obtain rfl : k = k' := hk
      have hv := h k
      simp only [find?, Std.ReflCmp.compare_self, ↓reduceIte, Option.some.injEq] at hv
      subst hv
      congr 1
      refine ih he2 hf2 fun x => ?_
      by_cases hx : compare x k = .eq
      · have hxk := Std.LawfulEqOrd.compare_eq_iff_eq.mp hx
        subst hxk
        rw [find?_eq_none_of_forall_lt he1, find?_eq_none_of_forall_lt hf1]
      · have := h x
        simpa [find?, if_neg hx] using this

/-- Tables that answer every look-up alike are equal. -/
theorem ext_get? [Std.LawfulEqOrd κ] {s t : Table κ α} (h : ∀ k, s.get? k = t.get? k) : s = t := by
  obtain ⟨es, he⟩ := s
  obtain ⟨fs, hf⟩ := t
  have := entries_ext he hf h
  subst this
  rfl

end Table

end ShardLedger
