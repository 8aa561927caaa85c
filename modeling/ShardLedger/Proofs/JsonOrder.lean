import ShardLedger.Proofs.JsonText
/-
The canonical form of a JSON value.

Sorting puts members into strict order of name, and changes nothing once they are.  Members whose names
differ are only rearranged.  So the canonical form of a value is its own canonical form; and a value that
is read from a text is the canonical form of what the text says.
-/

set_option autoImplicit false

namespace ShardLedger

namespace Json

/-! ## 1. Induction -/

mutual

/-- **Induction on values**: over the items of an array, and over the values in an object. -/
theorem nestedInduction {P : Json → Prop} (null : P .null) (bool : ∀ b, P (.bool b))
    (number : ∀ n, P (.number n)) (string : ∀ s, P (.string s))
    (array : ∀ js : List Json, (∀ j ∈ js, P j) → P (.array js))
    (object : ∀ ms : List (String × Json), (∀ m ∈ ms, P m.2) → P (.object ms)) : ∀ j : Json, P j
  | .null => null
  | .bool b => bool b
  | .number n => number n
  | .string s => string s
  | .array js => array js (nestedItems null bool number string array object js)
  | .object ms => object ms (nestedMembers null bool number string array object ms)

theorem nestedItems {P : Json → Prop} (null : P .null) (bool : ∀ b, P (.bool b))
    (number : ∀ n, P (.number n)) (string : ∀ s, P (.string s))
    (array : ∀ js : List Json, (∀ j ∈ js, P j) → P (.array js))
    (object : ∀ ms : List (String × Json), (∀ m ∈ ms, P m.2) → P (.object ms)) :
    ∀ js : List Json, ∀ j ∈ js, P j
  | [] => nofun
  | j :: js => List.forall_mem_cons.mpr
      ⟨nestedInduction null bool number string array object j,
        nestedItems null bool number string array object js⟩

theorem nestedMembers {P : Json → Prop} (null : P .null) (bool : ∀ b, P (.bool b))
    (number : ∀ n, P (.number n)) (string : ∀ s, P (.string s))
    (array : ∀ js : List Json, (∀ j ∈ js, P j) → P (.array js))
    (object : ∀ ms : List (String × Json), (∀ m ∈ ms, P m.2) → P (.object ms)) :
    ∀ ms : List (String × Json), ∀ m ∈ ms, P m.2
  | [] => nofun
  | (_, j) :: ms => List.forall_mem_cons.mpr
      ⟨nestedInduction null bool number string array object j,
        nestedMembers null bool number string array object ms⟩

end

/-! ## 2. Members in order -/

/-- Where names differ, the first value of a name is its only one. -/
theorem lookup_eq_some {α : Type} {es : List (String × α)} {name : String} {a : α}
    (h : (es.map Prod.fst).Nodup) :
    (es.find? fun e => e.1 = name).map Prod.snd = some a ↔ (name, a) ∈ es := by
  induction es with
  | nil => simp
  | cons e es ih =>
    obtain ⟨he, hes⟩ := List.nodup_cons.mp h
    have ih := ih hes
    rw [List.find?_cons]
    by_cases heq : e.1 = name
    · have hnot : (name, a) ∉ es := fun hmem => he (heq ▸ List.mem_map_of_mem hmem)
      obtain ⟨n, b⟩ := e
      obtain rfl : n = name := heq
      simp [hnot, eq_comm]
    · have hne : (name, a) ≠ e := fun h => heq (h ▸ rfl)
      simp [heq, ih, hne]

section Sorting

variable {name : String} {value : Json} {ms acc : List (String × Json)}

/-- **Members in strict order of name.** -/
def IsSorted (ms : List (String × Json)) : Prop :=
  ms.Pairwise fun a b => a.1 < b.1

/-- What is put among members is put there, or was there before. -/
theorem mem_putMember {m : String × Json} (h : m ∈ putMember name value ms) :
    m = (name, value) ∨ m ∈ ms := by
  induction ms with
  | nil => exact .inl (List.mem_singleton.mp h)
  | cons a ms ih =>
    rw [putMember] at h
    split at h
    · exact (List.mem_cons.mp h).imp_right id
    · split at h
      · exact (List.mem_cons.mp h).imp_right (List.mem_cons_of_mem _)
      · obtain rfl | h := List.mem_cons.mp h
        · exact .inr List.mem_cons_self
        · exact (ih h).imp_right (List.mem_cons_of_mem _)

/-- Putting a member keeps the order. -/
theorem IsSorted.putMember (h : IsSorted ms) : IsSorted (putMember name value ms) := by
  induction ms with
  | nil => exact List.pairwise_singleton _ _
  | cons a ms ih =>
    obtain ⟨ha, hms⟩ := List.pairwise_cons.mp h
    rw [Json.putMember]
    split
    case isTrue hlt =>
      refine List.pairwise_cons.mpr ⟨fun b hb => ?_, h⟩
      obtain rfl | hb := List.mem_cons.mp hb
      · exact hlt
      · exact String.lt_trans hlt (ha b hb)
    case isFalse hlt =>
      split
      case isTrue heq =>
        subst heq
        exact List.pairwise_cons.mpr ⟨ha, hms⟩
      case isFalse hne =>
        -- Neither below nor equal, the name is above, and what is put further on is above it too.
        have hlt' : a.1 < name :=
          String.not_le.mp fun hle => hne (String.le_antisymm hle (String.not_lt.mp hlt))
        refine List.pairwise_cons.mpr ⟨fun b hb => ?_, ih hms⟩
        obtain rfl | hb := mem_putMember hb
        · exact hlt'
        · exact ha b hb

/-- **Sorted members are in order.** -/
theorem isSorted_sortMembers (ms : List (String × Json)) : IsSorted (sortMembers ms) := by
  suffices ∀ acc, IsSorted acc → IsSorted (ms.foldl (fun ms m => Json.putMember m.1 m.2 ms) acc) from
    this [] .nil
  induction ms with
  | nil => exact fun acc h => h
  | cons m ms ih => exact fun acc h => ih _ h.putMember

/-- What comes after all members is put behind them. -/
theorem putMember_of_lt (h : ∀ m ∈ ms, m.1 < name) :
    putMember name value ms = ms ++ [(name, value)] := by
  induction ms with
  | nil => rfl
  | cons m ms ih =>
    have hm : m.1 < name := h m List.mem_cons_self
    rw [putMember, if_neg (String.lt_asymm hm), if_neg (String.ne_of_lt hm).symm,
      ih fun m hm => h m (List.mem_cons_of_mem _ hm)]
    rfl

/-- **Members in order stay as they are.** -/
theorem IsSorted.sortMembers_eq (h : IsSorted ms) : sortMembers ms = ms := by
  suffices ∀ acc, IsSorted (acc ++ ms) →
      ms.foldl (fun ms m => Json.putMember m.1 m.2 ms) acc = acc ++ ms from this [] h
  clear h
  induction ms with
  | nil => exact fun acc _ => (List.append_nil acc).symm
  | cons m ms ih =>
    intro acc h
    -- All that was put before is below this member, so it goes to the end.
    have hlt : ∀ a ∈ acc, a.1 < m.1 := fun a ha =>
      (List.pairwise_append.mp h).2.2 a ha m List.mem_cons_self
    rw [← List.singleton_append, ← List.append_assoc] at h ⊢
    rw [List.singleton_append, List.foldl_cons, putMember_of_lt hlt]
    exact ih _ h

/-- A new member is added. -/
theorem putMember_perm (value : Json) (h : name ∉ ms.map Prod.fst) :
    (putMember name value ms).Perm ((name, value) :: ms) := by
  induction ms with
  | nil => exact .refl _
  | cons m ms ih =>
    rw [List.map_cons, List.mem_cons, not_or] at h
    rw [putMember]
    split
    · exact .refl _
    · rw [if_neg h.1]
      exact ((ih h.2).cons m).trans (.swap _ _ _)

/-- **Members whose names differ are rearranged.** -/
theorem sortMembers_perm (h : (ms.map Prod.fst).Nodup) : (sortMembers ms).Perm ms := by
  suffices ∀ acc, (∀ m ∈ ms, m.1 ∉ acc.map Prod.fst) →
      (ms.foldl (fun ms m => Json.putMember m.1 m.2 ms) acc).Perm (ms ++ acc) by
    simpa [sortMembers] using this [] (by simp)
  induction ms with
  | nil => exact fun acc _ => .refl _
  | cons m ms ih =>
    intro acc hacc
    obtain ⟨hm, hms⟩ := List.nodup_cons.mp h
    -- This member is new, because no name comes twice.
    have hput := putMember_perm m.2 (hacc m List.mem_cons_self)
    refine (ih hms _ fun a ha => ?_).trans ((hput.append_left ms).trans List.perm_middle)
    rw [(hput.map Prod.fst).mem_iff, List.map_cons, List.mem_cons, not_or]
    refine ⟨?_, hacc a (List.mem_cons_of_mem _ ha)⟩
    rintro heq
    exact hm (heq ▸ List.mem_map_of_mem ha)

/-- Putting a member goes along with a change of values. -/
theorem putMember_map (f : Json → Json) :
    putMember name (f value) (ms.map fun m => (m.1, f m.2))
      = (putMember name value ms).map fun m => (m.1, f m.2) := by
  induction ms with
  | nil => rfl
  | cons m ms ih =>
    simp only [putMember, List.map_cons, ih]
    split
    · rfl
    · split <;> rfl

/-- Sorting goes along with a change of values. -/
theorem sortMembers_map (f : Json → Json) (ms : List (String × Json)) :
    sortMembers (ms.map fun m => (m.1, f m.2)) = (sortMembers ms).map fun m => (m.1, f m.2) := by
  suffices ∀ acc : List (String × Json),
      (ms.map fun m => (m.1, f m.2)).foldl (fun ms m => putMember m.1 m.2 ms)
          (acc.map fun m => (m.1, f m.2))
        = (ms.foldl (fun ms m => putMember m.1 m.2 ms) acc).map fun m => (m.1, f m.2) from
    this []
  induction ms with
  | nil => exact fun acc => rfl
  | cons m ms ih =>
    intro acc
    rw [List.map_cons, List.foldl_cons, List.foldl_cons, putMember_map]
    exact ih _

/-- What is sorted was there before. -/
theorem mem_of_mem_sortMembers {m : String × Json} (h : m ∈ sortMembers ms) : m ∈ ms := by
  suffices ∀ acc, m ∈ ms.foldl (fun ms m => putMember m.1 m.2 ms) acc → m ∈ ms ∨ m ∈ acc from
    (this [] h).resolve_right List.not_mem_nil
  clear h
  induction ms with
  | nil => exact fun acc h => .inr h
  | cons a ms ih =>
    intro acc h
    obtain h | h := ih _ h
    · exact .inl (List.mem_cons_of_mem _ h)
    · obtain rfl | h := mem_putMember h
      · exact .inl List.mem_cons_self
      · exact .inr h

end Sorting

/-! ## 3. The canonical form -/

theorem canonicalItems_eq (js : List Json) : canonicalItems js = js.map canonical := by
  induction js with
  | nil => rfl
  | cons j js ih => rw [canonicalItems, ih, List.map_cons]

theorem canonicalMembers_eq (ms : List (String × Json)) :
    canonicalMembers ms = ms.map fun m => (m.1, m.2.canonical) := by
  induction ms with
  | nil => rfl
  | cons m ms ih => rw [canonicalMembers, ih, List.map_cons]

/-- **The canonical form is its own.** -/
theorem canonical_canonical (j : Json) : j.canonical.canonical = j.canonical := by
  induction j using nestedInduction with
  | null | bool | number | string => rfl
  | array js ih =>
    simp only [canonical, canonicalItems_eq, List.map_map]
    exact congrArg Json.array (List.map_congr_left ih)
  | object ms ih =>
    have hvalues : canonicalMembers (canonicalMembers ms) = canonicalMembers ms := by
      simp only [canonicalMembers_eq, List.map_map]
      exact List.map_congr_left fun m hm => congrArg (m.1, ·) (ih m hm)
    rw [canonical, canonical, canonicalMembers_eq, ← sortMembers_map canonical,
      ← canonicalMembers_eq, hvalues, (isSorted_sortMembers _).sortMembers_eq]

/-- **A member is found in the canonical form**, if the names differ. -/
theorem get?_canonical {ms : List (String × Json)} {name : String} {j : Json}
    (hnames : (ms.map Prod.fst).Nodup) (h : (name, j) ∈ ms) :
    (Json.object ms).canonical.get? name = some j.canonical := by
  have hmap : (canonicalMembers ms).map Prod.fst = ms.map Prod.fst := by
    rw [canonicalMembers_eq, List.map_map]
    rfl
  have hcanonical : ((canonicalMembers ms).map Prod.fst).Nodup := hmap ▸ hnames
  have hperm := sortMembers_perm hcanonical
  have hsorted : ((sortMembers (canonicalMembers ms)).map Prod.fst).Nodup := by
    rw [(hperm.map Prod.fst).nodup_iff, hmap]
    exact hnames
  refine (lookup_eq_some hsorted).mpr ?_
  rw [hperm.mem_iff, canonicalMembers_eq]
  exact List.mem_map_of_mem h

/-! ## 4. Words and nesting inside -/

theorem plainItems_iff {js : List Json} : plainItems js = true ↔ ∀ j ∈ js, j.isPlain = true := by
  induction js with
  | nil => simp [plainItems]
  | cons j js ih => rw [plainItems, Bool.and_eq_true, ih, List.forall_mem_cons]

theorem plainMembers_iff {ms : List (String × Json)} :
    plainMembers ms = true ↔ ∀ m ∈ ms, m.2.isPlain = true := by
  induction ms with
  | nil => simp [plainMembers]
  | cons m ms ih => rw [plainMembers, Bool.and_eq_true, ih, List.forall_mem_cons]

/-- The canonical form has the same numbers. -/
theorem isPlain_canonical {j : Json} (h : j.isPlain = true) : j.canonical.isPlain = true := by
  induction j using nestedInduction with
  | null | bool | number | string => exact h
  | array js ih =>
    rw [isPlain, plainItems_iff] at h
    rw [canonical, canonicalItems_eq, isPlain, plainItems_iff, List.forall_mem_map]
    exact fun j hj => ih j hj (h j hj)
  | object ms ih =>
    rw [isPlain, plainMembers_iff] at h
    rw [canonical, canonicalMembers_eq, isPlain, plainMembers_iff]
    intro m hm
    obtain ⟨m, hm', rfl⟩ := List.mem_map.mp (mem_of_mem_sortMembers hm)
    exact ih m hm' (h m hm')

/-- **How deep a value nests.** -/
def depth (j : Json) : Nat :=
  (Raw.ofJson j).depth

theorem depth_array_le {js : List Json} {n : Nat} :
    (Json.array js).depth ≤ n + 1 ↔ ∀ j ∈ js, j.depth ≤ n := by
  rw [depth, Raw.ofJson, Raw.depth, Nat.add_le_add_iff_right]
  induction js with
  | nil => simp [Raw.ofItems, Raw.depthItems]
  | cons j js ih => rw [Raw.ofItems, Raw.depthItems, Nat.max_le, ih, List.forall_mem_cons, depth]

theorem depth_object_le {ms : List (String × Json)} {n : Nat} :
    (Json.object ms).depth ≤ n + 1 ↔ ∀ m ∈ ms, m.2.depth ≤ n := by
  rw [depth, Raw.ofJson, Raw.depth, Nat.add_le_add_iff_right]
  induction ms with
  | nil => simp [Raw.ofMembers, Raw.depthMembers]
  | cons m ms ih =>
    rw [Raw.ofMembers, Raw.depthMembers, Nat.max_le, ih, List.forall_mem_cons, depth]

/-- The canonical form nests no deeper. -/
theorem depth_canonical_le (j : Json) : j.canonical.depth ≤ j.depth := by
  induction j using nestedInduction with
  | null | bool | number | string => exact Nat.le_refl _
  | array js ih =>
    have hjs : ∀ j ∈ js, j.depth ≤ (Json.array js).depth - 1 := depth_array_le.mp (Nat.le_refl _)
    rw [canonical, canonicalItems_eq]
    refine depth_array_le.mpr (List.forall_mem_map.mpr fun j hj => ?_)
    exact Nat.le_trans (ih j hj) (hjs j hj)
  | object ms ih =>
    have hms : ∀ m ∈ ms, m.2.depth ≤ (Json.object ms).depth - 1 :=
      depth_object_le.mp (Nat.le_refl _)
    rw [canonical, canonicalMembers_eq]
    refine depth_object_le.mpr fun m hm => ?_
    obtain ⟨m, hm', rfl⟩ := List.mem_map.mp (mem_of_mem_sortMembers hm)
    exact Nat.le_trans (ih m hm') (hms m hm')

/-! ## 5. Reading a value -/

namespace Raw

/-- **A value with room to nest is read in its canonical form.** -/
theorem toJson?_ofJson {j : Json} {room : Nat} (h : j.depth ≤ room) :
    (ofJson j).toJson? room = some j.canonical := by
  induction j using nestedInduction generalizing room with
  | null | bool | number | string => rfl
  | array js ih =>
    obtain _ | room := room
    · exact absurd h (Nat.not_succ_le_zero _)
    rw [depth_array_le] at h
    have hitems : toItems? room (ofItems js) = some (canonicalItems js) := by
      induction js with
      | nil => rfl
      | cons j js ihs =>
        obtain ⟨hj, hjs⟩ := List.forall_mem_cons.mp h
        rw [ofItems, toItems?, ih j List.mem_cons_self hj,
          ihs (fun j hj => ih j (List.mem_cons_of_mem _ hj)) hjs]
        rfl
    rw [ofJson, toJson?, hitems]
    rfl
  | object ms ih =>
    obtain _ | room := room
    · exact absurd h (Nat.not_succ_le_zero _)
    rw [depth_object_le] at h
    have hmembers : toMembers? room (ofMembers ms) = some (canonicalMembers ms) := by
      induction ms with
      | nil => rfl
      | cons m ms ihs =>
        obtain ⟨hm, hms⟩ := List.forall_mem_cons.mp h
        rw [ofMembers, toMembers?, ih m List.mem_cons_self hm,
          ihs (fun m hm => ih m (List.mem_cons_of_mem _ hm)) hms]
        rfl
    rw [ofJson, toJson?, hmembers]
    rfl

end Raw

/-- **The text of a value is read in its canonical form.** -/
theorem ofChars?_chars {j : Json} (h : j.isPlain = true) (hdepth : j.depth ≤ Raw.maxDepth) :
    ofChars? j.chars = some j.canonical := by
  rw [ofChars?, Raw.ofChars_chars h]
  exact Raw.toJson?_ofJson hdepth

end Json

end ShardLedger
