import ShardLedger.Proofs.EnvelopeLines
import ShardLedger.Proofs.JsonValues
/-
Opening the envelope of a line.

A node takes an envelope apart in two passes.  The first asks for a version and a method and looks at
nothing else; the second decodes the whole envelope.  A line that gets through the first has nothing left
that could be wrong with its envelope but an identifier that is missing: any value will do for the
identifier and for the parameters, parameters left out are null, and members nobody asked for are skipped.
-/

set_option autoImplicit false

namespace ShardLedger

open Wire

/-! ## 1. Trees -/

namespace Json

open Raw (ofJson ofItems ofMembers isWhole wholeItems wholeMembers)

mutual

/-- Nothing is broken in a value. -/
theorem isWhole_ofJson : ∀ j : Json, isWhole (ofJson j) = true
  | .null | .bool _ | .number _ | .string _ => rfl
  | .array js => wholeItems_ofItems js
  | .object ms => wholeMembers_ofMembers ms

theorem wholeItems_ofItems : ∀ js : List Json, wholeItems (ofItems js) = true
  | [] => rfl
  | j :: js => Bool.and_eq_true_iff.mpr ⟨isWhole_ofJson j, wholeItems_ofItems js⟩

theorem wholeMembers_ofMembers : ∀ ms : List (String × Json), wholeMembers (ofMembers ms) = true
  | [] => rfl
  | (_, j) :: ms => Bool.and_eq_true_iff.mpr ⟨isWhole_ofJson j, wholeMembers_ofMembers ms⟩

end

variable {ms : List (String × Json)}

/-- Only an object has members. -/
theorem exists_object_of_get? {j value : Json} {name : String} (h : j.get? name = some value) :
    ∃ ms, j = .object ms := by
  cases j with
  | object ms => exact ⟨ms, rfl⟩
  | null | bool | number | string | array => cases h

theorem get?_cons (m : String × Json) (ms : List (String × Json)) (name : String) :
    (Json.object (m :: ms)).get? name = if m.1 = name then some m.2 else (Json.object ms).get? name := by
  rw [get?, List.find?_cons]
  by_cases h : m.1 = name <;> simp [h, get?]

/-- The members of a canonical object are in order. -/
theorem isSorted_of_canonical (h : (Json.object ms).canonical = .object ms) : IsSorted ms := by
  have hms : sortMembers (canonicalMembers ms) = ms := object.inj h
  exact hms ▸ isSorted_sortMembers _

/-- The names of members in order differ. -/
theorem IsSorted.nodup_names (h : IsSorted ms) : (ms.map Prod.fst).Nodup :=
  List.pairwise_map.mpr (h.imp fun hlt => String.ne_of_lt hlt)

/-- What stands in a canonical object is canonical. -/
theorem canonical_of_mem (h : (Json.object ms).canonical = .object ms) {m : String × Json}
    (hm : m ∈ ms) : m.2.canonical = m.2 := by
  have hms : sortMembers (canonicalMembers ms) = ms := object.inj h
  rw [← hms, canonicalMembers_eq] at hm
  obtain ⟨m', -, rfl⟩ := List.mem_map.mp (mem_of_mem_sortMembers hm)
  exact canonical_canonical _

end Json

/-! ## 2. Members that are fields, and others -/

namespace Wire

open Json (Raw)

section Telling

variable {readField : String → Raw → Option (Except Fault Datum)} {told : String → Json → Option Datum}
  {ms : List (String × Json)}

theorem Found.get?_cons (e : String × Datum) (found : Found) (name : String) :
    Found.get? (e :: found) name = if e.1 = name then some e.2 else found.get? name := by
  rw [Found.get?, List.find?_cons]
  by_cases h : e.1 = name <;> simp [h, Found.get?]

/-- **Members that are fields are found, and others are skipped**, in whatever order they come. -/
theorem exists_found (hread : ∀ m ∈ ms, readField m.1 (Raw.ofJson m.2) = (told m.1 m.2).map .ok)
    (hnames : (ms.map Prod.fst).Nodup) (found : Found) (hnew : ∀ m ∈ ms, m.1 ∉ found.map Prod.fst) :
    ∃ found', readMembers readField (Raw.ofMembers ms) found = .ok found'
      ∧ ∀ name, found'.get? name
        = (found.get? name).or (((Json.object ms).get? name).bind (told name)) := by
  induction ms generalizing found with
  | nil => exact ⟨found, rfl, fun name => (Option.or_none).symm⟩
  | cons m ms ih =>
    obtain ⟨hm, hnames⟩ := List.nodup_cons.mp hnames
    have hvalue := hread m List.mem_cons_self
    have hrest := fun m hm => hread m (List.mem_cons_of_mem _ hm)
    have hfresh := Found.get?_eq_none (hnew m List.mem_cons_self)
    -- The name of this member is that of no later one.
    have hlast : (Json.object ms).get? m.1 = none := by
      rw [Json.get?, Option.map_eq_none_iff, List.find?_eq_none]
      intro m' hm' heq
      exact hm (of_decide_eq_true heq ▸ List.mem_map_of_mem hm')
    rw [Raw.ofMembers, readMembers, hvalue]
    cases htold : told m.1 m.2 with
    | none =>
      obtain ⟨found', hfound, hget⟩ := ih hrest hnames found fun m hm =>
        hnew m (List.mem_cons_of_mem _ hm)
      refine ⟨found', ?_, fun name => ?_⟩
      · simp only [Option.map_none, Json.isWhole_ofJson, if_true, hfound]
      · rw [hget, Json.get?_cons]
        by_cases hname : m.1 = name
        · subst hname
          rw [hlast, if_pos rfl, Option.bind_none, Option.bind_some, htold]
        · rw [if_neg hname]
    | some d =>
      obtain ⟨found', hfound, hget⟩ := ih hrest hnames ((m.1, d) :: found) (by
        intro m' hm'
        rw [List.map_cons, List.mem_cons, not_or]
        exact ⟨fun heq => hm (heq ▸ List.mem_map_of_mem hm'), hnew m' (List.mem_cons_of_mem _ hm')⟩)
      refine ⟨found', ?_, fun name => ?_⟩
      · simp only [Option.map_some, hfresh, Option.isSome_none, Bool.false_eq_true, if_false, bind,
          Except.bind, hfound]
      · rw [hget, Json.get?_cons, Found.get?_cons]
        by_cases hname : m.1 = name
        · subst hname
          rw [if_pos rfl, if_pos rfl, hfresh, Option.bind_some, htold]
          rfl
        · rw [if_neg hname, if_neg hname]

end Telling

end Wire

/-! ## 3. The envelope -/

namespace Rpc

open Json (Raw)

/-- **What a member of an envelope tells** under a known method: a version, an identifier, the method or
parameters.  Other members tell nothing. -/
def told (m : Method) (name : String) (j : Json) : Option Datum :=
  if name = "jsonrpc" then j.string?.map .text
  else if name = "id" then some (.json j)
  else if name = "method" then some (Wired.toDatum m)
  else if name = "params" then some (.json j)
  else none

/-- **The fields of an envelope.** -/
def envelopeFields : Fields :=
  .cons "jsonrpc" .always .text
    (.cons "id" .always .json
      (.cons "method" .always (Wired.schema Method) (.cons "params" .orNull .json .nil)))

section Opening

variable {j : Json} {version : String} {m : Method}

/-- A canonical value is read from a tree as it is. -/
theorem read_json_tree (h : j.canonical = j) :
    Schema.json.read .tree (Raw.ofJson j) = .ok (.json j) := by
  have hread := Origin.tree.value?_arrange (j := j) trivial
  rw [Origin.arrange, h] at hread
  rw [Schema.read, hread]

/-- The name of a method is read as the method. -/
theorem read_method (m : Method) (o : Origin) :
    (Wired.schema Method).read o (.string (some m.name)) = .ok (Wired.toDatum m) := by
  cases m <;> rfl

variable {ms : List (String × Json)}

/-- The members of an envelope with a version and a known method are read as what they tell. -/
theorem readField_envelope (hj : (Json.object ms).canonical = .object ms)
    (hversion : (Json.object ms).get? "jsonrpc" = some (.string version))
    (hmethod : (Json.object ms).get? "method" = some (.string m.name)) :
    ∀ e ∈ ms, envelopeFields.readField .tree e.1 (Raw.ofJson e.2) = (told m e.1 e.2).map .ok := by
  rintro ⟨name, value⟩ he
  have hnames := (Json.isSorted_of_canonical hj).nodup_names
  have hvalue := read_json_tree (Json.canonical_of_mem hj he)
  -- A name comes once, so the value of this member is the one that is found.
  have honly : ∀ {found : Json}, (Json.object ms).get? name = some found → value = found := by
    intro found hfound
    exact Option.some.inj (((Json.lookup_eq_some hnames).mpr he).symm.trans hfound)
  simp only [envelopeFields, Fields.readField, told]
  split
  · rename_i heq
    obtain rfl := honly (heq ▸ hversion)
    rfl
  · split
    · rw [hvalue]
      rfl
    · split
      · rename_i heq
        obtain rfl := honly (heq ▸ hmethod)
        rw [Raw.ofJson, read_method]
        rfl
      · split
        · rw [hvalue]
          rfl
        · rfl

/-- **The envelope decodes** once it has a version, a known method and an identifier; without an
identifier it does not. -/
theorem ofTree_envelope (hj : j.canonical = j) (hversion : j.get? "jsonrpc" = some (.string version))
    (hmethod : j.get? "method" = some (.string m.name)) :
    (Wired.ofTree j : Except Fault RequestEnvelope)
      = match j.get? "id" with
        | none => .error .misfit
        | some id => .ok ⟨version, id, m, (j.get? "params").getD .null⟩ := by
  obtain ⟨ms, rfl⟩ := Json.exists_object_of_get? hversion
  have hnames := (Json.isSorted_of_canonical hj).nodup_names
  obtain ⟨found, hfound, hget⟩ :=
    exists_found (readField_envelope hj hversion hmethod) hnames [] (fun _ _ => List.not_mem_nil)
  have hread : (Wired.schema RequestEnvelope).ofTree (.object ms)
      = (envelopeFields.complete found).map .record := by
    rw [Schema.ofTree, hj, Raw.ofJson]
    change (Schema.record envelopeFields).read .tree _ = _
    rw [Schema.read]
    simp only [Origin.inside, bind, Except.bind, hfound]
    cases envelopeFields.complete found <;> rfl
  have hv : found.get? "jsonrpc" = some (.text version) := by
    rw [hget, hversion]
    rfl
  have hm : found.get? "method" = some (Wired.toDatum m) := by
    rw [hget, hmethod]
    rfl
  have hid : found.get? "id" = ((Json.object ms).get? "id").map .json := by
    rw [hget]
    cases (Json.object ms).get? "id" <;> rfl
  have hp : found.get? "params" = ((Json.object ms).get? "params").map .json := by
    rw [hget]
    cases (Json.object ms).get? "params" <;> rfl
  rw [Wired.ofTree, hread]
  simp only [envelopeFields, Fields.complete, hv, hm, hid, hp]
  cases (Json.object ms).get? "id" with
  | none => rfl
  | some id => cases (Json.object ms).get? "params" <;> cases m <;> rfl

end Opening

end Rpc

end ShardLedger
