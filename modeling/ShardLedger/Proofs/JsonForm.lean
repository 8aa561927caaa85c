import Mathlib.Data.List.Perm.Basic
import ShardLedger.Proofs.BinaryForm
import ShardLedger.Proofs.JsonOrder
import ShardLedger.Proofs.WiredValues
/-
The JSON form of messages is read back.

What is written under a schema may be read as it stands in a text, or sorted, as it stands in a tree.
Either way the members of an object come with different names, so each field of a record finds its own
value in whichever place it is, and a choice finds its variant by name.

Not every schema is good for that: names must differ, and a field that is left out must be an option.
And not all data are: an option that is present must not look like one that is absent, and a free value
is read in its canonical form.
-/

set_option autoImplicit false

namespace ShardLedger

namespace Wire

open Json (Raw)

/-! ## 1. Schemas and data that JSON can tell -/

/-- **The names of fields.** -/
def Fields.names : Fields → List String
  | .nil => []
  | .cons name _ _ rest => name :: rest.names

/-- **The names of variants.** -/
def Variants.names : Variants → List String
  | .nil => []
  | .cons name _ _ rest => name :: rest.names

/-- **The schema of an option.** -/
def Schema.isOption : Schema → Bool
  | .option _ => true
  | _ => false

/-- **The schema of a record**, guarded or not. -/
def Schema.isRecord : Schema → Bool
  | .record _ => true
  | .guarded _ s => s.isRecord
  | _ => false

/-- **The form of a variant is one for its content.** -/
def Form.suits : Form → Schema → Bool
  | .unit, .record .nil => true
  | .unit, _ => false
  | .wrapped, _ => true
  | .fields, s => s.isRecord

mutual

/-- **What is written under the schema can be read**: names differ, only options are left out, and
variants are written in a form for their content. -/
def Schema.isReadable : Schema → Bool
  | .int _ | .bool | .text | .bytes _ | .json => true
  | .option s | .list s | .guarded _ s => s.isReadable
  | .record fs => decide fs.names.Nodup && fs.areReadable
  | .choice vs => decide vs.names.Nodup && vs.areReadable

def Fields.areReadable : Fields → Bool
  | .nil => true
  | .cons _ presence s rest =>
    (presence ≠ .whenPresent || s.isOption) && s.isReadable && rest.areReadable

def Variants.areReadable : Variants → Bool
  | .nil => true
  | .cons _ form s rest => form.suits s && s.isReadable && rest.areReadable

end

mutual

/-- **A datum can be told in JSON**: it has the shape of the schema and passes its guards, nothing
present is written as null, and free values are canonical. -/
def Schema.Tells : Schema → Datum → Prop
  | .int w, .int i => w.Holds i
  | .bool, .bool _ => True
  | .text, .text _ => True
  | .bytes length, .bytes b => ∀ n ∈ length, b.length = n
  | .option _, .absent => True
  | .option s, .present d => s.Tells d ∧ s.write d ≠ .null
  | .list s, .list ds => ∀ d ∈ ds, s.Tells d
  | .record fs, .record ds => fs.Tell ds
  | .choice vs, .choice i d => vs.Tell i d
  | .guarded guard s, d => s.Tells d ∧ guard d = none
  | .json, .json j => j.canonical = j
  | _, _ => False

def Fields.Tell : Fields → List Datum → Prop
  | .nil, [] => True
  | .cons _ _ s rest, d :: ds => s.Tells d ∧ rest.Tell ds
  | _, _ => False

def Variants.Tell : Variants → Nat → Datum → Prop
  | .nil, _, _ => False
  | .cons _ _ s _, 0, d => s.Tells d
  | .cons _ _ _ rest, i + 1, d => rest.Tell i d

end

/-- **The value of a field is left out.** -/
def Presence.omits : Presence → Datum → Bool
  | .whenPresent, .absent => true
  | _, _ => false

/-- **What is told of the fields of a record**, by their names: all but those left out. -/
def Fields.told : Fields → List Datum → Found
  | .cons name presence _ rest, d :: ds =>
    if presence.omits d then rest.told ds else (name, d) :: rest.told ds
  | _, _ => []

theorem Fields.write_nil (fs : Fields) : fs.write [] = [] := by
  cases fs with
  | nil => rfl
  | cons name presence s rest => cases presence <;> rfl

/-- A record is written field by field, but for those left out. -/
theorem Fields.write_cons (name : String) (presence : Presence) (s : Schema) (rest : Fields)
    (d : Datum) (ds : List Datum) :
    (Fields.cons name presence s rest).write (d :: ds)
      = if presence.omits d then rest.write ds else (name, s.write d) :: rest.write ds := by
  cases presence <;> cases d <;> rfl

/-- A later variant is written as one of the rest. -/
theorem Variants.write_succ (name : String) (form : Form) (s : Schema) (rest : Variants) (i : Nat)
    (d : Datum) : (Variants.cons name form s rest).write (i + 1) d = rest.write i d := by
  cases form <;> rfl

/-! ## 2. Origins -/

namespace Origin

/-- **How a value stands at an origin**: as it was written in a text, sorted in a tree. -/
def arrange : Origin → Json → Json
  | .text _, j => j
  | .tree, j => j.canonical

/-- **An origin has room for a value.** -/
def Holds : Origin → Json → Prop
  | .text room, j => j.depth ≤ room
  | .tree, _ => True

variable {o : Origin}

/-- Inside an array values stand as they do where it stands, and have room. -/
theorem arrange_array (js : List Json) (h : o.Holds (.array js)) :
    o.arrange (.array js) = .array (js.map o.arrange)
      ∧ ∃ o', o.inside = .ok o' ∧ o'.arrange = o.arrange ∧ ∀ j ∈ js, o'.Holds j := by
  cases o with
  | tree =>
    refine ⟨?_, .tree, rfl, rfl, fun _ _ => trivial⟩
    rw [arrange, Json.canonical, Json.canonicalItems_eq]
    rfl
  | text room =>
    obtain _ | room := room
    · exact absurd h (Nat.not_succ_le_zero _)
    · exact ⟨congrArg Json.array (List.map_id' js).symm, .text room, rfl, rfl,
        Json.depth_array_le.mp h⟩

/-- Inside an object values stand as they do where it stands, and have room.  Its members may stand
in another order. -/
theorem arrange_object {ms : List (String × Json)} (hnames : (ms.map Prod.fst).Nodup)
    (h : o.Holds (.object ms)) :
    ∃ ms', o.arrange (.object ms) = .object ms'
      ∧ ms'.Perm (ms.map fun m => (m.1, o.arrange m.2))
      ∧ ∃ o', o.inside = .ok o' ∧ o'.arrange = o.arrange ∧ ∀ m ∈ ms, o'.Holds m.2 := by
  cases o with
  | tree =>
    refine ⟨_, rfl, ?_, .tree, rfl, rfl, fun _ _ => trivial⟩
    rw [Json.canonicalMembers_eq]
    exact Json.sortMembers_perm (by rwa [List.map_map])
  | text room =>
    obtain _ | room := room
    · exact absurd h (Nat.not_succ_le_zero _)
    · exact ⟨ms, rfl, .of_eq (List.map_id ms).symm, .text room, rfl, rfl,
        Json.depth_object_le.mp h⟩

end Origin

/-! ## 3. Found fields -/

section Finding

variable {found told : Found} {name : String}

/-- Where names differ, what is found is what is there. -/
theorem Found.get?_eq_some {d : Datum} (h : (found.map Prod.fst).Nodup) :
    found.get? name = some d ↔ (name, d) ∈ found :=
  Json.lookup_eq_some h

/-- Where names differ, their order does not matter. -/
theorem Found.get?_perm (h : found.Perm told) (hnames : (told.map Prod.fst).Nodup) (name : String) :
    found.get? name = told.get? name := by
  have hnames' : (found.map Prod.fst).Nodup := (h.map Prod.fst).nodup_iff.mpr hnames
  ext d
  rw [Found.get?_eq_some hnames, Found.get?_eq_some hnames', h.mem_iff]

/-- A name that is not there is not found. -/
theorem Found.get?_eq_none (h : name ∉ found.map Prod.fst) : found.get? name = none := by
  rw [Found.get?, Option.map_eq_none_iff, List.find?_eq_none]
  intro e he heq
  exact h (of_decide_eq_true heq ▸ List.mem_map_of_mem he)

/-- **Members that are fields are all found**, in whatever order they come. -/
theorem readMembers_eq_ok {readField : String → Raw → Option (Except Fault Datum)}
    {ms : List (String × Json)} {told : Found}
    (hread : List.Forall₂ (fun m e => m.1 = e.1
      ∧ readField m.1 (Raw.ofJson m.2) = some (.ok e.2)) ms told)
    (hnames : (ms.map Prod.fst).Nodup) (found : Found)
    (hnew : ∀ m ∈ ms, m.1 ∉ found.map Prod.fst) :
    readMembers readField (Raw.ofMembers ms) found = .ok (told.reverse ++ found) := by
  induction hread generalizing found with
  | nil => rfl
  | @cons m e ms told hm hms ih =>
    obtain ⟨hname, hvalue⟩ := hm
    obtain ⟨hm, hnames⟩ := List.nodup_cons.mp hnames
    -- The field was not found before, so this is no repetition.
    have hfresh := Found.get?_eq_none (hnew m List.mem_cons_self)
    rw [Raw.ofMembers, readMembers, hvalue]
    simp only [hfresh, Option.isSome_none, Bool.false_eq_true, if_false, bind, Except.bind]
    rw [ih hnames, List.reverse_cons, List.append_assoc, List.singleton_append, hname]
    intro a ha
    rw [List.map_cons, List.mem_cons, not_or]
    refine ⟨?_, hnew a (List.mem_cons_of_mem _ ha)⟩
    exact fun heq => hm (heq ▸ List.mem_map_of_mem ha)

end Finding

/-! ## 4. Records -/

section Records

/-- What is written of a record is named as it is told. -/
theorem Fields.names_told (fs : Fields) (ds : List Datum) :
    (fs.told ds).map Prod.fst = (fs.write ds).map Prod.fst := by
  induction ds generalizing fs with
  | nil =>
    rw [fs.write_nil]
    cases fs <;> rfl
  | cons d ds ih =>
    cases fs with
    | nil => rfl
    | cons name presence s rest =>
      rw [Fields.write_cons, Fields.told]
      split
      · exact ih rest
      · exact congrArg (name :: ·) (ih rest)

/-- What is told of a record is told of its fields. -/
theorem Fields.names_told_sublist (fs : Fields) (ds : List Datum) :
    ((fs.told ds).map Prod.fst).Sublist fs.names := by
  induction ds generalizing fs with
  | nil => cases fs <;> exact List.nil_sublist _
  | cons d ds ih =>
    cases fs with
    | nil => exact List.nil_sublist _
    | cons name presence s rest =>
      rw [Fields.told]
      split
      · exact (ih rest).trans (List.sublist_cons_self _ _)
      · exact (ih rest).cons_cons name

/-- **A record is complete** once all that is told of it is found. -/
theorem Fields.complete_told {found : Found} : ∀ (fs : Fields) {ds : List Datum},
    fs.areReadable = true → fs.names.Nodup → fs.Tell ds →
    (∀ name ∈ fs.names, found.get? name = (fs.told ds).get? name) →
      fs.complete found = .ok ds
  | .nil, [], _, _, _, _ => rfl
  | .cons name presence s rest, d :: ds, hread, hnames, htell, hfound => by
    simp only [Fields.areReadable, Bool.and_eq_true, Bool.or_eq_true, decide_eq_true_eq] at hread
    obtain ⟨⟨hpresence, -⟩, hread⟩ := hread
    obtain ⟨hname, hnames⟩ := List.nodup_cons.mp hnames
    have hnone : (rest.told ds).get? name = none :=
      Found.get?_eq_none fun h => hname ((rest.names_told_sublist ds).subset h)
    have hhead := hfound name List.mem_cons_self
    -- What is told of the other fields does not depend on this one.
    have hrest : ∀ n ∈ rest.names, found.get? n = (rest.told ds).get? n := by
      intro n hn
      have hne : name ≠ n := fun h => hname (h ▸ hn)
      rw [hfound n (List.mem_cons_of_mem _ hn), Fields.told]
      split
      · rfl
      · rw [Found.get?, Found.get?, List.find?_cons_of_neg (by simpa using hne)]
    rw [Fields.complete, Fields.complete_told rest hread hnames htell.2 hrest, hhead, Fields.told]
    -- A field that was left out is not found, and stands for the absent option that it was.
    by_cases homits : presence.omits d = true
    · rw [if_pos homits, hnone]
      cases presence with
      | always | orNull => cases homits
      | whenPresent =>
        cases d with
        | absent =>
          cases s with
          | option s => rfl
          | _ => simp [Schema.isOption] at hpresence
        | _ => cases homits
    · rw [if_neg homits, Found.get?, List.find?_cons_of_pos (by simp)]
      rfl

end Records

/-! ## 5. Reading back -/

/-- Values that are read back one by one are read back together. -/
theorem mapM_map_eq_ok {α β ε : Type} {read : α → Except ε β} {write : β → α} {ds : List β}
    (h : ∀ d ∈ ds, read (write d) = .ok d) : (ds.map write).mapM read = .ok ds := by
  induction ds with
  | nil => rfl
  | cons d ds ih =>
    rw [List.map_cons, List.mapM_cons, h d List.mem_cons_self]
    simp only [bind, Except.bind, ih fun d hd => h d (List.mem_cons_of_mem _ hd)]
    rfl

theorem ofItems_eq (js : List Json) : Raw.ofItems js = js.map Raw.ofJson := by
  induction js with
  | nil => rfl
  | cons j js ih => rw [Raw.ofItems, ih, List.map_cons]

/-- An integer of a width is a word. -/
theorem exists_integer_eq {w : Width} {i : Int} (h : w.Holds i) :
    ∃ n, Json.integer i = .number n ∧ n.toInt? = some i := by
  have hlow : Int64.minValue.toInt = -2 ^ 63 := rfl
  have hrange : -2 ^ 63 ≤ i ∧ i < 2 ^ 64 := by
    cases w <;> simp only [Width.Holds] at h <;> omega
  unfold Json.integer Json.Number.ofInt?
  by_cases hi : 0 ≤ i
  · refine ⟨.natural (UInt64.ofNat i.toNat), ?_, ?_⟩
    · rw [if_pos hi, if_pos (show i < UInt64.size from hrange.2)]
    · have hword : (UInt64.ofNat i.toNat).toNat = i.toNat :=
        UInt64.toNat_ofNat_of_lt' (by simp only [UInt64.size]; omega)
      rw [Json.Number.toInt?, hword, Int.toNat_of_nonneg hi]
  · refine ⟨.negative (Int64.ofInt i), ?_, ?_⟩
    · rw [if_neg hi, if_pos (by omega)]
    · rw [Json.Number.toInt?, Int64.toInt_ofInt_of_le (by omega) (by omega)]

/-- What is not null is read as something present. -/
theorem Schema.read_option {s : Schema} {o : Origin} {v : Raw} (h : v ≠ .null) :
    (Schema.option s).read o v = (s.read o v).map .present := by
  cases v <;> first | exact absurd rfl h | rfl

namespace Origin

theorem ofJson_arrange_ne_null {o : Origin} {j : Json} (h : j ≠ .null) :
    Raw.ofJson (o.arrange j) ≠ .null := by
  cases o <;> cases j <;> first | exact absurd rfl h | nofun

/-- A free value is read in its canonical form. -/
theorem value?_arrange (o : Origin) {j : Json} (h : o.Holds j) :
    o.value? (Raw.ofJson (o.arrange j)) = some j.canonical := by
  cases o with
  | text room => exact Raw.toJson?_ofJson h
  | tree =>
    have hread := Raw.toJson?_ofJson (Nat.le_refl j.canonical.depth)
    rw [Json.canonical_canonical] at hread
    exact hread

end Origin

/-- What a record schema writes is an object. -/
theorem Schema.exists_write_eq : ∀ {s : Schema} {d : Datum}, s.isRecord = true → s.Tells d →
    ∃ ms, s.write d = .object ms
  | .record _, .record _, _, _ => ⟨_, rfl⟩
  | .guarded _ s, d, h, htell => by
    rw [Schema.write]
    exact Schema.exists_write_eq (s := s) h htell.1

/-- The datum of a variant without content is empty. -/
theorem Schema.eq_of_suits_unit : ∀ {s : Schema} {d : Datum}, Form.unit.suits s = true →
    s.Tells d → d = .record []
  | .record .nil, .record [], _, _ => rfl

section Variants

variable {name n : String} {form : Form} {s : Schema} {rest : Variants}

theorem Variants.readName_of_ne (h : n ≠ name) (k : Nat) :
    (Variants.cons name form s rest).readName n k = rest.readName n (k + 1) := by
  cases form <;> exact if_neg h

theorem Variants.readVariant_of_ne (h : n ≠ name) (o : Origin) (v : Raw) (k : Nat) :
    (Variants.cons name form s rest).readVariant o n v k = rest.readVariant o n v (k + 1) := by
  cases form <;> rw [Variants.readVariant.eq_def] <;> exact if_neg h

end Variants

/-- **A datum comes back** from what is written of it, at any origin with room for that. -/
def Schema.Recovers (s : Schema) (d : Datum) : Prop :=
  ∀ o : Origin, o.Holds (s.write d) → s.read o (Raw.ofJson (o.arrange (s.write d))) = .ok d

theorem Schema.recovers_int {w : Width} {i : Int} (h : w.Holds i) :
    (Schema.int w).Recovers (.int i) := by
  intro o _
  obtain ⟨n, hn, hi⟩ := exists_integer_eq h
  have hnumber : o.arrange (.number n) = .number n := by cases o <;> rfl
  rw [Schema.write, hn, hnumber, Raw.ofJson, Schema.read, readInt]
  simp only [hi]
  exact if_pos h

theorem Schema.recovers_bytes {length : Option Nat} {b : Bytes}
    (h : ∀ n, length = some n → b.length = n) : (Schema.bytes length).Recovers (.bytes b) := by
  intro o _
  have hlength : length.all (· = b.length) = true := by
    cases length with
    | none => rfl
    | some n => exact decide_eq_true (h n rfl).symm
  have hstring : o.arrange (.string (Hex.encode b)) = .string (Hex.encode b) := by
    cases o <;> rfl
  rw [Schema.write, hstring, Raw.ofJson, Schema.read, readBytes, Hex.decode_encode]
  simp only [hlength, if_true]

theorem Schema.recovers_list {s : Schema} {ds : List Datum} (h : ∀ d ∈ ds, s.Recovers d) :
    (Schema.list s).Recovers (.list ds) := by
  intro o ho
  obtain ⟨harrange, o', ho', hsame, hroom⟩ := o.arrange_array _ ho
  have hitems : ∀ d ∈ ds, s.read o' (Raw.ofJson (o.arrange (s.write d))) = .ok d := by
    intro d hd
    rw [← hsame]
    exact h d hd o' (hroom _ (List.mem_map_of_mem hd))
  have hread : ((ds.map s.write).map o.arrange).map Raw.ofJson
      = ds.map fun d => Raw.ofJson (o.arrange (s.write d)) := by
    rw [List.map_map, List.map_map]
    rfl
  rw [Schema.write, harrange, Raw.ofJson, ofItems_eq, Schema.read, ho']
  simp only [bind, Except.bind, hread, mapM_map_eq_ok hitems]
  rfl

/-- A record comes back if every member is read as what is told of its field. -/
theorem Schema.recovers_record {fs : Fields} {ds : List Datum} (hread : fs.areReadable = true)
    (hnames : fs.names.Nodup) (htell : fs.Tell ds)
    (h : ∀ o : Origin, (∀ m ∈ fs.write ds, o.Holds m.2) →
      List.Forall₂ (fun m e => m.1 = e.1 ∧ m.1 ∈ fs.names
          ∧ fs.readField o m.1 (Raw.ofJson (o.arrange m.2)) = some (.ok e.2))
        (fs.write ds) (fs.told ds)) :
    (Schema.record fs).Recovers (.record ds) := by
  intro o ho
  have htold : ((fs.told ds).map Prod.fst).Nodup := (fs.names_told_sublist ds).nodup hnames
  have hwritten : ((fs.write ds).map Prod.fst).Nodup := fs.names_told ds ▸ htold
  obtain ⟨ms, harrange, hperm, o', ho', hsame, hroom⟩ := o.arrange_object hwritten ho
  have hmembers : List.Forall₂ (fun m e => m.1 = e.1
        ∧ fs.readField o' m.1 (Raw.ofJson m.2) = some (.ok e.2))
      ((fs.write ds).map fun m => (m.1, o.arrange m.2)) (fs.told ds) :=
    List.forall₂_map_left_iff.mpr ((h o' hroom).imp fun m e hm => ⟨hm.1, hsame ▸ hm.2.2⟩)
  -- In whatever order the members stand, what they tell stands in the same.
  obtain ⟨found, hfound, htells⟩ := List.perm_comp_forall₂ hperm hmembers
  have hdistinct : (ms.map Prod.fst).Nodup := by
    rw [(hperm.map Prod.fst).nodup_iff, List.map_map]
    exact hwritten
  have hcomplete : fs.complete found.reverse = .ok ds :=
    fs.complete_told hread hnames htell fun name _ =>
      Found.get?_perm (found.reverse_perm.trans htells) htold name
  rw [Schema.write, harrange, Raw.ofJson, Schema.read, ho']
  simp only [bind, Except.bind, readMembers_eq_ok hfound hdistinct [] (by simp), List.append_nil,
    hcomplete]
  rfl

/-- A choice comes back if its variant is found by the name it is written under, be it alone or beside
its content. -/
theorem Schema.recovers_choice {vs : Variants} {i : Nat} {d : Datum} {name : String}
    (h : (vs.write i d = .string name ∧ vs.readName name 0 = .ok (.choice i d))
      ∨ ∃ j, vs.write i d = .object [(name, j)] ∧ ∀ o : Origin, o.Holds j →
        vs.readVariant o name (Raw.ofJson (o.arrange j)) 0 = .ok (.choice i d)) :
    (Schema.choice vs).Recovers (.choice i d) := by
  intro o ho
  rw [Schema.write] at ho ⊢
  obtain ⟨hwrite, hname⟩ | ⟨j, hwrite, hvariant⟩ := h
  · have hstring : o.arrange (.string name) = .string name := by cases o <;> rfl
    rw [hwrite, hstring, Raw.ofJson, Schema.read, hname]
  · rw [hwrite] at ho ⊢
    obtain ⟨ms, harrange, hperm, o', ho', hsame, hroom⟩ :=
      o.arrange_object (by simp) ho
    -- The one member is the same in any order.
    obtain rfl := List.perm_singleton.mp hperm
    have hread := hvariant o' (hroom _ List.mem_cons_self)
    rw [harrange, Raw.ofJson, Raw.ofMembers, Raw.ofMembers, Schema.read, ho']
    simp only [bind, Except.bind, entry, List.isEmpty_nil, or_true, if_true]
    rw [← hsame, hread]
    rfl

mutual

/-- **What is written is read back**, as it stands at any origin with room for it. -/
theorem Schema.read_write : ∀ (s : Schema) {o : Origin} {d : Datum}, s.isReadable = true →
    s.Tells d → o.Holds (s.write d) → s.read o (Raw.ofJson (o.arrange (s.write d))) = .ok d
  | .int w, o, .int i, _, h, ho => Schema.recovers_int h o ho
  | .bool, o, .bool b, _, _, _ => by cases o <;> rfl
  | .text, o, .text x, _, _, _ => by cases o <;> rfl
  | .bytes length, o, .bytes b, _, h, ho => Schema.recovers_bytes h o ho
  | .option s, o, .absent, _, _, _ => by cases o <;> rfl
  | .option s, o, .present d, hs, h, ho => by
    have ih := Schema.read_write s hs h.1 ho
    rw [Schema.write, Schema.read_option (Origin.ofJson_arrange_ne_null h.2), ih]
    rfl
  | .list s, o, .list ds, hs, h, ho =>
    Schema.recovers_list (fun d hd _ ho => Schema.read_write s hs (h d hd) ho) o ho
  | .record fs, o, .record ds, hs, h, ho => by
    rw [Schema.isReadable, Bool.and_eq_true, decide_eq_true_eq] at hs
    obtain ⟨hnames, hread⟩ := hs
    exact Schema.recovers_record hread hnames h (fun _ => Fields.read_write fs hread hnames h) o ho
  | .choice vs, o, .choice i d, hs, h, ho => by
    rw [Schema.isReadable, Bool.and_eq_true, decide_eq_true_eq] at hs
    obtain ⟨name, -, ih⟩ := Variants.read_write vs 0 hs.2 hs.1 h
    rw [Nat.zero_add] at ih
    exact Schema.recovers_choice ih o ho
  | .guarded guard s, o, d, hs, h, ho => by
    have ih := Schema.read_write s hs h.1 ho
    rw [Schema.write, Schema.read, ih]
    simp only [bind, Except.bind, h.2]
    rfl
  | .json, o, .json j, _, h, ho => by
    have hvalue : o.value? (Raw.ofJson (o.arrange j)) = some j.canonical := o.value?_arrange ho
    rw [Schema.write, Schema.read, hvalue, show j.canonical = j from h]

/-- The members of a record are read as what is told of it. -/
theorem Fields.read_write : ∀ (fs : Fields) {o : Origin} {ds : List Datum}, fs.areReadable = true →
    fs.names.Nodup → fs.Tell ds → (∀ m ∈ fs.write ds, o.Holds m.2) →
      List.Forall₂ (fun m e => m.1 = e.1 ∧ m.1 ∈ fs.names
          ∧ fs.readField o m.1 (Raw.ofJson (o.arrange m.2)) = some (.ok e.2))
        (fs.write ds) (fs.told ds)
  | .nil, o, [], _, _, _, _ => .nil
  | .cons name presence s rest, o, d :: ds, hread, hnames, htell, ho => by
    rw [Fields.areReadable, Bool.and_eq_true, Bool.and_eq_true] at hread
    obtain ⟨hname, hnames⟩ := List.nodup_cons.mp hnames
    rw [Fields.write_cons] at ho ⊢
    rw [Fields.told]
    have hrest : (∀ m ∈ rest.write ds, o.Holds m.2) → List.Forall₂ (fun m e => m.1 = e.1
        ∧ m.1 ∈ (Fields.cons name presence s rest).names
        ∧ (Fields.cons name presence s rest).readField o m.1 (Raw.ofJson (o.arrange m.2))
          = some (.ok e.2)) (rest.write ds) (rest.told ds) := by
      intro ho
      refine (Fields.read_write rest hread.2 hnames htell.2 ho).imp fun m e ⟨heq, hmem, hm⟩ => ?_
      have hne : m.1 ≠ name := fun h => hname (h ▸ hmem)
      refine ⟨heq, List.mem_cons_of_mem _ hmem, ?_⟩
      rw [Fields.readField, if_neg hne]
      exact hm
    split
    · rename_i homits
      rw [if_pos homits] at ho
      exact hrest ho
    · rename_i homits
      rw [if_neg homits, List.forall_mem_cons] at ho
      refine .cons ⟨rfl, List.mem_cons_self, ?_⟩ (hrest ho.2)
      rw [Fields.readField, if_pos rfl, Schema.read_write s hread.1.2 htell.1 ho.1]

/-- A variant is found by the name it is written under. -/
theorem Variants.read_write : ∀ (vs : Variants) {i : Nat} {d : Datum} (k : Nat),
    vs.areReadable = true → vs.names.Nodup → vs.Tell i d →
      ∃ name ∈ vs.names,
        (vs.write i d = .string name ∧ vs.readName name k = .ok (.choice (k + i) d))
        ∨ ∃ j, vs.write i d = .object [(name, j)] ∧ ∀ o : Origin, o.Holds j →
          vs.readVariant o name (Raw.ofJson (o.arrange j)) k = .ok (.choice (k + i) d)
  | .cons name form s rest, 0, d, k, hread, hnames, htell => by
    rw [Variants.areReadable, Bool.and_eq_true, Bool.and_eq_true] at hread
    refine ⟨name, List.mem_cons_self, ?_⟩
    cases form with
    | unit =>
      refine .inl ⟨rfl, ?_⟩
      have hd : d = .record [] := Schema.eq_of_suits_unit hread.1.1 htell
      rw [Variants.readName, if_pos rfl, hd]
      rfl
    | wrapped =>
      refine .inr ⟨s.write d, rfl, fun o ho => ?_⟩
      rw [Variants.readVariant, if_pos rfl, Schema.read_write s hread.1.2 htell ho]
      rfl
    | fields =>
      refine .inr ⟨s.write d, rfl, fun o ho => ?_⟩
      obtain ⟨ms, hms⟩ := Schema.exists_write_eq hread.1.1 htell
      have hcontent : isContent o (Raw.ofJson (o.arrange (s.write d))) = true := by
        rw [hms]
        cases o <;> rfl
      rw [Variants.readVariant, if_pos rfl, if_pos hcontent, Schema.read_write s hread.1.2 htell ho]
      rfl
  | .cons name form s rest, i + 1, d, k, hread, hnames, htell => by
    rw [Variants.areReadable, Bool.and_eq_true] at hread
    obtain ⟨hname, hnames⟩ := List.nodup_cons.mp hnames
    obtain ⟨n, hn, ih⟩ := Variants.read_write rest (k + 1) hread.2 hnames htell
    have hne : n ≠ name := fun h => hname (h ▸ hn)
    have hindex : k + 1 + i = k + (i + 1) := by omega
    rw [hindex] at ih
    refine ⟨n, List.mem_cons_of_mem _ hn, ?_⟩
    rw [Variants.write_succ]
    refine ih.imp (fun ⟨hw, hr⟩ => ⟨hw, ?_⟩) fun ⟨j, hw, hr⟩ => ⟨j, hw, fun o ho => ?_⟩
    · rw [Variants.readName_of_ne hne, hr]
    · rw [Variants.readVariant_of_ne hne, hr o ho]

end

/-! ## 6. What a written value contains -/

mutual

/-- **How deep a schema without free values nests.** -/
def Schema.nesting : Schema → Nat
  | .int _ | .bool | .text | .bytes _ | .json => 0
  | .option s | .guarded _ s => s.nesting
  | .list s => s.nesting + 1
  | .record fs => fs.nesting + 1
  | .choice vs => vs.nesting + 1

def Fields.nesting : Fields → Nat
  | .nil => 0
  | .cons _ _ s rest => max s.nesting rest.nesting

def Variants.nesting : Variants → Nat
  | .nil => 0
  | .cons _ _ s rest => max s.nesting rest.nesting

end

/-- **A value holds words, and nests so deep at the most.** -/
def IsSimple (n : Nat) (j : Json) : Prop :=
  j.isPlain = true ∧ j.depth ≤ n

namespace IsSimple

variable {n : Nat} {j : Json}

theorem mono {m : Nat} (h : IsSimple n j) (hle : n ≤ m) : IsSimple m j :=
  ⟨h.1, Nat.le_trans h.2 hle⟩

theorem null : IsSimple n .null := ⟨rfl, Nat.zero_le _⟩

theorem integer (i : Int) : IsSimple n (Json.integer i) := by
  have hlow : Int64.minValue.toInt = -2 ^ 63 := rfl
  unfold Json.integer
  cases hn : Json.Number.ofInt? i with
  | none => exact null
  | some number =>
    refine ⟨?_, Nat.zero_le _⟩
    simp only [Json.Number.ofInt?] at hn
    split at hn
    · split at hn <;> cases hn
      rfl
    · split at hn <;> cases hn
      have hword : (Int64.ofInt i).toInt = i := Int64.toInt_ofInt_of_le (by omega) (by omega)
      exact decide_eq_true (Int64.lt_iff_toInt_lt.mpr (by rw [hword]; exact Int.not_le.mp ‹_›))

theorem array {js : List Json} (h : ∀ j ∈ js, IsSimple n j) : IsSimple (n + 1) (.array js) :=
  ⟨Json.plainItems_iff.mpr fun j hj => (h j hj).1,
    Json.depth_array_le.mpr fun j hj => (h j hj).2⟩

theorem object {ms : List (String × Json)} (h : ∀ m ∈ ms, IsSimple n m.2) :
    IsSimple (n + 1) (.object ms) :=
  ⟨Json.plainMembers_iff.mpr fun m hm => (h m hm).1,
    Json.depth_object_le.mpr fun m hm => (h m hm).2⟩

theorem canonical (h : IsSimple n j) : IsSimple n j.canonical :=
  ⟨Json.isPlain_canonical h.1, Nat.le_trans j.depth_canonical_le h.2⟩

end IsSimple

mutual

/-- **Whatever is written of data without free values** holds words and nests no deeper than its
schema, also of data that do not fit it. -/
theorem Schema.isSimple_write : ∀ (s : Schema) (d : Datum), s.isBinary = true →
    IsSimple s.nesting (s.write d)
  | .int w, d, _ => by
    cases d <;> first | exact .integer _ | exact .null
  | .bool, d, _ => by
    cases d <;> exact ⟨rfl, Nat.zero_le _⟩
  | .text, d, _ => by
    cases d <;> exact ⟨rfl, Nat.zero_le _⟩
  | .bytes _, d, _ => by
    cases d <;> exact ⟨rfl, Nat.zero_le _⟩
  | .option s, d, h => by
    cases d with
    | present d => exact Schema.isSimple_write s d h
    | _ => exact .null
  | .list s, d, h => by
    cases d with
    | list ds =>
      exact .array (List.forall_mem_map.mpr fun d _ => Schema.isSimple_write s d h)
    | _ => exact .null
  | .record fs, d, h => by
    cases d with
    | record ds => exact .object (Fields.isSimple_write fs ds h)
    | _ => exact .null
  | .choice vs, d, h => by
    cases d with
    | choice i d =>
      rw [Schema.isBinary, Bool.and_eq_true] at h
      exact Variants.isSimple_write vs i d h.1
    | _ => exact .null
  | .guarded _ s, d, h => Schema.isSimple_write s d h

theorem Fields.isSimple_write : ∀ (fs : Fields) (ds : List Datum), fs.areBinary = true →
    ∀ m ∈ fs.write ds, IsSimple fs.nesting m.2
  | .nil, [], _ => nofun
  | .nil, _ :: _, _ => nofun
  | .cons _ _ _ _, [], _ => by
    rw [Fields.write_nil]
    nofun
  | .cons name presence s rest, d :: ds, h => by
    rw [Fields.areBinary, Bool.and_eq_true] at h
    have hrest := fun m hm =>
      (Fields.isSimple_write rest ds h.2 m hm).mono (Nat.le_max_right s.nesting _)
    rw [Fields.write_cons]
    split
    · exact hrest
    · exact List.forall_mem_cons.mpr
        ⟨(Schema.isSimple_write s d h.1).mono (Nat.le_max_left _ _), hrest⟩

theorem Variants.isSimple_write : ∀ (vs : Variants) (i : Nat) (d : Datum), vs.areBinary = true →
    IsSimple (vs.nesting + 1) (vs.write i d)
  | .nil, _, _, _ => .null
  | .cons name form s rest, 0, d, h => by
    rw [Variants.areBinary, Bool.and_eq_true] at h
    have hobject : IsSimple ((Variants.cons name form s rest).nesting + 1)
        (.object [(name, s.write d)]) :=
      .object (List.forall_mem_singleton.mpr
        ((Schema.isSimple_write s d h.1).mono (Nat.le_max_left _ _)))
    cases form with
    | unit => exact ⟨rfl, Nat.zero_le _⟩
    | wrapped => exact hobject
    | fields => exact hobject
  | .cons name form s rest, i + 1, d, h => by
    rw [Variants.areBinary, Bool.and_eq_true] at h
    have hrest := Variants.isSimple_write rest i d h.2
    rw [Variants.write_succ]
    exact hrest.mono (Nat.succ_le_succ (Nat.le_max_right _ _))

end

end Wire

end ShardLedger
