import ShardLedger.Rpc.Envelope
/-
Values are recovered from their data.

A type that travels gives its values as data and takes values back from data.  That the two go together
is the first half of every round trip; the other half, that data survive being written, is a matter of
schemas alone.  For most types every value is recovered.  The exception is a status that was built from
a known code as an unrecognized one: it is read back under its name.  So values that hold a status are
recovered if the status is canonical.

The data of a body are recovered in their turn from the body that is read from them, as far as they fit
their schema; so different data are never read as one body.
-/

set_option autoImplicit false

namespace ShardLedger

open Wire

/-! ## 1. Types all of whose values are recovered -/

/-- **Every value is recovered from its data.** -/
class LawfulWired (α : Type) [Wired α] : Prop where
  recovered : ∀ a : α, Wired.ofDatum? (Wired.toDatum a) = some a

namespace Wired

variable {α : Type} [Wired α]

@[simp]
theorem ofDatum?_toDatum [LawfulWired α] (a : α) : Wired.ofDatum? (Wired.toDatum a) = some a :=
  LawfulWired.recovered a

/-- Values that are recovered one by one are recovered as a list. -/
theorem mapM_ofDatum?_map {as : List α}
    (h : ∀ a ∈ as, Wired.ofDatum? (Wired.toDatum a) = some a) :
    (as.map Wired.toDatum).mapM (Wired.ofDatum? (α := α)) = some as := by
  induction as with
  | nil => rfl
  | cons a as ih =>
    rw [List.map_cons, List.mapM_cons, h a List.mem_cons_self,
      ih fun b hb => h b (List.mem_cons_of_mem _ hb)]
    rfl

theorem ofDatum?_toDatum_list {as : List α}
    (h : ∀ a ∈ as, Wired.ofDatum? (Wired.toDatum a) = some a) :
    Wired.ofDatum? (Wired.toDatum as) = some as :=
  mapM_ofDatum?_map h

theorem ofDatum?_toDatum_option {o : Option α}
    (h : ∀ a ∈ o, Wired.ofDatum? (Wired.toDatum a) = some a) :
    Wired.ofDatum? (Wired.toDatum o) = some o := by
  cases o with
  | none => rfl
  | some a =>
    change (Wired.ofDatum? (Wired.toDatum a)).map some = _
    rw [h a rfl, Option.map_some]

/-- Values that are recovered are told by their data. -/
theorem toDatum_inj [LawfulWired α] {a b : α} (h : Wired.toDatum a = Wired.toDatum b) : a = b := by
  have ha := ofDatum?_toDatum a
  rw [h, ofDatum?_toDatum b] at ha
  exact (Option.some.inj ha).symm

end Wired

instance : LawfulWired Int32 := ⟨fun i => congrArg some (Int32.ofInt_toInt i)⟩

instance : LawfulWired Int64 := ⟨fun i => congrArg some (Int64.ofInt_toInt i)⟩

instance : LawfulWired UInt64 := ⟨fun n => congrArg some (by simp)⟩

instance : LawfulWired Bool := ⟨fun _ => rfl⟩

instance : LawfulWired String := ⟨fun _ => rfl⟩

instance {α : Type} [Wired α] [LawfulWired α] : LawfulWired (Option α) :=
  ⟨fun _ => Wired.ofDatum?_toDatum_option fun a _ => Wired.ofDatum?_toDatum a⟩

instance {α : Type} [Wired α] [LawfulWired α] : LawfulWired (List α) :=
  ⟨fun _ => Wired.ofDatum?_toDatum_list fun a _ => Wired.ofDatum?_toDatum a⟩

/-! ## 2. Identifiers, keys and signatures -/

instance : LawfulWired AccountId := ⟨fun ⟨shard, realm, account⟩ => by
  simp [Wired.toDatum, Wired.ofDatum?]⟩

instance : LawfulWired Timestamp := ⟨fun ⟨seconds, nanos⟩ => by
  simp [Wired.toDatum, Wired.ofDatum?]⟩

instance : LawfulWired TransactionId := ⟨fun ⟨account, start⟩ => by
  change (do return ⟨← Wired.ofDatum? (Wired.toDatum account),
    ← Wired.ofDatum? (Wired.toDatum start)⟩ : Option TransactionId) = _
  simp⟩

instance [SignatureScheme] : LawfulWired PublicKey := ⟨fun _ => rfl⟩

instance : LawfulWired Signature := ⟨fun _ => rfl⟩

/-! ## 3. Bodies and envelopes -/

instance : LawfulWired AccountAmount := ⟨fun ⟨account, amount⟩ => by
  change (do return ⟨← Wired.ofDatum? (Wired.toDatum account),
    ← Wired.ofDatum? (Wired.toDatum amount)⟩ : Option AccountAmount) = _
  simp⟩

section Bodies

variable [SignatureScheme]

instance : LawfulWired Creation := ⟨fun ⟨key, balance, seconds⟩ => by
  change (do return ⟨← Wired.ofDatum? (Wired.toDatum key),
    ← Wired.ofDatum? (Wired.toDatum balance),
    ← Wired.ofDatum? (Wired.toDatum seconds)⟩ : Option Creation) = _
  simp⟩

instance : LawfulWired Update := ⟨fun ⟨account, key, seconds⟩ => by
  change (do return ⟨← Wired.ofDatum? (Wired.toDatum account),
    ← Wired.ofDatum? (Wired.toDatum key),
    ← Wired.ofDatum? (Wired.toDatum seconds)⟩ : Option Update) = _
  simp⟩

omit [SignatureScheme] in
instance : LawfulWired Deletion := ⟨fun ⟨account, beneficiary⟩ => by
  change (do return ⟨← Wired.ofDatum? (Wired.toDatum account),
    ← Wired.ofDatum? (Wired.toDatum beneficiary)⟩ : Option Deletion) = _
  simp⟩

instance : LawfulWired Payload := ⟨fun p => by
  cases p with
  | create c =>
    change (Wired.ofDatum? (Wired.toDatum c)).map Payload.create = _
    simp
  | transfer legs =>
    change (Wired.ofDatum? (Wired.toDatum legs)).map Payload.transfer = _
    simp
  | update u =>
    change (Wired.ofDatum? (Wired.toDatum u)).map Payload.update = _
    simp
  | delete d =>
    change (Wired.ofDatum? (Wired.toDatum d)).map Payload.delete = _
    simp⟩

instance : LawfulWired TransactionBody :=
    ⟨fun ⟨id, node, fee, seconds, listed, memo, payload⟩ => by
  change (do return ⟨← Wired.ofDatum? (Wired.toDatum id), ← Wired.ofDatum? (Wired.toDatum node),
    ← Wired.ofDatum? (Wired.toDatum fee), ← Wired.ofDatum? (Wired.toDatum seconds),
    ← Wired.ofDatum? (Wired.toDatum listed), ← Wired.ofDatum? (Wired.toDatum memo),
    ← Wired.ofDatum? (Wired.toDatum payload)⟩ : Option TransactionBody) = _
  simp⟩

end Bodies

instance : LawfulWired SignedTransaction := ⟨fun ⟨bytes, signatures⟩ => by
  change (do return ⟨bytes, ← Wired.ofDatum? (Wired.toDatum signatures)⟩
    : Option SignedTransaction) = _
  simp⟩

/-! ## 4. Lines -/

namespace Rpc

instance : LawfulWired Json := ⟨fun _ => rfl⟩

instance : LawfulWired Method := ⟨fun m => by cases m <;> rfl⟩

instance : LawfulWired ErrorObject := ⟨fun ⟨code, message, data⟩ => by
  change (do return ⟨← Wired.ofDatum? (Wired.toDatum code),
    ← Wired.ofDatum? (Wired.toDatum message),
    ← Wired.ofDatum? (Wired.toDatum data)⟩ : Option ErrorObject) = _
  simp⟩

instance : LawfulWired RequestEnvelope := ⟨fun ⟨version, id, method, params⟩ => by
  change (do return ⟨← Wired.ofDatum? (Wired.toDatum version), ← Wired.ofDatum? (Wired.toDatum id),
    ← Wired.ofDatum? (Wired.toDatum method),
    ← Wired.ofDatum? (Wired.toDatum params)⟩ : Option RequestEnvelope) = _
  simp⟩

instance : LawfulWired ResponseEnvelope := ⟨fun ⟨version, id, result, error⟩ => by
  change (do return ⟨← Wired.ofDatum? (Wired.toDatum version), ← Wired.ofDatum? (Wired.toDatum id),
    ← Wired.ofDatum? (Wired.toDatum result),
    ← Wired.ofDatum? (Wired.toDatum error)⟩ : Option ResponseEnvelope) = _
  simp⟩

end Rpc

/-! ## 5. Data that are recovered -/

/-- **Data that fit their schema are recovered** from the value that is read from them. -/
class ExactWired (α : Type) [Wired α] : Prop where
  told : ∀ {d : Datum} {a : α}, (Wired.schema α).Fits d → Wired.ofDatum? d = some a →
    Wired.toDatum a = d

open ExactWired (told)

instance : ExactWired Int64 := ⟨fun {d a} hfits hread => by
  cases d with
  | int i =>
    obtain rfl := Option.some.inj hread
    exact congrArg Datum.int (Int64.toInt_ofInt_of_le hfits.1 hfits.2)
  | _ => cases hread⟩

instance : ExactWired UInt64 := ⟨fun {d a} hfits hread => by
  cases d with
  | int i =>
    obtain rfl := Option.some.inj hread
    obtain ⟨hpos, hlt⟩ := hfits
    have hword : i.toNat < 2 ^ 64 := by omega
    refine congrArg Datum.int ?_
    rw [UInt64.toNat_ofNat_of_lt' hword, Int.toNat_of_nonneg hpos]
  | _ => cases hread⟩

instance : ExactWired Bool := ⟨fun {d a} _ hread => by
  cases d with
  | bool b =>
    obtain rfl := Option.some.inj hread
    rfl
  | _ => cases hread⟩

instance : ExactWired String := ⟨fun {d a} _ hread => by
  cases d with
  | text s =>
    obtain rfl := Option.some.inj hread
    rfl
  | _ => cases hread⟩

instance {α : Type} [Wired α] [ExactWired α] : ExactWired (Option α) := ⟨fun {d a} hfits hread => by
  cases d with
  | absent =>
    obtain rfl := Option.some.inj hread
    rfl
  | present e =>
    obtain ⟨x, hx, rfl⟩ := Option.map_eq_some_iff.mp hread
    exact congrArg Datum.present (told hfits hx)
  | _ => cases hread⟩

/-- Data that are recovered one by one are recovered as a list. -/
theorem Wired.map_toDatum_of_mapM {α : Type} [Wired α] [ExactWired α] {ds : List Datum} {as : List α}
    (hfits : ∀ d ∈ ds, (schema α).Fits d) (hread : ds.mapM (Wired.ofDatum? (α := α)) = some as) :
    as.map Wired.toDatum = ds := by
  induction ds generalizing as with
  | nil =>
    obtain rfl := Option.some.inj hread
    rfl
  | cons d ds ih =>
    rw [List.mapM_cons] at hread
    obtain ⟨a, ha, hread⟩ := Option.bind_eq_some_iff.mp hread
    obtain ⟨as', has, hread⟩ := Option.bind_eq_some_iff.mp hread
    obtain rfl := Option.some.inj hread
    rw [List.map_cons, told (hfits d List.mem_cons_self) ha,
      ih (fun e he => hfits e (List.mem_cons_of_mem _ he)) has]

instance {α : Type} [Wired α] [ExactWired α] : ExactWired (List α) := ⟨fun {d a} hfits hread => by
  cases d with
  | list ds => exact congrArg Datum.list (Wired.map_toDatum_of_mapM hfits.2 hread)
  | _ => cases hread⟩

instance : ExactWired AccountId := ⟨fun {d a} hfits hread => by
  simp only [Wired.ofDatum?] at hread
  split at hread
  · rename_i shard realm account
    obtain rfl := Option.some.inj hread
    obtain ⟨⟨hshard, hrealm, haccount, -⟩, -⟩ := hfits
    simp only [Wired.toDatum, Int64.toInt_ofInt_of_le hshard.1 hshard.2,
      Int64.toInt_ofInt_of_le hrealm.1 hrealm.2, Int64.toInt_ofInt_of_le haccount.1 haccount.2]
  · cases hread⟩

instance : ExactWired Timestamp := ⟨fun {d a} hfits hread => by
  simp only [Wired.ofDatum?] at hread
  split at hread
  · obtain rfl := Option.some.inj hread
    obtain ⟨hseconds, hnanos, -⟩ := hfits
    simp only [Wired.toDatum, Int64.toInt_ofInt_of_le hseconds.1 hseconds.2,
      Int32.toInt_ofInt_of_le hnanos.1 hnanos.2]
  · cases hread⟩

instance : ExactWired TransactionId := ⟨fun {d a} hfits hread => by
  simp only [Wired.ofDatum?] at hread
  split at hread
  · obtain ⟨account, haccount, hread⟩ := Option.bind_eq_some_iff.mp hread
    obtain ⟨start, hstart, hread⟩ := Option.bind_eq_some_iff.mp hread
    obtain rfl := Option.some.inj hread
    obtain rfl := told hfits.1 haccount
    obtain rfl := told hfits.2.1 hstart
    rfl
  · cases hread⟩

instance : ExactWired AccountAmount := ⟨fun {d a} hfits hread => by
  simp only [Wired.ofDatum?] at hread
  split at hread
  · obtain ⟨account, haccount, hread⟩ := Option.bind_eq_some_iff.mp hread
    obtain ⟨amount, hamount, hread⟩ := Option.bind_eq_some_iff.mp hread
    obtain rfl := Option.some.inj hread
    obtain rfl := told hfits.1 haccount
    obtain rfl := told hfits.2.1 hamount
    rfl
  · cases hread⟩

instance : ExactWired Deletion := ⟨fun {d a} hfits hread => by
  simp only [Wired.ofDatum?] at hread
  split at hread
  · obtain ⟨account, haccount, hread⟩ := Option.bind_eq_some_iff.mp hread
    obtain ⟨beneficiary, hbeneficiary, hread⟩ := Option.bind_eq_some_iff.mp hread
    obtain rfl := Option.some.inj hread
    obtain rfl := told hfits.1 haccount
    obtain rfl := told hfits.2.1 hbeneficiary
    rfl
  · cases hread⟩

section Bodies

variable [SignatureScheme]

instance : ExactWired PublicKey := ⟨fun {d k} _ hread => by
  simp only [Wired.ofDatum?] at hread
  split at hread
  · obtain rfl := Option.some.inj hread
    rfl
  · cases hread⟩

instance : ExactWired Creation := ⟨fun {d c} hfits hread => by
  simp only [Wired.ofDatum?] at hread
  split at hread
  · obtain ⟨key, hkey, hread⟩ := Option.bind_eq_some_iff.mp hread
    obtain ⟨balance, hbalance, hread⟩ := Option.bind_eq_some_iff.mp hread
    obtain ⟨seconds, hseconds, hread⟩ := Option.bind_eq_some_iff.mp hread
    obtain rfl := Option.some.inj hread
    obtain rfl := told hfits.1 hkey
    obtain rfl := told hfits.2.1 hbalance
    obtain rfl := told hfits.2.2.1 hseconds
    rfl
  · cases hread⟩

instance : ExactWired Update := ⟨fun {d u} hfits hread => by
  simp only [Wired.ofDatum?] at hread
  split at hread
  · obtain ⟨account, haccount, hread⟩ := Option.bind_eq_some_iff.mp hread
    obtain ⟨key, hkey, hread⟩ := Option.bind_eq_some_iff.mp hread
    obtain ⟨seconds, hseconds, hread⟩ := Option.bind_eq_some_iff.mp hread
    obtain rfl := Option.some.inj hread
    obtain rfl := told hfits.1 haccount
    obtain rfl := told hfits.2.1 hkey
    obtain rfl := told hfits.2.2.1 hseconds
    rfl
  · cases hread⟩

instance : ExactWired Payload := ⟨fun {d p} hfits hread => by
  simp only [Wired.ofDatum?] at hread
  split at hread
  · obtain ⟨c, hc, rfl⟩ := Option.map_eq_some_iff.mp hread
    exact congrArg (Datum.choice 0) (told hfits hc)
  · obtain ⟨legs, hlegs, rfl⟩ := Option.map_eq_some_iff.mp hread
    obtain rfl := told hfits.1 hlegs
    rfl
  · obtain ⟨u, hu, rfl⟩ := Option.map_eq_some_iff.mp hread
    exact congrArg (Datum.choice 2) (told hfits hu)
  · obtain ⟨x, hx, rfl⟩ := Option.map_eq_some_iff.mp hread
    exact congrArg (Datum.choice 3) (told hfits hx)
  · cases hread⟩

instance : ExactWired TransactionBody := ⟨fun {d b} hfits hread => by
  simp only [Wired.ofDatum?] at hread
  split at hread
  · obtain ⟨id, hid, hread⟩ := Option.bind_eq_some_iff.mp hread
    obtain ⟨node, hnode, hread⟩ := Option.bind_eq_some_iff.mp hread
    obtain ⟨fee, hfee, hread⟩ := Option.bind_eq_some_iff.mp hread
    obtain ⟨seconds, hseconds, hread⟩ := Option.bind_eq_some_iff.mp hread
    obtain ⟨listed, hlisted, hread⟩ := Option.bind_eq_some_iff.mp hread
    obtain ⟨memo, hmemo, hread⟩ := Option.bind_eq_some_iff.mp hread
    obtain ⟨payload, hpayload, hread⟩ := Option.bind_eq_some_iff.mp hread
    obtain rfl := Option.some.inj hread
    obtain ⟨hid', hnode', hfee', hseconds', hlisted', hmemo', hpayload', -⟩ := hfits
    obtain rfl := told hid' hid
    obtain rfl := told hnode' hnode
    obtain rfl := told hfee' hfee
    obtain rfl := told hseconds' hseconds
    obtain rfl := told hlisted' hlisted
    obtain rfl := told hmemo' hmemo
    obtain rfl := told hpayload' hpayload
    rfl
  · cases hread⟩

end Bodies

end ShardLedger
