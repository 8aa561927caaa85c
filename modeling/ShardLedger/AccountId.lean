import ShardLedger.Text.Quoted
import ShardLedger.Text.Decimal
/-
Account identifiers.

An account is addressed by three numbers, its shard, its realm and its number within the realm.  In
every listing, comparison and text the three come in this order.  Identifiers that come from outside
have no negative component: the text form cannot write one, and every decoder refuses one.
-/

set_option autoImplicit false

namespace ShardLedger

/-- **What a text should have been** when it was refused as an identifier. -/
inductive IdentifierKind where
  | accountId
  | transactionId
  | timestamp
deriving DecidableEq, Repr

/-- **The name of an identifier kind** in messages. -/
def IdentifierKind.label : IdentifierKind → String
  | .accountId => "account id"
  | .transactionId => "transaction id"
  | .timestamp => "timestamp"

/-- **A refused identifier**, with the whole input. -/
structure Malformed where
  kind : IdentifierKind
  input : String
deriving DecidableEq

/-- **The message of a refusal.** -/
def Malformed.message (m : Malformed) : String :=
  "malformed " ++ m.kind.label ++ ": " ++ Text.quoted m.input

/-- **An account identifier**: shard, realm and account number. -/
structure AccountId where
  shard : Int64
  realm : Int64
  account : Int64
deriving DecidableEq, Repr

namespace AccountId

/-- **An account of shard 0 and realm 0.** -/
def simple (account : Int64) : AccountId :=
  ⟨0, 0, account⟩

/-- **No component is negative.** -/
def Proper (id : AccountId) : Prop :=
  0 ≤ id.shard ∧ 0 ≤ id.realm ∧ 0 ≤ id.account

instance (id : AccountId) : Decidable id.Proper :=
  inferInstanceAs (Decidable (_ ∧ _))

/-- **The order of identifiers**: by shard, then realm, then account number. -/
def order : AccountId → AccountId → Ordering :=
  compareLex (compareOn shard) (compareLex (compareOn realm) (compareOn account))

instance : Ord AccountId := ⟨order⟩

/-- **The text form**: the three numbers with dots between them. -/
def chars (id : AccountId) : List Char :=
  Text.integer id.shard.toInt ++ '.' :: Text.integer id.realm.toInt
    ++ '.' :: Text.integer id.account.toInt

/-- **The text form** as a string. -/
def text (id : AccountId) : String :=
  String.ofList id.chars

/-- **An identifier of three components**, refused if one is negative. -/
def ofParts (shard realm account : Int64) : Except Malformed AccountId :=
  let id : AccountId := ⟨shard, realm, account⟩
  if id.Proper then .ok id else .error ⟨.accountId, id.text⟩

/-- **One component of the text form**: a digit string within the signed 64-bit range. -/
def component? (cs : List Char) : Option Int64 := do
  let n ← Text.number? cs
  if n < 2 ^ 63 then some (Int64.ofNat n) else none

/-- **Read the text form**: exactly three components with single dots between them. -/
def ofChars? (cs : List Char) : Option AccountId :=
  match Text.parts '.' cs with
  | [s, r, a] => do
    let shard ← component? s
    let realm ← component? r
    let account ← component? a
    return ⟨shard, realm, account⟩
  | _ => none

/-- **Read the text form**, or refuse the whole input. -/
def parse (s : String) : Except Malformed AccountId :=
  match ofChars? s.toList with
  | some id => .ok id
  | none => .error ⟨.accountId, s⟩

/-! ## The order is total -/

instance : Std.TransOrd AccountId :=
  inferInstanceAs
    (Std.TransCmp (compareLex (compareOn shard) (compareLex (compareOn realm) (compareOn account))))

instance : Std.LawfulEqOrd AccountId where
  eq_of_compare := by
    intro a b h
    change order a b = .eq at h
    obtain ⟨s, r, n⟩ := a
    obtain ⟨s', r', n'⟩ := b
    simp only [order, compareLex, compareOn, Ordering.then_eq_eq,
      Std.LawfulEqOrd.compare_eq_iff_eq] at h
    simp_all

end AccountId

end ShardLedger
