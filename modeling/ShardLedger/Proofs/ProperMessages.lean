import ShardLedger.Proofs.JsonForm
/-
Proper messages, and what becomes of them on the wire.

Readers are strict about three things: the components of an account identifier, the bytes of a key, and
the code of a status, which is read as a known status if there is one.  A message is proper if nothing in it
falls under that.  Then it survives the JSON form: it is read back as it was, from a tree and from a
text.
-/

set_option autoImplicit false

namespace ShardLedger

open Wire

/-! ## 1. Messages that travel unharmed -/

namespace Wired

variable {α : Type} [Wired α]

/-- **A value travels unharmed**: its data can be told in JSON, and it is recovered from them. -/
structure Travels (a : α) : Prop where
  told : (schema α).Tells (toDatum a)
  recovered : ofDatum? (toDatum a) = some a

/-- **What travels unharmed is read back** from its tree. -/
theorem Travels.ofTree_toTree {a : α} (h : Travels a) (hs : (schema α).isReadable = true) :
    ofTree (toTree a) = .ok a := by
  have hread := Schema.read_write (schema α) (o := .tree) hs h.told trivial
  have htree : (schema α).ofTree (toTree a) = .ok (toDatum a) := by
    rw [Schema.ofTree, toTree, Json.canonical_canonical]
    exact hread
  rw [ofTree, htree]
  simp only [bind, Except.bind, ofDatum, h.recovered]

/-- What travels unharmed is read back from its text, if the text holds words and nests no deeper than
a reader allows. -/
theorem Travels.ofChars_chars {a : α} (h : Travels a) (hs : (schema α).isReadable = true)
    (hsimple : IsSimple Json.Raw.maxDepth (toJson a)) : ofChars (toJson a).chars = .ok a := by
  have hread : (schema α).read (.text Json.Raw.maxDepth) (Json.Raw.ofJson (toJson a))
      = .ok (toDatum a) := Schema.read_write (schema α) hs h.told hsimple.2
  have htext : (schema α).ofChars (toJson a).chars = .ok (toDatum a) := by
    rw [Schema.ofChars, Json.Raw.ofChars_chars hsimple.1]
    simp only [bind, Except.bind, hread, if_true]
    rfl
  rw [ofChars, htext]
  simp only [bind, Except.bind, ofDatum, h.recovered]

theorem Travels.list {as : List α} (h : ∀ a ∈ as, Travels a) : Travels as where
  told := List.forall_mem_map.mpr fun a ha => (h a ha).told
  recovered := ofDatum?_toDatum_list fun a ha => (h a ha).recovered

theorem Travels.option {o : Option α} (h : ∀ a ∈ o, Travels a)
    (hnull : ∀ a ∈ o, (schema α).write (toDatum a) ≠ .null) : Travels o where
  told := by
    cases o with
    | none => trivial
    | some a => exact ⟨(h a rfl).told, hnull a rfl⟩
  recovered := ofDatum?_toDatum_option fun a ha => (h a ha).recovered

end Wired

open Wired (Travels)

namespace Wired

theorem travels_i64 (i : Int64) : Travels i := ⟨Width.holds_i64 i, ofDatum?_toDatum i⟩

theorem travels_u64 (n : UInt64) : Travels n := ⟨Width.holds_u64 n, ofDatum?_toDatum n⟩

theorem travels_bool (b : Bool) : Travels b := ⟨trivial, rfl⟩

theorem travels_text (s : String) : Travels s := ⟨trivial, rfl⟩

/-- Trees of messages without free values are simple. -/
theorem isSimple_toTree {α : Type} [Wired α] (a : α) (hs : (schema α).isBinary = true) :
    IsSimple (schema α).nesting (toTree a) :=
  (Schema.isSimple_write (schema α) (toDatum a) hs).canonical

end Wired

/-! ## 2. What readers are strict about -/

section Strict

/-- No guard stops an identifier without negative components. -/
theorem AccountId.guard_toDatum {id : AccountId} (h : id.Proper) :
    AccountId.guard (Wired.toDatum id) = none := by
  obtain ⟨shard, realm, account⟩ := id
  simp only [Wired.toDatum, AccountId.guard, AccountId.ofParts, Int64.ofInt_toInt, if_pos h]

theorem AccountId.Proper.travels {id : AccountId} (h : id.Proper) : Travels id where
  told := ⟨⟨Width.holds_i64 _, Width.holds_i64 _, Width.holds_i64 _, trivial⟩,
    AccountId.guard_toDatum h⟩
  recovered := Wired.ofDatum?_toDatum id

/-- An identifier is written as an object. -/
theorem AccountId.write_ne_null (id : AccountId) :
    (Wired.schema AccountId).write (Wired.toDatum id) ≠ .null := nofun

theorem Timestamp.travels (t : Timestamp) : Travels t where
  told := ⟨Width.holds_i64 _, Width.holds_i32 _, trivial⟩
  recovered := Wired.ofDatum?_toDatum t

/-- **An identifier of a transaction is proper** if the account in it is. -/
def TransactionId.Proper (id : TransactionId) : Prop :=
  id.accountId.Proper

theorem TransactionId.Proper.travels {id : TransactionId} (h : id.Proper) : Travels id where
  told := ⟨(AccountId.Proper.travels h).told, id.validStart.travels.told, trivial⟩
  recovered := Wired.ofDatum?_toDatum id

/-- **A key is proper** if it is a point of as many bytes as a key has. -/
def PublicKey.Proper [SignatureScheme] (k : PublicKey) : Prop :=
  k.bytes.length = 32 ∧ SignatureScheme.isPoint k.bytes = true

theorem PublicKey.Proper.travels [SignatureScheme] {k : PublicKey} (h : k.Proper) : Travels k where
  told := by
    refine ⟨⟨?_, trivial⟩, if_pos h.2⟩
    rintro n ⟨⟩
    exact h.1
  recovered := Wired.ofDatum?_toDatum k

/-- **A canonical status is read as it was.** -/
theorem Status.Canonical.travels {s : Status} (h : s.Canonical) : Travels s where
  told := Width.holds_i32 s.code
  recovered := by
    simp [Wired.toDatum, Wired.ofDatum?, Status.ofCode_code h]

end Strict

/-! ## 3. Requests -/

section Requests

/-- Bytes and signatures travel whatever they are. -/
theorem SignedTransaction.travels (t : SignedTransaction) : Travels t where
  told := by
    have hsignature : ∀ s : Signature, Travels s := fun s => ⟨⟨nofun, trivial⟩, rfl⟩
    exact ⟨nofun, (Travels.list fun s _ => hsignature s).told, trivial⟩
  recovered := Wired.ofDatum?_toDatum t

theorem Phase.travels (p : Phase) : Travels p := by
  cases p <;> exact ⟨trivial, rfl⟩

/-- **A question is proper** if the identifier in it is. -/
def Question.Proper : Question → Prop
  | .accountBalance id | .accountInfo id | .accountRecords id => id.Proper
  | .transactionReceipt id | .transactionRecord id => id.Proper

theorem Question.Proper.travels {q : Question} (h : q.Proper) : Travels q := by
  cases q with
  | accountBalance id | accountInfo id | accountRecords id =>
    have hid := AccountId.Proper.travels h
    exact ⟨⟨hid.told, trivial⟩, Option.map_eq_some_iff.mpr ⟨id, hid.recovered, rfl⟩⟩
  | transactionReceipt id | transactionRecord id =>
    have hid := TransactionId.Proper.travels h
    exact ⟨⟨hid.told, trivial⟩, Option.map_eq_some_iff.mpr ⟨id, hid.recovered, rfl⟩⟩

/-- **A request is proper** if its question is; a transaction is checked by the ledger. -/
def Request.Proper : Request → Prop
  | .transaction _ => True
  | .query q => q.question.Proper

theorem Query.travels {q : Query} (h : q.question.Proper) : Travels q := by
  obtain ⟨phase, question⟩ := q
  refine ⟨⟨phase.travels.told, (Question.Proper.travels h).told, trivial⟩, ?_⟩
  change (do return ⟨← Wired.ofDatum? (Wired.toDatum phase),
    ← Wired.ofDatum? (Wired.toDatum question)⟩ : Option Query) = _
  rw [phase.travels.recovered, (Question.Proper.travels h).recovered]
  rfl

end Requests

/-! ## 4. Responses -/

section Responses

/-- **A receipt is proper**: its status is canonical, and the account it names is proper. -/
structure Receipt.Proper (r : Receipt) : Prop where
  status : r.status.Canonical
  account : ∀ id ∈ r.accountId, id.Proper

theorem Receipt.Proper.travels {r : Receipt} (h : r.Proper) : Travels r := by
  obtain ⟨status, account⟩ := r
  have hstatus := h.status.travels
  have haccount : Travels account :=
    .option (fun id hid => (h.account id hid).travels) fun id _ => id.write_ne_null
  refine ⟨⟨hstatus.told, haccount.told, trivial⟩, ?_⟩
  change (do return ⟨← Wired.ofDatum? (Wired.toDatum status),
    ← Wired.ofDatum? (Wired.toDatum account)⟩ : Option Receipt) = _
  rw [hstatus.recovered, haccount.recovered]
  rfl

/-- **A record is proper**: the identifiers in it are, and its receipt is. -/
structure Record.Proper (r : Record) : Prop where
  id : r.id.Proper
  receipt : r.receipt.Proper
  transfers : ∀ a ∈ r.transfers, a.accountId.Proper

theorem AccountAmount.travels {a : AccountAmount} (h : a.accountId.Proper) : Travels a where
  told := ⟨(AccountId.Proper.travels h).told, Width.holds_i64 _, trivial⟩
  recovered := Wired.ofDatum?_toDatum a

theorem Record.Proper.travels {r : Record} (h : r.Proper) : Travels r := by
  obtain ⟨id, receipt, hash, consensus, memo, fee, transfers⟩ := r
  have hid := h.id.travels
  have hreceipt := h.receipt.travels
  have htransfers : Travels transfers := .list fun a ha => AccountAmount.travels (h.transfers a ha)
  refine ⟨⟨hid.told, hreceipt.told, nofun, consensus.travels.told, trivial, Width.holds_u64 fee,
    htransfers.told, trivial⟩, ?_⟩
  change (do return ⟨← Wired.ofDatum? (Wired.toDatum id), ← Wired.ofDatum? (Wired.toDatum receipt),
    hash, ← Wired.ofDatum? (Wired.toDatum consensus), ← Wired.ofDatum? (Wired.toDatum memo),
    ← Wired.ofDatum? (Wired.toDatum fee),
    ← Wired.ofDatum? (Wired.toDatum transfers)⟩ : Option Record) = _
  rw [hid.recovered, hreceipt.recovered, consensus.travels.recovered,
    (Wired.travels_text memo).recovered, (Wired.travels_u64 fee).recovered, htransfers.recovered]
  rfl

variable [SignatureScheme]

/-- **What is told of an account is proper** if its identifier and its key are. -/
structure AccountInfo.Proper (a : AccountInfo) : Prop where
  accountId : a.accountId.Proper
  key : a.key.Proper

theorem AccountInfo.Proper.travels {a : AccountInfo} (h : a.Proper) : Travels a := by
  obtain ⟨account, key, balance, deleted, seconds, expiration⟩ := a
  have haccount := h.accountId.travels
  have hkey := h.key.travels
  refine ⟨⟨haccount.told, hkey.told, Width.holds_u64 balance, trivial, Width.holds_i64 seconds,
    expiration.travels.told, trivial⟩, ?_⟩
  change (do return ⟨← Wired.ofDatum? (Wired.toDatum account), ← Wired.ofDatum? (Wired.toDatum key),
    ← Wired.ofDatum? (Wired.toDatum balance), ← Wired.ofDatum? (Wired.toDatum deleted),
    ← Wired.ofDatum? (Wired.toDatum seconds),
    ← Wired.ofDatum? (Wired.toDatum expiration)⟩ : Option AccountInfo) = _
  rw [haccount.recovered, hkey.recovered, (Wired.travels_u64 balance).recovered,
    (Wired.travels_bool deleted).recovered, (Wired.travels_i64 seconds).recovered,
    expiration.travels.recovered]
  rfl

/-- **An answer is proper** if all that it tells is. -/
def Answer.Proper : Answer → Prop
  | .accountBalance id _ => id.Proper
  | .accountInfo info => info.Proper
  | .accountRecords id records => id.Proper ∧ ∀ r ∈ records, r.Proper
  | .transactionReceipt receipt => receipt.Proper
  | .transactionRecord record => record.Proper

/-- An answer is written as an object. -/
theorem Answer.write_ne_null (a : Answer) : (Wired.schema Answer).write (Wired.toDatum a) ≠ .null := by
  cases a <;> nofun

theorem Answer.Proper.travels {a : Answer} (h : a.Proper) : Travels a := by
  cases a with
  | accountBalance id balance =>
    have hid := AccountId.Proper.travels h
    refine ⟨⟨hid.told, Width.holds_u64 balance, trivial⟩, ?_⟩
    change (do
      return .accountBalance (← Wired.ofDatum? (Wired.toDatum id))
        (← Wired.ofDatum? (Wired.toDatum balance)) : Option Answer) = _
    rw [hid.recovered, (Wired.travels_u64 balance).recovered]
    rfl
  | accountInfo info =>
    have hinfo := AccountInfo.Proper.travels h
    exact ⟨hinfo.told, Option.map_eq_some_iff.mpr ⟨info, hinfo.recovered, rfl⟩⟩
  | accountRecords id records =>
    have hid := AccountId.Proper.travels h.1
    have hrecords : Travels records := .list fun r hr => (h.2 r hr).travels
    refine ⟨⟨hid.told, hrecords.told, trivial⟩, ?_⟩
    change (do
      return .accountRecords (← Wired.ofDatum? (Wired.toDatum id))
        (← Wired.ofDatum? (Wired.toDatum records)) : Option Answer) = _
    rw [hid.recovered, hrecords.recovered]
    rfl
  | transactionReceipt receipt =>
    have hreceipt := Receipt.Proper.travels h
    exact ⟨hreceipt.told, Option.map_eq_some_iff.mpr ⟨receipt, hreceipt.recovered, rfl⟩⟩
  | transactionRecord record =>
    have hrecord := Record.Proper.travels h
    exact ⟨hrecord.told, Option.map_eq_some_iff.mpr ⟨record, hrecord.recovered, rfl⟩⟩

/-- **The response to a query is proper**: its status is canonical, and its answer is proper. -/
structure QueryResponse.Proper (r : QueryResponse) : Prop where
  precheck : r.precheck.Canonical
  answer : ∀ a ∈ r.answer, a.Proper

theorem QueryResponse.Proper.travels {r : QueryResponse} (h : r.Proper) : Travels r := by
  obtain ⟨precheck, phase, cost, answer⟩ := r
  have hprecheck := h.precheck.travels
  have hanswer : Travels answer :=
    .option (fun a ha => (h.answer a ha).travels) fun a _ => a.write_ne_null
  refine ⟨⟨hprecheck.told, phase.travels.told, Width.holds_u64 cost, hanswer.told, trivial⟩, ?_⟩
  change (do return ⟨← Wired.ofDatum? (Wired.toDatum precheck),
    ← Wired.ofDatum? (Wired.toDatum phase), ← Wired.ofDatum? (Wired.toDatum cost),
    ← Wired.ofDatum? (Wired.toDatum answer)⟩ : Option QueryResponse) = _
  rw [hprecheck.recovered, phase.travels.recovered, (Wired.travels_u64 cost).recovered,
    hanswer.recovered]
  rfl

/-- **A response is proper**: its status is canonical, or it is a proper response to a query. -/
def Response.Proper : Response → Prop
  | .transaction precheck => precheck.Canonical
  | .query r => r.Proper

end Responses

end ShardLedger
