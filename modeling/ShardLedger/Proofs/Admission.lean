import ShardLedger.Proofs.Outcomes
/-
Which transactions are accepted, and what accepting one does to each part of the ledger.

The checks before acceptance are a chain, and a transaction passes the chain exactly if it passes every
check.  A submission therefore has two cases.  It is refused, with a status that is never the one of
acceptance, and nothing but old receipts is gone; or everything listed below holds of it, its fee is
charged and it has one of the outcomes of an accepted transaction.
-/

set_option autoImplicit false

namespace ShardLedger

/-! ## 1. Refusals -/

/-- **What a transaction can be refused with.** -/
def refusals : List Status :=
  [.invalidTransactionBody, .invalidNodeAccount, .payerAccountNotFound, .accountDeleted,
    .invalidTransactionDuration, .invalidTransactionStart, .transactionExpired, .memoTooLong,
    .insufficientTxFee, .duplicateTransaction, .invalidSignature, .insufficientPayerBalance]

namespace Ledger

/-! ## 2. What accepting does -/

section Accept

variable (c : Config) (l : Ledger) (t : SignedTransaction) (body : TransactionBody)
  (now : Timestamp)

/-- **The ledger once the fee is charged**, before the transaction is applied. -/
def charged (c : Config) (l : Ledger) (body : TransactionBody) : Ledger :=
  chargeFee c { l with journal := .empty } body

/-- **What the transaction does** to the charged ledger: its receipt and the ledger after it. -/
def outcome (c : Config) (l : Ledger) (body : TransactionBody) (now : Timestamp) :
    Receipt × Ledger :=
  (charged c l body).apply body.id.accountId body.payload now

/-- **The receipt that is kept** of an accepted transaction. -/
def kept (c : Config) (l : Ledger) (t : SignedTransaction) (body : TransactionBody)
    (now : Timestamp) : Retained where
  record :=
    { id := body.id
      receipt := (outcome c l body now).1
      hash := t.hash
      consensus := l.nextConsensus now
      memo := body.memo
      fee := c.transactionFee
      transfers := netChanges (outcome c l body now).2.journal }
  listed := body.listed
  expiresAt := body.expiresAt
  remainingPolls := c.consensusPolls

/-- Charging the fee is a matter of accounts. -/
theorem onlyAccounts_charged : OnlyAccounts l (charged c l body) := by
  have h := onlyAccounts_chargeFee c { l with journal := .empty } body
  exact ⟨h.receipts, h.nextAccount, h.lastConsensus⟩

/-- The charged ledger has one of the outcomes. -/
theorem outcome_applied :
    Applied (charged c l body) body.id.accountId now body.payload
      (outcome c l body now).1 (outcome c l body now).2 :=
  applied_apply _ _ _ _

theorem lastConsensus_outcome : (outcome c l body now).2.lastConsensus = l.lastConsensus := by
  rw [(outcome_applied c l body now).frame.2, (onlyAccounts_charged c l body).lastConsensus]

theorem receipts_outcome : (outcome c l body now).2.receipts = l.receipts := by
  rw [(outcome_applied c l body now).frame.1, (onlyAccounts_charged c l body).receipts]

/-- **Every part of the ledger after accepting**: accounts and counter are those of the outcome, one
receipt is put in its place, the consensus time moves on, and the journal is empty. -/
theorem accept_eq :
    l.accept c t body now =
      { accounts := (outcome c l body now).2.accounts
        receipts := l.receipts.set body.id (kept c l t body now)
        nextAccount := (outcome c l body now).2.nextAccount
        lastConsensus := l.nextConsensus now
        journal := .empty } := by
  -- The time is taken after the transaction is applied, which has not moved the last one.
  have hc : (outcome c l body now).2.nextConsensus now = l.nextConsensus now := by
    rw [nextConsensus, nextConsensus, lastConsensus_outcome]
  have haccept : l.accept c t body now
      = (outcome c l body now).2.retain c t body (outcome c l body now).1 now := rfl
  rw [haccept, retain, receipts_outcome, hc]
  rfl

/-- A receipt after accepting. -/
theorem get?_receipts_accept (id : TransactionId) :
    (l.accept c t body now).receipts.get? id
      = if id = body.id then some (kept c l t body now) else l.receipts.get? id := by
  rw [accept_eq, Table.get?_set]

end Accept

/-! ## 3. The checks -/

/-- A check with another error succeeds exactly if it does. -/
theorem mapError_eq_ok {ε ε' α : Type} {x : Except ε α} {f : ε → ε'} {a : α} :
    x.mapError f = .ok a ↔ x = .ok a := by
  cases x <;> simp [Except.mapError]

/-- The payer of a transaction is an account that is there and not deleted. -/
theorem payer_eq_ok {l : Ledger} {id : AccountId} {a : Account} :
    l.payer id = .ok a ↔ l.accounts.get? id = some a ∧ a.deleted = false := by
  unfold payer
  cases l.accounts.get? id with
  | none => simp only [bind_eq_ok, reduceCtorEq, false_and, exists_false]
  | some b =>
    simp only [bind_eq_ok, require_eq_ok, exists_const, Bool.not_eq_true, Except.ok.injEq,
      Option.some.injEq]
    constructor
    · rintro ⟨a', rfl, hd, heq⟩
      obtain rfl := Except.ok.inj heq
      exact ⟨rfl, hd⟩
    · rintro ⟨rfl, hd⟩
      exact ⟨b, rfl, hd, rfl⟩

section Signing

variable [SignatureScheme]

/-- **A transaction that passes every check**, with its body and the account that pays. -/
structure Admitted (c : Config) (l : Ledger) (t : SignedTransaction) (now : Timestamp)
    (body : TransactionBody) (payer : Account) : Prop where
  decodes : t.body = .ok body
  served : body.node ∈ c.nodeAccounts
  pays : l.accounts.get? body.id.accountId = some payer
  live : payer.deleted = false
  validity : minValidSeconds ≤ body.validSeconds ∧ body.validSeconds ≤ maxValidSeconds
  started : body.id.validStart ≤ now.saturatingAdd maxStartAhead
  unexpired : now < body.expiresAt
  memo : body.memo.utf8ByteSize ≤ maxMemoBytes
  authorized : c.transactionFee ≤ body.fee
  fresh : l.receipts.get? body.id = none
  signed : isSignedBy (l.requiredKeys payer body.payload) t = true
  funded : c.transactionFee ≤ payer.balance

/-- The chain of checks gives a body exactly if every check holds of it. -/
theorem precheck_eq_ok {c : Config} {l : Ledger} {t : SignedTransaction} {now : Timestamp}
    {body : TransactionBody} :
    l.precheck c t now = .ok body ↔ ∃ payer, Admitted c l t now body payer := by
  have hcontains : ∀ {id}, ¬ l.receipts.contains id = true ↔ l.receipts.get? id = none := by
    intro id
    rw [Table.contains, Option.isSome_iff_ne_none, not_not]
  constructor
  -- Each check gives the field of its name, in the order of the chain.
  · intro h
    obtain ⟨b, hb, h⟩ := bind_eq_ok.mp h
    obtain ⟨_, hserved, h⟩ := bind_eq_ok.mp h
    obtain ⟨payer, hpayer, h⟩ := bind_eq_ok.mp h
    obtain ⟨_, hvalidity, h⟩ := bind_eq_ok.mp h
    obtain ⟨_, hstarted, h⟩ := bind_eq_ok.mp h
    obtain ⟨_, hunexpired, h⟩ := bind_eq_ok.mp h
    obtain ⟨_, hmemo, h⟩ := bind_eq_ok.mp h
    obtain ⟨_, hauthorized, h⟩ := bind_eq_ok.mp h
    obtain ⟨_, hfresh, h⟩ := bind_eq_ok.mp h
    obtain ⟨_, hsigned, h⟩ := bind_eq_ok.mp h
    obtain ⟨_, hfunded, h⟩ := bind_eq_ok.mp h
    obtain rfl := Except.ok.inj h
    obtain ⟨hpays, hlive⟩ := payer_eq_ok.mp hpayer
    exact ⟨payer,
      { decodes := mapError_eq_ok.mp hb
        served := require_eq_ok.mp hserved
        pays := hpays
        live := hlive
        validity := require_eq_ok.mp hvalidity
        started := require_eq_ok.mp hstarted
        unexpired := require_eq_ok.mp hunexpired
        memo := require_eq_ok.mp hmemo
        authorized := require_eq_ok.mp hauthorized
        fresh := hcontains.mp (require_eq_ok.mp hfresh)
        signed := require_eq_ok.mp hsigned
        funded := require_eq_ok.mp hfunded }⟩
  · rintro ⟨payer, h⟩
    refine bind_eq_ok.mpr ⟨body, mapError_eq_ok.mpr h.decodes, ?_⟩
    refine bind_eq_ok.mpr ⟨(), require_eq_ok.mpr h.served, ?_⟩
    refine bind_eq_ok.mpr ⟨payer, payer_eq_ok.mpr ⟨h.pays, h.live⟩, ?_⟩
    refine bind_eq_ok.mpr ⟨(), require_eq_ok.mpr h.validity, ?_⟩
    refine bind_eq_ok.mpr ⟨(), require_eq_ok.mpr h.started, ?_⟩
    refine bind_eq_ok.mpr ⟨(), require_eq_ok.mpr h.unexpired, ?_⟩
    refine bind_eq_ok.mpr ⟨(), require_eq_ok.mpr h.memo, ?_⟩
    refine bind_eq_ok.mpr ⟨(), require_eq_ok.mpr h.authorized, ?_⟩
    refine bind_eq_ok.mpr ⟨(), require_eq_ok.mpr (hcontains.mpr h.fresh), ?_⟩
    refine bind_eq_ok.mpr ⟨(), require_eq_ok.mpr h.signed, ?_⟩
    exact bind_eq_ok.mpr ⟨(), require_eq_ok.mpr h.funded, rfl⟩

omit [SignatureScheme] in
/-- An account that cannot pay is not there or is deleted. -/
theorem failsWith_payer (l : Ledger) (id : AccountId) :
    FailsWith [.payerAccountNotFound, .accountDeleted] (l.payer id) := by
  unfold payer
  cases l.accounts.get? id with
  | none => exact .error (by decide)
  | some a =>
    have hdeleted : Status.accountDeleted ∈ [Status.payerAccountNotFound, .accountDeleted] := by decide
    exact (FailsWith.ok a).bind fun a => (FailsWith.require hdeleted).bind fun _ => .ok a

/-- **The checks refuse with a refusal.** -/
theorem failsWith_precheck (c : Config) (l : Ledger) (t : SignedTransaction) (now : Timestamp) :
    FailsWith refusals (l.precheck c t now) := by
  have hbody : FailsWith refusals (t.body.mapError fun _ => Status.invalidTransactionBody) := by
    have hinvalid : Status.invalidTransactionBody ∈ refusals := by decide
    cases t.body with
    | error fault => exact .error hinvalid
    | ok b => exact .ok b
  have hpayer : ∀ id, FailsWith refusals (l.payer id) := fun id =>
    (failsWith_payer l id).mono (by decide)
  refine hbody.bind fun body => ?_
  refine (FailsWith.require (by decide)).bind fun _ => ?_
  refine (hpayer _).bind fun payer => ?_
  -- What is left of the chain are demands.
  refine (FailsWith.require (by decide)).bind fun _ => ?_
  refine (FailsWith.require (by decide)).bind fun _ => ?_
  refine (FailsWith.require (by decide)).bind fun _ => ?_
  refine (FailsWith.require (by decide)).bind fun _ => ?_
  refine (FailsWith.require (by decide)).bind fun _ => ?_
  refine (FailsWith.require (by decide)).bind fun _ => ?_
  refine (FailsWith.require (by decide)).bind fun _ => ?_
  exact (FailsWith.require (by decide)).bind fun _ => .ok body

/-- An account once the fee of an admitted transaction is charged. -/
theorem get?_charged {c : Config} {l : Ledger} {t : SignedTransaction} {now : Timestamp}
    {body : TransactionBody} {payer : Account} (ha : Admitted c l t now body payer)
    (k : AccountId) :
    (charged c l body).accounts.get? k
      = (l.accounts.get? k).map fun a => { a with balance := balanceAfterFee c body k a.balance } :=
  get?_chargeFee c { l with journal := .empty } body ha.pays ha.funded k

/-! ## 4. The two cases of a submission -/

section Submission

variable (c : Config) (l : Ledger) (t : SignedTransaction) (now : Timestamp)

/-- A submission is decided by the checks on the pruned ledger. -/
theorem submit_eq :
    l.submit c t now
      = match (l.prune now c.receiptRetention).precheck c t now with
        | .error status => (status, l.prune now c.receiptRetention)
        | .ok body => (.ok, (l.prune now c.receiptRetention).accept c t body now) := by
  unfold submit
  rfl

/-- **A submission is refused or accepted.**  Refused, it only drops old receipts.  Accepted, it passed
every check on the pruned ledger. -/
theorem submit_cases :
    (∃ status, status ≠ .ok
        ∧ l.submit c t now = (status, l.prune now c.receiptRetention))
      ∨ ∃ body payer, Admitted c (l.prune now c.receiptRetention) t now body payer
          ∧ l.submit c t now
              = (.ok, (l.prune now c.receiptRetention).accept c t body now) := by
  cases h : (l.prune now c.receiptRetention).precheck c t now with
  | error status =>
    have hrefusal := failsWith_precheck _ _ _ _ status h
    refine .inl ⟨status, ?_, by rw [submit_eq, h]⟩
    rintro rfl
    exact absurd hrefusal (by decide)
  | ok body =>
    obtain ⟨payer, ha⟩ := precheck_eq_ok.mp h
    exact .inr ⟨body, payer, ha, by rw [submit_eq, h]⟩

/-- **The status of a submission** is that of acceptance or a refusal. -/
theorem submit_status : (l.submit c t now).1 = .ok ∨ (l.submit c t now).1 ∈ refusals := by
  rw [submit_eq]
  cases h : (l.prune now c.receiptRetention).precheck c t now with
  | error status => exact .inr (failsWith_precheck _ _ _ _ status h)
  | ok body => exact .inl rfl

end Submission

end Signing

end Ledger

/-! ## 5. A transaction for trials -/

namespace Trial

/-- **A scheme for trials**: a key has one signature, its own bytes. -/
@[reducible]
def scheme : SignatureScheme where
  isPoint _ := true
  verify key _ signature := key.bytes = signature.bytes
  publicKey secret := ⟨secret.seed⟩
  sign secret _ := ⟨secret.seed⟩

/-- **The key of an account**: its number, over and over. -/
def key (number : UInt8) : PublicKey :=
  ⟨List.replicate 32 number⟩

/-- **A ledger for trials**, with a payer, an account that holds something and one that does not. -/
def ledger : Ledger :=
  (((Ledger.empty {}).createAccount (.simple 2) (key 2) 1000000 ⟨1000, 0⟩).createAccount
    (.simple 4) (key 4) 500 ⟨1000, 0⟩).createAccount (.simple 5) (key 5) 0 ⟨1000, 0⟩

/-- **A deletion**, at the cost of the payer. -/
def deletion : TransactionBody where
  id := ⟨.simple 2, ⟨1000, 0⟩⟩
  node := .simple 3
  fee := defaultFee
  validSeconds := 120
  listed := true
  memo := ""
  payload := .delete ⟨.simple 4, .simple 5⟩

/-- **The deletion, signed** by the payer and by the account that is deleted. -/
def signedDeletion : SignedTransaction where
  bodyBytes := letI := scheme; Wired.toBytes deletion
  signatures := [⟨(key 2).bytes⟩, ⟨(key 4).bytes⟩]

/-- **A body, signed** with the keys of the numbers. -/
def signedBy (numbers : List UInt8) (body : TransactionBody) : SignedTransaction where
  bodyBytes := letI := scheme; Wired.toBytes body
  signatures := numbers.map fun number => ⟨(key number).bytes⟩

/-- **A creation** for a key whose digits are letters. -/
def creation : TransactionBody :=
  { deletion with payload := .create ⟨key 0xab, 250, 7776000⟩ }

/-- **The creation, signed** by the payer. -/
def signedCreation : SignedTransaction where
  bodyBytes := letI := scheme; Wired.toBytes creation
  signatures := [⟨(key 2).bytes⟩]

end Trial

end ShardLedger
