import ShardLedger.Proofs.Admission
/-
What a transaction that fails leaves behind.

There are two ways to fail.  A transaction that is refused leaves the ledger as it was, except that
receipts kept long enough are gone.  A transaction that is accepted and then fails has paid: the fee
has gone from the payer to the node, the receipt says why, and the consensus time has moved on; but
whatever the handler checked or was about to write, the accounts are those that paying the fee left.
-/

set_option autoImplicit false

namespace ShardLedger.Ledger

/-! ## 1. Two degrees of intact -/

/-- **Nothing is gone but old receipts**: those whose validity and retention together do not reach
past the clock. -/
structure OnlyPruned (c : Config) (now : Timestamp) (l l' : Ledger) : Prop where
  accounts : l'.accounts = l.accounts
  nextAccount : l'.nextAccount = l.nextAccount
  lastConsensus : l'.lastConsensus = l.lastConsensus
  journal : l'.journal = l.journal
  receipts : ∀ id, l'.receipts.get? id
    = (l.receipts.get? id).filter fun r => decide (now < r.expiresAt.saturatingAdd c.receiptRetention)

/-- **Only the fee has moved**: from the payer, who had it, to the node, if there is one, as far as
there is room for it.  If the two are one account nothing has moved. -/
structure OnlyFee (c : Config) (body : TransactionBody) (l l' : Ledger) : Prop where
  payer : ∃ p, l.accounts.get? body.id.accountId = some p ∧ c.transactionFee ≤ p.balance
    ∧ l'.accounts.get? body.id.accountId
        = some (if body.id.accountId = body.node then p
            else { p with balance := p.balance - c.transactionFee })
  node : body.node ≠ body.id.accountId →
    l'.accounts.get? body.node = (l.accounts.get? body.node).map fun a =>
      { a with balance := saturateU64 (a.balance.toNat + c.transactionFee.toNat) }
  others : ∀ id, id ≠ body.id.accountId → id ≠ body.node →
    l'.accounts.get? id = l.accounts.get? id

/-- **A transaction failed after it was accepted**: only the fee has moved, the receipt is the one
that was added to those still kept, and the consensus time has moved on. -/
structure Failed (c : Config) (body : TransactionBody) (r : Retained) (now : Timestamp)
    (l l' : Ledger) : Prop where
  accounts : OnlyFee c body l l'
  nextAccount : l'.nextAccount = l.nextAccount
  lastConsensus : l'.lastConsensus = l.nextConsensus now
  journal : l'.journal = .empty
  fresh : (l.prune now c.receiptRetention).receipts.get? body.id = none
  receipts : ∀ id, l'.receipts.get? id
    = if id = body.id then some r
      else (l.receipts.get? id).filter fun r =>
        decide (now < r.expiresAt.saturatingAdd c.receiptRetention)

/-- Pruning leaves everything but receipts. -/
theorem onlyPruned_prune (c : Config) (now : Timestamp) (l : Ledger) :
    OnlyPruned c now l (l.prune now c.receiptRetention) where
  accounts := rfl
  nextAccount := rfl
  lastConsensus := rfl
  journal := rfl
  receipts := get?_receipts_prune l now c.receiptRetention

/-! ## 2. Submissions -/

section Submission

variable [SignatureScheme]

/-- Charging the fee of an admitted transaction moves the fee only. -/
theorem Admitted.onlyFee_charged {c : Config} {l : Ledger} {t : SignedTransaction}
    {now : Timestamp} {body : TransactionBody} {payer : Account}
    (ha : Admitted c l t now body payer) : OnlyFee c body l (charged c l body) where
  payer := by
    refine ⟨payer, ha.pays, ha.funded, ?_⟩
    rw [get?_charged ha, ha.pays, Option.map_some]
    unfold balanceAfterFee
    by_cases hpn : body.id.accountId = body.node
    · simp only [if_pos hpn]
    · simp only [if_neg hpn, if_true]
  node := by
    intro hne
    have hpn : ¬ body.id.accountId = body.node := fun h => hne h.symm
    rw [get?_charged ha]
    unfold balanceAfterFee
    simp only [if_neg hpn, if_neg hne, if_true]
  others := by
    intro id hp hn
    rw [get?_charged ha]
    unfold balanceAfterFee
    simp only [if_neg hp, if_neg hn, ite_self, Option.map_id']

/-- **Failed transactions leave the ledger intact.**  A refused one only drops old receipts.  An
accepted one whose receipt tells of a failure has, besides, paid its fee and left that receipt.

The work is in `Applied.eq_of_ne_success`, and in `Admitted.onlyFee_charged` for the fee. -/
theorem submit_failed_intact (c : Config) (l : Ledger) (t : SignedTransaction) (now : Timestamp) :
    ((l.submit c t now).1 ≠ .ok → OnlyPruned c now l (l.submit c t now).2)
      ∧ ((l.submit c t now).1 = .ok → ∃ body r, t.body = .ok body
          ∧ (l.submit c t now).2.receipts.get? body.id = some r
          ∧ (r.record.receipt.status ≠ .success →
              Failed c body r now l (l.submit c t now).2)) := by
  rcases submit_cases c l t now with ⟨status, hne, h⟩ | ⟨body, payer, ha, h⟩
  · rw [h]
    exact ⟨fun _ => onlyPruned_prune c now l, fun hok => absurd hok hne⟩
  · rw [h]
    refine ⟨absurd rfl, fun _ => ?_⟩
    refine ⟨body, kept c (l.prune now c.receiptRetention) t body now, ha.decodes, ?_, ?_⟩
    · rw [get?_receipts_accept, if_pos rfl]
    · intro hfail
      -- No handler writes unless it succeeds, so the outcome is the ledger that the fee left.
      have hout : (outcome c (l.prune now c.receiptRetention) body now).2
          = charged c (l.prune now c.receiptRetention) body :=
        (outcome_applied c _ body now).eq_of_ne_success hfail
      rw [accept_eq, hout]
      have hfee := ha.onlyFee_charged
      exact
        { accounts := ⟨hfee.payer, hfee.node, hfee.others⟩
          nextAccount := (onlyAccounts_charged c _ body).nextAccount
          lastConsensus := rfl
          journal := rfl
          fresh := ha.fresh
          receipts := fun id => by rw [Table.get?_set, get?_receipts_prune] }

end Submission

end ShardLedger.Ledger

namespace ShardLedger.Trial

/-- **A deletion that fails**: the account is to inherit from itself. -/
def selfDeletion : TransactionBody :=
  { deletion with payload := .delete ⟨.simple 4, .simple 4⟩ }

end ShardLedger.Trial

namespace ShardLedger.Ledger

open Trial in
set_option maxRecDepth 10000 in
/-- A transaction without a body is refused; the deletion in favour of the account itself is accepted and
fails. -/
theorem submit_failed_intact_selfDeletion :
    letI := scheme
    let after := (ledger.submit {} (signedBy [2, 4] selfDeletion) ⟨1001, 0⟩).2
    ((ledger.submit {} ⟨[], []⟩ ⟨1001, 0⟩).1 ≠ .ok
        ∧ OnlyPruned {} ⟨1001, 0⟩ ledger (ledger.submit {} ⟨[], []⟩ ⟨1001, 0⟩).2)
      ∧ (ledger.submit {} (signedBy [2, 4] selfDeletion) ⟨1001, 0⟩).1 = .ok
      ∧ ∃ r, after.receipts.get? selfDeletion.id = some r
        ∧ r.record.receipt.status = .transferAccountSameAsDeleteAccount
        ∧ Failed {} selfDeletion r ⟨1001, 0⟩ ledger after := by
  let := scheme
  intro after
  have hrefused : (ledger.submit {} ⟨[], []⟩ ⟨1001, 0⟩).1 ≠ .ok := by decide +kernel
  have haccepted : (ledger.submit {} (signedBy [2, 4] selfDeletion) ⟨1001, 0⟩).1 = .ok := by
    decide +kernel
  have hbody : (signedBy [2, 4] selfDeletion).body = .ok selfDeletion := by decide +kernel
  have hstatus : (after.receipts.get? selfDeletion.id).map (·.record.receipt.status)
      = some .transferAccountSameAsDeleteAccount := by decide +kernel
  obtain ⟨body, r, hsame, hr, hfailed⟩ :=
    (submit_failed_intact {} ledger (signedBy [2, 4] selfDeletion) ⟨1001, 0⟩).2 haccepted
  obtain rfl : selfDeletion = body := Except.ok.inj (hbody.symm.trans hsame)
  obtain ⟨r', hr', hfail⟩ := Option.map_eq_some_iff.mp hstatus
  obtain rfl : r' = r := Option.some.inj (hr'.symm.trans hr)
  refine ⟨⟨hrefused, ?_⟩, haccepted, r', hr', hfail, ?_⟩
  · exact (submit_failed_intact {} ledger ⟨[], []⟩ ⟨1001, 0⟩).1 hrefused
  · apply hfailed
    rw [hfail]
    decide

end ShardLedger.Ledger
