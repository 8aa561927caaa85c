import ShardLedger.Proofs.RecordAccuracy
/-
Which changes a record names.

The journal notes every change of a balance in full, but an amount of a record is a signed word, and
half of the balances that an account can have are beyond its end.  A change that has no word is left out
when the record is written.  So a record names an account exactly if its balance has changed by an amount
that fits, and whoever it names it names with the exact change; but an account that gains or loses half
the range of balances or more at once is not named at all, although it may be the one that changed most.
-/

set_option autoImplicit false

namespace ShardLedger

/-- **A record names an account.** -/
def Record.Names (r : Record) (id : AccountId) : Prop :=
  ∃ a ∈ r.transfers, a.accountId = id

/-- **A change that fits an amount** of a record, and is one. -/
def IsAmount (change : Int) : Prop :=
  change ≠ 0 ∧ -2 ^ 63 ≤ change ∧ change < 2 ^ 63

namespace Ledger

/-! ## 1. From the journal to the record -/

/-- **A record names what fits**: the accounts whose entry in its journal has a word and is not zero. -/
theorem names_iff {journal : Table AccountId Int} {r : Record}
    (hr : r.transfers = netChanges journal) (id : AccountId) :
    r.Names id ↔ IsAmount ((journal.get? id).getD 0) := by
  unfold Record.Names
  rw [hr]
  constructor
  · rintro ⟨a, ha, rfl⟩
    obtain ⟨hget, hne⟩ := mem_netChanges.mp ha
    rw [hget, Option.getD_some]
    exact ⟨hne, a.amount.le_toInt, a.amount.toInt_lt⟩
  · rintro ⟨hne, hlo, hhi⟩
    cases hget : journal.get? id with
    | none =>
      rw [hget] at hne
      exact absurd rfl hne
    | some delta =>
      rw [hget, Option.getD_some] at hne hlo hhi
      have hword := Int64.toInt_ofInt_of_le hlo hhi
      exact ⟨⟨id, Int64.ofInt delta⟩, mem_netChanges.mpr ⟨by rw [hget, hword], by rwa [hword]⟩, rfl⟩

/-- Whoever a record names it names with the entry of its journal. -/
theorem toInt_amount {journal : Table AccountId Int} {r : Record}
    (hr : r.transfers = netChanges journal) {a : AccountAmount} (ha : a ∈ r.transfers) :
    a.amount.toInt = (journal.get? a.accountId).getD 0 := by
  rw [hr] at ha
  rw [(mem_netChanges.mp ha).1, Option.getD_some]

/-! ## 2. Submissions -/

section Submission

variable [SignatureScheme] {c : Config} {l : Ledger} {t : SignedTransaction} {now : Timestamp}
  {body : TransactionBody} {payer : Account}

/-- What an admitted transaction does is all in its journal, if the next account is new. -/
theorem Admitted.accounted_outcome (ha : Admitted c l t now body payer)
    (hnew : l.accounts.get? (.simple l.nextAccount) = none) :
    Accounted l (outcome c l body now).2 := by
  refine (outcome_applied c l body now).accounted (accounted_charged c l body) ?_
  rw [(onlyAccounts_charged c l body).nextAccount, get?_charged ha, hnew, Option.map_none]

end Submission

/-- **Records name the changes that fit.**  Whatever the balances are, if the next account is new, the
record of an accepted transaction names an account exactly if its balance has changed by an amount that
a signed word holds, and with this very amount.

The work is in `Admitted.accounted_outcome`: the journal holds every change in full, and only what has no
word is lost when it is written down. -/
theorem submit_names_amounts [SignatureScheme] (c : Config) (l : Ledger) (t : SignedTransaction)
    (now : Timestamp) (hnew : l.accounts.get? (.simple l.nextAccount) = none)
    (h : (l.submit c t now).1 = .ok) :
    ∃ body r, t.body = .ok body ∧ (l.submit c t now).2.receipts.get? body.id = some r
      ∧ (∀ id, r.record.Names id ↔ IsAmount ((l.submit c t now).2.holding id - l.holding id))
      ∧ ∀ a ∈ r.record.transfers,
          a.amount.toInt = (l.submit c t now).2.holding a.accountId - l.holding a.accountId := by
  rcases submit_cases c l t now with ⟨status, hne, heq⟩ | ⟨body, payer, ha, heq⟩
  · rw [heq] at h
    exact absurd h hne
  · rw [heq]
    -- Pruning leaves the accounts, and keeping the receipt leaves those of the outcome.
    have haccounted := ha.accounted_outcome hnew
    have hentry : ∀ id, ((outcome c (l.prune now c.receiptRetention) body now).2.journal.get? id).getD 0
        = ((l.prune now c.receiptRetention).accept c t body now).holding id - l.holding id := by
      intro id
      rw [accept_eq]
      exact haccounted.entry id
    refine ⟨body, kept c (l.prune now c.receiptRetention) t body now, ha.decodes, ?_, ?_, ?_⟩
    · rw [get?_receipts_accept, if_pos rfl]
    · intro id
      rw [← hentry]
      exact names_iff rfl id
    · intro a ha
      rw [← hentry]
      exact toInt_amount rfl ha

end Ledger

/-! ## 3. A change that is not named -/

namespace Trial

/-- **The ledger for trials with a fortune**: the account to be deleted holds half the range. -/
def wealthyLedger : Ledger :=
  ledger.setBalance (.simple 4) 9223372036854775808

end Trial

namespace Ledger

open Trial in
set_option maxRecDepth 10000 in
/-- The deletion is accepted, and its record names the account that lost the fortune. -/
theorem submit_names_amounts_deletion :
    letI := scheme
    (wealthyLedger.accounts.get? (.simple wealthyLedger.nextAccount) = none
        ∧ (wealthyLedger.submit {} signedDeletion ⟨1001, 0⟩).1 = .ok)
      ∧ IsAmount ((wealthyLedger.submit {} signedDeletion ⟨1001, 0⟩).2.holding (.simple 4)
          - wealthyLedger.holding (.simple 4))
      ∧ ∃ r, (wealthyLedger.submit {} signedDeletion ⟨1001, 0⟩).2.receipts.get? deletion.id = some r
          ∧ r.record.Names (.simple 4) := by
  let := scheme
  have hnew : wealthyLedger.accounts.get? (.simple wealthyLedger.nextAccount) = none := by
    decide +kernel
  have h : (wealthyLedger.submit {} signedDeletion ⟨1001, 0⟩).1 = .ok := by decide +kernel
  have hchange : (wealthyLedger.submit {} signedDeletion ⟨1001, 0⟩).2.holding (.simple 4)
      - wealthyLedger.holding (.simple 4) = -2 ^ 63 := by decide +kernel
  have hamount : IsAmount (-2 ^ 63) := by
    unfold IsAmount
    omega
  have hbody : signedDeletion.body = .ok deletion := by decide +kernel
  obtain ⟨body, r, hdecodes, hr, hnames, -⟩ :=
    submit_names_amounts {} wealthyLedger signedDeletion ⟨1001, 0⟩ hnew h
  obtain rfl := Except.ok.inj (hdecodes.symm.trans hbody)
  rw [hchange]
  refine ⟨⟨hnew, h⟩, hamount, r, hr, (hnames _).mpr ?_⟩
  rw [hchange]
  exact hamount

open Trial in
set_option maxRecDepth 10000 in
/-- **The heir of a fortune is not named**: it gains half the range, which no signed word holds. -/
theorem fortune_unnamed :
    letI := scheme
    (wealthyLedger.submit {} signedDeletion ⟨1001, 0⟩).1 = .ok
      ∧ wealthyLedger.accounts.get? (.simple wealthyLedger.nextAccount) = none
      ∧ wealthyLedger.balance? (.simple 5) = some 0
      ∧ (wealthyLedger.submit {} signedDeletion ⟨1001, 0⟩).2.balance? (.simple 5)
          = some 9223372036854775808
      ∧ ((wealthyLedger.submit {} signedDeletion ⟨1001, 0⟩).2.receipts.get? deletion.id).map
          (fun r => r.record.transfers.map fun a => a.accountId) = some [.simple 2, .simple 4] := by
  decide +kernel

end Ledger

end ShardLedger
