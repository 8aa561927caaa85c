import ShardLedger.Ledger.Submission
/-
What the moves of value do, one account at a time.

Debits, credits and settled balances each write the balance of one account and an entry of the
journal.  No other account changes, no account appears or vanishes, and the receipts, the counter and
the consensus time stay.  The look-ups below say so once, so that no later argument opens a move.
-/

set_option autoImplicit false

namespace ShardLedger

/-! ## 1. Words that stop -/

/-- Taking what is there at the most leaves the truncated difference. -/
theorem toNat_sub_min (amount balance : UInt64) :
    (balance - min amount balance).toNat = balance.toNat - amount.toNat := by
  have hmin : min amount balance = if amount ≤ balance then amount else balance := rfl
  rw [hmin]
  by_cases h : amount ≤ balance
  · rw [if_pos h, UInt64.toNat_sub_of_le _ _ h]
  · -- Less is there than is asked for, so all of it is taken.
    rw [if_neg h, UInt64.sub_self]
    have : balance.toNat < amount.toNat := by
      simpa [UInt64.le_iff_toNat_le] using h
    simp only [UInt64.toNat_zero]
    omega

/-- Taking no more than is there takes all that is asked. -/
theorem sub_min_of_le {amount balance : UInt64} (h : amount ≤ balance) :
    balance - min amount balance = balance - amount := by
  have hmin : min amount balance = if amount ≤ balance then amount else balance := rfl
  rw [hmin, if_pos h]

namespace Ledger

/-- **Two ledgers differ in accounts only**, and in the journal that is kept of them. -/
structure OnlyAccounts (l l' : Ledger) : Prop where
  receipts : l'.receipts = l.receipts
  nextAccount : l'.nextAccount = l.nextAccount
  lastConsensus : l'.lastConsensus = l.lastConsensus

theorem OnlyAccounts.trans {l l' l'' : Ledger} (h : OnlyAccounts l l')
    (h' : OnlyAccounts l' l'') : OnlyAccounts l l'' where
  receipts := h'.receipts.trans h.receipts
  nextAccount := h'.nextAccount.trans h.nextAccount
  lastConsensus := h'.lastConsensus.trans h.lastConsensus

section Single

variable (l : Ledger) (id k : AccountId) (amount : UInt64)

/-! ## 2. Debits and credits -/

/-- A debit writes the balance of one account. -/
theorem accounts_debit :
    (l.debit id amount).accounts
      = l.accounts.adjust id fun a => { a with balance := a.balance - min amount a.balance } := by
  unfold debit Table.adjust
  cases l.accounts.get? id <;> rfl

/-- A credit writes the balance of one account. -/
theorem accounts_credit :
    (l.credit id amount).accounts
      = l.accounts.adjust id fun a =>
          { a with balance := saturateU64 (a.balance.toNat + amount.toNat) } := by
  unfold credit Table.adjust
  cases l.accounts.get? id <;> rfl

/-- An account after a debit. -/
theorem get?_debit :
    (l.debit id amount).accounts.get? k
      = if k = id then
          (l.accounts.get? id).map fun a => { a with balance := a.balance - min amount a.balance }
        else l.accounts.get? k := by
  rw [accounts_debit, Table.get?_adjust]

/-- An account after a credit. -/
theorem get?_credit :
    (l.credit id amount).accounts.get? k
      = if k = id then
          (l.accounts.get? id).map fun a =>
            { a with balance := saturateU64 (a.balance.toNat + amount.toNat) }
        else l.accounts.get? k := by
  rw [accounts_credit, Table.get?_adjust]

/-- A debit is a matter of accounts. -/
theorem onlyAccounts_debit : OnlyAccounts l (l.debit id amount) := by
  unfold debit
  cases l.accounts.get? id <;> exact ⟨rfl, rfl, rfl⟩

/-- A credit is a matter of accounts. -/
theorem onlyAccounts_credit : OnlyAccounts l (l.credit id amount) := by
  unfold credit
  cases l.accounts.get? id <;> exact ⟨rfl, rfl, rfl⟩

end Single

/-! ## 3. The fee -/

section Fee

variable (c : Config) (l : Ledger) (body : TransactionBody)

/-- A fee is a matter of accounts. -/
theorem onlyAccounts_chargeFee : OnlyAccounts l (chargeFee c l body) :=
  (onlyAccounts_debit l _ _).trans (onlyAccounts_credit _ _ _)

/-- **What the fee leaves on a balance**: the payer has that much less, the node that much more as
far as it has room, and a payer that is the node has what it had. -/
def balanceAfterFee (c : Config) (body : TransactionBody) (id : AccountId) (balance : UInt64) :
    UInt64 :=
  if body.id.accountId = body.node then balance
  else if id = body.id.accountId then balance - c.transactionFee
  else if id = body.node then saturateU64 (balance.toNat + c.transactionFee.toNat)
  else balance

/-- An account after the fee was charged to a payer that can pay it. -/
theorem get?_chargeFee {payer : Account} (hp : l.accounts.get? body.id.accountId = some payer)
    (hf : c.transactionFee ≤ payer.balance) (k : AccountId) :
    (chargeFee c l body).accounts.get? k
      = (l.accounts.get? k).map fun a => { a with balance := balanceAfterFee c body k a.balance } := by
  rw [chargeFee, get?_credit, get?_debit, get?_debit]
  unfold balanceAfterFee
  by_cases hpn : body.id.accountId = body.node
  · -- The payer is the node: what was taken is given back, and fits because it was there before.
    have hback : saturateU64 ((payer.balance - c.transactionFee).toNat + c.transactionFee.toNat)
        = payer.balance := by
      have hle := UInt64.le_iff_toNat_le.mp hf
      rw [UInt64.toNat_sub_of_le _ _ hf, Nat.sub_add_cancel hle, saturateU64_toNat]
    simp only [← hpn, if_pos]
    by_cases hk : k = body.id.accountId
    · rw [if_pos hk, hk, hp]
      simp only [Option.map_some, sub_min_of_le hf, hback]
    · rw [if_neg hk, if_neg hk, Option.map_id']
  · -- The payer and the node are two accounts, so the debit and the credit do not meet.
    have hnp : ¬ body.node = body.id.accountId := fun h => hpn h.symm
    rw [if_neg hnp]
    simp only [if_neg hpn]
    by_cases hk : k = body.node
    · rw [hk]
      simp only [if_neg hnp, ↓reduceIte]
    · rw [if_neg hk]
      by_cases hkp : k = body.id.accountId
      · rw [hkp, if_pos rfl, hp]
        simp only [Option.map_some, sub_min_of_le hf, ↓reduceIte]
      · simp only [if_neg hk, if_neg hkp, Option.map_id']

end Fee

/-! ## 4. Pruning -/

section Prune

/-- A receipt after old receipts were dropped. -/
theorem get?_receipts_prune (l : Ledger) (now : Timestamp) (retention : Duration) (id : TransactionId) :
    (l.prune now retention).receipts.get? id
      = (l.receipts.get? id).filter fun r => decide (now < r.expiresAt.saturatingAdd retention) := by
  rw [prune, Table.get?_filter]

variable {l : Ledger} {now : Timestamp} {retention : Duration} {id : TransactionId} {r : Retained}

/-- A receipt stays while its retention lasts. -/
theorem get?_receipts_prune_of_lt (hr : l.receipts.get? id = some r)
    (hlt : now < r.expiresAt.saturatingAdd retention) :
    (l.prune now retention).receipts.get? id = some r := by
  rw [get?_receipts_prune, hr]
  exact Option.filter_some_pos (decide_eq_true hlt)

/-- A receipt goes when its retention is over. -/
theorem get?_receipts_prune_of_not_lt (hr : l.receipts.get? id = some r)
    (hover : ¬ now < r.expiresAt.saturatingAdd retention) :
    (l.prune now retention).receipts.get? id = none := by
  rw [get?_receipts_prune, hr]
  exact Option.filter_some_neg (decide_eq_false hover)

end Prune

end Ledger

end ShardLedger
