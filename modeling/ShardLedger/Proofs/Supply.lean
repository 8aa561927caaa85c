import ShardLedger.Proofs.Admission
import ShardLedger.Proofs.TableTotal
/-
Conservation of the supply.

The supply of a ledger is the sum of all balances.  No submission adds to it.  If the supply fits one
word, as it does wherever balances were dealt out of one word to begin with, then no credit can run
into the end of its word, because the account credited and what is credited to it are parts of one
supply; and if the number for the next account is not taken, then no creation can write over an
account.  Under these two conditions value is only ever moved, with one exception: a fee that is
charged for a node without an account leaves the ledger.
-/

set_option autoImplicit false

namespace ShardLedger.Ledger

/-- **The supply**: all balances together. -/
def supply (l : Ledger) : Nat :=
  l.accounts.total fun a => a.balance.toNat

/-! ## 1. Debits and credits -/

section Moves

variable {l : Ledger} {id : AccountId} {a : Account} {amount : UInt64}

/-- No account holds more than the supply. -/
theorem balance_le_supply (ha : l.accounts.get? id = some a) : a.balance.toNat ≤ l.supply :=
  Table.le_total ha fun a => a.balance.toNat

/-- A debit that the account can bear takes its amount out. -/
theorem supply_debit (ha : l.accounts.get? id = some a) (h : amount ≤ a.balance) :
    (l.debit id amount).supply + amount.toNat = l.supply := by
  have hle := UInt64.le_iff_toNat_le.mp h
  have ht := Table.total_adjust_of_some ha (fun a => a.balance.toNat)
    fun a => { a with balance := a.balance - min amount a.balance }
  rw [← accounts_debit] at ht
  simp only [toNat_sub_min] at ht
  simp only [supply]
  omega

/-- A credit puts no more than its amount in. -/
theorem supply_credit_le (l : Ledger) (id : AccountId) (amount : UInt64) :
    (l.credit id amount).supply ≤ l.supply + amount.toNat := by
  cases ha : l.accounts.get? id with
  | none =>
    have hsame : l.credit id amount = l := by
      unfold credit
      rw [ha]
    rw [hsame]
    omega
  | some a =>
    have ht := Table.total_adjust_of_some ha (fun a => a.balance.toNat)
      fun a => { a with balance := saturateU64 (a.balance.toNat + amount.toNat) }
    rw [← accounts_credit] at ht
    simp only [toNat_saturateU64] at ht
    simp only [supply]
    omega

/-- A credit that the word of the supply has room for puts all of its amount in. -/
theorem supply_credit (ha : l.accounts.get? id = some a)
    (hroom : l.supply + amount.toNat < 2 ^ 64) :
    (l.credit id amount).supply = l.supply + amount.toNat := by
  -- The balance and what is added to it are parts of one word.
  have hle := balance_le_supply ha
  have ht := Table.total_adjust_of_some ha (fun a => a.balance.toNat)
    fun a => { a with balance := saturateU64 (a.balance.toNat + amount.toNat) }
  rw [← accounts_credit] at ht
  simp only [toNat_saturateU64] at ht
  simp only [supply] at hle hroom ⊢
  omega

end Moves

/-! ## 2. The fee -/

section Fee

variable {c : Config} {l : Ledger} {body : TransactionBody} {payer : Account}

/-- What the payer is charged is all that can be missing, and all that can come back. -/
theorem supply_chargeFee_le (hp : l.accounts.get? body.id.accountId = some payer)
    (hf : c.transactionFee ≤ payer.balance) : (chargeFee c l body).supply ≤ l.supply := by
  have hd := supply_debit hp hf
  have hc := supply_credit_le (l.debit body.id.accountId c.transactionFee) body.node
    c.transactionFee
  rw [chargeFee]
  omega

/-- A fee that reaches its node stays in the ledger. -/
theorem supply_chargeFee_of_node (hp : l.accounts.get? body.id.accountId = some payer)
    (hf : c.transactionFee ≤ payer.balance) (hn : (l.accounts.get? body.node).isSome)
    (hfits : l.supply < 2 ^ 64) : (chargeFee c l body).supply = l.supply := by
  have hd := supply_debit hp hf
  -- The node is there after the debit too, even if it is the payer.
  obtain ⟨node, hnode⟩ : ∃ node,
      (l.debit body.id.accountId c.transactionFee).accounts.get? body.node = some node := by
    rw [← Option.isSome_iff_exists, get?_debit]
    by_cases h : body.node = body.id.accountId
    · rw [if_pos h, Option.isSome_map, hp, Option.isSome_some]
    · rw [if_neg h]
      exact hn
  rw [chargeFee, supply_credit hnode (by omega)]
  exact hd

/-- A fee for a node without an account leaves the ledger. -/
theorem supply_chargeFee_of_no_node (hp : l.accounts.get? body.id.accountId = some payer)
    (hf : c.transactionFee ≤ payer.balance) (hn : l.accounts.get? body.node = none) :
    (chargeFee c l body).supply + c.transactionFee.toNat = l.supply := by
  have hne : ¬ body.node = body.id.accountId := fun h => by
    rw [h, hp] at hn
    cases hn
  have hsame : chargeFee c l body = l.debit body.id.accountId c.transactionFee := by
    rw [chargeFee, credit, get?_debit, if_neg hne, hn]
  rw [hsame]
  exact supply_debit hp hf

end Fee

/-! ## 3. Settlements -/

/-- Settled balances add up to the supply with all net amounts.  The induction is on the entries: each
is written once, so the next ones still settle their own accounts. -/
theorem supply_foldl_settle {settled : List (AccountId × UInt64 × Int)} {l : Ledger}
    (hn : (settled.map Prod.fst).Nodup) (hs : ∀ e ∈ settled, l.Settles e.1 e.2.2 e.2.1) :
    ((settled.foldl settle l).supply : Int)
      = l.supply + (settled.map fun e => e.2.2).sum := by
  induction settled generalizing l with
  | nil => simp
  | cons e settled ih =>
    rw [List.map_cons, List.nodup_cons] at hn
    obtain ⟨a, ha, -, hbalance⟩ := hs e List.mem_cons_self
    have hstep : ((settle l e).supply : Int) = l.supply + e.2.2 := by
      have ht := Table.total_adjust_of_some ha (fun a => a.balance.toNat)
        fun a => { a with balance := e.2.1 }
      have haccounts : (settle l e).accounts
          = l.accounts.adjust e.1 fun a => { a with balance := e.2.1 } := rfl
      rw [← haccounts] at ht
      simp only [supply] at ht ⊢
      omega
    -- The accounts ahead are others, so they still have what they had.
    have hrest : ∀ x ∈ settled, (settle l e).Settles x.1 x.2.2 x.2.1 := by
      intro x hx
      have hne : x.1 ≠ e.1 := fun h => hn.1 (h ▸ List.mem_map_of_mem hx)
      exact (hs x (List.mem_cons_of_mem _ hx)).settle_of_ne hne
    rw [List.foldl_cons, ih hn.2 hrest, hstep, List.map_cons, List.sum_cons]
    omega

/-- A transfer whose net amounts sum to zero keeps the supply. -/
theorem supply_transferred {l : Ledger} {net : Table AccountId Int}
    {settled : List (AccountId × UInt64 × Int)} (hz : net.values.sum = 0)
    (h : l.settlement net.entries = .ok settled) :
    (settled.foldl settle l).supply = l.supply := by
  obtain ⟨hmap, hall⟩ := settlement_entries h
  have hsum : (settled.map fun e => e.2.2).sum = 0 := by
    rw [← hz, Table.values, ← hmap, List.map_map, Function.comp_def]
  have hs := supply_foldl_settle (nodup_settled h) hall
  rw [hsum] at hs
  omega

/-! ## 4. What an accepted transaction does to the supply -/

section Applied

variable {l l' : Ledger} {payer : AccountId} {now : Timestamp} {payload : Payload}
  {receipt : Receipt}

/-- The payer is an account, so a debit does not open the next one. -/
theorem get?_debit_eq_none (hnew : l.accounts.get? (.simple l.nextAccount) = none) {a : Account}
    (pays : l.accounts.get? payer = some a) (amount : UInt64) :
    (l.debit payer amount).accounts.get? (.simple l.nextAccount) = none := by
  have hne : ¬ AccountId.simple l.nextAccount = payer := fun h => by
    rw [h, pays] at hnew
    cases hnew
  rw [get?_debit, if_neg hne, hnew]

/-- Opening an empty account that was not there keeps the supply. -/
theorem supply_open {id : AccountId} (hnone : l.accounts.get? id = none) (key : PublicKey)
    (period : Duration) (now : Timestamp) (next : Int64) :
    Ledger.supply
        { l with nextAccount := next, accounts := l.accounts.set id (.opened key 0 period now) }
      = l.supply :=
  Table.total_set_of_none hnone (fun a => a.balance.toNat) (.opened key 0 period now)

/-- Overwriting an account with one of the same balance keeps the supply. -/
theorem supply_afterUpdate {u : Update} {a : Account} (ha : l.accounts.get? u.accountId = some a)
    (period : Option Duration) : (l.afterUpdate u a period).supply = l.supply := by
  have ht := Table.total_set_of_some ha (fun a => a.balance.toNat) (updated a u.key period)
  exact Nat.add_right_cancel ht

/-- Marking an account as deleted keeps the supply. -/
theorem supply_mark (l : Ledger) (id : AccountId) :
    Ledger.supply
        { l with accounts := l.accounts.adjust id fun a => { a with deleted := true } }
      = l.supply :=
  Table.total_adjust_of_eq (f := fun a : Account => a.balance.toNat)
    (g := fun a : Account => { a with deleted := true }) (fun _ => rfl) l.accounts id

/-- No outcome adds to the supply. -/
theorem Applied.supply_le (h : Applied l payer now payload receipt l') :
    l'.supply ≤ l.supply := by
  cases h with
  | failed => exact Nat.le_refl _
  | @created c period a pays funded =>
    have hd := supply_debit pays funded
    -- The new account starts empty, so opening it can only write over a balance.
    have ho := Table.total_set (l.debit payer c.initialBalance).accounts
      (fun a => a.balance.toNat) (.simple l.nextAccount) (.opened c.key 0 period now)
    have hempty : (Account.opened c.key 0 period now).balance.toNat = 0 := rfl
    rw [hempty] at ho
    refine Nat.le_trans (supply_credit_le _ _ _) ?_
    simp only [supply] at hd ⊢
    omega
  | transferred balanced settles => exact Nat.le_of_eq (supply_transferred balanced settles)
  | updated there => exact Nat.le_of_eq (supply_afterUpdate there _)
  | @deleted d a b distinct there =>
    have hd := supply_debit there (UInt64.le_refl a.balance)
    have hc := supply_credit_le (l.debit d.accountId a.balance) d.beneficiary a.balance
    rw [afterDelete, supply_mark]
    omega

/-- If the supply fits its word and the next account is new, every outcome keeps the supply. -/
theorem Applied.supply_eq (h : Applied l payer now payload receipt l')
    (hfits : l.supply < 2 ^ 64) (hnew : l.accounts.get? (.simple l.nextAccount) = none) :
    l'.supply = l.supply := by
  cases h with
  | failed => rfl
  | @created c period a pays funded =>
    have hd := supply_debit pays funded
    have ho := supply_open (get?_debit_eq_none hnew pays c.initialBalance) c.key period now
      (l.nextAccount + 1)
    rw [afterCreate, supply_credit (a := .opened c.key 0 period now), ho]
    · exact hd
    · rw [Table.get?_set, if_pos rfl]
    · rw [ho]
      omega
  | transferred balanced settles => exact supply_transferred balanced settles
  | updated there => exact supply_afterUpdate there _
  | @deleted d a b distinct there live heir =>
    have hd := supply_debit there (UInt64.le_refl a.balance)
    have hne : ¬ d.beneficiary = d.accountId := fun h => distinct h.symm
    have hb : (l.debit d.accountId a.balance).accounts.get? d.beneficiary = some b := by
      rw [get?_debit, if_neg hne, heir]
    rw [afterDelete, supply_mark, supply_credit hb (by omega)]
    exact hd

end Applied

/-! ## 5. Submissions -/

section Submission

variable [SignatureScheme]

section Admitted

variable {c : Config} {l : Ledger} {t : SignedTransaction} {now : Timestamp}
  {body : TransactionBody} {payer : Account}

/-- Charging the fee of an admitted transaction adds nothing. -/
theorem Admitted.supply_charged_le (ha : Admitted c l t now body payer) :
    (charged c l body).supply ≤ l.supply :=
  supply_chargeFee_le (l := { l with journal := .empty }) ha.pays ha.funded

/-- The fee of an admitted transaction stays in the ledger if its node has an account. -/
theorem Admitted.supply_charged (ha : Admitted c l t now body payer)
    (hfits : l.supply < 2 ^ 64) :
    if l.accounts.contains body.node then (charged c l body).supply = l.supply
    else (charged c l body).supply + c.transactionFee.toNat = l.supply := by
  by_cases hn : l.accounts.contains body.node
  · rw [if_pos hn]
    exact supply_chargeFee_of_node (l := { l with journal := .empty }) ha.pays ha.funded hn hfits
  · rw [if_neg hn]
    have hnone : l.accounts.get? body.node = none := by
      simpa [Table.contains] using hn
    exact supply_chargeFee_of_no_node (l := { l with journal := .empty }) ha.pays ha.funded hnone

/-- What an admitted transaction does once its fee is charged keeps the supply. -/
theorem Admitted.supply_outcome (ha : Admitted c l t now body payer)
    (hfits : l.supply < 2 ^ 64) (hnew : l.accounts.get? (.simple l.nextAccount) = none) :
    (outcome c l body now).2.supply = (charged c l body).supply := by
  refine (outcome_applied c l body now).supply_eq ?_ ?_
  · have hle := ha.supply_charged_le
    omega
  · rw [(onlyAccounts_charged c l body).nextAccount, get?_charged ha, hnew, Option.map_none]

end Admitted

/-- **Submissions conserve the supply.**  None adds to it.  If the supply fits its word and the next
account is new, it stays the same, except that an accepted transaction for a node without an account
takes its fee out of the ledger.

The work is in `Applied.supply_eq`, one case for each outcome: no credit runs into the end of its word,
since what is credited is part of the supply. -/
theorem submit_conserves_supply (c : Config) (l : Ledger) (t : SignedTransaction)
    (now : Timestamp) :
    (l.submit c t now).2.supply ≤ l.supply
      ∧ (l.supply < 2 ^ 64 → l.accounts.get? (.simple l.nextAccount) = none →
          ((l.submit c t now).1 ≠ .ok → (l.submit c t now).2.supply = l.supply)
          ∧ ((l.submit c t now).1 = .ok → ∃ body, t.body = .ok body
              ∧ if l.accounts.contains body.node then (l.submit c t now).2.supply = l.supply
                else (l.submit c t now).2.supply + c.transactionFee.toNat = l.supply)) := by
  rcases submit_cases c l t now with ⟨status, hne, h⟩ | ⟨body, payer, ha, h⟩
  · rw [h]
    exact ⟨Nat.le_refl _, fun _ _ => ⟨fun _ => rfl, fun hok => absurd hok hne⟩⟩
  · rw [h, accept_eq]
    -- Neither pruning nor keeping the receipt is seen by the supply.
    have happlied := outcome_applied c (l.prune now c.receiptRetention) body now
    refine ⟨Nat.le_trans happlied.supply_le ha.supply_charged_le, fun hfits hnew => ?_⟩
    refine ⟨absurd rfl, fun _ => ⟨body, ha.decodes, ?_⟩⟩
    have hcharged := ha.supply_charged hfits
    rw [← ha.supply_outcome hfits hnew] at hcharged
    exact hcharged

end Submission

open Trial in
set_option maxRecDepth 10000 in
/-- The deletion is accepted: the fee is lost where the node has no account, and kept where it has one.
A transaction without a body is refused. -/
theorem submit_conserves_supply_deletion :
    letI := scheme
    let withNode := ledger.createAccount (.simple 3) (key 3) 500 ⟨1000, 0⟩
    ((ledger.submit {} signedDeletion ⟨1001, 0⟩).1 = .ok
        ∧ (ledger.submit {} signedDeletion ⟨1001, 0⟩).2.supply + (Config.transactionFee {}).toNat
          = ledger.supply)
      ∧ ((withNode.submit {} signedDeletion ⟨1001, 0⟩).1 = .ok
        ∧ (withNode.submit {} signedDeletion ⟨1001, 0⟩).2.supply = withNode.supply)
      ∧ (ledger.submit {} ⟨[], []⟩ ⟨1001, 0⟩).1 ≠ .ok
      ∧ (ledger.submit {} ⟨[], []⟩ ⟨1001, 0⟩).2.supply = ledger.supply := by
  let := scheme
  intro withNode
  have hfits : ledger.supply < 2 ^ 64 := by decide +kernel
  have hnew : ledger.accounts.get? (.simple ledger.nextAccount) = none := by decide +kernel
  have hbody : signedDeletion.body = .ok deletion := by decide +kernel
  have hlost : (ledger.submit {} signedDeletion ⟨1001, 0⟩).1 = .ok := by decide +kernel
  have hkept : (withNode.submit {} signedDeletion ⟨1001, 0⟩).1 = .ok := by decide +kernel
  have hrefused : (ledger.submit {} ⟨[], []⟩ ⟨1001, 0⟩).1 ≠ .ok := by decide +kernel
  refine ⟨⟨hlost, ?_⟩, ⟨hkept, ?_⟩, hrefused, ?_⟩
  · obtain ⟨body, hsame, hfee⟩ :=
      ((submit_conserves_supply {} ledger signedDeletion ⟨1001, 0⟩).2 hfits hnew).2 hlost
    obtain rfl : deletion = body := Except.ok.inj (hbody.symm.trans hsame)
    rwa [if_neg (by decide +kernel)] at hfee
  · obtain ⟨body, hsame, hfee⟩ :=
      ((submit_conserves_supply {} withNode signedDeletion ⟨1001, 0⟩).2
        (by decide +kernel) (by decide +kernel)).2 hkept
    obtain rfl : deletion = body := Except.ok.inj (hbody.symm.trans hsame)
    rwa [if_pos (by decide +kernel)] at hfee
  · exact ((submit_conserves_supply {} ledger ⟨[], []⟩ ⟨1001, 0⟩).2 hfits hnew).1 hrefused

end ShardLedger.Ledger
