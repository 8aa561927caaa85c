import ShardLedger.Proofs.Supply
/-
Records say what happened to the balances.

While a transaction is applied, every move of value is noted twice, once in the balance of an account
and once in the journal.  The two are written in different ways: debits and credits note what they
really took and gave, a settled transfer notes the net amounts it was checked with, and opening,
updating and marking an account note nothing because they move nothing.  One invariant ties the journal
to the balances: since the journal was emptied, the entry of every account is what its balance has
gained, and all entries together are what the supply has gained.  Each move keeps it, and the record
only writes it down, without the zeros.
-/

set_option autoImplicit false

namespace ShardLedger

namespace Ledger

/-! ## 1. The invariant -/

/-- **What an account holds**; nothing if it is not there. -/
def holding (l : Ledger) (id : AccountId) : Int :=
  ((l.accounts.get? id).map fun a => (a.balance.toNat : Int)).getD 0

/-- **The journal accounts for what has changed** since an earlier ledger. -/
structure Accounted (l l' : Ledger) : Prop where
  entry : ∀ id, (l'.journal.get? id).getD 0 = l'.holding id - l.holding id
  total : l'.journal.values.sum = (l'.supply : Int) - l.supply

section Steps

variable {l₀ l l' : Ledger}

/-- With an empty journal nothing has changed yet. -/
theorem accounted_empty (l : Ledger) : Accounted l { l with journal := .empty } where
  entry id := by
    rw [Table.get?_empty, Option.getD_none]
    exact (Int.sub_self _).symm
  total := (Int.sub_self _).symm

/-- What moves nothing needs no note. -/
theorem Accounted.still (h : Accounted l₀ l) (hholding : ∀ id, l'.holding id = l.holding id)
    (hsupply : l'.supply = l.supply) (hjournal : l'.journal = l.journal) : Accounted l₀ l' where
  entry id := by rw [hjournal, hholding, h.entry]
  total := by rw [hjournal, hsupply, h.total]

/-- **Noting a change keeps the journal right**: one account is written, and what its balance gains
is posted. -/
theorem Accounted.noted (h : Accounted l₀ l) {id : AccountId} {a : Account}
    (ha : l.accounts.get? id = some a) {f : Account → Account}
    (haccounts : l'.accounts = l.accounts.adjust id f)
    (hjournal : l'.journal
      = post l.journal id (((f a).balance.toNat : Int) - a.balance.toNat)) :
    Accounted l₀ l' where
  entry k := by
    have hk := h.entry k
    rw [hjournal, get?_post]
    simp only [holding, haccounts, Table.get?_adjust] at hk ⊢
    by_cases hid : k = id
    · rw [hid, ha] at hk
      simp only [hid, ha, if_pos, Option.map_some, Option.getD_some] at hk ⊢
      omega
    · rw [if_neg hid, if_neg hid, hk]
  total := by
    have hvalues := Table.sum_values_set l.journal id
      ((l.journal.get? id).getD 0 + (((f a).balance.toNat : Int) - a.balance.toNat))
    have hsupply := Table.total_adjust_of_some ha (fun a => a.balance.toNat) f
    have htotal := h.total
    rw [hjournal, post]
    simp only [supply, haccounts] at htotal ⊢
    omega

/-! ## 2. The moves of value -/

/-- A debit notes what it takes. -/
theorem Accounted.debit (h : Accounted l₀ l) (id : AccountId) (amount : UInt64) :
    Accounted l₀ (l.debit id amount) := by
  cases ha : l.accounts.get? id with
  | none =>
    have hsame : l.debit id amount = l := by rw [Ledger.debit, ha]
    rw [hsame]
    exact h
  | some a =>
    refine h.noted ha (accounts_debit l id amount) ?_
    -- What is left and what is taken make up the balance.
    have htaken : (min amount a.balance).toNat ≤ a.balance.toNat := by
      rw [← UInt64.le_iff_toNat_le]
      exact Std.min_le_right
    have hleft : ((a.balance - min amount a.balance).toNat : Int) - a.balance.toNat
        = -(min amount a.balance).toNat := by
      rw [UInt64.toNat_sub_of_le _ _ (UInt64.le_iff_toNat_le.mpr htaken)]
      omega
    rw [hleft, Ledger.debit, ha]

/-- A credit notes what it gives. -/
theorem Accounted.credit (h : Accounted l₀ l) (id : AccountId) (amount : UInt64) :
    Accounted l₀ (l.credit id amount) := by
  cases ha : l.accounts.get? id with
  | none =>
    have hsame : l.credit id amount = l := by rw [Ledger.credit, ha]
    rw [hsame]
    exact h
  | some a =>
    refine h.noted ha (accounts_credit l id amount) ?_
    rw [Ledger.credit, ha]

/-- Writing a settled balance notes the net amount it was settled with. -/
theorem Accounted.settle (h : Accounted l₀ l) {e : AccountId × UInt64 × Int}
    (hs : l.Settles e.1 e.2.2 e.2.1) : Accounted l₀ (settle l e) := by
  obtain ⟨a, ha, -, hbalance⟩ := hs
  have hgain : (e.2.1.toNat : Int) - a.balance.toNat = e.2.2 := by omega
  refine h.noted ha (f := fun a => { a with balance := e.2.1 }) rfl ?_
  rw [hgain]
  rfl

/-- A whole settlement notes all net amounts.  The induction is on the entries: each is of another
account, so the balances ahead are still those that were checked. -/
theorem Accounted.foldl_settle {settled : List (AccountId × UInt64 × Int)} (h : Accounted l₀ l)
    (hn : (settled.map Prod.fst).Nodup) (hs : ∀ e ∈ settled, l.Settles e.1 e.2.2 e.2.1) :
    Accounted l₀ (settled.foldl Ledger.settle l) := by
  induction settled generalizing l with
  | nil => exact h
  | cons e settled ih =>
    rw [List.map_cons, List.nodup_cons] at hn
    rw [List.foldl_cons]
    refine ih (h.settle (hs e List.mem_cons_self)) hn.2 fun x hx => ?_
    exact (hs x (List.mem_cons_of_mem _ hx)).settle_of_ne fun heq =>
      hn.1 (heq ▸ List.mem_map_of_mem hx)

/-! ## 3. Writes that move nothing -/

/-- Overwriting an account with one that holds the same moves nothing. -/
theorem holding_set_of_balance_eq {id : AccountId} {a b : Account}
    (ha : l.accounts.get? id = some a) (hb : b.balance = a.balance) (k : AccountId) :
    Ledger.holding { l with accounts := l.accounts.set id b } k = l.holding k := by
  simp only [holding, Table.get?_set]
  by_cases hk : k = id
  · rw [if_pos hk, hk, ha, Option.map_some, Option.map_some, hb]
  · rw [if_neg hk]

/-- Marking an account as deleted moves nothing. -/
theorem holding_mark (l : Ledger) (id k : AccountId) :
    Ledger.holding
        { l with accounts := l.accounts.adjust id fun a => { a with deleted := true } } k
      = l.holding k := by
  simp only [holding, Table.get?_adjust]
  by_cases hk : k = id
  · rw [if_pos hk, hk, Option.map_map, Function.comp_def]
  · rw [if_neg hk]

/-- Opening an empty account that was not there moves nothing. -/
theorem holding_open {id : AccountId} (hnone : l.accounts.get? id = none) (key : PublicKey)
    (period : Duration) (now : Timestamp) (next : Int64) (k : AccountId) :
    Ledger.holding
        { l with nextAccount := next, accounts := l.accounts.set id (.opened key 0 period now) } k
      = l.holding k := by
  simp only [holding, Table.get?_set]
  by_cases hk : k = id
  · rw [if_pos hk, hk, hnone]
    rfl
  · rw [if_neg hk]

/-! ## 4. Accepted transactions -/

section Applied

variable {payer : AccountId} {now : Timestamp} {payload : Payload} {receipt : Receipt}

/-- **Every outcome notes what it moves**, if the next account is new. -/
theorem Applied.accounted (h : Applied l payer now payload receipt l') (h₀ : Accounted l₀ l)
    (hnew : l.accounts.get? (.simple l.nextAccount) = none) : Accounted l₀ l' := by
  cases h with
  | failed => exact h₀
  | @created c period a pays funded =>
    have hnone := get?_debit_eq_none hnew pays c.initialBalance
    have hdebited := h₀.debit payer c.initialBalance
    rw [afterCreate]
    exact (hdebited.still (holding_open hnone c.key period now _)
      (supply_open hnone c.key period now _) rfl).credit _ _
  | transferred balanced settles =>
    exact h₀.foldl_settle (nodup_settled settles) (settlement_entries settles).2
  | updated there =>
    rw [afterUpdate]
    exact h₀.still (holding_set_of_balance_eq there rfl) (supply_afterUpdate there _) rfl
  | @deleted d a b =>
    rw [afterDelete]
    exact ((h₀.debit _ _).credit _ _).still (holding_mark _ _) (supply_mark _ _) rfl

end Applied

/-- Charging the fee notes what the payer gives and the node takes. -/
theorem accounted_charged (c : Config) (l : Ledger) (body : TransactionBody) :
    Accounted l (charged c l body) :=
  ((accounted_empty l).debit _ _).credit _ _

end Steps

/-! ## 5. What the record writes down -/

/-- A word that an integer has is that integer. -/
theorem toI64?_eq_some {x : Int} {n : Int64} : toI64? x = some n ↔ n.toInt = x := by
  have hmin : Int64.minValue.toInt = -2 ^ 63 := by decide
  have hmax : Int64.maxValue.toInt = 2 ^ 63 - 1 := by decide
  rw [toI64?, hmin, hmax]
  constructor
  · intro h
    split at h
    · obtain rfl := Option.some.inj h
      rw [Int64.toInt_ofInt_of_le (by omega) (by omega)]
    · cases h
  · rintro rfl
    have := n.le_toInt
    have := n.toInt_lt
    rw [if_pos (by omega), Int64.ofInt_toInt]

/-- **What the record says of an entry**: nothing if it is zero or does not fit its word. -/
def written (e : AccountId × Int) : Option AccountAmount :=
  if e.2 = 0 then none else (toI64? e.2).map fun amount => ⟨e.1, amount⟩

theorem netChanges_eq (journal : Table AccountId Int) :
    netChanges journal = journal.entries.filterMap written := rfl

/-- What is written has the account and the amount of the entry, and is not zero. -/
theorem written_eq_some {e : AccountId × Int} {a : AccountAmount} :
    written e = some a ↔ a.accountId = e.1 ∧ a.amount.toInt = e.2 ∧ e.2 ≠ 0 := by
  obtain ⟨id, delta⟩ := e
  obtain ⟨k, amount⟩ := a
  rw [written]
  by_cases hz : delta = 0
  · simp [hz]
  · rw [if_neg hz, Option.map_eq_some_iff]
    simp only [toI64?_eq_some, AccountAmount.mk.injEq]
    constructor
    · rintro ⟨_, hword, rfl, rfl⟩
      exact ⟨rfl, hword, hz⟩
    · rintro ⟨rfl, hword, -⟩
      exact ⟨amount, hword, rfl, rfl⟩

/-- The record names an account with an amount exactly if that is its entry in the journal, and not
zero. -/
theorem mem_netChanges {journal : Table AccountId Int} {a : AccountAmount} :
    a ∈ netChanges journal
      ↔ journal.get? a.accountId = some a.amount.toInt ∧ a.amount.toInt ≠ 0 := by
  rw [netChanges_eq, List.mem_filterMap, ← Table.mem_entries_iff]
  simp only [written_eq_some]
  constructor
  · rintro ⟨⟨id, delta⟩, he, rfl, rfl, hne⟩
    exact ⟨he, hne⟩
  · rintro ⟨he, hne⟩
    exact ⟨_, he, rfl, rfl, hne⟩

/-- The record names accounts in ascending order. -/
theorem ascending_netChanges (journal : Table AccountId Int) :
    (netChanges journal).Pairwise fun a b => compare a.accountId b.accountId = .lt := by
  rw [netChanges_eq]
  refine List.pairwise_filterMap.mpr (journal.ascending.imp fun {e f} hlt a ha b hb => ?_)
  rw [(written_eq_some.mp ha).1, (written_eq_some.mp hb).1]
  exact hlt

/-- If all entries of a journal fit their words, the record adds up to the journal. -/
theorem sum_netChanges {journal : Table AccountId Int}
    (h : ∀ e ∈ journal.entries, -2 ^ 63 ≤ e.2 ∧ e.2 < 2 ^ 63) :
    ((netChanges journal).map fun a => a.amount.toInt).sum = journal.values.sum := by
  rw [netChanges_eq, Table.values]
  generalize journal.entries = entries at h ⊢
  induction entries with
  | nil => rfl
  | cons e es ih =>
    have ih := ih fun x hx => h x (List.mem_cons_of_mem _ hx)
    obtain ⟨hlo, hhi⟩ := h e List.mem_cons_self
    rw [List.map_cons, List.sum_cons]
    by_cases hz : e.2 = 0
    · have hnone : written e = none := by rw [written, if_pos hz]
      rw [List.filterMap_cons_none hnone, ih, hz, Int.zero_add]
    · have hword : (Int64.ofInt e.2).toInt = e.2 := Int64.toInt_ofInt_of_le hlo hhi
      have hsome : written e = some ⟨e.1, Int64.ofInt e.2⟩ :=
        written_eq_some.mpr ⟨rfl, hword, hz⟩
      rw [List.filterMap_cons_some hsome, List.map_cons, List.sum_cons, ih, hword]

end Ledger

/-! ## 6. Net changes -/

section NetChange

variable {r : Record}

/-- An account that is not named has not changed. -/
theorem Record.netChange_of_forall_ne {id : AccountId}
    (h : ∀ a ∈ r.transfers, a.accountId ≠ id) : r.netChange id = 0 := by
  rw [netChange, List.filter_eq_nil_iff.mpr fun a ha => by simpa using h a ha, List.foldl_nil]

/-- An account that is named, in a record that names each once, has changed by the amount. -/
theorem Record.netChange_of_mem
    (hasc : r.transfers.Pairwise fun a b => compare a.accountId b.accountId = .lt)
    {a : AccountAmount} (ha : a ∈ r.transfers) : r.netChange a.accountId = a.amount := by
  rw [netChange]
  generalize r.transfers = transfers at hasc ha ⊢
  induction transfers with
  | nil => cases ha
  | cons b bs ih =>
    obtain ⟨hb, hbs⟩ := List.pairwise_cons.mp hasc
    have hdiffer : ∀ x ∈ bs, b.accountId ≠ x.accountId := by
      intro x hx heq
      have hself : compare x.accountId x.accountId = .eq := Std.ReflCmp.compare_self
      have hlt := hb x hx
      rw [heq, hself] at hlt
      cases hlt
    rcases List.mem_cons.mp ha with rfl | ha
    · -- Nothing behind it is of the same account.
      rw [List.filter_cons_of_pos (by simp),
        List.filter_eq_nil_iff.mpr fun x hx => by simpa using (hdiffer x hx).symm,
        List.foldl_cons, List.foldl_nil, Int64.zero_add]
    · rw [List.filter_cons_of_neg (by simpa using hdiffer a ha), ih hbs ha]

end NetChange

/-! ## 7. Submissions -/

/-- **A record tells what happened** between two ledgers: it names accounts in ascending order, none
with zero, and its net change of any account is what the account has gained. -/
structure Record.Tells (r : Record) (l l' : Ledger) : Prop where
  ascending : r.transfers.Pairwise fun a b => compare a.accountId b.accountId = .lt
  nonzero : ∀ a ∈ r.transfers, a.amount ≠ 0
  changes : ∀ id, (r.netChange id).toInt = l'.holding id - l.holding id

namespace Ledger

/-- An account holds no less than nothing and no more than the supply. -/
theorem holding_bounds (l : Ledger) (id : AccountId) :
    0 ≤ l.holding id ∧ l.holding id ≤ l.supply := by
  rw [holding]
  cases ha : l.accounts.get? id with
  | none => simp
  | some a =>
    have hle := balance_le_supply ha
    simp only [Option.map_some, Option.getD_some]
    omega

/-- The entries of a journal that accounts for a change fit their words, if the supplies do. -/
theorem Accounted.entry_fits {l l' : Ledger} (h : Accounted l l') (hfits : l.supply < 2 ^ 63)
    (hle : l'.supply ≤ l.supply) (id : AccountId) :
    -2 ^ 63 ≤ (l'.journal.get? id).getD 0 ∧ (l'.journal.get? id).getD 0 < 2 ^ 63 := by
  have hbefore := l.holding_bounds id
  have hafter := l'.holding_bounds id
  rw [h.entry]
  omega

/-- **The net change of an account is its entry** in the journal from which the record was written, if
that fits its word. -/
theorem toInt_netChange {journal : Table AccountId Int} {r : Record}
    (hr : r.transfers = netChanges journal) {id : AccountId}
    (hfits : -2 ^ 63 ≤ (journal.get? id).getD 0 ∧ (journal.get? id).getD 0 < 2 ^ 63) :
    (r.netChange id).toInt = (journal.get? id).getD 0 := by
  have hasc : r.transfers.Pairwise fun a b => compare a.accountId b.accountId = .lt := by
    rw [hr]
    exact ascending_netChanges journal
  by_cases hz : (journal.get? id).getD 0 = 0
  · -- No amount of this account is written, because it would be zero.
    have habsent : ∀ a ∈ r.transfers, a.accountId ≠ id := by
      rintro a ha rfl
      rw [hr] at ha
      obtain ⟨hget, hne⟩ := mem_netChanges.mp ha
      rw [hget, Option.getD_some] at hz
      exact hne hz
    rw [r.netChange_of_forall_ne habsent, hz]
    rfl
  · obtain ⟨delta, hdelta⟩ : ∃ delta, journal.get? id = some delta := by
      rw [← Option.isSome_iff_exists, Option.isSome_iff_ne_none]
      rintro hnone
      rw [hnone] at hz
      exact hz rfl
    rw [hdelta, Option.getD_some] at hz hfits ⊢
    have hword := Int64.toInt_ofInt_of_le hfits.1 hfits.2
    have hmem : (⟨id, Int64.ofInt delta⟩ : AccountAmount) ∈ r.transfers := by
      rw [hr]
      exact mem_netChanges.mpr ⟨by rw [hdelta, hword], by rw [hword]; exact hz⟩
    rw [r.netChange_of_mem hasc hmem, hword]

/-- **A record written from a journal that accounts for a change tells it**, and adds up to what the
supply has gained. -/
theorem Accounted.tells {l l' : Ledger} (h : Accounted l l') (hfits : l.supply < 2 ^ 63)
    (hle : l'.supply ≤ l.supply) {r : Record} (hr : r.transfers = netChanges l'.journal) :
    r.Tells l l'
      ∧ (r.transfers.map fun a => a.amount.toInt).sum = (l'.supply : Int) - l.supply := by
  refine ⟨⟨?_, fun a ha => ?_, fun id => ?_⟩, ?_⟩
  · rw [hr]
    exact ascending_netChanges _
  · rw [hr] at ha
    rintro hz
    exact (mem_netChanges.mp ha).2 (by rw [hz, Int64.toInt_zero])
  · rw [toInt_netChange hr (h.entry_fits hfits hle id), h.entry]
  · rw [hr, sum_netChanges, h.total]
    intro e he
    have hbounds := h.entry_fits hfits hle e.1
    rw [(Table.mem_entries_iff _ _ _).mp he, Option.getD_some] at hbounds
    exact hbounds

/-- **Records are accurate.**  If the supply fits a signed word and the next account is new, the record
of an accepted transaction tells what has happened to every balance; its amounts add up to nothing, or
to the fee that is lost if the node has no account; and it charges no more than was authorized.

The work is in `Applied.accounted`: every outcome notes what it moves, so that the journal tells one ledger
from the other. -/
theorem submit_record_accurate [SignatureScheme] (c : Config) (l : Ledger) (t : SignedTransaction)
    (now : Timestamp) (hfits : l.supply < 2 ^ 63)
    (hnew : l.accounts.get? (.simple l.nextAccount) = none) (h : (l.submit c t now).1 = .ok) :
    ∃ body r, t.body = .ok body ∧ (l.submit c t now).2.receipts.get? body.id = some r
      ∧ r.record.Tells l (l.submit c t now).2
      ∧ (r.record.transfers.map fun a => a.amount.toInt).sum
          = (if l.accounts.contains body.node then 0 else -(c.transactionFee.toNat : Int))
      ∧ r.record.fee ≤ body.fee := by
  rcases submit_cases c l t now with ⟨status, hne, heq⟩ | ⟨body, payer, ha, heq⟩
  · rw [heq] at h
    exact absurd h hne
  · rw [heq]
    refine ⟨body, kept c (l.prune now c.receiptRetention) t body now, ha.decodes, ?_, ?_⟩
    · rw [get?_receipts_accept, if_pos rfl]
    · -- Pruning leaves the accounts, and keeping the receipt leaves those of the outcome.
      rw [accept_eq]
      have hcharged := accounted_charged c (l.prune now c.receiptRetention) body
      have happlied := outcome_applied c (l.prune now c.receiptRetention) body now
      have hslot : (charged c (l.prune now c.receiptRetention) body).accounts.get?
          (.simple (charged c (l.prune now c.receiptRetention) body).nextAccount) = none := by
        rw [(onlyAccounts_charged c _ body).nextAccount, get?_charged ha]
        exact Option.map_eq_none_iff.mpr hnew
      have hle := Nat.le_trans happlied.supply_le ha.supply_charged_le
      obtain ⟨htells, hsum⟩ := (happlied.accounted hcharged hslot).tells hfits hle
        (r := (kept c (l.prune now c.receiptRetention) t body now).record) rfl
      refine ⟨⟨htells.ascending, htells.nonzero, htells.changes⟩, ?_, ha.authorized⟩
      rw [hsum]
      -- What the supply loses is the fee of a node without an account.
      have hword : (l.prune now c.receiptRetention).supply < 2 ^ 64 := Nat.lt_trans hfits (by decide)
      have hfee := ha.supply_charged hword
      rw [← ha.supply_outcome hword hnew] at hfee
      by_cases hn : l.accounts.contains body.node
      · rw [if_pos hn]
        rw [if_pos (show (l.prune now c.receiptRetention).accounts.contains body.node from hn)] at hfee
        omega
      · rw [if_neg hn]
        rw [if_neg (show ¬ (l.prune now c.receiptRetention).accounts.contains body.node from hn)]
          at hfee
        omega

open Trial in
set_option maxRecDepth 10000 in
/-- The deletion is accepted, and its record is accurate. -/
theorem submit_record_accurate_deletion :
    letI := scheme
    (ledger.supply < 2 ^ 63 ∧ ledger.accounts.get? (.simple ledger.nextAccount) = none
        ∧ (ledger.submit {} signedDeletion ⟨1001, 0⟩).1 = .ok)
      ∧ ∃ body r, signedDeletion.body = .ok body
        ∧ (ledger.submit {} signedDeletion ⟨1001, 0⟩).2.receipts.get? body.id = some r
        ∧ r.record.Tells ledger (ledger.submit {} signedDeletion ⟨1001, 0⟩).2
        ∧ (r.record.transfers.map fun a => a.amount.toInt).sum
            = (if ledger.accounts.contains body.node then 0
                else -((Config.transactionFee {}).toNat : Int))
        ∧ r.record.fee ≤ body.fee := by
  let := scheme
  have hfits : ledger.supply < 2 ^ 63 := by decide +kernel
  have hnew : ledger.accounts.get? (.simple ledger.nextAccount) = none := by decide +kernel
  have h : (ledger.submit {} signedDeletion ⟨1001, 0⟩).1 = .ok := by decide +kernel
  exact ⟨⟨hfits, hnew, h⟩, submit_record_accurate {} ledger signedDeletion ⟨1001, 0⟩ hfits hnew h⟩

end Ledger

end ShardLedger
