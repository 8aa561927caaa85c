import ShardLedger.Proofs.AtMostOnce
import ShardLedger.Proofs.Authorization
/-
Which accounts there are, and which of them creations open.

A creation opens the account of the next number and moves the counter on.  Nothing else moves the counter,
no account ever goes, and the only other way to open one is to do so directly.  So the accounts of a run
are those that were opened directly and those that were created, and the created ones have consecutive
numbers.

The counter knows of created accounts only.  As long as it has not come round, the number that it gives out
is none that it gave out before; but an account of that number may have been opened directly.  Then the
creation takes its place, with another key and another balance.
-/

set_option autoImplicit false

namespace ShardLedger

namespace Ledger

/-! ## 1. What a step opens -/

/-- **A step opens accounts**: one directly, if at all, and one of the next number, if at all.  The other
accounts are those that were there. -/
structure Opening (l l' : Ledger) (direct new : Option AccountId) : Prop where
  slot : ∀ id ∈ new, id = .simple l.nextAccount
  counter : l'.nextAccount = if new.isSome then l.nextAccount + 1 else l.nextAccount
  there : ∀ id, (l'.accounts.get? id).isSome
    ↔ (l.accounts.get? id).isSome ∨ direct = some id ∨ new = some id

/-- A step that keeps the counter and the identifiers opens nothing. -/
theorem opening_none {l l' : Ledger} (hcounter : l'.nextAccount = l.nextAccount)
    (hthere : ∀ id, (l'.accounts.get? id).isSome = (l.accounts.get? id).isSome) :
    Opening l l' none none := by
  refine ⟨nofun, hcounter, ?_⟩
  intro id
  rw [hthere]
  simp

/-- A step that opens nothing may come before another. -/
theorem Opening.after {l l' l'' : Ledger} {direct new : Option AccountId} (h : Opening l l' none none)
    (h' : Opening l' l'' direct new) : Opening l l'' direct new := by
  have hcounter : l'.nextAccount = l.nextAccount := h.counter
  constructor
  · rw [← hcounter]
    exact h'.slot
  · rw [← hcounter]
    exact h'.counter
  · intro id
    rw [h'.there, h.there]
    simp

section Moves

variable (l : Ledger) (id : AccountId) (amount : UInt64) (k : AccountId)

theorem isSome_get?_debit :
    ((l.debit id amount).accounts.get? k).isSome = (l.accounts.get? k).isSome := by
  rw [accounts_debit, Table.isSome_get?_adjust]

theorem isSome_get?_credit :
    ((l.credit id amount).accounts.get? k).isSome = (l.accounts.get? k).isSome := by
  rw [accounts_credit, Table.isSome_get?_adjust]

end Moves

section Applied

variable {l l' : Ledger} {payer : AccountId} {now : Timestamp} {payload : Payload} {receipt : Receipt}

/-- **An outcome opens the account that its receipt names.** -/
theorem Applied.opening (h : Applied l payer now payload receipt l') :
    Opening l l' none receipt.accountId := by
  cases h with
  | failed => exact opening_none rfl fun _ => rfl
  | @created c period =>
    constructor
    · rintro id ⟨⟩
      rfl
    · rw [afterCreate, (onlyAccounts_credit _ _ _).nextAccount]
      rfl
    · -- The initial balance comes from an account that stays; only the new number is opened.
      intro id
      rw [afterCreate, isSome_get?_credit, Table.get?_set]
      by_cases hid : id = .simple l.nextAccount
      · rw [if_pos hid, hid]
        simp
      · rw [if_neg hid, isSome_get?_debit]
        simp [Ne.symm hid]
  | @transferred legs settled balanced settles =>
    refine opening_none (onlyAccounts_foldl_settle settled l).nextAccount ?_
    intro id
    -- An account that a leg settles was there, or it could not have been settled.
    rcases settled_account_cases settles id with ⟨-, hsame⟩ | ⟨_, a, balance, -, ha, -, -, hafter⟩
    · rw [hsame]
    · rw [hafter, ha]
      rfl
  | @updated u a period there =>
    refine opening_none rfl ?_
    intro id
    rw [afterUpdate, Table.get?_set]
    by_cases hid : id = u.accountId
    · rw [if_pos hid, hid, there]
      rfl
    · rw [if_neg hid]
  | @deleted d a =>
    have hswept : OnlyAccounts l ((l.debit d.accountId a.balance).credit d.beneficiary a.balance) :=
      (onlyAccounts_debit l _ _).trans (onlyAccounts_credit _ _ _)
    refine opening_none hswept.nextAccount ?_
    intro id
    rw [afterDelete, Table.isSome_get?_adjust, isSome_get?_credit, isSome_get?_debit]

end Applied

section Perform

variable [SignatureScheme] {c : Config} {l : Ledger} {op : Operation} {body : TransactionBody}

/-- What an operation has created is what the receipt of the transaction names that it has accepted. -/
theorem createdBy_of_admitted {t : SignedTransaction} {now : Timestamp}
    (ha : l.acceptedBy c (.submit t now) = some body)
    (hperform : l.perform c (.submit t now) = (l.prune now c.receiptRetention).accept c t body now) :
    l.createdBy c (.submit t now)
      = (outcome c (l.prune now c.receiptRetention) body now).1.accountId := by
  rw [createdBy, ha, hperform, Option.bind_some, get?_receipts_accept, if_pos rfl]
  rfl

/-- **An operation opens accounts**: directly the one it names, and otherwise the one that it has
created. -/
theorem opening_perform : Opening l (l.perform c op) op.registers? (l.createdBy c op) := by
  cases haccepted : l.acceptedBy c op with
  | some body =>
    obtain ⟨t, now, payer, rfl, ha, hperform⟩ := of_acceptedBy haccepted
    rw [createdBy_of_admitted haccepted hperform, hperform, accept_eq]
    -- Dropping receipts and charging the fee open nothing.
    have hcharged : Opening l (charged c (l.prune now c.receiptRetention) body) none none := by
      refine opening_none (onlyAccounts_charged c (l.prune now c.receiptRetention) body).nextAccount ?_
      intro id
      rw [get?_charged ha, Option.isSome_map]
      rfl
    have houtcome := (outcome_applied c (l.prune now c.receiptRetention) body now).opening
    have hboth := hcharged.after houtcome
    exact ⟨hboth.slot, hboth.counter, hboth.there⟩
  | none =>
    have hnew : l.createdBy c op = none := by
      rw [createdBy, haccepted]
      rfl
    have hrequest : op.IsRequest → Opening l (l.perform c op) none none := by
      intro hop
      have huntouched := untouched_of_acceptedBy_eq_none hop haccepted
      refine opening_none huntouched.nextAccount fun id => ?_
      rw [huntouched.accounts]
    rw [hnew]
    cases op with
    | submit t now => exact hrequest trivial
    | ask q => exact hrequest trivial
    | createAccount id key balance now =>
      refine ⟨nofun, rfl, ?_⟩
      intro k
      rw [perform, createAccount, Table.get?_set]
      by_cases hk : k = id
      · simp [hk, Operation.registers?]
      · simp [hk, Ne.symm hk, Operation.registers?]
    | setBalance id balance =>
      refine opening_none rfl fun k => ?_
      rw [perform, setBalance, Table.isSome_get?_adjust]

end Perform

/-! ## 2. What a run opens -/

/-- **The identifiers of consecutive numbers**, from one on. -/
def consecutive (first : Int64) (n : Nat) : List AccountId :=
  (List.range n).map fun i => .simple (first + Int64.ofNat i)

theorem consecutive_succ (first : Int64) (n : Nat) :
    consecutive first (n + 1) = .simple first :: consecutive (first + 1) n := by
  have hshift : ∀ i : Nat, first + Int64.ofNat (i + 1) = first + 1 + Int64.ofNat i := by
    intro i
    rw [Int64.ofNat_add, Int64.add_assoc, Int64.add_comm 1]
    rfl
  have hzero : first + Int64.ofNat 0 = first := Int64.add_zero first
  simp only [consecutive, List.range_succ_eq_map, List.map_cons, List.map_map, Function.comp_def,
    Nat.succ_eq_add_one, hshift, hzero]

/-- No number is that of an earlier one, unless the counter has come round. -/
theorem notMem_consecutive {first : Int64} {n : Nat} (hn : n < 2 ^ 64) :
    AccountId.simple (first + Int64.ofNat n) ∉ consecutive first n := by
  intro hmem
  obtain ⟨i, hi, heq⟩ := List.mem_map.mp hmem
  have hlt := List.mem_range.mp hi
  have hnumber : Int64.ofNat i = Int64.ofNat n := by
    have hadd : first + Int64.ofNat i = first + Int64.ofNat n := congrArg AccountId.account heq
    simpa using hadd
  have hbits := congrArg (fun x : Int64 => x.toBitVec.toNat) hnumber
  simp only [Int64.toBitVec_ofNat', BitVec.toNat_ofNat] at hbits
  omega

section Runs

variable [SignatureScheme] {c : Config}

/-- **What a run opens**: the accounts after it are those before it, those opened directly and those
created; and the created ones have consecutive numbers, which the counter has passed.  The induction is
on the run. -/
theorem opening_run (l : Ledger) (ops : List Operation) :
    created c l ops = consecutive l.nextAccount (created c l ops).length
      ∧ (l.run c ops).nextAccount = l.nextAccount + Int64.ofNat (created c l ops).length
      ∧ ∀ id, ((l.run c ops).accounts.get? id).isSome
        ↔ (l.accounts.get? id).isSome ∨ id ∈ registered ops ∨ id ∈ created c l ops := by
  induction ops generalizing l with
  | nil =>
    refine ⟨rfl, (Int64.add_zero _).symm, fun id => ?_⟩
    simp [run, registered, created]
  | cons op ops ih =>
    obtain ⟨hlist, hcounter, hthere⟩ := ih (l.perform c op)
    have hopening : Opening l (l.perform c op) op.registers? (l.createdBy c op) := opening_perform
    obtain ⟨hslot, hnext, hopened⟩ := hopening
    have hrun : l.run c (op :: ops) = (l.perform c op).run c ops := rfl
    have hregistered : ∀ id, id ∈ registered (op :: ops)
        ↔ op.registers? = some id ∨ id ∈ registered ops := by
      intro id
      rw [registered, registered, List.filterMap_cons]
      cases op.registers? with
      | none => simp
      | some k => simp [eq_comm]
    rw [hrun, created]
    cases hcreated : l.createdBy c op with
    | none =>
      rw [hcreated] at hnext hopened
      have hsame : (l.perform c op).nextAccount = l.nextAccount := hnext
      rw [hsame] at hlist hcounter
      refine ⟨hlist, hcounter, fun id => ?_⟩
      rw [hthere, hopened, hregistered]
      simp [or_assoc]
    | some new =>
      -- The number is the first of the list, and the rest of the run begins at the next one.
      rw [hcreated] at hnext hopened
      obtain rfl := hslot new hcreated
      have hmoved : (l.perform c op).nextAccount = l.nextAccount + 1 := hnext
      rw [hmoved] at hlist hcounter
      refine ⟨?_, ?_, fun id => ?_⟩
      · rw [Option.toList_some, List.singleton_append, List.length_cons, consecutive_succ, ← hlist]
      · rw [hcounter, Option.toList_some, List.singleton_append, List.length_cons, Int64.ofNat_add,
          Int64.add_assoc, Int64.add_comm 1]
        rfl
      · rw [hthere, hopened, hregistered]
        simp only [Option.some.injEq, Option.toList_some, List.singleton_append, List.mem_cons]
        rw [eq_comm (a := AccountId.simple l.nextAccount)]
        tauto

end Runs

/-! ## 3. What a creation does to the other accounts -/

/-- A creation leaves every other account under its key, with nothing changed but the balance, and that
only if it pays. -/
theorem Applied.kept_of_accountId {l l' : Ledger} {payer new k : AccountId} {now : Timestamp}
    {payload : Payload} {receipt : Receipt} {old : Account}
    (h : Applied l payer now payload receipt l') (hnew : receipt.accountId = some new) (hne : k ≠ new)
    (hk : l.accounts.get? k = some old) :
    ∃ balance, l'.accounts.get? k = some { old with balance := balance }
      ∧ (k ≠ payer → balance = old.balance) := by
  have hslot := h.opening.slot new hnew
  cases h with
  | @created c period =>
    rw [get?_afterCreate_of_ne c period (hslot ▸ hne), get?_debit]
    by_cases hpay : k = payer
    · rw [if_pos hpay, ← hpay, hk]
      exact ⟨_, rfl, fun h => absurd rfl h⟩
    · rw [if_neg hpay, hk]
      exact ⟨old.balance, rfl, fun _ => rfl⟩
  | failed | transferred | updated | deleted => cases hnew

section Submission

variable [SignatureScheme] {c : Config}

/-- **A creation leaves every other account as it is**, but for the balances of who pays it and of the
node. -/
theorem kept_of_createdBy {l : Ledger} {op : Operation} {new k : AccountId} {old : Account}
    (hnew : l.createdBy c op = some new) (hne : k ≠ new) (hk : l.accounts.get? k = some old) :
    ∃ balance, (l.perform c op).accounts.get? k = some { old with balance := balance }
      ∧ ∀ body ∈ l.acceptedBy c op, k ≠ body.id.accountId → k ≠ body.node → balance = old.balance := by
  cases haccepted : l.acceptedBy c op with
  | none =>
    rw [createdBy, haccepted] at hnew
    cases hnew
  | some body =>
    obtain ⟨t, now, payer, rfl, ha, hperform⟩ := of_acceptedBy haccepted
    rw [createdBy_of_admitted haccepted hperform] at hnew
    have hcharged : (charged c (l.prune now c.receiptRetention) body).accounts.get? k
        = some { old with balance := balanceAfterFee c body k old.balance } := by
      rw [get?_charged ha]
      exact congrArg (Option.map _) hk
    have houtcome := outcome_applied c (l.prune now c.receiptRetention) body now
    obtain ⟨balance, hafter, hsame⟩ := houtcome.kept_of_accountId hnew hne hcharged
    refine ⟨balance, ?_, ?_⟩
    · rw [hperform, accept_eq]
      exact hafter
    · rintro _ ⟨⟩ hpayer hnode
      rw [hsame hpayer, balanceAfterFee]
      simp [hpayer, hnode]

/-- **Which accounts creations open.**  In a run from the empty ledger, as long as the counter of
accounts has not come round, a creation opens the account of the next number.  That account was not there
before exactly if it was not opened directly; and then every account that was there is left as it is, but
for the balances of who pays and of the node.

The work is in `opening_run`: what a run opens has consecutive numbers, all of which the counter has passed. -/
theorem created_fresh_iff {ops : List Operation} {op : Operation} {new : AccountId}
    (hnew : ((empty c).run c ops).createdBy c op = some new)
    (hcount : (created c (.empty c) ops).length < 2 ^ 64) :
    new = .simple (c.firstAccountNumber + Int64.ofNat (created c (.empty c) ops).length)
      ∧ (((empty c).run c ops).accounts.get? new = none ↔ new ∉ registered ops)
      ∧ (new ∉ registered ops → ∀ k old, ((empty c).run c ops).accounts.get? k = some old →
          ∃ balance, (((empty c).run c ops).perform c op).accounts.get? k
              = some { old with balance := balance }
            ∧ ∀ body ∈ ((empty c).run c ops).acceptedBy c op,
                k ≠ body.id.accountId → k ≠ body.node → balance = old.balance) := by
  obtain ⟨hlist, hcounter, hthere⟩ := opening_run (c := c) (empty c) ops
  have hnumber : new = .simple (c.firstAccountNumber + Int64.ofNat (created c (.empty c) ops).length) := by
    rw [opening_perform.slot new hnew, hcounter]
    rfl
  have hfresh : new ∉ created c (.empty c) ops := by
    intro hmem
    rw [hlist, hnumber] at hmem
    exact notMem_consecutive hcount hmem
  have hiff : ((empty c).run c ops).accounts.get? new = none ↔ new ∉ registered ops := by
    rw [← Option.not_isSome_iff_eq_none, hthere]
    have hempty : ((empty c).accounts.get? new).isSome = false := rfl
    simp [hempty, hfresh]
  refine ⟨hnumber, hiff, ?_⟩
  intro hdirect k old hk
  have hne : k ≠ new := by
    rintro rfl
    rw [hiff.mpr hdirect] at hk
    cases hk
  exact kept_of_createdBy hnew hne hk

end Submission

open Trial in
/-- **Accounts opened directly**: the payer, and one of the number of the first account that is
created. -/
def heldSlot : List Operation :=
  [ .createAccount (.simple 2) (key 2) 1000000 ⟨1000, 0⟩
  , .createAccount (.simple 1001) (key 4) 500 ⟨1000, 0⟩ ]

open Trial in
set_option maxRecDepth 10000 in
/-- On a ledger with the payer alone the creation opens an account that was not there. -/
theorem created_fresh_creation :
    letI := scheme
    (((empty {}).run {} (heldSlot.take 1)).createdBy {} (.submit signedCreation ⟨1001, 0⟩)
          = some (.simple 1001)
        ∧ (created {} (.empty {}) (heldSlot.take 1)).length < 2 ^ 64
        ∧ AccountId.simple 1001 ∉ registered (heldSlot.take 1))
      ∧ ((empty {}).run {} (heldSlot.take 1)).accounts.get? (.simple 1001) = none := by
  let := scheme
  have hnew : ((empty {}).run {} (heldSlot.take 1)).createdBy {} (.submit signedCreation ⟨1001, 0⟩)
      = some (.simple 1001) := by decide +kernel
  have hcount : (created {} (.empty {}) (heldSlot.take 1)).length < 2 ^ 64 := by decide +kernel
  have hdirect : AccountId.simple 1001 ∉ registered (heldSlot.take 1) := by decide
  exact ⟨⟨hnew, hcount, hdirect⟩, (created_fresh_iff hnew hcount).2.1.mpr hdirect⟩

open Trial in
set_option maxRecDepth 10000 in
/-- **A creation can take the place of an account that is there**: one that was opened directly under the
number that comes next loses its key and what it held. -/
theorem creation_replaces_held_slot :
    letI := scheme
    ((empty {}).run {} heldSlot).createdBy {} (.submit signedCreation ⟨1001, 0⟩)
        = some (.simple 1001)
      ∧ (((empty {}).run {} heldSlot).accounts.get? (.simple 1001)).map (fun a => (a.key, a.balance))
        = some (key 4, 500)
      ∧ ((((empty {}).run {} heldSlot).perform {} (.submit signedCreation ⟨1001, 0⟩)).accounts.get?
          (.simple 1001)).map (fun a => (a.key, a.balance)) = some (key 0xab, 250) := by
  let := scheme
  decide +kernel

end Ledger

end ShardLedger
