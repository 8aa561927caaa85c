import ShardLedger.Proofs.FreshAccounts
/-
What can still happen to a deleted account.

Everything a transaction does to the accounts it names is checked against deletion: who pays is not
deleted, nor is a party to a transfer, the account of an update, or either account of a deletion.  A
creation credits no account but its own.  So what a transaction does leaves deleted accounts alone.

Two things are not checked.  The fee goes to the node that a transaction names, deleted or not; and a
creation takes the place of an account of its number.  Where no number is taken, a deleted account stays
as its deletion has left it, but for the fees that it collects as a node.
-/

set_option autoImplicit false

namespace ShardLedger

/-- **An account that has collected fees**, so many of them. -/
def Account.withFees (a : Account) (c : Config) (n : Nat) : Account :=
  { a with balance := saturateU64 (a.balance.toNat + n * c.transactionFee.toNat) }

namespace Account

theorem withFees_zero (a : Account) (c : Config) : a.withFees c 0 = a := by
  rw [withFees, Nat.zero_mul, Nat.add_zero, saturateU64_toNat]

/-- Fees that are collected one after the other add up, also where the balance has reached its most. -/
theorem withFees_withFees (a : Account) (c : Config) (m n : Nat) :
    (a.withFees c m).withFees c n = a.withFees c (m + n) := by
  have hsum : saturateU64 ((saturateU64 (a.balance.toNat + m * c.transactionFee.toNat)).toNat
        + n * c.transactionFee.toNat)
      = saturateU64 (a.balance.toNat + (m + n) * c.transactionFee.toNat) := by
    apply UInt64.toNat_inj.mp
    simp only [toNat_saturateU64, Nat.add_mul]
    omega
  simp only [withFees, hsum]

end Account

namespace Ledger

/-! ## 1. One transaction -/

/-- The fee leaves whoever does not pay it as a node that collects it, or as it was. -/
theorem balanceAfterFee_eq_withFees (c : Config) {body : TransactionBody} {id : AccountId} (a : Account)
    (hpayer : id ≠ body.id.accountId) :
    { a with balance := balanceAfterFee c body id a.balance }
      = a.withFees c ([body].countP (·.node = id)) := by
  unfold balanceAfterFee
  by_cases hnode : body.node = id
  · have hcount : [body].countP (·.node = id) = 1 := by simp [hnode]
    rw [hcount, Account.withFees, Nat.one_mul, if_neg (hnode ▸ hpayer.symm), if_neg hpayer,
      if_pos hnode.symm]
  · have hcount : [body].countP (·.node = id) = 0 := by simp [hnode]
    rw [hcount, a.withFees_zero, if_neg hpayer, if_neg (Ne.symm hnode), ite_self]

/-- **What a transaction does leaves deleted accounts alone**, unless it creates an account in the place
of one. -/
theorem Applied.get?_of_deleted {l l' : Ledger} {payer id : AccountId} {now : Timestamp}
    {payload : Payload} {receipt : Receipt} {p gone : Account}
    (h : Applied l payer now payload receipt l') (hpays : l.accounts.get? payer = some p)
    (hlive : p.deleted = false) (hid : l.accounts.get? id = some gone) (hgone : gone.deleted = true)
    (hslot : receipt.accountId ≠ some id) : l'.accounts.get? id = some gone := by
  -- An account that is not deleted is another one.
  have hne : ∀ {k : AccountId} {a : Account}, l.accounts.get? k = some a → a.deleted = false → id ≠ k := by
    rintro k a hk ha rfl
    rw [hid] at hk
    obtain rfl := Option.some.inj hk
    rw [hgone] at ha
    cases ha
  cases h with
  | failed => exact hid
  | @created c period =>
    have hother : id ≠ .simple l.nextAccount := by
      rintro rfl
      exact hslot rfl
    rw [get?_afterCreate_of_ne c period hother, get?_debit, if_neg (hne hpays hlive), hid]
  | @transferred legs settled balanced settles =>
    rcases settled_account_cases settles id with ⟨-, hsame⟩ | ⟨_, a, _, -, ha, halive, -, -⟩
    · rw [hsame, hid]
    · exact absurd rfl (hne ha halive)
  | @updated u a period there live => rw [afterUpdate, Table.get?_set, if_neg (hne there live), hid]
  | @deleted d a b distinct there live heir heirLive =>
    rw [afterDelete, Table.get?_adjust, if_neg (hne there live), get?_credit, if_neg (hne heir heirLive),
      get?_debit, if_neg (hne there live), hid]

/-- A deletion leaves an empty account that is marked. -/
theorem get?_afterDelete_self {l : Ledger} {d : Deletion} {a : Account}
    (distinct : d.accountId ≠ d.beneficiary) (there : l.accounts.get? d.accountId = some a) :
    (l.afterDelete d a).accounts.get? d.accountId = some { a with balance := 0, deleted := true } := by
  have hall : a.balance - min a.balance a.balance = 0 := by
    rw [sub_min_of_le (UInt64.le_refl _), UInt64.sub_self]
  rw [afterDelete, Table.get?_adjust, if_pos rfl, get?_credit, if_neg distinct, get?_debit, if_pos rfl,
    there]
  simp only [Option.map_some, hall]

/-- A deletion that ends in success leaves an empty account that is marked. -/
theorem Applied.deleted_of_success {l l' : Ledger} {payer : AccountId} {now : Timestamp} {d : Deletion}
    {receipt : Receipt} (h : Applied l payer now (.delete d) receipt l')
    (hsuccess : receipt.status = .success) :
    ∃ gone, l'.accounts.get? d.accountId = some gone ∧ gone.deleted = true ∧ gone.balance = 0 := by
  cases h with
  | failed fails =>
    have hfails : Status.success ∉ failures := by decide
    exact absurd (hsuccess ▸ fails) hfails
  | deleted distinct there => exact ⟨_, get?_afterDelete_self distinct there, rfl, rfl⟩

section Requests

variable [SignatureScheme] {c : Config} {l : Ledger} {op : Operation} {id : AccountId} {gone : Account}

/-- **A request leaves a deleted account as it is**, but for the fee if it names the account as its
node. -/
theorem get?_perform_of_deleted (hop : op.IsRequest) (hid : l.accounts.get? id = some gone)
    (hgone : gone.deleted = true) (hslot : l.createdBy c op ≠ some id) :
    (l.perform c op).accounts.get? id
      = some (gone.withFees c ((l.acceptedBy c op).toList.countP (·.node = id))) := by
  cases haccepted : l.acceptedBy c op with
  | none =>
    rw [(untouched_of_acceptedBy_eq_none hop haccepted).accounts, hid]
    exact congrArg some (gone.withFees_zero c).symm
  | some body =>
    obtain ⟨t, now, payer, rfl, ha, hperform⟩ := of_acceptedBy haccepted
    rw [createdBy_of_admitted haccepted hperform] at hslot
    -- The payer is not deleted, so it is another account.
    have hpayer : id ≠ body.id.accountId := by
      intro heq
      have hpays : l.accounts.get? body.id.accountId = some payer := ha.pays
      rw [← heq, hid] at hpays
      obtain rfl := Option.some.inj hpays
      rw [ha.live] at hgone
      cases hgone
    have hcharged : ∀ k, (charged c (l.prune now c.receiptRetention) body).accounts.get? k
        = (l.accounts.get? k).map fun a => { a with balance := balanceAfterFee c body k a.balance } :=
      fun k => get?_charged ha k
    have hpays := (hcharged body.id.accountId).trans (congrArg _ ha.pays)
    have hfees := (hcharged id).trans (congrArg _ hid)
    rw [Option.map_some, balanceAfterFee_eq_withFees c gone hpayer] at hfees
    have houtcome := outcome_applied c (l.prune now c.receiptRetention) body now
    rw [hperform, accept_eq]
    exact houtcome.get?_of_deleted hpays ha.live hfees hgone hslot

/-! ## 2. Runs -/

/-- **Requests leave a deleted account as it is**, but for the fees that it collects as a node.  The
induction is on the run. -/
theorem get?_run_of_deleted {ops : List Operation} (hops : ∀ op ∈ ops, op.IsRequest)
    (hid : l.accounts.get? id = some gone) (hgone : gone.deleted = true)
    (hslot : id ∉ created c l ops) :
    (l.run c ops).accounts.get? id
      = some (gone.withFees c ((accepted c l ops).countP (·.node = id))) := by
  induction ops generalizing l gone with
  | nil => rw [accepted, List.countP_nil, gone.withFees_zero, ← hid, run, List.foldl_nil]
  | cons op ops ih =>
    rw [created, List.mem_append, not_or] at hslot
    have hfirst : l.createdBy c op ≠ some id := by
      intro heq
      apply hslot.1
      rw [heq]
      exact List.mem_singleton_self id
    have hstep := get?_perform_of_deleted (hops op List.mem_cons_self) hid hgone hfirst
    have hrest := ih (fun op h => hops op (List.mem_cons_of_mem _ h)) hstep hgone hslot.2
    rw [Account.withFees_withFees, ← List.countP_append, ← accepted] at hrest
    exact hrest

/-- **Deletion is final**, but for fees.  After a deletion that ended in success the account is marked and
empty.  Whatever is requested from then on, it is never changed but by the fees of the transactions that
name it as their node, unless a creation takes its place.

The work is in `get?_perform_of_deleted`: a deleted account can neither pay nor be moved, so an operation
leaves it nothing but a fee. -/
theorem deleted_account_final {body : TransactionBody} {d : Deletion} {rest : List Operation}
    (haccepted : l.acceptedBy c op = some body) (hpayload : body.payload = .delete d)
    (hsuccess : ∃ r, (l.perform c op).receipts.get? body.id = some r ∧ r.record.receipt.status = .success)
    (hrest : ∀ op ∈ rest, op.IsRequest) (hslot : d.accountId ∉ created c (l.perform c op) rest) :
    ∃ gone, (l.perform c op).accounts.get? d.accountId = some gone
      ∧ gone.deleted = true ∧ gone.balance = 0
      ∧ ((l.perform c op).run c rest).accounts.get? d.accountId
        = some (gone.withFees c ((accepted c (l.perform c op) rest).countP (·.node = d.accountId))) := by
  obtain ⟨t, now, payer, rfl, ha, hperform⟩ := of_acceptedBy haccepted
  have houtcome := outcome_applied c (l.prune now c.receiptRetention) body now
  have hafter : ∃ gone, (l.perform c (.submit t now)).accounts.get? d.accountId = some gone
      ∧ gone.deleted = true ∧ gone.balance = 0 := by
    obtain ⟨r, hr, hstatus⟩ := hsuccess
    rw [hperform, get?_receipts_accept, if_pos rfl] at hr
    obtain rfl := Option.some.inj hr
    rw [hpayload] at houtcome
    rw [hperform, accept_eq]
    exact houtcome.deleted_of_success hstatus
  obtain ⟨gone, hgone, hdeleted, hbalance⟩ := hafter
  exact ⟨gone, hgone, hdeleted, hbalance, get?_run_of_deleted hrest hgone hdeleted hslot⟩

end Requests

end Ledger

/-! ## 3. Deletions for trials -/

namespace Trial

/-- **A transfer of nothing.** -/
def idleTransfer : TransactionBody :=
  { deletion with id := ⟨.simple 2, ⟨1001, 0⟩⟩, payload := .transfer [] }

/-- **The transfer of nothing, signed** by the payer. -/
def signedIdleTransfer : SignedTransaction where
  bodyBytes := letI := scheme; Wired.toBytes idleTransfer
  signatures := [⟨(key 2).bytes⟩]

/-- **The deletion of the node account.** -/
def nodeDeletion : TransactionBody :=
  { deletion with payload := .delete ⟨.simple 3, .simple 5⟩ }

/-- **The deletion of the node account, signed** by the payer and by the node. -/
def signedNodeDeletion : SignedTransaction where
  bodyBytes := letI := scheme; Wired.toBytes nodeDeletion
  signatures := [⟨(key 2).bytes⟩, ⟨(key 3).bytes⟩]

/-- **The ledger for trials with an account of its node.** -/
def ledgerWithNode : Ledger :=
  ledger.createAccount (.simple 3) (key 3) 500 ⟨1000, 0⟩

end Trial

namespace Ledger

open Trial in
set_option maxRecDepth 10000 in
/-- The deleted account is left alone by the transfer, whose node is another. -/
theorem deleted_account_final_deletion :
    letI := scheme
    let after := ledger.perform {} (.submit signedDeletion ⟨1001, 0⟩)
    let rest := [Operation.submit signedIdleTransfer ⟨1002, 0⟩, .ask ⟨.answer, .accountBalance (.simple 4)⟩]
    (ledger.acceptedBy {} (.submit signedDeletion ⟨1001, 0⟩) = some deletion
        ∧ (∃ r, after.receipts.get? deletion.id = some r ∧ r.record.receipt.status = .success)
        ∧ (∀ op ∈ rest, op.IsRequest)
        ∧ AccountId.simple 4 ∉ created {} after rest
        ∧ (accepted {} after rest).map (·.id) = [idleTransfer.id])
      ∧ ∃ gone, after.accounts.get? (.simple 4) = some gone ∧ gone.deleted = true ∧ gone.balance = 0
        ∧ (after.run {} rest).accounts.get? (.simple 4) = some gone := by
  let := scheme
  intro after rest
  have haccepted : ledger.acceptedBy {} (.submit signedDeletion ⟨1001, 0⟩) = some deletion := by
    decide +kernel
  have hstatus : (after.receipts.get? deletion.id).map (·.record.receipt.status) = some .success := by
    decide +kernel
  have hsuccess := Option.map_eq_some_iff.mp hstatus
  have hrest : ∀ op ∈ rest, op.IsRequest := by
    intro op hop
    simp only [rest, List.mem_cons, List.not_mem_nil, or_false] at hop
    rcases hop with rfl | rfl <;> trivial
  have hslot : AccountId.simple 4 ∉ created {} after rest := by decide +kernel
  have hlater : (accepted {} after rest).map (·.id) = [idleTransfer.id] := by decide +kernel
  have hnone : (accepted {} after rest).countP (·.node = .simple 4) = 0 := by decide +kernel
  obtain ⟨gone, hgone, hdeleted, hbalance, hfinal⟩ :=
    deleted_account_final haccepted (d := ⟨.simple 4, .simple 5⟩) rfl hsuccess hrest hslot
  rw [hnone, gone.withFees_zero] at hfinal
  exact ⟨⟨haccepted, hsuccess, hrest, hslot, hlater⟩, gone, hgone, hdeleted, hbalance, hfinal⟩

open Trial in
set_option maxRecDepth 10000 in
/-- **A deleted account still collects fees**: the account of the node, deleted and empty, is credited
with the fee of the next transaction. -/
theorem deleted_node_collects_fee :
    letI := scheme
    let after := ledgerWithNode.perform {} (.submit signedNodeDeletion ⟨1001, 0⟩)
    let later := after.perform {} (.submit signedIdleTransfer ⟨1002, 0⟩)
    (after.receipts.get? nodeDeletion.id).map (·.record.receipt.status) = some .success
      ∧ (after.accounts.get? (.simple 3)).map (fun a => (a.deleted, a.balance)) = some (true, 0)
      ∧ (later.accounts.get? (.simple 3)).map (fun a => (a.deleted, a.balance))
        = some (true, defaultFee) := by
  let := scheme
  decide +kernel

end Ledger

end ShardLedger
