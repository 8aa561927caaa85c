import ShardLedger.Proofs.Settlement
/-
What an accepted transaction can do, in five cases.

Once its fee is paid a transaction either fails, and then the ledger is as the fee left it, or it
creates, transfers, updates or deletes.  The cases below carry every check that was passed on the way,
so that an invariant of transactions is argued on them and no handler is opened again.
-/

set_option autoImplicit false

namespace ShardLedger

/-! ## 1. Chains of checks -/

/-- A chain succeeds exactly if its first check does and then the rest. -/
theorem bind_eq_ok {ε α β : Type} {x : Except ε α} {f : α → Except ε β} {b : β} :
    (x >>= f) = .ok b ↔ ∃ a, x = .ok a ∧ f a = .ok b := by
  cases x <;> simp [bind, Except.bind]

/-- A demand succeeds exactly if its condition holds. -/
theorem require_eq_ok {p : Prop} [Decidable p] {status : Status} {u : Unit} :
    require p status = .ok u ↔ p := by
  unfold require
  by_cases h : p <;> simp [h]

/-- **A check fails with nothing but** the statuses listed. -/
def FailsWith {α : Type} (statuses : List Status) (x : Except Status α) : Prop :=
  ∀ status, x = .error status → status ∈ statuses

namespace FailsWith

variable {α β : Type} {statuses more : List Status} {x : Except Status α}
  {f : α → Except Status β}

theorem ok (a : α) : FailsWith statuses (.ok a : Except Status α) := nofun

theorem error {status : Status} (h : status ∈ statuses) :
    FailsWith statuses (.error status : Except Status α) := by
  rintro _ ⟨⟩
  exact h

theorem mono (hx : FailsWith statuses x) (hsub : ∀ s ∈ statuses, s ∈ more) : FailsWith more x :=
  fun status h => hsub status (hx status h)

theorem require {p : Prop} [Decidable p] {status : Status} (h : status ∈ statuses) :
    FailsWith statuses (require p status) := by
  unfold ShardLedger.require
  split
  · exact .ok ()
  · exact .error h

/-- A chain fails with what its checks fail with. -/
theorem bind (hx : FailsWith statuses x) (hf : ∀ a, FailsWith statuses (f a)) :
    FailsWith statuses (x >>= f) := by
  intro status h
  cases x with
  | error s =>
    obtain rfl : s = status := Except.error.inj h
    exact hx s rfl
  | ok a => exact hf a status h

/-- A chain whose first check succeeds fails with what the rest fails with. -/
theorem bind_of_eq_ok {a : α} (hx : x = .ok a) (hf : FailsWith statuses (f a)) :
    FailsWith statuses (x >>= f) := by
  rw [hx]
  exact hf

/-- A chain that begins with a demand that is met fails with what the rest fails with. -/
theorem bind_of_met {p : Prop} [Decidable p] {status : Status} {g : Unit → Except Status β} (hp : p)
    (hg : FailsWith statuses (g ())) : FailsWith statuses (ShardLedger.require p status >>= g) :=
  bind_of_eq_ok (require_eq_ok.mpr hp) hg

theorem map {f : α → β} (hx : FailsWith statuses x) : FailsWith statuses (x.map f) := by
  cases x with
  | error s => exact .error (hx s rfl)
  | ok a => exact .ok (f a)

/-- Checks of many, one after the other, fail with what each fails with. -/
theorem mapM {as : List α} (h : ∀ a, FailsWith statuses (f a)) : FailsWith statuses (as.mapM f) := by
  induction as with
  | nil => exact .ok []
  | cons a as ih =>
    rw [List.mapM_cons]
    exact (h a).bind fun b => ih.bind fun bs => .ok (b :: bs)

end FailsWith

namespace Ledger

/-! ## 2. The state after each success -/

/-- **After a creation**: the payer is debited, and a new account under the next number is credited. -/
def afterCreate (l : Ledger) (payer : AccountId) (c : Creation) (period : Duration)
    (now : Timestamp) : Ledger :=
  let debited := l.debit payer c.initialBalance
  let opened := { debited with
    nextAccount := l.nextAccount + 1
    accounts := debited.accounts.set (.simple l.nextAccount) (.opened c.key 0 period now) }
  opened.credit (.simple l.nextAccount) c.initialBalance

/-- **After an update**: one account is overwritten. -/
def afterUpdate (l : Ledger) (u : Update) (a : Account) (period : Option Duration) : Ledger :=
  { l with accounts := l.accounts.set u.accountId (updated a u.key period) }

/-- **After a deletion**: what the account held has moved to the beneficiary, and it is marked. -/
def afterDelete (l : Ledger) (d : Deletion) (a : Account) : Ledger :=
  let swept := (l.debit d.accountId a.balance).credit d.beneficiary a.balance
  { swept with accounts := swept.accounts.adjust d.accountId fun a => { a with deleted := true } }

/-! ## 3. The cases -/

/-- **What an accepted transaction can fail with.** -/
def failures : List Status :=
  [.autoRenewDurationNotInRange, .insufficientPayerBalance, .invalidAccountAmounts,
    .invalidAccountId, .accountDeleted, .insufficientAccountBalance,
    .transferAccountSameAsDeleteAccount]

/-- **The outcomes of a transaction**: its receipt and the ledger after it. -/
inductive Applied (l : Ledger) (payer : AccountId) (now : Timestamp) :
    Payload → Receipt → Ledger → Prop
  | failed {payload : Payload} {status : Status} (fails : status ∈ failures) :
    Applied l payer now payload (.ofStatus status) l
  | created {c : Creation} {period : Duration} {a : Account}
    (pays : l.accounts.get? payer = some a) (funded : c.initialBalance ≤ a.balance)
    (renews : autoRenewPeriod? c.autoRenewSeconds = some period) :
    Applied l payer now (.create c) ⟨.success, some (.simple l.nextAccount)⟩
      (l.afterCreate payer c period now)
  | transferred {legs : List AccountAmount} {settled : List (AccountId × UInt64 × Int)}
    (balanced : (netOf legs).values.sum = 0)
    (settles : l.settlement (netOf legs).entries = .ok settled) :
    Applied l payer now (.transfer legs) (.ofStatus .success) (settled.foldl settle l)
  | updated {u : Update} {a : Account} {period : Option Duration}
    (there : l.accounts.get? u.accountId = some a) (live : a.deleted = false)
    (renews : renewal u = .ok period) :
    Applied l payer now (.update u) (.ofStatus .success) (l.afterUpdate u a period)
  | deleted {d : Deletion} {a b : Account}
    (distinct : d.accountId ≠ d.beneficiary)
    (there : l.accounts.get? d.accountId = some a) (live : a.deleted = false)
    (heir : l.accounts.get? d.beneficiary = some b) (heirLive : b.deleted = false) :
    Applied l payer now (.delete d) (.ofStatus .success) (l.afterDelete d a)

/-- An account that is not there or deleted is a failure. -/
theorem failsWith_liveAccount (l : Ledger) (id : AccountId) :
    FailsWith failures (l.liveAccount id) := by
  unfold liveAccount
  split
  · exact .error (by decide)
  · split
    · exact .error (by decide)
    · exact .ok _

/-- A renewal that accounts may not have is a failure. -/
theorem failsWith_renewal (u : Update) : FailsWith failures (renewal u) := by
  unfold renewal
  split
  · exact .ok _
  · split
    · exact .ok _
    · exact .error (by decide)

/-- A balance that cannot be settled is a failure. -/
theorem failsWith_settled (l : Ledger) (id : AccountId) (delta : Int) :
    FailsWith failures (l.settled id delta) := by
  refine (failsWith_liveAccount l id).bind fun a => ?_
  dsimp only
  split
  · exact .error (by decide)
  · split
    · exact .ok _
    · exact .error (by decide)

/-- A settlement fails with the status of one of its checks. -/
theorem failsWith_settlement (l : Ledger) (net : List (AccountId × Int)) :
    FailsWith failures (l.settlement net) :=
  .mapM fun e => (failsWith_settled l e.1 e.2).bind fun balance => .ok (e.1, balance, e.2)

/-- **Every transaction has one of the five outcomes.** -/
theorem applied_apply (l : Ledger) (payer : AccountId) (payload : Payload) (now : Timestamp) :
    Applied l payer now payload (l.apply payer payload now).1 (l.apply payer payload now).2 := by
  cases payload with
  | create c =>
    rw [apply, create]
    cases hp : autoRenewPeriod? c.autoRenewSeconds with
    | none => exact .failed (by decide)
    | some period =>
      cases ha : l.accounts.get? payer with
      | none =>
        simp only [balance?, ha, Option.map_none, Option.any_none, Bool.false_eq_true, if_false]
        exact .failed (by decide)
      | some a =>
        simp only [balance?, ha, Option.map_some, Option.any_some, decide_eq_true_eq]
        by_cases hf : c.initialBalance ≤ a.balance
        · rw [if_pos hf]
          -- The number is read after the debit, which has not moved it.
          have hnext : (l.debit payer c.initialBalance).nextAccount = l.nextAccount :=
            (onlyAccounts_debit l payer c.initialBalance).nextAccount
          rw [hnext]
          exact .created ha hf hp
        · rw [if_neg hf]
          exact .failed (by decide)
  | transfer legs =>
    rw [apply, transfer]
    by_cases hsum : (netOf legs).values.sum = 0
    · rw [if_neg (not_not_intro hsum)]
      cases hs : l.settlement (netOf legs).entries with
      | error status => exact .failed (failsWith_settlement l _ status hs)
      | ok settled => exact .transferred hsum hs
    · rw [if_pos hsum]
      exact .failed (by decide)
  | update u =>
    rw [apply, update]
    cases hl : l.liveAccount u.accountId with
    | error status => exact .failed (failsWith_liveAccount l _ status hl)
    | ok a =>
      obtain ⟨ha, hd⟩ := liveAccount_eq_ok.mp hl
      cases hr : renewal u with
      | error status => exact .failed (failsWith_renewal u status hr)
      | ok period => exact .updated ha hd hr
  | delete d =>
    rw [apply, delete]
    by_cases heq : d.accountId = d.beneficiary
    · rw [if_pos heq]
      exact .failed (by decide)
    · rw [if_neg heq]
      cases hl : l.liveAccount d.accountId with
      | error status => exact .failed (failsWith_liveAccount l _ status hl)
      | ok a =>
        obtain ⟨ha, hd⟩ := liveAccount_eq_ok.mp hl
        cases hb : l.liveAccount d.beneficiary with
        | error status => exact .failed (failsWith_liveAccount l _ status hb)
        | ok b =>
          obtain ⟨hb, hdb⟩ := liveAccount_eq_ok.mp hb
          exact .deleted heq ha hd hb hdb

/-! ## 4. What no outcome touches -/

section Frame

variable {l l' : Ledger} {payer : AccountId} {now : Timestamp} {payload : Payload}
  {receipt : Receipt}

/-- Receipts and consensus time are no business of what a transaction does. -/
theorem Applied.frame (h : Applied l payer now payload receipt l') :
    l'.receipts = l.receipts ∧ l'.lastConsensus = l.lastConsensus := by
  cases h with
  | failed => exact ⟨rfl, rfl⟩
  | @created c =>
    -- Between the debit and the credit only an account and its number are written.
    have hdebit := onlyAccounts_debit l payer c.initialBalance
    constructor
    · rw [afterCreate, (onlyAccounts_credit _ _ _).receipts]
      exact hdebit.receipts
    · rw [afterCreate, (onlyAccounts_credit _ _ _).lastConsensus]
      exact hdebit.lastConsensus
  | @transferred legs settled =>
    have hsettle := onlyAccounts_foldl_settle settled l
    exact ⟨hsettle.receipts, hsettle.lastConsensus⟩
  | updated => exact ⟨rfl, rfl⟩
  | @deleted d a =>
    have hswept : OnlyAccounts l ((l.debit d.accountId a.balance).credit d.beneficiary a.balance) :=
      (onlyAccounts_debit l _ _).trans (onlyAccounts_credit _ _ _)
    exact ⟨hswept.receipts, hswept.lastConsensus⟩

/-- Every outcome is final. -/
theorem Applied.isPending_eq_false (h : Applied l payer now payload receipt l') :
    receipt.status.isPending = false := by
  cases h with
  | failed fails =>
    have hfailures : ∀ status ∈ failures, status.isPending = false := by decide
    exact hfailures _ fails
  | created | transferred | updated | deleted => rfl

/-- A receipt of anything but success leaves the ledger as it was. -/
theorem Applied.eq_of_ne_success (h : Applied l payer now payload receipt l')
    (hs : receipt.status ≠ .success) : l' = l := by
  cases h with
  | failed => rfl
  | created => exact absurd rfl hs
  | transferred => exact absurd rfl hs
  | updated => exact absurd rfl hs
  | deleted => exact absurd rfl hs

end Frame

end Ledger

end ShardLedger
