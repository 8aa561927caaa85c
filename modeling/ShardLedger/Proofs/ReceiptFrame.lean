import ShardLedger.Proofs.AtMostOnce
/-
What receipts have to do with the rest of a ledger.

Nothing that a transaction does looks at receipts.  They matter to its checks in one place, where its
identifier must not have one, and that check comes after the one of its validity.  So two ledgers that
differ in their receipts alone check a transaction alike, unless it is valid and one of them remembers
its identifier where the other does not; and if they accept it, they still differ in their receipts alone.
-/

set_option autoImplicit false

namespace ShardLedger

/-- A chain is settled by what follows on the values that its first check gives. -/
theorem bind_congr_of_ok {ε α β : Type} {x : Except ε α} {f g : α → Except ε β}
    (h : ∀ a, x = .ok a → f a = g a) : (x >>= f) = (x >>= g) := by
  cases x with
  | error e => rfl
  | ok a => exact h a rfl

namespace Ledger

/-- **The ledger with other receipts.** -/
def withReceipts (l : Ledger) (receipts : Table TransactionId Retained) : Ledger :=
  { l with receipts := receipts }

section Frame

variable (l : Ledger) (receipts : Table TransactionId Retained)

theorem prune_withReceipts (now : Timestamp) (retention : Duration) :
    (l.withReceipts receipts).prune now retention
      = l.withReceipts (receipts.filter fun _ r => now < r.expiresAt.saturatingAdd retention) := by
  rw [prune, withReceipts, withReceipts]

/-! ## 1. Moves and handlers -/

theorem debit_withReceipts (id : AccountId) (amount : UInt64) :
    (l.withReceipts receipts).debit id amount = (l.debit id amount).withReceipts receipts := by
  unfold debit withReceipts
  cases l.accounts.get? id <;> rfl

theorem credit_withReceipts (id : AccountId) (amount : UInt64) :
    (l.withReceipts receipts).credit id amount = (l.credit id amount).withReceipts receipts := by
  unfold credit withReceipts
  cases l.accounts.get? id <;> rfl

theorem foldl_settle_withReceipts (settled : List (AccountId × UInt64 × Int)) :
    settled.foldl settle (l.withReceipts receipts)
      = (settled.foldl settle l).withReceipts receipts := by
  induction settled generalizing l with
  | nil => rfl
  | cons e settled ih =>
    rw [List.foldl_cons, List.foldl_cons, ← ih]
    rfl

theorem create_withReceipts (payer : AccountId) (c : Creation) (now : Timestamp) :
    (l.withReceipts receipts).create payer c now
      = ((l.create payer c now).1, (l.create payer c now).2.withReceipts receipts) := by
  have hbalance : (l.withReceipts receipts).balance? payer = l.balance? payer := rfl
  unfold create
  cases autoRenewPeriod? c.autoRenewSeconds with
  | none => rfl
  | some period =>
    by_cases h : (l.balance? payer).any (c.initialBalance ≤ ·) = true
    · -- Between the debit and the credit an account is opened, without regard to receipts.
      have hcredit := credit_withReceipts
        { l.debit payer c.initialBalance with
          nextAccount := (l.debit payer c.initialBalance).nextAccount + 1
          accounts := (l.debit payer c.initialBalance).accounts.set (.simple l.nextAccount)
            (.opened c.key 0 period now) }
        receipts (.simple l.nextAccount) c.initialBalance
      simp only [hbalance, if_pos h, debit_withReceipts]
      rw [← hcredit]
      rfl
    · simp only [hbalance, if_neg h]

theorem transfer_withReceipts (legs : List AccountAmount) :
    (l.withReceipts receipts).transfer legs
      = ((l.transfer legs).1, (l.transfer legs).2.withReceipts receipts) := by
  have hsettlement : ∀ net, (l.withReceipts receipts).settlement net = l.settlement net := fun _ => rfl
  unfold transfer
  by_cases h : (netOf legs).values.sum = 0
  · simp only [if_neg (not_not_intro h), hsettlement]
    cases l.settlement (netOf legs).entries with
    | error status => rfl
    | ok settled => simp only [foldl_settle_withReceipts]
  · simp only [if_pos h]

theorem update_withReceipts (u : Update) :
    (l.withReceipts receipts).update u = ((l.update u).1, (l.update u).2.withReceipts receipts) := by
  have hlive : ∀ id, (l.withReceipts receipts).liveAccount id = l.liveAccount id := fun _ => rfl
  unfold update
  rw [hlive]
  cases l.liveAccount u.accountId with
  | error status => rfl
  | ok a => cases renewal u <;> rfl

theorem delete_withReceipts (d : Deletion) :
    (l.withReceipts receipts).delete d = ((l.delete d).1, (l.delete d).2.withReceipts receipts) := by
  have hlive : ∀ id, (l.withReceipts receipts).liveAccount id = l.liveAccount id := fun _ => rfl
  unfold delete
  rw [hlive, hlive]
  by_cases h : d.accountId = d.beneficiary
  · simp only [if_pos h]
  · simp only [if_neg h]
    cases l.liveAccount d.accountId with
    | error status => rfl
    | ok a =>
      cases l.liveAccount d.beneficiary with
      | error status => rfl
      | ok b =>
        simp only [debit_withReceipts, credit_withReceipts]
        rfl

/-- **No transaction looks at receipts**, or touches them. -/
theorem apply_withReceipts (payer : AccountId) (payload : Payload) (now : Timestamp) :
    (l.withReceipts receipts).apply payer payload now
      = ((l.apply payer payload now).1, (l.apply payer payload now).2.withReceipts receipts) := by
  cases payload with
  | create c => exact create_withReceipts l receipts payer c now
  | transfer legs => exact transfer_withReceipts l receipts legs
  | update u => exact update_withReceipts l receipts u
  | delete d => exact delete_withReceipts l receipts d

/-! ## 2. Accepting -/

section Accept

variable (c : Config) (t : SignedTransaction) (body : TransactionBody) (now : Timestamp)

theorem charged_withReceipts :
    charged c (l.withReceipts receipts) body = (charged c l body).withReceipts receipts := by
  have hempty : { l.withReceipts receipts with journal := .empty }
      = ({ l with journal := .empty } : Ledger).withReceipts receipts := rfl
  unfold charged chargeFee
  rw [hempty, debit_withReceipts, credit_withReceipts]

theorem outcome_withReceipts :
    outcome c (l.withReceipts receipts) body now
      = ((outcome c l body now).1, (outcome c l body now).2.withReceipts receipts) := by
  unfold outcome
  rw [charged_withReceipts, apply_withReceipts]

theorem kept_withReceipts : kept c (l.withReceipts receipts) t body now = kept c l t body now := by
  unfold kept
  rw [outcome_withReceipts]
  rfl

/-- **Accepting a transaction** does the same whatever other receipts there are. -/
theorem accept_withReceipts :
    (l.withReceipts receipts).accept c t body now
      = (l.accept c t body now).withReceipts (receipts.set body.id (kept c l t body now)) := by
  rw [accept_eq, accept_eq, kept_withReceipts, outcome_withReceipts]
  rfl

end Accept

end Frame

/-! ## 3. Checking -/

/-- **The checks look at receipts for one thing**: whether there is one under the identifier of a
transaction that is valid. -/
theorem precheck_withReceipts [SignatureScheme] {c : Config} {l : Ledger}
    {receipts : Table TransactionId Retained} {t : SignedTransaction} {now : Timestamp}
    (h : ∀ body, t.body = .ok body →
      minValidSeconds ≤ body.validSeconds ∧ body.validSeconds ≤ maxValidSeconds → now < body.expiresAt →
      receipts.contains body.id = l.receipts.contains body.id) :
    (l.withReceipts receipts).precheck c t now = l.precheck c t now := by
  unfold precheck
  refine bind_congr_of_ok fun body hbody => ?_
  refine bind_congr_of_ok fun _ _ => ?_
  refine bind_congr_of_ok fun payer _ => ?_
  refine bind_congr_of_ok fun _ hvalidity => ?_
  refine bind_congr_of_ok fun _ _ => ?_
  refine bind_congr_of_ok fun _ hunexpired => ?_
  refine bind_congr_of_ok fun _ _ => ?_
  refine bind_congr_of_ok fun _ _ => ?_
  -- Here the receipts are looked at, and no check after this one does so again.
  have hcontains := h body (mapError_eq_ok.mp hbody) (require_eq_ok.mp hvalidity)
    (require_eq_ok.mp hunexpired)
  change (do require (¬ receipts.contains body.id) _; _) = _
  simp only [hcontains]
  rfl

/-! ## 4. Asking -/

/-- A query changes receipts alone. -/
theorem ask_eq_withReceipts (c : Config) (l : Ledger) (q : Query) :
    (l.ask c q).2 = l.withReceipts (l.ask c q).2.receipts := by
  rcases ask_cases c l q with h | ⟨id, r, -, -, h⟩
  · rw [h]
    rfl
  · rw [h]
    rfl

end Ledger

end ShardLedger
