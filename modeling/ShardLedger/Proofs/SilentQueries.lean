import ShardLedger.Ledger.Archive
import ShardLedger.Proofs.ReceiptFrame
/-
Queries leave no trace but countdowns.

A run is compared with the same run without some of its queries.  The two ledgers have the same accounts,
numbers and times, and the same receipts but for the polls that are left before each is shown.  Nothing
that is done to a ledger looks at those: a transaction only asks whether there is a receipt under its
identifier, and receipts are dropped by their end of validity.  So whatever is done to both ledgers leaves
them alike, with the same answer to a submission, and a query that is done to one of them leaves them alike
as well.

Two polls concern one receipt each.  Polls for different transactions do not meet.
-/

set_option autoImplicit false

namespace ShardLedger

/-! ## 1. Receipts but for their countdowns -/

/-- **A receipt without its countdown**: all that a poll leaves as it is. -/
def Retained.uncounted (r : Retained) : Retained :=
  { r with remainingPolls := none }

/-- No query changes anything of a receipt but its countdown. -/
theorem Retained.uncounted_asked (q : Query) (id : TransactionId) (r : Retained) :
    (r.asked q id).uncounted = r.uncounted := by
  unfold asked
  by_cases hpoll : q = ⟨.answer, .transactionReceipt id⟩
  · rw [if_pos hpoll]
    unfold Ledger.pollReceipt
    by_cases hrevealed : r.isRevealed
    · rw [if_pos hrevealed]
    · rw [if_neg hrevealed]
      rfl
  · rw [if_neg hpoll]

/-- **Receipts are the same but for their countdowns.** -/
def SameUncounted (receipts receipts' : Table TransactionId Retained) : Prop :=
  ∀ id, (receipts'.get? id).map Retained.uncounted = (receipts.get? id).map Retained.uncounted

section SameUncounted

variable {receipts receipts' : Table TransactionId Retained}

/-- The same transactions have receipts. -/
theorem SameUncounted.contains_eq (h : SameUncounted receipts receipts') (id : TransactionId) :
    receipts'.contains id = receipts.contains id := by
  rw [Table.contains, Table.contains, ← Option.isSome_map (f := Retained.uncounted), h id,
    Option.isSome_map]

/-- What is kept by the end of validity is the same. -/
theorem SameUncounted.filter (h : SameUncounted receipts receipts') (keeps : Timestamp → Bool) :
    SameUncounted (receipts.filter fun _ r => keeps r.expiresAt)
      (receipts'.filter fun _ r => keeps r.expiresAt) := by
  -- A receipt and the same without its countdown are kept alike.
  have hkeeps : ∀ r? : Option Retained, (r?.filter fun r => keeps r.expiresAt).map Retained.uncounted
      = (r?.map Retained.uncounted).filter fun r => keeps r.expiresAt := by
    intro r?
    rw [Option.filter_map]
    rfl
  intro id
  rw [Table.get?_filter, Table.get?_filter, hkeeps, hkeeps, h id]

/-- A receipt that is added is the same. -/
theorem SameUncounted.set (h : SameUncounted receipts receipts') (id : TransactionId) (r : Retained) :
    SameUncounted (receipts.set id r) (receipts'.set id r) := by
  intro k
  rw [Table.get?_set, Table.get?_set]
  by_cases hk : k = id
  · rw [if_pos hk, if_pos hk]
  · rw [if_neg hk, if_neg hk]
    exact h k

end SameUncounted

namespace Ledger

/-! ## 2. Ledgers but for countdowns -/

/-- **Two ledgers are alike but for countdowns.** -/
structure AlikeUncounted (l l' : Ledger) : Prop where
  accounts : l'.accounts = l.accounts
  nextAccount : l'.nextAccount = l.nextAccount
  lastConsensus : l'.lastConsensus = l.lastConsensus
  journal : l'.journal = l.journal
  receipts : SameUncounted l.receipts l'.receipts

section Alike

variable {c : Config} {l l' l'' : Ledger}

theorem AlikeUncounted.refl (l : Ledger) : AlikeUncounted l l :=
  ⟨rfl, rfl, rfl, rfl, fun _ => rfl⟩

theorem AlikeUncounted.symm (h : AlikeUncounted l l') : AlikeUncounted l' l :=
  ⟨h.accounts.symm, h.nextAccount.symm, h.lastConsensus.symm, h.journal.symm,
    fun id => (h.receipts id).symm⟩

theorem AlikeUncounted.trans (h : AlikeUncounted l l') (h' : AlikeUncounted l' l'') :
    AlikeUncounted l l'' :=
  ⟨h'.accounts.trans h.accounts, h'.nextAccount.trans h.nextAccount,
    h'.lastConsensus.trans h.lastConsensus, h'.journal.trans h.journal,
    fun id => (h'.receipts id).trans (h.receipts id)⟩

/-- A ledger with the same receipts but for their countdowns is alike. -/
theorem alike_withReceipts {receipts : Table TransactionId Retained}
    (h : SameUncounted l.receipts receipts) : AlikeUncounted l (l.withReceipts receipts) :=
  ⟨rfl, rfl, rfl, rfl, h⟩

/-- Ledgers that are alike differ in their receipts alone. -/
theorem AlikeUncounted.eq_withReceipts (h : AlikeUncounted l l') :
    l' = l.withReceipts l'.receipts := by
  obtain ⟨accounts, receipts, nextAccount, lastConsensus, journal⟩ := l'
  obtain ⟨rfl, rfl, rfl, rfl, -⟩ := h
  rfl

/-- **A query leaves a ledger alike.** -/
theorem alike_ask (c : Config) (l : Ledger) (q : Query) : AlikeUncounted l (l.ask c q).2 := by
  rw [ask_eq_withReceipts]
  apply alike_withReceipts
  intro id
  rw [get?_receipts_asked, Option.map_map]
  congr 1
  funext r
  exact r.uncounted_asked q id

/-! ## 3. One operation -/

variable [SignatureScheme]

omit [SignatureScheme] in
/-- Dropping receipts leaves them alike. -/
theorem AlikeUncounted.prune (h : AlikeUncounted l l') (now : Timestamp) (retention : Duration) :
    AlikeUncounted (l.prune now retention) (l'.prune now retention) :=
  { h with receipts := h.receipts.filter fun expiresAt => now < expiresAt.saturatingAdd retention }

/-- The checks do not look at countdowns. -/
theorem AlikeUncounted.precheck_eq (h : AlikeUncounted l l') (c : Config) (t : SignedTransaction)
    (now : Timestamp) : l'.precheck c t now = l.precheck c t now := by
  rw [h.eq_withReceipts]
  exact precheck_withReceipts fun body _ _ _ => h.receipts.contains_eq body.id

omit [SignatureScheme] in
/-- Accepting a transaction leaves them alike: the receipt that is kept is the same, since no other receipt
has a part in it. -/
theorem AlikeUncounted.accept (h : AlikeUncounted l l') (c : Config) (t : SignedTransaction)
    (body : TransactionBody) (now : Timestamp) :
    AlikeUncounted (l.accept c t body now) (l'.accept c t body now) := by
  have hkept : (l.accept c t body now).receipts = l.receipts.set body.id (kept c l t body now) :=
    congrArg Ledger.receipts (accept_eq c l t body now)
  rw [h.eq_withReceipts, accept_withReceipts]
  apply alike_withReceipts
  rw [hkept]
  exact h.receipts.set body.id _

/-- **A submission does not look at countdowns**: it has the same answer, and leaves the ledgers alike. -/
theorem AlikeUncounted.submit (h : AlikeUncounted l l') (c : Config) (t : SignedTransaction)
    (now : Timestamp) :
    (l'.submit c t now).1 = (l.submit c t now).1
      ∧ AlikeUncounted (l.submit c t now).2 (l'.submit c t now).2 := by
  have hpruned := h.prune now c.receiptRetention
  rw [submit_eq, submit_eq, hpruned.precheck_eq]
  cases (l.prune now c.receiptRetention).precheck c t now with
  | error status => exact ⟨rfl, hpruned⟩
  | ok body => exact ⟨rfl, hpruned.accept c t body now⟩

/-- **What is done to both ledgers** has the same answer, and leaves them alike. -/
theorem AlikeUncounted.performBy (h : AlikeUncounted l l') (c : Config) (op : Operation) :
    (l'.performBy (Ledger.submit c) c op).1 = (l.performBy (Ledger.submit c) c op).1
      ∧ AlikeUncounted (l.performBy (Ledger.submit c) c op).2
          (l'.performBy (Ledger.submit c) c op).2 := by
  cases op with
  | submit t now =>
    obtain ⟨hstatus, halike⟩ := h.submit c t now
    exact ⟨congrArg some hstatus, halike⟩
  | ask q => exact ⟨rfl, (alike_ask c l q).symm.trans (h.trans (alike_ask c l' q))⟩
  | createAccount id key balance now =>
    refine ⟨rfl, { h with accounts := ?_ }⟩
    change l'.accounts.set id _ = l.accounts.set id _
    rw [h.accounts]
  | setBalance id balance =>
    refine ⟨rfl, { h with accounts := ?_ }⟩
    change l'.accounts.adjust id _ = l.accounts.adjust id _
    rw [h.accounts]

end Alike

/-! ## 4. Runs -/

/-- **A run without some of its queries.** -/
inductive Thinned : (thin full : List Operation) → Prop where
  | nil : Thinned [] []
  /-- An operation of any kind is done in both. -/
  | both {thin full : List Operation} (op : Operation) (rest : Thinned thin full) :
    Thinned (op :: thin) (op :: full)
  /-- A query is left out. -/
  | without {thin full : List Operation} (q : Query) (rest : Thinned thin full) :
    Thinned thin (.ask q :: full)

section Run

variable [SignatureScheme] {c : Config}

/-- **Leaving out queries** changes no answer to a submission, and leaves the ledgers alike.  The induction
is on what is left out, for any two ledgers that are alike to begin with. -/
theorem AlikeUncounted.thinned {thin full : List Operation} (hthin : Thinned thin full) {l l' : Ledger}
    (h : AlikeUncounted l l') :
    statuses (Ledger.submit c) c l' thin = statuses (Ledger.submit c) c l full
      ∧ AlikeUncounted (l.run c full) (l'.run c thin) := by
  induction hthin generalizing l l' with
  | nil => exact ⟨rfl, h⟩
  | both op rest ih =>
    obtain ⟨hanswer, halike⟩ := h.performBy c op
    obtain ⟨hstatuses, hrun⟩ := ih halike
    rw [performBy_submit, performBy_submit] at hrun
    refine ⟨?_, hrun⟩
    rw [statuses, statuses, hanswer, hstatuses]
  | without q rest ih => exact ih ((alike_ask c _ q).symm.trans h)

end Run

/-! ## 5. Two queries -/

/-- What two queries leave of a receipt does not depend on which comes first. -/
theorem asked_asked (q q' : Query) (id : TransactionId) (r : Retained) :
    (r.asked q id).asked q' id = (r.asked q' id).asked q id := by
  by_cases hq : q = ⟨.answer, .transactionReceipt id⟩
  · by_cases hq' : q' = ⟨.answer, .transactionReceipt id⟩
    · rw [hq, hq']
    · rw [Retained.asked_of_ne id _ hq', Retained.asked_of_ne id _ hq']
  · rw [Retained.asked_of_ne id _ hq, Retained.asked_of_ne id _ hq]

section Polls

variable (c : Config) (l : Ledger)

/-- **Two queries leave the same ledger** whichever comes first. -/
theorem ask_ask (q q' : Query) : ((l.ask c q).2.ask c q').2 = ((l.ask c q').2.ask c q).2 := by
  have hreceipts : ((l.ask c q).2.ask c q').2.receipts = ((l.ask c q').2.ask c q).2.receipts := by
    apply Table.ext_get?
    intro id
    simp only [get?_receipts_asked, Option.map_map]
    congr 1
    funext r
    exact asked_asked q q' id r
  -- Each way there is nothing else that has changed.
  have hfirst : ∀ p p' : Query, ((l.ask c p).2.ask c p').2
      = l.withReceipts ((l.ask c p).2.ask c p').2.receipts := by
    intro p p'
    rw [ask_eq_withReceipts, ask_eq_withReceipts c l p]
    rfl
  rw [hfirst q q', hfirst q' q, hreceipts]

/-- **A poll is answered alike** before and after a poll for another transaction. -/
theorem reply_poll_of_ne {id id' : TransactionId} (h : id ≠ id') :
    ((l.ask c ⟨.answer, .transactionReceipt id⟩).2.ask c ⟨.answer, .transactionReceipt id'⟩).1
      = (l.ask c ⟨.answer, .transactionReceipt id'⟩).1 := by
  -- The reply depends on the receipt of its own transaction alone, which the other poll leaves as it is.
  have hne : (⟨.answer, .transactionReceipt id⟩ : Query) ≠ ⟨.answer, .transactionReceipt id'⟩ := by
    intro heq
    cases heq
    exact h rfl
  have hreceipt : (l.ask c ⟨.answer, .transactionReceipt id⟩).2.receipts.get? id'
      = l.receipts.get? id' := by
    rw [get?_receipts_asked]
    cases l.receipts.get? id' with
    | none => rfl
    | some r => exact congrArg some (r.asked_of_ne id' hne)
  simp only [ask, answer] at hreceipt ⊢
  rw [hreceipt]
  cases l.receipts.get? id' <;> rfl

end Polls

/-- **Queries have no influence on the ledger.**  Leaving any of its queries out of a run changes no answer
to a submission, and nothing of the ledger that is left but the countdowns of its receipts.  And two polls
for different transactions may change places: each has the same reply, and they leave the same ledger.

The work is in `AlikeUncounted.performBy`: all that a query changes is a countdown, and no submission looks
at one. -/
theorem queries_without_influence [SignatureScheme] (c : Config) (l : Ledger) :
    (∀ thin full, Thinned thin full →
        statuses (submit c) c l thin = statuses (submit c) c l full
          ∧ AlikeUncounted (l.run c full) (l.run c thin))
      ∧ ∀ id id', id ≠ id' →
        let poll : Query := ⟨.answer, .transactionReceipt id⟩
        let poll' : Query := ⟨.answer, .transactionReceipt id'⟩
        ((l.ask c poll).2.ask c poll').1 = (l.ask c poll').1
          ∧ ((l.ask c poll').2.ask c poll).1 = (l.ask c poll).1
          ∧ ((l.ask c poll).2.ask c poll').2 = ((l.ask c poll').2.ask c poll).2 := by
  refine ⟨fun thin full hthin => (AlikeUncounted.refl l).thinned hthin, fun id id' hne => ?_⟩
  exact ⟨reply_poll_of_ne c l hne, reply_poll_of_ne c l hne.symm, ask_ask c l _ _⟩

open Trial in
/-- **The deletion twice**, with nobody looking. -/
def unwatched : List Operation :=
  [.submit signedDeletion ⟨1001, 0⟩, .setBalance (.simple 5) 7, .submit signedDeletion ⟨1002, 0⟩]

open Trial in
/-- **The deletion twice**, with polls before and between and after. -/
def watched : List Operation :=
  [ .ask ⟨.answer, .transactionReceipt deletion.id⟩
  , .submit signedDeletion ⟨1001, 0⟩
  , .ask ⟨.answer, .transactionReceipt deletion.id⟩
  , .setBalance (.simple 5) 7
  , .ask ⟨.answer, .transactionReceipt deletion.id⟩
  , .submit signedDeletion ⟨1002, 0⟩
  , .ask ⟨.answer, .accountRecords (.simple 2)⟩ ]

/-- The deletion is accepted once, watched or not, and then it is a duplicate; and it does not matter which
of two transactions is polled for first. -/
theorem queries_without_influence_deletion :
    letI := Trial.scheme
    let id : TransactionId := ⟨.simple 2, ⟨1000, 0⟩⟩
    let id' : TransactionId := ⟨.simple 4, ⟨1000, 0⟩⟩
    statuses (submit {}) {} Trial.ledger watched = [.ok, .duplicateTransaction]
      ∧ statuses (submit {}) {} Trial.ledger unwatched = [.ok, .duplicateTransaction]
      ∧ AlikeUncounted (Trial.ledger.run {} watched) (Trial.ledger.run {} unwatched)
      ∧ id ≠ id'
      ∧ ((Trial.ledger.ask {} ⟨.answer, .transactionReceipt id⟩).2.ask {}
            ⟨.answer, .transactionReceipt id'⟩).2
        = ((Trial.ledger.ask {} ⟨.answer, .transactionReceipt id'⟩).2.ask {}
            ⟨.answer, .transactionReceipt id⟩).2 := by
  let := Trial.scheme
  intro id id'
  have hthin : Thinned unwatched watched :=
    .without _ (.both _ (.without _ (.both _ (.without _ (.both _ (.without _ .nil))))))
  have hne : id ≠ id' := by decide
  have hwatched : statuses (submit {}) {} Trial.ledger watched = [.ok, .duplicateTransaction] := by
    decide +kernel
  obtain ⟨hruns, hpolls⟩ := queries_without_influence {} Trial.ledger
  obtain ⟨hstatuses, halike⟩ := hruns unwatched watched hthin
  obtain ⟨-, -, hstate⟩ := hpolls id id' hne
  exact ⟨hwatched, hstatuses.trans hwatched, halike, hne, hstate⟩

end Ledger

end ShardLedger
