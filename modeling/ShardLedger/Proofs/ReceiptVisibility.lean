import ShardLedger.Proofs.ReceiptFrame
import ShardLedger.Proofs.ReceiptPolls
/-
When a receipt is shown, and for how long.

The receipt of an accepted transaction is written once, with its record.  From outside two things happen
to it.  After as many polls as the settings say it is shown, and the record from the same poll on.  At
the first submission that finds its retention over, both are gone.

Nothing else brings either about or puts it off: not a poll for another receipt, not a question what a
poll costs, not a look at the record, not the same transaction once more.  So what is shown after a run
can be told from two things, how often the run polls and whether it submits past the retention.
-/

set_option autoImplicit false

namespace ShardLedger

/-! ## 1. What moves a receipt on -/

/-- **An operation polls** for the receipt of a transaction. -/
def Operation.polls (id : TransactionId) : Operation → Bool
  | .ask q => q = ⟨.answer, .transactionReceipt id⟩
  | .submit _ _ | .createAccount _ _ _ _ | .setBalance _ _ => false

/-- **How often a run polls** for the receipt of a transaction. -/
def pollsOf (id : TransactionId) (ops : List Operation) : Nat :=
  ops.countP (Operation.polls id)

/-- **An operation submits past a time**: what the clock reads is that time or later. -/
def Operation.submitsPast (time : Timestamp) : Operation → Bool
  | .submit _ now => time ≤ now
  | .ask _ | .createAccount _ _ _ _ | .setBalance _ _ => false

/-- **The time until which the receipt of a body is kept.** -/
def TransactionBody.keptUntil (c : Config) (body : TransactionBody) : Timestamp :=
  body.expiresAt.saturatingAdd c.receiptRetention

/-- **A receipt is shown after so many polls.** -/
def Config.showsAfter (c : Config) (polls : Nat) : Bool :=
  c.consensusPolls.any (·.toNat ≤ polls)

/-- **A query for the record** of a transaction. -/
def recordQuery (id : TransactionId) : Request :=
  .query ⟨.answer, .transactionRecord id⟩

/-- **A response that shows a record.** -/
def shownRecord (record : Record) : Response :=
  .query ⟨.ok, .answer, 0, some (.transactionRecord record)⟩

/-- **A response with nothing to show** but a status. -/
def notFound (status : Status) : Response :=
  .query ⟨status, .answer, 0, none⟩

namespace Ledger

section Signing

variable [SignatureScheme]

/-- **What a ledger shows of a transaction** whose receipt it keeps: receipt and record if they are
revealed, and else a receipt that is pending and no record. -/
structure Shows (c : Config) (l : Ledger) (record : Record) (revealed : Bool) : Prop where
  kept : l.receipts.contains record.id = true
  receipt : ∀ now, (l.handle c (receiptPoll record.id) now).1
    = shown (if revealed then record.receipt else .pending)
  record : ∀ now, (l.handle c (recordQuery record.id) now).1
    = if revealed then shownRecord record else notFound .recordNotFound

/-- **What a ledger shows of a transaction that it knows nothing of.** -/
structure Forgets (c : Config) (l : Ledger) (id : TransactionId) : Prop where
  dropped : l.receipts.contains id = false
  receipt : ∀ now, (l.handle c (receiptPoll id) now).1 = notFound .receiptNotFound
  record : ∀ now, (l.handle c (recordQuery id) now).1 = notFound .recordNotFound

/-! ## 2. While a receipt is kept -/

omit [SignatureScheme] in
/-- **A ledger keeps a record** until a time, and holds it back for so many more polls, or for ever. -/
def Keeps (c : Config) (l : Ledger) (record : Record) (time : Timestamp) (left : Option Nat) : Prop :=
  ∃ r, l.receipts.get? record.id = some r ∧ r.record = record
    ∧ r.expiresAt.saturatingAdd c.receiptRetention = time ∧ r.remainingPolls.map UInt32.toNat = left

section Keeps

variable {c : Config} {l : Ledger} {record : Record} {time : Timestamp} {left : Option Nat}

/-- What is shown depends on whether a poll is left. -/
theorem Keeps.shows (h : Keeps c l record time left) : Shows c l record (left = some 0) := by
  obtain ⟨r, hr, rfl, -, hleft⟩ := h
  have hrevealed : r.isRevealed = decide (left = some 0) := by
    rw [Bool.eq_iff_iff, decide_eq_true_eq]
    exact Retained.isRevealed_iff hleft
  refine ⟨?_, ?_, ?_⟩
  · rw [Table.contains, hr]
    rfl
  · intro now
    simp only [handle, receiptPoll, ask, answer, hr, pollReceipt, hrevealed]
    by_cases hzero : left = some 0 <;> simp [hzero, shown]
  · intro now
    simp only [handle, recordQuery, ask, answer, hr, hrevealed]
    by_cases hzero : left = some 0 <;> simp [hzero, shownRecord, notFound]

omit [SignatureScheme] in
/-- A query counts down if it is a poll for the receipt, and else leaves it alone. -/
theorem Keeps.ask (h : Keeps c l record time left) (q : Query) :
    Keeps c (l.ask c q).2 record time
      (if q = ⟨.answer, .transactionReceipt record.id⟩ then left.map (· - 1) else left) := by
  obtain ⟨r, hr, hrecord, htime, hleft⟩ := h
  refine ⟨r.asked q record.id, ?_, ?_⟩
  · rw [get?_receipts_asked, hr, Option.map_some]
  · rw [Retained.record_asked, Retained.expiresAt_asked]
    by_cases hpoll : q = ⟨.answer, .transactionReceipt record.id⟩
    · obtain ⟨-, hcount⟩ := pollReceipt_counts hleft
      rw [Retained.asked, if_pos hpoll, if_pos hpoll]
      exact ⟨hrecord, htime, hcount⟩
    · rw [r.asked_of_ne record.id hpoll, if_neg hpoll]
      exact ⟨hrecord, htime, hleft⟩

/-- A submission before the time is up drops other receipts, if any, and adds another one, if any. -/
theorem Keeps.submit (h : Keeps c l record time left) (t : SignedTransaction) {now : Timestamp}
    (hnow : ¬ time ≤ now) : Keeps c (l.submit c t now).2 record time left := by
  obtain ⟨r, hr, hrecord, htime, hleft⟩ := h
  have hpruned : (l.prune now c.receiptRetention).receipts.get? record.id = some r := by
    apply get?_receipts_prune_of_lt hr
    rw [htime]
    exact Std.not_le.mp hnow
  refine ⟨r, ?_, hrecord, htime, hleft⟩
  rcases submit_cases c l t now with ⟨status, -, heq⟩ | ⟨body, payer, ha, heq⟩
  · rw [heq]
    exact hpruned
  · -- What is accepted has another identifier, since this one has a receipt.
    have hne : record.id ≠ body.id := by
      intro hid
      rw [hid, ha.fresh] at hpruned
      cases hpruned
    rw [heq, get?_receipts_accept, if_neg hne]
    exact hpruned

/-- **Every operation keeps the record** unless it submits past the time, and counts down if it polls. -/
theorem Keeps.perform (h : Keeps c l record time left) {op : Operation} (hop : ¬ op.submitsPast time) :
    Keeps c (l.perform c op) record time (if op.polls record.id then left.map (· - 1) else left) := by
  cases op with
  | submit t now =>
    have hnow : ¬ time ≤ now := fun hle => hop (decide_eq_true hle)
    exact h.submit t hnow
  | ask q =>
    simp only [Operation.polls, decide_eq_true_eq]
    exact h.ask q
  | createAccount | setBalance => exact h

/-- **A run keeps the record** unless it submits past the time, and counts down as often as it polls.
The induction is on the run, from any ledger that keeps the record. -/
theorem Keeps.run (h : Keeps c l record time left) {ops : List Operation}
    (hops : ∀ op ∈ ops, ¬ op.submitsPast time) :
    Keeps c (l.run c ops) record time (left.map (· - pollsOf record.id ops)) := by
  induction ops generalizing l left with
  | nil =>
    simp only [pollsOf, List.countP_nil, Nat.sub_zero, Option.map_id']
    exact h
  | cons op ops ih =>
    have hfirst := h.perform (hops op List.mem_cons_self)
    have hrest := ih hfirst fun later hlater => hops later (List.mem_cons_of_mem _ hlater)
    by_cases hpoll : op.polls record.id
    · have hcount : pollsOf record.id (op :: ops) = 1 + pollsOf record.id ops := by
        rw [Nat.add_comm]
        exact List.countP_cons_of_pos hpoll
      rw [if_pos hpoll, Option.map_map] at hrest
      simp only [hcount, ← Nat.sub_sub]
      exact hrest
    · have hcount : pollsOf record.id (op :: ops) = pollsOf record.id ops :=
        List.countP_cons_of_neg hpoll
      rw [if_neg hpoll] at hrest
      rw [hcount]
      exact hrest

end Keeps

omit [SignatureScheme] in
/-- A receipt is shown after as many polls as it is held back for. -/
theorem showsAfter_eq (c : Config) (polls : Nat) :
    c.showsAfter polls = decide ((c.consensusPolls.map UInt32.toNat).map (· - polls) = some 0) := by
  rw [Config.showsAfter]
  cases c.consensusPolls with
  | none => rfl
  | some n => simp [Nat.sub_eq_zero_iff_le]

/-! ## 3. Once a receipt is dropped -/

section Forgets

variable {c : Config} {l : Ledger} {id : TransactionId}

/-- What has no receipt is not found. -/
theorem forgets_of_none (h : l.receipts.get? id = none) : Forgets c l id := by
  refine ⟨?_, ?_, ?_⟩
  · rw [Table.contains, h]
    rfl
  · intro now
    simp only [handle, receiptPoll, ask, answer, h, notFound]
  · intro now
    simp only [handle, recordQuery, ask, answer, h, notFound]

/-- No receipt comes to be but by acceptance: not in a submission that has none to begin with, or drops
it. -/
theorem get?_receipts_submit_of_none {t : SignedTransaction} {now : Timestamp}
    (h : (l.prune now c.receiptRetention).receipts.get? id = none)
    (hid : ∀ body ∈ l.acceptedBy c (.submit t now), body.id ≠ id) :
    (l.submit c t now).2.receipts.get? id = none := by
  rcases submit_cases c l t now with ⟨status, -, heq⟩ | ⟨body, payer, ha, heq⟩
  · rw [heq]
    exact h
  · have haccepted : l.acceptedBy c (.submit t now) = some body := by
      rw [acceptedBy, heq, if_pos rfl, ha.decodes]
      rfl
    have hne : id ≠ body.id := (hid body haccepted).symm
    rw [heq, get?_receipts_accept, if_neg hne]
    exact h

/-- No operation makes a receipt of a transaction that it does not accept. -/
theorem get?_receipts_perform_of_none (h : l.receipts.get? id = none) {op : Operation}
    (hid : ∀ body ∈ l.acceptedBy c op, body.id ≠ id) : (l.perform c op).receipts.get? id = none := by
  cases op with
  | submit t now =>
    apply get?_receipts_submit_of_none _ hid
    rw [get?_receipts_prune, h]
    rfl
  | ask q =>
    rw [perform, get?_receipts_asked, h]
    rfl
  | createAccount | setBalance => exact h

/-- What a run accepts is accepted by its first operation or by the rest. -/
theorem mem_accepted_cons {op : Operation} {ops : List Operation} {body : TransactionBody} :
    body ∈ accepted c l (op :: ops)
      ↔ body ∈ l.acceptedBy c op ∨ body ∈ accepted c (l.perform c op) ops := by
  rw [accepted, List.mem_append, Option.mem_toList]
  rfl

/-- **What is dropped stays so**, unless it is accepted again. -/
theorem get?_receipts_run_of_none (h : l.receipts.get? id = none) {ops : List Operation}
    (hid : ∀ body ∈ accepted c l ops, body.id ≠ id) : (l.run c ops).receipts.get? id = none := by
  induction ops generalizing l with
  | nil => exact h
  | cons op ops ih =>
    have hfirst : (l.perform c op).receipts.get? id = none := by
      apply get?_receipts_perform_of_none h
      intro body hbody
      exact hid body (mem_accepted_cons.mpr (.inl hbody))
    apply ih hfirst
    intro body hbody
    exact hid body (mem_accepted_cons.mpr (.inr hbody))

end Forgets

/-! ## 4. From acceptance on -/

section Visibility

variable {c : Config} {l : Ledger}

omit [SignatureScheme] in
/-- Accepting a transaction keeps its record, and holds it back as the settings say. -/
theorem keeps_accept (c : Config) (l : Ledger) (t : SignedTransaction) (body : TransactionBody)
    (now : Timestamp) :
    Keeps c (l.accept c t body now) (kept c l t body now).record (body.keptUntil c)
      (c.consensusPolls.map UInt32.toNat) := by
  refine ⟨kept c l t body now, ?_, rfl, rfl, rfl⟩
  exact (get?_receipts_accept c l t body now body.id).trans (if_pos rfl)

/-- A submission past the time drops the record. -/
theorem Keeps.forgets {record : Record} {time now : Timestamp} {left : Option Nat}
    (h : Keeps c l record time left) (hnow : time ≤ now) (t : SignedTransaction) {rest : List Operation}
    (hid : ∀ body ∈ accepted c l (.submit t now :: rest), body.id ≠ record.id) :
    Forgets c (l.run c (.submit t now :: rest)) record.id := by
  obtain ⟨r, hr, -, htime, -⟩ := h
  have hpruned : (l.prune now c.receiptRetention).receipts.get? record.id = none := by
    apply get?_receipts_prune_of_not_lt hr
    rw [htime]
    exact Std.not_lt.mpr hnow
  have hsubmitted : (l.perform c (.submit t now)).receipts.get? record.id = none := by
    apply get?_receipts_submit_of_none hpruned
    intro body hbody
    exact hid body (mem_accepted_cons.mpr (.inl hbody))
  apply forgets_of_none
  apply get?_receipts_run_of_none hsubmitted
  intro body hbody
  exact hid body (mem_accepted_cons.mpr (.inr hbody))

/-- **An accepted transaction is shown in its time.**  It has one record, of a receipt that is final.  For
every run that does not submit past its retention, the ledger then shows the receipt and the record if
the run has polled for the receipt as often as the settings say, and else a pending receipt and no
record.  At the first submission past the retention both are dropped, and from then on neither is found,
unless the identifier is accepted again.

The work is in `Keeps.run`, which follows the receipt and what is left of its countdown through a run. -/
theorem receipt_shown_until_dropped (c : Config) (l : Ledger) (t : SignedTransaction) (now : Timestamp)
    (h : (l.submit c t now).1 = .ok) :
    ∃ body record, t.body = .ok body ∧ record.id = body.id ∧ record.receipt.status ≠ .unknown
      ∧ ∀ ops, (∀ op ∈ ops, ¬ op.submitsPast (body.keptUntil c)) →
        Shows c ((l.submit c t now).2.run c ops) record (c.showsAfter (pollsOf body.id ops))
        ∧ ∀ t' now' rest, body.keptUntil c ≤ now' →
          (∀ later ∈ accepted c ((l.submit c t now).2.run c ops) (.submit t' now' :: rest),
            later.id ≠ body.id) →
          Forgets c (((l.submit c t now).2.run c ops).run c (.submit t' now' :: rest)) body.id := by
  rcases submit_cases c l t now with ⟨status, hne, heq⟩ | ⟨body, payer, ha, heq⟩
  · rw [heq] at h
    exact absurd h hne
  · have hfinal := (outcome_applied c (l.prune now c.receiptRetention) body now).isPending_eq_false
    refine ⟨body, (kept c (l.prune now c.receiptRetention) t body now).record, ha.decodes, rfl,
      of_decide_eq_false hfinal, ?_⟩
    intro ops hops
    rw [heq]
    have hkeeps := (keeps_accept c (l.prune now c.receiptRetention) t body now).run hops
    refine ⟨?_, ?_⟩
    · rw [showsAfter_eq]
      exact hkeeps.shows
    · intro t' now' rest hnow hid
      exact hkeeps.forgets hnow t' hid

end Visibility

end Signing

open Trial in
/-- **A run with two polls** for the receipt of the deletion, and other things that concern it. -/
def twoPolls : List Operation :=
  [ .ask ⟨.answer, .transactionReceipt deletion.id⟩
  , .ask ⟨.answer, .transactionRecord deletion.id⟩
  , .submit signedDeletion ⟨1002, 0⟩
  , .ask ⟨.cost, .transactionReceipt deletion.id⟩
  , .ask ⟨.answer, .transactionReceipt deletion.id⟩ ]

open Trial in
set_option maxRecDepth 10000 in
/-- Where a receipt is held back for two polls, that of the deletion is shown after them, and not found
when the deletion is submitted long after. -/
theorem receipt_shown_until_dropped_deletion :
    letI := scheme
    let c : Config := { consensusPolls := some 2 }
    let later := (ledger.submit c signedDeletion ⟨1001, 0⟩).2.run c twoPolls
    (ledger.submit c signedDeletion ⟨1001, 0⟩).1 = .ok
      ∧ ∃ record, record.id = deletion.id ∧ record.receipt.status ≠ .unknown
        ∧ Shows c later record true
        ∧ Forgets c (later.run c [.submit signedDeletion ⟨2000, 0⟩]) deletion.id := by
  let := scheme
  intro c later
  have hok : (ledger.submit c signedDeletion ⟨1001, 0⟩).1 = .ok := by decide +kernel
  have hbody : signedDeletion.body = .ok deletion := by decide +kernel
  have hkept : ∀ op ∈ twoPolls, ¬ op.submitsPast (deletion.keptUntil c) := by decide +kernel
  have hpast : deletion.keptUntil c ≤ ⟨2000, 0⟩ := by decide +kernel
  have hunaccepted : ∀ body ∈ accepted c later [.submit signedDeletion ⟨2000, 0⟩],
      body.id ≠ deletion.id := by decide +kernel
  have hshows : c.showsAfter (pollsOf deletion.id twoPolls) = true := by decide +kernel
  obtain ⟨body, record, hread, hid, hfinal, hruns⟩ :=
    receipt_shown_until_dropped c ledger signedDeletion ⟨1001, 0⟩ hok
  obtain rfl : body = deletion := Except.ok.inj (hread.symm.trans hbody)
  obtain ⟨hshown, hdropped⟩ := hruns twoPolls hkept
  rw [hshows] at hshown
  exact ⟨hok, record, hid, hfinal, hshown,
    hdropped signedDeletion ⟨2000, 0⟩ [] hpast hunaccepted⟩

end Ledger

end ShardLedger
