import ShardLedger.Ledger.Archive
import ShardLedger.Proofs.ReceiptFrame
/-
Who notices that receipts are dropped.

A ledger and its archive are run side by side.  They differ in receipts alone, and a receipt that only
the archive has is one whose retention is over by the clock.  So they can answer differently only to a
transaction that is still valid, under an identifier that only the archive remembers.

Such a transaction is valid for longer than the receipt of the identifier is kept.  If the retention is
at least the longest validity less the shortest, there is none.  A shorter retention leaves a gap: an
identifier that was accepted for a short while may be submitted again for a longer one.
-/

set_option autoImplicit false

namespace ShardLedger

/-- What a receipt outlasts has expired by the end of its retention. -/
theorem TransactionBody.Outlasts.expiresAt_le {c : Config} {receipted body : TransactionBody}
    (h : receipted.Outlasts c body) (hid : body.id = receipted.id) :
    body.expiresAt ≤ receipted.expiresAt.saturatingAdd c.receiptRetention := by
  rw [TransactionBody.expiresAt, TransactionBody.expiresAt, hid]
  exact Timestamp.saturatingAdd_le_add_add _ h

namespace Ledger

section Signing

/-! ## 1. Receipts and all receipts -/

/-- **Receipts are dropped in time** from all that there were: one that is missing has been kept for its
retention. -/
def DroppedInTime (c : Config) (clock : Timestamp) (receipts all : Table TransactionId Retained) : Prop :=
  ∀ id, receipts.get? id = all.get? id
    ∨ receipts.get? id = none ∧ ∃ r, all.get? id = some r
        ∧ r.expiresAt.saturatingAdd c.receiptRetention ≤ clock

section DroppedInTime

variable {c : Config} {clock now : Timestamp} {receipts all : Table TransactionId Retained}

theorem DroppedInTime.mono (h : DroppedInTime c clock receipts all) (hle : clock ≤ now) :
    DroppedInTime c now receipts all := by
  intro id
  refine (h id).imp_right ?_
  rintro ⟨hnone, r, hr, hover⟩
  exact ⟨hnone, r, hr, Std.le_trans hover hle⟩

/-- Dropping receipts whose retention is over drops them in time. -/
theorem DroppedInTime.prune (h : DroppedInTime c now receipts all) :
    DroppedInTime c now
      (receipts.filter fun _ r => now < r.expiresAt.saturatingAdd c.receiptRetention) all := by
  intro id
  rw [Table.get?_filter]
  rcases h id with heq | ⟨hnone, hover⟩
  · cases hr : receipts.get? id with
    | none =>
      rw [← heq, hr]
      exact .inl rfl
    | some r =>
      have hall : all.get? id = some r := heq ▸ hr
      by_cases hlt : now < r.expiresAt.saturatingAdd c.receiptRetention
      · left
        rw [hall]
        exact Option.filter_some_pos (decide_eq_true hlt)
      · right
        exact ⟨Option.filter_some_neg (by simpa using hlt), r, hall, Std.not_lt.mp hlt⟩
  · rw [hnone]
    exact .inr ⟨rfl, hover⟩

/-- A receipt that is added is there on both sides. -/
theorem DroppedInTime.set (h : DroppedInTime c clock receipts all) (id : TransactionId) (r : Retained) :
    DroppedInTime c clock (receipts.set id r) (all.set id r) := by
  intro k
  rw [Table.get?_set, Table.get?_set]
  by_cases hk : k = id
  · rw [if_pos hk, if_pos hk]
    exact .inl rfl
  · rw [if_neg hk, if_neg hk]
    exact h k

/-- A query leaves both sides with the receipts they had. -/
theorem DroppedInTime.ask {l : Ledger} (h : DroppedInTime c clock receipts l.receipts) (q : Query) :
    DroppedInTime c clock ((l.withReceipts receipts).ask c q).2.receipts (l.ask c q).2.receipts := by
  intro id
  rw [get?_receipts_asked, get?_receipts_asked]
  rcases h id with heq | ⟨hnone, r, hr, hover⟩
  · left
    have hsame : (l.withReceipts receipts).receipts.get? id = l.receipts.get? id := heq
    rw [hsame]
  · right
    have hgone : (l.withReceipts receipts).receipts.get? id = none := hnone
    rw [hgone, hr]
    refine ⟨rfl, r.asked q id, rfl, ?_⟩
    rw [Retained.expiresAt_asked]
    exact hover

end DroppedInTime

variable [SignatureScheme]

/-! ## 2. One submission -/

/-- **Receipts last for what follows**: a body that is yet to be submitted under the identifier of one,
with a validity that may be accepted, has expired by the end of its retention. -/
def Lasting (c : Config) (receipts : Table TransactionId Retained) (bodies : List TransactionBody) : Prop :=
  ∀ body ∈ bodies, minValidSeconds ≤ body.validSeconds ∧ body.validSeconds ≤ maxValidSeconds →
    ∀ r, receipts.get? body.id = some r →
      body.expiresAt ≤ r.expiresAt.saturatingAdd c.receiptRetention

section Submission

variable {c : Config} {l : Ledger} {receipts : Table TransactionId Retained} {t : SignedTransaction}
  {now : Timestamp} {bodies : List TransactionBody}

theorem submitArchiving_of_error {status : Status} (h : l.precheck c t now = .error status) :
    l.submitArchiving c t now = (status, l) := by
  unfold submitArchiving
  rw [h]

theorem submitArchiving_of_ok {body : TransactionBody} (h : l.precheck c t now = .ok body) :
    l.submitArchiving c t now = (.ok, l.accept c t body now) := by
  unfold submitArchiving
  rw [h]

/-- **The checks do not notice** receipts that were dropped in time, if they last. -/
theorem precheck_of_droppedInTime (h : DroppedInTime c now receipts l.receipts)
    (hlasting : Lasting c l.receipts t.body.toOption.toList) :
    (l.withReceipts receipts).precheck c t now = l.precheck c t now := by
  apply precheck_withReceipts
  intro body hbody hvalidity hunexpired
  rw [Table.contains, Table.contains]
  rcases h body.id with heq | ⟨-, r, hr, hover⟩
  · rw [heq]
  · -- The retention of the receipt is over, so what it lasts for has expired.
    have hmem : body ∈ t.body.toOption.toList := by
      rw [hbody]
      exact List.mem_singleton_self body
    have hexpired := Std.le_trans (hlasting body hmem hvalidity r hr) hover
    exact absurd hunexpired (Std.not_lt.mpr hexpired)

/-- **A submission does not notice** receipts that were dropped in time, if they last: it is answered as
by the archive, and again receipts are dropped in time. -/
theorem submit_of_droppedInTime (h : DroppedInTime c now receipts l.receipts)
    (hlasting : Lasting c l.receipts t.body.toOption.toList) :
    ∃ receipts', (l.withReceipts receipts).submit c t now
        = ((l.submitArchiving c t now).1, (l.submitArchiving c t now).2.withReceipts receipts')
      ∧ DroppedInTime c now receipts' (l.submitArchiving c t now).2.receipts := by
  have hpruned := h.prune
  have hsame := precheck_of_droppedInTime hpruned hlasting
  rw [submit_eq, prune_withReceipts]
  cases hchecked : l.precheck c t now with
  | error status =>
    rw [submitArchiving_of_error hchecked, hsame, hchecked]
    exact ⟨_, rfl, hpruned⟩
  | ok body =>
    rw [submitArchiving_of_ok hchecked, hsame, hchecked]
    refine ⟨_, congrArg (Prod.mk Status.ok) (accept_withReceipts l _ c t body now), ?_⟩
    have hkept : (l.accept c t body now).receipts = l.receipts.set body.id (kept c l t body now) :=
      congrArg Ledger.receipts (accept_eq c l t body now)
    rw [hkept]
    exact hpruned.set body.id _

/-- Receipts last on after a submission to an archive, if the one that it adds outlasts what follows. -/
theorem lasting_submitArchiving (h : Lasting c l.receipts bodies)
    (houtlasts : (l.submitArchiving c t now).1 = .ok → ∀ receipted, t.body = .ok receipted →
      ∀ body ∈ bodies, body.id = receipted.id →
        minValidSeconds ≤ body.validSeconds ∧ body.validSeconds ≤ maxValidSeconds →
        receipted.Outlasts c body) :
    Lasting c (l.submitArchiving c t now).2.receipts bodies := by
  cases hchecked : l.precheck c t now with
  | error status =>
    rw [submitArchiving_of_error hchecked]
    exact h
  | ok receipted =>
    rw [submitArchiving_of_ok hchecked] at houtlasts ⊢
    obtain ⟨payer, ha⟩ := precheck_eq_ok.mp hchecked
    intro body hbody hvalidity r hr
    rw [get?_receipts_accept] at hr
    by_cases hid : body.id = receipted.id
    · rw [if_pos hid] at hr
      obtain rfl := Option.some.inj hr
      have houtlast := houtlasts rfl receipted ha.decodes body hbody hid hvalidity
      exact houtlast.expiresAt_le hid
    · rw [if_neg hid] at hr
      exact h body hbody hvalidity r hr

end Submission

/-! ## 3. One operation -/

section Operation

variable {c : Config} {l : Ledger} {receipts : Table TransactionId Retained} {clock : Timestamp}
  {op : Operation} {bodies : List TransactionBody}

/-- What is answered with acceptance is accepted. -/
theorem acceptedBy_eq_body? (h : (l.performBy (submit c) c op).1 = some .ok) :
    l.acceptedBy c op = op.body? := by
  cases op with
  | submit t now => exact if_pos (Option.some.inj h)
  | ask | createAccount | setBalance => rfl

/-- **No operation notices** receipts that were dropped in time, if they last. -/
theorem performBy_of_droppedInTime (hclock : ∀ now ∈ op.clock?, clock ≤ now)
    (hdropped : DroppedInTime c clock receipts l.receipts) (hlasting : Lasting c l.receipts op.body?.toList) :
    ∃ receipts', (l.withReceipts receipts).performBy (submit c) c op
        = ((l.performBy (submitArchiving c) c op).1,
          (l.performBy (submitArchiving c) c op).2.withReceipts receipts')
      ∧ DroppedInTime c (op.clock?.getD clock) receipts'
          (l.performBy (submitArchiving c) c op).2.receipts := by
  cases op with
  | submit t now =>
    obtain ⟨receipts', heq, hdropped'⟩ := submit_of_droppedInTime (hdropped.mono (hclock now rfl)) hlasting
    refine ⟨receipts', ?_, hdropped'⟩
    rw [performBy, performBy, heq]
  | ask q =>
    refine ⟨((l.withReceipts receipts).ask c q).2.receipts, ?_, hdropped.ask q⟩
    rw [performBy, performBy, perform, perform, ask_eq_withReceipts, ask_eq_withReceipts c l q]
    rfl
  | createAccount id key balance now => exact ⟨receipts, rfl, hdropped.mono (hclock now rfl)⟩
  | setBalance id balance => exact ⟨receipts, rfl, hdropped⟩

/-- Receipts last on in an archive after an operation, if the one that it adds outlasts what follows. -/
theorem lasting_performBy (h : Lasting c l.receipts bodies)
    (houtlasts : ∀ receipted ∈ op.body?, (l.performBy (submitArchiving c) c op).1 = some .ok →
      ∀ body ∈ bodies, body.id = receipted.id →
        minValidSeconds ≤ body.validSeconds ∧ body.validSeconds ≤ maxValidSeconds →
        receipted.Outlasts c body) :
    Lasting c (l.performBy (submitArchiving c) c op).2.receipts bodies := by
  cases op with
  | submit t now =>
    apply lasting_submitArchiving h
    intro hok receipted hbody
    have hread : (Operation.submit t now).body? = some receipted := by
      rw [Operation.body?, hbody]
      rfl
    exact houtlasts receipted hread (congrArg some hok)
  | ask q =>
    intro body hbody hvalidity r hr
    change (l.ask c q).2.receipts.get? body.id = some r at hr
    rw [get?_receipts_asked] at hr
    obtain ⟨s, hs, rfl⟩ := Option.map_eq_some_iff.mp hr
    rw [Retained.expiresAt_asked]
    exact h body hbody hvalidity s hs
  | createAccount id key balance now => exact h
  | setBalance id balance => exact h

end Operation

/-! ## 4. Runs -/

section Run

variable {c : Config} {l : Ledger}

theorem submitted_cons (op : Operation) (ops : List Operation) :
    submitted (op :: ops) = op.body?.toList ++ submitted ops := by
  unfold submitted
  rw [List.filterMap_cons]
  cases op.body? <;> rfl

/-- **A run does not notice** receipts that were dropped in time, if they last, and if later ones outlast
the run.  The induction is on the run, for any ledger and any receipts that it has left. -/
theorem statuses_of_droppedInTime (ops : List Operation)
    {receipts : Table TransactionId Retained} {clock : Timestamp} (hpaced : Paced clock ops)
    (hdropped : DroppedInTime c clock receipts l.receipts) (hlasting : Lasting c l.receipts (submitted ops))
    (houtlast : ReceiptsOutlast c (l.withReceipts receipts) ops) :
    statuses (submit c) c (l.withReceipts receipts) ops = statuses (submitArchiving c) c l ops := by
  induction ops generalizing l receipts clock with
  | nil => rw [statuses, statuses]
  | cons op ops ih =>
    rw [submitted_cons] at hlasting
    have hnow : Lasting c l.receipts op.body?.toList := by
      intro body hbody
      exact hlasting body (List.mem_append_left _ hbody)
    have hlater : Lasting c l.receipts (submitted ops) := by
      intro body hbody
      exact hlasting body (List.mem_append_right _ hbody)
    rw [ReceiptsOutlast] at houtlast
    obtain ⟨hfirst, hrest⟩ := houtlast
    obtain ⟨receipts', heq, hdropped'⟩ := performBy_of_droppedInTime hpaced.clock_le hdropped hnow
    rw [← performBy_submit, heq] at hrest
    -- Plain rewriting, since the two ways to submit are not to be compared here.
    rewrite [statuses, statuses, heq]
    refine congrArg _ (ih hpaced.tail hdropped' (lasting_performBy hlater ?_) hrest)
    -- What the archive accepts the ledger accepts, so its receipt outlasts the rest of the run.
    intro receipted hbody hok
    apply hfirst receipted
    rw [acceptedBy_eq_body? (heq ▸ hok)]
    exact hbody

/-- **A retention as long as the longest validity less the shortest** outlasts every run. -/
theorem receiptsOutlast_of_minRetention (hretention : minRetention ≤ c.receiptRetention)
    (ops : List Operation) : ReceiptsOutlast c l ops := by
  induction ops generalizing l with
  | nil => trivial
  | cons op ops ih =>
    refine ⟨?_, ih⟩
    intro receipted haccepted body _ _ hvalidity
    obtain ⟨t, now, payer, -, ha, -⟩ := of_acceptedBy haccepted
    have hlongest := Duration.le_iff.mp (TransactionBody.total_validity hvalidity).1
    have hspan := (TransactionBody.total_validity ha.validity).2
    have hle := Duration.le_iff.mp hretention
    rw [TransactionBody.Outlasts]
    omega

/-- **Dropping receipts is invisible to submissions.**  In a run from the empty ledger in which the clock
does not go back, every submission is answered with the status that it would be answered with if no
receipt were ever dropped, as long as the retention is at least the longest validity less the shortest,
or else receipts outlast whatever the run submits again under the same identifier.

The work is in `precheck_of_droppedInTime`: a body that could notice a dropped receipt has expired. -/
theorem statuses_eq_archived (c : Config) (ops : List Operation)
    (hclock : (readings ops).Pairwise (· ≤ ·))
    (houtlast : minRetention ≤ c.receiptRetention ∨ ReceiptsOutlast c (.empty c) ops) :
    statuses (submit c) c (.empty c) ops = statuses (submitArchiving c) c (.empty c) ops := by
  have hreceipts : ReceiptsOutlast c (.empty c) ops := by
    rcases houtlast with hretention | hreceipts
    · exact receiptsOutlast_of_minRetention hretention ops
    · exact hreceipts
  obtain ⟨clock, hpaced⟩ := exists_paced hclock
  -- The two begin as one ledger, without receipts.
  have hdropped : DroppedInTime c clock (Ledger.empty c).receipts (Ledger.empty c).receipts :=
    fun _ => .inl rfl
  have hlasting : Lasting c (Ledger.empty c).receipts (submitted ops) := by
    intro body _ _ r hr
    cases hr
  exact statuses_of_droppedInTime ops hpaced hdropped hlasting hreceipts

end Run

end Signing

end Ledger

/-! ## 5. A gap in the memory -/

namespace Trial

/-- **The deletion, for a brief while**: it is valid for as short as it may be. -/
def briefDeletion : TransactionBody :=
  { deletion with validSeconds := minValidSeconds }

/-- **The brief deletion, signed** by the payer and by the account that is deleted. -/
def signedBriefDeletion : SignedTransaction where
  bodyBytes := letI := scheme; Wired.toBytes briefDeletion
  signatures := [⟨(key 2).bytes⟩, ⟨(key 4).bytes⟩]

/-- **Settings of a forgetful ledger**: a receipt may go as soon as its transaction has expired. -/
def forgetful : Config :=
  { receiptRetention := .zero }

end Trial

namespace Ledger

open Trial in
/-- **A run with a late repetition**: the brief deletion is submitted, submitted again, and when it has
expired something is submitted once more. -/
def lateRepetition (last : SignedTransaction) : List Operation :=
  [ .createAccount (.simple 2) (key 2) 1000000 ⟨1000, 0⟩
  , .createAccount (.simple 4) (key 4) 500 ⟨1000, 0⟩
  , .createAccount (.simple 5) (key 5) 0 ⟨1000, 0⟩
  , .submit signedBriefDeletion ⟨1001, 0⟩
  , .submit signedBriefDeletion ⟨1002, 0⟩
  , .submit last ⟨1020, 0⟩ ]

open Trial in
set_option maxRecDepth 10000 in
/-- A forgetful ledger has dropped the receipt of the brief deletion at the end, and need not have it: the
deletion has expired. -/
theorem lateRepetition_expired :
    letI := scheme
    let ops := lateRepetition signedBriefDeletion
    ((readings ops).Pairwise (· ≤ ·) ∧ ReceiptsOutlast forgetful (.empty forgetful) ops
        ∧ statuses (submit forgetful) forgetful (.empty forgetful) ops
          = [.ok, .duplicateTransaction, .transactionExpired])
      ∧ statuses (submit forgetful) forgetful (.empty forgetful) ops
        = statuses (submitArchiving forgetful) forgetful (.empty forgetful) ops := by
  let := scheme
  intro ops
  have hclock : (readings ops).Pairwise (· ≤ ·) := by decide
  have houtlast : ReceiptsOutlast forgetful (.empty forgetful) ops := by decide +kernel
  have hstatuses : statuses (submit forgetful) forgetful (.empty forgetful) ops
      = [.ok, .duplicateTransaction, .transactionExpired] := by decide +kernel
  exact ⟨⟨hclock, houtlast, hstatuses⟩,
    statuses_eq_archived forgetful ops hclock (.inr houtlast)⟩

open Trial in
set_option maxRecDepth 10000 in
/-- **A short retention can be noticed.**  The same deletion with a longer validity goes under the same
identifier; an archive knows it, and a forgetful ledger accepts it a second time. -/
theorem short_retention_noticed :
    letI := scheme
    let ops := lateRepetition signedDeletion
    (readings ops).Pairwise (· ≤ ·)
      ∧ statuses (submit forgetful) forgetful (.empty forgetful) ops = [.ok, .duplicateTransaction, .ok]
      ∧ statuses (submitArchiving forgetful) forgetful (.empty forgetful) ops
        = [.ok, .duplicateTransaction, .duplicateTransaction] := by
  let := scheme
  decide +kernel

end Ledger

end ShardLedger
