import ShardLedger.Proofs.AccountHistory
import ShardLedger.Proofs.FreshAccounts
import ShardLedger.Proofs.RecordAccuracy
/-
What is always true of the receipts that a ledger keeps.

A receipt is written once, when its transaction is accepted: under the identifier of the transaction, of an
outcome that is final, with the account that was created if one was, with as many polls to wait for as the
settings say, and with the entries of the journal that are not zero.  From then on only the polls change, and
they only become fewer.  The accounts may change under it, but none ever goes, so the account that it names
stays an account.  And the journal is empty again.

Consensus times are told apart by the past of the ledger.  Every receipt that is kept is of the past, and
times of the past are all different and not beyond the last one, as long as that has not reached the end of
the word.
-/

set_option autoImplicit false

namespace ShardLedger

/-! ## 1. Receipts in order -/

/-- **A receipt is in order** where it is kept: under its own identifier, final, naming no account but one
that its transaction created and that is there, with no more polls left than it began with, and with a record
that names accounts in ascending order, none with zero. -/
structure Retained.InOrder (c : Config) (l : Ledger) (id : TransactionId) (r : Retained) : Prop where
  filed : r.record.id = id
  final : r.record.receipt.status ≠ .unknown ∧ r.record.receipt.status ≠ .ok
  named : ∀ account ∈ r.record.receipt.accountId,
    r.record.receipt.status = .success ∧ l.accounts.contains account
  endless : r.remainingPolls = none ↔ c.consensusPolls = none
  polls : ∀ left ∈ r.remainingPolls, ∀ most ∈ c.consensusPolls, left ≤ most
  ascending : r.record.transfers.Pairwise fun a b => compare a.accountId b.accountId = .lt
  nonzero : ∀ a ∈ r.record.transfers, a.amount ≠ 0

namespace Ledger

/-- **A ledger is tidy** between operations: its journal is empty, and its receipts are in order. -/
structure Tidy (c : Config) (l : Ledger) : Prop where
  journal : l.journal = .empty
  receipts : ∀ {id r}, l.receipts.get? id = some r → r.InOrder c l id

/-- **The receipts of a ledger are timed**: none is of a time beyond the last consensus, and no two are of
the same time. -/
structure Timed (l : Ledger) : Prop where
  passed : ∀ {id r}, l.receipts.get? id = some r → r.record.consensus ≤ l.lastConsensus
  apart : ∀ {id id' r r'}, l.receipts.get? id = some r → l.receipts.get? id' = some r' →
    r.record.consensus = r'.record.consensus → id = id'

end Ledger

/-! ## 2. What becomes of a receipt -/

section Retained

variable {c : Config} {l l' : Ledger} {id : TransactionId} {r : Retained}

/-- A receipt stays in order while accounts stay. -/
theorem Retained.InOrder.mono (h : r.InOrder c l id)
    (hthere : ∀ account, l.accounts.contains account → l'.accounts.contains account) :
    r.InOrder c l' id where
  filed := h.filed
  final := h.final
  named account ha := ⟨(h.named account ha).1, hthere account (h.named account ha).2⟩
  endless := h.endless
  polls := h.polls
  ascending := h.ascending
  nonzero := h.nonzero

/-- A receipt stays in order if its record stays and its polls only become fewer. -/
theorem Retained.InOrder.counted (h : r.InOrder c l id) {r' : Retained} (hrecord : r'.record = r.record)
    (hpolls : r'.remainingPolls.map UInt32.toNat
      = (r.remainingPolls.map UInt32.toNat).map (· - 1)) : r'.InOrder c l id := by
  refine ⟨?_, ?_, ?_, ?_, ?_, ?_, ?_⟩
  · rw [hrecord]
    exact h.filed
  · rw [hrecord]
    exact h.final
  · rw [hrecord]
    exact h.named
  · rw [← h.endless]
    have hnone := congrArg Option.isNone hpolls
    simp only [Option.isNone_map] at hnone
    rw [← Option.isNone_iff_eq_none, ← Option.isNone_iff_eq_none, hnone]
  · intro left hleft most hmost
    rw [Option.mem_def] at hleft
    rw [hleft, Option.map_some, Option.map_map, eq_comm, Option.map_eq_some_iff] at hpolls
    obtain ⟨before, hbefore, hless⟩ := hpolls
    have hle := UInt32.le_iff_toNat_le.mp (h.polls before hbefore most hmost)
    rw [Function.comp_apply] at hless
    rw [UInt32.le_iff_toNat_le]
    omega
  · rw [hrecord]
    exact h.ascending
  · rw [hrecord]
    exact h.nonzero

/-- A query leaves a receipt in order. -/
theorem Retained.InOrder.asked (h : r.InOrder c l id) (q : Query) : (r.asked q id).InOrder c l id := by
  by_cases hpoll : q = ⟨.answer, .transactionReceipt id⟩
  · rw [Retained.asked, if_pos hpoll]
    exact h.counted (Ledger.record_pollReceipt r) (Ledger.pollReceipt_counts rfl).2
  · rw [r.asked_of_ne id hpoll]
    exact h

end Retained

namespace Ledger

/-! ## 3. Accepted transactions -/

section Applied

variable {l l' : Ledger} {payer : AccountId} {now : Timestamp} {payload : Payload} {receipt : Receipt}

/-- Every outcome is final, and none is that of a check. -/
theorem Applied.final (h : Applied l payer now payload receipt l') :
    receipt.status ≠ .unknown ∧ receipt.status ≠ .ok := by
  refine ⟨of_decide_eq_false h.isPending_eq_false, ?_⟩
  cases h with
  | failed fails =>
    have hfailures : ∀ status ∈ failures, status ≠ .ok := by decide
    exact hfailures _ fails
  | created | transferred | updated | deleted => nofun

/-- An account that a receipt names is there once the transaction, a success, is applied. -/
theorem Applied.named (h : Applied l payer now payload receipt l') :
    ∀ account ∈ receipt.accountId, receipt.status = .success ∧ l'.accounts.contains account := by
  intro account haccount
  refine ⟨?_, (h.opening.there account).mpr (.inr (.inr haccount))⟩
  cases h with
  | created => rfl
  | failed | transferred | updated | deleted => cases haccount

end Applied

section Steps

variable {c : Config} {l : Ledger}

/-- The empty ledger is tidy. -/
theorem tidy_empty (c : Config) : (empty c).Tidy c where
  journal := rfl
  receipts := nofun

/-- **What is kept of an accepted transaction** is in order. -/
theorem inOrder_kept (c : Config) (l : Ledger) (t : SignedTransaction) (body : TransactionBody)
    (now : Timestamp) : (kept c l t body now).InOrder c (l.accept c t body now) body.id := by
  have happlied := outcome_applied c l body now
  refine ⟨rfl, happlied.final, ?_, Iff.rfl, ?_, ascending_netChanges _, ?_⟩
  · rw [accept_eq]
    exact happlied.named
  · intro left hleft most hmost
    obtain rfl := Option.mem_unique hleft hmost
    exact UInt32.le_refl _
  · intro a ha hzero
    exact (mem_netChanges.mp ha).2 (by rw [hzero, Int64.toInt_zero])

/-- Dropping receipts keeps a ledger tidy. -/
theorem Tidy.prune (h : l.Tidy c) (now : Timestamp) (retention : Duration) :
    (l.prune now retention).Tidy c where
  journal := h.journal
  receipts {id r} hr := by
    rw [get?_receipts_prune] at hr
    have hkept := h.receipts (Option.filter_eq_some_iff.mp hr).1
    exact hkept.mono fun _ hthere => hthere

/-- A query keeps a ledger tidy. -/
theorem Tidy.ask (h : l.Tidy c) (q : Query) : (l.ask c q).2.Tidy c where
  journal := by
    rcases ask_cases c l q with heq | ⟨_, _, -, -, heq⟩
    · rw [heq]
      exact h.journal
    · rw [heq]
      exact h.journal
  receipts {id r} hr := by
    rw [get?_receipts_asked] at hr
    obtain ⟨before, hbefore, rfl⟩ := Option.map_eq_some_iff.mp hr
    refine ((h.receipts hbefore).asked q).mono fun account hthere => ?_
    rw [(untouched_ask c l q).accounts]
    exact hthere

end Steps

/-! ## 4. Operations and runs -/

section Perform

variable [SignatureScheme] {c : Config} {l : Ledger} {op : Operation} {ops : List Operation}

/-- No operation does away with an account. -/
theorem contains_perform (c : Config) (l : Ledger) (op : Operation) {account : AccountId}
    (h : l.accounts.contains account) : (l.perform c op).accounts.contains account :=
  (opening_perform.there account).mpr (.inl h)

/-- **Every operation keeps a ledger tidy.** -/
theorem Tidy.perform (h : l.Tidy c) (op : Operation) : (l.perform c op).Tidy c := by
  cases haccepted : l.acceptedBy c op with
  | some body =>
    obtain ⟨t, now, payer, rfl, -, hperform⟩ := of_acceptedBy haccepted
    refine ⟨?_, fun {id r} hr => ?_⟩
    · rw [hperform, accept_eq]
    · rw [hperform, get?_receipts_accept] at hr
      by_cases hid : id = body.id
      · rw [if_pos hid] at hr
        obtain rfl := Option.some.inj hr
        rw [hid, hperform]
        exact inOrder_kept _ _ _ _ _
      · -- Another receipt is as it was, on a ledger with no fewer accounts.
        rw [if_neg hid] at hr
        have hkept := (h.prune now c.receiptRetention).receipts hr
        exact hkept.mono fun _ hthere => contains_perform c l _ hthere
  | none =>
    cases op with
    | submit t now =>
      rw [perform_eq_prune haccepted]
      exact h.prune now c.receiptRetention
    | ask q => exact h.ask q
    | createAccount | setBalance =>
      refine ⟨h.journal, fun {id r} hr => ?_⟩
      exact (h.receipts hr).mono fun _ hthere => contains_perform c l _ hthere

/-- **Every run keeps a ledger tidy.**  The induction is on the run. -/
theorem Tidy.run (h : l.Tidy c) (ops : List Operation) : (l.run c ops).Tidy c := by
  induction ops generalizing l with
  | nil => exact h
  | cons op ops ih => exact ih (h.perform op)

omit [SignatureScheme] in
/-- **A ledger with a past has timed receipts**, as long as consensus has not reached the last timestamp. -/
theorem Chronicle.timed_receipts {past : List Retained} (h : Chronicle l past)
    (hend : l.lastConsensus < .ofNanos Int64.maxValue) : l.Timed where
  passed {id r} hr := by
    obtain ⟨-, s, hs, hsame, -⟩ := h.kept hr
    rw [← hsame]
    exact h.passed s hs
  apart {id id' r r'} hr hr' htime := by
    obtain ⟨hid, s, hs, hsame, -⟩ := h.kept hr
    obtain ⟨hid', s', hs', hsame', -⟩ := h.kept hr'
    -- Of one time there is one receipt in the past, and so one identifier.
    have hone : s = s' := h.eq_of_consensus hend hs hs' (by rw [hsame, hsame', htime])
    rw [← hid, ← hid', ← hsame, ← hsame', hone]

/-- No operation takes consensus back. -/
theorem Chronicle.lastConsensus_le_perform {past : List Retained} (h : Chronicle l past)
    (hclock : ∀ now ∈ op.clock?, ∃ n : Int64, now = .ofNanos n) :
    l.lastConsensus ≤ (l.perform c op).lastConsensus := by
  cases haccepted : l.acceptedBy c op with
  | some body =>
    obtain ⟨t, now, payer, rfl, -, hperform⟩ := of_acceptedBy haccepted
    obtain ⟨n, rfl⟩ := hclock now rfl
    obtain ⟨m, hm, hlast⟩ := (h.prune (.ofNanos n) c.receiptRetention).timed
    obtain ⟨k, hnext, hle, -⟩ := exists_nextConsensus hm hlast n
    have hbefore : l.lastConsensus = .ofNanos m := hlast
    rw [hperform, accept_eq, hbefore]
    dsimp only
    rw [hnext]
    exact Timestamp.ofNanos_le_ofNanos hle
  | none =>
    cases op with
    | submit t now =>
      rw [perform_eq_prune haccepted]
      exact Std.le_refl _
    | ask q =>
      rw [Ledger.perform, (untouched_ask c l q).lastConsensus]
      exact Std.le_refl _
    | createAccount | setBalance => exact Std.le_refl _

/-- No run takes consensus back. -/
theorem Chronicle.lastConsensus_le_run {past : List Retained} (h : Chronicle l past)
    (hclock : ∀ now ∈ readings ops, ∃ n : Int64, now = .ofNanos n) :
    l.lastConsensus ≤ (l.run c ops).lastConsensus := by
  induction ops generalizing l past with
  | nil => exact Std.le_refl _
  | cons op ops ih =>
    have hop : ∀ now ∈ op.clock?, ∃ n : Int64, now = .ofNanos n := fun now hnow =>
      hclock now (mem_readings_cons.mpr (.inl hnow))
    have hrest : ∀ now ∈ readings ops, ∃ n : Int64, now = .ofNanos n := fun now hnow =>
      hclock now (mem_readings_cons.mpr (.inr hnow))
    exact Std.le_trans (h.lastConsensus_le_perform hop) (ih (h.perform hop) hrest)

/-- **Receipts are kept in order.**  On every run from the empty ledger, whatever is done to it and wherever
the clock goes, as long as consensus does not reach the last timestamp, at every point between two
operations: the journal is empty, every receipt that is kept is in order, none is of a time beyond the last
consensus, and no two are of the same time.

The work is in `Tidy.perform` for what each operation keeps, and in `Chronicle.perform` for the times. -/
theorem receipts_in_order (c : Config) (ops : List Operation) (clock : List ClockReading)
    (hclock : readings ops = clock.map ClockReading.timestamp)
    (hend : ((empty c).run c ops).lastConsensus < .ofNanos Int64.maxValue) :
    ∀ done, done <+: ops → ((empty c).run c done).Tidy c ∧ ((empty c).run c done).Timed := by
  rintro done ⟨rest, rfl⟩
  have hcounted : ∀ now ∈ readings done ++ readings rest, ∃ n : Int64, now = .ofNanos n := by
    intro now hnow
    have hall : readings (done ++ rest) = readings done ++ readings rest := List.filterMap_append
    rw [← hall, hclock] at hnow
    obtain ⟨r, -, rfl⟩ := List.mem_map.mp hnow
    exact Timestamp.exists_timestamp_eq r
  have hpast : Chronicle ((empty c).run c done) ([] ++ receipted c (.empty c) done) :=
    chronicle_empty.run fun now hnow => hcounted now (List.mem_append_left _ hnow)
  -- Consensus has not been taken back since, so it had not reached the last timestamp either.
  have hsince : ((empty c).run c done).lastConsensus ≤ ((empty c).run c (done ++ rest)).lastConsensus := by
    have hboth : (empty c).run c (done ++ rest) = ((empty c).run c done).run c rest := List.foldl_append
    rw [hboth]
    exact hpast.lastConsensus_le_run fun now hnow => hcounted now (List.mem_append_right _ hnow)
  exact ⟨(tidy_empty c).run done, hpast.timed_receipts (Std.lt_of_le_of_lt hsince hend)⟩

end Perform

open Trial in
set_option maxRecDepth 10000 in
/-- After the run with a clock that goes back two receipts are kept, of different times; the one of the
creation names an account that is there, and has been polled for once. -/
theorem receipts_in_order_backwardRun :
    letI := scheme
    let l := (empty {}).run {} backwardRun
    readings backwardRun = backwardClock.map ClockReading.timestamp
      ∧ l.lastConsensus < .ofNanos Int64.maxValue
      ∧ l.Tidy {} ∧ l.Timed
      ∧ ∃ r s, l.receipts.get? laterCreation.id = some r ∧ l.receipts.get? deletion.id = some s
        ∧ r.record.receipt.accountId = some (.simple 1001)
        ∧ l.accounts.contains (.simple 1001)
        ∧ r.record.consensus ≠ s.record.consensus := by
  let := scheme
  intro l
  have hclock : readings backwardRun = backwardClock.map ClockReading.timestamp := by decide +kernel
  have hend : l.lastConsensus < .ofNanos Int64.maxValue := by decide +kernel
  obtain ⟨htidy, htimed⟩ := receipts_in_order {} backwardRun backwardClock hclock hend _ (List.prefix_refl _)
  obtain ⟨r, hr, haccount⟩ : ∃ r, l.receipts.get? laterCreation.id = some r
      ∧ r.record.receipt.accountId = some (.simple 1001) := by
    have hcreated : (l.receipts.get? laterCreation.id).any
        (fun r => r.record.receipt.accountId = some (.simple 1001)) = true := by decide +kernel
    simpa [Option.any_eq_true] using hcreated
  obtain ⟨s, hs⟩ : ∃ s, l.receipts.get? deletion.id = some s := by
    rw [← Option.isSome_iff_exists]
    decide +kernel
  refine ⟨hclock, hend, htidy, htimed, r, s, hr, hs, haccount, ?_, fun htime => ?_⟩
  · exact ((htidy.receipts hr).named _ haccount).2
  · exact absurd (htimed.apart hr hs htime) (by decide)

end Ledger

end ShardLedger
