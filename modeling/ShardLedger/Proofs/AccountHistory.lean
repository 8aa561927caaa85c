import ShardLedger.Proofs.AtMostOnce
import ShardLedger.Proofs.Settlement
import Mathlib.Data.List.Nodup
/-
Consensus order, and the history of an account.

The consensus time of a transaction is what the clock reads, or where the clock has not passed the last
consensus time, one nanosecond after that.  Either way it is later than every one before, wherever the
clock goes, until the last timestamp is reached.  So no two transactions share a consensus time, and their
times are in the order in which they were accepted.

A history is put together from the receipts that are kept, in whatever order a table hands them out, and
sorted by consensus time.  Receipts come and go, and polls count down, but what is kept of a receipt is the
record of an accepted transaction.  Records that are sorted by times that are all different have one order
only, that of acceptance.
-/

set_option autoImplicit false

namespace ShardLedger

namespace Ledger

/-! ## 1. Consensus times -/

/-- **The next consensus time** is no earlier than the last, whatever the clock reads, and it is later
unless the end of the word is reached. -/
theorem exists_nextConsensus {l : Ledger} {m : Int64} (hm : 0 ≤ m.toInt)
    (hlast : l.lastConsensus = .ofNanos m) (n : Int64) :
    ∃ k : Int64, l.nextConsensus (.ofNanos n) = .ofNanos k ∧ m.toInt ≤ k.toInt
      ∧ (k.toInt < Int64.maxValue.toInt → m.toInt < k.toInt) := by
  rw [nextConsensus, hlast]
  by_cases hclock : Timestamp.ofNanos m < .ofNanos n
  · rw [if_pos hclock]
    have hlt := Timestamp.toInt_lt_of_ofNanos_lt hclock
    exact ⟨n, rfl, by omega, fun _ => hlt⟩
  · rw [if_neg hclock]
    have hfloor : Timestamp.floor = -2 ^ 63 + (2 ^ 31 - 1) := rfl
    have hmax : Int64.maxValue.toInt = 2 ^ 63 - 1 := by decide
    have hlt := m.toInt_lt
    rw [Timestamp.saturatingAdd_ofNanos (by omega) (by decide)]
    refine ⟨_, rfl, ?_⟩
    dsimp only
    rw [toInt_saturateI64, hmax]
    omega

/-! ## 2. The chronicle of a run -/

/-- **A ledger has a past**: the receipts that have been left on it, as they were on acceptance.  None has a
consensus time beyond the last one, their times ascend as long as there are later ones, and what the ledger
keeps is of them. -/
structure Chronicle (l : Ledger) (past : List Retained) : Prop where
  timed : ∃ n : Int64, 0 ≤ n.toInt ∧ l.lastConsensus = .ofNanos n
  passed : ∀ r ∈ past, r.record.consensus ≤ l.lastConsensus
  ascending : l.lastConsensus < .ofNanos Int64.maxValue →
    past.Pairwise fun r s => r.record.consensus < s.record.consensus
  kept : ∀ {id r}, l.receipts.get? id = some r →
    r.record.id = id ∧ ∃ s ∈ past, s.record = r.record ∧ s.listed = r.listed

section Chronicle

variable {c : Config} {l l' : Ledger} {past : List Retained}

/-- The empty ledger has no past. -/
theorem chronicle_empty : Chronicle (.empty c) [] where
  timed := ⟨0, by decide, rfl⟩
  passed _ hr := absurd hr List.not_mem_nil
  ascending _ := .nil
  kept := nofun

/-- What accepts nothing and keeps the records of receipts leaves the past as it is. -/
theorem Chronicle.still (h : Chronicle l past) (hlast : l'.lastConsensus = l.lastConsensus)
    (hreceipts : ∀ {id r'}, l'.receipts.get? id = some r' →
      ∃ r, l.receipts.get? id = some r ∧ r'.record = r.record ∧ r'.listed = r.listed) :
    Chronicle l' past where
  timed := hlast ▸ h.timed
  passed := hlast ▸ h.passed
  ascending := hlast ▸ h.ascending
  kept {id r'} hr' := by
    obtain ⟨r, hr, hrecord, hlisted⟩ := hreceipts hr'
    rw [hrecord, hlisted]
    exact h.kept hr

theorem Chronicle.prune (h : Chronicle l past) (now : Timestamp) (retention : Duration) :
    Chronicle (l.prune now retention) past := by
  refine h.still rfl fun {id r'} hr' => ?_
  rw [get?_receipts_prune] at hr'
  exact ⟨r', (Option.filter_eq_some_iff.mp hr').1, rfl, rfl⟩

theorem Chronicle.ask (h : Chronicle l past) (c : Config) (q : Query) :
    Chronicle (l.ask c q).2 past := by
  refine h.still (untouched_ask c l q).lastConsensus fun {id r'} hr' => ?_
  rw [get?_receipts_asked] at hr'
  obtain ⟨r, hr, rfl⟩ := Option.map_eq_some_iff.mp hr'
  exact ⟨r, hr, r.record_asked q id, r.listed_asked q id⟩

/-- **Accepting a transaction** adds its receipt to the past. -/
theorem Chronicle.accept (h : Chronicle l past) (c : Config) (t : SignedTransaction)
    (body : TransactionBody) (n : Int64) :
    Chronicle (l.accept c t body (.ofNanos n)) (past ++ [Ledger.kept c l t body (.ofNanos n)]) := by
  obtain ⟨m, hm, hlast⟩ := h.timed
  obtain ⟨k, hnext, hle, hlater⟩ := exists_nextConsensus hm hlast n
  have hnow : (l.accept c t body (.ofNanos n)).lastConsensus = .ofNanos k := by
    rw [accept_eq]
    exact hnext
  have hkept : (Ledger.kept c l t body (.ofNanos n)).record.consensus = .ofNanos k := hnext
  refine ⟨⟨k, by omega, hnow⟩, fun r hr => ?_, fun hend => ?_, fun {id r} hr => ?_⟩
  · rw [hnow]
    rcases List.mem_append.mp hr with hr | hr
    · exact Std.le_trans (hlast ▸ h.passed r hr) (Timestamp.ofNanos_le_ofNanos hle)
    · rw [List.mem_singleton.mp hr, hkept]
      exact Std.le_refl _
  · -- Before the end of the word the new time is later than the last one, and so than all of the past.
    rw [hnow] at hend
    have hlt := hlater (Timestamp.toInt_lt_of_ofNanos_lt hend)
    have hbefore : l.lastConsensus < .ofNanos k := hlast ▸ Timestamp.ofNanos_lt_ofNanos hlt
    refine List.pairwise_append.mpr
      ⟨h.ascending (Std.lt_trans hbefore hend), List.pairwise_singleton _ _, fun r hr s hs => ?_⟩
    rw [List.mem_singleton.mp hs, hkept]
    exact Std.lt_of_le_of_lt (h.passed r hr) hbefore
  · rw [get?_receipts_accept] at hr
    by_cases hid : id = body.id
    · rw [if_pos hid] at hr
      obtain rfl := Option.some.inj hr
      exact ⟨hid.symm, _, List.mem_append_right _ (List.mem_singleton_self _), rfl, rfl⟩
    · rw [if_neg hid] at hr
      obtain ⟨heq, s, hs, hsame⟩ := h.kept hr
      exact ⟨heq, s, List.mem_append_left _ hs, hsame⟩

section Perform

variable [SignatureScheme] {op : Operation} {ops : List Operation}

/-- **What an operation has left** is the receipt that is kept of the transaction it has accepted. -/
theorem receiptedBy_of_admitted {t : SignedTransaction} {now : Timestamp} {body : TransactionBody}
    (ha : l.acceptedBy c (.submit t now) = some body)
    (hperform : l.perform c (.submit t now) = (l.prune now c.receiptRetention).accept c t body now) :
    l.receiptedBy c (.submit t now)
      = some (Ledger.kept c (l.prune now c.receiptRetention) t body now) := by
  rw [receiptedBy, ha, hperform, Option.bind_some, get?_receipts_accept, if_pos rfl]

/-- **One operation** adds to the past what it has left. -/
theorem Chronicle.perform (h : Chronicle l past)
    (hclock : ∀ now ∈ op.clock?, ∃ n : Int64, now = .ofNanos n) :
    Chronicle (l.perform c op) (past ++ (l.receiptedBy c op).toList) := by
  cases haccepted : l.acceptedBy c op with
  | some body =>
    obtain ⟨t, now, payer, rfl, -, hperform⟩ := of_acceptedBy haccepted
    rw [receiptedBy_of_admitted haccepted hperform, hperform]
    obtain ⟨n, rfl⟩ := hclock now rfl
    exact (h.prune _ _).accept c t body n
  | none =>
    have hleft : l.receiptedBy c op = none := by
      rw [receiptedBy, haccepted]
      rfl
    rw [hleft, Option.toList_none, List.append_nil]
    cases op with
    | submit t now =>
      rw [perform_eq_prune haccepted]
      exact h.prune now c.receiptRetention
    | ask q => exact h.ask c q
    | createAccount | setBalance => exact h.still rfl fun hr => ⟨_, hr, rfl, rfl⟩

/-- **A run** adds to the past all that it has left.  The induction is on the run, for any past. -/
theorem Chronicle.run (h : Chronicle l past)
    (hclock : ∀ now ∈ readings ops, ∃ n : Int64, now = .ofNanos n) :
    Chronicle (l.run c ops) (past ++ receipted c l ops) := by
  induction ops generalizing l past with
  | nil =>
    rw [receipted, List.append_nil]
    exact h
  | cons op ops ih =>
    have hop : ∀ now ∈ op.clock?, ∃ n : Int64, now = .ofNanos n := fun now hnow =>
      hclock now (mem_readings_cons.mpr (.inl hnow))
    have hrest : ∀ now ∈ readings ops, ∃ n : Int64, now = .ofNanos n := fun now hnow =>
      hclock now (mem_readings_cons.mpr (.inr hnow))
    rw [receipted, ← List.append_assoc]
    exact ih (h.perform hop) hrest

/-- A run leaves one receipt for each transaction it accepts, under its identifier, listed as it asks. -/
theorem receipted_eq_accepted (c : Config) (l : Ledger) (ops : List Operation) :
    (receipted c l ops).map (fun r => (r.record.id, r.listed))
      = (accepted c l ops).map fun body => (body.id, body.listed) := by
  induction ops generalizing l with
  | nil => rfl
  | cons op ops ih =>
    have hop : (l.receiptedBy c op).map (fun r => (r.record.id, r.listed))
        = (l.acceptedBy c op).map fun body => (body.id, body.listed) := by
      cases haccepted : l.acceptedBy c op with
      | none => rw [receiptedBy, haccepted, Option.bind_none, Option.map_none, Option.map_none]
      | some body =>
        obtain ⟨t, now, payer, rfl, -, hperform⟩ := of_acceptedBy haccepted
        rw [receiptedBy_of_admitted haccepted hperform]
        rfl
    rw [receipted, accepted, List.map_append, List.map_append, ih, ← Option.toList_map, hop,
      Option.toList_map]

end Perform

end Chronicle

/-! ## 3. Histories -/

/-- **A receipt is told of an account**: it is listed and shown, and the account has paid for it. -/
def isTold (id : AccountId) (r : Retained) : Bool :=
  r.listed && r.isRevealed && r.record.id.accountId = id

/-- **A history from receipts in any order**: the records that are told of an account, put in their places
one after the other. -/
def historyOf (receipts : List Retained) (id : AccountId) : List Record :=
  (receipts.filter (isTold id)).foldl (fun rs r => insertByTime r.record rs) []

/-- **A receipt of the past is on display**: it is still kept, and is shown. -/
def displays (l : Ledger) (r : Retained) : Bool :=
  (l.receipts.get? r.record.id).any fun s => s.record = r.record && s.isRevealed

/-- **The past of an account**: the receipts of the past that are listed, that the account has paid for and
that are on display. -/
def pastOf (l : Ledger) (past : List Retained) (id : AccountId) : List Retained :=
  past.filter fun r => r.listed && r.record.id.accountId = id && l.displays r

/-- A history is of the receipts that are told of the account. -/
theorem perm_historyOf (receipts : List Retained) (id : AccountId) :
    (historyOf receipts id).Perm ((receipts.filter (isTold id)).map (·.record)) := by
  have hfold := perm_foldl_insertByTime (receipts.filter (isTold id)) []
  rw [List.append_nil] at hfold
  exact hfold

/-- Putting a record in its place keeps records sorted. -/
theorem pairwise_insertByTime (r : Record) {rs : List Record}
    (h : rs.Pairwise fun a b => a.consensus ≤ b.consensus) :
    (insertByTime r rs).Pairwise fun a b => a.consensus ≤ b.consensus := by
  induction rs with
  | nil => exact List.pairwise_singleton _ _
  | cons s rs ih =>
    obtain ⟨hs, hrs⟩ := List.pairwise_cons.mp h
    rw [insertByTime]
    by_cases hle : s.consensus ≤ r.consensus
    · rw [if_pos hle]
      refine List.pairwise_cons.mpr ⟨fun a ha => ?_, ih hrs⟩
      rcases List.mem_cons.mp ((perm_insertByTime r rs).mem_iff.mp ha) with rfl | ha
      · exact hle
      · exact hs a ha
    · rw [if_neg hle]
      have hrs' : r.consensus ≤ s.consensus := Std.le_total.resolve_left hle
      refine List.pairwise_cons.mpr ⟨fun a ha => ?_, h⟩
      rcases List.mem_cons.mp ha with rfl | ha
      · exact hrs'
      · exact Std.le_trans hrs' (hs a ha)

/-- A history is sorted by consensus time. -/
theorem pairwise_historyOf (receipts : List Retained) (id : AccountId) :
    (historyOf receipts id).Pairwise fun a b => a.consensus ≤ b.consensus := by
  have hfold : ∀ (receipts : List Retained) (rs : List Record),
      rs.Pairwise (fun a b => a.consensus ≤ b.consensus) →
      (receipts.foldl (fun rs r => insertByTime r.record rs) rs).Pairwise
        fun a b => a.consensus ≤ b.consensus := by
    intro receipts
    induction receipts with
    | nil => exact fun rs h => h
    | cons r receipts ih => exact fun rs h => ih _ (pairwise_insertByTime r.record h)
  exact hfold _ [] .nil

section History

variable {l : Ledger} {past : List Retained}

/-- Two receipts of the past with one record are the same. -/
theorem Chronicle.eq_of_consensus (h : Chronicle l past)
    (hend : l.lastConsensus < .ofNanos Int64.maxValue) {r s : Retained} (hr : r ∈ past) (hs : s ∈ past)
    (heq : r.record.consensus = s.record.consensus) : r = s := by
  have hdistinct : (past.map (·.record.consensus)).Nodup :=
    List.pairwise_map.mpr ((h.ascending hend).imp fun hlt => Std.ne_of_lt hlt)
  exact List.inj_on_of_nodup_map hdistinct hr hs heq

/-- The records that are kept are all different. -/
theorem Chronicle.nodup_records (h : Chronicle l past) : (l.receipts.values.map (·.record)).Nodup := by
  -- Each is kept under its own identifier.
  have hkeys : l.receipts.entries.map (fun e => e.2.record.id) = l.receipts.entries.map Prod.fst := by
    refine List.map_congr_left fun e he => ?_
    exact (h.kept ((Table.mem_entries_iff _ _ _).mp he)).1
  have hids : ((l.receipts.values.map (·.record)).map (·.id)).Nodup := by
    rw [Table.values, List.map_map, List.map_map]
    exact (congrArg List.Nodup hkeys).mpr l.receipts.nodup_keys
  exact hids.of_map _

/-- **What is told** is the past of the account. -/
theorem Chronicle.mem_told (h : Chronicle l past) (hend : l.lastConsensus < .ofNanos Int64.maxValue)
    (id : AccountId) (record : Record) :
    record ∈ (l.receipts.values.filter (isTold id)).map (·.record)
      ↔ record ∈ (l.pastOf past id).map (·.record) := by
  simp only [pastOf, isTold, displays, List.mem_map, List.mem_filter, Bool.and_eq_true,
    decide_eq_true_eq, Option.any_eq_true]
  constructor
  · rintro ⟨r, ⟨hr, ⟨hlisted, hshown⟩, hpaid⟩, rfl⟩
    obtain ⟨⟨k, _⟩, hmem, rfl⟩ := List.mem_map.mp hr
    have hget := (Table.mem_entries_iff _ _ _).mp hmem
    obtain ⟨rfl, s, hs, hsame, hlike⟩ := h.kept hget
    exact ⟨s, ⟨hs, ⟨hlike.trans hlisted, hsame ▸ hpaid⟩, _, hsame ▸ hget, hsame.symm, hshown⟩, hsame⟩
  · rintro ⟨s, ⟨hs, ⟨hlisted, hpaid⟩, r, hget, hsame, hshown⟩, rfl⟩
    -- The receipt is of one in the past, and that one has the same record.
    obtain ⟨-, s', hs', hsame', hlike⟩ := h.kept hget
    obtain rfl : s' = s := h.eq_of_consensus hend hs' hs (by rw [hsame', hsame])
    have hmem : r ∈ l.receipts.values :=
      List.mem_map_of_mem ((Table.mem_entries_iff _ _ _).mpr hget)
    exact ⟨r, ⟨hmem, ⟨hlike ▸ hlisted, hshown⟩, hsame ▸ hpaid⟩, hsame⟩

/-- **A history is in the order of acceptance**, whatever the order of the receipts. -/
theorem Chronicle.historyOf_eq (h : Chronicle l past)
    (hend : l.lastConsensus < .ofNanos Int64.maxValue) (id : AccountId) {receipts : List Retained}
    (hreceipts : receipts.Perm l.receipts.values) :
    historyOf receipts id = (l.pastOf past id).map (·.record) := by
  have hascending : ((l.pastOf past id).map (·.record)).Pairwise
      fun a b => a.consensus < b.consensus :=
    List.pairwise_map.mpr ((h.ascending hend).filter _)
  have htold : ((l.receipts.values.filter (isTold id)).map (·.record)).Nodup :=
    h.nodup_records.sublist (List.filter_sublist.map _)
  have hpast : ((l.pastOf past id).map (·.record)).Nodup :=
    hascending.imp fun {a b} hlt (heq : a = b) => Std.lt_irrefl (heq ▸ hlt)
  -- Neither has a record twice, and they have the same ones.
  have hperm : (historyOf receipts id).Perm ((l.pastOf past id).map (·.record)) := by
    refine (perm_historyOf receipts id).trans (((hreceipts.filter _).map _).trans ?_)
    exact (List.perm_ext_iff_of_nodup htold hpast).mpr (h.mem_told hend id)
  refine hperm.eq_of_pairwise (fun a b ha hb hab hba => ?_) (pairwise_historyOf receipts id)
    (hascending.imp Std.le_of_lt)
  -- Records of one time are of one receipt of the past.
  obtain ⟨r, hr, rfl⟩ := List.mem_map.mp (hperm.mem_iff.mp ha)
  obtain ⟨s, hs, rfl⟩ := List.mem_map.mp hb
  rw [h.eq_of_consensus hend (List.mem_filter.mp hr).1 (List.mem_filter.mp hs).1 (Std.le_antisymm hab hba)]

end History

/-- **Consensus order, and the history of an account.**  On a run from the empty ledger, wherever the clock
goes, as long as consensus has not reached the last timestamp: there is a receipt for every transaction that
is accepted, and in the order of acceptance their consensus times ascend strictly.  And the records that are
told of an account that is there are those of the transactions it has paid for whose receipts are on display
and that ask to be listed, in the order of acceptance, in whatever order the receipts are kept.

The work is in `Chronicle.perform`, by which a ledger and its past go on together, and in
`Chronicle.historyOf_eq` for the order. -/
theorem history_in_order [SignatureScheme] (c : Config) (ops : List Operation) (clock : List ClockReading)
    (hclock : readings ops = clock.map ClockReading.timestamp)
    (hend : ((empty c).run c ops).lastConsensus < .ofNanos Int64.maxValue) :
    let l := (empty c).run c ops
    let past := receipted c (.empty c) ops
    past.map (fun r => (r.record.id, r.listed))
        = (accepted c (.empty c) ops).map (fun body => (body.id, body.listed))
      ∧ (past.map (·.record.consensus)).Pairwise (· < ·)
      ∧ ∀ id, l.accounts.contains id →
          ∃ records, l.ask c ⟨.answer, .accountRecords id⟩
              = (⟨.ok, .answer, 0, some (.accountRecords id records)⟩, l)
            ∧ records = (l.pastOf past id).map (·.record)
            ∧ ∀ receipts, receipts.Perm l.receipts.values → historyOf receipts id = records := by
  intro l past
  have hcounted : ∀ now ∈ readings ops, ∃ n : Int64, now = .ofNanos n := by
    intro now hnow
    rw [hclock] at hnow
    obtain ⟨r, -, rfl⟩ := List.mem_map.mp hnow
    exact Timestamp.exists_timestamp_eq r
  have hchronicle : Chronicle l past := chronicle_empty.run hcounted
  refine ⟨receipted_eq_accepted c _ ops, List.pairwise_map.mpr (hchronicle.ascending hend), ?_⟩
  intro id hid
  have hown := hchronicle.historyOf_eq hend id (.refl _)
  refine ⟨l.history id, ?_, hown, fun receipts h => (hchronicle.historyOf_eq hend id h).trans hown.symm⟩
  simp only [ask, answer, hid, if_true]

end Ledger

/-! ## 4. A clock that goes back -/

namespace Trial

/-- **A creation that comes later**, under an identifier of its own. -/
def laterCreation : TransactionBody :=
  { creation with id := ⟨.simple 2, ⟨1000, 5⟩⟩ }

/-- **What the clock reads**: it goes back by four seconds between the transactions. -/
def backwardClock : List ClockReading :=
  [⟨1000, 0⟩, ⟨1000, 0⟩, ⟨1000, 0⟩, ⟨1005, 0⟩, ⟨1001, 0⟩]

/-- **A run with a clock that goes back**: two transactions are accepted, and their receipts polled for. -/
def backwardRun : List Operation :=
  [ .createAccount (.simple 2) (key 2) 1000000 ⟨1000, 0⟩
  , .createAccount (.simple 4) (key 4) 500 ⟨1000, 0⟩
  , .createAccount (.simple 5) (key 5) 0 ⟨1000, 0⟩
  , .submit signedDeletion ⟨1005, 0⟩
  , .submit (signedBy [2] laterCreation) ⟨1001, 0⟩
  , .ask ⟨.answer, .transactionReceipt laterCreation.id⟩
  , .ask ⟨.answer, .transactionReceipt deletion.id⟩ ]

end Trial

namespace Ledger

open Trial in
set_option maxRecDepth 10000 in
/-- The creation is accepted by a clock that reads less than at the deletion before it, and has the later
consensus time; the payer is told of both, the deletion first. -/
theorem history_in_order_backwardRun :
    letI := scheme
    let l := (empty {}).run {} backwardRun
    let past := receipted {} (.empty {}) backwardRun
    readings backwardRun = backwardClock.map ClockReading.timestamp
      ∧ l.lastConsensus < .ofNanos Int64.maxValue
      ∧ l.accounts.contains (.simple 2)
      ∧ (past.map (·.record.consensus)).Pairwise (· < ·)
      ∧ ∃ records, l.ask {} ⟨.answer, .accountRecords (.simple 2)⟩
          = (⟨.ok, .answer, 0, some (.accountRecords (.simple 2) records)⟩, l)
        ∧ records.map (·.id) = [deletion.id, laterCreation.id] := by
  let := scheme
  intro l past
  have hclock : readings backwardRun = backwardClock.map ClockReading.timestamp := by decide +kernel
  have hend : l.lastConsensus < .ofNanos Int64.maxValue := by decide +kernel
  have hthere : l.accounts.contains (.simple 2) := by decide +kernel
  have hids : (historyOf l.receipts.values (.simple 2)).map (·.id) = [deletion.id, laterCreation.id] := by
    decide +kernel
  obtain ⟨-, hascending, hhistory⟩ := history_in_order {} backwardRun backwardClock hclock hend
  obtain ⟨records, hanswer, -, horder⟩ := hhistory (.simple 2) hthere
  refine ⟨hclock, hend, hthere, hascending, records, hanswer, ?_⟩
  rw [← horder _ (.refl _)]
  exact hids

end Ledger

end ShardLedger
