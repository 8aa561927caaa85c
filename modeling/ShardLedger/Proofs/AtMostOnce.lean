import ShardLedger.Ledger.Run
import ShardLedger.Proofs.Admission
import ShardLedger.Proofs.Queries
import ShardLedger.Proofs.TimestampOrder
/-
No identifier is accepted twice.

Two things stand against a repetition: the receipt of the first submission, and the end of validity.
Receipts are dropped after a while, so the first must hand over to the second.  The two submissions
may differ in how long they are valid, and the receipt only knows of the first.  But no transaction
under an identifier is valid beyond the longest validity after its start, its horizon, and a receipt
that is kept for the difference between the longest and the shortest validity reaches the horizon,
however short its own transaction was valid.

So an identifier that was accepted stays spent: its receipt is there and will be up to the horizon, or
the clock has passed the horizon.  Every operation preserves that as long as the clock does not go
back, and a spent identifier is refused.
-/

set_option autoImplicit false

namespace ShardLedger

/-! ## 1. Horizons -/

/-- **The longest validity** of a transaction. -/
def longestValidity : Duration :=
  Duration.ofSeconds (UInt64.ofNat maxValidSeconds.toInt.toNat)

/-- **The retention that leaves no gap**: the longest validity less the shortest. -/
def minRetention : Duration :=
  Duration.ofSeconds (UInt64.ofNat (maxValidSeconds.toInt - minValidSeconds.toInt).toNat)

/-- **The horizon of an identifier**: no transaction under it is valid from then on. -/
def TransactionId.horizon (id : TransactionId) : Timestamp :=
  id.validStart.saturatingAdd longestValidity

example : minRetention = Duration.ofSeconds 165 ∧ minRetention ≤ defaultRetention := by decide

/-- A validity in range is no longer than the longest, and with the least retention no shorter. -/
theorem TransactionBody.total_validity {body : TransactionBody}
    (h : minValidSeconds ≤ body.validSeconds ∧ body.validSeconds ≤ maxValidSeconds) :
    body.validity ≤ longestValidity
      ∧ longestValidity.total ≤ body.validity.total + minRetention.total := by
  -- In seconds: whatever is between 15 and 180 reaches 180 with 165 more.
  obtain ⟨hmin, hmax⟩ := h
  rw [Int64.le_iff_toInt_le] at hmin hmax
  have hfifteen : minValidSeconds.toInt = 15 := by decide
  have hmost : maxValidSeconds.toInt = 180 := by decide
  have hlt : body.validSeconds.toInt.toNat < 2 ^ 64 := by omega
  rw [Duration.le_iff, TransactionBody.validity, longestValidity, minRetention,
    Duration.total_ofSeconds, Duration.total_ofSeconds, Duration.total_ofSeconds,
    UInt64.toNat_ofNat_of_lt' hlt, hmost, hfifteen]
  simp only [nanosPerSecond]
  constructor
  · change _ ≤ 180 * 1000000000
    omega
  · change 180 * 1000000000 ≤ _ + 165 * 1000000000
    omega

namespace Ledger

/-! ## 2. Spent identifiers -/

/-- **An identifier is spent**: its receipt is there and will be kept up to the horizon, or the clock
has passed the horizon. -/
def Spent (c : Config) (l : Ledger) (clock : Timestamp) (id : TransactionId) : Prop :=
  (∃ r, l.receipts.get? id = some r
      ∧ id.horizon ≤ r.expiresAt.saturatingAdd c.receiptRetention)
    ∨ id.horizon ≤ clock

section Spent

variable {c : Config} {l l' : Ledger} {clock now : Timestamp} {id : TransactionId}

theorem Spent.mono (h : Spent c l clock id) (hle : clock ≤ now) : Spent c l now id :=
  h.imp_right fun hp => Std.le_trans hp hle

/-- What keeps receipts with their ends of validity keeps identifiers spent. -/
theorem Spent.of_receipts (h : Spent c l clock id)
    (hkeep : ∀ r, l.receipts.get? id = some r →
      ∃ r', l'.receipts.get? id = some r' ∧ r'.expiresAt = r.expiresAt) :
    Spent c l' clock id := by
  refine h.imp_left fun ⟨r, hr, hle⟩ => ?_
  obtain ⟨r', hr', heq⟩ := hkeep r hr
  exact ⟨r', hr', heq ▸ hle⟩

/-- Pruning hands over: a receipt that it drops had been kept up to the horizon. -/
theorem Spent.prune (h : Spent c l now id) :
    Spent c (l.prune now c.receiptRetention) now id := by
  rcases h with ⟨r, hr, hle⟩ | hp
  · by_cases hlt : now < r.expiresAt.saturatingAdd c.receiptRetention
    · -- The receipt stays.
      exact .inl ⟨r, get?_receipts_prune_of_lt hr hlt, hle⟩
    · -- The receipt goes, at a time past the horizon.
      exact .inr (Std.le_trans hle (Std.not_lt.mp hlt))
  · exact .inr hp

end Spent

/-! ## 3. Queries -/

/-- **A ledger is untouched** where value, numbers and consensus are concerned. -/
structure Untouched (l l' : Ledger) : Prop where
  accounts : l'.accounts = l.accounts
  nextAccount : l'.nextAccount = l.nextAccount
  lastConsensus : l'.lastConsensus = l.lastConsensus

section Ask

variable (c : Config) (l : Ledger) (q : Query)

/-- A query touches receipts only. -/
theorem untouched_ask : Untouched l (l.ask c q).2 := by
  rcases ask_cases c l q with h | ⟨id, r, -, -, h⟩
  · rw [h]
    exact ⟨rfl, rfl, rfl⟩
  · rw [h]
    exact ⟨rfl, rfl, rfl⟩

end Ask

/-- A query keeps every receipt with its end of validity. -/
theorem Spent.ask {c : Config} {l : Ledger} {clock : Timestamp} {id : TransactionId}
    (h : Spent c l clock id) (q : Query) : Spent c (l.ask c q).2 clock id := by
  apply h.of_receipts
  intro r hr
  refine ⟨r.asked q id, ?_, r.expiresAt_asked q id⟩
  rw [get?_receipts_asked, hr, Option.map_some]

section Signing

variable [SignatureScheme]

/-! ## 4. Submissions and other operations -/

section Admitted

variable {c : Config} {l : Ledger} {t : SignedTransaction} {now : Timestamp}
  {body : TransactionBody} {payer : Account} {id : TransactionId}

/-- An admitted transaction has not reached the horizon of its identifier. -/
theorem Admitted.lt_horizon (ha : Admitted c l t now body payer) : now < body.id.horizon :=
  Std.lt_of_lt_of_le ha.unexpired
    (Timestamp.saturatingAdd_mono _ (TransactionBody.total_validity ha.validity).1)

/-- The receipt of an admitted transaction is kept up to the horizon at the least. -/
theorem Admitted.horizon_le (ha : Admitted c l t now body payer)
    (hr : minRetention ≤ c.receiptRetention) :
    body.id.horizon ≤ body.expiresAt.saturatingAdd c.receiptRetention := by
  have hspan := (TransactionBody.total_validity ha.validity).2
  have hle := Duration.le_iff.mp hr
  exact Timestamp.saturatingAdd_le_add_add _ (by omega)

/-- A spent identifier is not admitted. -/
theorem Spent.ne_of_admitted (h : Spent c l now id) (ha : Admitted c l t now body payer) :
    id ≠ body.id := by
  rintro rfl
  rcases h with ⟨r, hr, -⟩ | hp
  · rw [ha.fresh] at hr
    cases hr
  · exact Std.not_lt.mpr hp ha.lt_horizon

/-- Accepting a transaction spends its identifier. -/
theorem spent_accept (ha : Admitted c l t now body payer)
    (hr : minRetention ≤ c.receiptRetention) : Spent c (l.accept c t body now) now body.id := by
  refine .inl ⟨kept c l t body now, ?_, ha.horizon_le hr⟩
  rw [get?_receipts_accept, if_pos rfl]

/-- Accepting a transaction leaves other identifiers as they are. -/
theorem Spent.accept (h : Spent c l now id) (ha : Admitted c l t now body payer) :
    Spent c (l.accept c t body now) now id := by
  have hne := h.ne_of_admitted ha
  refine h.of_receipts fun r hr => ⟨r, ?_, rfl⟩
  rw [get?_receipts_accept, if_neg hne, hr]

end Admitted

section Perform

variable {c : Config} {l : Ledger} {clock : Timestamp} {id : TransactionId} {op : Operation}
  {body : TransactionBody}

/-- A submission has a transaction accepted exactly if its answer is `ok`: what is answered so can be
read. -/
theorem isSome_acceptedBy {t : SignedTransaction} {now : Timestamp} :
    (l.acceptedBy c (.submit t now)).isSome ↔ (l.submit c t now).1 = .ok := by
  rw [acceptedBy]
  rcases submit_cases c l t now with ⟨status, hne, heq⟩ | ⟨b, payer, ha, heq⟩
  · rw [heq, if_neg hne]
    exact ⟨nofun, fun h => absurd h hne⟩
  · rw [heq, if_pos rfl, ha.decodes]
    exact ⟨fun _ => rfl, fun _ => rfl⟩

/-- What an operation has accepted was admitted to the pruned ledger, and is applied to it. -/
theorem of_acceptedBy (h : l.acceptedBy c op = some body) :
    ∃ t now payer, op = .submit t now
      ∧ Admitted c (l.prune now c.receiptRetention) t now body payer
      ∧ l.perform c op = (l.prune now c.receiptRetention).accept c t body now := by
  cases op with
  | submit t now =>
    rw [acceptedBy] at h
    rcases submit_cases c l t now with ⟨status, hne, heq⟩ | ⟨b, payer, ha, heq⟩
    · rw [heq, if_neg hne] at h
      cases h
    · rw [heq, if_pos rfl, ha.decodes] at h
      obtain rfl := Option.some.inj h
      exact ⟨t, now, payer, rfl, ha, by rw [perform, heq]⟩
  | ask | createAccount | setBalance => cases h

/-- A submission that has not been accepted only drops old receipts. -/
theorem perform_eq_prune {t : SignedTransaction} {now : Timestamp}
    (h : l.acceptedBy c (.submit t now) = none) :
    l.perform c (.submit t now) = l.prune now c.receiptRetention := by
  rw [perform]
  rcases submit_cases c l t now with ⟨status, -, heq⟩ | ⟨b, payer, -, heq⟩
  · rw [heq]
  · have hsome : (l.acceptedBy c (.submit t now)).isSome :=
      isSome_acceptedBy.mpr (congrArg Prod.fst heq)
    rw [h] at hsome
    cases hsome

/-- A request that has not been accepted leaves the ledger untouched. -/
theorem untouched_of_acceptedBy_eq_none (hop : op.IsRequest) (h : l.acceptedBy c op = none) :
    Untouched l (l.perform c op) := by
  cases op with
  | submit t now =>
    rw [perform_eq_prune h]
    exact ⟨rfl, rfl, rfl⟩
  | ask q => exact untouched_ask c l q
  | createAccount | setBalance => exact hop.elim

/-- **Every operation keeps spent identifiers spent**, unless the clock goes back. -/
theorem Spent.perform (h : Spent c l clock id)
    (hclock : ∀ now ∈ op.clock?, clock ≤ now) :
    Spent c (l.perform c op) (op.clock?.getD clock) id := by
  cases op with
  | submit t now =>
    have hnow := (h.mono (hclock now rfl)).prune
    rw [Ledger.perform]
    rcases submit_cases c l t now with ⟨status, -, heq⟩ | ⟨body, payer, ha, heq⟩
    · rw [heq]
      exact hnow
    · rw [heq]
      exact hnow.accept ha
  | ask q => exact h.ask q
  | createAccount id key balance now => exact h.mono (hclock now rfl)
  | setBalance id balance => exact h

end Perform

/-! ## 5. Runs -/

/-- **A run keeps pace** with a clock: its readings neither go back nor begin behind the clock. -/
structure Paced (clock : Timestamp) (ops : List Operation) : Prop where
  ahead : ∀ now ∈ readings ops, clock ≤ now
  ordered : (readings ops).Pairwise (· ≤ ·)

section Paced

variable {clock : Timestamp} {op : Operation} {ops : List Operation}

omit [SignatureScheme] in
theorem Paced.clock_le (h : Paced clock (op :: ops)) : ∀ now ∈ op.clock?, clock ≤ now := by
  intro now hnow
  exact h.ahead now (mem_readings_cons.mpr (.inl hnow))

omit [SignatureScheme] in
/-- The clock after an operation is not ahead of the readings that are left. -/
theorem Paced.tail (h : Paced clock (op :: ops)) : Paced (op.clock?.getD clock) ops := by
  obtain ⟨hahead, hordered⟩ := h
  rw [readings, List.filterMap_cons] at hahead hordered
  cases hc : op.clock? with
  | none =>
    rw [hc] at hahead hordered
    exact ⟨hahead, hordered⟩
  | some now =>
    rw [hc] at hordered
    obtain ⟨hnow, hrest⟩ := List.pairwise_cons.mp hordered
    exact ⟨hnow, hrest⟩

omit [SignatureScheme] in
/-- A run whose readings do not go back keeps pace with the first of them. -/
theorem exists_paced (hordered : (readings ops).Pairwise (· ≤ ·)) : ∃ clock, Paced clock ops := by
  cases hfirst : readings ops with
  | nil =>
    refine ⟨.epoch, fun now h => ?_, hordered⟩
    rw [hfirst] at h
    exact (List.not_mem_nil h).elim
  | cons now rest =>
    refine ⟨now, fun later h => ?_, hordered⟩
    rw [hfirst] at h hordered
    rcases List.mem_cons.mp h with rfl | h
    · exact Std.le_refl _
    · exact (List.pairwise_cons.mp hordered).1 later h

end Paced

/-- A run accepts no identifier twice, and none that is spent before it.  The induction is on the run,
for any ledger it starts from and any clock that is not ahead of its readings. -/
theorem accepted_nodup {c : Config} (hr : minRetention ≤ c.receiptRetention) (ops : List Operation)
    (l : Ledger) (clock : Timestamp) (hfirst : ∀ now ∈ readings ops, clock ≤ now)
    (hclock : (readings ops).Pairwise (· ≤ ·)) :
    ((accepted c l ops).map (·.id)).Nodup
      ∧ ∀ id, Spent c l clock id → id ∉ (accepted c l ops).map (·.id) := by
  induction ops generalizing l clock with
  | nil => exact ⟨List.nodup_nil, fun _ _ => List.not_mem_nil⟩
  | cons op ops ih =>
    have hpaced : Paced clock (op :: ops) := ⟨hfirst, hclock⟩
    have hop := hpaced.clock_le
    have hrest := hpaced.tail
    obtain ⟨hnodup, hspent⟩ := ih (l.perform c op) (op.clock?.getD clock) hrest.ahead hrest.ordered
    -- What is spent now is spent after the operation, so nothing later accepts it.
    have hlater : ∀ id, Spent c l clock id →
        id ∉ (accepted c (l.perform c op) ops).map (·.id) :=
      fun id h => hspent id (h.perform hop)
    rw [accepted]
    cases ha : l.acceptedBy c op with
    | none => exact ⟨hnodup, hlater⟩
    | some body =>
      obtain ⟨t, now, payer, rfl, hadmitted, hperform⟩ := of_acceptedBy ha
      have hnew : body.id ∉ (accepted c (l.perform c (.submit t now)) ops).map (·.id) := by
        refine hspent body.id ?_
        rw [hperform]
        exact spent_accept hadmitted hr
      rw [Option.toList_some, List.singleton_append, List.map_cons]
      refine ⟨List.nodup_cons.mpr ⟨hnew, hnodup⟩, fun id h hmem => ?_⟩
      rcases List.mem_cons.mp hmem with heq | hmem
      · -- The identifier that is accepted now was not spent.
        exact (h.mono (hop now rfl)).prune.ne_of_admitted hadmitted heq
      · exact hlater id h hmem

/-- **Transactions are applied at most once.**  In a run from the empty ledger in which the clock does
not go back, no identifier is accepted twice, though receipts are dropped along the way; and on no
ledger does a request do anything to the accounts without being accepted.

The work is in `Spent.perform`: once an identifier is accepted, its receipt or the clock keeps it spent,
whatever is done. -/
theorem accepted_at_most_once (c : Config) (ops : List Operation)
    (hretention : minRetention ≤ c.receiptRetention)
    (hclock : (readings ops).Pairwise (· ≤ ·)) :
    ((accepted c (.empty c) ops).map (·.id)).Nodup
      ∧ ∀ (l : Ledger) (op : Operation), op.IsRequest → l.acceptedBy c op = none →
          Untouched l (l.perform c op) := by
  refine ⟨?_, fun _ _ hop h => untouched_of_acceptedBy_eq_none hop h⟩
  obtain ⟨clock, hpaced⟩ := exists_paced hclock
  exact (accepted_nodup hretention ops (.empty c) clock hpaced.ahead hpaced.ordered).1

end Signing

open Trial in
/-- **A run with repetitions**: the deletion is submitted three times over, at last when its receipt
has been kept long enough. -/
def repeatedDeletion : List Operation :=
  [ .createAccount (.simple 2) (key 2) 1000000 ⟨1000, 0⟩
  , .createAccount (.simple 4) (key 4) 500 ⟨1000, 0⟩
  , .createAccount (.simple 5) (key 5) 0 ⟨1000, 0⟩
  , .submit signedDeletion ⟨1001, 0⟩
  , .submit signedDeletion ⟨1002, 0⟩
  , .setBalance (.simple 5) 7
  , .ask ⟨.answer, .transactionReceipt deletion.id⟩
  , .submit signedDeletion ⟨2000, 0⟩ ]

open Trial in
set_option maxRecDepth 10000 in
/-- The deletion is accepted, and accepted once. -/
theorem repeatedDeletion_accepted_once :
    letI := scheme
    (minRetention ≤ Config.receiptRetention {} ∧ (readings repeatedDeletion).Pairwise (· ≤ ·)
        ∧ (accepted {} (.empty {}) repeatedDeletion).map (·.id) = [deletion.id])
      ∧ ((accepted {} (.empty {}) repeatedDeletion).map (·.id)).Nodup
      ∧ ∀ (l : Ledger) (op : Operation), op.IsRequest → l.acceptedBy {} op = none →
          Untouched l (l.perform {} op) := by
  let := scheme
  have hretention : minRetention ≤ Config.receiptRetention {} := by decide
  have hclock : (readings repeatedDeletion).Pairwise (· ≤ ·) := by decide
  have haccepted : (accepted {} (.empty {}) repeatedDeletion).map (·.id) = [deletion.id] := by
    decide +kernel
  exact ⟨⟨hretention, hclock, haccepted⟩,
    accepted_at_most_once {} repeatedDeletion hretention hclock⟩

end Ledger

end ShardLedger
