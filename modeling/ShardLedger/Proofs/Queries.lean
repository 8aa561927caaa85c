import ShardLedger.Ledger.Inquiry
/-
What a query leaves behind.

A query changes a ledger in one way only: a poll for a receipt counts itself.  What a poll shows and what
it leaves is said here once, and from it what any query leaves of any receipt.
-/

set_option autoImplicit false

namespace ShardLedger

/-! ## 1. Polls -/

/-- A receipt is shown exactly if no poll is left before it. -/
theorem Retained.isRevealed_iff {r : Retained} {left : Option Nat}
    (h : r.remainingPolls.map UInt32.toNat = left) : r.isRevealed = true ↔ left = some 0 := by
  rw [Retained.isRevealed, decide_eq_true_eq, ← h]
  cases r.remainingPolls with
  | none => simp
  | some n => simp [← UInt32.toNat_inj]

namespace Ledger

section Poll

variable (r : Retained)

/-- A poll leaves the record. -/
theorem record_pollReceipt : (pollReceipt r).2.record = r.record := by
  unfold pollReceipt
  by_cases h : r.isRevealed
  · rw [if_pos h]
  · rw [if_neg h]
    rfl

/-- A poll leaves whether the record is listed. -/
theorem listed_pollReceipt : (pollReceipt r).2.listed = r.listed := by
  unfold pollReceipt
  by_cases h : r.isRevealed
  · rw [if_pos h]
  · rw [if_neg h]
    rfl

/-- A poll leaves the end of validity. -/
theorem expiresAt_pollReceipt : (pollReceipt r).2.expiresAt = r.expiresAt := by
  unfold pollReceipt
  by_cases h : r.isRevealed
  · rw [if_pos h]
  · rw [if_neg h]
    rfl

end Poll

/-- A poll shows the receipt if none is left before it, and else counts itself. -/
theorem pollReceipt_counts {r : Retained} {left : Option Nat}
    (h : r.remainingPolls.map UInt32.toNat = left) :
    (pollReceipt r).1 = (if left = some 0 then r.record.receipt else .pending)
      ∧ (pollReceipt r).2.remainingPolls.map UInt32.toNat = left.map (· - 1) := by
  unfold pollReceipt
  by_cases hleft : left = some 0
  · rw [if_pos ((Retained.isRevealed_iff h).mpr hleft), if_pos hleft]
    refine ⟨rfl, ?_⟩
    rw [h, hleft]
    rfl
  · rw [if_neg (fun hr => hleft ((Retained.isRevealed_iff h).mp hr)), if_neg hleft]
    refine ⟨rfl, ?_⟩
    subst h
    simp only [Retained.polled]
    cases hn : r.remainingPolls with
    | none => rfl
    | some n =>
      -- The count is not zero, so taking one from it does not wrap.
      have hpos : n.toNat ≠ 0 := by
        intro hzero
        rw [hn, Option.map_some, hzero] at hleft
        exact hleft rfl
      have hone : (1 : UInt32) ≤ n := by
        rw [UInt32.le_iff_toNat_le]
        simpa using Nat.one_le_iff_ne_zero.mpr hpos
      simp [UInt32.toNat_sub_of_le _ _ hone]

end Ledger

/-! ## 2. Queries -/

/-- **A receipt after a query**: it is polled if the query is a poll for it, and else as it was. -/
def Retained.asked (q : Query) (id : TransactionId) (r : Retained) : Retained :=
  if q = ⟨.answer, .transactionReceipt id⟩ then (Ledger.pollReceipt r).2 else r

section Asked

variable (q : Query) (id : TransactionId) (r : Retained)

/-- A query that is no poll for a receipt leaves it as it is. -/
theorem Retained.asked_of_ne {q : Query} (hq : q ≠ ⟨.answer, .transactionReceipt id⟩) : r.asked q id = r :=
  if_neg hq

/-- No query changes a record. -/
theorem Retained.record_asked : (r.asked q id).record = r.record := by
  unfold asked
  by_cases hpoll : q = ⟨.answer, .transactionReceipt id⟩
  · rw [if_pos hpoll, Ledger.record_pollReceipt]
  · rw [if_neg hpoll]

/-- No query changes whether a record is listed. -/
theorem Retained.listed_asked : (r.asked q id).listed = r.listed := by
  unfold asked
  by_cases hpoll : q = ⟨.answer, .transactionReceipt id⟩
  · rw [if_pos hpoll, Ledger.listed_pollReceipt]
  · rw [if_neg hpoll]

/-- No query moves the end of validity. -/
theorem Retained.expiresAt_asked : (r.asked q id).expiresAt = r.expiresAt := by
  unfold asked
  by_cases hpoll : q = ⟨.answer, .transactionReceipt id⟩
  · rw [if_pos hpoll, Ledger.expiresAt_pollReceipt]
  · rw [if_neg hpoll]

end Asked

namespace Ledger

section Ask

variable (c : Config) (l : Ledger) (q : Query)

/-- A query counts one poll of the receipt it asks for, or changes nothing. -/
theorem ask_cases :
    (l.ask c q).2 = l
      ∨ ∃ id r, q = ⟨.answer, .transactionReceipt id⟩ ∧ l.receipts.get? id = some r
          ∧ (l.ask c q).2 = { l with receipts := l.receipts.set id (pollReceipt r).2 } := by
  obtain ⟨phase, question⟩ := q
  cases phase with
  | cost =>
    rw [ask]
    cases l.admits question <;> exact .inl rfl
  | answer =>
    cases question with
    | accountBalance id =>
      rw [ask, answer]
      cases l.liveAccount id <;> exact .inl rfl
    | accountInfo id =>
      rw [ask, answer]
      cases l.accounts.get? id <;> exact .inl rfl
    | accountRecords id =>
      rw [ask, answer]
      by_cases h : l.accounts.contains id
      · rw [if_pos h]
        exact .inl rfl
      · rw [if_neg h]
        exact .inl rfl
    | transactionReceipt id =>
      rw [ask, answer]
      cases hr : l.receipts.get? id with
      | none => exact .inl rfl
      | some r => exact .inr ⟨id, r, rfl, hr, rfl⟩
    | transactionRecord id =>
      rw [ask, answer]
      cases l.receipts.get? id with
      | none => exact .inl rfl
      | some r => cases h : r.isRevealed <;> simp [h]

/-- **A look-up of a receipt** after a query. -/
theorem get?_receipts_asked (id : TransactionId) :
    (l.ask c q).2.receipts.get? id = (l.receipts.get? id).map (Retained.asked q id) := by
  by_cases hpoll : q = ⟨.answer, .transactionReceipt id⟩
  · have hasked : Retained.asked q id = fun r => (pollReceipt r).2 := by
      funext r
      exact if_pos hpoll
    rw [hasked, hpoll, ask, answer]
    cases hr : l.receipts.get? id with
    | none => exact hr
    | some r =>
      dsimp only
      rw [Table.get?_set, if_pos rfl, Option.map_some]
  · have hasked : Retained.asked q id = fun r => r := by
      funext r
      exact r.asked_of_ne id hpoll
    rw [hasked, Option.map_id']
    rcases ask_cases c l q with h | ⟨k, r, hq, -, h⟩
    · rw [h]
    · -- The receipt that is polled is another one.
      have hne : id ≠ k := by
        intro hk
        exact hpoll (hk ▸ hq)
      rw [h, Table.get?_set, if_neg hne]

end Ask

/-! ## 3. Histories -/

/-- Putting a record in its place adds it and nothing else. -/
theorem perm_insertByTime (r : Record) (rs : List Record) : (insertByTime r rs).Perm (r :: rs) := by
  induction rs with
  | nil => exact .refl _
  | cons s rs ih =>
    rw [insertByTime]
    by_cases h : s.consensus ≤ r.consensus
    · rw [if_pos h]
      exact (ih.cons s).trans (.swap r s rs)
    · rw [if_neg h]

/-- Putting the records of receipts in their places, one after the other, adds them and nothing else. -/
theorem perm_foldl_insertByTime (receipts : List Retained) (rs : List Record) :
    (receipts.foldl (fun rs r => insertByTime r.record rs) rs).Perm
      (receipts.map (·.record) ++ rs) := by
  induction receipts generalizing rs with
  | nil => exact .refl _
  | cons r receipts ih =>
    rw [List.foldl_cons, List.map_cons, List.cons_append]
    exact (ih _).trans (((perm_insertByTime r.record rs).append_left _).trans List.perm_middle)

end Ledger

end ShardLedger
