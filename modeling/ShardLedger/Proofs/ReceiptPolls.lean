import ShardLedger.Client.Operations
import ShardLedger.Node.Emulator
import ShardLedger.Proofs.AtMostOnce
/-
What polls for a receipt are answered.

A ledger keeps the receipt of an accepted transaction with a number of polls for which it holds it back,
or for ever.  Only a poll for this very receipt counts that number down, and only a submission can drop
the receipt; whatever else is asked or done leaves it alone.  So a node in memory answers the polls that
follow with nothing yet, as many times as its settings say, and from then on with the receipt.

To whoever polls, a node is a channel in some world.  What matters of it is said of channels in general:
the replies to the polls one after the other, each in the world that the one before it has left.
-/

set_option autoImplicit false

namespace ShardLedger

/-! ## 1. Polls, and channels that answer them -/

/-- **A poll** for the receipt of a transaction. -/
def receiptPoll (id : TransactionId) : Request :=
  .query ⟨.answer, .transactionReceipt id⟩

/-- **A response that shows a receipt.** -/
def shown (receipt : Receipt) : Response :=
  .query ⟨.ok, .answer, 0, some (.transactionReceipt receipt)⟩

variable {σ : Type}

/-- **The world after so many polls** for a receipt. -/
def Channel.polled (c : Channel σ) (now : Timestamp) (id : TransactionId) (w : σ) : Nat → σ
  | 0 => w
  | k + 1 => (c.call now (receiptPoll id) (c.polled now id w k)).2

/-- **The reply to the poll** after so many polls. -/
def Channel.pollReply (c : Channel σ) (now : Timestamp) (id : TransactionId) (w : σ) (k : Nat) :
    Delivery :=
  (c.call now (receiptPoll id) (c.polled now id w k)).1

/-- **A channel reveals a receipt** after so many polls, or never: until then each poll finds nothing,
and the next one finds the receipt.  Replies are there at once. -/
structure Channel.Reveals (c : Channel σ) (now : Timestamp) (id : TransactionId) (receipt : Receipt)
    (polls : Option Nat) (w : σ) : Prop where
  pending : ∀ k, (∀ n ∈ polls, k < n) → c.pollReply now id w k = .atOnce (.ok (shown .pending))
  final : ∀ n ∈ polls, c.pollReply now id w n = .atOnce (.ok (shown receipt))

/-! ## 2. The countdown of a node -/

namespace Emulator

/-- **A node holds a receipt back** for so many more polls, or for ever; and it can be reached. -/
structure Holds (e : Emulator) (id : TransactionId) (receipt : Receipt) (left : Option Nat) :
    Prop where
  online : e.offline = false
  kept : ∃ r, e.ledger.receipts.get? id = some r ∧ r.record.receipt = receipt
    ∧ r.remainingPolls.map UInt32.toNat = left

variable {e : Emulator} {id : TransactionId} {receipt : Receipt} {left : Option Nat}

variable [SignatureScheme]

/-- **One poll**: the node replies, counts the poll, and goes on holding the receipt. -/
theorem Holds.call (h : e.Holds id receipt left) (now : Timestamp) :
    (e.call (receiptPoll id) now).1
        = .ok (shown (if left = some 0 then receipt else .pending))
      ∧ (e.call (receiptPoll id) now).2.Holds id receipt (left.map (· - 1))
      ∧ (e.call (receiptPoll id) now).2.requests = e.requests + 1 := by
  obtain ⟨config, ledger, offline, requests⟩ := e
  obtain ⟨honline, r, hr, hreceipt, hleft⟩ := h
  obtain rfl : offline = false := honline
  obtain ⟨hshown, hcount⟩ := Ledger.pollReceipt_counts hleft
  have hcall : Emulator.call ⟨config, ledger, false, requests⟩ (receiptPoll id) now
      = (.ok (shown (Ledger.pollReceipt r).1),
        ⟨config, { ledger with receipts := ledger.receipts.set id (Ledger.pollReceipt r).2 }, false,
          requests + 1⟩) := by
    simp only [Emulator.call, Emulator.handle, receiptPoll, Ledger.handle, Ledger.ask, Ledger.answer, hr,
      Bool.false_eq_true, if_false]
    rfl
  rw [hcall, hshown, hreceipt]
  refine ⟨rfl, ⟨rfl, _, ?_, ?_, hcount⟩, rfl⟩
  · rw [Table.get?_set, if_pos rfl]
  · rw [Ledger.record_pollReceipt, hreceipt]

section World

variable {view : σ → Emulator} {update : σ → Emulator → σ} {w : σ}

/-- **Many polls**: the node has counted each of them.  The induction is on the polls. -/
theorem Holds.polled (hlens : ∀ w e, view (update w e) = e) (h : (view w).Holds id receipt left)
    (now : Timestamp) (k : Nat) :
    (view ((channel view update).polled now id w k)).Holds id receipt (left.map (· - k))
      ∧ (view ((channel view update).polled now id w k)).requests = (view w).requests + k := by
  induction k with
  | zero =>
    have hsame : left.map (· - 0) = left := by simp
    rw [hsame]
    exact ⟨h, rfl⟩
  | succ k ih =>
    obtain ⟨hk, hrequests⟩ := ih
    obtain ⟨-, hnext, hcount⟩ := hk.call now
    have hworld : view ((channel view update).polled now id w (k + 1))
        = ((view ((channel view update).polled now id w k)).call (receiptPoll id) now).2 :=
      hlens _ _
    have hleft : left.map (· - (k + 1)) = (left.map (· - k)).map (· - 1) := by
      cases left <;> rfl
    rw [hworld, hleft]
    refine ⟨hnext, ?_⟩
    rw [hcount, hrequests, Nat.add_assoc]

/-- **A node that holds a receipt back reveals it** after the polls that are left. -/
theorem Holds.reveals (hlens : ∀ w e, view (update w e) = e) (h : (view w).Holds id receipt left)
    (now : Timestamp) : (channel view update).Reveals now id receipt left w := by
  have hreply : ∀ k, (channel view update).pollReply now id w k
      = .atOnce (.ok (shown (if left.map (· - k) = some 0 then receipt else .pending))) := by
    intro k
    have hk := ((h.polled hlens now k).1.call now).1
    exact congrArg Delivery.atOnce hk
  constructor
  · intro k hk
    rw [hreply, if_neg]
    intro hzero
    obtain ⟨n, hn, hsub⟩ := Option.map_eq_some_iff.mp hzero
    have hlt := hk n hn
    omega
  · intro n hn
    rw [hreply, if_pos]
    rw [Option.mem_def.mp hn, Option.map_some, Nat.sub_self]

end World

end Emulator

/-! ## 3. What leaves a receipt alone -/

/-- **An operation leaves a receipt alone**: it is no submission and no poll for it. -/
def Operation.Spares (id : TransactionId) : Operation → Prop
  | .submit _ _ => False
  | .ask q => q ≠ ⟨.answer, .transactionReceipt id⟩
  | .createAccount _ _ _ _ | .setBalance _ _ => True

namespace Ledger

variable [SignatureScheme] {c : Config} {l : Ledger} {id : TransactionId}

omit [SignatureScheme] in
/-- A query that is no poll for a receipt leaves it as it is. -/
theorem get?_receipts_ask {q : Query} (hq : q ≠ ⟨.answer, .transactionReceipt id⟩) :
    (l.ask c q).2.receipts.get? id = l.receipts.get? id := by
  have hasked : Retained.asked q id = fun r => r := by
    funext r
    exact r.asked_of_ne id hq
  rw [get?_receipts_asked, hasked, Option.map_id']

/-- What leaves a receipt alone leaves it as it is, one operation after the other. -/
theorem get?_receipts_run {ops : List Operation} (hops : ∀ op ∈ ops, op.Spares id) :
    (l.run c ops).receipts.get? id = l.receipts.get? id := by
  induction ops generalizing l with
  | nil => rfl
  | cons op ops ih =>
    have hop := hops op List.mem_cons_self
    have hstep : (l.perform c op).receipts.get? id = l.receipts.get? id := by
      cases op with
      | submit => exact hop.elim
      | ask q => exact get?_receipts_ask hop
      | createAccount | setBalance => rfl
    rw [run, List.foldl_cons, ← run, ih fun op h => hops op (List.mem_cons_of_mem _ h), hstep]

end Ledger

end ShardLedger
