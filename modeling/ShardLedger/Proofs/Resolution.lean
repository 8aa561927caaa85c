import ShardLedger.Client.Resolver
import ShardLedger.Client.Witness
import ShardLedger.Proofs.PollSchedule
import ShardLedger.Proofs.ReceiptPolls
/-
How a resolution ends.

A resolver and a node count side by side: the node the polls for which it still holds the receipt back,
the resolver the polls that it may still make and the time that it may still wait.  Before each poll
everything is settled by how many polls were made: the resolver, the clock and the world.  From there a
poll that finds nothing either spends a budget or leads to the same place one poll later, and a poll
that finds the receipt ends it.  So the first of the two counts to run out decides.

All of this holds of any channel that reveals a receipt at some poll or never; the node in memory is one.
-/

set_option autoImplicit false

namespace ShardLedger

variable {σ : Type}

/-! ## 1. One poll -/

namespace Resolver

/-- **A resolver whose polls found nothing**, so many since the first one was made. -/
def waiting (id : TransactionId) (policy : BackoffPolicy) (start : Instant) : Nat → Resolver
  | 0 => .start id policy
  | k + 1 => ⟨id, policy, .polling (k + 1), k + 1, k + 1, some start⟩

variable {id : TransactionId} {policy : BackoffPolicy} {start : Instant} {receipt : Receipt}

/-- A resolver that waits has no outcome. -/
theorem outcome?_waiting (k : Nat) : (waiting id policy start k).outcome? = none := by
  cases k <;> rfl

/-- The first poll starts the time, and later polls leave it. -/
theorem beginPoll_waiting {k : Nat} {now : Instant} (hfirst : k = 0 → now = start) :
    (waiting id policy start k).beginPoll now
      = ⟨id, policy, .polling (k + 1), k + 1, k, some start⟩ := by
  cases k with
  | zero =>
    rw [hfirst rfl]
    rfl
  | succ k => rfl

/-- A receipt that is not settled is taken in as nothing yet. -/
theorem endPoll_pending (r : Resolver) (now : Instant) :
    r.endPoll now (.ok (shown .pending))
      = (.ok (r.settle now .pending).outcome?, r.settle now .pending) := rfl

/-- A receipt that is settled is taken in as the outcome. -/
theorem endPoll_final (hfinal : receipt.status.isPending = false) (r : Resolver) (now : Instant) :
    r.endPoll now (.ok (shown receipt))
      = (.ok (some (.ofReceipt receipt)), { r with state := .resolved (.ofReceipt receipt) }) := by
  have hfinding : findingOf ⟨.ok, .answer, 0, some (.transactionReceipt receipt)⟩
      = .ok (.final (.ofReceipt receipt)) := by
    have htransient : Status.ok.isTransient = false := by decide
    have hok : Status.ok.isOk = true := by decide
    simp only [findingOf, htransient, hok, hfinal, Outcome.ofReceipt]
    cases receipt.status.isSuccess <;> rfl
  have hcheck : ((Except.ok (shown receipt)).bind r.question.check).bind findingOf
      = .ok (.final (.ofReceipt receipt)) := hfinding
  rw [endPoll, hcheck]
  rfl

/-- The time since the first poll. -/
theorem elapsed_eq {r : Resolver} (hstarted : r.startedAt = some start) (d : Nat) :
    r.elapsed (start + d) = d := by
  rw [elapsed, hstarted, Option.getD_some, Nat.add_sub_cancel_left]

/-- A poll that finds nothing leaves the resolver waiting, or spends a budget, whenever it ends. -/
theorem settle_pending_at (k d : Nat) :
    settle ⟨id, policy, .polling (k + 1), k + 1, k, some start⟩ (start + d) .pending
      = if k + 1 < policy.maxPolls.toNat ∧ d < policy.maxElapsed.total then
          waiting id policy start (k + 1)
        else ⟨id, policy, .resolved (.unresolved (k + 1) d), k + 1, k + 1, some start⟩ := by
  have helapsed : (waiting id policy start (k + 1)).elapsed (start + d) = d := elapsed_eq rfl _
  have hbudget : (waiting id policy start (k + 1)).hasBudget (start + d)
      = decide (k + 1 < policy.maxPolls.toNat ∧ d < policy.maxElapsed.total) := by
    rw [hasBudget, helapsed]
    exact (Bool.decide_and _ _).symm
  have hsettle : settle ⟨id, policy, .polling (k + 1), k + 1, k, some start⟩ (start + d) .pending
      = if (waiting id policy start (k + 1)).hasBudget (start + d) then
          waiting id policy start (k + 1)
        else { waiting id policy start (k + 1) with
          state := .resolved (.unresolved (k + 1)
            ((waiting id policy start (k + 1)).elapsed (start + d))) } := rfl
  rw [hsettle, hbudget, helapsed]
  by_cases hallows : k + 1 < policy.maxPolls.toNat ∧ d < policy.maxElapsed.total
  · simp only [if_pos hallows, decide_eq_true hallows, if_true]
  · simp only [if_neg hallows, decide_eq_false hallows, Bool.false_eq_true, if_false]
    rfl

/-- A poll in the sequence of its policy leaves the resolver waiting if the policy allows another. -/
theorem settle_pending (k : Nat) :
    settle ⟨id, policy, .polling (k + 1), k + 1, k, some start⟩
        (start + policy.pollTime (k + 1)) .pending
      = if policy.Allows (k + 1) then waiting id policy start (k + 1)
        else ⟨id, policy, .resolved (.unresolved (k + 1) (policy.pollTime (k + 1))), k + 1, k + 1,
          some start⟩ :=
  settle_pending_at k _

/-- A resolver that waits does so as its policy says. -/
theorem delay_waiting (k d : Nat) :
    (waiting id policy start (k + 1)).delay (start + d) = policy.pause (k + 1) d := by
  have helapsed : (waiting id policy start (k + 1)).elapsed (start + d) = d := elapsed_eq rfl _
  simp only [delay, helapsed]
  rfl

end Resolver

namespace ClientState

/-- A wait ends when its instant has come, and at once if it has. -/
theorem now_waitUntil (s : ClientState σ) (t : Instant) : (s.waitUntil t).now = max s.now t := by
  unfold waitUntil endWait?
  by_cases h : t ≤ s.now ∧ 0 < s.allowance
  · rw [if_pos h, max_eq_left h.1]
  · rw [if_neg h]
    rfl

/-- Waiting leaves the wall clock and the connection. -/
theorem frame_waitUntil (s : ClientState σ) (t : Instant) :
    (s.waitUntil t).wall = s.wall ∧ (s.waitUntil t).closed = s.closed := by
  unfold waitUntil endWait?
  by_cases h : t ≤ s.now ∧ 0 < s.allowance
  · rw [if_pos h]
    exact ⟨rfl, rfl⟩
  · rw [if_neg h]
    exact ⟨rfl, rfl⟩

end ClientState

namespace Connection

variable {c : Connection σ} {s : ClientState σ} {id : TransactionId} {policy : BackoffPolicy}

/-- One poll is one round trip, unless the outcome is known. -/
theorem run_poll {r : Resolver} (hunresolved : r.outcome? = none) :
    (c.poll r).run s
      = ((r.beginPoll s.now).endPoll ((c.call (receiptPoll r.id)).run s).2.now
          ((c.call (receiptPoll r.id)).run s).1, ((c.call (receiptPoll r.id)).run s).2) := by
  unfold poll
  rw [hunresolved]
  rfl

/-- One poll whose reply is there at once. -/
theorem run_poll_atOnce {r : Resolver} {response : Response} (hopen : s.closed = false)
    (hunresolved : r.outcome? = none)
    (hreply : (c.channel.call s.wall (receiptPoll r.id) s.world).1 = .atOnce (.ok response)) :
    (c.poll r).run s
      = ((r.beginPoll s.now).endPoll s.now (.ok response),
        { s with world := (c.channel.call s.wall (receiptPoll r.id) s.world).2 }) := by
  have hcall : (c.call (receiptPoll r.id)).run s
      = (.ok response, { s with world := (c.channel.call s.wall (receiptPoll r.id) s.world).2 }) := by
    rw [run_call, if_neg (by simp [hopen]), hreply]
    rfl
  rw [run_poll hunresolved, hcall]

/-- A poll with an outcome ends the resolution. -/
theorem run_resolveWithin_of_some {r r' : Resolver} {o : Outcome} {s' : ClientState σ}
    (hpoll : (c.poll r).run s = ((.ok (some o), r'), s')) (left : Nat) :
    (c.resolveWithin left r).run s = (.ok o, s') := by
  unfold resolveWithin
  rw [StateT.run_bind, hpoll]
  rfl

/-- A poll without one is followed by a pause, if polls are left. -/
theorem run_resolveWithin_of_none {r r' : Resolver} {s' : ClientState σ}
    (hpoll : (c.poll r).run s = ((.ok none, r'), s')) (left : Nat) :
    (c.resolveWithin (left + 1) r).run s
      = (c.resolveWithin left r').run
          (s'.waitUntil (c.timer.pauseEnd s'.now (r'.delay s'.now))) := by
  rw [resolveWithin, StateT.run_bind, hpoll]
  rfl

/-- **Where a resolution stands** before a poll, as many polls after it began: nothing was found so far, and
every pause took as long as it should. -/
structure Stands (c : Connection σ) (policy : BackoffPolicy) (id : TransactionId)
    (s : ClientState σ) (k : Nat) (s' : ClientState σ) : Prop where
  wall : s'.wall = s.wall
  isOpen : s'.closed = false
  now : s'.now = s.now + policy.pollTime (k + 1)
  world : s'.world = c.channel.polled s.wall id s.world k

/-- **How a resolution ends**: with this outcome, after so many polls, at the time of the last one. -/
structure Ends (c : Connection σ) (policy : BackoffPolicy) (id : TransactionId)
    (s : ClientState σ) (polls : Nat) (o : Outcome) : Prop where
  outcome : ((c.resolve (.start id policy)).run s).1 = .ok o
  now : ((c.resolve (.start id policy)).run s).2.now = s.now + policy.pollTime polls
  world : ((c.resolve (.start id policy)).run s).2.world = c.channel.polled s.wall id s.world polls

/-- The poll that is due finds what the channel replies, and the world is one poll on. -/
theorem Stands.poll {k : Nat} {s' : ClientState σ} {response : Response}
    (h : Stands c policy id s k s')
    (hreply : c.channel.pollReply s.wall id s.world k = .atOnce (.ok response)) :
    (c.poll (.waiting id policy s.now k)).run s'
      = (Resolver.endPoll ⟨id, policy, .polling (k + 1), k + 1, k, some s.now⟩
          (s.now + policy.pollTime (k + 1)) (.ok response),
        { s' with world := c.channel.polled s.wall id s.world (k + 1) }) := by
  have hid : (Resolver.waiting id policy s.now k).id = id := by
    cases k <;> rfl
  have hfirst : k = 0 → s'.now = s.now := by
    rintro rfl
    exact h.now
  have hreply' : (c.channel.call s'.wall (receiptPoll (Resolver.waiting id policy s.now k).id)
      s'.world).1 = .atOnce (.ok response) := by
    rw [hid, h.wall, h.world]
    exact hreply
  rw [run_poll_atOnce h.isOpen (Resolver.outcome?_waiting k) hreply', Resolver.beginPoll_waiting hfirst, hid,
    h.wall, h.world, ← h.now]
  rfl

/-! ## 2. From poll to poll -/

variable {k : Nat} {s' : ClientState σ}

/-- **A poll that finds nothing and spends no budget** leads to the same place one poll later. -/
theorem Stands.goes_on (h : Stands c policy id s k s') (htimer : c.timer.Keeps policy s.now)
    (hpending : c.channel.pollReply s.wall id s.world k = .atOnce (.ok (shown .pending)))
    (hallows : policy.Allows (k + 1)) (left : Nat) :
    ∃ s'', Stands c policy id s (k + 1) s''
      ∧ (c.resolveWithin (left + 1) (.waiting id policy s.now k)).run s'
        = (c.resolveWithin left (.waiting id policy s.now (k + 1))).run s'' := by
  have hpoll := h.poll hpending
  rw [Resolver.endPoll_pending, Resolver.settle_pending, if_pos hallows,
    Resolver.outcome?_waiting] at hpoll
  -- The state after the poll, and after the pause that follows it.
  let polled : ClientState σ := { s' with world := c.channel.polled s.wall id s.world (k + 1) }
  let due : Instant := c.timer.pauseEnd polled.now
    ((Resolver.waiting id policy s.now (k + 1)).delay polled.now)
  have hdue : due = s.now + policy.pollTime (k + 2) := by
    have hnow : polled.now = s.now + policy.pollTime (k + 1) := h.now
    simp only [due, hnow, Resolver.delay_waiting]
    exact htimer (k + 1) (Nat.le_add_left 1 k)
  have hframe := polled.frame_waitUntil due
  refine ⟨polled.waitUntil due, ⟨?_, ?_, ?_, ?_⟩, ?_⟩
  · exact hframe.1.trans h.wall
  · exact hframe.2.trans h.isOpen
  · -- Polls are made no earlier than those before them.
    have hlater : policy.pollTime (k + 1) ≤ policy.pollTime (k + 2) := by
      rw [policy.pollTime_succ (Nat.le_add_left 1 k)]
      exact Nat.le_add_right _ _
    have hnow : polled.now = s.now + policy.pollTime (k + 1) := h.now
    rw [ClientState.now_waitUntil, hdue, hnow]
    exact max_eq_right (Nat.add_le_add_left hlater _)
  · exact polled.world_waitUntil due
  · exact run_resolveWithin_of_none hpoll left

/-- A poll with an outcome ends the resolution where it stands. -/
theorem Stands.ends_at {r : Resolver} {o : Outcome} {left : Nat} (h : Stands c policy id s k s')
    (hrun : (c.resolve (.start id policy)).run s
      = (c.resolveWithin left (.waiting id policy s.now k)).run s')
    (hpoll : (c.poll (.waiting id policy s.now k)).run s'
      = ((.ok (some o), r), { s' with world := c.channel.polled s.wall id s.world (k + 1) })) :
    Ends c policy id s (k + 1) o := by
  have hend := hrun.trans (run_resolveWithin_of_some hpoll left)
  constructor
  · rw [hend]
  · rw [hend]
    exact h.now
  · rw [hend]

/-- **Any number of polls that find nothing and spend no budget.**  The induction is on the polls. -/
theorem exists_stands (hopen : s.closed = false) (htimer : c.timer.Keeps policy s.now) (k : Nat)
    (hpending : ∀ j, j < k →
      c.channel.pollReply s.wall id s.world j = .atOnce (.ok (shown .pending)))
    (hallows : ∀ j, 1 ≤ j → j ≤ k → policy.Allows j) :
    ∃ s', Stands c policy id s k s'
      ∧ (c.resolve (.start id policy)).run s
        = (c.resolveWithin (policy.maxPolls.toNat - k) (.waiting id policy s.now k)).run s' := by
  induction k with
  | zero => exact ⟨s, ⟨rfl, hopen, rfl, rfl⟩, rfl⟩
  | succ k ih =>
    have hlater := hallows (k + 1) (Nat.le_add_left 1 k) (Nat.le_refl _)
    obtain ⟨s', hstands, hrun⟩ := ih (fun j hj => hpending j (Nat.lt_succ_of_lt hj))
      (fun j hone hj => hallows j hone (Nat.le_succ_of_le hj))
    -- The budget allows another poll, so one is left after this one.
    have hleft : policy.maxPolls.toNat - k = policy.maxPolls.toNat - (k + 1) + 1 := by
      have hpolls := hlater.1
      omega
    obtain ⟨s'', hstands', hrun'⟩ := hstands.goes_on htimer (hpending k (Nat.lt_succ_self k)) hlater
      (policy.maxPolls.toNat - (k + 1))
    refine ⟨s'', hstands', ?_⟩
    rw [hrun, hleft, hrun']

/-! ## 3. Where it ends -/

/-- **How a resolution ends against a channel that reveals a receipt** is what its policy comes to. -/
theorem ends_of_reveals {receipt : Receipt} {held : Option Nat} {polls : Nat} {o : Outcome}
    (hopen : s.closed = false) (htimer : c.timer.Keeps policy s.now)
    (hreveals : c.channel.Reveals s.wall id receipt held s.world)
    (hfinal : receipt.status.isPending = false) (h : policy.Concludes receipt held polls o) :
    Ends c policy id s polls o := by
  cases h with
  | @revealed n hshown hlasts =>
    -- Every poll before the one that is due comes too early for the receipt.
    have hpending : ∀ j, j < n →
        c.channel.pollReply s.wall id s.world j = .atOnce (.ok (shown .pending)) := by
      intro j hj
      apply hreveals.pending
      intro m hm
      rw [hshown] at hm
      obtain rfl := Option.some.inj hm
      exact hj
    obtain ⟨s', hstands, hrun⟩ := exists_stands hopen htimer n hpending hlasts
    have hpoll := hstands.poll (hreveals.final n (Option.mem_def.mpr hshown))
    rw [Resolver.endPoll_final hfinal] at hpoll
    exact hstands.ends_at hrun hpoll
  | spent hone hhidden hspent hfirst =>
    obtain ⟨k, rfl⟩ : ∃ k, polls = k + 1 := ⟨polls - 1, by omega⟩
    -- Here the poll that is due comes too early as well, and spends the budget.
    have hpending : ∀ j, j ≤ k →
        c.channel.pollReply s.wall id s.world j = .atOnce (.ok (shown .pending)) := by
      intro j hj
      apply hreveals.pending
      intro n hn
      exact Nat.lt_of_le_of_lt hj (hhidden n hn)
    obtain ⟨s', hstands, hrun⟩ := exists_stands hopen htimer k
      (fun j hj => hpending j (Nat.le_of_lt hj))
      (fun j hj hk => hfirst j hj (Nat.lt_succ_of_le hk))
    have hpoll := hstands.poll (hpending k (Nat.le_refl k))
    rw [Resolver.endPoll_pending, Resolver.settle_pending, if_neg hspent] at hpoll
    exact hstands.ends_at hrun hpoll

end Connection

/-! ## 4. Against a node in memory -/

namespace Emulator

variable [SignatureScheme]

/-- The receipt of an accepted transaction is final, and kept as the settings say. -/
theorem exists_kept {config : Config} {l : Ledger} {t : SignedTransaction} {now : Timestamp}
    {body : TransactionBody} (haccepted : (l.submit config t now).1 = .ok) (hbody : t.body = .ok body) :
    ∃ r, (l.submit config t now).2.receipts.get? body.id = some r
      ∧ r.record.receipt.status.isPending = false ∧ r.remainingPolls = config.consensusPolls := by
  rcases l.submit_cases config t now with ⟨status, hne, heq⟩ | ⟨b, payer, ha, heq⟩
  · rw [heq] at haccepted
    exact absurd haccepted hne
  · obtain rfl : b = body := Except.ok.inj (ha.decodes.symm.trans hbody)
    rw [heq]
    refine ⟨_, (Ledger.get?_receipts_accept _ _ _ _ _ _).trans (if_pos rfl), ?_, rfl⟩
    exact (Ledger.outcome_applied _ _ _ _).isPending_eq_false

/-- **Resolving an accepted transaction** at a node in memory.  Nothing else is submitted and nobody else
polls for the receipt between the submission and the resolution, the node can be reached, and every
pause takes as long as it is asked to.  Then the resolution ends as its policy comes to with the
receipt of the transaction, which is final, and the polls for which the node holds it back.

The work is in `Connection.ends_of_reveals`, which follows the polls of any channel that holds a receipt
back and then reveals it. -/
theorem resolve_accepted (view : σ → Emulator) (update : σ → Emulator → σ)
    (hlens : ∀ w e, view (update w e) = e) {e : Emulator} {t : SignedTransaction} {now : Timestamp}
    {body : TransactionBody} {ops : List Operation} {c : Connection σ} {s : ClientState σ}
    {policy : BackoffPolicy}
    (haccepted : (e.ledger.submit e.config t now).1 = .ok) (hbody : t.body = .ok body)
    (hops : ∀ op ∈ ops, op.Spares body.id)
    (hledger : (view s.world).ledger = (e.ledger.submit e.config t now).2.run e.config ops)
    (honline : (view s.world).offline = false)
    (hchannel : c.channel = channel view update) (hopen : s.closed = false)
    (htimer : c.timer.Keeps policy s.now) :
    ∃ r, (e.ledger.submit e.config t now).2.receipts.get? body.id = some r
      ∧ r.record.receipt.status.isPending = false
      ∧ (∃ polls o,
          policy.Concludes r.record.receipt (e.config.consensusPolls.map UInt32.toNat) polls o)
      ∧ ∀ polls o,
          policy.Concludes r.record.receipt (e.config.consensusPolls.map UInt32.toNat) polls o →
          Connection.Ends c policy body.id s polls o
            ∧ (view ((c.resolve (.start body.id policy)).run s).2.world).requests
              = (view s.world).requests + polls := by
  obtain ⟨r, hr, hfinal, hleft⟩ := exists_kept haccepted hbody
  refine ⟨r, hr, hfinal, policy.exists_concludes _ _, ?_⟩
  intro polls o hconcludes
  -- What was done since the submission has left the receipt and its countdown alone.
  have hholds : (view s.world).Holds body.id r.record.receipt
      (e.config.consensusPolls.map UInt32.toNat) := by
    refine ⟨honline, r, ?_, rfl, by rw [hleft]⟩
    rw [hledger, Ledger.get?_receipts_run hops, hr]
  have hreveals := hholds.reveals hlens s.wall
  rw [← hchannel] at hreveals
  have hends := Connection.ends_of_reveals hopen htimer hreveals hfinal hconcludes
  refine ⟨hends, ?_⟩
  rw [hends.world, hchannel]
  exact (hholds.polled hlens s.wall polls).2

end Emulator

namespace Trial

/-- **A node that holds receipts back** for three polls. -/
def holdingNode : Emulator :=
  ⟨{ consensusPolls := some 3 }, ledger, false, 0⟩

/-- **What is done to the node** after the deletion was submitted: nothing that touches its receipt. -/
def meanwhile : List Operation :=
  [.ask ⟨.answer, .accountBalance (.simple 2)⟩, .setBalance (.simple 5) 7]

/-- **The node after that.** -/
def holdingNodeLater : Emulator :=
  letI := scheme
  { holdingNode with
    ledger := (holdingNode.ledger.submit holdingNode.config signedDeletion ⟨1001, 0⟩).2.run
      holdingNode.config meanwhile }

/-- **A connection to the node**, with the timer of milliseconds. -/
def holdingConnection : Connection Emulator where
  channel := letI := scheme; Emulator.channel id fun _ e => e

/-- **The state of a client** that has been running for five milliseconds. -/
def holdingState : ClientState Emulator where
  wall := ⟨1002, 0⟩
  now := 5 * nanosPerMilli
  world := holdingNodeLater

end Trial

open Trial in
set_option maxRecDepth 10000 in
/-- The receipt of the deletion is found at the fourth poll, seven seconds after the first. -/
theorem Emulator.resolve_accepted_deletion :
    letI := scheme
    (holdingNode.ledger.submit holdingNode.config signedDeletion ⟨1001, 0⟩).1 = .ok
      ∧ signedDeletion.body = .ok deletion
      ∧ (∀ op ∈ meanwhile, op.Spares deletion.id)
      ∧ holdingConnection.timer.Keeps {} holdingState.now
      ∧ BackoffPolicy.pollTime {} 4 = 7 * nanosPerSecond
      ∧ Connection.Ends holdingConnection {} deletion.id holdingState 4 (.success ⟨.success, none⟩)
      ∧ ((holdingConnection.resolve (.start deletion.id {})).run holdingState).2.world.requests = 4 := by
  let := scheme
  have haccepted : (holdingNode.ledger.submit holdingNode.config signedDeletion ⟨1001, 0⟩).1 = .ok := by
    decide +kernel
  have hbody : signedDeletion.body = .ok deletion := by decide +kernel
  have hops : ∀ op ∈ meanwhile, op.Spares deletion.id := by
    intro op hop
    simp only [meanwhile, List.mem_cons, List.not_mem_nil, or_false] at hop
    rcases hop with rfl | rfl
    · simp [Operation.Spares]
    · trivial
  have htimer : holdingConnection.timer.Keeps {} holdingState.now :=
    Timer.milliseconds_keeps ⟨by decide, by decide, by decide⟩ (by decide) (by decide) (by decide)
  have htime : BackoffPolicy.pollTime {} 4 = 7 * nanosPerSecond := by decide +kernel
  have hallows : ∀ k, 1 ≤ k → k ≤ 3 → BackoffPolicy.Allows {} k := by
    intro k hone hk
    have hcases : k = 1 ∨ k = 2 ∨ k = 3 := by omega
    rcases hcases with rfl | rfl | rfl <;> decide +kernel
  obtain ⟨r, hr, -, -, hends⟩ := Emulator.resolve_accepted id (fun _ e => e) (fun _ _ => rfl)
    haccepted hbody hops (c := holdingConnection) (s := holdingState) rfl rfl rfl rfl htimer
  have hreceipt : r.record.receipt = ⟨.success, none⟩ := by
    have hkept : ((holdingNode.ledger.submit holdingNode.config signedDeletion ⟨1001, 0⟩).2.receipts.get?
        deletion.id).map (·.record.receipt) = some ⟨.success, none⟩ := by decide +kernel
    rw [hr] at hkept
    exact Option.some.inj hkept
  rw [hreceipt] at hends
  obtain ⟨hend, hrequests⟩ := hends 4 (.success ⟨.success, none⟩) (.revealed rfl hallows)
  exact ⟨haccepted, hbody, hops, htimer, htime, hend, hrequests⟩

end ShardLedger
