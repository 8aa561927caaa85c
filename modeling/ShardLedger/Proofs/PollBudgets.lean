import ShardLedger.Proofs.Resolution
import Mathlib.Data.List.Chain
/-
What a resolution costs, whatever the node does.

The loop of a resolution has no bound of its own.  It ends because every poll that finds nothing is held
against two budgets, the polls made so far and the time since the first of them, and the round trips
count towards the second as much as the waits do.  Below, a resolution is told poll by poll, first without
any bound; then every poll of it is shown to keep within the budgets, so that it has a last one.

Of the node nothing is assumed: it may answer anything, late, or not at all.  Of the timer it is assumed
that a pause takes as long as it is asked to and that no request outlasts its deadline.
-/

set_option autoImplicit false

namespace ShardLedger

variable {σ : Type}

/-! ## 1. Polls that were made -/

/-- **A poll that was made.** -/
structure Poll where
  /-- Which poll it is, counted from one. -/
  number : Nat
  /-- When it was sent. -/
  sent : Instant
  /-- When its request ended. -/
  ended : Instant
  /-- What its request ended with. -/
  reply : Except ClientError Response

namespace Poll

/-- **What a poll tells** about a transaction. -/
def finding (p : Poll) (id : TransactionId) : Except ClientError Finding :=
  (p.reply.bind (Question.transactionReceipt id).check).bind findingOf

/-- **One poll follows another**, which was the `number`-th to find nothing: it is sent after the wait that
the policy asks for, cut to the time that is left. -/
structure Follows (policy : BackoffPolicy) (id : TransactionId) (start : Instant) (p q : Poll) : Prop
    where
  pending : p.finding id = .ok .pending
  number : q.number = p.number + 1
  sent : q.sent = p.ended
    + min (policy.delayFor (UInt32.ofNat p.number)).total (policy.maxElapsed.total - (p.ended - start))

/-- **A poll keeps within the budgets**: it is not one too many and not sent too late, and its request
does not outlast the deadline. -/
structure Timely (policy : BackoffPolicy) (timeout : Duration) (start : Instant) (p : Poll) : Prop where
  number_le : p.number ≤ max 1 policy.maxPolls.toNat
  sent_le : p.sent ≤ start + policy.maxElapsed.total
  sent_le_ended : p.sent ≤ p.ended
  ended_le : p.ended ≤ p.sent + timeout.total

/-- **What a resolution ends with** if it ends with this poll: with what the poll tells, and if it tells
nothing, with the outcome left open because a budget is spent. -/
inductive Closes (policy : BackoffPolicy) (id : TransactionId) (start : Instant) (p : Poll) :
    Except ClientError Outcome → Prop
  | failed {e : ClientError} (tells : p.finding id = .error e) : Closes policy id start p (.error e)
  | told {o : Outcome} (tells : p.finding id = .ok (.final o)) : Closes policy id start p (.ok o)
  | spent (tells : p.finding id = .ok .pending)
    (spent : policy.maxPolls.toNat ≤ p.number ∨ policy.maxElapsed.total ≤ p.ended - start) :
    Closes policy id start p (.ok (.unresolved p.number (p.ended - start)))

end Poll

/-- No response tells that the outcome is left open. -/
theorem findingOf_ne_unresolved (r : QueryResponse) (polls elapsed : Nat) :
    findingOf r ≠ .ok (.final (.unresolved polls elapsed)) := by
  intro h
  unfold findingOf at h
  split at h
  · cases h
  · split at h
    · cases h
    · split at h
      · split at h
        · cases h
        · split at h <;> cases h
      · cases h

/-- An outcome is left open only after a poll that tells nothing, when a budget is spent. -/
theorem Poll.Closes.of_unresolved {policy : BackoffPolicy} {id : TransactionId} {start : Instant}
    {p : Poll} {polls elapsed : Nat} (h : p.Closes policy id start (.ok (.unresolved polls elapsed))) :
    p.finding id = .ok .pending ∧ polls = p.number ∧ elapsed = p.ended - start
      ∧ (policy.maxPolls.toNat ≤ polls ∨ policy.maxElapsed.total ≤ elapsed) := by
  cases h with
  | told tells =>
    unfold Poll.finding at tells
    cases hchecked : p.reply.bind (Question.transactionReceipt id).check with
    | error e =>
      rw [hchecked] at tells
      cases tells
    | ok r =>
      rw [hchecked] at tells
      exact absurd tells (findingOf_ne_unresolved r polls elapsed)
  | spent tells spent => exact ⟨tells, rfl, rfl, spent⟩

/-! ## 2. Resolutions, poll by poll -/

namespace Connection

variable {c : Connection σ}

/-- **The poll that is due**, as it is made. -/
def pollMade (c : Connection σ) (r : Resolver) (s : ClientState σ) : Poll where
  number := r.polls + 1
  sent := s.now
  ended := ((c.call (receiptPoll r.id)).run s).2.now
  reply := ((c.call (receiptPoll r.id)).run s).1

/-- **The client after the wait** before the next poll. -/
def paused (c : Connection σ) (r : Resolver) (s : ClientState σ) : ClientState σ :=
  s.waitUntil (c.timer.pauseEnd s.now (r.delay s.now))

/-- **A resolution, poll by poll**: a poll that ends it, or one that does not, a wait, and all the
rest.  Nothing here bounds the polls. -/
inductive Resolves (c : Connection σ) :
    Resolver → ClientState σ → List Poll → Except ClientError Outcome → ClientState σ → Prop
  | failed {r r' : Resolver} {s s' : ClientState σ} {e : ClientError}
    (poll : (c.poll r).run s = ((.error e, r'), s')) :
    Resolves c r s [c.pollMade r s] (.error e) s'
  | resolved {r r' : Resolver} {s s' : ClientState σ} {o : Outcome}
    (poll : (c.poll r).run s = ((.ok (some o), r'), s')) :
    Resolves c r s [c.pollMade r s] (.ok o) s'
  | again {r r' : Resolver} {s s' s'' : ClientState σ} {polls : List Poll}
    {result : Except ClientError Outcome} (poll : (c.poll r).run s = ((.ok none, r'), s'))
    (rest : Resolves c r' (c.paused r' s') polls result s'') :
    Resolves c r s (c.pollMade r s :: polls) result s''

/-- A poll that fails ends the resolution. -/
theorem run_resolveWithin_of_error {r r' : Resolver} {s s' : ClientState σ} {e : ClientError}
    (hpoll : (c.poll r).run s = ((.error e, r'), s')) (left : Nat) :
    (c.resolveWithin left r).run s = (.error e, s') := by
  unfold resolveWithin
  rw [StateT.run_bind, hpoll]
  rfl

/-- A resolution has a poll. -/
theorem Resolves.length_pos {r : Resolver} {s s' : ClientState σ} {polls : List Poll}
    {result : Except ClientError Outcome} (h : c.Resolves r s polls result s') : 0 < polls.length := by
  cases h <;> exact Nat.zero_lt_succ _

/-- A resolution that is told poll by poll runs as told, if as many polls are left to it.  The induction
is on the polls. -/
theorem Resolves.run {r : Resolver} {s s' : ClientState σ} {polls : List Poll}
    {result : Except ClientError Outcome} (h : c.Resolves r s polls result s') {left : Nat}
    (hleft : polls.length ≤ left + 1) : (c.resolveWithin left r).run s = (result, s') := by
  induction h generalizing left with
  | failed poll => exact run_resolveWithin_of_error poll left
  | resolved poll => exact run_resolveWithin_of_some poll left
  | again poll rest ih =>
    -- The rest has a poll of its own, so one is left beyond the one that was made.
    have hrest := rest.length_pos
    rw [List.length_cons] at hleft
    obtain ⟨left, rfl⟩ : ∃ n, left = n + 1 := ⟨left - 1, by omega⟩
    rw [run_resolveWithin_of_none poll]
    exact ih (Nat.le_of_succ_le_succ hleft)

end Connection

/-! ## 3. One poll -/

/-- **A timer is punctual**: a pause takes as long as it is asked to, and a request ends at its deadline at
the latest. -/
structure Timer.Punctual (t : Timer) (timeout : Duration) : Prop where
  pauseEnd : ∀ now d, t.pauseEnd now d = now + d.total
  deadline_le : ∀ now, t.deadline now timeout ≤ now + timeout.total

/-- The exact timer is punctual. -/
theorem Timer.exact_punctual (timeout : Duration) : exact.Punctual timeout where
  pauseEnd _ _ := rfl
  deadline_le _ := Nat.le_refl _

namespace Connection

variable {c : Connection σ} {s : ClientState σ} {id : TransactionId} {policy : BackoffPolicy}
  {start : Instant} {k : Nat}

/-- What a request waits for is there at its deadline at the latest. -/
theorem due_le_deadline (c : Connection σ) (now : Instant) (d : Delivery) :
    ∀ t ∈ (c.pendingOf now d).due, t ≤ c.timer.deadline now c.requestTimeout := by
  intro t ht
  cases d with
  | never =>
    obtain rfl := Option.some.inj ht
    exact Nat.le_refl _
  | atOnce reply => cases ht
  | after delay reply =>
    unfold pendingOf at ht
    simp only at ht
    split at ht
    · rename_i hle
      obtain rfl := Option.some.inj ht
      exact hle
    · obtain rfl := Option.some.inj ht
      exact Nat.le_refl _

/-- When the wait for a request ends. -/
theorem now_await (p : Pending) (s : ClientState σ) :
    ((await p).run s).2.now = max s.now (p.due.getD s.now) := by
  obtain ⟨due, result⟩ := p
  cases due with
  | none => cases result <;> exact (Nat.max_self _).symm
  | some t => cases result <;> exact s.now_waitUntil t

/-- **A round trip takes no time back, and no longer than its deadline.** -/
theorem now_call (h : c.timer.Punctual c.requestTimeout) (request : Request) (s : ClientState σ) :
    s.now ≤ ((c.call request).run s).2.now
      ∧ ((c.call request).run s).2.now ≤ s.now + c.requestTimeout.total := by
  rw [run_call]
  by_cases hclosed : s.closed
  · rw [if_pos hclosed]
    exact ⟨Nat.le_refl _, Nat.le_add_right _ _⟩
  · rw [if_neg hclosed, now_await]
    refine ⟨Nat.le_max_left _ _, Nat.max_le.mpr ⟨Nat.le_add_right _ _, ?_⟩⟩
    cases hdue : (c.pendingOf s.now (c.channel.call s.wall request s.world).1).due with
    | none => exact Nat.le_add_right _ _
    | some t => exact Nat.le_trans (c.due_le_deadline _ _ t hdue) (h.deadline_le _)

/-- **A poll is due**: so many polls found nothing since the start, and both budgets allow another. -/
structure Due (policy : BackoffPolicy) (start : Instant) (k : Nat) (s : ClientState σ) : Prop where
  first : k = 0 → s.now = start
  started : start ≤ s.now
  inTime : s.now ≤ start + policy.maxElapsed.total
  allowed : k < max 1 policy.maxPolls.toNat

/-- **The poll that is due** to a resolver whose polls found nothing. -/
def duePoll (c : Connection σ) (id : TransactionId) (policy : BackoffPolicy) (start : Instant) (k : Nat)
    (s : ClientState σ) : Poll :=
  c.pollMade (.waiting id policy start k) s

/-- **The client after that poll.** -/
def afterPoll (c : Connection σ) (id : TransactionId) (s : ClientState σ) : ClientState σ :=
  ((c.call (receiptPoll id)).run s).2

/-- What a poll is that is due. -/
theorem duePoll_eq (s : ClientState σ) :
    c.duePoll id policy start k s
      = ⟨k + 1, s.now, (c.afterPoll id s).now, ((c.call (receiptPoll id)).run s).1⟩ := by
  cases k <;> rfl

/-- The poll that is due keeps within the budgets. -/
theorem Due.timely (h : Due policy start k s) (hpunctual : c.timer.Punctual c.requestTimeout) :
    (c.duePoll id policy start k s).Timely policy c.requestTimeout start := by
  obtain ⟨hback, hlate⟩ := now_call hpunctual (receiptPoll id) s
  rw [duePoll_eq]
  exact ⟨h.allowed, h.inTime, hback, hlate⟩

/-- The poll that is due is taken in as it tells. -/
theorem Due.run_poll (h : Due policy start k s) :
    (c.poll (.waiting id policy start k)).run s
      = (match (c.duePoll id policy start k s).finding id with
        | .error e => (.error e, ⟨id, policy, .polling (k + 1), k + 1, k, some start⟩)
        | .ok finding =>
          ((.ok (Resolver.settle ⟨id, policy, .polling (k + 1), k + 1, k, some start⟩
              (c.afterPoll id s).now finding).outcome?,
            Resolver.settle ⟨id, policy, .polling (k + 1), k + 1, k, some start⟩
              (c.afterPoll id s).now finding)),
        c.afterPoll id s) := by
  have hid : (Resolver.waiting id policy start k).id = id := by
    cases k <;> rfl
  rw [Connection.run_poll (Resolver.outcome?_waiting k), Resolver.beginPoll_waiting h.first, hid,
    duePoll_eq]
  rfl

/-- A wait that is cut to the time left does not outlast it. -/
theorem le_of_wait {start now limit : Nat} (hstarted : start ≤ now) (hleft : now - start < limit)
    (wait : Nat) : now + min wait (limit - (now - start)) ≤ start + limit := by
  omega

/-- **A poll that finds nothing and spends no budget** is followed by a wait, after which the next poll is
due. -/
theorem Due.next (h : Due policy start k s) (hpunctual : c.timer.Punctual c.requestTimeout)
    (htells : (c.duePoll id policy start k s).finding id = .ok .pending)
    (hpolls : k + 1 < policy.maxPolls.toNat)
    (helapsed : (c.afterPoll id s).now - start < policy.maxElapsed.total) :
    Due policy start (k + 1) (c.paused (.waiting id policy start (k + 1)) (c.afterPoll id s))
      ∧ (c.duePoll id policy start k s).Follows policy id start
          (c.duePoll id policy start (k + 1)
            (c.paused (.waiting id policy start (k + 1)) (c.afterPoll id s))) := by
  have hstarted : start ≤ (c.afterPoll id s).now :=
    Nat.le_trans h.started (now_call hpunctual (receiptPoll id) s).1
  have hnow : start + ((c.afterPoll id s).now - start) = (c.afterPoll id s).now :=
    Nat.add_sub_cancel' hstarted
  -- The wait is what the policy asks for, and no longer than the time that is left.
  have hpaused : (c.paused (.waiting id policy start (k + 1)) (c.afterPoll id s)).now
      = (c.afterPoll id s).now + min (policy.delayFor (UInt32.ofNat (k + 1))).total
          (policy.maxElapsed.total - ((c.afterPoll id s).now - start)) := by
    have hdelay : (Resolver.waiting id policy start (k + 1)).delay
        (start + ((c.afterPoll id s).now - start))
        = policy.pause (k + 1) ((c.afterPoll id s).now - start) := Resolver.delay_waiting k _
    rw [hnow] at hdelay
    rw [paused, ClientState.now_waitUntil, hpunctual.pauseEnd, hdelay, BackoffPolicy.pause,
      Duration.total_min]
    exact Nat.max_eq_right (Nat.le_add_right _ _)
  constructor
  · refine ⟨fun h => absurd h (Nat.succ_ne_zero k), ?_, ?_,
      Nat.lt_of_lt_of_le hpolls (Nat.le_max_right _ _)⟩
    · rw [hpaused]
      exact Nat.le_trans hstarted (Nat.le_add_right _ _)
    · rw [hpaused]
      exact le_of_wait hstarted helapsed _
  · rw [duePoll_eq] at htells ⊢
    rw [duePoll_eq]
    exact ⟨htells, rfl, hpaused⟩

/-! ## 4. All polls -/

/-- **How a resolution keeps within its budgets** from a poll on that is due: that poll comes first, each
poll follows the one before it, all of them are timely, and the last one ends it. -/
structure Orderly (c : Connection σ) (policy : BackoffPolicy) (id : TransactionId) (start : Instant)
    (first last : Poll) (polls : List Poll) (result : Except ClientError Outcome)
    (s' : ClientState σ) : Prop where
  head : polls.head? = some first
  follows : polls.IsChain (Poll.Follows policy id start)
  timely : ∀ p ∈ polls, p.Timely policy c.requestTimeout start
  isLast : polls.getLast? = some last
  closes : last.Closes policy id start result
  now : s'.now = last.ended

/-- A poll that ends the resolution. -/
theorem Orderly.single {p : Poll} {result : Except ClientError Outcome} {s' : ClientState σ}
    (htimely : p.Timely policy c.requestTimeout start) (hcloses : p.Closes policy id start result)
    (hnow : s'.now = p.ended) : Orderly c policy id start p p [p] result s' where
  head := rfl
  follows := .singleton p
  timely q hq := by
    obtain rfl := List.mem_singleton.mp hq
    exact htimely
  isLast := rfl
  closes := hcloses
  now := hnow

/-- A poll, and a resolution that follows it. -/
theorem Orderly.cons {p first last : Poll} {polls : List Poll} {result : Except ClientError Outcome}
    {s' : ClientState σ} (h : Orderly c policy id start first last polls result s')
    (htimely : p.Timely policy c.requestTimeout start) (hfollows : p.Follows policy id start first) :
    Orderly c policy id start p last (p :: polls) result s' := by
  obtain ⟨q, rest, rfl⟩ : ∃ q rest, polls = q :: rest := by
    cases polls with
    | nil => cases h.head
    | cons q rest => exact ⟨q, rest, rfl⟩
  obtain rfl : q = first := Option.some.inj h.head
  refine ⟨rfl, .cons_cons hfollows h.follows, ?_, ?_, h.closes, h.now⟩
  · intro x hx
    rcases List.mem_cons.mp hx with rfl | hx
    · exact htimely
    · exact h.timely x hx
  · rw [List.getLast?_cons_cons]
    exact h.isLast

/-- In a chain of polls the last one has the number of all. -/
theorem number_last {first last : Poll} {polls : List Poll}
    (hchain : polls.IsChain (Poll.Follows policy id start)) (hhead : polls.head? = some first)
    (hlast : polls.getLast? = some last) : last.number + 1 = first.number + polls.length := by
  induction polls generalizing first with
  | nil => cases hhead
  | cons p polls ih =>
    obtain rfl : p = first := Option.some.inj hhead
    cases polls with
    | nil =>
      obtain rfl : p = last := Option.some.inj hlast
      rfl
    | cons q rest =>
      obtain ⟨hfollows, hrest⟩ := List.isChain_cons_cons.mp hchain
      rw [List.getLast?_cons_cons] at hlast
      have hrec := ih hrest rfl hlast
      have hnumber := hfollows.number
      rw [List.length_cons]
      omega

/-- **What a poll that is due leads to**: it ends the resolution, or it tells nothing and after a wait the
next poll is due. -/
theorem Due.poll_cases (h : Due policy start k s) (hpunctual : c.timer.Punctual c.requestTimeout)
    (id : TransactionId) :
    (∃ result, c.Resolves (.waiting id policy start k) s [c.duePoll id policy start k s] result
          (c.afterPoll id s)
        ∧ (c.duePoll id policy start k s).Closes policy id start result)
      ∨ (k + 1 < policy.maxPolls.toNat
        ∧ (c.poll (.waiting id policy start k)).run s
          = ((.ok none, .waiting id policy start (k + 1)), c.afterPoll id s)
        ∧ Due policy start (k + 1) (c.paused (.waiting id policy start (k + 1)) (c.afterPoll id s))
        ∧ (c.duePoll id policy start k s).Follows policy id start
            (c.duePoll id policy start (k + 1)
              (c.paused (.waiting id policy start (k + 1)) (c.afterPoll id s)))) := by
  have hrun : (c.poll (.waiting id policy start k)).run s = _ := h.run_poll
  have hended : (c.duePoll id policy start k s).ended = (c.afterPoll id s).now := by rw [duePoll_eq]
  have hnumber : (c.duePoll id policy start k s).number = k + 1 := by rw [duePoll_eq]
  cases htells : (c.duePoll id policy start k s).finding id with
  | error e =>
    rw [htells] at hrun
    exact .inl ⟨.error e, .failed hrun, .failed htells⟩
  | ok finding =>
    rw [htells] at hrun
    cases finding with
    | final o => exact .inl ⟨.ok o, .resolved hrun, .told htells⟩
    | pending =>
      have hstarted : start ≤ (c.afterPoll id s).now :=
        Nat.le_trans h.started (now_call hpunctual (receiptPoll id) s).1
      have hsettle : Resolver.settle ⟨id, policy, .polling (k + 1), k + 1, k, some start⟩ _ .pending = _ :=
        Resolver.settle_pending_at k ((c.afterPoll id s).now - start)
      rw [Nat.add_sub_cancel' hstarted] at hsettle
      simp only [hsettle] at hrun
      by_cases hallows : k + 1 < policy.maxPolls.toNat
          ∧ (c.afterPoll id s).now - start < policy.maxElapsed.total
      · rw [if_pos hallows, Resolver.outcome?_waiting] at hrun
        obtain ⟨hdue, hfollows⟩ := h.next hpunctual htells hallows.1 hallows.2
        exact .inr ⟨hallows.1, hrun, hdue, hfollows⟩
      · rw [if_neg hallows] at hrun
        have hspent : policy.maxPolls.toNat ≤ (c.duePoll id policy start k s).number
            ∨ policy.maxElapsed.total ≤ (c.duePoll id policy start k s).ended - start := by
          rw [hnumber, hended]
          rcases not_and_or.mp hallows with hpolls | helapsed
          · exact .inl (Nat.le_of_not_lt hpolls)
          · exact .inr (Nat.le_of_not_lt helapsed)
        have hcloses := Poll.Closes.spent htells hspent
        rw [hnumber, hended] at hcloses
        exact .inl ⟨_, .resolved hrun, hcloses⟩

/-- **From a poll on that is due, a resolution ends**, within its budgets.  The induction is on the polls
that are left: a poll that neither ends the resolution nor spends the budget of polls leaves one less. -/
theorem Due.exists_resolves (hpunctual : c.timer.Punctual c.requestTimeout) (id : TransactionId)
    (left : Nat) (h : Due policy start k s) (hleft : policy.maxPolls.toNat ≤ k + 1 + left) :
    ∃ polls last result s', c.Resolves (.waiting id policy start k) s polls result s'
      ∧ Orderly c policy id start (c.duePoll id policy start k s) last polls result s' := by
  induction left generalizing k s with
  | zero =>
    rcases h.poll_cases hpunctual id with ⟨result, hresolves, hcloses⟩ | ⟨hpolls, -⟩
    · exact ⟨_, _, result, _, hresolves, .single (h.timely hpunctual) hcloses (by rw [duePoll_eq])⟩
    · exact absurd hpolls (Nat.not_lt.mpr hleft)
  | succ left ih =>
    rcases h.poll_cases hpunctual id with ⟨result, hresolves, hcloses⟩ | ⟨-, hrun, hdue, hfollows⟩
    · exact ⟨_, _, result, _, hresolves, .single (h.timely hpunctual) hcloses (by rw [duePoll_eq])⟩
    · obtain ⟨polls, last, result, s', hrest, horderly⟩ := ih hdue (by omega)
      exact ⟨_, last, result, s', .again hrun hrest, horderly.cons (h.timely hpunctual) hfollows⟩

/-! ## 5. A whole resolution -/

/-- **A resolution keeps its budgets**: told poll by poll it runs as it does, and so it ends; its polls
follow each other as the policy says, and are neither too many nor too late; and the last one ends it. -/
structure KeepsBudgets (c : Connection σ) (policy : BackoffPolicy) (id : TransactionId)
    (s : ClientState σ) (polls : List Poll) (last : Poll) : Prop where
  /-- The polls are those that the resolution makes. -/
  resolves : c.Resolves (.start id policy) s polls ((c.resolve (.start id policy)).run s).1
    ((c.resolve (.start id policy)).run s).2
  /-- The first poll is made at once. -/
  first : ∃ p, polls.head? = some p ∧ p.number = 1 ∧ p.sent = s.now
  /-- There are no more polls than the policy allows, and one in any case. -/
  length_le : polls.length ≤ max 1 policy.maxPolls.toNat
  /-- No poll is sent past the time budget, and no request outlasts its deadline. -/
  timely : ∀ p ∈ polls, p.Timely policy c.requestTimeout s.now
  /-- Every poll but the last found nothing, and was followed by the wait of the policy. -/
  follows : polls.IsChain (Poll.Follows policy id s.now)
  isLast : polls.getLast? = some last
  number_last : last.number = polls.length
  /-- The result is what the last poll comes to, as soon as it does. -/
  closes : last.Closes policy id s.now ((c.resolve (.start id policy)).run s).1
  now : ((c.resolve (.start id policy)).run s).2.now = last.ended
  now_le : ((c.resolve (.start id policy)).run s).2.now
    ≤ s.now + policy.maxElapsed.total + c.requestTimeout.total
  /-- The outcome is left open only after a poll that found nothing, when a budget is spent. -/
  unresolved : ∀ n elapsed, ((c.resolve (.start id policy)).run s).1 = .ok (.unresolved n elapsed) →
    last.finding id = .ok .pending ∧ n = polls.length ∧ elapsed = last.ended - s.now
      ∧ (policy.maxPolls.toNat ≤ n ∨ policy.maxElapsed.total ≤ elapsed)

/-- **Every resolution keeps its budgets**, whatever the policy is, whatever the node replies and however
long it takes: if the timer is punctual, a resolution ends after a last poll, and up to it every poll is
within the budgets.

The work is in `Due.exists_resolves`, by induction on the polls that are left, each of which is followed by
`Due.poll_cases`. -/
theorem resolve_keeps_budgets (c : Connection σ) (hpunctual : c.timer.Punctual c.requestTimeout)
    (policy : BackoffPolicy) (id : TransactionId) (s : ClientState σ) :
    ∃ polls last, KeepsBudgets c policy id s polls last := by
  have hdue : Due policy s.now 0 s :=
    ⟨fun _ => rfl, Nat.le_refl _, Nat.le_add_right _ _, Nat.lt_of_lt_of_le Nat.zero_lt_one (Nat.le_max_left _ _)⟩
  obtain ⟨polls, last, result, s', hresolves, horderly⟩ :=
    hdue.exists_resolves hpunctual id policy.maxPolls.toNat (by omega)
  obtain ⟨hhead, hfollows, htimely, hlast, hcloses, hnow⟩ := horderly
  have hnumber : last.number = polls.length := by
    have hcount := number_last hfollows hhead hlast
    rw [duePoll_eq] at hcount
    simp only at hcount
    omega
  have hlastTimely := htimely last (List.mem_of_getLast? hlast)
  have hlength : polls.length ≤ max 1 policy.maxPolls.toNat := hnumber ▸ hlastTimely.number_le
  -- The polls that are left to the resolution at its start are enough for all that it makes.
  have hrun : (c.resolve (.start id policy)).run s = (result, s') := by
    refine hresolves.run ?_
    have hstart : (Resolver.start id policy).policy.maxPolls.toNat - (Resolver.start id policy).polls
        = policy.maxPolls.toNat := rfl
    rw [hstart]
    omega
  refine ⟨polls, last, ?_⟩
  constructor
  · rw [hrun]
    exact hresolves
  · exact ⟨_, hhead, by rw [duePoll_eq], by rw [duePoll_eq]⟩
  · exact hlength
  · exact htimely
  · exact hfollows
  · exact hlast
  · exact hnumber
  · rw [hrun]
    exact hcloses
  · rw [hrun]
    exact hnow
  · rw [hrun, hnow]
    exact Nat.le_trans hlastTimely.ended_le (Nat.add_le_add_right hlastTimely.sent_le _)
  · intro n elapsed hopen
    rw [hrun] at hopen
    obtain rfl : result = .ok (.unresolved n elapsed) := hopen
    obtain ⟨htells, hn, helapsed, hspent⟩ := hcloses.of_unresolved
    exact ⟨htells, hn.trans hnumber, helapsed, hspent⟩

end Connection

namespace Trial

/-- **A connection to a node that never knows**, and takes three seconds to say so. -/
def slowConnection : Connection Unit where
  channel :=
    { address := "slow"
      call := fun _ _ _ => (.after (.ofSeconds 3) (.ok (shown .pending)), ())
      close := id }
  timer := .exact

/-- **A policy** with a time budget that ends in the middle of a wait. -/
def hastyPolicy : BackoffPolicy where
  maxElapsed := .ofSeconds 8

end Trial

open Trial in
set_option maxRecDepth 10000 in
/-- The third poll is sent when the time budget ends, one second early for its wait, and is the last. -/
theorem Connection.resolve_keeps_budgets_slow :
    let s : ClientState Unit := ⟨⟨1002, 0⟩, 5, turnAllowance, .fresh, false, ()⟩
    slowConnection.timer.Punctual slowConnection.requestTimeout
      ∧ ∃ polls last, slowConnection.KeepsBudgets hastyPolicy deletion.id s polls last
        ∧ polls.length = 3 ∧ last.ended - 5 = 11 * nanosPerSecond := by
  intro s
  have hpunctual : slowConnection.timer.Punctual slowConnection.requestTimeout :=
    Timer.exact_punctual _
  obtain ⟨polls, last, hkeeps⟩ :=
    Connection.resolve_keeps_budgets slowConnection hpunctual hastyPolicy deletion.id s
  have houtcome : ((slowConnection.resolve (.start deletion.id hastyPolicy)).run s).1.toOption
      = some (.unresolved 3 (11 * nanosPerSecond)) := by decide +kernel
  have hrun : ((slowConnection.resolve (.start deletion.id hastyPolicy)).run s).1
      = .ok (.unresolved 3 (11 * nanosPerSecond)) := by
    cases hresult : ((slowConnection.resolve (.start deletion.id hastyPolicy)).run s).1 with
    | error e =>
      rw [hresult] at houtcome
      cases houtcome
    | ok o =>
      rw [hresult] at houtcome
      exact congrArg Except.ok (Option.some.inj houtcome)
  obtain ⟨-, hpolls, helapsed, -⟩ := hkeeps.unresolved _ _ hrun
  exact ⟨hpunctual, polls, last, hkeeps, hpolls.symm, helapsed.symm⟩

end ShardLedger
