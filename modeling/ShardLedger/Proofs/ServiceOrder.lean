import ShardLedger.Client.Schedule
import ShardLedger.Proofs.ResolverStates
import Mathlib.Algebra.Order.BigOperators.Group.List
import Mathlib.Algebra.Order.Group.Nat
import Mathlib.Logic.Relation
/-
Who goes on first, when several resolvers wait.

A company has an order in which its tasks go on, and the order depends on its size.  Here the order is taken
out: a company makes moves, and a move is a step of any task that can take one.  Only when none can, a new
turn begins; then the clock goes on to the next instant that someone waits for, unless the turn has run out of
waits that may end.

However the moves are chosen they come to an end, since every step uses up a little of what its task can still
do, and two turns never follow each other for nothing.  Where no move is left all tasks have ended.  What a
company does in its own order is a choice of moves, and the turns that it is granted are enough for it.
-/

set_option autoImplicit false

namespace ShardLedger

variable {σ : Type}

/-- A new turn allows waits to end. -/
theorem ClientState.allowance_newTurn (s : ClientState σ) (t : Instant) : 0 < (s.newTurn t).allowance := by
  show 0 < turnAllowance
  decide

/-! ## 1. Steps of a task -/

namespace Resolver

/-- **The polls that a resolver is left with.** -/
def pollsLeft (r : Resolver) : Nat :=
  r.policy.maxPolls.toNat - r.polls

/-- **A poll that leaves a resolver waiting** has left polls in the budget. -/
theorem endPoll_none {r r' : Resolver} {now : Instant} {result : Except ClientError Response}
    (h : r.endPoll now result = (.ok none, r')) :
    r'.id = r.id ∧ r'.policy = r.policy ∧ r'.polls = r.polls ∧ r.polls < r.policy.maxPolls.toNat := by
  unfold endPoll at h
  split at h
  · cases h
  · rename_i finding hfinding
    obtain ⟨houtcome, rfl⟩ := Prod.mk.inj h
    cases finding with
    | final o => cases houtcome
    | pending =>
      -- A budget that is spent would be an outcome.
      by_cases hbudget : r.hasBudget now = true
      · rw [settle_of_hasBudget hbudget]
        exact ⟨rfl, rfl, rfl, (hasBudget_iff.mp hbudget).1⟩
      · rw [settle_of_not_hasBudget (Bool.eq_false_iff.mpr hbudget)] at houtcome
        cases houtcome

end Resolver

namespace Task

/-- **A task is about to poll.** -/
def isReady (t : Task) : Bool :=
  match t.stage with
  | .ready => true
  | _ => false

/-- **What a task can still do**, at the most: a bound on its steps that every step lowers.  A poll that is
under way counts for no more than the polls that its resolver is left with after it. -/
def rank (t : Task) : Nat :=
  match t.stage with
  | .ready => 3 * t.resolver.pollsLeft + 2
  | .polling _ _ => if t.resolver.pollsLeft = 0 then 1 else 3 * t.resolver.pollsLeft + 4
  | .resting _ => 3 * t.resolver.pollsLeft + 3
  | .ended _ => 0

variable {c : Connection σ} {t t' : Task} {s s' : ClientState σ} {r : Resolver}

theorem rank_ready : rank ⟨r, .ready⟩ = 3 * r.pollsLeft + 2 := rfl

theorem rank_polling {due : Instant} {result : Except ClientError Response} :
    rank ⟨r, .polling due result⟩ = if r.pollsLeft = 0 then 1 else 3 * r.pollsLeft + 4 := rfl

theorem rank_resting {till : Instant} : rank ⟨r, .resting till⟩ = 3 * r.pollsLeft + 3 := rfl

theorem rank_ended {result : Except ClientError Outcome} : rank ⟨r, .ended result⟩ = 0 := rfl

/-- The bound that a company grants a task is enough. -/
theorem rank_le_steps (t : Task) : t.rank ≤ t.steps := by
  obtain ⟨r, stage⟩ := t
  have hsteps : steps ⟨r, stage⟩ = 3 * r.pollsLeft + 4 := rfl
  rw [hsteps]
  cases stage with
  | ready =>
    rw [rank_ready]
    omega
  | polling due result =>
    rw [rank_polling]
    split <;> omega
  | resting till =>
    rw [rank_resting]
    omega
  | ended result => exact Nat.zero_le _

/-- A task can do nothing more exactly if it has ended. -/
theorem rank_eq_zero_iff : t.rank = 0 ↔ t.result?.isSome = true := by
  obtain ⟨r, stage⟩ := t
  cases stage with
  | ready => simp [rank_ready, result?]
  | polling due result =>
    rw [rank_polling]
    split <;> simp [result?]
  | resting till => simp [rank_resting, result?]
  | ended result => simp [rank_ended, result?]

/-- A task waits for an instant unless it has ended. -/
theorem wakeAt_eq_none_iff : t.wakeAt = none ↔ t.result?.isSome = true := by
  unfold wakeAt result?
  cases t.stage <;> simp

/-- A wait cannot end in a turn if its instant has not come or the turn does not allow it. -/
theorem endWait?_eq_none_iff {till : Instant} :
    s.endWait? till = none ↔ s.now < till ∨ s.allowance = 0 := by
  unfold ClientState.endWait?
  by_cases h : till ≤ s.now ∧ 0 < s.allowance
  · rw [if_pos h]
    simp [Nat.not_lt.mpr h.1, Nat.ne_of_gt h.2]
  · rw [if_neg h]
    rcases not_and_or.mp h with hlate | hspent
    · simp [Nat.not_le.mp hlate]
    · simp [Nat.eq_zero_of_not_pos hspent]

/-- **A step that a task can take**, and how it leaves the client: the outcome is known already, a poll is
begun, a poll is concluded, or a wait is over. -/
inductive Steps (c : Connection σ) : Task → ClientState σ → Task → ClientState σ → Prop
  | known {r : Resolver} {s : ClientState σ} {o : Outcome} (outcome : r.outcome? = some o) :
    Steps c ⟨r, .ready⟩ s ⟨r, .ended (.ok o)⟩ s
  | refused {r : Resolver} {s : ClientState σ} (outcome : r.outcome? = none) (closed : s.closed = true) :
    Steps c ⟨r, .ready⟩ s (conclude c.timer (r.beginPoll s.now) s.now (.error .connectionClosed)) s
  | sent {r : Resolver} {s : ClientState σ} {due : Instant} {result : Except ClientError Response}
    (outcome : r.outcome? = none) (isOpen : s.closed = false)
    (pending : c.pendingOf s.now (c.channel.call s.wall (receiptPoll r.id) s.world).1 = ⟨some due, result⟩) :
    Steps c ⟨r, .ready⟩ s ⟨r.beginPoll s.now, .polling due result⟩
      { s with world := (c.channel.call s.wall (receiptPoll r.id) s.world).2 }
  | replied {r : Resolver} {s : ClientState σ} {result : Except ClientError Response}
    (outcome : r.outcome? = none) (isOpen : s.closed = false)
    (pending : c.pendingOf s.now (c.channel.call s.wall (receiptPoll r.id) s.world).1 = ⟨none, result⟩) :
    Steps c ⟨r, .ready⟩ s (conclude c.timer (r.beginPoll s.now) s.now result)
      { s with world := (c.channel.call s.wall (receiptPoll r.id) s.world).2 }
  | concluded {r : Resolver} {s s' : ClientState σ} {due : Instant} {result : Except ClientError Response}
    (ends : s.endWait? due = some s') :
    Steps c ⟨r, .polling due result⟩ s (conclude c.timer r s'.now result) s'
  | rested {r : Resolver} {s s' : ClientState σ} {till : Instant} (ends : s.endWait? till = some s') :
    Steps c ⟨r, .resting till⟩ s ⟨r, .ready⟩ s'

/-- A request that is sent, or refused if the connection is closed. -/
theorem run_send (c : Connection σ) (q : Request) (s : ClientState σ) :
    (c.send q).run.run s
      = if s.closed then (.error .connectionClosed, s)
        else (.ok (c.pendingOf s.now (c.channel.call s.wall q s.world).1),
          { s with world := (c.channel.call s.wall q s.world).2 }) := by
  obtain ⟨wall, now, allowance, mint, closed, world⟩ := s
  cases closed <;> rfl

/-- **Every step is one of these.** -/
theorem steps_of_step? (h : t.step? c s = some (t', s')) : Steps c t s t' s' := by
  obtain ⟨r, stage⟩ := t
  unfold step? at h
  cases stage with
  | ready =>
    simp only at h
    cases hknown : r.outcome? with
    | some o =>
      rw [hknown] at h
      obtain ⟨rfl, rfl⟩ := Prod.mk.inj (Option.some.inj h)
      exact .known hknown
    | none =>
      rw [hknown] at h
      simp only [run_send] at h
      by_cases hclosed : s.closed = true
      · rw [if_pos hclosed] at h
        obtain ⟨rfl, rfl⟩ := Prod.mk.inj (Option.some.inj h)
        exact .refused hknown hclosed
      · rw [if_neg hclosed] at h
        simp only [Bool.not_eq_true] at hclosed
        have hpoll : Request.query ⟨.answer, (r.beginPoll s.now).question⟩ = receiptPoll r.id := rfl
        rw [hpoll] at h
        rcases hpending : c.pendingOf s.now (c.channel.call s.wall (receiptPoll r.id) s.world).1
          with ⟨due, result⟩
        rw [hpending] at h
        cases due with
        | some due =>
          obtain ⟨rfl, rfl⟩ := Prod.mk.inj (Option.some.inj h)
          exact .sent hknown hclosed hpending
        | none =>
          obtain ⟨rfl, rfl⟩ := Prod.mk.inj (Option.some.inj h)
          exact .replied hknown hclosed hpending
  | polling due result =>
    obtain ⟨s'', hends, hsame⟩ := Option.map_eq_some_iff.mp h
    obtain ⟨rfl, rfl⟩ := Prod.mk.inj hsame
    exact .concluded hends
  | resting till =>
    obtain ⟨s'', hends, hsame⟩ := Option.map_eq_some_iff.mp h
    obtain ⟨rfl, rfl⟩ := Prod.mk.inj hsame
    exact .rested hends
  | ended result => cases h

/-- Ending a wait takes from the allowance and changes nothing else. -/
theorem eq_of_endWait? {till : Instant} (h : s.endWait? till = some s') :
    s' = { s with allowance := s.allowance - 1 } := by
  unfold ClientState.endWait? at h
  split at h
  · exact (Option.some.inj h).symm
  · cases h

/-- Steps take no time, and nothing adds to the allowance of a turn. -/
theorem Steps.frame (h : Steps c t s t' s') : s'.now = s.now ∧ s'.allowance ≤ s.allowance := by
  cases h with
  | known | refused | sent | replied => exact ⟨rfl, Nat.le_refl _⟩
  | concluded ends | rested ends =>
    rw [eq_of_endWait? ends]
    exact ⟨rfl, Nat.sub_le _ _⟩

/-- **When a task cannot go on**: it is not about to poll, and what it waits for has not come or may not end
the wait in this turn. -/
theorem step?_eq_none_iff :
    t.step? c s = none ↔ t.isReady = false ∧ ∀ wake ∈ t.wakeAt, s.now < wake ∨ s.allowance = 0 := by
  obtain ⟨r, stage⟩ := t
  unfold step? isReady wakeAt
  cases stage with
  | ready =>
    simp only [Bool.true_eq_false, false_and, iff_false]
    cases r.outcome? with
    | some o => simp
    | none =>
      simp only
      split <;> simp
  | polling due result => simp [endWait?_eq_none_iff]
  | resting till => simp [endWait?_eq_none_iff]
  | ended result => simp

/-- A poll that is begun is under way for less than the task could do before. -/
theorem rank_beginPoll_lt (r : Resolver) (now due : Instant) (result : Except ClientError Response) :
    rank ⟨r.beginPoll now, .polling due result⟩ < rank ⟨r, .ready⟩ := by
  have hleft : (r.beginPoll now).pollsLeft = r.pollsLeft - 1 := rfl
  rw [rank_polling, rank_ready, hleft]
  split <;> omega

/-- A poll that is concluded ends the task or leaves it waiting with polls left. -/
theorem rank_conclude_lt (timer : Timer) (r : Resolver) (now due : Instant)
    (result result' : Except ClientError Response) :
    (conclude timer r now result).rank < rank ⟨r, .polling due result'⟩ := by
  have hpos : 0 < rank ⟨r, .polling due result'⟩ := by
    rw [rank_polling]
    split <;> omega
  unfold conclude
  split
  · exact hpos
  · exact hpos
  · rename_i r' hend
    obtain ⟨-, hpolicy, hpolls, hlt⟩ := Resolver.endPoll_none hend
    have hleft : r'.pollsLeft = r.pollsLeft := by rw [Resolver.pollsLeft, hpolicy, hpolls, Resolver.pollsLeft]
    have hsome : 0 < r.pollsLeft := Nat.sub_pos_of_lt hlt
    rw [rank_resting, rank_polling, hleft, if_neg (Nat.ne_of_gt hsome)]
    omega

/-- **Every step lowers the rank.** -/
theorem Steps.rank_lt (h : Steps c t s t' s') : t'.rank < t.rank := by
  -- A poll that has ended at once was under way for no time.
  have hpoll : ∀ (r : Resolver) (now : Instant) (result : Except ClientError Response),
      (conclude c.timer (r.beginPoll now) now result).rank < rank ⟨r, .ready⟩ := fun r now result =>
    Nat.lt_trans (rank_conclude_lt c.timer (r.beginPoll now) now now result result)
      (rank_beginPoll_lt r now now result)
  cases h with
  | known => exact Nat.zero_lt_succ _
  | refused => exact hpoll _ _ _
  | sent => exact rank_beginPoll_lt _ _ _ _
  | replied => exact hpoll _ _ _
  | concluded => exact rank_conclude_lt _ _ _ _ _ _
  | @rested r => exact Nat.lt_succ_self (3 * r.pollsLeft + 2)

/-- Whoever waits for an instant that has come can go on if the turn allows it. -/
theorem step?_isSome_of_due {wake : Instant} (hwake : t.wakeAt = some wake) (hdue : wake ≤ s.now)
    (hallowed : 0 < s.allowance) : (t.step? c s).isSome = true := by
  rw [Option.isSome_iff_ne_none, ne_eq, step?_eq_none_iff]
  rintro ⟨-, hstuck⟩
  rcases hstuck wake hwake with hlate | hspent
  · exact Nat.not_lt.mpr hdue hlate
  · exact Nat.ne_of_gt hallowed hspent

end Task

/-! ## 2. Moves of a company -/

/-- **One move of a company**, of its tasks and the client that they share.  Some task that can go on takes a
step; or none can, and a new turn begins, at the next instant that someone waits for, or at once if someone
waits and this turn allows no more waits to end. -/
inductive Move (c : Connection σ) :
    List Task × ClientState σ → List Task × ClientState σ → Prop
  | step {tasks : List Task} {s s' : ClientState σ} {place : Nat} {t t' : Task}
    (here : tasks[place]? = some t) (goes : t.step? c s = some (t', s')) :
    Move c (tasks, s) (tasks.set place t', s')
  | later {tasks : List Task} {s : ClientState σ} {wake : Instant}
    (stuck : ∀ t ∈ tasks, t.step? c s = none) (next : (tasks.filterMap Task.wakeAt).min? = some wake) :
    Move c (tasks, s) (tasks, s.newTurn wake)
  | again {tasks : List Task} {s : ClientState σ} {wake : Instant}
    (stuck : ∀ t ∈ tasks, t.step? c s = none) (next : (tasks.filterMap Task.wakeAt).min? = some wake)
    (spent : s.allowance = 0) :
    Move c (tasks, s) (tasks, s.newTurn s.now)

namespace Move

variable {c : Connection σ} {tasks : List Task} {s : ClientState σ}

/-- **Steps that are left** to all tasks together. -/
def stepsLeft (tasks : List Task) : Nat :=
  (tasks.map Task.rank).sum

/-- **Turns that are due** before a task can take a step: none if one can, and one more if the turn has to
begin again first. -/
def turnsDue (c : Connection σ) (tasks : List Task) (s : ClientState σ) : Nat :=
  if tasks.any fun t => (t.step? c s).isSome then 0 else if 0 < s.allowance then 1 else 2

/-- A task that changes changes the steps that are left. -/
theorem stepsLeft_set {place : Nat} {t : Task} (h : tasks[place]? = some t) (t' : Task) :
    stepsLeft (tasks.set place t') + t.rank = stepsLeft tasks + t'.rank := by
  induction tasks generalizing place with
  | nil => cases h
  | cons first tasks ih =>
    cases place with
    | zero =>
      obtain rfl : first = t := Option.some.inj h
      simp only [stepsLeft, List.set_cons_zero, List.map_cons, List.sum_cons]
      omega
    | succ place =>
      have hrest : stepsLeft (tasks.set place t') + t.rank = stepsLeft tasks + t'.rank := ih h
      simp only [stepsLeft, List.set_cons_succ, List.map_cons, List.sum_cons] at hrest ⊢
      omega

theorem turnsDue_le (c : Connection σ) (tasks : List Task) (s : ClientState σ) :
    turnsDue c tasks s ≤ 2 := by
  unfold turnsDue
  split
  · omega
  · split <;> omega

/-- No turn is due before a step that can be taken. -/
theorem turnsDue_of_isSome {t : Task} (ht : t ∈ tasks) (h : (t.step? c s).isSome = true) :
    turnsDue c tasks s = 0 :=
  if_pos (List.any_eq_true.mpr ⟨t, ht, h⟩)

/-- If no task can take a step a turn is due. -/
theorem turnsDue_of_stuck (hstuck : ∀ t ∈ tasks, t.step? c s = none) :
    turnsDue c tasks s = if 0 < s.allowance then 1 else 2 := by
  refine if_neg ?_
  rw [List.any_eq_true]
  rintro ⟨t, ht, hsome⟩
  rw [hstuck t ht] at hsome
  cases hsome

/-- **Every move leaves fewer steps, or as many and fewer turns before the next.** -/
theorem progress {before after : List Task × ClientState σ} (h : Move c before after) :
    stepsLeft after.1 < stepsLeft before.1
      ∨ (stepsLeft after.1 = stepsLeft before.1
        ∧ turnsDue c after.1 after.2 < turnsDue c before.1 before.2) := by
  cases h with
  | @step tasks s s' place t t' here goes =>
    left
    have hset := stepsLeft_set here t'
    have hrank := (Task.steps_of_step? goes).rank_lt
    simp only
    omega
  | @later tasks s wake stuck next =>
    right
    refine ⟨rfl, ?_⟩
    -- Whoever waits for the next instant can go on when it has come.
    obtain ⟨hmem, -⟩ := List.min?_eq_some_iff.mp next
    obtain ⟨t, ht, hwake⟩ := List.mem_filterMap.mp hmem
    have hgoes : (t.step? c (s.newTurn wake)).isSome = true :=
      Task.step?_isSome_of_due hwake (Nat.le_max_right _ _) (s.allowance_newTurn wake)
    simp only [turnsDue_of_isSome ht hgoes, turnsDue_of_stuck stuck]
    split <;> omega
  | @again tasks s wake stuck next spent =>
    right
    refine ⟨rfl, ?_⟩
    -- The next turn begins with waits to spare, so no other has to begin before the clock goes on.
    have hnow : turnsDue c tasks s = 2 := by
      rw [turnsDue_of_stuck stuck, spent]
      rfl
    have hnext : turnsDue c tasks (s.newTurn s.now) ≤ 1 := by
      unfold turnsDue
      rw [if_pos (s.allowance_newTurn s.now)]
      split <;> omega
    simp only [hnow]
    omega

/-- **Turns that may still begin**: no more than two before each step that is left. -/
def turnsLeft (c : Connection σ) (tasks : List Task) (s : ClientState σ) : Nat :=
  2 * stepsLeft tasks + turnsDue c tasks s

/-- No moves add to the turns that may still begin. -/
theorem turnsLeft_le {before after : List Task × ClientState σ}
    (h : Relation.ReflTransGen (Move c) before after) :
    turnsLeft c after.1 after.2 ≤ turnsLeft c before.1 before.2 := by
  induction h with
  | refl => exact Nat.le_refl _
  | @tail between after hmoves hmove ih =>
    have hprogress := hmove.progress
    have hdue := turnsDue_le c after.1 after.2
    unfold turnsLeft at *
    omega

/-- A turn that begins is one of them. -/
theorem turnsLeft_lt {s' : ClientState σ} (h : Move c (tasks, s) (tasks, s')) :
    turnsLeft c tasks s' < turnsLeft c tasks s := by
  rcases h.progress with hsteps | ⟨-, hdue⟩
  · exact absurd hsteps (Nat.lt_irrefl _)
  · exact Nat.add_lt_add_left hdue _

/-- **Moves come to an end**, however they are chosen. -/
theorem wellFounded (c : Connection σ) : WellFounded fun after before => Move c before after := by
  refine Subrelation.wf
    (r := InvImage (Prod.Lex (· < ·) (· < ·)) fun k => (stepsLeft k.1, turnsDue c k.1 k.2)) ?_ ?_
  · intro after before h
    exact Prod.lex_def.mpr h.progress
  · apply InvImage.wf
    exact WellFounded.prod_lex Nat.lt_wfRel.wf Nat.lt_wfRel.wf

/-- **Where no move is left all tasks have ended.** -/
theorem ended_of_final (h : ∀ after, ¬ Move c (tasks, s) after) : ∀ t ∈ tasks, t.result?.isSome = true := by
  intro t ht
  -- Nobody can go on, and if someone waited there would be a next turn.
  have hstuck : ∀ t ∈ tasks, t.step? c s = none := by
    intro t ht
    obtain ⟨place, hplace⟩ := List.mem_iff_getElem?.mp ht
    cases hgoes : t.step? c s with
    | none => rfl
    | some next => exact absurd (.step hplace hgoes) (h _)
  rw [← Task.wakeAt_eq_none_iff]
  cases hwake : t.wakeAt with
  | none => rfl
  | some wake =>
    have hmem : wake ∈ tasks.filterMap Task.wakeAt := List.mem_filterMap.mpr ⟨t, ht, hwake⟩
    cases hnext : (tasks.filterMap Task.wakeAt).min? with
    | none =>
      rw [List.min?_eq_none_iff.mp hnext] at hmem
      cases hmem
    | some wake => exact absurd (.later hstuck hnext) (h _)

end Move

/-! ## 3. The moves that a company makes -/

namespace Task

variable {c : Connection σ} {t : Task} {s s' : ClientState σ}

/-- Who cannot go on cannot do so later in the same turn. -/
theorem step?_eq_none_of_later (h : t.step? c s = none) (hnow : s'.now = s.now)
    (hallowance : s'.allowance ≤ s.allowance) : t.step? c s' = none := by
  rw [step?_eq_none_iff] at h ⊢
  refine ⟨h.1, ?_⟩
  intro wake hwake
  rw [hnow]
  rcases h.2 wake hwake with hlate | hspent
  · exact .inl hlate
  · exact .inr (Nat.eq_zero_of_le_zero (hspent ▸ hallowance))

/-- Who waits for an instant that has not come cannot go on, and neither can who waits for none. -/
theorem step?_eq_none_of_late (hlate : ∀ wake ∈ t.wakeAt, s.now < wake) : t.step? c s = none := by
  rw [step?_eq_none_iff]
  refine ⟨?_, fun wake hwake => .inl (hlate wake hwake)⟩
  unfold isReady
  cases hstage : t.stage with
  | ready =>
    have hwake : t.wakeAt = some 0 := by rw [wakeAt, hstage]
    exact absurd (hlate 0 hwake) (Nat.not_lt_zero _)
  | _ => rfl

/-- **A task that goes on** as far as it can does so by moves, which take no time and add nothing to the
allowance of the turn.  The induction is on the bound of its steps. -/
theorem advance_moves (c : Connection σ) (bound : Nat) {tasks : List Task} {place : Nat}
    (here : tasks[place]? = some t) (s : ClientState σ) :
    Relation.ReflTransGen (Move c) (tasks, s)
        (tasks.set place (t.advance c bound s).1, (t.advance c bound s).2)
      ∧ (t.advance c bound s).2.now = s.now ∧ (t.advance c bound s).2.allowance ≤ s.allowance := by
  have hplace : place < tasks.length := (List.getElem?_eq_some_iff.mp here).1
  have hsame : tasks.set place t = tasks := by
    rw [← (List.getElem?_eq_some_iff.mp here).2, List.set_getElem_self]
  induction bound generalizing tasks t s with
  | zero =>
    rw [advance, hsame]
    exact ⟨.refl, rfl, Nat.le_refl _⟩
  | succ bound ih =>
    rw [advance]
    cases hgoes : t.step? c s with
    | none =>
      refine ⟨?_, rfl, Nat.le_refl _⟩
      show Relation.ReflTransGen (Move c) (tasks, s) (tasks.set place t, s)
      rw [hsame]
    | some next =>
      obtain ⟨t', s'⟩ := next
      have here' : (tasks.set place t')[place]? = some t' := by
        rw [List.getElem?_set_self hplace]
      obtain ⟨hmoves, hnow, hallowance⟩ := ih here' s' (by simpa using hplace) (by rw [List.set_set])
      obtain ⟨hnow', hallowance'⟩ := (steps_of_step? hgoes).frame
      rw [List.set_set] at hmoves
      exact ⟨.head (.step here hgoes) hmoves, hnow.trans hnow', Nat.le_trans hallowance hallowance'⟩

/-- **A task that goes on** with enough steps granted cannot go on any more afterwards. -/
theorem advance_stuck (c : Connection σ) {bound : Nat} (hbound : t.rank ≤ bound) (s : ClientState σ) :
    (t.advance c bound s).1.step? c (t.advance c bound s).2 = none := by
  induction bound generalizing t s with
  | zero =>
    -- It has ended.
    rw [advance]
    have hended := wakeAt_eq_none_iff.mpr (rank_eq_zero_iff.mp (Nat.eq_zero_of_le_zero hbound))
    exact step?_eq_none_of_late (by simp [hended])
  | succ bound ih =>
    rw [advance]
    cases hgoes : t.step? c s with
    | none => exact hgoes
    | some next =>
      obtain ⟨t', s'⟩ := next
      have hlower := (steps_of_step? hgoes).rank_lt
      exact ih (by omega) s'

end Task

namespace Company

variable {c : Connection σ} {k : Company} {s : ClientState σ}

/-- **Where those are who are not to go on** in this turn, or not any more: each of them stands back and cannot
go on, or waits in the queue for an instant that has not come, or has ended.  Who stands back does so because
the turn allows no more waits to end. -/
structure Placed (c : Connection σ) (k : Company) (s : ClientState σ) (places : List Nat) : Prop where
  waits : ∀ place t, k.tasks[place]? = some t → t.result? = none → place ∉ places →
    (place ∈ k.back ∧ t.step? c s = none) ∨ (place ∈ k.queue ∧ ∀ wake ∈ t.wakeAt, s.now < wake)
  spent : k.back ≠ [] → s.allowance = 0

/-- **One task that went on** is placed with the others, who are where they were. -/
theorem Placed.replace {k' : Company} {s' : ClientState σ} {place : Nat} {places : List Nat} {t t' : Task}
    (h : Placed c k s (place :: places)) (here : k.tasks[place]? = some t)
    (htasks : k'.tasks = k.tasks.set place t') (hback : k.back ⊆ k'.back) (hqueue : k.queue ⊆ k'.queue)
    (hnow : s'.now = s.now) (hallowance : s'.allowance ≤ s.allowance)
    (hself : t'.result? = none → (place ∈ k'.back ∧ t'.step? c s' = none)
      ∨ (place ∈ k'.queue ∧ ∀ wake ∈ t'.wakeAt, s'.now < wake))
    (hspent : k'.back ≠ [] → s'.allowance = 0) : Placed c k' s' places := by
  refine ⟨?_, hspent⟩
  intro place' u hu hopen hnot
  rw [htasks] at hu
  by_cases hplace : place' = place
  · subst hplace
    rw [List.getElem?_set_self (List.getElem?_eq_some_iff.mp here).1] at hu
    obtain rfl := Option.some.inj hu
    exact hself hopen
  · rw [List.getElem?_set_ne (Ne.symm hplace)] at hu
    have hnot' : place' ∉ place :: places := by simp [hplace, hnot]
    rcases h.waits place' u hu hopen hnot' with ⟨hstood, hgoes⟩ | ⟨hwaits, hlate⟩
    · exact .inl ⟨hback hstood, Task.step?_eq_none_of_later hgoes hnow hallowance⟩
    · rw [hnow]
      exact .inr ⟨hqueue hwaits, hlate⟩

/-- **One task goes on** as far as it can, by moves, and is placed then. -/
theorem Placed.goOn {place : Nat} {places : List Nat} (h : Placed c k s (place :: places)) :
    Placed c (k.goOn c s place).1 (k.goOn c s place).2 places
      ∧ Relation.ReflTransGen (Move c) (k.tasks, s)
          ((k.goOn c s place).1.tasks, (k.goOn c s place).2) := by
  unfold Company.goOn
  cases here : k.tasks[place]? with
  | none =>
    refine ⟨⟨?_, h.spent⟩, .refl⟩
    intro place' t ht hopen hnot
    have hne : place' ≠ place := by
      rintro rfl
      rw [here] at ht
      cases ht
    exact h.waits place' t ht hopen (by simp [hne, hnot])
  | some t =>
    obtain ⟨hmoves, hnow, hallowance⟩ := Task.advance_moves c t.steps here s
    have hstuck := Task.advance_stuck c t.rank_le_steps s
    simp only
    generalize t.advance c t.steps s = after at hmoves hnow hallowance hstuck ⊢
    obtain ⟨t', s'⟩ := after
    simp only at hmoves hnow hallowance hstuck ⊢
    have hspent : k.back ≠ [] → s'.allowance = 0 := by
      intro hback
      rw [h.spent hback] at hallowance
      exact Nat.eq_zero_of_le_zero hallowance
    by_cases hended : t'.result?.isSome = true
    · rw [if_pos hended]
      refine ⟨h.replace here rfl (List.Subset.refl _) (List.Subset.refl _) hnow hallowance ?_ hspent, hmoves⟩
      intro hopen
      rw [hopen] at hended
      cases hended
    · rw [if_neg hended]
      by_cases hallowed : s'.allowance = 0
      · -- It waits, for what has come or not, and stands back.
        rw [if_pos hallowed]
        refine ⟨h.replace here rfl (List.subset_cons_self _ _) (List.Subset.refl _) hnow hallowance ?_ ?_,
          hmoves⟩
        · intro _
          exact .inl ⟨List.mem_cons_self, hstuck⟩
        · intro _
          exact hallowed
      · -- It could end a wait, so it waits for what has not come.
        rw [if_neg hallowed]
        refine ⟨h.replace here rfl (List.Subset.refl _) (List.subset_append_left _ _) hnow hallowance ?_
          hspent, hmoves⟩
        intro _
        refine .inr ⟨List.mem_append_right _ (List.mem_singleton_self place), ?_⟩
        intro wake hwake
        exact ((Task.step?_eq_none_iff.mp hstuck).2 wake hwake).resolve_right hallowed

/-- **All those who are to go on do so**, one after the other. -/
theorem Placed.foldl {places : List Nat} (h : Placed c k s places) :
    let after := places.foldl (fun ks place => Company.goOn c ks.1 ks.2 place) (k, s)
    Placed c after.1 after.2 []
      ∧ Relation.ReflTransGen (Move c) (k.tasks, s) (after.1.tasks, after.2) := by
  induction places generalizing k s with
  | nil => exact ⟨h, .refl⟩
  | cons place places ih =>
    obtain ⟨hplaced, hmoves⟩ := h.goOn
    obtain ⟨hplaced', hmoves'⟩ := ih hplaced
    exact ⟨hplaced', hmoves.trans hmoves'⟩

/-- When everyone is placed nobody can go on. -/
theorem Placed.stuck (h : Placed c k s []) : ∀ t ∈ k.tasks, t.step? c s = none := by
  intro t ht
  obtain ⟨place, hplace⟩ := List.mem_iff_getElem?.mp ht
  cases hresult : t.result? with
  | some result =>
    have hended : t.wakeAt = none := Task.wakeAt_eq_none_iff.mpr (by simp [hresult])
    exact Task.step?_eq_none_of_late (by simp [hended])
  | none =>
    rcases h.waits place t hplace hresult List.not_mem_nil with ⟨-, hgoes⟩ | ⟨-, hlate⟩
    · exact hgoes
    · exact Task.step?_eq_none_of_late hlate

/-- **The next turn** is a move of the company, and everyone who is not woken in it is in the queue; unless all
have ended. -/
theorem Placed.next (h : Placed c k s []) :
    (k.next s = none ∧ ∀ t ∈ k.tasks, t.result?.isSome = true)
      ∨ ∃ k' s', k.next s = some (k', s') ∧ k'.tasks = k.tasks
        ∧ Move c (k.tasks, s) (k.tasks, s') ∧ Placed c k' s' k'.woken := by
  unfold Company.next
  cases hwake : k.nextWake with
  | none =>
    left
    refine ⟨rfl, ?_⟩
    intro t ht
    have hnone := List.filterMap_eq_nil_iff.mp (List.min?_eq_none_iff.mp hwake) t ht
    exact Task.wakeAt_eq_none_iff.mp hnone
  | some wake =>
    right
    have hmove : Move c (k.tasks, s) (k.tasks, s.newTurn (if k.back.isEmpty then wake else s.now)) := by
      by_cases hback : k.back = []
      · rw [if_pos (List.isEmpty_iff.mpr hback)]
        exact .later h.stuck hwake
      · rw [if_neg (fun hempty => hback (List.isEmpty_iff.mp hempty))]
        exact .again h.stuck hwake (h.spent hback)
    by_cases hsmall : k.tasks.length ≤ smallCompany
    · -- Everyone is woken.
      simp only [Option.map_some, if_pos hsmall]
      refine ⟨_, _, rfl, rfl, hmove, ?_, fun hback => absurd rfl hback⟩
      intro place t ht _ hnot
      exact absurd (List.mem_range.mpr (List.getElem?_eq_some_iff.mp ht).1) hnot
    · simp only [Option.map_some, if_neg hsmall]
      by_cases hback : k.back = []
      · -- Nobody stood back, and those are woken who waited for this instant.
        simp only [if_pos (List.isEmpty_iff.mpr hback)] at hmove ⊢
        refine ⟨_, _, rfl, rfl, hmove, ?_, fun hback => absurd rfl hback⟩
        intro place t ht hopen hnot
        rcases h.waits place t ht hopen List.not_mem_nil with ⟨hstood, -⟩ | ⟨hqueue, -⟩
        · rw [hback] at hstood
          cases hstood
        · have hdue : k.isDue (s.newTurn wake).now place = false := by
            rw [Bool.eq_false_iff]
            intro hdue
            exact hnot (List.mem_filter.mpr ⟨hqueue, hdue⟩)
          refine .inr ⟨List.mem_filter.mpr ⟨hqueue, by rw [hdue]; rfl⟩, ?_⟩
          intro wake' hwake'
          unfold isDue at hdue
          rw [ht, Option.bind_some, Option.mem_def.mp hwake'] at hdue
          exact Nat.not_le.mp (by simpa using hdue)
      · -- Those are woken who stood back, at the same instant.
        simp only [if_neg (fun hempty => hback (List.isEmpty_iff.mp hempty))] at hmove ⊢
        refine ⟨_, _, rfl, rfl, hmove, ?_, fun hback => absurd rfl hback⟩
        intro place t ht hopen hnot
        rcases h.waits place t ht hopen List.not_mem_nil with ⟨hstood, -⟩ | ⟨hqueue, hlate⟩
        · exact absurd hstood hnot
        · have hnow : (s.newTurn s.now).now = s.now := Nat.max_self _
          rw [hnow]
          exact .inr ⟨hqueue, hlate⟩

/-- **Turn after turn**: a company makes moves, and if it is granted the turns that may still begin, all have
ended then.  The induction is on the turns that it is granted. -/
theorem Placed.run {bound : Nat} (h : Placed c k s k.woken) (hbound : Move.turnsLeft c k.tasks s ≤ bound) :
    Relation.ReflTransGen (Move c) (k.tasks, s) ((k.run c bound s).1.tasks, (k.run c bound s).2)
      ∧ ∀ t ∈ (k.run c bound s).1.tasks, t.result?.isSome = true := by
  induction bound generalizing k s with
  | zero =>
    -- No turns are left, so no steps are.
    refine ⟨.refl, ?_⟩
    intro t ht
    have hrank : t.rank ≤ Move.stepsLeft k.tasks := List.single_le_sum (by simp) _ (List.mem_map_of_mem ht)
    have hleft : Move.turnsLeft c k.tasks s = 2 * Move.stepsLeft k.tasks + Move.turnsDue c k.tasks s := rfl
    rw [← Task.rank_eq_zero_iff]
    omega
  | succ bound ih =>
    obtain ⟨hplaced, hmoves⟩ := h.foldl
    have hleft := Nat.le_trans (Move.turnsLeft_le hmoves) hbound
    rw [Company.run]
    unfold Company.turn
    generalize k.woken.foldl (fun ks place => Company.goOn c ks.1 ks.2 place) (k, s) = after
      at hplaced hmoves hleft ⊢
    obtain ⟨k₁, s₁⟩ := after
    simp only at hplaced hmoves hleft ⊢
    -- The turn that begins now is one of those that were left.
    rcases hplaced.next with ⟨hnone, hended⟩ | ⟨k₂, s₂, hnext, htasks, hmove, hplaced'⟩
    · rw [hnone]
      exact ⟨hmoves, hended⟩
    · rw [hnext]
      have hlower := Move.turnsLeft_lt hmove
      obtain ⟨hmoves', hended⟩ := ih hplaced' (by rw [htasks]; omega)
      rw [htasks] at hmoves'
      exact ⟨(hmoves.tail hmove).trans hmoves', hended⟩

/-- The turns that a company is granted at its start are enough. -/
theorem turnsLeft_start (c : Connection σ) (rs : List Resolver) (s : ClientState σ) :
    Move.turnsLeft c (start rs).tasks s ≤ (start rs).turns := by
  have hsteps : Move.stepsLeft (start rs).tasks ≤ ((start rs).tasks.map Task.steps).sum :=
    List.sum_le_sum fun t _ => t.rank_le_steps
  have hdue := Move.turnsDue_le c (start rs).tasks s
  unfold Move.turnsLeft turns
  omega

end Company

/-- **Resolving several transactions is a choice of moves**, after which all have ended. -/
theorem Connection.resolveAll_moves (c : Connection σ) (rs : List Resolver) (s : ClientState σ) :
    ∃ tasks, Relation.ReflTransGen (Move c) (rs.map fun r => ⟨r, .ready⟩, s)
        (tasks, ((c.resolveAll rs).run s).2)
      ∧ (∀ t ∈ tasks, t.result?.isSome = true)
      ∧ ((c.resolveAll rs).run s).1 = tasks.filterMap Task.result? := by
  -- In the first turn everyone goes on.
  have hplaced : Company.Placed c (.start rs) s (Company.start rs).woken := by
    refine ⟨?_, fun hback => absurd rfl hback⟩
    intro place t ht _ hnot
    have hplace := (List.getElem?_eq_some_iff.mp ht).1
    exact absurd (List.mem_range.mpr (by simpa [Company.start] using hplace)) hnot
  obtain ⟨hmoves, hended⟩ := hplaced.run (Company.turnsLeft_start c rs s)
  exact ⟨_, hmoves, hended, rfl⟩

end ShardLedger
