import ShardLedger.Proofs.DeletedAccounts
import ShardLedger.Proofs.ServiceOrder
import Mathlib.Data.List.MinMax
import Mathlib.Data.List.Nodup
import Mathlib.Order.Nat
/-
Resolvers side by side end as each of them would alone.

They share a node and its receipts, and one clock.  But a poll touches no receipt except the one that it asks
for, and is replied at once; so between two polls of one resolver nothing changes that it will be told, and the
time that passes is time that it waits for anyway.  Every task therefore carries with it the end that it is bound
for if it goes on alone from where it is.  Its own steps lead there, the steps of others leave it bound for the
same end, and so does a new turn.

That holds of any choice of moves, hence of those that a company makes.
-/

set_option autoImplicit false

namespace ShardLedger

variable {σ κ : Type}

/-! ## 1. Channels that keep transactions apart -/

/-- **A channel keeps transactions apart**: every transaction has a part of the world; a poll is replied at
once, and reads and changes the part of its own transaction only. -/
structure Channel.Parted (c : Channel σ) (part : TransactionId → σ → κ) : Prop where
  atOnce : ∀ now id w, ∃ reply, (c.call now (receiptPoll id) w).1 = .atOnce reply
  reply : ∀ now id w w', part id w' = part id w →
    (c.call now (receiptPoll id) w').1 = (c.call now (receiptPoll id) w).1
  polled : ∀ now id w w', part id w' = part id w →
    part id (c.call now (receiptPoll id) w').2 = part id (c.call now (receiptPoll id) w).2
  others : ∀ now id other w, other ≠ id → part id (c.call now (receiptPoll other) w).2 = part id w

/-- **Two states of a client are alike for a transaction**: they have the same clocks, both connections are open
or both closed, and the part of the world is the same. -/
structure ClientState.AlikeFor (part : TransactionId → σ → κ) (id : TransactionId) (s s' : ClientState σ) :
    Prop where
  wall : s'.wall = s.wall
  now : s'.now = s.now
  closed : s'.closed = s.closed
  part : part id s'.world = part id s.world

namespace ClientState

variable {part : TransactionId → σ → κ} {id : TransactionId} {s s' : ClientState σ}

/-- States that differ in their steady clocks at most are alike when both have waited for the same instant. -/
theorem alikeFor_waitUntil (s s' : ClientState σ) (hwall : s'.wall = s.wall)
    (hclosed : s'.closed = s.closed) (hpart : part id s'.world = part id s.world) {t : Instant}
    (hnow : max s'.now t = max s.now t) :
    (s.waitUntil t).AlikeFor part id (s'.waitUntil t) := by
  obtain ⟨hwaitWall, hwaitClosed⟩ := s.frame_waitUntil t
  obtain ⟨hwaitWall', hwaitClosed'⟩ := s'.frame_waitUntil t
  constructor
  · rw [hwaitWall, hwaitWall', hwall]
  · rw [now_waitUntil, now_waitUntil, hnow]
  · rw [hwaitClosed, hwaitClosed', hclosed]
  · rw [world_waitUntil, world_waitUntil, hpart]

/-- States that are alike stay so while both wait for an instant. -/
theorem AlikeFor.waitUntil (h : s.AlikeFor part id s') (t : Instant) :
    (s.waitUntil t).AlikeFor part id (s'.waitUntil t) :=
  alikeFor_waitUntil s s' h.wall h.closed h.part (by rw [h.now])

/-- A wait that ends at once leaves the state alike. -/
theorem AlikeFor.of_waitUntil {t : Instant} (ht : t ≤ s.now) (h : s.AlikeFor part id s') :
    (s.waitUntil t).AlikeFor part id s' := by
  obtain ⟨hwaitWall, hwaitClosed⟩ := s.frame_waitUntil t
  constructor
  · rw [hwaitWall, h.wall]
  · rw [now_waitUntil, h.now, Nat.max_eq_left ht]
  · rw [hwaitClosed, h.closed]
  · rw [world_waitUntil, h.part]

end ClientState

/-! ## 2. A resolution alone -/

namespace Resolver

/-- A resolver is about one transaction. -/
theorem id_settle (r : Resolver) (now : Instant) (finding : Finding) : (r.settle now finding).id = r.id := by
  cases finding with
  | final o => rfl
  | pending =>
    unfold settle
    simp only
    split <;> rfl

theorem id_endPoll (r : Resolver) (now : Instant) (result : Except ClientError Response) :
    (r.endPoll now result).2.id = r.id := by
  unfold endPoll
  split
  · rfl
  · exact r.id_settle now _

end Resolver

namespace Connection

variable {c : Connection σ} {part : TransactionId → σ → κ} {r r' : Resolver} {s s' : ClientState σ}

/-- A reply that is there is not waited for. -/
theorem run_await_none (result : Except ClientError Response) (s : ClientState σ) :
    (await ⟨none, result⟩).run s = (result, s) := by
  cases result <;> rfl

/-- A poll that is replied at once waits for nothing. -/
theorem pendingOf_poll (h : c.channel.Parted part) (now : Instant) (wall : Timestamp) (id : TransactionId)
    (w : σ) : (c.pendingOf now (c.channel.call wall (receiptPoll id) w).1).due = none := by
  obtain ⟨reply, hreply⟩ := h.atOnce wall id w
  rw [hreply]
  rfl

/-- **A poll takes no time**, and leaves the client as it is but for the world. -/
theorem run_call_parted (h : c.channel.Parted part) (id : TransactionId) (s : ClientState σ) :
    (c.call (receiptPoll id)).run s
      = if s.closed then (.error .connectionClosed, s)
        else ((c.pendingOf s.now (c.channel.call s.wall (receiptPoll id) s.world).1).result,
          { s with world := (c.channel.call s.wall (receiptPoll id) s.world).2 }) := by
  have hdue := pendingOf_poll h s.now s.wall id s.world
  rw [run_call]
  generalize c.pendingOf s.now (c.channel.call s.wall (receiptPoll id) s.world).1 = pending at hdue ⊢
  obtain ⟨due, result⟩ := pending
  obtain rfl : due = none := hdue
  rw [run_await_none]

/-- The last poll of a resolution, if it leaves the outcome open. -/
theorem run_resolveWithin_zero (hpoll : (c.poll r).run s = ((.ok none, r'), s')) :
    (c.resolveWithin 0 r).run s = (.ok (.unresolved r'.polls (r'.elapsed s'.now)), s') := by
  rw [resolveWithin, StateT.run_bind, hpoll]
  rfl

/-- A poll takes no time back. -/
theorem now_le_poll (c : Connection σ) (r : Resolver) (s : ClientState σ) :
    s.now ≤ ((c.poll r).run s).2.now := by
  cases hopen : r.outcome? with
  | some o =>
    rw [run_poll_of_some hopen]
  | none =>
    rw [run_poll hopen, run_call]
    by_cases hclosed : s.closed = true
    · rw [if_pos hclosed]
    · rw [if_neg hclosed]
      simp only [now_await]
      exact Nat.le_max_left _ _

/-- **What the three ends of a poll make of a resolution.** -/
theorem run_resolveWithin (c : Connection σ) (left : Nat) (r : Resolver) (s : ClientState σ) :
    (c.resolveWithin left r).run s
      = match (c.poll r).run s with
        | ((.error e, _), s') => (.error e, s')
        | ((.ok (some o), _), s') => (.ok o, s')
        | ((.ok none, r'), s') =>
          match left with
          | 0 => (.ok (.unresolved r'.polls (r'.elapsed s'.now)), s')
          | left + 1 => (c.resolveWithin left r').run (c.paused r' s') := by
  rcases hpoll : (c.poll r).run s with ⟨⟨e | ⟨_ | o⟩, r'⟩, s'⟩
  · exact run_resolveWithin_of_error hpoll left
  · cases left with
    | zero => exact run_resolveWithin_zero hpoll
    | succ left => exact run_resolveWithin_of_none hpoll left
  · exact run_resolveWithin_of_some hpoll left

/-- A resolution takes no time back.  The induction is on the polls that are left. -/
theorem now_le_resolveWithin (c : Connection σ) (left : Nat) (r : Resolver) (s : ClientState σ) :
    s.now ≤ ((c.resolveWithin left r).run s).2.now := by
  induction left generalizing r s with
  | zero =>
    have hpoll := c.now_le_poll r s
    rw [run_resolveWithin]
    generalize (c.poll r).run s = after at hpoll ⊢
    rcases after with ⟨⟨e | ⟨_ | o⟩, r'⟩, s'⟩ <;> exact hpoll
  | succ left ih =>
    have hpoll := c.now_le_poll r s
    rw [run_resolveWithin]
    generalize (c.poll r).run s = after at hpoll ⊢
    rcases after with ⟨⟨e | ⟨_ | o⟩, r'⟩, s'⟩
    · exact hpoll
    · have hpause : s'.now ≤ (c.paused r' s').now := by
        rw [paused, ClientState.now_waitUntil]
        exact Nat.le_max_left _ _
      exact Nat.le_trans hpoll (Nat.le_trans hpause (ih r' (c.paused r' s')))
    · exact hpoll

end Connection

namespace ClientState

variable {c : Connection σ} {part : TransactionId → σ → κ} {r : Resolver} {id : TransactionId}
  {s s' : ClientState σ}

/-- States that are alike for a transaction get the same reply to a poll for it, and are alike after it. -/
theorem AlikeFor.call (halike : s.AlikeFor part id s') (h : c.channel.Parted part) :
    ((c.call (receiptPoll id)).run s').1 = ((c.call (receiptPoll id)).run s).1
      ∧ ((c.call (receiptPoll id)).run s).2.AlikeFor part id ((c.call (receiptPoll id)).run s').2 := by
  rw [Connection.run_call_parted h, Connection.run_call_parted h, halike.closed]
  by_cases hclosed : s.closed = true
  · rw [if_pos hclosed, if_pos hclosed]
    exact ⟨rfl, halike⟩
  · rw [if_neg hclosed, if_neg hclosed, halike.wall, halike.now, h.reply _ _ _ _ halike.part]
    exact ⟨rfl, ⟨rfl, rfl, rfl, h.polled _ _ _ _ halike.part⟩⟩

/-- They lead to the same end of a poll, and are alike after it. -/
theorem AlikeFor.poll (halike : s.AlikeFor part r.id s') (h : c.channel.Parted part) :
    ∃ result r' t t', (c.poll r).run s = ((result, r'), t) ∧ (c.poll r).run s' = ((result, r'), t')
      ∧ t.AlikeFor part r'.id t' := by
  cases hopen : r.outcome? with
  | some o => exact ⟨_, _, _, _, Connection.run_poll_of_some hopen s, Connection.run_poll_of_some hopen s', halike⟩
  | none =>
    obtain ⟨hresult, halike'⟩ := halike.call h
    have hrun := Connection.run_poll (c := c) (s := s) hopen
    have hrun' := Connection.run_poll (c := c) (s := s') hopen
    rw [hresult, halike.now, halike'.now] at hrun'
    have hid := (r.beginPoll s.now).id_endPoll ((c.call (receiptPoll r.id)).run s).2.now
      ((c.call (receiptPoll r.id)).run s).1
    -- Both take in the same reply at the same instant.
    rcases hended : (r.beginPoll s.now).endPoll ((c.call (receiptPoll r.id)).run s).2.now
      ((c.call (receiptPoll r.id)).run s).1 with ⟨result, r'⟩
    rw [hended] at hrun hrun' hid
    obtain hid : r'.id = r.id := hid
    refine ⟨result, r', _, _, hrun, hrun', ?_⟩
    rw [hid]
    exact halike'

/-- **They lead to the same end of a resolution**, at the same instant.  The induction is on the polls that are
left. -/
theorem AlikeFor.resolveWithin (halike : s.AlikeFor part r.id s') (h : c.channel.Parted part) (left : Nat) :
    ((c.resolveWithin left r).run s').1 = ((c.resolveWithin left r).run s).1
      ∧ ((c.resolveWithin left r).run s').2.now = ((c.resolveWithin left r).run s).2.now := by
  induction left generalizing r s s' with
  | zero =>
    obtain ⟨result, r', t, t', hpoll, hpoll', halike'⟩ := halike.poll h
    rw [Connection.run_resolveWithin, Connection.run_resolveWithin, hpoll, hpoll']
    rcases result with e | ⟨_ | o⟩
    · exact ⟨rfl, halike'.now⟩
    · exact ⟨by simp only [halike'.now], halike'.now⟩
    · exact ⟨rfl, halike'.now⟩
  | succ left ih =>
    obtain ⟨result, r', t, t', hpoll, hpoll', halike'⟩ := halike.poll h
    rw [Connection.run_resolveWithin, Connection.run_resolveWithin, hpoll, hpoll']
    rcases result with e | ⟨_ | o⟩
    · exact ⟨rfl, halike'.now⟩
    · have hpaused : (c.paused r' t).AlikeFor part r'.id (c.paused r' t') := by
        rw [Connection.paused, Connection.paused, halike'.now]
        exact halike'.waitUntil _
      exact ih hpaused
    · exact ⟨rfl, halike'.now⟩

end ClientState

/-! ## 3. What a task is bound for -/

/-- **A resolver comes to this** if it goes on alone: with this result, at this instant. -/
structure Connection.ComesTo (c : Connection σ) (r : Resolver) (s : ClientState σ)
    (result : Except ClientError Outcome) (till : Instant) : Prop where
  result : ((c.resolve r).run s).1 = result
  till : ((c.resolve r).run s).2.now = till

/-- A resolver comes to the same from states that are alike for its transaction. -/
theorem Connection.ComesTo.alike {c : Connection σ} {part : TransactionId → σ → κ} {r : Resolver}
    {s s' : ClientState σ} {result : Except ClientError Outcome} {till : Instant}
    (alone : c.ComesTo r s result till) (h : c.channel.Parted part) (halike : s.AlikeFor part r.id s') :
    c.ComesTo r s' result till := by
  obtain ⟨hresult, hnow⟩ := halike.resolveWithin h (r.policy.maxPolls.toNat - r.polls)
  exact ⟨hresult.trans alone.result, hnow.trans alone.till⟩

/-- **A task is bound for a result** at an instant: it comes to that if it goes on alone from where it is, or it
has come to it already. -/
inductive Task.BoundFor (c : Connection σ) (result : Except ClientError Outcome) (till : Instant) :
    Task → ClientState σ → Prop
  | ready {r : Resolver} {s : ClientState σ} (alone : c.ComesTo r s result till) :
    BoundFor c result till ⟨r, .ready⟩ s
  | resting {r : Resolver} {s : ClientState σ} {wake : Instant}
    (alone : c.ComesTo r (s.waitUntil wake) result till) : BoundFor c result till ⟨r, .resting wake⟩ s
  | ended {r : Resolver} {s : ClientState σ} (past : till ≤ s.now) :
    BoundFor c result till ⟨r, .ended result⟩ s

namespace Task

variable {c : Connection σ} {part : TransactionId → σ → κ} {r : Resolver} {t t' : Task}
  {s s' : ClientState σ} {result : Except ClientError Outcome} {till : Instant}

/-- A task is bound for the same in states that are alike for its transaction. -/
theorem BoundFor.alike (hbound : t.BoundFor c result till s) (h : c.channel.Parted part)
    (halike : s.AlikeFor part t.resolver.id s') : t.BoundFor c result till s' := by
  cases hbound with
  | ready alone => exact .ready (alone.alike h halike)
  | @resting r s wake alone => exact .resting (alone.alike h (halike.waitUntil wake))
  | ended past =>
    rw [← halike.now] at past
    exact .ended past

/-- **A new turn leaves a task bound for the same** if it begins no later than the task waits. -/
theorem BoundFor.newTurn (hbound : t.BoundFor c result till s) (h : c.channel.Parted part) {u : Instant}
    (hu : ∀ wake ∈ t.wakeAt, u ≤ max s.now wake) : t.BoundFor c result till (s.newTurn u) := by
  have hnow : (s.newTurn u).now = max s.now u := rfl
  cases hbound with
  | @ready r s alone =>
    -- Somebody is about to poll, so the clock does not go on.
    have hsame : max s.now u = s.now := Nat.max_eq_left (by simpa using hu 0 rfl)
    have halike : s.AlikeFor part r.id (s.newTurn u) := ⟨rfl, hnow.trans hsame, rfl, rfl⟩
    exact .ready (alone.alike h halike)
  | @resting r s wake alone =>
    -- Whether the wait begins in this turn or in the next, it ends at the same instant.
    have hsame : max (s.newTurn u).now wake = max s.now wake := by
      have hle : u ≤ max s.now wake := hu wake rfl
      rw [hnow, Nat.max_assoc, Nat.max_comm u wake, ← Nat.max_assoc]
      exact Nat.max_eq_left hle
    have halike : (s.waitUntil wake).AlikeFor part r.id ((s.newTurn u).waitUntil wake) :=
      ClientState.alikeFor_waitUntil s (s.newTurn u) rfl rfl rfl hsame
    exact .resting (alone.alike h halike)
  | ended past => exact .ended (Nat.le_trans past (Nat.le_max_left _ _))

/-- Nobody waits for longer than until the end that it is bound for. -/
theorem BoundFor.wake_le (hbound : t.BoundFor c result till s) : ∀ wake ∈ t.wakeAt, wake ≤ till := by
  intro wake hwake
  cases hbound with
  | ready =>
    obtain rfl : 0 = wake := Option.some.inj hwake
    exact Nat.zero_le _
  | @resting r s till' alone =>
    obtain rfl : till' = wake := Option.some.inj hwake
    rw [← alone.till]
    refine Nat.le_trans ?_ (c.now_le_resolveWithin _ r (s.waitUntil till'))
    rw [ClientState.now_waitUntil]
    exact Nat.le_max_right _ _
  | ended => cases hwake

/-- A task that ends as its resolver does alone has come to what it was bound for. -/
theorem boundFor_of_run (alone : c.ComesTo r s result till) {r' : Resolver}
    {result' : Except ClientError Outcome} (hrun : (c.resolve r).run s = (result', s')) :
    BoundFor c result till ⟨r', .ended result'⟩ s' := by
  obtain ⟨hresult, htill⟩ := alone
  rw [hrun] at hresult htill
  rw [← hresult]
  exact .ended (Nat.le_of_eq htill.symm)

/-- **A poll leaves a task bound for what its resolver comes to.** -/
theorem boundFor_conclude (h : c.channel.Parted part) (hopen : r.outcome? = none)
    (alone : c.ComesTo r s result till) :
    BoundFor c result till
      (conclude c.timer (r.beginPoll s.now) s.now ((c.call (receiptPoll r.id)).run s).1)
      ((c.call (receiptPoll r.id)).run s).2 := by
  have hnow : ((c.call (receiptPoll r.id)).run s).2.now = s.now := by
    rw [Connection.run_call_parted h]
    split <;> rfl
  -- Alone, the resolver goes on as this poll ends.
  have hrun := c.run_resolveWithin (r.policy.maxPolls.toNat - r.polls) r s
  rw [← Connection.resolve, Connection.run_poll hopen, hnow] at hrun
  unfold conclude
  generalize ((c.call (receiptPoll r.id)).run s) = polled at hrun hnow ⊢
  rcases hend : (r.beginPoll s.now).endPoll s.now polled.1 with ⟨e | ⟨_ | o⟩, r'⟩
  · rw [hend] at hrun
    exact boundFor_of_run alone hrun
  · rw [hend] at hrun
    -- The budget of polls allows another one.
    obtain ⟨-, hpolicy, hpolls, hlt⟩ := Resolver.endPoll_none hend
    have hleft : r.policy.maxPolls.toNat - r.polls = r'.policy.maxPolls.toNat - r'.polls + 1 := by
      have hone : r'.polls = r.polls + 1 := hpolls
      have hsame : r'.policy = r.policy := hpolicy
      have hmore : r.polls + 1 < r.policy.maxPolls.toNat := hlt
      rw [hone, hsame]
      omega
    simp only [hleft, Connection.paused, hnow] at hrun
    apply BoundFor.resting
    constructor
    · rw [Connection.resolve, ← hrun]
      exact alone.result
    · rw [Connection.resolve, ← hrun]
      exact alone.till
  · rw [hend] at hrun
    exact boundFor_of_run alone hrun

/-- **A task's own steps leave it bound for the same.** -/
theorem Steps.boundFor (hstep : Steps c t s t' s') (h : c.channel.Parted part)
    (hbound : t.BoundFor c result till s) : t'.BoundFor c result till s' := by
  cases hstep with
  | known outcome =>
    cases hbound with
    | ready alone =>
      exact boundFor_of_run alone (Connection.run_resolveWithin_of_some (Connection.run_poll_of_some outcome _) _)
  | refused outcome closed =>
    cases hbound with
    | ready alone =>
      have hpolled := boundFor_conclude h outcome alone
      rw [Connection.run_call_parted h, if_pos closed] at hpolled
      exact hpolled
  | @sent r s due result' outcome isOpen pending =>
    have hdue := Connection.pendingOf_poll h s.now s.wall r.id s.world
    rw [pending] at hdue
    cases hdue
  | replied outcome isOpen pending =>
    cases hbound with
    | ready alone =>
      have hpolled := boundFor_conclude h outcome alone
      rw [Connection.run_call_parted h, if_neg (Bool.eq_false_iff.mp isOpen), pending] at hpolled
      exact hpolled
  | concluded ends => cases hbound
  | @rested r s s' wake ends =>
    cases hbound with
    | resting alone =>
      have hdue : wake ≤ s.now := by
        by_contra hlate
        rw [endWait?_eq_none_iff.mpr (.inl (Nat.not_le.mp hlate))] at ends
        cases ends
      obtain rfl := eq_of_endWait? ends
      have halike : (s.waitUntil wake).AlikeFor part r.id { s with allowance := s.allowance - 1 } :=
        ClientState.AlikeFor.of_waitUntil hdue ⟨rfl, rfl, rfl, rfl⟩
      exact .ready (alone.alike h halike)

/-- **A step leaves the client alike for all other transactions.** -/
theorem Steps.alikeFor (hstep : Steps c t s t' s') (h : c.channel.Parted part) {id : TransactionId}
    (hid : t.resolver.id ≠ id) : s.AlikeFor part id s' := by
  cases hstep with
  | known | refused => exact ⟨rfl, rfl, rfl, rfl⟩
  | sent | replied => exact ⟨rfl, rfl, rfl, h.others _ _ _ _ hid⟩
  | concluded ends | rested ends =>
    rw [eq_of_endWait? ends]
    exact ⟨rfl, rfl, rfl, rfl⟩

/-- A task is about one transaction. -/
theorem id_conclude (timer : Timer) (r : Resolver) (now : Instant) (result : Except ClientError Response) :
    (conclude timer r now result).resolver.id = r.id := by
  have hid := r.id_endPoll now result
  unfold conclude
  rcases hend : r.endPoll now result with ⟨e | ⟨_ | o⟩, r'⟩ <;> rw [hend] at hid <;> exact hid

theorem Steps.id_eq (hstep : Steps c t s t' s') : t'.resolver.id = t.resolver.id := by
  cases hstep with
  | known | sent | rested => rfl
  | refused | replied | concluded => exact id_conclude _ _ _ _

end Task

/-! ## 4. All of them -/

namespace Connection

/-- **The last end**, at what time all resolvers have come to theirs if each of them goes on alone from a state. -/
def lastEnd (c : Connection σ) (rs : List Resolver) (s : ClientState σ) : Instant :=
  max s.now ((rs.map fun r => ((c.resolve r).run s).2.now).foldr max 0)

/-- **As if each were alone**: every resolver has the result that it comes to alone, and as much time has passed
as the longest of them takes. -/
structure AsAlone (c : Connection σ) (rs : List Resolver) (s : ClientState σ)
    (results : List (Except ClientError Outcome)) (now : Instant) : Prop where
  results : results = rs.map fun r => ((c.resolve r).run s).1
  now : now = c.lastEnd rs s

variable {c : Connection σ} {rs : List Resolver} {r : Resolver} {s : ClientState σ}

/-- No end comes after the last. -/
theorem le_lastEnd (hr : r ∈ rs) : ((c.resolve r).run s).2.now ≤ c.lastEnd rs s :=
  Nat.le_trans (List.le_max_of_le (List.mem_map_of_mem hr) (Nat.le_refl _)) (Nat.le_max_right _ _)

/-- The last end comes no later than all of them. -/
theorem lastEnd_le {till : Instant} (hs : s.now ≤ till) (hrs : ∀ r ∈ rs, ((c.resolve r).run s).2.now ≤ till) :
    c.lastEnd rs s ≤ till := by
  refine Nat.max_le.mpr ⟨hs, List.max_le_of_forall_le _ _ ?_⟩
  intro ended hended
  obtain ⟨r, hr, rfl⟩ := List.mem_map.mp hended
  exact hrs r hr

/-- **All tasks are under way**: each one is bound for what its resolver comes to alone from the beginning, and
the clock has not gone on past the last end. -/
structure Underway (c : Connection σ) (rs : List Resolver) (s : ClientState σ)
    (k : List Task × ClientState σ) : Prop where
  length : k.1.length = rs.length
  bound : ∀ (place : Nat) (r : Resolver) (t : Task), rs[place]? = some r → k.1[place]? = some t →
    t.resolver.id = r.id ∧ t.BoundFor c ((c.resolve r).run s).1 ((c.resolve r).run s).2.now k.2
  started : s.now ≤ k.2.now
  inTime : k.2.now ≤ c.lastEnd rs s

variable {part : TransactionId → σ → κ} {tasks : List Task} {s' : ClientState σ}

/-- At the beginning all are under way. -/
theorem underway_start (c : Connection σ) (rs : List Resolver) (s : ClientState σ) :
    c.Underway rs s (rs.map fun r => ⟨r, .ready⟩, s) where
  length := List.length_map _
  bound place r t hr ht := by
    rw [List.getElem?_map, hr] at ht
    obtain rfl := Option.some.inj ht
    exact ⟨rfl, .ready ⟨rfl, rfl⟩⟩
  started := Nat.le_refl _
  inTime := Nat.le_max_left _ _

/-- Every task is that of a resolver. -/
theorem Underway.exists_resolver {k : List Task × ClientState σ} (hk : c.Underway rs s k) {place : Nat}
    {t : Task} (ht : k.1[place]? = some t) : ∃ r, rs[place]? = some r := by
  have hplace := (List.getElem?_eq_some_iff.mp ht).1
  rw [hk.length] at hplace
  exact ⟨_, List.getElem?_eq_getElem hplace⟩

/-- Resolvers at different places are about different transactions. -/
theorem id_ne_of_places {place place' : Nat} {r r' : Resolver} (hdistinct : (rs.map (·.id)).Nodup)
    (hr : rs[place]? = some r) (hr' : rs[place']? = some r') (hplaces : place' ≠ place) : r.id ≠ r'.id := by
  intro hsame
  have hlt : place' < (rs.map (·.id)).length := by
    rw [List.length_map]
    exact (List.getElem?_eq_some_iff.mp hr').1
  apply hplaces
  apply (List.getElem?_inj hlt hdistinct).mp
  rw [List.getElem?_map, List.getElem?_map, hr, hr', Option.map_some, Option.map_some, hsame]

/-- **A step** of one task, whose resolver is about another transaction than the others, leaves all under
way. -/
theorem Underway.step (hk : c.Underway rs s (tasks, s')) (h : c.channel.Parted part)
    (hdistinct : (rs.map (·.id)).Nodup) {place : Nat} {t t' : Task} {s'' : ClientState σ}
    (here : tasks[place]? = some t) (hstep : Task.Steps c t s' t' s'') :
    c.Underway rs s (tasks.set place t', s'') := by
  obtain ⟨r, hr⟩ := hk.exists_resolver here
  obtain ⟨hid, hbound⟩ := hk.bound place r t hr here
  have hnow := hstep.frame.1
  refine ⟨by simpa using hk.length, ?_, ?_, ?_⟩
  · intro place' r' u hr' hu
    by_cases hplace : place' = place
    · -- The task itself.
      rw [hplace] at hr' hu
      obtain rfl : r = r' := Option.some.inj (hr.symm.trans hr')
      simp only [List.getElem?_set_self (List.getElem?_eq_some_iff.mp here).1] at hu
      obtain rfl := Option.some.inj hu
      exact ⟨hstep.id_eq.trans hid, hstep.boundFor h hbound⟩
    · -- Nobody else notices.
      simp only [List.getElem?_set_ne (Ne.symm hplace)] at hu
      obtain ⟨hid', hbound'⟩ := hk.bound place' r' u hr' hu
      have hother : t.resolver.id ≠ u.resolver.id := by
        rw [hid, hid']
        exact id_ne_of_places hdistinct hr hr' hplace
      exact ⟨hid', hbound'.alike h (hstep.alikeFor h hother)⟩
  · simp only [hnow]
    exact hk.started
  · simp only [hnow]
    exact hk.inTime

/-- **A new turn**, no later than anyone waits and no later than the last end, leaves all under way. -/
theorem Underway.newTurn (hk : c.Underway rs s (tasks, s')) (h : c.channel.Parted part) {u : Instant}
    (hu : ∀ t ∈ tasks, ∀ wake ∈ t.wakeAt, u ≤ max s'.now wake) (hlast : u ≤ c.lastEnd rs s) :
    c.Underway rs s (tasks, s'.newTurn u) where
  length := hk.length
  bound place r t hr ht := by
    obtain ⟨hid, hbound⟩ := hk.bound place r t hr ht
    exact ⟨hid, hbound.newTurn h (hu t (List.mem_of_getElem? ht))⟩
  started := Nat.le_trans hk.started (Nat.le_max_left _ _)
  inTime := Nat.max_le.mpr ⟨hk.inTime, hlast⟩

/-- **Every move leaves all under way.** -/
theorem Underway.move {k k' : List Task × ClientState σ} (hk : c.Underway rs s k) (h : c.channel.Parted part)
    (hdistinct : (rs.map (·.id)).Nodup) (hmove : Move c k k') : c.Underway rs s k' := by
  cases hmove with
  | step here goes => exact hk.step h hdistinct here (Task.steps_of_step? goes)
  | @later tasks s' wake stuck next =>
    obtain ⟨hmem, hleast⟩ := List.min?_eq_some_iff.mp next
    refine hk.newTurn h ?_ ?_
    · intro t ht wake' hwake'
      exact Nat.le_trans (hleast wake' (List.mem_filterMap.mpr ⟨t, ht, hwake'⟩)) (Nat.le_max_right _ _)
    · -- Whoever waits for this instant ends no sooner.
      obtain ⟨t, ht, hwake⟩ := List.mem_filterMap.mp hmem
      obtain ⟨place, hplace⟩ := List.mem_iff_getElem?.mp ht
      obtain ⟨r, hr⟩ := hk.exists_resolver hplace
      obtain ⟨-, hbound⟩ := hk.bound place r t hr hplace
      exact Nat.le_trans (hbound.wake_le wake hwake) (le_lastEnd (List.mem_of_getElem? hr))
  | again stuck next spent =>
    exact hk.newTurn h (fun _ _ _ _ => Nat.le_max_left _ _) hk.inTime

/-- **Any moves leave all under way.** -/
theorem underway_of_moves (h : c.channel.Parted part) (hdistinct : (rs.map (·.id)).Nodup)
    {k : List Task × ClientState σ}
    (hmoves : Relation.ReflTransGen (Move c) (rs.map fun r => ⟨r, .ready⟩, s) k) : c.Underway rs s k := by
  induction hmoves with
  | refl => exact c.underway_start rs s
  | tail _ hmove ih => exact ih.move h hdistinct hmove

/-- The results of tasks that have all ended, place by place. -/
theorem filterMap_result? {f : Resolver → Except ClientError Outcome} (hlength : tasks.length = rs.length)
    (h : ∀ (place : Nat) (r : Resolver) (t : Task), rs[place]? = some r → tasks[place]? = some t →
      t.result? = some (f r)) : tasks.filterMap Task.result? = rs.map f := by
  induction rs generalizing tasks with
  | nil =>
    rw [List.length_eq_zero_iff.mp hlength]
    rfl
  | cons r rs ih =>
    obtain ⟨t, tasks, rfl⟩ := List.exists_cons_of_length_eq_add_one hlength
    have hrest := ih (Nat.succ.inj hlength) fun place r t hr ht => h (place + 1) r t hr ht
    rw [List.filterMap_cons, h 0 r t rfl rfl, hrest, List.map_cons]

/-- **When all have ended it is as if each were alone.** -/
theorem Underway.asAlone (hk : c.Underway rs s (tasks, s')) (hended : ∀ t ∈ tasks, t.result?.isSome = true) :
    c.AsAlone rs s (tasks.filterMap Task.result?) s'.now := by
  have hall : ∀ (place : Nat) (r : Resolver) (t : Task), rs[place]? = some r → tasks[place]? = some t →
      t.result? = some ((c.resolve r).run s).1 ∧ ((c.resolve r).run s).2.now ≤ s'.now := by
    intro place r t hr ht
    obtain ⟨-, hbound⟩ := hk.bound place r t hr ht
    have hresult := hended t (List.mem_of_getElem? ht)
    cases hbound with
    | ready | resting => cases hresult
    | ended past => exact ⟨rfl, past⟩
  refine ⟨filterMap_result? hk.length fun place r t hr ht => (hall place r t hr ht).1, ?_⟩
  refine Nat.le_antisymm hk.inTime (lastEnd_le hk.started ?_)
  intro r hr
  obtain ⟨place, hplace⟩ := List.mem_iff_getElem?.mp hr
  have hlt : place < tasks.length := by
    rw [hk.length]
    exact (List.getElem?_eq_some_iff.mp hplace).1
  exact (hall place r _ hplace (List.getElem?_eq_getElem hlt)).2

end Connection

/-! ## 5. At a node in memory -/

namespace Emulator

variable [SignatureScheme]

/-- **What a node has of a transaction**: whether it can be reached at all, and the receipt that it keeps. -/
def knows (e : Emulator) (id : TransactionId) : Bool × Option Retained :=
  (e.offline, e.ledger.receipts.get? id)

/-- What a poll is replied depends on what the node has of its transaction. -/
theorem reply_of_knows {e e' : Emulator} {id : TransactionId} (h : e'.knows id = e.knows id)
    (now : Timestamp) : (e'.call (receiptPoll id) now).1 = (e.call (receiptPoll id) now).1 := by
  obtain ⟨hoffline, hreceipt⟩ := Prod.mk.inj h
  simp only [call, handle, receiptPoll, Ledger.handle, Ledger.ask, Ledger.answer, hoffline, hreceipt]
  by_cases honline : e.offline = true
  · rw [if_pos honline, if_pos honline]
  · rw [if_neg honline, if_neg honline]
    cases e.ledger.receipts.get? id <;> rfl

/-- What a node has of a transaction after a poll. -/
theorem knows_call (e : Emulator) (id other : TransactionId) (now : Timestamp) :
    (e.call (receiptPoll other) now).2.knows id
      = (e.offline,
        if e.offline then e.ledger.receipts.get? id
        else (e.ledger.receipts.get? id).map (Retained.asked ⟨.answer, .transactionReceipt other⟩ id)) := by
  unfold call
  by_cases honline : e.offline = true
  · simp only [if_pos honline]
    rfl
  · simp only [if_neg honline]
    rw [← Ledger.get?_receipts_asked e.config]
    rfl

/-- **A node in memory keeps transactions apart.** -/
theorem parted (view : σ → Emulator) (update : σ → Emulator → σ) (hlens : ∀ w e, view (update w e) = e) :
    (channel view update).Parted fun id w => (view w).knows id where
  atOnce now id w := ⟨_, rfl⟩
  reply now id w w' hsame := congrArg Delivery.atOnce (reply_of_knows hsame now)
  polled now id w w' hsame := by
    have hworld : ∀ w, view ((channel view update).call now (receiptPoll id) w).2
        = ((view w).call (receiptPoll id) now).2 := fun w => hlens _ _
    obtain ⟨hoffline, hreceipt⟩ := Prod.mk.inj hsame
    rw [hworld, hworld, knows_call, knows_call, hoffline, hreceipt]
  others now id other w hne := by
    have hworld : view ((channel view update).call now (receiptPoll other) w).2
        = ((view w).call (receiptPoll other) now).2 := hlens _ _
    have hleft : Retained.asked ⟨.answer, .transactionReceipt other⟩ id = fun r => r := by
      funext r
      apply r.asked_of_ne
      simpa using hne
    rw [hworld, knows_call, hleft, Option.map_id', ite_self]
    rfl

/-- **Resolving side by side is resolving each alone**, at a node in memory and for any resolvers of different
transactions.  The results come in the order of the resolvers, each of them is what the resolver comes to alone
from the same state, and all of them together take as long as the longest.

Nor does it matter who goes on first when several could: moves come to an end however they are chosen, and where
no move is left it is as if each were alone.

The work is in `Underway.step`: whichever task goes on, each stays bound for the end that it comes to alone. -/
theorem resolveAll_as_alone (view : σ → Emulator) (update : σ → Emulator → σ)
    (hlens : ∀ w e, view (update w e) = e) {c : Connection σ} (hchannel : c.channel = channel view update)
    {rs : List Resolver} (hdistinct : (rs.map (·.id)).Nodup) (s : ClientState σ) :
    c.AsAlone rs s ((c.resolveAll rs).run s).1 ((c.resolveAll rs).run s).2.now
      ∧ (WellFounded fun after before => Move c before after)
      ∧ ∀ tasks s', Relation.ReflTransGen (Move c) (rs.map fun r => ⟨r, .ready⟩, s) (tasks, s') →
          (∀ after, ¬ Move c (tasks, s') after) → c.AsAlone rs s (tasks.filterMap Task.result?) s'.now := by
  have hparted : c.channel.Parted fun id w => (view w).knows id := by
    rw [hchannel]
    exact parted view update hlens
  refine ⟨?_, Move.wellFounded c, ?_⟩
  · obtain ⟨tasks, hmoves, hended, hresults⟩ := c.resolveAll_moves rs s
    rw [hresults]
    exact (Connection.underway_of_moves hparted hdistinct hmoves).asAlone hended
  · intro tasks s' hmoves hfinal
    exact (Connection.underway_of_moves hparted hdistinct hmoves).asAlone (Move.ended_of_final hfinal)

end Emulator

namespace Trial

/-- **A node that holds back two receipts**, that of the deletion and that of a transfer. -/
def busyNode : Emulator :=
  letI := scheme
  { holdingNodeLater with
    ledger := (holdingNodeLater.ledger.submit holdingNodeLater.config signedIdleTransfer ⟨1001, 0⟩).2 }

/-- **Resolvers of three transactions**: the deletion, the transfer with two polls at the most, and one that the
node has not seen with three. -/
def company : List Resolver :=
  [.start deletion.id {}, .start idleTransfer.id (.fixed (.ofSeconds 2) 2),
    .start ⟨.simple 9, ⟨1001, 0⟩⟩ (.fixed (.ofSeconds 1) 3)]

/-- **The state of a client** of that node. -/
def busyState : ClientState Emulator :=
  { holdingState with world := busyNode }

end Trial

open Trial in
set_option maxRecDepth 10000 in
/-- The deletion is found after seven seconds; the others are given up long before. -/
theorem Emulator.resolveAll_as_alone_busy :
    letI := scheme
    (company.map (·.id)).Nodup
      ∧ ((holdingConnection.resolveAll company).run busyState).1.map (·.toOption)
        = [ some (.success ⟨.success, none⟩)
          , some (.unresolved 2 (2 * nanosPerSecond))
          , some (.unresolved 3 (2 * nanosPerSecond)) ]
      ∧ holdingConnection.AsAlone company busyState ((holdingConnection.resolveAll company).run busyState).1
          (busyState.now + 7 * nanosPerSecond) := by
  let := scheme
  have hdistinct : (company.map (·.id)).Nodup := by decide +kernel
  have hresults : ((holdingConnection.resolveAll company).run busyState).1.map (·.toOption)
      = [ some (.success ⟨.success, none⟩)
        , some (.unresolved 2 (2 * nanosPerSecond))
        , some (.unresolved 3 (2 * nanosPerSecond)) ] := by decide +kernel
  have hnow : ((holdingConnection.resolveAll company).run busyState).2.now
      = busyState.now + 7 * nanosPerSecond := by decide +kernel
  obtain ⟨halone, -⟩ := Emulator.resolveAll_as_alone id (fun _ e => e) (fun _ _ => rfl)
    (c := holdingConnection) rfl hdistinct busyState
  rw [hnow] at halone
  exact ⟨hdistinct, hresults, halone⟩

end ShardLedger
