import ShardLedger.Client.Operations
/-
A witness of what is sent.

A channel can be made to remember the requests that reach it, in the order in which they do, beside the
world it works on.  What an operation sends can then be said of any channel whatever.  A round trip sends
its request at once, and no waiting sends another.
-/

set_option autoImplicit false

namespace ShardLedger

variable {σ : Type}

/-- **The channel with a memory** of the requests that reach it. -/
def Channel.witnessed (c : Channel σ) : Channel (σ × List Request) where
  address := c.address
  call now r w :=
    let (delivery, world) := c.call now r w.1
    (delivery, (world, w.2 ++ [r]))
  close w := (c.close w.1, w.2)

/-- **The connection on the channel with a memory.** -/
def Connection.witnessed (c : Connection σ) : Connection (σ × List Request) where
  channel := c.channel.witnessed
  requestTimeout := c.requestTimeout
  timer := c.timer

/-- **A state with nothing remembered yet.** -/
def ClientState.witnessed (s : ClientState σ) : ClientState (σ × List Request) where
  wall := s.wall
  now := s.now
  allowance := s.allowance
  mint := s.mint
  closed := s.closed
  world := (s.world, [])

/-- **What an operation gives** when it is begun in a state, and the requests it sends. -/
def Connection.witness {α : Type} (c : Connection σ)
    (operation : Connection (σ × List Request) → ClientM (σ × List Request) α)
    (s : ClientState σ) : Except ClientError α × List Request :=
  let (result, after) := (operation c.witnessed).run s.witnessed
  (result, after.world.2)

/-! ## What a round trip sends -/

/-- One step of an operation after another, unless it fails. -/
theorem ClientM.run_bind {α β : Type} (x : ClientM σ α) (f : α → ClientM σ β)
    (s : ClientState σ) :
    (x >>= f).run s = match x.run s with
      | (.ok a, s') => (f a).run s'
      | (.error e, s') => (.error e, s') := by
  have hbind : (x >>= f).run s = (ExceptT.bindCont f (x.run s).1).run (x.run s).2 := rfl
  rw [hbind]
  rcases x.run s with ⟨_ | _, _⟩ <;> rfl

/-- Waiting has nothing to do with the world. -/
theorem ClientState.world_waitUntil (s : ClientState σ) (t : Instant) :
    (s.waitUntil t).world = s.world := by
  unfold waitUntil endWait?
  split
  · rename_i s' h
    split at h
    · obtain rfl := Option.some.inj h
      rfl
    · cases h
  · rfl

namespace Connection

/-- Waiting for a reply has nothing to do with the world. -/
theorem world_await (p : Pending) (s : ClientState σ) : ((await p).run s).2.world = s.world := by
  obtain ⟨due, result⟩ := p
  cases due with
  | none => cases result <;> rfl
  | some t => cases result <;> exact s.world_waitUntil t

/-- A round trip is refused on a closed connection, and otherwise calls the channel and waits. -/
theorem run_call (c : Connection σ) (r : Request) (s : ClientState σ) :
    (c.call r).run s
      = if s.closed then (.error .connectionClosed, s)
        else (await (c.pendingOf s.now (c.channel.call s.wall r s.world).1)).run
          { s with world := (c.channel.call s.wall r s.world).2 } := by
  obtain ⟨wall, now, allowance, mint, closed, world⟩ := s
  cases closed <;> rfl

/-- A round trip sends its request, unless the connection is closed. -/
theorem sent_call (c : Connection σ) (r : Request) (s : ClientState (σ × List Request)) :
    ((c.witnessed.call r).run s).2.world.2
      = if s.closed then s.world.2 else s.world.2 ++ [r] := by
  rw [run_call]
  by_cases h : s.closed = true
  · rw [if_pos h, if_pos h]
  · rw [if_neg h, if_neg h, world_await]
    rfl

end Connection

end ShardLedger
