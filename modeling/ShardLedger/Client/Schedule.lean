import ShardLedger.Client.Resolver
/-
Resolving several transactions side by side.

The resolvers share one connection and one steady clock.  They go on in turns.  In a turn each one that
has been woken goes as far as it can without waiting; when all of them wait, the clock goes on to the
next instant that one of them waits for, and the next turn begins.  A wait whose end has come already
does not cost a resolver its turn.

The waits that may end in one turn are shared by all.  When they are used up, whoever comes to a wait has
to stand back, and the next turn begins at the same instant.

Small companies and large ones differ in who is woken.  In a small company everyone is looked at in every
turn, in the order of the list.  In a large one only those have a turn whose wait is over, in the order
in which they began to wait; and of those who stood back the last one comes first.
-/

set_option autoImplicit false

namespace ShardLedger

/-! ## 1. One resolver among others -/

/-- **What a resolver is about.** -/
inductive Stage where
  /-- It is about to poll. -/
  | ready
  /-- A poll is under way: when it ends, and how. -/
  | polling (due : Instant) (result : Except ClientError Response)
  /-- It waits before the next poll. -/
  | resting (till : Instant)
  /-- It has ended. -/
  | ended (result : Except ClientError Outcome)

/-- **A resolver at work.** -/
structure Task where
  resolver : Resolver
  stage : Stage

namespace Task

/-- **The instant that a task waits for**, if it has not ended. -/
def wakeAt (t : Task) : Option Instant :=
  match t.stage with
  | .ready => some 0
  | .polling due _ => some due
  | .resting till => some till
  | .ended _ => none

/-- **The result of a task** that has ended. -/
def result? (t : Task) : Option (Except ClientError Outcome) :=
  match t.stage with
  | .ended r => some r
  | _ => none

/-- **A bound on the steps** that a task can still take. -/
def steps (t : Task) : Nat :=
  3 * (t.resolver.policy.maxPolls.toNat - t.resolver.polls) + 4

/-- **End a poll** whose request has ended. -/
def conclude (timer : Timer) (r : Resolver) (now : Instant) (result : Except ClientError Response) :
    Task :=
  match r.endPoll now result with
  | (.error e, r) => ⟨r, .ended (.error e)⟩
  | (.ok (some o), r) => ⟨r, .ended (.ok o)⟩
  | (.ok none, r) => ⟨r, .resting (timer.pauseEnd now (r.delay now))⟩

variable {σ : Type}

/-- **One step of a task** in a turn, or nothing if it has to wait or to stand back. -/
def step? (c : Connection σ) (t : Task) (s : ClientState σ) : Option (Task × ClientState σ) :=
  match t.stage with
  | .ready =>
    match t.resolver.outcome? with
    | some o => some (⟨t.resolver, .ended (.ok o)⟩, s)
    | none =>
      let r := t.resolver.beginPoll s.now
      match (c.send (.query ⟨.answer, r.question⟩)).run.run s with
      | (.ok ⟨some due, result⟩, s) => some (⟨r, .polling due result⟩, s)
      | (.ok ⟨none, result⟩, s) => some (conclude c.timer r s.now result, s)
      | (.error e, s) => some (conclude c.timer r s.now (.error e), s)
  | .polling due result =>
    (s.endWait? due).map fun s => (conclude c.timer t.resolver s.now result, s)
  | .resting till => (s.endWait? till).map fun s => (⟨t.resolver, .ready⟩, s)
  | .ended _ => none

/-- **Go as far as possible without waiting**, within a bound of steps. -/
def advance (c : Connection σ) : (bound : Nat) → Task → ClientState σ → Task × ClientState σ
  | 0, t, s => (t, s)
  | bound + 1, t, s =>
    match t.step? c s with
    | some (t, s) => advance c bound t s
    | none => (t, s)

end Task

/-! ## 2. Turns -/

/-- **The most resolvers that are looked at in every turn.** -/
def smallCompany : Nat := 30

/-- **Resolvers side by side.**  Everyone has a place, which does not change. -/
structure Company where
  tasks : List Task
  /-- The places of those who go on in this turn, in order. -/
  woken : List Nat
  /-- The places of those who wait, in the order in which they began to. -/
  queue : List Nat
  /-- The places of those who stood back in this turn, the last one first. -/
  back : List Nat

namespace Company

/-- **Resolvers that are about to begin**: in the first turn everyone goes on. -/
def start (rs : List Resolver) : Company :=
  ⟨rs.map fun r => ⟨r, .ready⟩, List.range rs.length, [], []⟩

/-- **The next instant** that someone waits for, unless all have ended. -/
def nextWake (k : Company) : Option Instant :=
  (k.tasks.filterMap Task.wakeAt).min?

/-- **The wait at a place is over** at an instant. -/
def isDue (k : Company) (now : Instant) (place : Nat) : Bool :=
  (k.tasks[place]?.bind Task.wakeAt).any fun t => t ≤ now

/-- **A bound on the turns**: in every other turn at least, someone takes a step. -/
def turns (k : Company) : Nat :=
  2 * (k.tasks.map Task.steps).sum + 2

variable {σ : Type}

/-- **The task at a place goes on.**  If it has not ended then, it waits in the queue, or it stands
back if the turn allows no more waits to end. -/
def goOn (c : Connection σ) (k : Company) (s : ClientState σ) (place : Nat) :
    Company × ClientState σ :=
  match k.tasks[place]? with
  | none => (k, s)
  | some t =>
    let (t, s) := t.advance c t.steps s
    let k := { k with tasks := k.tasks.set place t }
    if t.result?.isSome then (k, s)
    else if s.allowance = 0 then ({ k with back := place :: k.back }, s)
    else ({ k with queue := k.queue ++ [place] }, s)

/-- **One turn.** -/
def turn (c : Connection σ) (k : Company) (s : ClientState σ) : Company × ClientState σ :=
  k.woken.foldl (fun ks place => goOn c ks.1 ks.2 place) (k, s)

/-- **The next turn**, unless all have ended.  While someone stands back the clock does not go on. -/
def next (k : Company) (s : ClientState σ) : Option (Company × ClientState σ) :=
  k.nextWake.map fun t =>
    let s := s.newTurn (if k.back.isEmpty then t else s.now)
    let k :=
      if k.tasks.length ≤ smallCompany then
        { k with woken := List.range k.tasks.length, queue := [] }
      else if k.back.isEmpty then
        { k with
          woken := k.queue.filter fun place => k.isDue s.now place
          queue := k.queue.filter fun place => ! k.isDue s.now place }
      else { k with woken := k.back }
    ({ k with back := [] }, s)

/-- **Turn after turn** until all have ended, within a bound. -/
def run (c : Connection σ) : (bound : Nat) → Company → ClientState σ → Company × ClientState σ
  | 0, k, s => (k, s)
  | bound + 1, k, s =>
    let (k, s) := k.turn c s
    match k.next s with
    | none => (k, s)
    | some (k, s) => run c bound k s

end Company

/-! ## 3. All of them -/

/-- **Resolve several transactions.**  The results come in the order of the resolvers. -/
def Connection.resolveAll {σ : Type} (c : Connection σ) (rs : List Resolver) :
    StateM (ClientState σ) (List (Except ClientError Outcome)) := fun s =>
  let k := Company.start rs
  let (k, s) := k.run c k.turns s
  (k.tasks.filterMap Task.result?, s)

end ShardLedger
