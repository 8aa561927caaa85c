import ShardLedger.Client.Connection
import ShardLedger.Ledger.Inquiry
/-
A node in memory.

The node answers requests from a ledger of its own, at once.  It counts the requests that reach it as
a peer of a connection, and can be put offline, when it answers none of them.
-/

set_option autoImplicit false

namespace ShardLedger

/-- **A node in memory.** -/
structure Emulator where
  config : Config
  ledger : Ledger
  offline : Bool
  /-- Requests that reached the node over a connection. -/
  requests : Nat

namespace Emulator

/-- **A node with an empty ledger.** -/
def start (c : Config) : Emulator :=
  ⟨c, .empty c, false, 0⟩

variable [SignatureScheme]

/-- **Handle a request** directly. -/
def handle (e : Emulator) (r : Request) (now : Timestamp) : Response × Emulator :=
  let (response, ledger) := e.ledger.handle e.config r now
  (response, { e with ledger := ledger })

/-- **Answer a request over a connection.** -/
def call (e : Emulator) (r : Request) (now : Timestamp) :
    Except TransportError Response × Emulator :=
  let e := { e with requests := e.requests + 1 }
  if e.offline then (.error .unreachable, e)
  else
    let (response, e) := e.handle r now
    (.ok response, e)

/-- **The channel to a node in memory**, found in a world by `view` and put back by `update`.  Replies
take no time, and there is nothing to close. -/
def channel {σ : Type} (view : σ → Emulator) (update : σ → Emulator → σ) : Channel σ where
  address := "emulator"
  call now r w :=
    let (reply, e) := (view w).call r now
    (.atOnce reply, update w e)
  close w := w

end Emulator

end ShardLedger
