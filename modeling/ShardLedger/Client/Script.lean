import ShardLedger.Client.Connection
/-
A scripted peer.

The peer answers the requests of a connection from a list, one entry for each, and remembers what it
has seen.  When the list is used up the channel counts as closed.
-/

set_option autoImplicit false

namespace ShardLedger

/-- **What a scripted peer has seen.** -/
inductive Sighting where
  | request (r : Request)
  | close

/-- **A scripted peer.** -/
structure Script where
  entries : List Delivery
  seen : List Sighting

namespace Script

/-- **Answer with the next entry.** -/
def answer (s : Script) (r : Request) : Delivery × Script :=
  let seen := s.seen ++ [.request r]
  match s.entries with
  | [] => (.atOnce (.error .closed), { s with seen := seen })
  | d :: rest => (d, ⟨rest, seen⟩)

/-- **The channel to a scripted peer**, found in a world by `view` and put back by `update`. -/
def channel {σ : Type} (view : σ → Script) (update : σ → Script → σ) : Channel σ where
  address := "script"
  call _ r w :=
    let (d, s) := (view w).answer r
    (d, update w s)
  close w := update w { view w with seen := (view w).seen ++ [.close] }

end Script

end ShardLedger
