import ShardLedger.Crypto.Ed25519
import ShardLedger.Crypto.KeyText
import ShardLedger.Node.CommandLine
import ShardLedger.Rpc.Dispatch
import Std.Time.DateTime.Timestamp
/-
The node as a program.

It serves one client over the standard streams: a request on each line of the input, its response on a
line of the output.  All that it decides is decided elsewhere; here are the clock, the random numbers,
the environment and the streams.
-/

set_option autoImplicit false

namespace ShardLedger

/-- **Read the wall clock.** -/
def readClock : IO Timestamp := do
  let t ← Std.Time.Timestamp.now
  return Timestamp.ofNanos (saturateI64 t.val.toNanoseconds.val)

/-- **A fresh secret key.** -/
def freshKey : IO SecretKey := do
  let bytes ← IO.getRandomBytes 32
  match SecretKey.ofSeed? bytes.data.toList with
  | some key => return key
  | none => throw (IO.userError "no random bytes")

/-- **Answer lines** until the input ends. -/
partial def answerLines (c : Config) (l : Ledger) : IO Unit := do
  let line ← (← IO.getStdin).getLine
  if line.isEmpty then return
  else if Text.isBlankText line.toList then answerLines c l
  else
    let (reply, l) := Rpc.dispatch c l line.toList (← readClock)
    let out ← IO.getStdout
    out.putStrLn (Wired.toJson reply).text
    out.flush
    answerLines c l

/-- **Run a node.** -/
def runNode (s : CommandLine.RunSettings) : IO UInt32 := do
  let operatorKey ← match s.operatorKey with
    | some text =>
      match SecretKey.parse text with
      | .ok key => pure key
      | .error e => throw (IO.userError e.message)
    | none => do
      let key ← freshKey
      IO.println s!"Operator secret key : {key.text}"
      pure key
  let config : Config :=
    { nodeAccounts := [s.nodeAccount], consensusPolls := some s.consensusPolls }
  let now ← readClock
  let collector ← freshKey
  let ledger := (Ledger.empty config).createAccount s.operator operatorKey.publicKey s.genesisBalance now
  let ledger := ledger.createAccount s.nodeAccount collector.publicKey 0 now
  IO.eprintln (logDirectives s.verbose.toNat)
  answerLines config ledger
  return 0

/-- **The environment variables of the settings.** -/
def readEnvironment : IO CommandLine.Environment := do
  let names := CommandLine.Setting.all.filterMap CommandLine.Setting.variable?
  let found ← names.mapM fun name => do return (name, ← IO.getEnv name)
  return fun name => (found.find? fun e => e.1 = name).bind Prod.snd

end ShardLedger

open ShardLedger in
/-- **The program.** -/
def main (args : List String) : IO UInt32 := do
  match CommandLine.parse (← readEnvironment) args with
  | .error e =>
    IO.eprintln e.name
    return 2
  | .ok .keygen => do
    let key ← freshKey
    IO.println s!"Secret key : {key.text}"
    IO.println s!"Public key : {key.publicKey.text}"
    return 0
  | .ok .version => do
    IO.println s!"json-rpc       {Rpc.protocolVersion}"
    return 0
  | .ok (.run s) => runNode s
