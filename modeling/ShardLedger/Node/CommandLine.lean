import ShardLedger.AccountId
import ShardLedger.Node.SocketAddress
/-
The command line of a node.

The first argument names a command; options follow it.  A long option takes its value after an equals
sign or as the next argument, a short one also right behind its letter, and short options without
values may stand together.  A setting may be given once.  What is not given comes from the environment,
and else from a default.

A value that is a next argument is judged only when something else follows it that makes sense, or when
the arguments end; so an option that nobody knows is reported before a value that came earlier.
-/

set_option autoImplicit false

namespace ShardLedger

namespace CommandLine

/-! ## 1. Errors and results -/

/-- **Why a command line was not carried out.**  Asking for help or for the version is among these. -/
inductive UsageError where
  | displayHelp
  | displayVersion
  /-- There is no command, so help is shown. -/
  | displayHelpOnMissing
  | invalidSubcommand
  | unknownArgument
  /-- A value is missing, or is none of those to choose from. -/
  | invalidValue
  /-- A value does not have the form wanted. -/
  | valueValidation
  /-- A value was given to an option that takes none. -/
  | tooManyValues
  /-- A setting was given twice. -/
  | argumentConflict
deriving DecidableEq, Repr

/-- **The name of a usage error.** -/
def UsageError.name : UsageError → String
  | .displayHelp => "DisplayHelp"
  | .displayVersion => "DisplayVersion"
  | .displayHelpOnMissing => "DisplayHelpOnMissingArgumentOrSubcommand"
  | .invalidSubcommand => "InvalidSubcommand"
  | .unknownArgument => "UnknownArgument"
  | .invalidValue => "InvalidValue"
  | .valueValidation => "ValueValidation"
  | .tooManyValues => "TooManyValues"
  | .argumentConflict => "ArgumentConflict"

/-- **How log lines are written.** -/
inductive LogFormat where
  | pretty
  | compact
  | json
deriving DecidableEq, Repr

/-- **The settings of a running node.** -/
structure RunSettings where
  listen : SocketAddress
  operator : AccountId
  operatorKey : Option String
  genesisBalance : UInt64
  nodeAccount : AccountId
  consensusPolls : UInt32
  logFormat : LogFormat
  /-- How often more log lines were asked for. -/
  verbose : UInt8
deriving DecidableEq

/-- **What is to be done.** -/
inductive Command where
  | run (s : RunSettings)
  | keygen
  | version
deriving DecidableEq

/-! ## 2. Settings -/

/-- **A setting that takes a value.** -/
inductive Setting where
  | listen
  | operator
  | operatorKey
  | genesisBalance
  | nodeAccount
  | consensusPolls
  | logFormat
deriving DecidableEq, Repr

/-- **All settings**, in the order in which the environment is asked for them. -/
def Setting.all : List Setting :=
  [.listen, .operator, .operatorKey, .genesisBalance, .nodeAccount, .consensusPolls, .logFormat]

/-- **The long name of a setting.** -/
def Setting.longName : Setting → String
  | .listen => "listen"
  | .operator => "operator"
  | .operatorKey => "operator-key"
  | .genesisBalance => "genesis-balance"
  | .nodeAccount => "node-account"
  | .consensusPolls => "consensus-polls"
  | .logFormat => "log-format"

/-- **The environment variable of a setting.** -/
def Setting.variable? : Setting → Option String
  | .listen => some "SHARDLINE_LISTEN"
  | .operator => some "SHARDLINE_OPERATOR"
  | .operatorKey => some "SHARDLINE_OPERATOR_KEY"
  | .nodeAccount => some "SHARDLINE_NODE_ACCOUNT"
  | .logFormat => some "SHARDLINE_LOG_FORMAT"
  | .genesisBalance => none
  | .consensusPolls => none

/-- **The settings given so far.** -/
structure Given where
  listen : Option SocketAddress := none
  operator : Option AccountId := none
  operatorKey : Option String := none
  genesisBalance : Option UInt64 := none
  nodeAccount : Option AccountId := none
  consensusPolls : Option UInt32 := none
  logFormat : Option LogFormat := none

/-- **A setting was given.** -/
def Given.has (g : Given) : Setting → Bool
  | .listen => g.listen.isSome
  | .operator => g.operator.isSome
  | .operatorKey => g.operatorKey.isSome
  | .genesisBalance => g.genesisBalance.isSome
  | .nodeAccount => g.nodeAccount.isSome
  | .consensusPolls => g.consensusPolls.isSome
  | .logFormat => g.logFormat.isSome

/-- **A value of the form wanted**, or the error that says it is none. -/
def wanted {α : Type} (value : Option α) (otherwise : UsageError) : Except UsageError α :=
  match value with
  | some a => .ok a
  | none => .error otherwise

/-- **Read an account** as a value. -/
def account (s : String) : Except UsageError AccountId :=
  wanted (AccountId.ofChars? s.toList) .valueValidation

/-- **Read an unsigned number below a bound**, after a plus sign or none. -/
def number? (bound : Nat) (s : String) : Option Nat := do
  let n ← match s.toList with
    | '+' :: cs => Text.number? cs
    | cs => Text.number? cs
  if n < bound then some n else none

/-- **Read a count**: like a number, but zero may have a minus sign. -/
def count? (bound : Nat) (s : String) : Option Nat :=
  match s.toList with
  | '-' :: cs => if Text.number? cs = some 0 then some 0 else none
  | _ => number? bound s

/-- **Read a log format.** -/
def logFormat? (s : String) : Option LogFormat :=
  if s = "pretty" then some .pretty
  else if s = "compact" then some .compact
  else if s = "json" then some .json
  else none

/-- **Give a setting its value.** -/
def Given.put (g : Given) (setting : Setting) (s : String) : Except UsageError Given := do
  match setting with
  | .listen => return { g with listen := ← wanted (SocketAddress.parse? s) .valueValidation }
  | .operator => return { g with operator := ← account s }
  | .operatorKey => return { g with operatorKey := s }
  | .genesisBalance =>
    let n ← wanted (number? (2 ^ 64) s) .valueValidation
    return { g with genesisBalance := UInt64.ofNat n }
  | .nodeAccount => return { g with nodeAccount := ← account s }
  | .consensusPolls =>
    let n ← wanted (count? (2 ^ 32) s) .valueValidation
    return { g with consensusPolls := UInt32.ofNat n }
  | .logFormat => return { g with logFormat := ← wanted (logFormat? s) .invalidValue }

/-! ## 3. Options -/

/-- **An option.** -/
inductive Flag where
  | setting (s : Setting)
  | verbose
  | help
  | version
deriving DecidableEq, Repr

/-- **The flag of a long name**, of a command that has settings or has none. -/
def longFlag? (hasSettings : Bool) (name : String) : Option Flag :=
  if name = "help" then some .help
  else if name = "version" then some .version
  else if ¬ hasSettings then none
  else if name = "verbose" then some .verbose
  else (Setting.all.find? fun s => s.longName = name).map .setting

/-- **The flag of a letter.** -/
def shortFlag? (hasSettings : Bool) (c : Char) : Option Flag :=
  if c = 'h' then some .help
  else if c = 'V' then some .version
  else if ¬ hasSettings then none
  else if c = 'v' then some .verbose
  else if c = 'l' then some (.setting .listen)
  else none

/-- **The form of an argument.** -/
inductive Form where
  /-- Two dashes alone: no option follows. -/
  | escape
  /-- A long option, with what stands after its equals sign. -/
  | long (name : String) (value : Option String)
  /-- Letters after one dash. -/
  | short (letters : List Char)
  /-- Anything else, the lone dash included. -/
  | plain

/-- **Tell the form of an argument.** -/
def formOf (arg : String) : Form :=
  match arg.toList with
  | ['-', '-'] => .escape
  | '-' :: '-' :: cs =>
    match Text.cut '=' cs with
    | some (name, value) => .long (String.ofList name) (some (String.ofList value))
    | none => .long (String.ofList cs) none
  | '-' :: c :: cs => .short (c :: cs)
  | _ => .plain

/-! ## 4. Reading the options of a command -/

/-- **What was read so far.**  A setting is pending while its value is still to come or to be judged. -/
structure Progress where
  given : Given := {}
  verbose : Nat := 0
  pending : Option (Setting × Option String) := none

namespace Progress

/-- **Settle a value for a setting.**  That the setting was given before is found first. -/
def settle (p : Progress) (s : Setting) (value : String) : Except UsageError Progress := do
  if p.given.has s then .error .argumentConflict
  else return { p with given := ← p.given.put s value, pending := none }

/-- **Judge the pending setting**, if there is one. -/
def resolve (p : Progress) : Except UsageError Progress :=
  match p.pending with
  | none => .ok p
  | some (_, none) => .error .invalidValue
  | some (s, some value) => p.settle s value

/-- **An option with a value of its own, or with none.** -/
def flag (p : Progress) (f : Flag) (value : Option String) : Except UsageError Progress :=
  match f, value with
  | .setting s, some value => do (← p.resolve).settle s value
  | .setting s, none => do return { ← p.resolve with pending := some (s, none) }
  | .verbose, _ => do
    let p ← p.resolve
    return { p with verbose := p.verbose + 1 }
  | .help, _ => do
    let _ ← p.resolve
    .error .displayHelp
  | .version, _ => do
    let _ ← p.resolve
    .error .displayVersion

/-- **Letters after one dash.**  A setting takes the rest as its value, an equals sign in front left
out. -/
def shorts (hasSettings : Bool) : List Char → Progress → Except UsageError Progress
  | [], p => .ok p
  | c :: cs, p =>
    match shortFlag? hasSettings c with
    | none => .error .unknownArgument
    | some (.setting s) =>
      match cs with
      | [] => p.flag (.setting s) none
      | '=' :: value => p.flag (.setting s) (some (String.ofList value))
      | value => p.flag (.setting s) (some (String.ofList value))
    | some f => do shorts hasSettings cs (← p.flag f none)

/-- **Read the arguments of a command.** -/
def read (hasSettings : Bool) : List String → Progress → Except UsageError Progress
  | [], p => p.resolve
  | arg :: args, p =>
    match formOf arg with
    | .escape => if args.isEmpty then p.resolve else .error .unknownArgument
    | .long name value =>
      match longFlag? hasSettings name, value with
      | none, _ => .error .unknownArgument
      | some (.setting s), value => do read hasSettings args (← p.flag (.setting s) value)
      | some _, some _ => .error .tooManyValues
      | some f, none => do read hasSettings args (← p.flag f none)
    | .short letters => do read hasSettings args (← shorts hasSettings letters p)
    | .plain =>
      match p.pending with
      | some (s, none) => read hasSettings args { p with pending := some (s, some arg) }
      | _ => .error .unknownArgument

end Progress

/-! ## 5. Commands -/

/-- **The environment**, as a look-up. -/
abbrev Environment := String → Option String

/-- **Fill in a setting** from the environment, if it was not given and the environment has it. -/
def fillIn (env : Environment) (g : Given) (s : Setting) : Except UsageError Given :=
  match s.variable?.bind env with
  | some value => if g.has s then .ok g else g.put s value
  | none => .ok g

/-- **The settings of a run**, with defaults for what is still missing. -/
def settingsOf (g : Given) (verbose : Nat) : RunSettings where
  listen := g.listen.getD (.four [127, 0, 0, 1] 50211)
  operator := g.operator.getD (.simple 2)
  operatorKey := g.operatorKey
  genesisBalance := g.genesisBalance.getD 1000000000
  nodeAccount := g.nodeAccount.getD (.simple 3)
  consensusPolls := g.consensusPolls.getD 1
  logFormat := g.logFormat.getD .pretty
  verbose := UInt8.ofNat (min verbose 255)

/-- **A name that the first argument may be.** -/
def isCommandName (arg : String) : Bool :=
  arg = "run" || arg = "keygen" || arg = "version" || arg = "help"

/-- **Read what stands before a command**: nothing but requests for help or the version. -/
def readOutside (arg : String) (args : List String) : Except UsageError Command :=
  match formOf arg with
  | .escape =>
    match args with
    | [] => .error .displayHelpOnMissing
    | next :: _ => .error (if isCommandName next then .unknownArgument else .invalidSubcommand)
  | .long name value =>
    match longFlag? false name, value with
    | some .help, none => .error .displayHelp
    | some .version, none => .error .displayVersion
    | none, _ => .error .unknownArgument
    | some _, _ => .error .tooManyValues
  | .short letters =>
    match Progress.shorts false letters {} with
    | .error e => .error e
    | .ok _ => .error .displayHelpOnMissing
  | .plain => .error .invalidSubcommand

/-- **Read a command line.** -/
def parse (env : Environment) : List String → Except UsageError Command
  | [] => .error .displayHelpOnMissing
  | name :: args =>
    if name = "run" then do
      let p ← Progress.read true args {}
      let given ← Setting.all.foldlM (fillIn env) p.given
      return .run (settingsOf given p.verbose)
    else if name = "keygen" then do
      let _ ← Progress.read false args {}
      return .keygen
    else if name = "version" then do
      let _ ← Progress.read false args {}
      return .version
    else if name = "help" then
      match args with
      | [] => .error .displayHelp
      | [topic] => .error (if isCommandName topic then .displayHelp else .invalidSubcommand)
      | _ => .error .invalidSubcommand
    else readOutside name args

end CommandLine

/-! ## 6. Logging -/

/-- **What is logged unless set otherwise**: warnings, and of the node's own parts more the more often
that was asked for. -/
def logDirectives (verbosity : Nat) : String :=
  let level := match verbosity with
    | 0 => "info"
    | 1 => "debug"
    | _ => "trace"
  "warn,shardline_node=" ++ level ++ ",shardline_client=" ++ level

end ShardLedger
