import Tradebook.Cli.Usage
import Tradebook.Text.Digits

/-!
# Reading a command line

The arguments are read from left to right, level by level: the word of a command
that does not stand where a value is awaited opens its level, to which the rest
belongs. An option is looked at once it is complete, which it is when the next
one begins or its level ends; so of two mistakes the one that comes to light first
is reported. Mistakes of a level below come before those that show at the end of
the level itself.

The path of the settings and the address of the database may also come from the
environment. The command line goes before the environment, and the level below
before the level above.
-/

namespace Tradebook.Cli

open Tradebook.Text

/-- The options given at one level. -/
structure Given where
  logLevel : Option String
  jsonLogs : Bool
  config : Option String
  databaseUrl : Option String
  session : Option String
  symbol : Option String
  since : Option String
  status : Option Listing
  limit : Option Nat
  side : Option String
  orderType : Option String
  price : Option Decimal
  size : Option Decimal
  orderId : Option String
  clientOrderId : Option String
  deriving DecidableEq, Repr

namespace Given

/-- No options. -/
def none : Given where
  logLevel := .none
  jsonLogs := false
  config := .none
  databaseUrl := .none
  session := .none
  symbol := .none
  since := .none
  status := .none
  limit := .none
  side := .none
  orderType := .none
  price := .none
  size := .none
  orderId := .none
  clientOrderId := .none

/-- What an option is set to by a value, unless it was given before. -/
def once {α : Type} (option : OptionName) (old : Option α) (new : Except UsageError α) :
    Except UsageError (Option α) :=
  match old with
  | some _ => .error (.repeated option)
  | .none => new.map some

/-- A path, which cannot be empty. -/
def readPath (option : OptionName) (value : String) : Except UsageError String :=
  if value = "" then .error (.badChoice option) else .ok value

/-- A listing. -/
def readListing (value : String) : Except UsageError Listing :=
  if value = Listing.active.name then .ok .active
  else if value = Listing.done.name then .ok .done
  else .error (.badChoice .status)

/-- The digits of a count, which may have a plus in front. -/
def countDigits : List Char → List Char
  | '+' :: rest => rest
  | cs => cs

/-- A count of at most 64 bits. -/
def readCount (option : OptionName) (value : String) : Except UsageError Nat :=
  let digits := countDigits value.toList
  if digits ≠ [] ∧ digits.all Char.isDigit ∧ ofDigits digits < 0x10000000000000000 then
    .ok (ofDigits digits)
  else .error (.unreadable option)

/-- A decimal number. -/
def readDecimal (option : OptionName) (value : String) : Except UsageError Decimal :=
  match Decimal.ofText? value with
  | some d => .ok d
  | .none => .error (.unreadable option)

/-- The options with one more that takes a value. -/
def set (g : Given) (option : OptionName) (value : String) : Except UsageError Given := do
  match option with
  | .logLevel => return { g with logLevel := ← once option g.logLevel (.ok value) }
  | .config => return { g with config := ← once option g.config (readPath option value) }
  | .databaseUrl => return { g with databaseUrl := ← once option g.databaseUrl (.ok value) }
  | .session => return { g with session := ← once option g.session (.ok value) }
  | .symbol => return { g with symbol := ← once option g.symbol (.ok value) }
  | .since => return { g with since := ← once option g.since (.ok value) }
  | .status => return { g with status := ← once option g.status (readListing value) }
  | .limit => return { g with limit := ← once option g.limit (readCount option value) }
  | .side => return { g with side := ← once option g.side (.ok value) }
  | .orderType => return { g with orderType := ← once option g.orderType (.ok value) }
  | .price => return { g with price := ← once option g.price (readDecimal option value) }
  | .size => return { g with size := ← once option g.size (readDecimal option value) }
  | .orderId => return { g with orderId := ← once option g.orderId (.ok value) }
  | .clientOrderId => return { g with clientOrderId := ← once option g.clientOrderId (.ok value) }
  | .jsonLogs | .help | .version => .error (.unwantedValue option)

/-- The options of the program, those of the level below before those of the level above. -/
def under (below above : Given) : Given :=
  { below with
    logLevel := below.logLevel.or above.logLevel
    jsonLogs := below.jsonLogs || above.jsonLogs
    config := below.config.or above.config
    databaseUrl := below.databaseUrl.or above.databaseUrl }

/-- The options with those that the environment has for the ones that are missing. -/
def withEnvironment (g : Given) (env : String → Option String) : Except UsageError Given := do
  let config ← match g.config, env "SYNCBOT_CONFIG" with
    | .none, some path => some <$> readPath .config path
    | config, _ => pure config
  return { g with config, databaseUrl := g.databaseUrl.or (env "DATABASE_URL") }

/-- The value of an option that a level cannot do without. -/
def require {α : Type} (level : Level) : Option α → Except UsageError α
  | some a => .ok a
  | .none => .error (.missingOptions level)

/-- The command that a level stands for. -/
def command (g : Given) (level : Level) : Except UsageError Command := do
  let need {α : Type} (value : Option α) : Except UsageError α := require level value
  match level with
  | .program | .orders =>
    throw (if g = none then .nothingAsked level else .missingCommand level)
  | .sync => return .sync g.session g.symbol g.since
  | .stream => return .stream (← need g.session) (← need g.symbol)
  | .listOrders =>
    return .listOrders (← need g.session) (← need g.symbol) g.status g.since (g.limit.getD 100)
  | .placeOrder =>
    return .placeOrder (← need g.session) (← need g.symbol) (← need g.side)
      (g.orderType.getD "limit") g.price (← need g.size)
  | .cancelOrder => return .cancelOrder (← need g.session) g.orderId g.clientOrderId

end Given

/-- How far a level was read: the options that are complete, and the last one with its value, if it
has one yet. -/
structure Reading where
  given : Given
  pending : Option (OptionName × Option String)
  /-- Whether two dashes alone said that no options follow. -/
  trailing : Bool
  deriving DecidableEq, Repr

namespace Reading

/-- Nothing read yet. -/
def start : Reading :=
  ⟨.none, none, false⟩

/-- Whether a value must follow. -/
def isAwaiting (r : Reading) : Bool :=
  match r.pending with
  | some (_, none) => true
  | _ => false

/-- Completes the pending option. -/
def settle (r : Reading) : Except UsageError Given :=
  match r.pending with
  | none => .ok r.given
  | some (option, none) => .error (.badChoice option)
  | some (option, some value) => r.given.set option value

/-- Begins an option that awaits its value. -/
def await (r : Reading) (option : OptionName) : Except UsageError Reading := do
  return { r with given := ← r.settle, pending := some (option, none) }

/-- Takes an option with its value. -/
def take (r : Reading) (option : OptionName) (value : String) : Except UsageError Reading := do
  return { r with given := ← (← r.settle).set option value, pending := none }

/-- Takes an option that comes without a value. -/
def turnOn (r : Reading) (level : Level) (option : OptionName) (inFull : Bool) :
    Except UsageError Reading := do
  let given ← r.settle
  match option with
  | .help => throw (.help level inFull)
  | .version => throw .version
  | _ =>
    if given.jsonLogs then throw (.repeated option)
    else return { r with given := { given with jsonLogs := true }, pending := none }

/-- Takes an option by its word, with what followed the equals sign if there was one. -/
def long (r : Reading) (level : Level) (word : String) (value : Option String) :
    Except UsageError Reading :=
  match level.optionOfWord? word with
  | none => .error (.unknownArgument ("--" ++ word))
  | some option =>
    match option.takesValue, value with
    | true, some value => r.take option value
    | true, none => r.await option
    | false, some _ => .error (.unwantedValue option)
    | false, none => r.turnOn level option true

/-- Takes options by their letters. What follows a letter that takes a value is that value, with or
without an equals sign before it. -/
def short (r : Reading) (level : Level) : List Char → Except UsageError Reading
  | [] => .ok r
  | letter :: rest => do
    match level.optionOfLetter? letter with
    | none => throw (.unknownArgument (.ofList ['-', letter]))
    | some option =>
      if option.takesValue then
        match rest with
        | [] => r.await option
        | '=' :: value => r.take option (.ofList value)
        | value => r.take option (.ofList value)
      else (← r.turnOn level option false).short level rest

end Reading

/-- How an argument looks. -/
inductive Shape where
  /-- Two dashes alone. -/
  | dashes
  | long (word : String) (value : Option String)
  | short (letters : List Char)
  | plain
  deriving DecidableEq, Repr

/-- The look of an argument. A dash alone is plain. -/
def Shape.of (argument : String) : Shape :=
  match argument.toList with
  | ['-', '-'] => dashes
  | '-' :: '-' :: rest =>
    match rest.dropWhile (· ≠ '=') with
    | [] => long (.ofList rest) none
    | _ :: value => long (.ofList (rest.takeWhile (· ≠ '='))) (some (.ofList value))
  | ['-'] => plain
  | '-' :: letters => short letters
  | _ => plain

/-- The error for an argument that has no place at a level. -/
def strayError (level : Level) (trailing : Bool) (argument : String) : UsageError :=
  if level.commands = [] ∨ (trailing ∧ level.isCommand argument) then .unknownArgument argument
  else .unknownCommand argument

/-- The explanation of the command that a path of words leads to. The explanation of explanations
leads no further. -/
def helpError (level : Level) : List String → UsageError
  | [] => .help level true
  | word :: words =>
    match level.commands.lookup word with
    | some below => helpError below words
    | none =>
      if level.isCommand word then
        match words with
        | [] => .helpOnHelp level
        | next :: _ => .unknownCommand next
      else .unknownCommand word

/-- Reads the arguments of a level: the command they lead to, and the options of the program. -/
def read (env : String → Option String) (level : Level) (r : Reading) :
    List String → Except UsageError (Command × Given)
  | [] => do
    let given ← r.settle
    return (← (← given.withEnvironment env).command level, given)
  | argument :: rest => do
    if r.trailing then throw (strayError level true argument)
    else if !r.isAwaiting && level.isCommand argument then
      match level.commands.lookup argument with
      | some below =>
        let (command, given) ← read env below .start rest
        let above ← r.settle
        let _ ← above.withEnvironment env
        return (command, given.under above)
      | none => throw (helpError level rest)
    else
      match Shape.of argument with
      | .dashes => read env level { r with trailing := true } rest
      | .long word value => read env level (← r.long level word value) rest
      | .short letters => read env level (← r.short level letters) rest
      | .plain =>
        match r.pending with
        | some (option, none) =>
          read env level { r with pending := some (option, some argument) } rest
        | _ => throw (strayError level false argument)

/-- Understands the arguments of the program. -/
def Invocation.ofArguments (env : String → Option String) (arguments : List String) :
    Except UsageError Invocation := do
  let (command, given) ← read env .program .start arguments
  let given ← given.withEnvironment env
  return ⟨given.logLevel.getD "info", given.jsonLogs, given.config, given.databaseUrl, command⟩

end Tradebook.Cli
