import Tradebook.Decimal.Text

/-!
# What a command line may say

Commands form levels: the program, below it the commands, and below one of them
the commands for orders. Each level has options of its own, and four options of
the program can stand at every level. An option is written as a word after two
dashes, and some also as a letter after one.
-/

namespace Tradebook.Cli

/-- The levels of commands. -/
inductive Level where
  | program
  | sync
  | stream
  | orders
  | listOrders
  | placeOrder
  | cancelOrder
  deriving DecidableEq, Repr

/-- The options. -/
inductive OptionName where
  | logLevel
  | jsonLogs
  | config
  | databaseUrl
  | help
  | version
  | session
  | symbol
  | since
  | status
  | limit
  | side
  | orderType
  | price
  | size
  | orderId
  | clientOrderId
  deriving DecidableEq, Repr

namespace OptionName

/-- The word for an option. -/
def word : OptionName → String
  | logLevel => "log-level"
  | jsonLogs => "json-logs"
  | config => "config"
  | databaseUrl => "database-url"
  | help => "help"
  | version => "version"
  | session => "session"
  | symbol => "symbol"
  | since => "since"
  | status => "status"
  | limit => "limit"
  | side => "side"
  | orderType => "order-type"
  | price => "price"
  | size => "size"
  | orderId => "order-id"
  | clientOrderId => "client-order-id"

/-- The letter for an option, if it has one. -/
def letter? : OptionName → Option Char
  | logLevel => some 'l'
  | config => some 'c'
  | help => some 'h'
  | version => some 'V'
  | _ => none

/-- Whether an option comes with a value. -/
def takesValue : OptionName → Bool
  | jsonLogs | help | version => false
  | _ => true

end OptionName

namespace Level

/-- The commands of a level. -/
def commands : Level → List (String × Level)
  | program => [("sync", sync), ("stream", stream), ("orders", orders)]
  | orders => [("list", listOrders), ("place", placeOrder), ("cancel", cancelOrder)]
  | _ => []

/-- The options that a level has to itself. -/
def ownOptions : Level → List OptionName
  | program => [.version]
  | sync => [.session, .symbol, .since]
  | stream => [.session, .symbol]
  | orders => []
  | listOrders => [.session, .symbol, .status, .since, .limit]
  | placeOrder => [.session, .symbol, .side, .orderType, .price, .size]
  | cancelOrder => [.session, .orderId, .clientOrderId]

/-- The options of a level. -/
def options (level : Level) : List OptionName :=
  level.ownOptions ++ [.logLevel, .jsonLogs, .config, .databaseUrl, .help]

/-- The option of a word. -/
def optionOfWord? (level : Level) (word : String) : Option OptionName :=
  level.options.find? (·.word = word)

/-- The option of a letter. -/
def optionOfLetter? (level : Level) (letter : Char) : Option OptionName :=
  level.options.find? (·.letter? = some letter)

/-- Whether a word is a command of a level; one that has commands can also explain them. -/
def isCommand (level : Level) (word : String) : Bool :=
  level.commands ≠ [] && (word = "help" || (level.commands.lookup word).isSome)

end Level

/-- Which orders to list. -/
inductive Listing where
  /-- Orders still on the book. -/
  | active
  /-- Filled, cancelled or rejected orders. -/
  | done
  deriving DecidableEq, Repr

/-- The word for a listing. -/
def Listing.name : Listing → String
  | active => "active"
  | done => "done"

/-- What the program is to do. -/
inductive Command where
  | sync (session symbol since : Option String)
  | stream (session symbol : String)
  | listOrders (session symbol : String) (status : Option Listing) (since : Option String)
    (limit : Nat)
  | placeOrder (session symbol side orderType : String) (price : Option Decimal) (size : Decimal)
  | cancelOrder (session : String) (orderId clientOrderId : Option String)
  deriving DecidableEq, Repr

/-- A command line as it was understood. -/
structure Invocation where
  logLevel : String
  jsonLogs : Bool
  /-- The path of the settings. -/
  config : Option String
  databaseUrl : Option String
  command : Command
  deriving DecidableEq, Repr

/-- Why a command line is not carried out. -/
inductive UsageError where
  /-- An explanation was asked for; the flag tells whether in full. -/
  | help (level : Level) (inFull : Bool)
  /-- An explanation was asked for of the command that explains the commands of a level. -/
  | helpOnHelp (level : Level)
  | version
  /-- Nothing was asked for, so the level is explained. -/
  | nothingAsked (level : Level)
  | missingCommand (level : Level)
  | missingOptions (level : Level)
  | unknownCommand (word : String)
  | unknownArgument (word : String)
  | repeated (option : OptionName)
  /-- An option that comes without a value was given one. -/
  | unwantedValue (option : OptionName)
  /-- An option came without its value, or with one that is none of those possible. -/
  | badChoice (option : OptionName)
  /-- A value cannot be read. -/
  | unreadable (option : OptionName)
  deriving DecidableEq, Repr

/-- The wording of the error. -/
def UsageError.message : UsageError → String
  | help _ _ | helpOnHelp _ | nothingAsked _ => "an explanation was asked for"
  | version => "the version was asked for"
  | missingCommand _ => "a command is required but none was provided"
  | missingOptions _ => "required options were not provided"
  | unknownCommand word => "unrecognized command '" ++ word ++ "'"
  | unknownArgument word => "unexpected argument '" ++ word ++ "' found"
  | repeated option => "the option '--" ++ option.word ++ "' cannot be used multiple times"
  | unwantedValue option => "the option '--" ++ option.word ++ "' takes no value"
  | badChoice option => "a possible value is required for '--" ++ option.word ++ "'"
  | unreadable option => "invalid value for '--" ++ option.word ++ "'"

end Tradebook.Cli
