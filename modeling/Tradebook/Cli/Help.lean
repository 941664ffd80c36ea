import Tradebook.Cli.Usage

/-!
# Explaining the command line

What a level is for, how it is called, its commands and its options. The
descriptions stand in a column beside the options, or below them where an option
is so long that a description would not fit in the line. An explanation in full
always has them below, and describes the values that can be chosen from.
-/

namespace Tradebook.Cli

/-- The name of the program. -/
def programName : String :=
  "syncbot"

/-- The name of the program with its version. -/
def versionText : String :=
  programName ++ " 0.1.0"

namespace Level

/-- The words that lead to a level. -/
def path : Level → String
  | program => programName
  | sync => programName ++ " sync"
  | stream => programName ++ " stream"
  | orders => programName ++ " orders"
  | listOrders => programName ++ " orders list"
  | placeOrder => programName ++ " orders place"
  | cancelOrder => programName ++ " orders cancel"

/-- What a level is for. -/
def purpose : Level → String
  | program => "Sync exchange trade and order history into a local database"
  | sync => "Sync trades and closed orders"
  | stream => "Stream the order book of one market until Ctrl-C"
  | orders => "List, place or cancel orders"
  | listOrders => "List open and closed orders of one market"
  | placeOrder => "Place an order"
  | cancelOrder => "Cancel an order by exchange or client order id"

/-- The options that a level cannot do without. -/
def required : Level → List OptionName
  | stream | listOrders => [.session, .symbol]
  | placeOrder => [.session, .symbol, .side, .size]
  | cancelOrder => [.session]
  | program | sync | orders => []

/-- The options of a level as they are listed: its own ones and those of the program take turns, and
of two in one place that with the letter or the earlier word goes first. -/
def listed : Level → List OptionName
  | program => [.logLevel, .jsonLogs, .config, .databaseUrl, .help, .version]
  | sync => [.logLevel, .session, .jsonLogs, .symbol, .config, .since, .databaseUrl, .help]
  | stream => [.logLevel, .session, .jsonLogs, .symbol, .config, .databaseUrl, .help]
  | orders => [.logLevel, .jsonLogs, .config, .databaseUrl, .help]
  | listOrders => [.logLevel, .session, .jsonLogs, .symbol, .config, .status, .databaseUrl, .since,
      .limit, .help]
  | placeOrder => [.logLevel, .session, .jsonLogs, .symbol, .config, .side, .databaseUrl,
      .orderType, .price, .size, .help]
  | cancelOrder => [.logLevel, .session, .jsonLogs, .orderId, .config, .clientOrderId, .databaseUrl,
      .help]

/-- Whether an option of the level has values to choose from that are described, so that an
explanation in full says more. -/
def hasMore (level : Level) : Bool :=
  level.ownOptions.contains .status

end Level

namespace OptionName

/-- An option as it is written, with a word for its value. -/
def form (o : OptionName) : String :=
  let value := o.word.toList.map fun c => if c = '-' then '_' else c.toUpper
  if o.takesValue then "--" ++ o.word ++ " <" ++ .ofList value ++ ">" else "--" ++ o.word

/-- What an option is for. -/
def purpose (level : Level) (inFull : Bool) : OptionName → String
  | logLevel => "Log level (trace, debug, info, warn, error)"
  | jsonLogs => "Emit logs as JSON lines"
  | config => "Path to the user config file"
  | databaseUrl => "Database URL (overrides database_url in the config file)"
  | help =>
    if !level.hasMore then "Print help"
    else if inFull then "Print help (see a summary with '-h')"
    else "Print help (see more with '--help')"
  | version => "Print version"
  | session => if level = .sync then "Only this session (default: all sessions)" else ""
  | symbol => if level = .sync then "Only this symbol (default: discovered from balances)" else ""
  | since =>
    if level = .sync then "Start date, YYYY-MM-DD in Asia/Taipei (default: 3 months ago)"
    else "Oldest closed order to list, YYYY-MM-DD in Asia/Taipei (default: 3 months ago)"
  | status => "active or done (default: both)"
  | limit => "Maximum number of closed orders"
  | side => "buy or sell"
  | orderType => "limit or market"
  | price => "Limit price (required for limit orders)"
  | size | orderId | clientOrderId => ""

/-- Where else the value of an option may come from. -/
def sources (env : String → Option String) (inFull : Bool) : OptionName → String
  | logLevel => "[default: info]"
  | config => "[env: SYNCBOT_CONFIG=" ++ (env "SYNCBOT_CONFIG").getD "" ++ "]"
  | databaseUrl => "[env: DATABASE_URL=" ++ (env "DATABASE_URL").getD "" ++ "]"
  | limit => "[default: 100]"
  | orderType => "[default: limit]"
  | status => if inFull then "" else "[possible values: active, done]"
  | _ => ""

end OptionName

namespace Help

/-- What the command that explains the commands of a level is for. -/
def purpose : String :=
  "Print this message or the help of the given subcommand(s)"

/-- Blanks. -/
def blanks (n : Nat) : String :=
  .ofList (List.replicate n ' ')

/-- The lines of a text, of which the last one does not end in blanks. -/
def trimmed (lines : List String) : List String :=
  match lines.reverse with
  | last :: rest =>
    (String.ofList (last.toList.reverse.dropWhile (· = ' ')).reverse :: rest).reverse
  | [] => []

/-- A description with the sources of the value behind it. -/
def joined (separator : List String) (purpose sources : String) : List String :=
  if sources = "" then [purpose]
  else if purpose = "" then [sources]
  else match separator with
    | [] => [purpose ++ " " ++ sources]
    | between => purpose :: between ++ [sources]

/-- The width of the column of options. -/
def column (level : Level) : Nat :=
  (level.listed.map (·.form.length)).foldl max 0

/-- Whether the descriptions do not fit beside the options in lines of a hundred characters. -/
def isNarrow (env : String → Option String) (level : Level) : Bool :=
  let taken := column level + 8
  40 < taken && level.listed.any fun o =>
    100 - taken < (o.purpose level false).length + (o.sources env false).length

/-- An option with its letter, if it has one, as a line begins. -/
def optionHead (o : OptionName) : String :=
  match o.letter? with
  | some letter => "  " ++ String.ofList ['-', letter, ',', ' '] ++ o.form
  | none => "      " ++ o.form

/-- The values to choose from. -/
def choices : OptionName → List String
  | .status => ["", "          Possible values:",
      "          - active: Orders still on the book",
      "          - done:   Filled, cancelled or rejected orders"]
  | _ => []

/-- The lines of an option. -/
def optionLines (env : String → Option String) (level : Level) (inFull narrow : Bool)
    (o : OptionName) : List String :=
  let purpose := o.purpose level inFull
  let sources := o.sources env inFull
  if inFull then
    optionHead o :: (joined [""] purpose sources).map (fun line =>
      if line = "" ∧ purpose ≠ "" then "" else blanks 10 ++ line) ++ choices o
  else if narrow then optionHead o :: (joined [] purpose sources).map (blanks 10 ++ ·)
  else
    (joined [] purpose sources).map fun line =>
      optionHead o ++ blanks (column level + 2 - o.form.length) ++ line

/-- The lines of all options, in full with empty ones between them. -/
def allOptionLines (env : String → Option String) (level : Level) (inFull : Bool) : List String :=
  let entries := level.listed.map (optionLines env level inFull (isNarrow env level))
  if inFull then (entries.intersperse [""]).flatten else entries.flatten

/-- The lines of the commands of a level. -/
def commandLines (level : Level) : List String :=
  let entries := level.commands.map (fun c => (c.1, c.2.purpose)) ++
    [("help", purpose)]
  let width := (entries.map (·.1.length)).foldl max 0
  entries.map fun (name, purpose) => "  " ++ name ++ blanks (width + 2 - name.length) ++ purpose

/-- How a level is called. -/
def usageLine (level : Level) : String :=
  "Usage: " ++ level.path ++ " [OPTIONS]" ++
    .join (level.required.map fun o => " " ++ o.form) ++
    if level.commands = [] then "" else " <COMMAND>"

/-- The lines of an explanation. -/
def lines (env : String → Option String) (level : Level) (inFull : Bool) : List String :=
  let inFull := inFull && level.hasMore
  [level.purpose, "", usageLine level, ""] ++
    (if level.commands = [] then [] else "Commands:" :: commandLines level ++ [""]) ++
    "Options:" :: trimmed (allOptionLines env level inFull)

/-- The lines that explain the command that explains the commands of a level. -/
def linesOnHelp (level : Level) : List String :=
  [purpose, "", "Usage: " ++ level.path ++ " help [COMMAND]...", "", "Arguments:",
    "  [COMMAND]...  Print help for the subcommand(s)"]

/-- The lines that answer a command line which asks for no more than an explanation. -/
def answer? (env : String → Option String) : UsageError → Option (List String)
  | .help level inFull => some (lines env level inFull)
  | .helpOnHelp level => some (linesOnHelp level)
  | .version => some [versionText]
  | _ => none

end Help

end Tradebook.Cli
