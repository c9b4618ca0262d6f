import TickFeed.Binary64.Reader
import TickFeed.Environment
import TickFeed.Text.Numeral

/-! # The command line of the node

Every option has a long name and takes one value, in the same word after an
equals sign or in the next word. Some options can also be set by a variable. The
words are read from left to right, and the first thing that is wrong counts; a
value in a word of its own is looked at only when the next option or the end
comes. The value of a variable is looked at after all words, and not at all when
the option is given. -/

namespace TickFeed

inductive NodeOption where
  | catalogPath
  | preferredExchange
  | refreshSecs
  | queueCapacity
  | pollIntervalMs
  | stopGraceMs
  | subscriberTimeoutMs
  | statsSecs
  | uiBuffer
  | historicalRate
  | historicalBurst
  | orderRate
  | orderBurst
  | quoteRate
  | quoteBurst
deriving DecidableEq, Inhabited

/-- Why there are no settings to be had from a command line. -/
inductive UsageError where
  /-- A word that is neither an option nor the value of one. -/
  | unknownArgument
  /-- No value where one has to be, or an empty path. -/
  | invalidValue
  /-- A value that cannot be read. -/
  | valueValidation
  /-- An option that is given twice. -/
  | argumentConflict
  /-- A value for an option that takes none. -/
  | tooManyValues
  | displayHelp
deriving DecidableEq

def UsageError.message : UsageError → String
  | .unknownArgument => "unexpected argument"
  | .invalidValue => "a value is required"
  | .valueValidation => "a value cannot be read"
  | .argumentConflict => "an option is given more than once"
  | .tooManyValues => "an option that takes no value has one"
  | .displayHelp => "help requested"

/-- What the program leaves to its caller: asking for help is no failure. -/
def UsageError.exitCode : UsageError → Nat
  | .displayHelp => 0
  | _ => 2

namespace NodeOption

def all : List NodeOption :=
  [.catalogPath, .preferredExchange, .refreshSecs, .queueCapacity, .pollIntervalMs, .stopGraceMs,
    .subscriberTimeoutMs, .statsSecs, .uiBuffer, .historicalRate, .historicalBurst, .orderRate,
    .orderBurst, .quoteRate, .quoteBurst]

def name : NodeOption → String
  | .catalogPath => "catalog-path"
  | .preferredExchange => "preferred-exchange"
  | .refreshSecs => "refresh-secs"
  | .queueCapacity => "queue-capacity"
  | .pollIntervalMs => "poll-interval-ms"
  | .stopGraceMs => "stop-grace-ms"
  | .subscriberTimeoutMs => "subscriber-timeout-ms"
  | .statsSecs => "stats-secs"
  | .uiBuffer => "ui-buffer"
  | .historicalRate => "historical-rate"
  | .historicalBurst => "historical-burst"
  | .orderRate => "order-rate"
  | .orderBurst => "order-burst"
  | .quoteRate => "quote-rate"
  | .quoteBurst => "quote-burst"

def ofName? (s : String) : Option NodeOption := all.find? (·.name = s)

def variableName : NodeOption → Option String
  | .catalogPath => some "CATALOG_PATH"
  | .refreshSecs => some "CATALOG_REFRESH_SECS"
  | .statsSecs => some "FEED_STATS_SECS"
  | .uiBuffer => some "FEED_UI_BUFFER"
  | _ => none

def usage : String :=
  let line := fun (o : NodeOption) =>
    let setBy := match o.variableName with
      | some name => " [env: " ++ name ++ "]"
      | none => ""
    "  --" ++ o.name ++ " <VALUE>" ++ setBy ++ "\n"
  "Usage: feed-node [OPTIONS]\n\nOptions:\n" ++ String.join (all.map line) ++ "  -h, --help"

def count? (s : String) : Option Nat := Text.unsigned? 64 s

/-- A whole number of 32 bits, for which minus zero is zero. -/
def burst? (s : String) : Option UInt32 :=
  ((Text.signed? 64 s).filter fun n => 0 ≤ n ∧ n < 2 ^ 32).map fun n => UInt32.ofNat n.toNat

def reject? (o : NodeOption) (value : String) : Option UsageError :=
  let require := fun (readable : Bool) => if readable then none else some UsageError.valueValidation
  match o with
  | .catalogPath => if value = "" then some .invalidValue else none
  | .preferredExchange => none
  | .historicalRate | .orderRate | .quoteRate => require (Binary64.read? value).isSome
  | .historicalBurst | .orderBurst | .quoteBurst => require (burst? value).isSome
  | _ => require (count? value).isSome

end NodeOption

/-- The options that are given, with values that can be read. -/
structure NodeOptions where
  given : List (NodeOption × String) := []
deriving DecidableEq

namespace NodeOptions

def get? (os : NodeOptions) (o : NodeOption) : Option String := os.given.lookup o

def insert (os : NodeOptions) (o : NodeOption) (value : String) :
    Except UsageError NodeOptions :=
  match o.reject? value with
  | some e => .error e
  | none => .ok ⟨(o, value) :: os.given⟩

/-- One more option from the command line, where each stands only once. -/
def insertNew (os : NodeOptions) (o : NodeOption) (value : String) :
    Except UsageError NodeOptions :=
  if (os.get? o).isSome then .error .argumentConflict else os.insert o value

/-- The options so far, and the one that waits for its value or, once it has it,
for its value to be looked at. -/
structure Progress where
  options : NodeOptions := {}
  waiting : Option (NodeOption × Option String) := none

/-- Look at the value of the option that waits. -/
def Progress.settle (p : Progress) : Except UsageError NodeOptions :=
  match p.waiting with
  | none => .ok p.options
  | some (_, none) => .error .invalidValue
  | some (o, some value) => p.options.insertNew o value

def splitWord (cs : List Char) : String × Option String :=
  let name := String.ofList (cs.takeWhile (· ≠ '='))
  match cs.dropWhile (· ≠ '=') with
  | _ :: value => (name, some (String.ofList value))
  | [] => (name, none)

/-- A word that begins with two dashes, without them. -/
def Progress.long (p : Progress) (cs : List Char) : Except UsageError Progress :=
  match splitWord cs with
  | ("help", some _) => .error .tooManyValues
  | ("help", none) => p.settle.bind fun _ => .error .displayHelp
  | (name, value) =>
    match NodeOption.ofName? name, value with
    | none, _ => .error .unknownArgument
    | some o, some value => do
      return { options := ← (← p.settle).insertNew o value }
    | some o, none => do return { options := ← p.settle, waiting := some (o, none) }

/-- The next word. A dash alone is a value like others. -/
def Progress.word (p : Progress) (word : String) : Except UsageError Progress :=
  match word.toList with
  | '-' :: '-' :: cs => p.long cs
  | '-' :: 'h' :: _ => p.settle.bind fun _ => .error .displayHelp
  | '-' :: _ :: _ => .error .unknownArgument
  | _ =>
    match p.waiting with
    | some (o, none) => .ok { p with waiting := some (o, some word) }
    | _ => .error .unknownArgument

/-- The options of a command line. Two dashes alone end them. -/
def readWords (p : Progress) : List String → Except UsageError NodeOptions
  | [] => p.settle
  | word :: words =>
    if word = "--" then
      match words with
      | [] => p.settle
      | _ => .error .unknownArgument
    else (p.word word).bind fun p => readWords p words

/-- What the variables set of the options that are not given. -/
def fill (env : Environment) (os : NodeOptions) : Except UsageError NodeOptions :=
  NodeOption.all.foldlM (fun os o =>
    match os.get? o, o.variableName.bind env with
    | none, some value => os.insert o value
    | _, _ => .ok os) os

def read (words : List String) (env : Environment) : Except UsageError NodeOptions :=
  (readWords {} words).bind (fill env)

end NodeOptions

end TickFeed
