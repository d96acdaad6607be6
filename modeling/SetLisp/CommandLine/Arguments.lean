import SetLisp.Double.Numeral
import SetLisp.Log
import SetLisp.Text.Quoted

namespace SetLisp.CommandLine

inductive Flag where
  | help
  | logLevel
  | keepGoing
deriving DecidableEq, Repr

/-- The spellings of the options, in the order in which they are looked through. -/
def spellings : List (String × Flag) :=
  [("-h", .help), ("--help", .help), ("--log-level", .logLevel), ("--keep-going", .keepGoing)]

/-- The name of an option in messages. -/
def Flag.label : Flag → String
  | .help => "-h/--help"
  | .logLevel => "--log-level"
  | .keepGoing => "--keep-going"

inductive ArgumentError where
  | ambiguous (argument : String) (options : List String)
  | expectedValue (flag : Flag)
  | ignoredValue (flag : Flag) (value : String)
  | invalidChoice (flag : Flag) (value : String)
  | missingPath
  | unrecognized (arguments : List String)
deriving DecidableEq, Repr

def ArgumentError.message : ArgumentError → String
  | .ambiguous argument options =>
      "ambiguous option: " ++ argument ++ " could match " ++ ", ".intercalate options
  | .expectedValue flag => "argument " ++ flag.label ++ ": expected one argument"
  | .ignoredValue flag value =>
      "argument " ++ flag.label ++ ": ignored explicit argument " ++ Text.quoted value
  | .invalidChoice flag value =>
      "argument " ++ flag.label ++ ": invalid choice: " ++ Text.quoted value ++
        " (choose from " ++
        ", ".intercalate (LogLevel.all.map fun level => Text.quoted level.name) ++ ")"
  | .missingPath => "the following arguments are required: path"
  | .unrecognized arguments => "unrecognized arguments: " ++ " ".intercalate arguments

/-- What one argument is. An option may have a value attached to its name. -/
inductive Argument where
  | plain (text : String)
  | separator
  | option (flag : Flag) (spelling : String) (value? : Option String)
  | unknownOption (text : String)
deriving DecidableEq, Repr

def exactFlag? (text : String) : Option Flag :=
  (spellings.find? fun entry => entry.1 == text).map (·.2)

/-- The text in front of the first equals sign and the text behind it. -/
def splitAtSign (text : List Char) : String × Option String :=
  match text.dropWhile (· != '=') with
  | [] => (String.ofList text, none)
  | _ :: value => (String.ofList (text.takeWhile (· != '=')), some (String.ofList value))

/-- A minus sign and digits, possibly with a point in front of the last of them. One line break at
the end does not count. -/
def looksNegative : List Char → Bool
  | '-' :: rest =>
      let rest := if rest.getLast? == some '\n' then rest.dropLast else rest
      let isDigit := fun c => (Text.digitValue? c).isSome
      let digits := rest.takeWhile isDigit
      match rest.dropWhile isDigit with
      | [] => !digits.isEmpty
      | '.' :: fraction => !fraction.isEmpty && fraction.all isDigit
      | _ => false
  | _ => false

/-- The options an inexact argument may mean. -/
def candidates (text : List Char) : List Argument :=
  match text with
  | '-' :: '-' :: _ =>
      let (shortened, value) := splitAtSign text
      (spellings.filter fun entry => shortened.toList.isPrefixOf entry.1.toList).map
        fun entry => .option entry.2 entry.1 value
  | dash :: letter :: joined =>
      spellings.filterMap fun entry =>
        if entry.1.toList = [dash, letter] then
          some (.option entry.2 entry.1 (some (String.ofList joined)))
        else if text.isPrefixOf entry.1.toList then some (.option entry.2 entry.1 none)
        else none
  | _ => []

def Argument.spelling : Argument → String
  | .option _ spelling _ => spelling
  | .plain text => text
  | .unknownOption text => text
  | .separator => "--"

/-- Classifies an argument in front of the separator. -/
def classify (text : String) : Except ArgumentError Argument :=
  match text.toList with
  | [] => .ok (.plain text)
  | ['-'] => .ok (.plain text)
  | c :: _ =>
      if c != '-' then .ok (.plain text)
      else
        match exactFlag? text with
        | some flag => .ok (.option flag text none)
        | none =>
            match splitAtSign text.toList with
            | (name, some value) =>
                match exactFlag? name with
                | some flag => .ok (.option flag name (some value))
                | none => classifyInexact text
            | _ => classifyInexact text
where
  classifyInexact (text : String) : Except ArgumentError Argument :=
    match candidates text.toList with
    | [] =>
        if looksNegative text.toList || text.toList.contains ' ' then .ok (.plain text)
        else .ok (.unknownOption text)
    | [found] => .ok found
    | several => .error (.ambiguous text (several.map Argument.spelling))

/-- Classifies all arguments. Those behind the separator are no options. -/
def classifyAll : List String → Except ArgumentError (List Argument)
  | [] => .ok []
  | text :: rest =>
      if text = "--" then .ok (.separator :: rest.map .plain)
      else do
        let argument ← classify text
        let arguments ← classifyAll rest
        return argument :: arguments

/-- What the option for the log level was given. A double dash attached to it is dropped as a
separator, which leaves nothing. -/
inductive LevelChoice where
  | named (name : String)
  | nothing
deriving DecidableEq, Repr

structure Options where
  path : String
  level? : Option LevelChoice := none
  keepGoing? : Option Bool := none
deriving DecidableEq, Repr

inductive Request where
  | help
  | run (options : Options)
deriving DecidableEq, Repr

/-- What has been read so far: the path, the options and the arguments nothing asked for. -/
structure Reading where
  path? : Option String := none
  level? : Option LevelChoice := none
  keepGoing? : Option Bool := none
  extras : List String := []
deriving DecidableEq, Repr

/-- Sets an argument aside that nothing asked for. -/
def Reading.leaveOver (reading : Reading) (text : String) : Reading :=
  { reading with extras := reading.extras ++ [text] }

def Reading.setLevel (reading : Reading) (value : String) : Except ArgumentError Reading :=
  if value = "--" then .ok { reading with level? := some .nothing }
  else if (LogLevel.ofName? value).isSome then .ok { reading with level? := some (.named value) }
  else .error (.invalidChoice .logLevel value)

/-- What is attached to an option in excess. The single letter for help may be repeated behind
itself, as a row of options in one argument. -/
def excess (spelling : String) (value : String) : String :=
  if spelling = "-h" then String.ofList (value.toList.dropWhile (· == 'h')) else value

/-- Whether an option that takes no value is accepted with what is attached to it. -/
def checkAttached (flag : Flag) (spelling : String) : Option String → Except ArgumentError Unit
  | none => .ok ()
  | some value =>
      if value ≠ "" ∧ excess spelling value = "" then .ok ()
      else .error (.ignoredValue flag (excess spelling value))

/-- Reads the arguments from left to right. The separator belongs to a path next to it; away from
the path it is one argument too many. -/
def Reading.read (reading : Reading) : List Argument → Except ArgumentError Request
  | [] =>
      match reading.path?, reading.extras with
      | none, _ => .error .missingPath
      | some path, [] =>
          .ok (.run { path := path, level? := reading.level?, keepGoing? := reading.keepGoing? })
      | some _, extras => .error (.unrecognized extras)
  | .plain text :: rest =>
      match reading.path?, rest with
      | none, .separator :: rest => { reading with path? := some text }.read rest
      | none, rest => { reading with path? := some text }.read rest
      | some _, rest => (reading.leaveOver text).read rest
  | .separator :: rest =>
      match reading.path? with
      | none => reading.read rest
      | some _ => (reading.leaveOver "--").read rest
  | .unknownOption text :: rest => (reading.leaveOver text).read rest
  | .option .help spelling value? :: _ => do
      checkAttached .help spelling value?
      return .help
  | .option .keepGoing spelling value? :: rest => do
      checkAttached .keepGoing spelling value?
      { reading with keepGoing? := some true }.read rest
  | .option .logLevel _ (some value) :: rest => do
      (← reading.setLevel value).read rest
  | .option .logLevel _ none :: .plain value :: rest => do
      (← reading.setLevel value).read rest
  | .option .logLevel _ none :: _ => .error (.expectedValue .logLevel)

/-- Options may stand anywhere among the arguments and may be shortened as long as they stay
unambiguous. A double dash ends them. The first argument that is no option is the path. -/
def readArguments (arguments : List String) : Except ArgumentError Request := do
  Reading.read {} (← classifyAll arguments)

end SetLisp.CommandLine
