import SetLisp.CommandLine.Arguments
import SetLisp.Config
import SetLisp.Session.File

/-!
# Running the program

A run takes the arguments, the variables of its environment and a way to open files, and ends with
an exit status and the texts for the two output streams. The status is 2 for a faulty command line
or setting, 1 if anything failed and 0 otherwise.
-/

namespace SetLisp.CommandLine

def usageLine : String :=
  "usage: mlisp [-h] [--log-level \x7bnone,info,debug\x7d] [--keep-going] path\n"

def helpText : String :=
  usageLine ++
    "\n" ++
    "Evaluate each top-level form of an mlisp file and print its value.\n" ++
    "\n" ++
    "positional arguments:\n" ++
    "  path                  source file to interpret\n" ++
    "\n" ++
    "options:\n" ++
    "  -h, --help            show this help message and exit\n" ++
    "  --log-level \x7bnone,info,debug\x7d\n" ++
    "                        logging verbosity (default: $MLISP_LOG_LEVEL or none)\n" ++
    "  --keep-going          report a failing form and continue with the next one\n"

structure Outcome where
  status : Nat
  stdout : String := ""
  stderr : String := ""
deriving DecidableEq, Repr

/-- An error of the command line itself, as the log shows it at the given level. -/
def ownError (level : LogLevel) (message : String) : String :=
  LogRecord.line level { severity := .error, source := .commandLine, message := message }

def usageError (error : ArgumentError) : Outcome :=
  { status := 2, stderr := usageLine ++ "mlisp: error: " ++ error.message ++ "\n" }

/-- What the command line says about a run without a count. -/
def runFailureMessage (path shown : String) : RunFailure → String
  | .unopened failure => "Cannot read " ++ path ++ ": " ++ failure.message shown
  | .fault fault => fault.message

/-- Runs the file the options name. -/
def runFile (config : Config) (openFile : String → Except OpenFailure (List UInt8))
    (path : String) : Outcome :=
  let shown := Path.normal path
  let (result, session) :=
    (Session.start config.level config.keepGoing).runFile path (openFile shown)
  let log := renderLog config.level session.machine.log
  match result with
  | .ok failures =>
      { status := if failures = 0 then 0 else 1, stdout := session.machine.output, stderr := log }
  | .error failure =>
      { status := 1
        stdout := session.machine.output
        stderr := log ++ ownError config.level (runFailureMessage path shown failure) }

/-- The settings of a run. -/
def settings (environment : Variables) (options : Options) : Except UnknownLevel Config :=
  match options.level? with
  | none => Config.read environment none options.keepGoing?
  | some (.named name) => Config.read environment (some name) options.keepGoing?
  | some .nothing => .error .nothing

def run (environment : Variables) (openFile : String → Except OpenFailure (List UInt8))
    (arguments : List String) : Outcome :=
  match readArguments arguments with
  | .error error => usageError error
  | .ok .help => { status := 0, stdout := helpText }
  | .ok (.run options) =>
      match settings environment options with
      | .error error => { status := 2, stderr := ownError .none error.message }
      | .ok config => runFile config openFile options.path

end SetLisp.CommandLine
