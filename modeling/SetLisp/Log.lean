/-!
# The log

A run leaves records behind. Which of them are kept, and how they are written, depends on the log
level alone. At level none only errors appear, as bare messages; the command line's own errors
keep their severity and source in front even then.
-/

namespace SetLisp

inductive LogLevel where
  | none
  | info
  | debug
deriving DecidableEq, Repr

namespace LogLevel

def name : LogLevel → String
  | none => "none"
  | info => "info"
  | debug => "debug"

def all : List LogLevel :=
  [none, info, debug]

def ofName? (name : String) : Option LogLevel :=
  all.find? fun level => level.name == name

/-- The least rank a record must have; level none leaves the log unconfigured. -/
def threshold? : LogLevel → Option Nat
  | none => .none
  | info => some 20
  | debug => some 10

end LogLevel

inductive Severity where
  | debug
  | info
  | error
deriving DecidableEq, Repr

namespace Severity

def name : Severity → String
  | debug => "DEBUG"
  | info => "INFO"
  | error => "ERROR"

def rank : Severity → Nat
  | debug => 10
  | info => 20
  | error => 40

end Severity

/-- The rank from which on records appear in an unconfigured log. -/
def unconfiguredRank : Nat := 30

def LogLevel.admits (level : LogLevel) (severity : Severity) : Bool :=
  level.threshold?.getD unconfiguredRank ≤ severity.rank

inductive LogSource where
  | interpreter
  | functionForm
  | commandLine
deriving DecidableEq, Repr

def LogSource.name : LogSource → String
  | interpreter => "mlisp.interpreter"
  | functionForm => "mlisp.evaluation.special_forms.fn_form"
  | commandLine => "root"

structure LogRecord where
  severity : Severity
  source : LogSource
  message : String
deriving DecidableEq, Repr

def LogRecord.line (level : LogLevel) (entry : LogRecord) : String :=
  match level, entry.source with
  | .none, .commandLine =>
      entry.severity.name ++ ":" ++ entry.source.name ++ ":" ++ entry.message ++ "\n"
  | .none, _ => entry.message ++ "\n"
  | _, source => entry.severity.name ++ " " ++ source.name ++ ": " ++ entry.message ++ "\n"

def renderLog (level : LogLevel) (records : List LogRecord) : String :=
  String.join (records.map (·.line level))

end SetLisp
