import SetLisp.Log
import SetLisp.Text.Blank
import SetLisp.Text.Lowercase
import SetLisp.Text.Quoted

/-!
# Settings

The log level and whether to keep going after a failure. A setting that is given explicitly wins,
and the variable for it is then not read. In a variable, blanks at the ends and letter case do not
count.
-/

namespace SetLisp

/-- A log level that does not exist: an unknown name, or no name at all. -/
inductive UnknownLevel where
  | named (name : String)
  | nothing
deriving DecidableEq, Repr

def UnknownLevel.shown : UnknownLevel → String
  | named name => Text.quoted name
  | nothing => "[]"

def UnknownLevel.message (error : UnknownLevel) : String :=
  "Unknown log level " ++ error.shown ++ ", expected one of " ++
    ", ".intercalate (LogLevel.all.map LogLevel.name)

abbrev Variables := List (String × String)

def Variables.get? (environment : Variables) (name : String) : Option String :=
  (environment.find? fun entry => entry.1 == name).map (·.2)

def levelVariable : String := "MLISP_LOG_LEVEL"

def keepGoingVariable : String := "MLISP_KEEP_GOING"

def LogLevel.read (name : String) : Except UnknownLevel LogLevel :=
  (LogLevel.ofName? name).elim (.error (.named name)) .ok

def cleaned (raw : String) : String :=
  Text.lowercase (Text.trim raw)

namespace Variables

/-- The log level of the variables; an absent or empty variable sets none. -/
def level? (environment : Variables) : Except UnknownLevel (Option LogLevel) :=
  match environment.get? levelVariable with
  | none => .ok none
  | some raw => if raw.isEmpty then .ok none else (LogLevel.read (cleaned raw)).map some

def truthy : List String :=
  ["1", "true", "yes", "on"]

/-- Whether a variable switches something on; an absent or blank variable leaves the default. -/
def flag (environment : Variables) (name : String) (default : Bool) : Bool :=
  match environment.get? name with
  | none => default
  | some raw => if (Text.trim raw).isEmpty then default else truthy.contains (cleaned raw)

end Variables

structure Config where
  level : LogLevel := .none
  keepGoing : Bool := false
deriving DecidableEq, Repr

/-- The settings given explicitly, completed from the variables. -/
def Config.read (environment : Variables) (level? : Option String) (keepGoing? : Option Bool) :
    Except UnknownLevel Config := do
  let level ←
    match level? with
    | some name => LogLevel.read name
    | none => (·.getD .none) <$> environment.level?
  return { level := level, keepGoing := keepGoing?.getD (environment.flag keepGoingVariable false) }

end SetLisp
