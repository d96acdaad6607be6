import SetLisp.Eval.Evaluate
import SetLisp.Parser

namespace SetLisp

/-- Why a text or an expression has no values. -/
inductive Failure where
  | parse (error : ParseError)
  | eval (error : EvalError)
  | fault (fault : Fault)
deriving DecidableEq, Repr

namespace Failure

def message : Failure → String
  | parse error => error.message
  | eval error => error.message
  | fault reason => reason.message

def ofParseFault : ParseFault → Failure
  | .error error => parse error
  | .tooDeep => eval .depthExceeded

def ofHalt : Halt → Failure
  | .error error => eval error
  | .exhausted => eval .depthExceeded
  | .fault reason => fault reason

end Failure

/-- A session evaluates one text after another against the same frame. -/
structure Session where
  machine : Machine
  keepGoing : Bool := false
  limit : Nat := defaultLimit

namespace Session

def start (level : LogLevel) (keepGoing : Bool) : Session :=
  { machine := { chain := { own := initialFrame }, level := level }, keepGoing := keepGoing }

def run {α : Type} (session : Session) (action : Eval α) : Except Failure α × Session :=
  let (result, machine) := ExceptT.run action session.machine
  (result.mapError Failure.ofHalt, { session with machine := machine })

/-- Parses a text and goes on with its expressions. A text that is refused changes nothing. -/
def runText {α : Type} (session : Session) (code : String) (action : List Value → Eval α) :
    Except Failure α × Session :=
  let tokens := tokenize code
  match parseAll session.limit session.machine.next tokens with
  | .error failure => (.error (.ofParseFault failure.fault), session)
  | .ok exprs =>
      { session with machine := session.machine.skip tokens.length }.run (action exprs)

def evaluate (session : Session) (expr : Value) : Except Failure Value × Session :=
  session.run (SetLisp.evaluate session.limit expr)

def eval (session : Session) (code : String) : Except Failure (List Value) × Session :=
  session.runText code (evaluateAll session.limit)

/-- Evaluates expressions, recording each with its value, and pairs them with their values. -/
def evaluateRecorded (room : Nat) : List Value → Eval (List (Value × Value))
  | [] => pure []
  | expr :: rest => do
      let value ← SetLisp.evaluate room expr
      if ← Eval.debugging then
        let shown ← Eval.textOf room expr
        Eval.record .debug .interpreter (shown ++ " -> " ++ (← Eval.textOf room value))
      let pairs ← evaluateRecorded room rest
      return (expr, value) :: pairs

def evalTerm (session : Session) (term : String) :
    Except Failure (List (Value × Value)) × Session :=
  session.runText term (evaluateRecorded session.limit)

def record (session : Session) (severity : Severity) (message : String) : Session :=
  let entry : LogRecord := { severity := severity, source := .interpreter, message := message }
  { session with machine := session.machine.record entry }

def write (session : Session) (text : String) : Session :=
  { session with machine := session.machine.write text }

/-- The text printed and the log kept since they were last collected. -/
def collect (session : Session) : String × String × Session :=
  let machine := session.machine
  (machine.output, renderLog machine.level machine.log,
    { session with machine := { machine with output := "", log := [] } })

/-- The names bound in the frame of the session besides those it may have started with. -/
def ownNames (session : Session) : List String :=
  session.machine.chain.own.names.filter fun name => !initialFrame.binds name

end Session

end SetLisp
