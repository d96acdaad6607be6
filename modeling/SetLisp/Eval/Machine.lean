import SetLisp.Env.Chain
import SetLisp.Halt
import SetLisp.Log
import SetLisp.Value.Text

/-!
# The machine

What evaluation reads and changes: the chain of frames, the text printed so far, the log and the
supply of identities. An evaluation ends with a value or halts; either way the machine keeps what
was done before.
-/

namespace SetLisp

structure Machine where
  chain : Chain
  output : String := ""
  log : List LogRecord := []
  level : LogLevel := .none
  /-- the next identity, and the next payload, that nothing carries yet -/
  next : Nat := 1

abbrev Eval := ExceptT Halt (StateM Machine)

namespace Machine

def write (machine : Machine) (text : String) : Machine :=
  { machine with output := machine.output ++ text }

def define (machine : Machine) (name : String) (value : Value) : Machine :=
  { machine with chain := machine.chain.define name value }

def record (machine : Machine) (entry : LogRecord) : Machine :=
  if machine.level.admits entry.severity then { machine with log := machine.log ++ [entry] }
  else machine

/-- Sets `count` identities aside. -/
def skip (machine : Machine) (count : Nat) : Machine :=
  { machine with next := machine.next + count }

def enter (machine : Machine) (scope : Frame) : Machine :=
  { machine with chain := machine.chain.push scope }

def leave (machine : Machine) : Machine :=
  { machine with chain := machine.chain.pop }

end Machine

namespace Eval

def fail {α : Type} (error : EvalError) : Eval α :=
  throw (.error error)

/-- The text of a value, for which there must be room. -/
def textOf (room : Nat) (value : Value) : Eval String :=
  match value.textFault? room with
  | none => pure value.text
  | some .tooDeep => throw .exhausted
  | some .integerTooLarge => throw (.fault .integerTooLarge)

def textsOf (room : Nat) : List Value → Eval (List String)
  | [] => pure []
  | value :: rest => do
      let text ← textOf room value
      let texts ← textsOf room rest
      pure (text :: texts)

def lookup? (name : String) : Eval (Option Value) := do
  return (← get).chain.lookup? name

def define (name : String) (value : Value) : Eval Unit :=
  modify (·.define name value)

def write (text : String) : Eval Unit :=
  modify (·.write text)

def record (severity : Severity) (source : LogSource) (message : String) : Eval Unit :=
  modify (·.record { severity := severity, source := source, message := message })

def debugging : Eval Bool := do
  return (← get).level.admits .debug

/-- An identity that nothing carries yet. -/
def fresh : Eval Nat := do
  let machine ← get
  set (machine.skip 1)
  return machine.next

/-- Runs an action in a new scope, which is dropped however the action ends. -/
def inScope {α : Type} (scope : Frame) (action : Eval α) : Eval α :=
  ExceptT.mk fun machine =>
    let (result, after) := action.run (machine.enter scope)
    (result, after.leave)

end Eval

end SetLisp
