import SetLisp.Builtin.Answer
import SetLisp.Eval.Machine

namespace SetLisp.Eval

def applyBuiltin (room : Nat) (function : Builtin) (args : Value) : Eval Value := do
  let payload ← fresh
  let value ← ofExcept (function.answerOfAll payload args)
  if Value.someTooDeepForMember room (function.newMembers args) then throw .exhausted
  if function = .print then write ((← textOf room value) ++ "\n")
  return value

/-- The scope of a call: each parameter with its argument, further arguments left out. -/
def callScope (parameters : List String) (args : List Value) : Except EvalError Frame :=
  if args.length < parameters.length then
    .error (.tooFewArguments parameters.length args.length)
  else .ok (Frame.update [] (parameters.zip args))

/-- The body runs in a scope of its own in front of the frames of the caller, and nothing remembers
the frames the lambda was made in. -/
def applyLambda (evaluate : Value → Eval Value) (parameters : List String) (body : Value)
    (args : List Value) : Eval Value :=
  if args.isEmpty then fail .noArguments
  else
    match callScope parameters args with
    | .error error => fail error
    | .ok scope => inScope scope (evaluate body)

def apply (evaluate : Value → Eval Value) (room : Nat) (name : String) (function : Value)
    (args : List Value) : Eval Value :=
  match function with
  | .builtin function => applyBuiltin room function (.list args)
  | .lambda _ parameters body => applyLambda evaluate parameters body args
  | _ => fail (.notFunction name)

def evaluateEach (evaluate : Value → Eval Value) : List Value → Eval (List Value)
  | [] => pure []
  | expr :: rest => do
      let value ← evaluate expr
      let values ← evaluateEach evaluate rest
      return value :: values

/-- Calls what is bound to `name` before the arguments are evaluated. -/
def call (evaluate : Value → Eval Value) (room : Nat) (name : String) (exprs : List Value) :
    Eval Value := do
  match ← lookup? name with
  | none => fail (.notInScope name)
  | some function =>
      if function.isFunction then
        apply evaluate room name function (← evaluateEach evaluate exprs)
      else fail (.notFunction name)

end SetLisp.Eval
