import SetLisp.Eval.Machine

namespace SetLisp.Eval

def makeLambda (room : Nat) (parameters : List Value) (body : Value) : Eval Value := do
  let names ← textsOf room parameters
  return .lambda (← fresh) names body

/-- The log puts the function into words when it writes the record, and loses a record that it
cannot write for an integer that is too large. -/
def recordDefinition (room : Nat) (name : String) (function : Value) : Eval Unit :=
  match function.textFault? room with
  | none => record .debug .functionForm ("defined " ++ name ++ " as " ++ function.text)
  | some .tooDeep => throw .exhausted
  | some .integerTooLarge => pure ()

def defineFunction (room : Nat) (name : Value) (parameters : List Value) (body : Value) :
    Eval Value := do
  let function ← makeLambda room parameters body
  let name ← textOf room name
  define name function
  if ← debugging then recordDefinition room name function
  return .boolean true

/-- A form counts its parts before it takes them apart. A definition binds the text of its first
part in the nearest frame. -/
def runForm (evaluate : Value → Eval Value) (room : Nat) (form : SpecialForm)
    (parts : List Value) : Eval Value :=
  if form.takes parts.length then
    match form with
    | .conditional => do
        match ← evaluate (← ofExcept (Parts.item parts 0)) with
        | .boolean true => evaluate (← ofExcept (Parts.item parts 1))
        | .boolean false => evaluate (← ofExcept (Parts.item parts 2))
        | _ => fail .conditionNotBoolean
    | .define => do
        let (name, expr) ← ofExcept (Parts.pair parts)
        let value ← evaluate expr
        define (← textOf room name) value
        return value
    | .lambda => do
        let (parameters, body) ← ofExcept (Parts.frontAndLast parts)
        makeLambda room parameters body
    | .function => do
        let (name, parameters, body) ← ofExcept (Parts.ends parts)
        defineFunction room name parameters body
  else fail (.formArity form)

end SetLisp.Eval
