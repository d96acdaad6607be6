import SetLisp.Builtin.Name
import SetLisp.SpecialForm
import SetLisp.Text.Quoted

namespace SetLisp

inductive Bracket where
  | round
  | curly
deriving DecidableEq, Repr

namespace Bracket

def opener : Bracket → Char
  | round => '('
  | curly => '\x7b'

def closer : Bracket → Char
  | round => ')'
  | curly => '\x7d'

end Bracket

/-- The term reader fails on brackets that do not balance. -/
inductive ReaderError where
  | unexpected (closer : Bracket)
  | missing (closer : Bracket)
deriving DecidableEq, Repr

namespace ReaderError

def char : ReaderError → Char
  | unexpected bracket => bracket.closer
  | missing bracket => bracket.closer

def message : ReaderError → String
  | unexpected bracket => "Unexpected symbol " ++ Text.quoted (String.ofList [bracket.closer])
  | missing bracket => "Missing symbol " ++ Text.quoted (String.ofList [bracket.closer])

end ReaderError

inductive ParseError where
  | emptyInput
  | unexpectedToken (token : String)
  | missingToken
deriving DecidableEq, Repr

def ParseError.message : ParseError → String
  | .emptyInput => "Empty input"
  | .unexpectedToken token => "Unexpected token " ++ Text.quoted token
  | .missingToken => "Missing closing token"

inductive ArgumentCount where
  | some
  | one
  | two
  | someSet
deriving DecidableEq, Repr

def ArgumentCount.text : ArgumentCount → String
  | .some => "an argument"
  | .one => "exactly 1 argument"
  | .two => "exactly 2 arguments"
  | .someSet => "at least 1 set"

inductive ArgumentKind where
  | boolean
  | list
  | listArgument
  | listArguments
  | setArguments
deriving DecidableEq, Repr

def ArgumentKind.text : ArgumentKind → String
  | .boolean => "a boolean"
  | .list => "a list"
  | .listArgument => "a list argument"
  | .listArguments => "list arguments"
  | .setArguments => "set arguments"

inductive EvalError where
  | unknownSymbol (name : String)
  | notFunction (name : String)
  | notInScope (name : String)
  | emptyForm
  | literalHead
  | conditionNotBoolean
  | formArity (form : SpecialForm)
  | noArguments
  | tooFewArguments (expected given : Nat)
  | argumentCount (function : Builtin) (asked : ArgumentCount)
  | argumentKind (function : Builtin) (asked : ArgumentKind)
  | emptyHead
  | depthExceeded
deriving DecidableEq, Repr

def EvalError.message : EvalError → String
  | .unknownSymbol name => "Unknown symbol " ++ name
  | .notFunction name => name ++ " is not a function"
  | .notInScope name => name ++ " is not defined in this scope"
  | .emptyForm => "Cannot evaluate an empty list"
  | .literalHead => "The head of a call must be a symbol or a list"
  | .conditionNotBoolean => "if condition must be a boolean"
  | .formArity form => form.name ++ " requires " ++ form.arity
  | .noArguments => "A lambda call requires at least one argument"
  | .tooFewArguments expected given =>
      "Expected " ++ toString expected ++ " arguments, got " ++ toString given
  | .argumentCount function asked => function.name ++ " requires " ++ asked.text
  | .argumentKind function asked => function.name ++ " requires " ++ asked.text
  | .emptyHead => "head of an empty list"
  | .depthExceeded => "Maximum recursion depth exceeded"

end SetLisp
