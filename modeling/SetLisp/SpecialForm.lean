namespace SetLisp

/-- The names that are not called: no binding can change what a form with one of them does. -/
inductive SpecialForm where
  | conditional
  | define
  | lambda
  | function
deriving DecidableEq, Repr

namespace SpecialForm

def name : SpecialForm → String
  | conditional => "if"
  | define => "define"
  | lambda => "lambda"
  | function => "fn"

def all : List SpecialForm :=
  [conditional, define, lambda, function]

def ofName? (name : String) : Option SpecialForm :=
  all.find? fun form => form.name == name

/-- What the form says when it is given the wrong number of parts. -/
def arity : SpecialForm → String
  | conditional => "a condition, a then-expression and an else-expression"
  | define => "exactly 2 arguments"
  | lambda => "at least one parameter and a body"
  | function => "a name, at least one parameter and a body"

/-- Whether the form can be made of so many parts. -/
def takes : SpecialForm → Nat → Bool
  | conditional, count => count == 3
  | define, count => count == 2
  | lambda, count => 2 ≤ count
  | function, count => 3 ≤ count

theorem ofName?_name (form : SpecialForm) : ofName? form.name = some form := by
  cases form <;> decide

end SpecialForm

end SetLisp
