import SetLisp.Builtin.Name
import SetLisp.Double.Basic

/-!
# Values

One type serves for the expressions that are evaluated and for the values they have. Sets hold
their members in order of insertion. A lambda carries an identity of its own, which tells two
lambdas of equal text apart.

The native functions are the entries of the catalogue of builtins, one object for each entry. They
have no identity of their own and are compared by name; neither a second object of an entry nor a
native function of an embedder is among the values.

An embedder may hand in data that the language has no name for. It passes through unharmed and
belongs to none of the kinds the builtins work on.
-/

namespace SetLisp

/-- Data of an embedder. -/
inductive Foreign where
  | integer (value : Int)
  | text (value : String)
  | symbol (name : String)
  | nothing
deriving DecidableEq, Repr

inductive Value where
  | boolean (value : Bool)
  | number (value : Double)
  | symbol (name : String)
  | list (items : List Value)
  | set (members : List Value)
  | builtin (function : Builtin)
  | lambda (id : Nat) (parameters : List String) (body : Value)
  | foreign (id : Nat) (datum : Foreign)

namespace Value

def boolean? : Value → Option Bool
  | boolean value => some value
  | _ => none

def number? : Value → Option Double
  | number value => some value
  | _ => none

def set? : Value → Option (List Value)
  | set members => some members
  | _ => none

/-- Whether the value can stand behind the head of a call. -/
def isFunction : Value → Bool
  | builtin _ => true
  | lambda .. => true
  | _ => false

end Value

end SetLisp
