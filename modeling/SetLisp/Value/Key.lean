import SetLisp.Value.Same

/-!
# Keys of members

A set files each member under a key that is built from the structure of the member: what it is,
with its value or the keys of its parts, and the keys of the members of a set in no order. Keys are
equal when their parts are, and keys of sets when each key of one is in the other.
-/

namespace SetLisp

/-- What is compared as one object. A symbol of code, which is no value of a program, is known by
its name. -/
inductive Object where
  | builtin (function : Builtin)
  | lambda (id : Nat)
  | symbol (name : String)
  | foreign (id : Nat) (datum : Foreign)
  | nothing
deriving DecidableEq

inductive Key where
  | boolean (value : Bool)
  | number (value : Double)
  | list (keys : List Key)
  | set (keys : List Key)
  | object (object : Object)

namespace Key

/-- Whether each row and each of the `width` columns has a mark. -/
def marksAll (width : Nat) (rows : List (List Bool)) : Bool :=
  rows.all (·.any id) && (List.range width).all fun column => rows.any (·.getD column false)

mutual

def equal : Key → Key → Bool
  | boolean a, boolean b => a == b
  | number x, number y => x.same y
  | list xs, list ys => equalItems xs ys
  | set xs, set ys => marksAll ys.length (comparisons xs ys)
  | object a, object b => a == b
  | _, _ => false

def equalItems : List Key → List Key → Bool
  | [], [] => true
  | x :: xs, y :: ys => equal x y && equalItems xs ys
  | _, _ => false

/-- A row for each of the first keys that marks those of the second it is equal to. -/
def comparisons : List Key → List Key → List (List Bool)
  | [], _ => []
  | x :: xs, ys => ys.map (equal x) :: comparisons xs ys

end

end Key

namespace Value

def object? : Value → Option Object
  | builtin function => some (.builtin function)
  | lambda id _ _ => some (.lambda id)
  | symbol name => some (.symbol name)
  | foreign _ .nothing => some .nothing
  | foreign id datum => some (.foreign id datum)
  | _ => none

mutual

def key : Value → Key
  | boolean value => .boolean value
  | number value => .number value
  | symbol name => .object (.symbol name)
  | list items => .list (keys items)
  | set members => .set (keys members)
  | builtin function => .object (.builtin function)
  | lambda id _ _ => .object (.lambda id)
  | foreign _ .nothing => .object .nothing
  | foreign id datum => .object (.foreign id datum)

def keys : List Value → List Key
  | [] => []
  | value :: rest => key value :: keys rest

end

end Value

end SetLisp
