import SetLisp.Double.Notation
import SetLisp.Value

namespace SetLisp

def Double.ofInt (value : Int) : Double :=
  nearest (value < 0) (value.natAbs * unitsPerOne) 1

def Foreign.chars : Foreign → List Char
  | .integer value => (Double.ofInt value).chars
  | .text value => value.toList
  | .symbol name => name.toList
  | .nothing => "None".toList

namespace Value

mutual

def chars : Value → List Char
  | boolean true => "true".toList
  | boolean false => "false".toList
  | number value => value.chars
  | symbol name => name.toList
  | list items => '(' :: charsOfItems items ++ [')']
  | set members => '\x7b' :: charsOfItems members ++ ['\x7d']
  | builtin function => "<builtin ".toList ++ function.name.toList ++ ['>']
  | lambda _ parameters body =>
      "(lambda ".toList ++ parameters.flatMap (fun name => name.toList ++ [' ']) ++
        chars body ++ [')']
  | foreign _ datum => datum.chars

/-- The texts of the items with a space between neighbours. -/
def charsOfItems : List Value → List Char
  | [] => []
  | item :: rest => chars item ++ charsOfMore rest

/-- The texts of the items with a space in front of each. -/
def charsOfMore : List Value → List Char
  | [] => []
  | item :: rest => ' ' :: chars item ++ charsOfMore rest

end

theorem chars_lambda (id : Nat) (parameters : List String) (body : Value) :
    (lambda id parameters body).chars =
      "(lambda ".toList ++ parameters.flatMap (fun name => name.toList ++ [' ']) ++ body.chars ++
        [')'] := rfl

def text (value : Value) : String :=
  String.ofList value.chars

/-- What keeps a value from being shown. -/
inductive TextFault where
  | tooDeep
  | integerTooLarge
deriving DecidableEq, Repr

mutual

/-- The first obstacle to showing the value when there is room for `room` levels of nesting. -/
def textFault? : Nat → Value → Option TextFault
  | 0, _ => some .tooDeep
  | room + 1, list items => textFaultOfItems? room items
  | room + 1, set members => textFaultOfItems? room members
  | room + 1, lambda _ _ body => textFault? room body
  | _ + 1, foreign _ (.integer value) =>
      if (Double.ofInt value).isInfinite then some .integerTooLarge else none
  | _ + 1, _ => none

def textFaultOfItems? : Nat → List Value → Option TextFault
  | _, [] => none
  | room, item :: rest => (textFault? room item).or (textFaultOfItems? room rest)

end

end Value

end SetLisp
