import SetLisp.Double.Notation
import SetLisp.Text.Quoted
import SetLisp.Value.Text

namespace SetLisp

def Foreign.inspect : Foreign → String
  | .integer value => toString value
  | .text value => Text.quoted value
  | .symbol name => "Symbol(" ++ Text.quoted name ++ ")"
  | .nothing => "None"

namespace Value

mutual

def inspect : Value → String
  | boolean true => "True"
  | boolean false => "False"
  | number value => value.inspect
  | symbol name => "Symbol(" ++ Text.quoted name ++ ")"
  | list items => "[" ++ inspectItems items ++ "]"
  | set members => "LispSet([" ++ inspectItems members ++ "])"
  | builtin function => (builtin function).text
  | lambda id parameters body => (lambda id parameters body).text
  | foreign _ datum => datum.inspect

/-- The inspected items with a comma and a space between neighbours. -/
def inspectItems : List Value → String
  | [] => ""
  | item :: rest => inspect item ++ inspectMore rest

def inspectMore : List Value → String
  | [] => ""
  | item :: rest => ", " ++ inspect item ++ inspectMore rest

end

mutual

/-- The first obstacle to inspecting the value when there is room for `room` levels of nesting. A
lambda is shown as its text, so an obstacle to the text is one here too. -/
def inspectFault? : Nat → Value → Option TextFault
  | 0, _ => some .tooDeep
  | room + 1, list items => inspectFaultOfItems? room items
  | room + 1, set members => inspectFaultOfItems? room members
  | room + 1, lambda _ _ body => textFault? room body
  | _ + 1, _ => none

def inspectFaultOfItems? : Nat → List Value → Option TextFault
  | _, [] => none
  | room, item :: rest => (inspectFault? room item).or (inspectFaultOfItems? room rest)

end

end Value

end SetLisp
