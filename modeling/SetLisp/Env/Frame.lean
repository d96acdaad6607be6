import SetLisp.Value

namespace SetLisp

/-- The names are listed in the order in which they were first bound. Binding a name again changes
its value and not its place. -/
abbrev Frame := List (String × Value)

namespace Frame

def find? : Frame → String → Option Value
  | [], _ => none
  | (bound, value) :: rest, name => if bound = name then some value else find? rest name

def define : Frame → String → Value → Frame
  | [], name, value => [(name, value)]
  | (bound, old) :: rest, name, value =>
      if bound = name then (bound, value) :: rest else (bound, old) :: define rest name value

def binds (frame : Frame) (name : String) : Bool :=
  (frame.find? name).isSome

def names (frame : Frame) : List String :=
  frame.map (·.1)

def update (frame : Frame) (bindings : List (String × Value)) : Frame :=
  bindings.foldl (fun frame binding => frame.define binding.1 binding.2) frame

end Frame

/-- The double nearest to the ratio of a circle's circumference to its diameter. -/
def piUnits : Nat := 884279719003555 * Nat.pow 2 1026

/-- The double nearest to the base of the natural logarithm. -/
def eUnits : Nat := 6121026514868073 * Nat.pow 2 1023

def constants : List (String × Value) :=
  [("pi", .number (.ofUnits false piUnits)), ("e", .number (.ofUnits false eUnits))]

/-- What programs start with: every builtin under its name, and the constants. -/
def initialFrame : Frame :=
  Builtin.all.map (fun function => (function.name, .builtin function)) ++ constants

end SetLisp
