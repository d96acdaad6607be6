import SetLisp.Env.Chain
import SetLisp.Value.Inspect

namespace SetLisp

def Frame.inspect (frame : Frame) : String :=
  let entries := frame.map fun binding => binding.1 ++ ": " ++ binding.2.inspect
  "\x7b" ++ ", ".intercalate entries ++ "\x7d"

def Frame.inspectFault? (room : Nat) (frame : Frame) : Option Value.TextFault :=
  Value.inspectFaultOfItems? room (frame.map (·.2))

namespace Chain

/-- The nearest frame and a hint of those behind it. -/
def brief (chain : Chain) : String :=
  chain.own.inspect ++ if chain.outer.isEmpty then "" else " -> ..."

def briefFault? (room : Nat) (chain : Chain) : Option Value.TextFault :=
  chain.own.inspectFault? room

def inspect (chain : Chain) : String :=
  "<Environment chain: " ++ " -> ".intercalate (chain.frames.map Frame.inspect) ++ ">"

def inspectFault? (room : Nat) (chain : Chain) : Option Value.TextFault :=
  chain.frames.findSome? (Frame.inspectFault? room)

end Chain

end SetLisp
