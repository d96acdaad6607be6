import SetLisp.Env.Frame

namespace SetLisp

/-- A name means what the nearest frame that binds it says, starting from the frame of the running
call and going outward through the frames of its callers. Only the nearest frame is written to. -/
structure Chain where
  own : Frame
  outer : List Frame := []

namespace Chain

def frames (chain : Chain) : List Frame :=
  chain.own :: chain.outer

def lookup? (chain : Chain) (name : String) : Option Value :=
  chain.frames.findSome? (·.find? name)

def has (chain : Chain) (name : String) : Bool :=
  (chain.lookup? name).isSome

def define (chain : Chain) (name : String) (value : Value) : Chain :=
  { chain with own := chain.own.define name value }

def push (chain : Chain) (scope : Frame) : Chain :=
  { own := scope, outer := chain.frames }

/-- Drops the scope in front; the outermost frame always stays. -/
def pop (chain : Chain) : Chain :=
  match chain.outer with
  | [] => chain
  | caller :: outer => { own := caller, outer := outer }

end Chain

end SetLisp
