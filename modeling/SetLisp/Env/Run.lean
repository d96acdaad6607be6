import SetLisp.Env.Tree
import SetLisp.Eval.Evaluate
import SetLisp.Parser

namespace SetLisp

inductive FrameFailure where
  | parse (fault : ParseFault)
  | halt (halt : Halt)
deriving DecidableEq, Repr

/-- A tree and the supply of identities. -/
structure FrameWorld where
  tree : Tree := []
  next : Nat := 1

namespace FrameWorld

def eval (world : FrameWorld) (limit id : Nat) (code : String) :
    Except FrameFailure (List Value) × FrameWorld :=
  let tokens := tokenize code
  match parseAll limit world.next tokens with
  | .error failure => (.error (.parse failure.fault), world)
  | .ok exprs =>
      let machine : Machine := { chain := world.tree.chain id, next := world.next + tokens.length }
      let (result, machine) := ExceptT.run (evaluateAll limit exprs) machine
      (result.mapError .halt,
        { tree := world.tree.setFrame id machine.chain.own, next := machine.next })

end FrameWorld

end SetLisp
