import SetLisp.Eval.Apply
import SetLisp.Eval.Form

/-!
# Evaluation

Symbols stand for what they are bound to, and everything that is neither a symbol nor a list for
itself. A list is a special form or a call if a symbol heads it. A list in head position is
evaluated for its effects, and the rest of the form is then evaluated as a form of its own.

Evaluation nests at most as deeply as there is room for, and the same room bounds the nesting of
the values it shows or puts into sets.
-/

namespace SetLisp

open Eval

def evaluate : Nat → Value → Eval Value
  | 0, _ => throw .exhausted
  | room + 1, expr =>
      match expr with
      | .symbol name => do
          match ← lookup? name with
          | some value => return value
          | none => fail (.unknownSymbol name)
      | .list [] => fail .emptyForm
      | .list (.list head :: rest) => do
          let _ ← evaluate room (.list head)
          evaluate room (.list rest)
      | .list (.symbol name :: rest) =>
          match SpecialForm.ofName? name with
          | some form => runForm (evaluate room) room form rest
          | none => call (evaluate room) room name rest
      | .list _ => fail .literalHead
      | value => return value

def evaluateAll (room : Nat) (exprs : List Value) : Eval (List Value) :=
  evaluateEach (evaluate room) exprs

end SetLisp
