import SetLisp.Eval.Evaluate
import SetLisp.Proofs.Eval.Keeps
import SetLisp.Proofs.Eval.Rules

namespace SetLisp

/-- A fault among the reasons of the halt is that of an integer too large to be shown. -/
def Halt.IsRegular (halt : Halt) : Prop :=
  ∀ fault, halt = .fault fault → fault = .integerTooLarge

namespace Eval

variable {α β : Type}

/-- From any machine, no list is taken apart into parts that it does not have. -/
def Regular (action : Eval α) : Prop :=
  Keeps (fun _ => True) Halt.IsRegular (fun _ => True) action

namespace Regular

theorem pure (value : α) : Regular (Pure.pure value) :=
  Keeps.pure trivial

theorem fail (error : EvalError) : Regular (fail error : Eval α) :=
  Keeps.throw nofun

theorem exhausted : Regular (throw .exhausted : Eval α) :=
  Keeps.throw nofun

theorem bind {action : Eval α} {next : α → Eval β} (haction : Regular action)
    (hnext : ∀ value, Regular (next value)) : Regular (action >>= next) :=
  Keeps.bind haction fun value _ => hnext value

theorem lookup? (name : String) : Regular (Eval.lookup? name) :=
  fun _ _ => ⟨trivial, trivial⟩

theorem define (name : String) (value : Value) : Regular (Eval.define name value) :=
  keeps_define fun _ _ => trivial

theorem fresh : Regular Eval.fresh :=
  keeps_fresh fun _ _ _ => trivial

theorem textOf (room : Nat) (value : Value) : Regular (Eval.textOf room value) := by
  unfold Eval.textOf
  split
  · exact .pure value.text
  · exact .exhausted
  · exact Keeps.throw fun fault hfault => (Halt.fault.inj hfault).symm

theorem textsOf (room : Nat) (values : List Value) : Regular (Eval.textsOf room values) := by
  induction values with
  | nil => exact .pure []
  | cons value rest ih =>
      exact (textOf room value).bind fun text => ih.bind fun texts => .pure (text :: texts)

theorem evaluateEach {evaluate : Value → Eval Value} (heval : ∀ expr, Regular (evaluate expr))
    (exprs : List Value) : Regular (evaluateEach evaluate exprs) := by
  induction exprs with
  | nil => exact .pure []
  | cons expr rest ih =>
      exact (heval expr).bind fun value => ih.bind fun values => .pure (value :: values)

theorem applyBuiltin (room : Nat) (function : Builtin) (args : Value) :
    Regular (applyBuiltin room function args) := by
  rw [applyBuiltin_eq]
  refine fresh.bind fun payload => ?_
  cases function.resultOfAll payload args with
  | error error => exact .fail error
  | ok value =>
      dsimp only
      split
      · exact .exhausted
      · split
        · have hwrite (text : String) : Regular (write text) :=
            keeps_write (fun _ _ _ => trivial) text
          exact (textOf room value).bind fun text =>
            (hwrite (text ++ "\n")).bind fun _ => .pure value
        · exact .pure value

theorem makeLambda (room : Nat) (parameters : List Value) (body : Value) :
    Regular (makeLambda room parameters body) :=
  (textsOf room parameters).bind fun _ => fresh.bind fun _ => .pure _

theorem recordDefinition (room : Nat) (name : String) (function : Value) :
    Regular (recordDefinition room name function) := by
  unfold Eval.recordDefinition
  split
  · exact keeps_record (fun _ _ _ => trivial) _ _ _
  · exact .exhausted
  · exact .pure ()

theorem defineFunction (room : Nat) (name : Value) (parameters : List Value) (body : Value) :
    Regular (defineFunction room name parameters body) := by
  refine (makeLambda room parameters body).bind fun function => ?_
  refine (textOf room name).bind fun name => (define name function).bind fun _ => ?_
  refine Regular.bind keeps_debugging fun debug => ?_
  cases debug with
  | false => exact .pure (Value.boolean true)
  | true => exact (recordDefinition room name function).bind fun _ => .pure (Value.boolean true)

variable {evaluate : Value → Eval Value} (heval : ∀ expr, Regular (evaluate expr))

include heval

theorem runForm (room : Nat) (form : SpecialForm) (parts : List Value) :
    Regular (runForm evaluate room form parts) := by
  cases formRule form parts with
  | conditional condition yes no =>
      rw [runForm_conditional]
      refine (heval condition).bind fun value => ?_
      split
      · exact heval yes
      · exact heval no
      · exact .fail .conditionNotBoolean
  | define name expr =>
      rw [runForm_define]
      exact (heval expr).bind fun value => (textOf room name).bind fun text =>
        (define text value).bind fun _ => .pure value
  | lambda parameters body hne =>
      rw [runForm_lambda evaluate room hne]
      exact makeLambda room parameters body
  | function name parameters body hne =>
      rw [runForm_function evaluate room name hne]
      exact defineFunction room name parameters body
  | arity form parts htakes =>
      rw [runForm_arity evaluate room htakes]
      exact .fail (.formArity form)

theorem apply (room : Nat) (name : String) (function : Value) (args : List Value) :
    Regular (apply evaluate room name function args) := by
  unfold Eval.apply
  split
  · exact applyBuiltin room _ (.list args)
  · unfold applyLambda
    split
    · exact .fail .noArguments
    · split
      · exact .fail _
      · exact keeps_inScope (fun _ _ => trivial) (fun _ _ => trivial) (heval _)
  · exact .fail (.notFunction name)

theorem call (room : Nat) (name : String) (exprs : List Value) :
    Regular (call evaluate room name exprs) := by
  refine (lookup? name).bind fun found => ?_
  cases found with
  | none => exact .fail (.notInScope name)
  | some function =>
      dsimp only
      split
      · exact (evaluateEach heval exprs).bind fun args => apply heval room name function args
      · exact .fail (.notFunction name)

end Regular

theorem regular_evaluate (room : Nat) (expr : Value) : Regular (evaluate room expr) := by
  induction room generalizing expr with
  | zero => exact .exhausted
  | succ room ih =>
      unfold evaluate
      split
      · next name =>
          refine (Regular.lookup? name).bind fun found => ?_
          cases found with
          | none => exact .fail (.unknownSymbol name)
          | some value => exact .pure value
      · exact .fail .emptyForm
      · next head rest => exact (ih (.list head)).bind fun _ => ih (.list rest)
      · next name rest =>
          cases SpecialForm.ofName? name with
          | none => exact .call ih room name rest
          | some form => exact .runForm ih room form rest
      · exact .fail .literalHead
      · exact .pure expr

end Eval

open Eval

/-- **No rule takes apart what it has not looked at.** Whatever expressions are evaluated on
whatever machine, the one fault there can be is that of an integer too large to be shown: the parts
of the forms and the arguments of the builtins are counted first. -/
theorem fault_of_evaluateAll {room : Nat} {exprs : List Value} {machine after : Machine}
    {fault : Fault}
    (h : (evaluateAll room exprs).outcome machine = (.error (.fault fault), after)) :
    fault = .integerTooLarge := by
  have hends := (Regular.evaluateEach (regular_evaluate room) exprs machine trivial).2
  change EndsWell _ _ ((evaluateAll room exprs).outcome machine).1 at hends
  rw [h] at hends
  exact hends fault rfl

end SetLisp
