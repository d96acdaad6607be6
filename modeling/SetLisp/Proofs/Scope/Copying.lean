import SetLisp.Eval.Evaluate
import SetLisp.Proofs.Eval.Alike
import SetLisp.Proofs.Scope.Table

/-!
# Calls on copies

A call runs its body in a scope in front of the frames of its caller. It could as well copy all the
caller sees into one table, write the parameters over it, run the body on the table and throw it
away. The two ways are compared by one evaluator that leaves open how a call runs its body.

The scope is linked to the frames behind it and the table is not, so the comparison rests on an
invariant: while a body runs, no frame behind its own changes.
-/

namespace SetLisp

/-- How a call runs its body, given the bindings of its parameters. -/
abbrev Scoping := Frame → Eval Value → Eval Value

namespace Eval

def applyLambdaBy (scoping : Scoping) (evaluate : Value → Eval Value) (parameters : List String)
    (body : Value) (args : List Value) : Eval Value :=
  if args.isEmpty then fail .noArguments
  else
    match callScope parameters args with
    | .error error => fail error
    | .ok scope => scoping scope (evaluate body)

def applyBy (scoping : Scoping) (evaluate : Value → Eval Value) (room : Nat) (name : String)
    (function : Value) (args : List Value) : Eval Value :=
  match function with
  | .builtin function => applyBuiltin room function (.list args)
  | .lambda _ parameters body => applyLambdaBy scoping evaluate parameters body args
  | _ => fail (.notFunction name)

def callBy (scoping : Scoping) (evaluate : Value → Eval Value) (room : Nat) (name : String)
    (exprs : List Value) : Eval Value := do
  match ← lookup? name with
  | none => fail (.notInScope name)
  | some function =>
      if function.isFunction then
        applyBy scoping evaluate room name function (← evaluateEach evaluate exprs)
      else fail (.notFunction name)

end Eval

open Eval

/-- Evaluation with calls that run their bodies in the given way. -/
def evaluateBy (scoping : Scoping) : Nat → Value → Eval Value
  | 0, _ => throw .exhausted
  | room + 1, expr =>
      match expr with
      | .symbol name => do
          match ← lookup? name with
          | some value => return value
          | none => fail (.unknownSymbol name)
      | .list [] => fail .emptyForm
      | .list (.list head :: rest) => do
          let _ ← evaluateBy scoping room (.list head)
          evaluateBy scoping room (.list rest)
      | .list (.symbol name :: rest) =>
          match SpecialForm.ofName? name with
          | some form => runForm (evaluateBy scoping room) room form rest
          | none => callBy scoping (evaluateBy scoping room) room name rest
      | .list _ => fail .literalHead
      | value => return value

/-- With scopes in front of the caller's frames this is evaluation itself. -/
theorem evaluateBy_inScope (room : Nat) : evaluateBy inScope room = evaluate room := by
  induction room with
  | zero => rfl
  | succ room ih =>
      funext expr
      unfold evaluateBy evaluate
      rw [ih]
      rfl

/-- The machine with a table in place of its chain. -/
def Machine.onTable (machine : Machine) (table : Frame) : Machine :=
  { machine with chain := { own := table } }

theorem Machine.record_onTable (machine : Machine) (table : Frame) (entry : LogRecord) :
    (machine.onTable table).record entry = (machine.record entry).onTable table := by
  by_cases hadmits : machine.level.admits entry.severity <;>
    simp [Machine.record, Machine.onTable, hadmits]

/-- Runs an action on a table of all the chain shows, with the bindings of the scope written over
it. The table is thrown away however the action ends. -/
def Eval.onCopy (scope : Frame) (action : Eval Value) : Eval Value :=
  ExceptT.mk fun machine =>
    let (result, after) := action.run (machine.onTable (scope.overlay machine.chain.flatten))
    (result, { after with chain := machine.chain })

theorem Eval.outcome_onCopy (scope : Frame) (action : Eval Value) (machine : Machine) :
    (onCopy scope action).outcome machine =
      ((action.outcome (machine.onTable (scope.overlay machine.chain.flatten))).1,
        { (action.outcome (machine.onTable (scope.overlay machine.chain.flatten))).2 with
          chain := machine.chain }) := rfl

/-- The second machine runs on a table of all the chain of the first shows, the frames behind the
nearest one being `outer`. -/
def Tabled (outer : List Frame) (machine copy : Machine) : Prop :=
  machine.chain.outer = outer ∧
    ∃ table, copy = machine.onTable table ∧ ∀ name, table.find? name = machine.chain.lookup? name

theorem tabled_flatten (machine : Machine) :
    Tabled machine.chain.outer machine (machine.onTable machine.chain.flatten) :=
  ⟨rfl, machine.chain.flatten, rfl, machine.chain.find?_flatten⟩

theorem respected_tabled (outer : List Frame) : Respected (Tabled outer) where
  lookup? := by
    rintro machine _ ⟨_, table, rfl, htable⟩ name
    rw [← htable name]
    exact (Chain.lookup?_singleton table name).symm
  level := by
    rintro machine _ ⟨_, table, rfl, _⟩
    rfl
  next := by
    rintro machine _ ⟨_, table, rfl, _⟩
    rfl
  define := by
    rintro machine _ ⟨houter, table, rfl, htable⟩ name value
    refine ⟨houter, table.define name value, rfl, fun other => ?_⟩
    rw [Frame.find?_define, htable other]
    exact (machine.chain.lookup?_define name other value).symm
  write := by
    rintro machine _ ⟨houter, table, rfl, htable⟩ text
    exact ⟨houter, table, rfl, htable⟩
  record := by
    rintro machine _ ⟨houter, table, rfl, htable⟩ entry
    refine ⟨?_, table, machine.record_onTable table entry, fun name => ?_⟩
    · rw [machine.chain_record, houter]
    · rw [machine.chain_record, htable name]
  skip := by
    rintro machine _ ⟨houter, table, rfl, htable⟩ count
    exact ⟨houter, table, rfl, htable⟩

/-! ### Bodies on copies

A family of links stands for the frames that may be behind the nearest one. Two ways to run a body
fit together when they lead from bodies that run alike, whatever is behind them, to calls that do.
-/

section

variable {ι : Type} {link : ι → Machine → Machine → Prop} (h : ∀ i, Respected (link i))
  {first second : Scoping}
  (hscoping : ∀ scope {action action' : Eval Value}, (∀ i, Alike (link i) action action') →
    ∀ i, Alike (link i) (first scope action) (second scope action'))

include h hscoping

theorem alike_applyBy {evaluate evaluate' : Value → Eval Value}
    (heval : ∀ expr i, Alike (link i) (evaluate expr) (evaluate' expr)) (room : Nat)
    (name : String) (function : Value) (args : List Value) (i : ι) :
    Alike (link i) (applyBy first evaluate room name function args)
      (applyBy second evaluate' room name function args) := by
  unfold applyBy
  split
  · exact (h i).alike_applyBuiltin room _ (.list args)
  · next parameters body =>
      unfold applyLambdaBy
      split
      · exact Alike.fail .noArguments
      · cases callScope parameters args with
        | error error => exact Alike.fail error
        | ok scope => exact hscoping scope (heval body) i
  · exact Alike.fail (.notFunction name)

theorem alike_callBy {evaluate evaluate' : Value → Eval Value}
    (heval : ∀ expr i, Alike (link i) (evaluate expr) (evaluate' expr)) (room : Nat)
    (name : String) (exprs : List Value) (i : ι) :
    Alike (link i) (callBy first evaluate room name exprs)
      (callBy second evaluate' room name exprs) := by
  refine ((h i).alike_lookup? name).bind fun found => ?_
  cases found with
  | none => exact Alike.fail (.notInScope name)
  | some function =>
      dsimp only
      split
      · exact (alike_evaluateEach (heval · i) exprs).bind fun args =>
          alike_applyBy h hscoping heval room name function args i
      · exact Alike.fail (.notFunction name)

theorem alike_evaluateBy (room : Nat) (expr : Value) (i : ι) :
    Alike (link i) (evaluateBy first room expr) (evaluateBy second room expr) := by
  induction room generalizing expr i with
  | zero => exact Alike.throw .exhausted
  | succ room ih =>
      unfold evaluateBy
      split
      · next name =>
          refine ((h i).alike_lookup? name).bind fun found => ?_
          cases found with
          | none => exact Alike.fail (.unknownSymbol name)
          | some value => exact Alike.pure value
      · exact Alike.fail .emptyForm
      · next head rest => exact (ih (.list head) i).bind fun _ => ih (.list rest) i
      · next name rest =>
          cases SpecialForm.ofName? name with
          | some form => exact (h i).alike_runForm (ih · i) room form rest
          | none => exact alike_callBy h hscoping ih room name rest i
      · exact Alike.fail .literalHead
      · exact Alike.pure expr

end

/-- A body in a scope and on a copy run alike when the frames of the caller stay as they are. -/
theorem alike_onCopy (scope : Frame) {action action' : Eval Value}
    (haction : ∀ outer, Alike (Tabled outer) action action') (outer : List Frame) :
    Alike (Tabled outer) (inScope scope action) (onCopy scope action') := by
  rintro machine _ ⟨houter, table, rfl, htable⟩
  rw [outcome_inScope, outcome_onCopy]
  have hentered : Tabled machine.chain.frames (machine.enter scope)
      ((machine.onTable table).onTable (scope.overlay (machine.onTable table).chain.flatten)) := by
    refine ⟨rfl, _, rfl, fun name => ?_⟩
    have hflat : (machine.onTable table).chain.flatten.find? name = table.find? name :=
      (Chain.find?_flatten _ name).trans (Chain.lookup?_singleton table name)
    rw [Frame.find?_overlay, hflat, htable name]
    exact (machine.chain.lookup?_push scope name).symm
  obtain ⟨hresult, hafter, table', hcopy, -⟩ := haction _ _ _ hentered
  refine ⟨hresult, ?_⟩
  generalize (action.outcome (machine.enter scope)).2 = after at hafter hcopy
  have hleave : after.leave = { after with chain := machine.chain } := by
    rw [Machine.leave, Chain.pop, hafter]
    rfl
  rw [hcopy, hleave]
  exact ⟨houter, table, rfl, htable⟩

/-- **A scope is as good as a copy.** Evaluation in front of the caller's frames and evaluation on
copies of all the caller sees end the same way, print and record the same, and leave the same
bindings. -/
theorem evaluate_eq_evaluateBy_onCopy (room : Nat) (expr : Value) (machine : Machine) :
    let actual := (evaluate room expr).outcome machine
    let copied := (evaluateBy onCopy room expr).outcome (machine.onTable machine.chain.flatten)
    actual.1 = copied.1 ∧ actual.2.output = copied.2.output ∧ actual.2.log = copied.2.log ∧
      copied.2.chain.outer = [] ∧
      ∀ name, actual.2.chain.flatten.find? name = copied.2.chain.own.find? name := by
  intro actual copied
  have halike := alike_evaluateBy respected_tabled alike_onCopy room expr machine.chain.outer
  obtain ⟨hresult, -, table, hcopy, htable⟩ := halike machine _ (tabled_flatten machine)
  rw [evaluateBy_inScope] at hresult hcopy htable
  refine ⟨hresult, ?_, ?_, ?_, fun name => ?_⟩
  · exact (congrArg Machine.output hcopy).symm
  · exact (congrArg Machine.log hcopy).symm
  · exact congrArg (·.chain.outer) hcopy
  · rw [Chain.find?_flatten, ← htable name]
    exact congrArg (·.chain.own.find? name) hcopy.symm

end SetLisp
