import SetLisp.Proofs.Eval.Room

namespace SetLisp

namespace Eval

variable {evaluate : Value → Eval Value} {machine middle after after' : Machine}
  {exprs before behind values values' : List Value}

/-- The expressions are evaluated from left to right to the values, each on the machine that those
before it have left. -/
inductive InTurn (evaluate : Value → Eval Value) :
    Machine → List Value → List Value → Machine → Prop
  | nil {machine : Machine} : InTurn evaluate machine [] [] machine
  | cons {expr value : Value} {rest values : List Value} {machine middle after : Machine}
      (hexpr : (evaluate expr).outcome machine = (.ok value, middle))
      (hrest : InTurn evaluate middle rest values after) :
      InTurn evaluate machine (expr :: rest) (value :: values) after

namespace InTurn

theorem length_eq (h : InTurn evaluate machine exprs values after) :
    values.length = exprs.length := by
  induction h with
  | nil => rfl
  | cons _ _ ih => rw [List.length_cons, ih, List.length_cons]

theorem growsTo
    (hgrows : ∀ (expr : Value) (machine : Machine),
      machine.GrowsTo ((evaluate expr).outcome machine).2)
    (h : InTurn evaluate machine exprs values after) : machine.GrowsTo after := by
  induction h with
  | nil => exact .refl
  | @cons expr _ _ _ machine middle _ hexpr _ ih =>
      have hfirst := hgrows expr machine
      rw [hexpr] at hfirst
      exact hfirst.trans ih

end InTurn

/-- The first expression to halt: those before it are evaluated in turn, and it halts on the machine
that they leave. -/
def HaltsInTurn (evaluate : Value → Eval Value) (machine : Machine) (exprs : List Value)
    (halt : Halt) (after : Machine) : Prop :=
  ∃ before failing behind values middle, exprs = before ++ failing :: behind ∧
    InTurn evaluate machine before values middle ∧
    (evaluate failing).outcome middle = (.error halt, after)

theorem outcome_evaluateEach_of_inTurn (h : InTurn evaluate machine exprs values after) :
    (evaluateEach evaluate exprs).outcome machine = (.ok values, after) := by
  induction h with
  | nil => rfl
  | cons hexpr _ ih =>
      refine outcome_bind_eq_ok.mpr ⟨_, _, hexpr, ?_⟩
      exact outcome_bind_eq_ok.mpr ⟨_, _, ih, rfl⟩

theorem outcome_evaluateEach_of_halt {failing : Value} {halt : Halt}
    (hbefore : InTurn evaluate machine before values middle)
    (hfailing : (evaluate failing).outcome middle = (.error halt, after)) (behind : List Value) :
    (evaluateEach evaluate (before ++ failing :: behind)).outcome machine =
      (.error halt, after) := by
  induction hbefore with
  | nil => rw [List.nil_append, evaluateEach, outcome_bind, hfailing]
  | cons hexpr _ ih =>
      rw [List.cons_append, evaluateEach, outcome_bind, hexpr]
      dsimp only
      rw [outcome_bind, ih hfailing]

/-- Either all expressions are evaluated in turn, or one of them halts. -/
theorem inTurn_or_haltsInTurn (evaluate : Value → Eval Value) (machine : Machine)
    (exprs : List Value) :
    (∃ values after, InTurn evaluate machine exprs values after) ∨
      ∃ halt after, HaltsInTurn evaluate machine exprs halt after := by
  induction exprs generalizing machine with
  | nil => exact .inl ⟨[], machine, .nil⟩
  | cons expr rest ih =>
      rcases hexpr : (evaluate expr).outcome machine with ⟨halt | value, middle⟩
      · exact .inr ⟨halt, middle, [], expr, rest, [], machine, rfl, .nil, hexpr⟩
      · rcases ih middle with ⟨values, after, hrest⟩ | ⟨halt, after, hhalts⟩
        · exact .inl ⟨value :: values, after, .cons hexpr hrest⟩
        · obtain ⟨before, failing, behind, values, reached, rfl, hbefore, hfailing⟩ := hhalts
          exact .inr ⟨halt, after, expr :: before, failing, behind, value :: values, reached, rfl,
            .cons hexpr hbefore, hfailing⟩

section Call

variable {room : Nat} {name : String}

theorem outcome_call_of_unbound (hlookup : machine.chain.lookup? name = none)
    (exprs : List Value) :
    (call evaluate room name exprs).outcome machine =
      (.error (.error (.notInScope name)), machine) := by
  rw [call, outcome_bind, outcome_lookup?, hlookup]
  rfl

variable {value function : Value}

theorem outcome_call_of_not_function (hlookup : machine.chain.lookup? name = some value)
    (hvalue : value.isFunction = false) (exprs : List Value) :
    (call evaluate room name exprs).outcome machine =
      (.error (.error (.notFunction name)), machine) := by
  rw [call, outcome_bind, outcome_lookup?, hlookup]
  dsimp only
  rw [hvalue]
  rfl

theorem outcome_call_of_function (hlookup : machine.chain.lookup? name = some function)
    (hfunction : function.isFunction = true) (exprs : List Value) :
    (call evaluate room name exprs).outcome machine =
      (evaluateEach evaluate exprs >>= apply evaluate room name function).outcome machine := by
  rw [call, outcome_bind, outcome_lookup?, hlookup]
  dsimp only
  rw [hfunction, if_pos rfl]

/-- Arguments with values are handed to the function together. -/
theorem outcome_call_of_inTurn (hlookup : machine.chain.lookup? name = some function)
    (hfunction : function.isFunction = true) (h : InTurn evaluate machine exprs values after) :
    (call evaluate room name exprs).outcome machine =
      (apply evaluate room name function values).outcome after := by
  rw [outcome_call_of_function hlookup hfunction, outcome_bind, outcome_evaluateEach_of_inTurn h]

/-- A call ends with the first argument that halts. -/
theorem outcome_call_of_halt {failing : Value} {halt : Halt}
    (hlookup : machine.chain.lookup? name = some function)
    (hfunction : function.isFunction = true)
    (hbefore : InTurn evaluate machine before values middle)
    (hfailing : (evaluate failing).outcome middle = (.error halt, after)) (behind : List Value) :
    (call evaluate room name (before ++ failing :: behind)).outcome machine =
      (.error halt, after) := by
  rw [outcome_call_of_function hlookup hfunction, outcome_bind,
    outcome_evaluateEach_of_halt hbefore hfailing behind]

end Call

end Eval

open Eval

/-- A form with a name at its head that is no special form is a call. -/
theorem evaluate_of_call {name : String} (hname : SpecialForm.ofName? name = none) (room : Nat)
    (exprs : List Value) :
    evaluate (room + 1) (.list (.symbol name :: exprs)) =
      call (evaluate room) room name exprs := by
  rw [evaluate, hname]

/-- **Calls in order.** A call of what is unbound or no function is refused before anything is
evaluated. Any other call applies what its name is bound to at the start, also when an argument
binds the name again: the arguments are evaluated in turn, and if all have values these are handed
over together. If one halts, the call halts with it, on the machine that it leaves, whatever stands
behind it and whatever function was to be applied. -/
theorem call_evaluates_in_turn (room : Nat) {name : String}
    (hname : SpecialForm.ofName? name = none) (exprs : List Value) (machine : Machine) :
    let outcome := (evaluate (room + 1) (.list (.symbol name :: exprs))).outcome machine
    (machine.chain.lookup? name = none →
      outcome = (.error (.error (.notInScope name)), machine)) ∧
    (∀ value, machine.chain.lookup? name = some value → value.isFunction = false →
      outcome = (.error (.error (.notFunction name)), machine)) ∧
    ∀ function, machine.chain.lookup? name = some function → function.isFunction = true →
      ((∃ values after, InTurn (evaluate room) machine exprs values after) ∨
        ∃ halt after, HaltsInTurn (evaluate room) machine exprs halt after) ∧
      (∀ values after, InTurn (evaluate room) machine exprs values after →
        values.length = exprs.length ∧ machine.GrowsTo after ∧
        outcome = (apply (evaluate room) room name function values).outcome after) ∧
      ∀ halt after, HaltsInTurn (evaluate room) machine exprs halt after →
        machine.GrowsTo after ∧ outcome = (.error halt, after) := by
  intro outcome
  have hcall : outcome = (call (evaluate room) room name exprs).outcome machine :=
    congrArg (Eval.outcome · machine) (evaluate_of_call hname room exprs)
  have hgrows (expr : Value) (machine : Machine) :
      machine.GrowsTo ((evaluate room expr).outcome machine).2 :=
    (truncates_evaluate (Nat.le_refl room) expr).growsTo machine
  refine ⟨fun hlookup => ?_, fun value hlookup hvalue => ?_, fun function hlookup hfunction =>
    ⟨inTurn_or_haltsInTurn _ machine exprs, fun values after hturn => ?_, ?_⟩⟩
  · rw [hcall, outcome_call_of_unbound hlookup]
  · rw [hcall, outcome_call_of_not_function hlookup hvalue]
  · refine ⟨hturn.length_eq, hturn.growsTo hgrows, ?_⟩
    rw [hcall, outcome_call_of_inTurn hlookup hfunction hturn]
  · rintro halt after ⟨before, failing, behind, values, middle, rfl, hbefore, hfailing⟩
    have hfailed := hgrows failing middle
    rw [hfailing] at hfailed
    refine ⟨(hbefore.growsTo hgrows).trans hfailed, ?_⟩
    rw [hcall, outcome_call_of_halt hlookup hfunction hbefore hfailing behind]

/-- An argument binds the name of the function to what is none, and the one behind it sees that; the
call goes to the function all the same. In a second call the argument in the middle fails. -/
theorem call_evaluates_in_turn_rebinding :
    let machine : Machine := { chain := { own := [("f", .builtin .list)] } }
    let rebinding := Value.list [.symbol "define", .symbol "f", .boolean true]
    let binding := Value.list [.symbol "define", .symbol "x", .boolean false]
    SpecialForm.ofName? "f" = none ∧
      (evaluate 3 (.list [.symbol "f", rebinding, .symbol "f"])).outcome machine =
        (.ok (.list [.boolean true, .boolean true]),
          (machine.define "f" (.boolean true)).skip 1) ∧
      (evaluate 3 (.list [.symbol "f", binding, .symbol "y", rebinding])).outcome machine =
        (.error (.error (.unknownSymbol "y")), machine.define "x" (.boolean false)) ∧
      (evaluate 3 (.list [.symbol "g", rebinding])).outcome machine =
        (.error (.error (.notInScope "g")), machine) := by
  intro machine rebinding binding
  have hf : SpecialForm.ofName? "f" = none := rfl
  have hg : SpecialForm.ofName? "g" = none := rfl
  obtain ⟨-, -, hrebinds⟩ := call_evaluates_in_turn 2 hf [rebinding, .symbol "f"] machine
  obtain ⟨-, happlied, -⟩ := hrebinds (.builtin .list) rfl rfl
  obtain ⟨-, -, hlist⟩ := happlied [.boolean true, .boolean true]
    (machine.define "f" (.boolean true)) (.cons rfl (.cons rfl .nil))
  obtain ⟨-, -, hfails⟩ :=
    call_evaluates_in_turn 2 hf [binding, .symbol "y", rebinding] machine
  obtain ⟨-, -, hhalts⟩ := hfails (.builtin .list) rfl rfl
  obtain ⟨-, herror⟩ := hhalts (.error (.unknownSymbol "y"))
    (machine.define "x" (.boolean false))
    ⟨[binding], .symbol "y", [rebinding], [.boolean false], _, rfl, .cons rfl .nil, rfl⟩
  obtain ⟨hunbound, -, -⟩ := call_evaluates_in_turn 2 hg [rebinding] machine
  exact ⟨hf, hlist.trans rfl, herror, hunbound rfl⟩

end SetLisp
