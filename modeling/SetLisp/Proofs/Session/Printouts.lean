import SetLisp.Proofs.Eval.Soundness
import SetLisp.Proofs.Session.Passages

/-!
# What is printed

Evaluation prints in one place only, where `print` is given a value that can be shown. What an
evaluation prints is told along with it: an action that goes on to another prints what it prints by
itself and then, if it ends with a value, what the other prints from the machine that it leaves. In
the end the machine has written these values, a line each.
-/

namespace SetLisp

namespace Eval

variable {α β : Type}

/-- The values that an action prints from a machine, in order. -/
abbrev Printout := Machine → List Value

namespace Printout

def nothing : Printout :=
  fun _ => []

/-- What is printed by an action and then by what it goes on to, if it ends with a value. -/
def andThen (first : Printout) (action : Eval α) (next : α → Printout) : Printout :=
  fun machine =>
    first machine ++
      match action.outcome machine with
      | (.ok value, after) => next value after
      | (.error _, _) => []

end Printout

/-- The one value that `print` is given is printed if there is room to show it. -/
def printoutOfBuiltin (room : Nat) (function : Builtin) (args : List Value) : Printout :=
  match function, args with
  | .print, [value] => fun _ => if value.textFault? room = none then [value] else []
  | _, _ => .nothing

section Parts

variable (evaluate : Value → Eval Value) (printout : Value → Printout)

def printoutOfLambda (parameters : List String) (body : Value) (args : List Value) : Printout :=
  if args.isEmpty then .nothing
  else
    match callScope parameters args with
    | .error _ => .nothing
    | .ok scope => fun machine => printout body (machine.enter scope)

def printoutOfFunction (room : Nat) (function : Value) (args : List Value) : Printout :=
  match function with
  | .builtin function => printoutOfBuiltin room function args
  | .lambda _ parameters body => printoutOfLambda printout parameters body args
  | _ => .nothing

def printoutOfEach : List Value → Printout
  | [] => .nothing
  | expr :: rest => (printout expr).andThen (evaluate expr) fun _ => printoutOfEach rest

def printoutOfCall (room : Nat) (name : String) (exprs : List Value) : Printout :=
  Printout.nothing.andThen (lookup? name) fun
    | none => .nothing
    | some function =>
        if function.isFunction then
          (printoutOfEach evaluate printout exprs).andThen (evaluateEach evaluate exprs)
            (printoutOfFunction printout room function)
        else .nothing

def printoutOfForm (form : SpecialForm) (parts : List Value) : Printout :=
  match form, parts with
  | .conditional, [condition, yes, no] =>
      (printout condition).andThen (evaluate condition) fun
        | .boolean true => printout yes
        | .boolean false => printout no
        | _ => .nothing
  | .define, [_, expr] => printout expr
  | _, _ => .nothing

theorem printoutOfForm_arity {form : SpecialForm} {parts : List Value}
    (htakes : form.takes parts.length = false) :
    printoutOfForm evaluate printout form parts = .nothing := by
  unfold printoutOfForm
  split
  · cases htakes
  · cases htakes
  · rfl

end Parts

end Eval

open Eval

/-- The values that the evaluation of an expression prints. -/
def printout : Nat → Value → Printout
  | 0, _ => .nothing
  | room + 1, expr =>
      match expr with
      | .list (.list head :: rest) =>
          (printout room (.list head)).andThen (evaluate room (.list head)) fun _ =>
            printout room (.list rest)
      | .list (.symbol name :: rest) =>
          match SpecialForm.ofName? name with
          | some form => printoutOfForm (evaluate room) (printout room) form rest
          | none => printoutOfCall (evaluate room) (printout room) room name rest
      | _ => .nothing

namespace Eval

variable {α β : Type} {action : Eval α} {next : α → Eval β} {first : Printout}

/-- The action leaves what is written as it is. -/
def Silent (action : Eval α) : Prop :=
  ∀ text, Keeps (fun machine => machine.output = text) (fun _ => True) (fun _ => True) action

theorem Silent.output_eq (h : Silent action) (machine : Machine) :
    (action.outcome machine).2.output = machine.output :=
  (h machine.output machine rfl).1

theorem Silent.bind (h : Silent action) (hnext : ∀ value, Silent (next value)) :
    Silent (action >>= next) :=
  fun text => (h text).bind fun value _ => hnext value text

theorem silent_pure (value : α) : Silent (pure value : Eval α) :=
  fun _ => .pure trivial

theorem silent_throw (halt : Halt) : Silent (throw halt : Eval α) :=
  fun _ => .throw trivial

theorem silent_fail (error : EvalError) : Silent (fail error : Eval α) :=
  silent_throw (.error error)

theorem silent_textOf (room : Nat) (value : Value) : Silent (textOf room value) := by
  unfold textOf
  split
  · exact silent_pure value.text
  · exact silent_throw .exhausted
  · exact silent_throw (.fault .integerTooLarge)

theorem silent_textsOf (room : Nat) (values : List Value) : Silent (textsOf room values) := by
  induction values with
  | nil => exact silent_pure []
  | cons value rest ih =>
      exact (silent_textOf room value).bind fun text => ih.bind fun texts => silent_pure _

theorem silent_define (name : String) (value : Value) : Silent (define name value) :=
  fun _ _ hmachine => ⟨hmachine, trivial⟩

theorem silent_record (severity : Severity) (source : LogSource) (message : String) :
    Silent (record severity source message) :=
  fun _ machine hmachine => ⟨(machine.output_record _).trans hmachine, trivial⟩

theorem silent_fresh : Silent fresh :=
  fun _ _ hmachine => ⟨hmachine, trivial⟩

theorem silent_lookup? (name : String) : Silent (lookup? name) :=
  fun _ _ hmachine => ⟨hmachine, trivial⟩

theorem silent_debugging : Silent debugging :=
  fun _ _ hmachine => ⟨hmachine, trivial⟩

theorem silent_makeLambda (room : Nat) (parameters : List Value) (body : Value) :
    Silent (makeLambda room parameters body) :=
  (silent_textsOf room parameters).bind fun _ => silent_fresh.bind fun _ => silent_pure _

theorem silent_recordDefinition (room : Nat) (name : String) (function : Value) :
    Silent (recordDefinition room name function) := by
  unfold recordDefinition
  split
  · exact silent_record _ _ _
  · exact silent_throw .exhausted
  · exact silent_pure ()

theorem silent_defineFunction (room : Nat) (name : Value) (parameters : List Value)
    (body : Value) : Silent (defineFunction room name parameters body) := by
  refine (silent_makeLambda room parameters body).bind fun function => ?_
  refine (silent_textOf room name).bind fun text => (silent_define text function).bind fun _ => ?_
  refine silent_debugging.bind fun debug => ?_
  cases debug with
  | false => exact silent_pure _
  | true =>
      exact (silent_recordDefinition room text function).bind fun _ => silent_pure _

/-! ### Actions and their printouts -/

theorem shownValues_append (first second : List Value) :
    shownValues (first ++ second) = shownValues first ++ shownValues second := by
  rw [shownValues, List.map_append, String.join_append]
  rfl

theorem shownValues_singleton (value : Value) : shownValues [value] = value.text ++ "\n" := by
  rw [shownValues, List.map_singleton, String.join_cons]
  exact String.append_empty

/-- From a well-formed chain the action writes its printout, a line for each value, and all these
values are well-formed. -/
def Prints (action : Eval α) (printout : Printout) : Prop :=
  ∀ machine, machine.chain.WellFormed →
    (action.outcome machine).2.output = machine.output ++ shownValues (printout machine) ∧
      ∀ value ∈ printout machine, value.WellFormed

theorem Silent.prints (h : Silent action) : Prints action .nothing :=
  fun machine _ => ⟨(h.output_eq machine).trans String.append_empty.symm, nofun⟩

theorem Prints.bind {found : α → Prop} {rest : α → Printout} (hfirst : Prints action first)
    (hsound : Sound Value.WellFormed found action)
    (hnext : ∀ value, found value → Prints (next value) (rest value)) :
    Prints (action >>= next) (first.andThen action rest) := by
  intro machine hchain
  obtain ⟨houtput, hgood⟩ := hfirst machine hchain
  obtain ⟨hafter, hends⟩ := hsound machine hchain
  rw [outcome_bind, Printout.andThen]
  rcases haction : action.outcome machine with ⟨halt | value, after⟩ <;>
    rw [haction] at houtput hafter hends <;> dsimp only
  · rw [List.append_nil]
    exact ⟨houtput, hgood⟩
  · obtain ⟨hmore, hgoods⟩ := hnext value hends after hafter
    refine ⟨?_, List.forall_mem_append.mpr ⟨hgood, hgoods⟩⟩
    rw [hmore, houtput, shownValues_append, String.append_assoc]

/-- What prints nothing may be put behind. -/
theorem Prints.bind_silent (hfirst : Prints action first)
    (hnext : ∀ value, Silent (next value)) : Prints (action >>= next) first := by
  intro machine hchain
  obtain ⟨houtput, hgood⟩ := hfirst machine hchain
  refine ⟨?_, hgood⟩
  rw [outcome_bind]
  rcases haction : action.outcome machine with ⟨halt | value, after⟩ <;>
    rw [haction] at houtput <;> dsimp only
  · exact houtput
  · rw [(hnext value).output_eq after, houtput]

/-- A builtin prints nothing unless it is `print` and has one argument. -/
theorem silent_applyBuiltin (room : Nat) {function : Builtin} {args : List Value}
    (h : ∀ value, function = .print → args ≠ [value]) :
    Silent (applyBuiltin room function (.list args)) := by
  rw [applyBuiltin_eq]
  refine silent_fresh.bind fun payload => ?_
  cases hresult : function.resultOfAll payload (.list args) with
  | error error => exact silent_fail error
  | ok value =>
      dsimp only
      split
      · exact silent_throw .exhausted
      · split
        · next hprint =>
            subst hprint
            match args, hresult with
            | [arg], _ => exact absurd rfl (h arg rfl)
        · exact silent_pure value

theorem outcome_applyBuiltin_print (room : Nat) (value : Value) (machine : Machine) :
    (applyBuiltin room .print (.list [value])).outcome machine =
      (do
        let text ← textOf room value
        write (text ++ "\n")
        pure value).outcome (machine.skip 1) := by
  have hroom : Value.someTooDeepForMember room [] = false := by
    cases room <;> rfl
  have hnew : Builtin.newMembers .print (.list [value]) = [] := rfl
  have hresult : Builtin.resultOfAll machine.next .print (.list [value]) = .ok value := rfl
  rw [applyBuiltin_eq, outcome_bind, outcome_fresh]
  dsimp only
  rw [hresult, hnew]
  dsimp only
  rw [hroom, if_neg Bool.false_ne_true, if_pos rfl]

theorem prints_applyBuiltin (room : Nat) (function : Builtin) {args : List Value}
    (hargs : ∀ arg ∈ args, arg.WellFormed) :
    Prints (applyBuiltin room function (.list args)) (printoutOfBuiltin room function args) := by
  fun_cases printoutOfBuiltin room function args with
  | case1 value =>
      intro machine _
      rw [outcome_applyBuiltin_print]
      cases hfault : value.textFault? room with
      | none =>
          have htext : textOf room value = pure value.text := by
            rw [textOf, hfault]
          rw [htext, pure_bind, if_pos rfl, shownValues_singleton]
          exact ⟨rfl, hargs⟩
      | some fault =>
          obtain ⟨halt, hhalt⟩ : ∃ halt, textOf room value = throw halt := by
            rw [textOf, hfault]
            cases fault <;> exact ⟨_, rfl⟩
          rw [hhalt, if_neg (Option.some_ne_none fault)]
          exact ⟨String.append_empty.symm, nofun⟩
  | case2 function args hother =>
      exact (silent_applyBuiltin room fun value hprint hargs => hother value hprint hargs).prints

section Rules

variable {evaluate : Value → Eval Value} {printout : Value → Printout}
  (hsound : ∀ expr : Value, expr.IsExpression →
    Sound Value.WellFormed Value.WellFormed (evaluate expr))
  (hprints : ∀ expr : Value, expr.IsExpression → Prints (evaluate expr) (printout expr))

include hprints

theorem prints_applyLambda {parameters : List String} {body : Value} (hbody : body.IsExpression)
    {args : List Value} (hargs : ∀ arg ∈ args, arg.WellFormed) :
    Prints (applyLambda evaluate parameters body args)
      (printoutOfLambda printout parameters body args) := by
  unfold applyLambda printoutOfLambda
  split
  · exact (silent_fail .noArguments).prints
  · cases hscope : callScope parameters args with
    | error error => exact (silent_fail error).prints
    | ok scope =>
        intro machine hchain
        have hinside : (machine.enter scope).chain.WellFormed :=
          Chain.Binds.push hchain fun binding hbinding =>
            hargs binding.2 (mem_of_callScope hscope hbinding)
        exact hprints body hbody (machine.enter scope) hinside

theorem prints_apply (room : Nat) (name : String) {function : Value}
    (hfunction : function.WellFormed) {args : List Value}
    (hargs : ∀ arg ∈ args, arg.WellFormed) :
    Prints (apply evaluate room name function args)
      (printoutOfFunction printout room function args) := by
  cases hfunction with
  | builtin function => exact prints_applyBuiltin room function hargs
  | lambda _ hbody => exact prints_applyLambda hprints hbody hargs
  | boolean | number | list | set => exact (silent_fail (.notFunction name)).prints

include hsound

theorem prints_evaluateEach {exprs : List Value} (hexprs : ∀ expr ∈ exprs, expr.IsExpression) :
    Prints (evaluateEach evaluate exprs) (printoutOfEach evaluate printout exprs) := by
  induction exprs with
  | nil => exact (silent_pure []).prints
  | cons expr rest ih =>
      obtain ⟨hexpr, hrest⟩ := List.forall_mem_cons.mp hexprs
      refine (hprints expr hexpr).bind (hsound expr hexpr) fun value _ => ?_
      exact (ih hrest).bind_silent fun values => silent_pure _

theorem prints_call (room : Nat) (name : String) {exprs : List Value}
    (hexprs : ∀ expr ∈ exprs, expr.IsExpression) :
    Prints (call evaluate room name exprs) (printoutOfCall evaluate printout room name exprs) := by
  refine (silent_lookup? name).prints.bind (sound_lookup? name) fun found hfound => ?_
  cases found with
  | none => exact (silent_fail (.notInScope name)).prints
  | some function =>
      dsimp only
      split
      · have hargs := keeps_evaluateEach fun expr hexpr => hsound expr (hexprs expr hexpr)
        refine (prints_evaluateEach hsound hprints hexprs).bind hargs fun args hargs => ?_
        exact prints_apply hprints room name (hfound function rfl) hargs
      · exact (silent_fail (.notFunction name)).prints

theorem prints_runForm (room : Nat) (form : SpecialForm) {parts : List Value}
    (hparts : ∀ part ∈ parts, part.IsExpression) :
    Prints (runForm evaluate room form parts) (printoutOfForm evaluate printout form parts) := by
  cases formRule form parts with
  | conditional condition yes no =>
      simp only [List.mem_cons, List.not_mem_nil, or_false, forall_eq_or_imp, forall_eq] at hparts
      obtain ⟨hcondition, hyes, hno⟩ := hparts
      rw [runForm_conditional]
      refine (hprints condition hcondition).bind (hsound condition hcondition) fun value _ => ?_
      cases value with
      | boolean answer =>
          cases answer with
          | true => exact hprints yes hyes
          | false => exact hprints no hno
      | number | symbol | list | set | builtin | lambda | foreign =>
          exact (silent_fail .conditionNotBoolean).prints
  | define name expr =>
      obtain ⟨-, hexpr⟩ := List.forall_mem_cons.mp hparts
      rw [runForm_define]
      refine (hprints expr (hexpr expr List.mem_cons_self)).bind_silent fun value => ?_
      refine (silent_textOf room name).bind fun text => ?_
      exact (silent_define text value).bind fun _ => silent_pure value
  | lambda parameters body hne =>
      rw [runForm_lambda evaluate room hne]
      exact (silent_makeLambda room parameters body).prints
  | function name parameters body hne =>
      rw [runForm_function evaluate room name hne]
      exact (silent_defineFunction room name parameters body).prints
  | arity form parts htakes =>
      rw [runForm_arity evaluate room htakes, printoutOfForm_arity evaluate printout htakes]
      exact (silent_fail (.formArity form)).prints

end Rules

end Eval

/-- **The printout is what is printed.** -/
theorem prints_evaluate (room : Nat) {expr : Value} (hexpr : expr.IsExpression) :
    Prints (evaluate room expr) (printout room expr) := by
  induction room generalizing expr with
  | zero => exact (silent_throw .exhausted).prints
  | succ room ih =>
      have hsound (expr : Value) (hexpr : expr.IsExpression) := sound_evaluate room hexpr
      cases hexpr with
      | boolean value => exact (silent_pure _).prints
      | number value => exact (silent_pure _).prints
      | @symbol name =>
          refine Silent.prints ((silent_lookup? name).bind fun found => ?_)
          cases found with
          | none => exact silent_fail (.unknownSymbol name)
          | some value => exact silent_pure value
      | @list items hitems =>
          match items, hitems with
          | [], _ => exact (silent_fail .emptyForm).prints
          | .list head :: rest, hitems =>
              obtain ⟨hhead, hrest⟩ := List.forall_mem_cons.mp hitems
              exact (ih hhead).bind (hsound _ hhead) fun _ _ => ih (.list hrest)
          | .symbol name :: rest, hitems =>
              obtain ⟨-, hrest⟩ := List.forall_mem_cons.mp hitems
              rw [evaluate, printout]
              cases SpecialForm.ofName? name with
              | some form => exact prints_runForm hsound (fun _ => ih) room form hrest
              | none => exact prints_call hsound (fun _ => ih) room name hrest
          | .boolean _ :: _, _ | .number _ :: _, _ | .set _ :: _, _ | .builtin _ :: _, _
          | .lambda .. :: _, _ | .foreign .. :: _, _ => exact (silent_fail .literalHead).prints

end SetLisp
