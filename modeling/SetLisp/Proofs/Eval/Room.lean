import SetLisp.Eval.Evaluate
import SetLisp.Proofs.Eval.Growth
import SetLisp.Proofs.Eval.Rules

/-!
# Room to evaluate

Evaluation in little room and in more. Running out of room can only cut an evaluation short: what it
does before, it does in more room just the same, and then goes on. So the evaluation in more room
ends the same way, or starts where the other one broke off and adds to that.
-/

namespace SetLisp

namespace Value

mutual

theorem textFault?_of_le {room more : Nat} (hle : room ≤ more) (value : Value)
    (h : value.textFault? room ≠ some .tooDeep) :
    value.textFault? more = value.textFault? room := by
  cases room with
  | zero => exact absurd (by cases value <;> rfl) h
  | succ room =>
      obtain ⟨more, rfl⟩ : ∃ rest, more = rest + 1 := ⟨more - 1, by omega⟩
      have hle : room ≤ more := Nat.le_of_succ_le_succ hle
      cases value with
      | list items => exact textFaultOfItems?_of_le hle items h
      | set members => exact textFaultOfItems?_of_le hle members h
      | lambda _ _ body => exact textFault?_of_le hle body h
      | foreign _ datum => cases datum <;> rfl
      | boolean | number | symbol | builtin => rfl

theorem textFaultOfItems?_of_le {room more : Nat} (hle : room ≤ more) (items : List Value)
    (h : textFaultOfItems? room items ≠ some .tooDeep) :
    textFaultOfItems? more items = textFaultOfItems? room items := by
  cases items with
  | nil => cases room <;> cases more <;> rfl
  | cons item rest =>
      rw [textFaultOfItems?] at h
      rw [textFaultOfItems?, textFaultOfItems?]
      cases hitem : item.textFault? room with
      | none =>
          rw [hitem, Option.none_or] at h
          rw [textFault?_of_le hle item (by rw [hitem]; nofun), hitem,
            textFaultOfItems?_of_le hle rest h]
      | some fault =>
          rw [hitem, Option.some_or] at h
          rw [textFault?_of_le hle item (by rwa [hitem]), hitem]
          rfl

end

mutual

theorem tooDeepForMember_of_le {room more : Nat} (hle : room ≤ more) (value : Value)
    (h : tooDeepForMember room value = false) : tooDeepForMember more value = false := by
  cases room with
  | zero => cases value <;> cases h
  | succ room =>
      obtain ⟨more, rfl⟩ : ∃ rest, more = rest + 1 := ⟨more - 1, by omega⟩
      cases value with
      | list items => exact someTooDeepForMember_of_le (Nat.le_of_succ_le_succ hle) items h
      | boolean | number | symbol | set | builtin | lambda | foreign => rfl

theorem someTooDeepForMember_of_le {room more : Nat} (hle : room ≤ more) (values : List Value)
    (h : someTooDeepForMember room values = false) : someTooDeepForMember more values = false := by
  cases values with
  | nil => cases more <;> rfl
  | cons value rest =>
      rw [someTooDeepForMember, Bool.or_eq_false_iff] at h ⊢
      exact ⟨tooDeepForMember_of_le hle value h.1, someTooDeepForMember_of_le hle rest h.2⟩

end

end Value

namespace Eval

/-! ### Truncation -/

section Truncates

variable {α β : Type} {first second : Eval α}

/-- The first action does what the second does, up to where it may be cut short for want of room;
from there on the second only adds to what was done. -/
structure Truncates (first second : Eval α) : Prop where
  growsTo (machine : Machine) : machine.GrowsTo (first.outcome machine).2
  same_or_cut (machine : Machine) :
    first.outcome machine = second.outcome machine ∨
      (first.outcome machine).1 = .error .exhausted ∧
        (first.outcome machine).2.GrowsTo (second.outcome machine).2

namespace Truncates

/-- An action that only adds is not cut short against itself. -/
theorem of_growsTo (h : ∀ machine : Machine, machine.GrowsTo (first.outcome machine).2) :
    Truncates first first :=
  ⟨h, fun _ => .inl rfl⟩

theorem growsTo_second (h : Truncates first second) (machine : Machine) :
    machine.GrowsTo (second.outcome machine).2 := by
  rcases h.same_or_cut machine with hsame | ⟨-, hbehind⟩
  · exact hsame ▸ h.growsTo machine
  · exact (h.growsTo machine).trans hbehind

theorem pure (value : α) : Truncates (Pure.pure value) (Pure.pure value) :=
  of_growsTo fun _ => .refl

theorem throw (halt : Halt) : Truncates (throw halt : Eval α) (throw halt) :=
  of_growsTo fun _ => .refl

theorem fail (error : EvalError) : Truncates (fail error : Eval α) (fail error) :=
  throw (.error error)

/-- Nothing is cut shorter than what has no room to start. -/
theorem exhausted (h : ∀ machine : Machine, machine.GrowsTo (second.outcome machine).2) :
    Truncates (MonadExcept.throw Halt.exhausted) second :=
  ⟨fun _ => .refl, fun machine => .inr ⟨rfl, h machine⟩⟩

theorem bind {next next' : α → Eval β} (haction : Truncates first second)
    (hnext : ∀ value, Truncates (next value) (next' value)) :
    Truncates (first >>= next) (second >>= next') := by
  refine ⟨fun machine => ?_, fun machine => ?_⟩
  · have hgrows := haction.growsTo machine
    rw [outcome_bind]
    rcases hfirst : first.outcome machine with ⟨halt | value, middle⟩ <;> rw [hfirst] at hgrows
    · exact hgrows
    · exact hgrows.trans ((hnext value).growsTo middle)
  · rw [outcome_bind, outcome_bind]
    rcases haction.same_or_cut machine with hsame | ⟨hcut, hbehind⟩
    · rw [← hsame]
      rcases first.outcome machine with ⟨halt | value, middle⟩
      · exact .inl rfl
      · exact (hnext value).same_or_cut middle
    · rcases hfirst : first.outcome machine with ⟨result, middle⟩
      rw [hfirst] at hcut hbehind
      obtain rfl : result = .error .exhausted := hcut
      refine .inr ⟨rfl, ?_⟩
      rcases hsecond : second.outcome machine with ⟨halt | value, reached⟩ <;>
        rw [hsecond] at hbehind
      · exact hbehind
      · exact hbehind.trans ((hnext value).growsTo_second reached)

theorem inScope (scope : Frame) (h : Truncates first second) :
    Truncates (inScope scope first) (inScope scope second) := by
  refine ⟨fun machine => ?_, fun machine => ?_⟩
  · exact (h.growsTo (machine.enter scope)).leave
  · rw [outcome_inScope, outcome_inScope]
    rcases h.same_or_cut (machine.enter scope) with hsame | ⟨hcut, hbehind⟩
    · exact .inl (by rw [hsame])
    · exact .inr ⟨hcut, hbehind.leave⟩

end Truncates

end Truncates

theorem truncates_lookup? (name : String) : Truncates (lookup? name) (lookup? name) :=
  .of_growsTo fun _ => .refl

theorem truncates_define (name : String) (value : Value) :
    Truncates (define name value) (define name value) :=
  .of_growsTo fun _ => .define name value

theorem truncates_write (text : String) : Truncates (write text) (write text) :=
  .of_growsTo fun _ => .write text

theorem truncates_record (severity : Severity) (source : LogSource) (message : String) :
    Truncates (record severity source message) (record severity source message) :=
  .of_growsTo fun _ => .record _

theorem truncates_debugging : Truncates debugging debugging :=
  .of_growsTo fun _ => .refl

theorem truncates_fresh : Truncates fresh fresh :=
  .of_growsTo fun _ => .skip 1

variable {room more : Nat} (hle : room ≤ more)

include hle

theorem truncates_textOf (value : Value) : Truncates (textOf room value) (textOf more value) := by
  have hgrows (machine : Machine) : machine.GrowsTo ((textOf more value).outcome machine).2 := by
    unfold textOf
    split <;> exact .refl
  by_cases hdeep : value.textFault? room = some .tooDeep
  · rw [textOf, hdeep]
    exact .exhausted hgrows
  · have hsame : textOf room value = textOf more value := by
      rw [textOf, textOf, Value.textFault?_of_le hle value hdeep]
    rw [hsame]
    exact .of_growsTo hgrows

theorem truncates_textsOf (values : List Value) :
    Truncates (textsOf room values) (textsOf more values) := by
  induction values with
  | nil => exact .pure []
  | cons value rest ih =>
      exact (truncates_textOf hle value).bind fun text => ih.bind fun texts => .pure (text :: texts)

theorem truncates_applyBuiltin (function : Builtin) (args : Value) :
    Truncates (applyBuiltin room function args) (applyBuiltin more function args) := by
  rw [applyBuiltin_eq, applyBuiltin_eq]
  refine truncates_fresh.bind fun payload => ?_
  cases function.resultOfAll payload args with
  | error error => exact .fail error
  | ok value =>
      have hanswer : Truncates
          (if function = .print then do
            let text ← textOf room value
            write (text ++ "\n")
            pure value
          else pure value)
          (if function = .print then do
            let text ← textOf more value
            write (text ++ "\n")
            pure value
          else pure value) := by
        split
        · exact (truncates_textOf hle value).bind fun text =>
            (truncates_write (text ++ "\n")).bind fun _ => .pure value
        · exact .pure value
      dsimp only
      cases hroom : Value.someTooDeepForMember room (function.newMembers args) with
      | false =>
          rw [Value.someTooDeepForMember_of_le hle _ hroom]
          exact hanswer
      | true =>
          rw [if_pos rfl]
          split
          · exact .throw .exhausted
          · exact .exhausted hanswer.growsTo_second

theorem truncates_makeLambda (parameters : List Value) (body : Value) :
    Truncates (makeLambda room parameters body) (makeLambda more parameters body) :=
  (truncates_textsOf hle parameters).bind fun _ => truncates_fresh.bind fun _ => .pure _

theorem truncates_recordDefinition (name : String) (function : Value) :
    Truncates (recordDefinition room name function) (recordDefinition more name function) := by
  have hgrows (machine : Machine) :
      machine.GrowsTo ((recordDefinition more name function).outcome machine).2 := by
    unfold recordDefinition
    split
    · exact .record _
    · exact .refl
    · exact .refl
  by_cases hdeep : function.textFault? room = some .tooDeep
  · rw [recordDefinition, hdeep]
    exact .exhausted hgrows
  · have hsame : recordDefinition room name function = recordDefinition more name function := by
      rw [recordDefinition, recordDefinition, Value.textFault?_of_le hle function hdeep]
    rw [hsame]
    exact .of_growsTo hgrows

theorem truncates_defineFunction (name : Value) (parameters : List Value) (body : Value) :
    Truncates (defineFunction room name parameters body)
      (defineFunction more name parameters body) := by
  refine (truncates_makeLambda hle parameters body).bind fun function => ?_
  refine (truncates_textOf hle name).bind fun text => ?_
  refine (truncates_define text function).bind fun _ => ?_
  refine truncates_debugging.bind fun debug => ?_
  cases debug with
  | false => exact .pure (Value.boolean true)
  | true =>
      exact (truncates_recordDefinition hle text function).bind fun _ =>
        .pure (Value.boolean true)

variable {evaluate evaluate' : Value → Eval Value}
  (heval : ∀ expr, Truncates (evaluate expr) (evaluate' expr))

include heval

omit hle in
theorem truncates_evaluateEach (exprs : List Value) :
    Truncates (evaluateEach evaluate exprs) (evaluateEach evaluate' exprs) := by
  induction exprs with
  | nil => exact .pure []
  | cons expr rest ih =>
      exact (heval expr).bind fun value => ih.bind fun values => .pure (value :: values)

theorem truncates_runForm (form : SpecialForm) (parts : List Value) :
    Truncates (runForm evaluate room form parts) (runForm evaluate' more form parts) := by
  cases formRule form parts with
  | conditional condition yes no =>
      rw [runForm_conditional, runForm_conditional]
      refine (heval condition).bind fun value => ?_
      split
      · exact heval yes
      · exact heval no
      · exact .fail .conditionNotBoolean
  | define name expr =>
      rw [runForm_define, runForm_define]
      exact (heval expr).bind fun value => (truncates_textOf hle name).bind fun text =>
        (truncates_define text value).bind fun _ => .pure value
  | lambda parameters body hne =>
      rw [runForm_lambda evaluate room hne, runForm_lambda evaluate' more hne]
      exact truncates_makeLambda hle parameters body
  | function name parameters body hne =>
      rw [runForm_function evaluate room name hne, runForm_function evaluate' more name hne]
      exact truncates_defineFunction hle name parameters body
  | arity form parts htakes =>
      rw [runForm_arity evaluate room htakes, runForm_arity evaluate' more htakes]
      exact .fail (.formArity form)

omit hle in
theorem truncates_applyLambda (parameters : List String) (body : Value) (args : List Value) :
    Truncates (applyLambda evaluate parameters body args)
      (applyLambda evaluate' parameters body args) := by
  unfold applyLambda
  split
  · exact .fail .noArguments
  · cases callScope parameters args with
    | error error => exact .fail error
    | ok scope => exact (heval body).inScope scope

theorem truncates_apply (name : String) (function : Value) (args : List Value) :
    Truncates (apply evaluate room name function args)
      (apply evaluate' more name function args) := by
  unfold apply
  split
  · exact truncates_applyBuiltin hle _ (.list args)
  · exact truncates_applyLambda heval _ _ args
  · exact .fail (.notFunction name)

theorem truncates_call (name : String) (exprs : List Value) :
    Truncates (call evaluate room name exprs) (call evaluate' more name exprs) := by
  refine (truncates_lookup? name).bind fun found => ?_
  cases found with
  | none => exact .fail (.notInScope name)
  | some function =>
      dsimp only
      split
      · exact (truncates_evaluateEach heval exprs).bind fun args =>
          truncates_apply hle heval name function args
      · exact .fail (.notFunction name)

end Eval

open Eval

/-- One level of evaluation, when the parts of an expression are evaluated in less room or in
more. -/
theorem truncates_evaluate_succ {room more : Nat} (hle : room ≤ more)
    (heval : ∀ expr, Truncates (evaluate room expr) (evaluate more expr)) (expr : Value) :
    Truncates (evaluate (room + 1) expr) (evaluate (more + 1) expr) := by
  unfold evaluate
  split
  · next name =>
      refine (truncates_lookup? name).bind fun found => ?_
      cases found with
      | none => exact .fail (.unknownSymbol name)
      | some value => exact .pure value
  · exact .fail .emptyForm
  · next head rest => exact (heval (.list head)).bind fun _ => heval (.list rest)
  · next name rest =>
      cases SpecialForm.ofName? name with
      | some form => exact truncates_runForm hle heval form rest
      | none => exact truncates_call hle heval name rest
  · exact .fail .literalHead
  · exact .pure expr

/-- **Room cuts short and changes nothing.** -/
theorem truncates_evaluate {room more : Nat} (hle : room ≤ more) (expr : Value) :
    Truncates (evaluate room expr) (evaluate more expr) := by
  induction more generalizing room expr with
  | zero =>
      obtain rfl := Nat.le_zero.mp hle
      exact .throw .exhausted
  | succ more ih =>
      cases room with
      | zero =>
          have hself := truncates_evaluate_succ (Nat.le_refl more) (ih (Nat.le_refl more)) expr
          exact .exhausted hself.growsTo
      | succ room =>
          have hle : room ≤ more := Nat.le_of_succ_le_succ hle
          exact truncates_evaluate_succ hle (ih hle) expr

end SetLisp
