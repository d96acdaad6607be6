import Mathlib.Data.List.Basic
import SetLisp.Eval.Form
import SetLisp.Proofs.Eval.Outcome
import SetLisp.Proofs.Scope.Table

namespace SetLisp.Eval

/-- The rules of the special forms: how a form is evaluated, whatever evaluates its parts. -/
inductive FormRule : SpecialForm → List Value → Prop
  | conditional (condition yes no : Value) : FormRule .conditional [condition, yes, no]
  | define (name expr : Value) : FormRule .define [name, expr]
  | lambda (parameters : List Value) (body : Value) (hne : parameters ≠ []) :
      FormRule .lambda (parameters ++ [body])
  | function (name : Value) (parameters : List Value) (body : Value) (hne : parameters ≠ []) :
      FormRule .function (name :: (parameters ++ [body]))
  | arity (form : SpecialForm) (parts : List Value) (htakes : form.takes parts.length = false) :
      FormRule form parts

/-- A form that is given what it takes finds the parts it takes it for. -/
theorem formRule (form : SpecialForm) (parts : List Value) : FormRule form parts := by
  cases htakes : form.takes parts.length with
  | false => exact .arity form parts htakes
  | true =>
      cases form with
      | conditional =>
          obtain ⟨condition, yes, no, rfl⟩ := List.length_eq_three.mp (beq_iff_eq.mp htakes)
          exact .conditional condition yes no
      | define =>
          obtain ⟨name, expr, rfl⟩ := List.length_eq_two.mp (beq_iff_eq.mp htakes)
          exact .define name expr
      | lambda =>
          have hlength : 2 ≤ parts.length := of_decide_eq_true htakes
          rcases parts.eq_nil_or_concat' with rfl | ⟨parameters, body, rfl⟩
          · cases hlength
          · refine .lambda parameters body fun hempty => ?_
            simp [hempty] at hlength
      | function =>
          have hlength : 3 ≤ parts.length := of_decide_eq_true htakes
          rcases parts with _ | ⟨name, parts⟩
          · cases hlength
          · rcases parts.eq_nil_or_concat' with rfl | ⟨parameters, body, rfl⟩
            · simp at hlength
            · refine .function name parameters body fun hempty => ?_
              simp [hempty] at hlength

variable (evaluate : Value → Eval Value) (room : Nat)

theorem runForm_conditional (condition yes no : Value) :
    runForm evaluate room .conditional [condition, yes, no] = (do
      match ← evaluate condition with
      | .boolean true => evaluate yes
      | .boolean false => evaluate no
      | _ => fail .conditionNotBoolean) :=
  rfl

theorem runForm_define (name expr : Value) :
    runForm evaluate room .define [name, expr] = (do
      let value ← evaluate expr
      let text ← textOf room name
      define text value
      return value) :=
  rfl

theorem runForm_lambda {parameters : List Value} (hne : parameters ≠ []) (body : Value) :
    runForm evaluate room .lambda (parameters ++ [body]) = makeLambda room parameters body := by
  have htakes : SpecialForm.takes .lambda (parameters ++ [body]).length = true := by
    have hlength := List.length_pos_iff.mpr hne
    simp only [SpecialForm.takes, List.length_append, List.length_singleton, decide_eq_true_eq]
    omega
  rw [runForm, if_pos htakes, Parts.frontAndLast_concat]
  rfl

theorem runForm_function (name : Value) {parameters : List Value} (hne : parameters ≠ [])
    (body : Value) :
    runForm evaluate room .function (name :: (parameters ++ [body])) =
      defineFunction room name parameters body := by
  have htakes : SpecialForm.takes .function (name :: (parameters ++ [body])).length = true := by
    have hlength := List.length_pos_iff.mpr hne
    simp only [SpecialForm.takes, List.length_cons, List.length_append, decide_eq_true_eq]
    omega
  rw [runForm, if_pos htakes]
  simp only [Parts.ends_concat name hne body]
  rfl

theorem runForm_arity {form : SpecialForm} {parts : List Value}
    (htakes : form.takes parts.length = false) :
    runForm evaluate room form parts = fail (.formArity form) := by
  unfold runForm
  rw [htakes]
  rfl

theorem mem_of_callScope {parameters : List String} {args : List Value} {scope : Frame}
    (h : callScope parameters args = .ok scope) {binding : String × Value}
    (hbinding : binding ∈ scope) : binding.2 ∈ args := by
  unfold callScope at h
  split at h
  · cases h
  · cases h
    rcases Frame.mem_update hbinding with hnone | hparameter
    · cases hnone
    · exact (List.of_mem_zip hparameter).2

end SetLisp.Eval
