import SetLisp.Eval.Evaluate
import SetLisp.Proofs.Eval.Rules

namespace SetLisp

namespace Eval

theorem outcome_textOf_eq_ok {room : Nat} {value : Value} {machine after : Machine} {text : String}
    (h : (textOf room value).outcome machine = (.ok text, after)) :
    text = value.text ∧ after = machine := by
  unfold textOf at h
  split at h
  · simp only [outcome_pure, Prod.mk.injEq, Except.ok.injEq] at h
    exact ⟨h.1.symm, h.2.symm⟩
  · cases h
  · cases h

theorem outcome_textsOf_eq_ok {room : Nat} {values : List Value} {machine after : Machine}
    {texts : List String} (h : (textsOf room values).outcome machine = (.ok texts, after)) :
    texts = values.map Value.text ∧ after = machine := by
  induction values generalizing texts after with
  | nil =>
      cases h
      exact ⟨rfl, rfl⟩
  | cons value rest ih =>
      obtain ⟨text, middle, htext, hrest⟩ := outcome_bind_eq_ok.mp h
      obtain ⟨texts, last, htexts, hpure⟩ := outcome_bind_eq_ok.mp hrest
      obtain ⟨rfl, rfl⟩ := outcome_textOf_eq_ok htext
      obtain ⟨rfl, rfl⟩ := ih htexts
      cases hpure
      exact ⟨rfl, rfl⟩

theorem outcome_textsOf {room : Nat} {values : List Value}
    (h : ∀ value ∈ values, value.textFault? room = none) (machine : Machine) :
    (textsOf room values).outcome machine = (.ok (values.map Value.text), machine) := by
  induction values with
  | nil => rfl
  | cons value rest ih =>
      have htext : textOf room value = pure value.text := by
        rw [textOf, h value List.mem_cons_self]
      have hrest := ih fun other hother => h other (List.mem_cons_of_mem value hother)
      rw [textsOf, htext, pure_bind, outcome_bind, hrest]
      rfl

theorem outcome_makeLambda_eq_ok {room : Nat} {parameters : List Value} {body value : Value}
    {machine after : Machine}
    (h : (makeLambda room parameters body).outcome machine = (.ok value, after)) :
    value = .lambda machine.next (parameters.map Value.text) body ∧ after = machine.skip 1 := by
  obtain ⟨names, middle, hnames, hfresh⟩ := outcome_bind_eq_ok.mp h
  obtain ⟨rfl, rfl⟩ := outcome_textsOf_eq_ok hnames
  obtain ⟨id, last, hid, hpure⟩ := outcome_bind_eq_ok.mp hfresh
  cases hid
  cases hpure
  exact ⟨rfl, rfl⟩

/-- Whether or not the log can show the function, the frames stay as they are. -/
theorem chain_recordDefinition {room : Nat} {name : String} {function : Value}
    {machine after : Machine}
    (h : (recordDefinition room name function).outcome machine = (.ok (), after)) :
    after.chain = machine.chain := by
  rw [recordDefinition] at h
  split at h <;> cases h
  · exact machine.chain_record _
  · rfl

end Eval

open Eval

variable {room : Nat} {machine after : Machine} {name expr body value : Value}
  {parameters : List Value}

theorem outcome_define_form
    (h : (evaluate (room + 1) (.list [.symbol "define", name, expr])).outcome machine =
      (.ok value, after)) :
    ∃ middle, (evaluate room expr).outcome machine = (.ok value, middle) ∧
      after = middle.define name.text value := by
  have hform : evaluate (room + 1) (.list [.symbol "define", name, expr]) =
      runForm (evaluate room) room .define [name, expr] := rfl
  rw [hform, runForm_define] at h
  obtain ⟨result, middle, hresult, hrest⟩ := outcome_bind_eq_ok.mp h
  obtain ⟨text, last, htext, hdefine⟩ := outcome_bind_eq_ok.mp hrest
  obtain ⟨rfl, rfl⟩ := outcome_textOf_eq_ok htext
  cases hdefine
  exact ⟨_, hresult, rfl⟩

theorem outcome_lambda_form
    (h : (evaluate (room + 1)
        (.list (.symbol "lambda" :: (parameters ++ [body])))).outcome machine =
      (.ok value, after)) :
    value = .lambda machine.next (parameters.map Value.text) body ∧ after = machine.skip 1 := by
  have hne : parameters ≠ [] := by
    rintro rfl
    cases h
  have hform : evaluate (room + 1) (.list (.symbol "lambda" :: (parameters ++ [body]))) =
      runForm (evaluate room) room .lambda (parameters ++ [body]) := rfl
  rw [hform, runForm_lambda (evaluate room) room hne] at h
  exact outcome_makeLambda_eq_ok h

theorem outcome_function_form
    (h : (evaluate (room + 1)
        (.list (.symbol "fn" :: name :: (parameters ++ [body])))).outcome machine =
      (.ok value, after)) :
    after.chain = machine.chain.define name.text
      (.lambda machine.next (parameters.map Value.text) body) := by
  have hne : parameters ≠ [] := by
    rintro rfl
    cases h
  have hform : evaluate (room + 1) (.list (.symbol "fn" :: name :: (parameters ++ [body]))) =
      runForm (evaluate room) room .function (name :: (parameters ++ [body])) := rfl
  rw [hform, runForm_function (evaluate room) room name hne] at h
  obtain ⟨function, middle, hfunction, hrest⟩ := outcome_bind_eq_ok.mp h
  obtain ⟨rfl, rfl⟩ := outcome_makeLambda_eq_ok hfunction
  obtain ⟨text, last, htext, hrest⟩ := outcome_bind_eq_ok.mp hrest
  obtain ⟨rfl, rfl⟩ := outcome_textOf_eq_ok htext
  obtain ⟨_, defined, hdefined, hrest⟩ := outcome_bind_eq_ok.mp hrest
  cases hdefined
  obtain ⟨debug, last, hdebug, hrest⟩ := outcome_bind_eq_ok.mp hrest
  cases hdebug
  dsimp only at hrest
  split at hrest
  · obtain ⟨_, recorded, hrecorded, hpure⟩ := outcome_bind_eq_ok.mp hrest
    cases hpure
    exact chain_recordDefinition hrecorded
  · cases hrest
    rfl

end SetLisp
