import SetLisp.Proofs.Value.WellFormed

namespace SetLisp.Value

/-- No integer in the value is too large to be shown. -/
inductive InRange : Value → Prop
  | boolean (value : Bool) : InRange (.boolean value)
  | number (value : Double) : InRange (.number value)
  | symbol (name : String) : InRange (.symbol name)
  | list {items : List Value} (hitems : ∀ item ∈ items, InRange item) : InRange (.list items)
  | set {members : List Value} (hmembers : ∀ member ∈ members, InRange member) :
      InRange (.set members)
  | builtin (function : Builtin) : InRange (.builtin function)
  | lambda {id : Nat} {parameters : List String} {body : Value} (hbody : InRange body) :
      InRange (.lambda id parameters body)
  | foreign {id : Nat} {datum : Foreign}
      (hdatum : ∀ value, datum = .integer value → (Double.ofInt value).isInfinite = false) :
      InRange (.foreign id datum)

theorem IsExpression.inRange {expr : Value} (h : expr.IsExpression) : expr.InRange := by
  induction h with
  | boolean value => exact .boolean value
  | number value => exact .number value
  | symbol => exact .symbol _
  | list _ ih => exact .list ih

theorem WellFormed.inRange {value : Value} (h : value.WellFormed) : value.InRange := by
  induction h with
  | boolean value => exact .boolean value
  | number value => exact .number value
  | list _ ih => exact .list ih
  | set _ ih => exact .set ih
  | builtin function => exact .builtin function
  | lambda _ hbody => exact .lambda hbody.inRange

theorem InRange.showable {value : Value} (h : value.InRange) : value.Showable := by
  induction h with
  | boolean | number | symbol | builtin => exact .of_succ fun room => by simp [textFault?]
  | list _ ih | set _ ih => exact .of_succ fun room => textFaultOfItems?_ne ih
  | lambda _ ih => exact .of_succ ih
  | @foreign _ datum hdatum =>
      refine .of_succ fun room => ?_
      cases datum with
      | integer value => simp [textFault?, hdatum value rfl]
      | text | symbol | nothing => simp [textFault?]

theorem hereditary_inRange : Hereditary InRange where
  boolean := .boolean
  number := .number
  list_iff := by
    refine ⟨fun h => ?_, .list⟩
    cases h with
    | list hitems => exact hitems
  set_iff := by
    refine ⟨fun h => ?_, .set⟩
    cases h with
    | set hmembers => exact hmembers

/-- Evaluation does not get out of range. -/
theorem closed_inRange : ClosedUnderEvaluation InRange InRange where
  toClosedUnderBuiltins := hereditary_inRange.closed
  showable_code := InRange.showable
  showable := InRange.showable
  code_list_iff := hereditary_inRange.list_iff
  of_literal h _ _ := h
  lambda _ hbody := .lambda hbody
  body_of_lambda h := by
    cases h with
    | lambda hbody => exact hbody

end SetLisp.Value
