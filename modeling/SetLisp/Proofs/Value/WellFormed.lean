import SetLisp.Builtin.Answer
import SetLisp.Proofs.Reading.Expression
import SetLisp.Value.Text

namespace SetLisp

namespace Value

/-- What a program can compute. A lambda has the texts of expressions for parameters and an
expression for its body. -/
inductive WellFormed : Value → Prop
  | boolean (value : Bool) : WellFormed (.boolean value)
  | number (value : Double) : WellFormed (.number value)
  | list {items : List Value} (hitems : ∀ item ∈ items, WellFormed item) :
      WellFormed (.list items)
  | set {members : List Value} (hmembers : ∀ member ∈ members, WellFormed member) :
      WellFormed (.set members)
  | builtin (function : Builtin) : WellFormed (.builtin function)
  | lambda {id : Nat} {parameters : List String} {body : Value}
      (hparameters : ∀ name ∈ parameters, ∃ expr : Value, expr.IsExpression ∧ name = expr.text)
      (hbody : body.IsExpression) : WellFormed (.lambda id parameters body)

theorem WellFormed.of_mem_list {items : List Value} (h : (Value.list items).WellFormed) :
    ∀ item ∈ items, item.WellFormed := by
  cases h with
  | list hitems => exact hitems

theorem WellFormed.of_mem_set {members : List Value} (h : (Value.set members).WellFormed) :
    ∀ member ∈ members, member.WellFormed := by
  cases h with
  | set hmembers => exact hmembers

/-- Whether nothing but its nesting can keep the value from being shown. -/
def Showable (value : Value) : Prop :=
  ∀ room, value.textFault? room ≠ some .integerTooLarge

/-- Without any room, it is only room that is wanting. -/
theorem Showable.of_succ {value : Value}
    (h : ∀ room, value.textFault? (room + 1) ≠ some .integerTooLarge) : value.Showable := by
  rintro (_ | room)
  · simp [textFault?]
  · exact h room

theorem textFaultOfItems?_ne {room : Nat} {items : List Value}
    (hitems : ∀ item ∈ items, item.Showable) :
    textFaultOfItems? room items ≠ some .integerTooLarge := by
  induction items with
  | nil => exact nofun
  | cons item rest ih =>
      have hrest := ih fun other hother => hitems other (List.mem_cons_of_mem item hother)
      have hitem := hitems item List.mem_cons_self room
      rw [textFaultOfItems?]
      cases hfault : item.textFault? room with
      | none => exact hrest
      | some fault => rwa [Option.some_or, ← hfault]

theorem IsExpression.showable {expr : Value} (h : expr.IsExpression) : expr.Showable := by
  induction h with
  | boolean | number | symbol => exact .of_succ fun room => by simp [textFault?]
  | list _ ih => exact .of_succ fun room => textFaultOfItems?_ne ih

theorem WellFormed.showable {value : Value} (h : value.WellFormed) : value.Showable := by
  induction h with
  | boolean | number | builtin => exact .of_succ fun room => by simp [textFault?]
  | list _ ih | set _ ih => exact .of_succ fun room => textFaultOfItems?_ne ih
  | lambda _ hbody => exact .of_succ hbody.showable

end Value

theorem exists_of_map_eq_ok {ε α β : Type} {f : α → β} {result : Except ε α} {value : β}
    (h : result.map f = .ok value) : ∃ first, result = .ok first ∧ f first = value := by
  cases result with
  | error error => cases h
  | ok first => exact ⟨first, rfl, Except.ok.inj h⟩

theorem exists_of_bind_eq_ok {ε α β : Type} {f : α → Except ε β} {result : Except ε α} {value : β}
    (h : result.bind f = .ok value) : ∃ first, result = .ok first ∧ f first = .ok value := by
  cases result with
  | error error => cases h
  | ok first => exact ⟨first, rfl, h⟩

namespace Members

theorem mem_insertAll {members : Members} {values : List Value} {value : Value}
    (h : value ∈ insertAll members values) : value ∈ members ∨ value ∈ values := by
  induction values generalizing members with
  | nil => exact .inl h
  | cons first rest ih =>
      rcases ih h with hinsert | hrest
      · unfold insert at hinsert
        split at hinsert
        · exact .inl hinsert
        · rcases List.mem_append.mp hinsert with hold | hnew
          · exact .inl hold
          · exact .inr (List.mem_cons.mpr (.inl (List.mem_singleton.mp hnew)))
      · exact .inr (List.mem_cons_of_mem first hrest)

theorem mem_ofList {values : List Value} {value : Value} (h : value ∈ ofList values) :
    value ∈ values :=
  (mem_insertAll h).resolve_left List.not_mem_nil

end Members

namespace Builtin

theorem mem_joinLists {args items : List Value} (h : joinLists args = .ok items) :
    ∀ item ∈ items, ∃ more, Value.list more ∈ args ∧ item ∈ more := by
  fun_induction joinLists args generalizing items with
  | case1 =>
      cases h
      simp
  | case2 more rest ih =>
      obtain ⟨others, hrest, rfl⟩ := exists_of_map_eq_ok h
      intro item hitem
      rcases List.mem_append.mp hitem with hitem | hitem
      · exact ⟨more, List.mem_cons_self, hitem⟩
      · obtain ⟨other, hother, hmem⟩ := ih hrest item hitem
        exact ⟨other, List.mem_cons_of_mem _ hother, hmem⟩
  | case3 => cases h

theorem mem_allSets {function : Builtin} {args : List Value} {sets : List Members}
    (h : allSets function args = .ok sets) : ∀ members ∈ sets, Value.set members ∈ args := by
  fun_induction allSets function args generalizing sets with
  | case1 =>
      cases h
      simp
  | case2 first rest ih =>
      obtain ⟨others, hrest, rfl⟩ := exists_of_map_eq_ok h
      rintro members (_ | ⟨_, hmembers⟩)
      · exact List.mem_cons_self
      · exact List.mem_cons_of_mem _ (ih hrest members hmembers)
  | case3 => cases h

theorem mem_someSets {function : Builtin} {args : List Value} {sets : List Members}
    (h : someSets function args = .ok sets) : ∀ members ∈ sets, Value.set members ∈ args := by
  unfold someSets at h
  split at h
  · cases h
  · exact mem_allSets h

theorem mem_unionAll {sets : List Members} {value : Value} (h : value ∈ unionAll sets) :
    ∃ members ∈ sets, value ∈ members := by
  suffices hfold : ∀ start : Members, value ∈ sets.foldl Members.union start →
      value ∈ start ∨ ∃ members ∈ sets, value ∈ members from
    (hfold [] h).resolve_left List.not_mem_nil
  intro start hvalue
  clear h
  induction sets generalizing start with
  | nil => exact .inl hvalue
  | cons first rest ih =>
      rcases ih (start.union first) hvalue with hunion | ⟨members, hmembers, hmem⟩
      · rcases Members.mem_insertAll hunion with hstart | hfirst
        · exact .inl hstart
        · exact .inr ⟨first, List.mem_cons_self, hfirst⟩
      · exact .inr ⟨members, List.mem_cons_of_mem first hmembers, hmem⟩

theorem mem_interAll {sets : List Members} {value : Value} (h : value ∈ interAll sets) :
    ∃ members ∈ sets, value ∈ members := by
  cases sets with
  | nil => cases h
  | cons first rest =>
      refine ⟨first, List.mem_cons_self, ?_⟩
      change value ∈ rest.foldl Members.inter first at h
      induction rest generalizing first with
      | nil => exact h
      | cons second more ih => exact (List.mem_filter.mp (ih _ h)).1

theorem onlyList_eq_ok {function : Builtin} {args items : List Value}
    (h : onlyList function args = .ok items) : Value.list items ∈ args := by
  unfold onlyList at h
  split at h
  · cases h
    exact List.mem_cons_self
  · cases h
  · cases h

end Builtin

namespace Value

/-- What holds of every boolean and number, and of a list exactly when it holds of the items. -/
structure Itemwise (good : Value → Prop) : Prop where
  boolean (value : Bool) : good (.boolean value)
  number (value : Double) : good (.number value)
  list_iff {items : List Value} : good (.list items) ↔ ∀ item ∈ items, good item

/-- What builtins cannot break: it holds of the sets that are made of values or sets it holds of. -/
structure ClosedUnderBuiltins (good : Value → Prop) : Prop extends Itemwise good where
  ofList {values : List Value} (h : ∀ value ∈ values, good value) :
    good (.set (Members.ofList values))
  unionAll {sets : List Members} (h : ∀ members ∈ sets, good (.set members)) :
    good (.set (Builtin.unionAll sets))
  interAll {sets : List Members} (hne : sets ≠ []) (h : ∀ members ∈ sets, good (.set members)) :
    good (.set (Builtin.interAll sets))

/-- What holds of a set as well exactly when it holds of the members. -/
structure Hereditary (good : Value → Prop) : Prop extends Itemwise good where
  set_iff {members : List Value} : good (.set members) ↔ ∀ member ∈ members, good member

variable {good : Value → Prop}

theorem Hereditary.closed (h : Hereditary good) : ClosedUnderBuiltins good where
  toItemwise := h.toItemwise
  ofList hvalues := h.set_iff.mpr fun member hmember => hvalues member (Members.mem_ofList hmember)
  unionAll hsets := h.set_iff.mpr fun member hmember => by
    obtain ⟨members, hmembers, hmem⟩ := Builtin.mem_unionAll hmember
    exact h.set_iff.mp (hsets members hmembers) member hmem
  interAll _ hsets := h.set_iff.mpr fun member hmember => by
    obtain ⟨members, hmembers, hmem⟩ := Builtin.mem_interAll hmember
    exact h.set_iff.mp (hsets members hmembers) member hmem

namespace ClosedUnderBuiltins

open Builtin

variable (h : ClosedUnderBuiltins good) {args : List Value} (hargs : ∀ arg ∈ args, good arg)

include h hargs

theorem of_construct {value : Value} (hvalue : construct args = .ok value) : good value := by
  unfold construct at hvalue
  split at hvalue
  · next first rest =>
      cases hvalue
      rw [h.list_iff]
      rintro item (_ | ⟨_, hitem⟩)
      · exact hargs first List.mem_cons_self
      · have hrest := hargs (.list rest) (List.mem_cons_of_mem first List.mem_cons_self)
        exact h.list_iff.mp hrest item hitem
  · next first _ _ =>
      cases hvalue
      refine h.list_iff.mpr fun item hitem => ?_
      rw [List.mem_singleton.mp hitem]
      exact hargs first List.mem_cons_self
  · cases hvalue

theorem of_onlyList {function : Builtin} {items : List Value}
    (hitems : onlyList function args = .ok items) : ∀ item ∈ items, good item :=
  h.list_iff.mp (hargs (.list items) (onlyList_eq_ok hitems))

theorem of_joinLists {items : List Value} (hitems : joinLists args = .ok items) :
    ∀ item ∈ items, good item := by
  intro item hitem
  obtain ⟨more, hmore, hmem⟩ := mem_joinLists hitems item hitem
  exact h.list_iff.mp (hargs (.list more) hmore) item hmem

/-- Every builtin answers to good arguments with a good value or an error. -/
theorem of_result {fresh : Nat} {function : Builtin} {value : Value}
    (hresult : function.result fresh args = .ok value) : good value := by
  cases function with
  | add | sub | mul | div | rem =>
      cases hresult
      exact h.number _
  | equal | less | greater | lessOrEqual | greaterOrEqual | and | or =>
      cases hresult
      exact h.boolean _
  | not =>
      rw [result] at hresult
      unfold negation at hresult
      split at hresult <;> cases hresult
      exact h.boolean _
  | list =>
      cases hresult
      exact h.list_iff.mpr hargs
  | set =>
      cases hresult
      exact h.ofList hargs
  | head =>
      obtain ⟨items, hitems, hhead⟩ := exists_of_bind_eq_ok hresult
      cases items with
      | nil => cases hhead
      | cons item rest =>
          cases hhead
          exact h.of_onlyList hargs hitems _ List.mem_cons_self
  | tail =>
      obtain ⟨items, hitems, rfl⟩ := exists_of_map_eq_ok hresult
      exact h.list_iff.mpr fun item hitem =>
        h.of_onlyList hargs hitems item (List.mem_of_mem_tail hitem)
  | cons => exact h.of_construct hargs hresult
  | concat =>
      obtain ⟨items, hitems, rfl⟩ := exists_of_map_eq_ok hresult
      exact h.list_iff.mpr (h.of_joinLists hargs hitems)
  | union =>
      obtain ⟨sets, hsets, rfl⟩ := exists_of_map_eq_ok hresult
      exact h.unionAll fun members hmembers => hargs _ (mem_someSets hsets members hmembers)
  | inter =>
      obtain ⟨sets, hsets, rfl⟩ := exists_of_map_eq_ok hresult
      exact h.interAll (ne_nil_of_someSets hsets) fun members hmembers =>
        hargs _ (mem_someSets hsets members hmembers)
  | print =>
      rcases args with _ | ⟨arg, _ | ⟨more, rest⟩⟩ <;> cases hresult
      exact hargs _ List.mem_cons_self

end ClosedUnderBuiltins

/-- What evaluation cannot break: code and values that can be shown, code that stands for itself is
a value, and what a lambda is made of is code and remains code. -/
structure ClosedUnderEvaluation (code good : Value → Prop) : Prop extends
    ClosedUnderBuiltins good where
  showable_code {expr : Value} (h : code expr) : expr.Showable
  showable {value : Value} (h : good value) : value.Showable
  code_list_iff {items : List Value} : code (.list items) ↔ ∀ item ∈ items, code item
  of_literal {expr : Value} (h : code expr) (hsymbol : ∀ name, expr ≠ .symbol name)
    (hlist : ∀ items, expr ≠ .list items) : good expr
  lambda {id : Nat} {parameters : List Value} {body : Value}
    (hparameters : ∀ parameter ∈ parameters, code parameter) (hbody : code body) :
    good (.lambda id (parameters.map text) body)
  body_of_lambda {id : Nat} {parameters : List String} {body : Value}
    (h : good (.lambda id parameters body)) : code body

theorem hereditary_wellFormed : Hereditary WellFormed where
  boolean := .boolean
  number := .number
  list_iff := ⟨WellFormed.of_mem_list, .list⟩
  set_iff := ⟨WellFormed.of_mem_set, .set⟩

theorem closed_wellFormed : ClosedUnderEvaluation IsExpression WellFormed where
  toClosedUnderBuiltins := hereditary_wellFormed.closed
  showable_code := IsExpression.showable
  showable := WellFormed.showable
  code_list_iff := ⟨IsExpression.of_mem_list, .list⟩
  of_literal h hsymbol hlist := by
    cases h with
    | boolean value => exact .boolean value
    | number value => exact .number value
    | symbol => exact absurd rfl (hsymbol _)
    | list => exact absurd rfl (hlist _)
  lambda hparameters hbody := by
    refine .lambda (fun name hname => ?_) hbody
    obtain ⟨parameter, hparameter, rfl⟩ := List.mem_map.mp hname
    exact ⟨parameter, hparameters parameter hparameter, rfl⟩
  body_of_lambda h := by
    cases h with
    | lambda _ hbody => exact hbody

end Value

end SetLisp
