import SetLisp.Proofs.Reading.RoundTrip

namespace SetLisp

open Eval

namespace Value

theorem charsOfMore_concat (parameters : List Value) (body : Value) :
    charsOfMore (parameters ++ [body]) =
      ' ' :: ((parameters.map text).flatMap (fun name => name.toList ++ [' ']) ++ body.chars) := by
  induction parameters with
  | nil => exact congrArg (' ' :: ·) (List.append_nil body.chars)
  | cons parameter rest ih =>
      rw [List.cons_append, charsOfMore_cons, ih, List.map_cons, List.flatMap_cons, toList_text]
      simp only [List.cons_append, List.append_assoc, List.nil_append]

/-- A lambda with the texts of the parameters has the text of the form with the parameters. -/
theorem text_lambda (id : Nat) (parameters : List Value) (body : Value) :
    (lambda id (parameters.map text) body).text =
      (list (symbol "lambda" :: (parameters ++ [body]))).text := by
  have hopen : "(lambda ".toList = '(' :: ((symbol "lambda").chars ++ [' ']) := rfl
  refine congrArg String.ofList ?_
  rw [chars_lambda, chars_list, charsOfItems_cons, charsOfMore_concat, hopen]
  simp only [List.cons_append, List.append_assoc, List.nil_append]

variable {value : Value} {name : String} {items : List Value}

theorem eq_symbol_of_unmarked (h : value.unmarked = symbol name) : value = symbol name := by
  cases value with
  | symbol other => exact h
  | boolean | number | list | set | builtin | lambda | foreign => cases h

theorem eq_list_of_unmarked (h : value.unmarked = list items) :
    ∃ others, value = list others ∧ others.map unmarked = items := by
  cases value with
  | list others =>
      rw [unmarked, unmarkedItems_eq_map] at h
      exact ⟨others, rfl, list.inj h⟩
  | boolean | number | symbol | set | builtin | lambda | foreign => cases h

/-- What differs from a lambda form in marks only is a lambda form. -/
theorem exists_parts_of_unmarked {again body : Value} {parameters : List Value}
    (h : again.unmarked = (list (symbol "lambda" :: (parameters ++ [body]))).unmarked) :
    ∃ parameters' body', again = list (symbol "lambda" :: (parameters' ++ [body'])) ∧
      parameters'.map unmarked = parameters.map unmarked ∧ body'.unmarked = body.unmarked := by
  rw [unmarked, unmarkedItems_eq_map] at h
  obtain ⟨others, rfl, hothers⟩ := eq_list_of_unmarked h
  obtain ⟨head, rest, rfl, hhead, hrest⟩ := List.map_eq_cons_iff.mp hothers
  obtain rfl := eq_symbol_of_unmarked hhead
  rw [List.map_append, List.map_singleton] at hrest
  obtain ⟨parameters', back, rfl, hparameters, hback⟩ := List.map_eq_append_iff.mp hrest
  obtain ⟨body', rfl, hbody⟩ := List.map_eq_singleton_iff.mp hback
  exact ⟨parameters', body', rfl, hparameters, hbody⟩

theorem map_text_of_map_unmarked {values others : List Value}
    (h : values.map unmarked = others.map unmarked) : values.map text = others.map text := by
  have htexts (values : List Value) : (values.map unmarked).map text = values.map text := by
    rw [List.map_map]
    exact List.map_congr_left fun value _ => value.text_unmarked
  rw [← htexts values, h, htexts others]

/-- The items of a list are shown with the room that the list nests to. -/
theorem IsExpression.textFault?_of_mem {room : Nat} (h : (Value.list items).IsExpression)
    (hroom : (Value.list items).nesting ≤ room) : ∀ item ∈ items, item.textFault? room = none := by
  intro item hitem
  have hnesting := nestingOfItems_le_iff.mp (Nat.le_refl (nestingOfItems items)) item hitem
  exact (h.of_mem_list item hitem).textFault?_eq_none (Nat.lt_of_le_of_lt hnesting hroom)

/-- Parts of a form nest no deeper behind a name than they do in the form. -/
theorem nesting_call_le (name : String) (head parts : List Value) :
    (list (symbol name :: parts)).nesting ≤ (list (head ++ parts)).nesting := by
  rw [nesting, nestingOfItems_symbol_cons, nesting]
  refine Nat.succ_le_succ (nestingOfItems_le_iff.mpr fun part hpart => ?_)
  exact nestingOfItems_le_iff.mp (Nat.le_refl _) part (List.mem_append_right head hpart)

end Value

open Value

theorem isName_lambda : IsName "lambda" :=
  isName_of_read?_eq_none (by decide) (forall_mem_of_all (by decide)) (by decide) (by decide)
    (by decide)

/-- A lambda form whose parameters can be shown makes a lambda with their texts, which has the next
identity, and does nothing else. -/
theorem outcome_lambda_form_of_showable {room : Nat} {parameters : List Value}
    (hne : parameters ≠ [])
    (hshown : ∀ parameter ∈ parameters, parameter.textFault? room = none) (body : Value)
    (machine : Machine) :
    (evaluate (room + 1) (.list (.symbol "lambda" :: (parameters ++ [body])))).outcome machine =
      (.ok (.lambda machine.next (parameters.map text) body), machine.skip 1) := by
  have hform : evaluate (room + 1) (.list (.symbol "lambda" :: (parameters ++ [body]))) =
      runForm (evaluate room) room .lambda (parameters ++ [body]) := rfl
  rw [hform, runForm_lambda (evaluate room) room hne, makeLambda, outcome_bind,
    outcome_textsOf hshown]
  rfl

/-- A lambda form has a value only if it has parameters and a body. -/
theorem exists_parts_of_outcome_lambda {room : Nat} {parts : List Value} {value : Value}
    {machine after : Machine}
    (h : (evaluate room (.list (.symbol "lambda" :: parts))).outcome machine =
      (.ok value, after)) :
    ∃ parameters body, parts = parameters ++ [body] ∧ parameters ≠ [] ∧
      value = .lambda machine.next (parameters.map text) body := by
  cases room with
  | zero => cases h
  | succ room =>
      cases formRule .lambda parts with
      | lambda parameters body hne =>
          exact ⟨parameters, body, rfl, hne, (outcome_lambda_form h).1⟩
      | arity _ _ htakes =>
          have hform : evaluate (room + 1) (.list (.symbol "lambda" :: parts)) =
              runForm (evaluate room) room .lambda parts := rfl
          rw [hform, runForm_arity (evaluate room) room htakes] at h
          cases h

/-- A named function has a value only if it has parameters and a body. -/
theorem exists_parts_of_outcome_function {room : Nat} {name value : Value} {parts : List Value}
    {machine after : Machine}
    (h : (evaluate room (.list (.symbol "fn" :: name :: parts))).outcome machine =
      (.ok value, after)) :
    ∃ parameters body, parts = parameters ++ [body] ∧ parameters ≠ [] ∧
      after.chain = machine.chain.define name.text
        (.lambda machine.next (parameters.map text) body) := by
  cases room with
  | zero => cases h
  | succ room =>
      generalize hall : name :: parts = all at h
      cases formRule .function all with
      | function _ parameters body hne =>
          obtain ⟨rfl, rfl⟩ := List.cons.inj hall
          exact ⟨parameters, body, rfl, hne, outcome_function_form h⟩
      | arity _ _ htakes =>
          have hform : evaluate (room + 1) (.list (.symbol "fn" :: all)) =
              runForm (evaluate room) room .function all := rfl
          rw [hform, runForm_arity (evaluate room) room htakes] at h
          cases h

/-- The form makes the lambda in some evaluation: a lambda form has it for its value, and a named
function binds it. -/
inductive Makes : Value → Value → Prop
  | lambda {parts : List Value} {made : Value} {room : Nat} {machine after : Machine}
      (heval : (evaluate room (.list (.symbol "lambda" :: parts))).outcome machine =
        (.ok made, after)) :
      Makes (.list (.symbol "lambda" :: parts)) made
  | function {name answer made : Value} {parts : List Value} {room : Nat}
      {machine after : Machine}
      (heval : (evaluate room (.list (.symbol "fn" :: name :: parts))).outcome machine =
        (.ok answer, after))
      (hbound : after.chain.lookup? name.text = some made) :
      Makes (.list (.symbol "fn" :: name :: parts)) made

/-- What makes a lambda has its parameters and its body, and the lambda has the texts of the
parameters. -/
theorem Makes.exists_parts {form made : Value} (h : Makes form made) :
    ∃ head id parameters body, form = .list (head ++ (parameters ++ [body])) ∧
      parameters ≠ [] ∧ made = .lambda id (parameters.map text) body := by
  cases h with
  | lambda heval =>
      obtain ⟨parameters, body, rfl, hne, rfl⟩ := exists_parts_of_outcome_lambda heval
      exact ⟨[.symbol "lambda"], _, parameters, body, rfl, hne, rfl⟩
  | @function name answer _ parts room machine after heval hbound =>
      obtain ⟨parameters, body, rfl, hne, hchain⟩ := exists_parts_of_outcome_function heval
      rw [hchain, Chain.lookup?_define, if_pos rfl] at hbound
      obtain rfl := Option.some.inj hbound
      exact ⟨[.symbol "fn", name], _, parameters, body, rfl, hne, rfl⟩

/-- **A printed lambda reads back.** Where a lambda was made by a form of a parsed text, there is
room to show it, its text is parsed to one form, and evaluating this form on any machine makes a
lambda of the next identity that has the same parameters and, up to the marks of what is not a
number, the same body. Nothing else is done. -/
theorem printed_lambda_reads_back {form made : Value} (hmakes : Makes form made)
    (hform : form.IsExpression) {limit room : Nat} (hlimit : form.nesting ≤ limit)
    (hroom : form.nesting < room) (payload : Nat) (machine : Machine) :
    ∃ id names body again position body', made = .lambda id names body ∧
      made.textFault? room = none ∧
      parse limit payload (tokenize made.text) =
        .ok { expr := again, rest := [], position := position } ∧
      (evaluate room again).outcome machine =
        (.ok (.lambda machine.next names body'), machine.skip 1) ∧
      body'.unmarked = body.unmarked := by
  obtain ⟨head, id, parameters, body, rfl, hne, rfl⟩ := hmakes.exists_parts
  obtain ⟨room, rfl⟩ := Nat.exists_eq_succ_of_ne_zero (Nat.ne_zero_of_lt hroom)
  have hwritten : (Value.list (.symbol "lambda" :: (parameters ++ [body]))).IsExpression :=
    .call isName_lambda fun part hpart =>
      hform.of_mem_list part (List.mem_append_right head hpart)
  have hnesting := nesting_call_le "lambda" head (parameters ++ [body])
  have hshown := hform.textFault?_of_mem (Nat.le_of_lt_succ hroom)
  -- the parser marks anew what is not a number, so what it makes is the form up to marks
  obtain ⟨again, position, hparse, hsame⟩ := hwritten.parse_text (hnesting.trans hlimit) payload
  have hagain : again.IsExpression := isExpression_of_unmarked again (hsame ▸ hwritten.unmarked)
  have hagainNesting : again.nesting ≤ room := by
    rw [← nesting_unmarked, hsame, nesting_unmarked]
    exact hnesting.trans (Nat.le_of_lt_succ hroom)
  obtain ⟨parameters', body', rfl, hparameters, hbody⟩ := exists_parts_of_unmarked hsame
  have hne' : parameters' ≠ [] := by
    rintro rfl
    exact hne (List.map_eq_nil_iff.mp hparameters.symm)
  have hparametersShown : ∀ parameter ∈ parameters', parameter.textFault? room = none := by
    intro parameter hparameter
    refine hagain.textFault?_of_mem hagainNesting parameter (List.mem_cons_of_mem _ ?_)
    exact List.mem_append_left [body'] hparameter
  refine ⟨id, parameters.map text, body, .list (.symbol "lambda" :: (parameters' ++ [body'])),
    position, body', rfl, ?_, ?_, ?_, hbody⟩
  · exact hshown body (by simp)
  · rw [text_lambda, hparse]
  · rw [outcome_lambda_form_of_showable hne' hparametersShown,
      map_text_of_map_unmarked hparameters]

/-- A named function has a list with a set for a parameter and a set for its body, and in both sets
is what is not a number. -/
theorem printed_lambda_reads_back_of_named_function :
    let sugar (mark : Nat) := Value.list [.symbol "set", .number (.nan mark)]
    let form := Value.list [.symbol "fn", .symbol "f", .list [.symbol "a'", sugar 6], sugar 10]
    let machine : Machine := { chain := { own := [] } }
    let made := Value.lambda 1 ["(a' (set NaN))"] (sugar 10)
    form.Parsed 3 ∧ Makes form made ∧ made.text = "(lambda (a' (set NaN)) (set NaN))" ∧
      made.textFault? 4 = none ∧
      ∃ again position body', parse 3 9 (tokenize "(lambda (a' (set NaN)) (set NaN))") =
          .ok { expr := again, rest := [], position := position } ∧
        (evaluate 4 again).outcome machine =
          (.ok (.lambda 1 ["(a' (set NaN))"] body'), machine.skip 1) ∧
        body'.unmarked = (sugar 10).unmarked := by
  intro sugar form machine made
  have hform : form.Parsed 3 := ⟨0, "(fn f (a' \x7bNaN\x7d) \x7bNaN\x7d)", [form], rfl,
    List.mem_cons_self⟩
  have hmakes : Makes form made :=
    @Makes.function (.symbol "f") (.boolean true) made _ 4 machine
      ((machine.skip 1).define "f" made) rfl rfl
  obtain ⟨hexpression, hnesting⟩ := hform.isExpression
  obtain ⟨id, names, body, again, position, body', hmade, hshown, hparse, heval, hbody⟩ :=
    printed_lambda_reads_back hmakes hexpression hnesting (Nat.lt_succ_of_le hnesting) 9 machine
  obtain ⟨rfl, rfl, rfl⟩ := Value.lambda.inj hmade
  exact ⟨hform, hmakes, rfl, hshown, again, position, body', hparse, heval, hbody⟩

end SetLisp
