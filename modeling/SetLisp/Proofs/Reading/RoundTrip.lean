import SetLisp.Proofs.Eval.Naming
import SetLisp.Proofs.Reading.NormalForm
import SetLisp.Proofs.Value.OneLine

namespace SetLisp

namespace Value

theorem textFaultOfItems?_eq_none {room : Nat} {items : List Value}
    (hitems : ∀ item ∈ items, item.textFault? room = none) :
    textFaultOfItems? room items = none := by
  induction items with
  | nil => rfl
  | cons item rest ih =>
      rw [textFaultOfItems?, hitems item List.mem_cons_self, Option.none_or]
      exact ih fun other hother => hitems other (List.mem_cons_of_mem item hother)

/-- An expression is shown with room for one level more than it nests. -/
theorem IsExpression.textFault?_eq_none {expr : Value} (h : expr.IsExpression) {room : Nat}
    (hroom : expr.nesting < room) : expr.textFault? room = none := by
  induction h generalizing room with
  | boolean | number | symbol =>
      obtain ⟨room, rfl⟩ := Nat.exists_eq_succ_of_ne_zero (Nat.ne_zero_of_lt hroom)
      rfl
  | @list items _ ih =>
      obtain ⟨room, rfl⟩ := Nat.exists_eq_succ_of_ne_zero (Nat.ne_zero_of_lt hroom)
      rw [nesting, Nat.succ_lt_succ_iff] at hroom
      rw [textFault?]
      refine textFaultOfItems?_eq_none fun item hitem => ih item hitem ?_
      exact Nat.lt_of_le_of_lt (nestingOfItems_le_iff.mp (Nat.le_refl _) item hitem) hroom

theorem IsExpression.parse_text {limit : Nat} {expr : Value} (h : expr.IsExpression)
    (hnesting : expr.nesting ≤ limit) (payload : Nat) :
    ∃ again position, parse limit payload (tokenize expr.text) =
        .ok { expr := again, rest := [], position := position } ∧
      again.unmarked = expr.unmarked := by
  obtain ⟨again, hderives, hsame⟩ := h.respelled payload
  have hagain : again.nesting ≤ limit := by
    rwa [← nesting_unmarked, hsame, nesting_unmarked]
  rw [h.tokenize_text]
  exact ⟨again, _, parse_eq_ok_iff.mpr ⟨expr.tokens, by simp, hderives, hagain, rfl⟩, hsame⟩

theorem Parsed.parse_text {limit : Nat} {expr : Value} (h : expr.Parsed limit) (payload : Nat) :
    ∃ again position, parse limit payload (tokenize expr.text) =
        .ok { expr := again, rest := [], position := position } ∧
      again.unmarked = expr.unmarked :=
  h.isExpression.1.parse_text h.isExpression.2 payload

/-- The text of an expression is a term. -/
theorem IsExpression.isTerm {expr : Value} (h : expr.IsExpression) : IsTerm expr.text.toList := by
  have hword (hword : IsWord expr.text) (hquote : expr.text ≠ "'") : IsTerm expr.text.toList :=
    .word hword.2 hword.1 fun heq => hquote (String.toList_inj.mp heq)
  cases h with
  | boolean value =>
      refine hword (isWord_boolean value) ?_
      cases value <;> decide
  | number x =>
      refine hword (isWord_number x) fun hquote => not_reserved_number x ?_
      rw [show x.text = "'" from hquote]
      decide
  | @symbol name hname =>
      rw [text_symbol] at hword ⊢
      refine hword hname.isWord ?_
      rintro rfl
      exact hname.not_reserved (by decide)
  | list hitems =>
      have hinner := tidy_charsOfItems fun item hitem => (hitems item hitem).tidy
      rw [toList_text]
      exact .form plain_nil .round .round (hinner.matched.openedAfter [])

theorem IsExpression.unmarked {expr : Value} (h : expr.IsExpression) :
    expr.unmarked.IsExpression := by
  induction h with
  | boolean value => exact .boolean value
  | number x => exact .number _
  | symbol hname => exact .symbol hname
  | @list items _ ih =>
      refine .list fun item hitem => ?_
      rw [unmarkedItems_eq_map] at hitem
      obtain ⟨original, horiginal, rfl⟩ := List.mem_map.mp hitem
      exact ih original horiginal

mutual

theorem isExpression_of_unmarked :
    ∀ value : Value, value.unmarked.IsExpression → value.IsExpression
  | number x, _ => .number x
  | list items, h => by
      rw [unmarked] at h
      cases h with
      | list hitems => exact .list (isExpression_of_unmarkedItems items hitems)
  | boolean _, h | symbol _, h | set _, h | builtin _, h | lambda .., h | foreign .., h => h

theorem isExpression_of_unmarkedItems :
    ∀ items : List Value, (∀ item ∈ unmarkedItems items, item.IsExpression) →
      ∀ item ∈ items, item.IsExpression
  | [], _ => by simp
  | first :: rest, h => by
      obtain ⟨hfirst, hrest⟩ := List.forall_mem_cons.mp h
      exact List.forall_mem_cons.mpr
        ⟨isExpression_of_unmarked first hfirst, isExpression_of_unmarkedItems rest hrest⟩

end

/-- Up to marks, the expressions are what the parser makes of texts. -/
theorem isExpression_iff {expr : Value} :
    expr.IsExpression ↔
      ∃ limit, ∃ again : Value, again.Parsed limit ∧ again.unmarked = expr.unmarked := by
  constructor
  · intro h
    obtain ⟨again, hderives, hsame⟩ := h.respelled 0
    refine ⟨again.nesting, again, ⟨0, expr.text, [again], ?_, List.mem_cons_self⟩, hsame⟩
    rw [h.tokenize_text, parseAll_eq_ok_iff]
    refine ⟨derivesEach_singleton hderives, fun other hother => ?_⟩
    rw [List.mem_singleton.mp hother]
  · rintro ⟨limit, again, hagain, hsame⟩
    refine isExpression_of_unmarked expr ?_
    rw [← hsame]
    exact hagain.isExpression.1.unmarked

/-- Parsed expressions have one text only if they are one expression. -/
theorem Parsed.text_eq_iff {limit : Nat} {expr other : Value} (hexpr : expr.Parsed limit)
    (hother : other.Parsed limit) : expr.text = other.text ↔ expr.unmarked = other.unmarked := by
  constructor
  · intro htext
    obtain ⟨again, position, hparse, hsame⟩ := hexpr.parse_text 0
    obtain ⟨again', position', hparse', hsame'⟩ := hother.parse_text 0
    rw [htext, hparse'] at hparse
    simp only [Except.ok.injEq, Parsed.mk.injEq] at hparse
    rw [← hsame, ← hsame', hparse.1]
  · intro hsame
    rw [← text_unmarked expr, hsame, text_unmarked]

/-- The name belongs to the expression and to no other that is parsed. -/
def NamedBy (limit : Nat) (name : String) (expr : Value) : Prop :=
  ∀ other : Value, other.Parsed limit → (name = other.text ↔ expr.unmarked = other.unmarked)

theorem Parsed.namedBy {limit : Nat} {expr : Value} (h : expr.Parsed limit) :
    NamedBy limit expr.text expr :=
  fun _ hother => h.text_eq_iff hother

theorem forall₂_namedBy {limit : Nat} {exprs : List Value}
    (h : ∀ expr ∈ exprs, expr.Parsed limit) :
    List.Forall₂ (NamedBy limit) (exprs.map text) exprs := by
  induction exprs with
  | nil => exact .nil
  | cons expr rest ih =>
      exact .cons (h expr List.mem_cons_self).namedBy
        (ih fun other hother => h other (List.mem_cons_of_mem expr hother))

end Value

/-- Expressions shown one on a line are read as one term each. -/
theorem readTerms_chars {exprs : List Value} (hexprs : ∀ expr ∈ exprs, expr.IsExpression) :
    readTerms (exprs.map Value.chars) = .ok (exprs.map Value.text) := by
  have hlines : exprs.map Value.chars = (exprs.map Value.text).map String.toList := by
    rw [List.map_map]
    exact List.map_congr_left fun expr _ => expr.toList_text.symm
  rw [hlines]
  exact readTerms_of_isTerm (List.forall_mem_map.mpr fun expr hexpr => (hexprs expr hexpr).isTerm)

open Eval

/-- **The reader and the printer are inverse.** Expressions shown one on a line are read as one term
each; each text is parsed to its expression, with no tokens left, up to the marks of what is not a
number. So no two expressions have one text, and no form gives one name to two. -/
theorem reader_inverts_printer (limit : Nat) :
    (∀ exprs : List Value, (∀ expr ∈ exprs, expr.Parsed limit) →
      readTerms (exprs.map Value.chars) = .ok (exprs.map Value.text)) ∧
    (∀ expr : Value, expr.Parsed limit →
      expr.textFault? (limit + 1) = none ∧
      ∀ payload, ∃ again position, parse limit payload (tokenize expr.text) =
          .ok { expr := again, rest := [], position := position } ∧
        again.unmarked = expr.unmarked) ∧
    (∀ expr other : Value, expr.Parsed limit → other.Parsed limit → expr.text = other.text →
      expr.unmarked = other.unmarked) ∧
    (∀ (room : Nat) (name expr value : Value) (machine after : Machine), name.Parsed limit →
      (evaluate (room + 1) (.list [.symbol "define", name, expr])).outcome machine =
        (.ok value, after) →
      ∃ middle bound, (evaluate room expr).outcome machine = (.ok value, middle) ∧
        after.chain = middle.chain.define bound value ∧ Value.NamedBy limit bound name) ∧
    (∀ (room : Nat) (parameters : List Value) (body value : Value) (machine after : Machine),
      (∀ parameter ∈ parameters, parameter.Parsed limit) →
      (evaluate (room + 1)
          (.list (.symbol "lambda" :: (parameters ++ [body])))).outcome machine =
        (.ok value, after) →
      ∃ id names, value = .lambda id names body ∧
        List.Forall₂ (Value.NamedBy limit) names parameters) ∧
    (∀ (room : Nat) (name : Value) (parameters : List Value) (body value : Value)
        (machine after : Machine), name.Parsed limit →
      (∀ parameter ∈ parameters, parameter.Parsed limit) →
      (evaluate (room + 1)
          (.list (.symbol "fn" :: name :: (parameters ++ [body])))).outcome machine =
        (.ok value, after) →
      ∃ bound id names, after.chain = machine.chain.define bound (.lambda id names body) ∧
        Value.NamedBy limit bound name ∧ List.Forall₂ (Value.NamedBy limit) names parameters) := by
  refine ⟨?_, ?_, ?_, ?_, ?_, ?_⟩
  · intro exprs hexprs
    exact readTerms_chars fun expr hexpr => (hexprs expr hexpr).isExpression.1
  · intro expr hexpr
    obtain ⟨hexpression, hnesting⟩ := hexpr.isExpression
    exact ⟨hexpression.textFault?_eq_none (Nat.lt_succ_of_le hnesting), hexpr.parse_text⟩
  · intro expr other hexpr hother
    exact (hexpr.text_eq_iff hother).mp
  · intro room name expr value machine after hname h
    obtain ⟨middle, hvalue, rfl⟩ := outcome_define_form h
    exact ⟨middle, name.text, hvalue, rfl, hname.namedBy⟩
  · intro room parameters body value machine after hparameters h
    obtain ⟨rfl, -⟩ := outcome_lambda_form h
    exact ⟨machine.next, parameters.map Value.text, rfl, Value.forall₂_namedBy hparameters⟩
  · intro room name parameters body value machine after hname hparameters h
    exact ⟨name.text, machine.next, parameters.map Value.text, outcome_function_form h,
      hname.namedBy, Value.forall₂_namedBy hparameters⟩

/-- A quoted form with a quote inside a name, what is not a number and an empty set: it comes back
from its text as calls, its text is that of the form with another mark, and each kind of form gives
the name its own text. -/
theorem reader_inverts_printer_quoted :
    let name := Value.symbol "a'"
    let form (mark : Nat) := Value.list
      [.symbol "list", name, .number (.nan mark), .list [.symbol "set"]]
    let expr := form 4
    let machine : Machine := { chain := { own := [] } }
    expr.Parsed 2 ∧ (form 5).Parsed 2 ∧ name.Parsed 2 ∧
      readTerms [expr.chars, name.chars] = .ok ["(list a' NaN (set))", "a'"] ∧
      (∃ again position, parse 2 9 (tokenize "(list a' NaN (set))") =
          .ok { expr := again, rest := [], position := position } ∧
        again.unmarked = expr.unmarked) ∧
      expr.text = (form 5).text ∧ expr.unmarked = (form 5).unmarked ∧
      (∃ middle bound,
        (evaluate 1 (.boolean true)).outcome machine = (.ok (.boolean true), middle) ∧
        (machine.define "a'" (.boolean true)).chain = middle.chain.define bound (.boolean true) ∧
        Value.NamedBy 2 bound name) ∧
      (∃ id names, Value.lambda 1 ["a'"] expr = .lambda id names expr ∧
        List.Forall₂ (Value.NamedBy 2) names [name]) ∧
      ∃ bound id names, (machine.define "a'" (.lambda 1 ["a'"] expr)).chain =
          machine.chain.define bound (.lambda id names expr) ∧
        Value.NamedBy 2 bound name ∧ List.Forall₂ (Value.NamedBy 2) names [name] := by
  intro name form expr machine
  have hexpr : expr.Parsed 2 := ⟨1, "'(a' NaN \x7b\x7d)", [expr], rfl, List.mem_cons_self⟩
  have hother : (form 5).Parsed 2 := ⟨2, "'(a' NaN \x7b\x7d)", [form 5], rfl, List.mem_cons_self⟩
  have hname : name.Parsed 2 := ⟨1, "a'", [name], rfl, List.mem_cons_self⟩
  have hboth : ∀ parsed ∈ [expr, name], parsed.Parsed 2 := by
    rintro parsed (_ | ⟨_, _ | ⟨_, ⟨⟩⟩⟩)
    · exact hexpr
    · exact hname
  have hparameters : ∀ parameter ∈ [name], parameter.Parsed 2 :=
    fun parameter hparameter => hboth parameter (List.mem_cons_of_mem expr hparameter)
  obtain ⟨hterms, hparse, hinjective, hdefine, hlambda, hfunction⟩ := reader_inverts_printer 2
  refine ⟨hexpr, hother, hname, hterms [expr, name] hboth, (hparse expr hexpr).2 9, rfl,
    hinjective expr (form 5) hexpr hother rfl, ?_, ?_, ?_⟩
  · exact hdefine 1 name (.boolean true) (.boolean true) machine
      (machine.define "a'" (.boolean true)) hname rfl
  · exact hlambda 1 [name] expr (.lambda 1 ["a'"] expr) machine (machine.skip 1) hparameters rfl
  · exact hfunction 1 name [name] expr (.boolean true) machine
      ((machine.skip 1).define "a'" (.lambda 1 ["a'"] expr)) hname hparameters rfl

end SetLisp
