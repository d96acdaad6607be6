import SetLisp.Proofs.Reading.OpenForms

namespace SetLisp.Parser

variable {parser next : Parser}

/-- The parser takes the tokens without handing over an expression. -/
inductive Advances : Parser → List String → Parser → Prop
  | refl {parser : Parser} : Advances parser [] parser
  | step {parser next last : Parser} {token : String} {tokens : List String}
      (hstep : parser.step token = .ok (next, none)) (hnext : Advances next tokens last) :
      Advances parser (token :: tokens) last

theorem Advances.append {parser next last : Parser} {tokens more : List String}
    (h : Advances parser tokens next) (hmore : Advances next more last) :
    Advances parser (tokens ++ more) last := by
  induction h with
  | refl => exact hmore
  | step hstep _ ih => exact .step hstep (ih hmore)

theorem Advances.parse_append {tokens : List String} (h : Advances parser tokens next)
    (rest : List String) : parser.parse (tokens ++ rest) = next.parse rest := by
  induction h with
  | refl => rfl
  | step hstep _ ih =>
      rw [List.cons_append, parse, hstep]
      exact ih

theorem Advances.parseAll_append {tokens : List String} (h : Advances parser tokens next)
    (rest : List String) : parser.parseAll (tokens ++ rest) = next.parseAll rest := by
  induction h with
  | refl => rfl
  | step hstep _ ih =>
      rw [List.cons_append, parseAll, hstep]
      exact ih

/-- The parser with its cursor moved forward. -/
def moved (parser : Parser) (count : Nat) : Parser :=
  { parser with position := parser.position + count }

/-- The parser takes all tokens but the last, which makes it hand over the expression. -/
def Completes (parser : Parser) (tokens : List String) (expr : Value) : Prop :=
  ∃ (taken : List String) (last : String) (next : Parser), tokens = taken ++ [last] ∧
    parser.Advances taken next ∧ next.step last = .ok ((parser.moved tokens.length).deliver expr)

/-- Inside a form a completed expression becomes its last item. -/
theorem Completes.advances {tokens : List String} {expr : Value} {form : OpenForm}
    {outer : List OpenForm} (h : parser.Completes tokens expr)
    (hforms : parser.forms = form :: outer) :
    parser.Advances tokens
      { parser.moved tokens.length with
        forms := { form with items := expr :: form.items } :: outer } := by
  obtain ⟨taken, last, next, rfl, hadvances, hstep⟩ := h
  refine hadvances.append (.step ?_ .refl)
  rw [hstep]
  simp [deliver, moved, hforms]

theorem completes_atom {token : String} (hquote : parser.quotePending = false)
    (htoken : token ∉ reservedTokens) :
    parser.Completes [token] (atomOfToken (parser.payload + parser.position) token) := by
  refine ⟨[], token, parser, rfl, .refl, ?_⟩
  rw [step, hquote, tokenKind_eq_atom htoken]
  obtain ⟨_, _, _, _, _⟩ := parser
  obtain rfl := hquote
  rfl

/-- The parser behind the opening tokens of a form. -/
def entered (parser : Parser) (bracket : Bracket) (quoted : Bool) : Parser :=
  { parser.moved (openingTokens bracket quoted).length with
    forms := { bracket := bracket, quoted := quoted, items := [] } :: parser.forms }

theorem advances_opening (bracket : Bracket) (hquote : parser.quotePending = false)
    (hroom : parser.forms.length < parser.limit) :
    parser.Advances (openingTokens bracket false) (parser.entered bracket false) := by
  have hkind : ∃ token, openingTokens bracket false = [token] ∧
      tokenKind token = .opening bracket := by
    cases bracket
    · exact ⟨"(", rfl, by decide⟩
    · exact ⟨"\x7b", rfl, by decide⟩
  obtain ⟨token, htokens, htoken⟩ := hkind
  simp only [entered, htokens]
  refine .step ?_ .refl
  simp only [step, hquote, htoken, opened, Nat.not_le.mpr hroom, if_false]
  obtain ⟨_, _, _, _, _⟩ := parser
  obtain rfl := hquote
  rfl

theorem advances_quoted_opening (hquote : parser.quotePending = false)
    (hroom : parser.forms.length < parser.limit) :
    parser.Advances (openingTokens .round true) (parser.entered .round true) := by
  have hquoteKind : tokenKind "'" = .quote := by decide
  have hroundKind : tokenKind "(" = .opening .round := by decide
  have hpending : parser.step "'" = .ok ({ parser.advance with quotePending := true }, none) := by
    simp only [step, hquote, hquoteKind]
  refine .step hpending (.step ?_ .refl)
  · simp only [step, hroundKind, opened, advance, Nat.not_le.mpr hroom, if_false]
    obtain ⟨_, _, _, _, _⟩ := parser
    obtain rfl := hquote
    rfl

/-- A form completes when its bracket closes. -/
theorem completes_form {bracket : Bracket} {quoted : Bool} {tokens : List String}
    {items : List Value} (hquote : parser.quotePending = false)
    (hopening : parser.Advances (openingTokens bracket quoted) (parser.entered bracket quoted))
    (hitems : (parser.entered bracket quoted).Advances tokens
      { (parser.entered bracket quoted).moved tokens.length with
        forms := { bracket := bracket, quoted := quoted, items := items.reverse ++ [] } ::
          parser.forms }) :
    parser.Completes (openingTokens bracket quoted ++ (tokens ++ [closingToken bracket]))
      (OpenForm.close { bracket := bracket, quoted := quoted, items := items.reverse }) := by
  refine ⟨openingTokens bracket quoted ++ tokens, closingToken bracket, _, by simp,
    hopening.append hitems, ?_⟩
  obtain ⟨_, _, _, _, _⟩ := parser
  obtain rfl := hquote
  simp only [step, moved, entered, tokenKind_closingToken, closed, if_true, List.append_nil]
  simp [advance, Nat.add_assoc]

mutual

theorem completes_of_derives {parser : Parser} {start : Nat} {tokens : List String} {expr : Value}
    (h : Derives start tokens expr) (hquote : parser.quotePending = false)
    (hplace : parser.payload + parser.position = start)
    (hnesting : expr.nesting + parser.forms.length ≤ parser.limit) :
    parser.Completes tokens expr := by
  cases h with
  | atom htoken =>
      obtain rfl := hplace
      exact completes_atom hquote htoken
  | round hitems =>
      rw [Value.nesting] at hnesting
      have hinner := advances_of_derivesEach (parser.entered .round false) hitems rfl
        hquote (hplace ▸ rfl) (by simp only [entered, moved, List.length_cons]; omega)
      have hform := completes_form hquote (advances_opening .round hquote (by omega)) hinner
      rwa [OpenForm.close, List.reverse_reverse] at hform
  | curly hitems =>
      rw [Value.nesting, Value.nestingOfItems_symbol_cons] at hnesting
      have hinner := advances_of_derivesEach (parser.entered .curly false) hitems rfl
        hquote (hplace ▸ rfl) (by simp only [entered, moved, List.length_cons]; omega)
      have hform := completes_form hquote (advances_opening .curly hquote (by omega)) hinner
      rwa [OpenForm.close, List.reverse_reverse] at hform
  | quoted hitems =>
      rw [Value.nesting, Value.nestingOfItems_symbol_cons] at hnesting
      have hinner := advances_of_derivesEach (parser.entered .round true) hitems rfl
        hquote (hplace ▸ rfl) (by simp only [entered, moved, List.length_cons]; omega)
      have hform := completes_form hquote (advances_quoted_opening hquote (by omega)) hinner
      rwa [OpenForm.close, List.reverse_reverse] at hform

theorem advances_of_derivesEach (parser : Parser) {start : Nat} {tokens : List String}
    {exprs : List Value} {form : OpenForm} {outer : List OpenForm}
    (h : DerivesEach start tokens exprs) (hforms : parser.forms = form :: outer)
    (hquote : parser.quotePending = false) (hplace : parser.payload + parser.position = start)
    (hnesting : Value.nestingOfItems exprs + parser.forms.length ≤ parser.limit) :
    parser.Advances tokens
      { parser.moved tokens.length with
        forms := { form with items := exprs.reverse ++ form.items } :: outer } := by
  cases h with
  | nil =>
      obtain ⟨_, _, _, _, _⟩ := parser
      obtain rfl := hforms
      exact .refl
  | @cons _ tokens more expr exprs hexpr hexprs =>
      rw [Value.nestingOfItems] at hnesting
      have hfirst := (completes_of_derives hexpr hquote hplace (by omega)).advances hforms
      have hrest := advances_of_derivesEach
        { parser.moved tokens.length with
          forms := { form with items := expr :: form.items } :: outer }
        hexprs rfl hquote (by simp only [moved]; omega)
        (by simp only [hforms, List.length_cons, moved] at hnesting ⊢; omega)
      refine hfirst.append ?_
      simpa [moved, Nat.add_assoc] using hrest

end

theorem parse_of_derives (parser : Parser) {start : Nat} {tokens : List String} {expr : Value}
    (h : Derives start tokens expr) (hidle : parser.idle = true)
    (hplace : parser.payload + parser.position = start) (hnesting : expr.nesting ≤ parser.limit)
    (rest : List String) :
    parser.parse (tokens ++ rest) =
      .ok { expr := expr, rest := rest, position := parser.position + tokens.length } := by
  obtain ⟨hforms, hquote⟩ := idle_iff.mp hidle
  obtain ⟨taken, last, next, htokens, hadvances, hstep⟩ :=
    completes_of_derives h hquote hplace (by simpa [hforms] using hnesting)
  rw [htokens, List.append_assoc, hadvances.parse_append, List.singleton_append, parse, hstep,
    htokens]
  simp [deliver, moved, hforms]

/-- The parser goes through the expressions and on behind them. -/
theorem parseAll_append_of_derivesEach {start : Nat} {tokens : List String} {exprs : List Value}
    (h : DerivesEach start tokens exprs) (hidle : parser.idle = true)
    (hplace : parser.payload + parser.position = start)
    (hnesting : ∀ expr ∈ exprs, expr.nesting ≤ parser.limit) (rest : List String) :
    parser.parseAll (tokens ++ rest) =
      ((parser.moved tokens.length).parseAll rest).map (exprs ++ ·) := by
  induction exprs generalizing parser start tokens with
  | nil =>
      cases h
      exact (congrFun Except.map_id _).symm
  | cons expr others ih =>
      obtain ⟨hforms, hquote⟩ := idle_iff.mp hidle
      cases h with
      | @cons _ tokens more _ _ hexpr hexprs =>
          obtain ⟨taken, last, next, htokens, hadvances, hstep⟩ :=
            completes_of_derives hexpr hquote hplace
              (by simpa [hforms] using hnesting expr List.mem_cons_self)
          have hothers := @ih (parser.moved tokens.length) _ _ hexprs hidle
            (by simp only [moved]; omega)
            fun other hother => hnesting other (List.mem_cons_of_mem expr hother)
          have hdeliver : (parser.moved tokens.length).deliver expr =
              (parser.moved tokens.length, some expr) := by
            simp [deliver, moved, hforms]
          have hmoved : (parser.moved tokens.length).moved more.length =
              parser.moved (tokens ++ more).length := by
            simp [moved, Nat.add_assoc]
          have hfirst : parser.parseAll (tokens ++ (more ++ rest)) =
              ((parser.moved tokens.length).parseAll (more ++ rest)).map (expr :: ·) := by
            rw [htokens, List.append_assoc, hadvances.parseAll_append, List.singleton_append,
              parseAll, hstep, ← htokens, hdeliver]
          rw [List.append_assoc, hfirst, hothers, hmoved]
          cases parseAll _ rest <;> rfl

theorem parseAll_of_derivesEach {start : Nat} {tokens : List String} {exprs : List Value}
    (h : DerivesEach start tokens exprs) (hidle : parser.idle = true)
    (hplace : parser.payload + parser.position = start)
    (hnesting : ∀ expr ∈ exprs, expr.nesting ≤ parser.limit) :
    parser.parseAll tokens = .ok exprs := by
  have hall := parseAll_append_of_derivesEach h hidle hplace hnesting []
  have hend : (parser.moved tokens.length).parseAll [] = .ok [] := by
    rw [parseAll, if_pos (show (parser.moved tokens.length).idle = true from hidle)]
  rw [List.append_nil, hend] at hall
  rw [hall, Except.map, List.append_nil]

end SetLisp.Parser
