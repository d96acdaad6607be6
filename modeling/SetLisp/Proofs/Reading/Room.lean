import SetLisp.Parser

namespace SetLisp.Parser

variable {parser next : Parser} {token : String} {expr? : Option Value} {failure : ParseFailure}

/-- All a token can lead to: there is no room for a form, the token is out of place, it opens a
form, it is a quote, or it completes an expression, which may close the innermost form. -/
inductive StepsTo (parser : Parser) (token : String) :
    Except ParseFailure (Parser × Option Value) → Prop
  | tooDeep {position : Nat} (hfull : parser.limit ≤ parser.forms.length) :
      StepsTo parser token (.error { fault := .tooDeep, position := position })
  | unexpected {position : Nat} :
      StepsTo parser token
        (.error { fault := .error (.unexpectedToken token), position := position })
  | opened (form : OpenForm) (hroom : parser.forms.length < parser.limit) :
      StepsTo parser token (.ok ({ parser.advance with forms := form :: parser.forms }, none))
  | quoted : StepsTo parser token (.ok ({ parser.advance with quotePending := true }, none))
  | completed {outer : List OpenForm} {expr : Value} {result : Parser × Option Value}
      (houter : outer <:+ parser.forms)
      (hresult : deliver { parser.advance with forms := outer } expr = result) :
      StepsTo parser token (.ok result)

theorem stepsTo_opened (bracket : Bracket) (quoted : Bool) :
    parser.StepsTo token (parser.opened bracket quoted) := by
  unfold opened
  split
  · next hfull => exact .tooDeep hfull
  · next hroom => exact .opened _ (Nat.lt_of_not_le hroom)

theorem stepsTo_closed (bracket : Bracket) :
    parser.StepsTo token (parser.closed bracket token) := by
  unfold closed
  split
  · exact .unexpected
  · next form outer hforms =>
      split
      · exact .completed (hforms ▸ List.suffix_cons form outer) rfl
      · exact .unexpected

theorem stepsTo_step (parser : Parser) (token : String) :
    parser.StepsTo token (parser.step token) := by
  unfold step
  split
  · exact stepsTo_opened .round true
  · exact .unexpected
  · exact stepsTo_opened _ false
  · exact stepsTo_closed _
  · exact .quoted
  · exact .completed List.suffix_rfl rfl

theorem fault_of_step (h : parser.step token = .error failure) :
    failure.fault = .tooDeep ∨ failure.fault = .error (.unexpectedToken token) := by
  cases h ▸ parser.stepsTo_step token with
  | tooDeep => exact .inl rfl
  | unexpected => exact .inr rfl

theorem deliver_limit (parser : Parser) (expr : Value) :
    (parser.deliver expr).1.limit = parser.limit := by
  unfold deliver
  split <;> rfl

theorem step_limit (h : parser.step token = .ok (next, expr?)) : next.limit = parser.limit := by
  cases h ▸ parser.stepsTo_step token with
  | opened | quoted => rfl
  | completed _ hresult =>
      obtain rfl := congrArg Prod.fst hresult
      exact deliver_limit _ _

theorem length_forms_deliver (parser : Parser) (expr : Value) :
    (parser.deliver expr).1.forms.length = parser.forms.length := by
  unfold deliver
  split
  · rfl
  · next hforms => rw [hforms, List.length_cons, List.length_cons]

theorem length_forms_step (h : parser.step token = .ok (next, expr?)) :
    next.forms.length ≤ parser.forms.length + 1 := by
  cases h ▸ parser.stepsTo_step token with
  | opened => exact Nat.le_refl _
  | quoted => exact Nat.le_succ _
  | completed houter hresult =>
      obtain rfl := congrArg Prod.fst hresult
      rw [length_forms_deliver]
      exact Nat.le_succ_of_le houter.length_le

/-- A token that completes no expression outside all forms leaves the parser inside one. -/
theorem idle_of_step (h : parser.step token = .ok (next, none)) : next.idle = false := by
  cases h ▸ parser.stepsTo_step token with
  | opened => rfl
  | quoted => exact Bool.and_false _
  | @completed outer _ _ _ hresult =>
      cases outer with
      | nil => cases congrArg Prod.snd hresult
      | cons form outer =>
          obtain rfl := congrArg Prod.fst hresult
          rfl

/-- The parser under another limit. -/
def withLimit (parser : Parser) (limit : Nat) : Parser :=
  { parser with limit := limit }

theorem deliver_withLimit (parser : Parser) (limit : Nat) (expr : Value) :
    (parser.withLimit limit).deliver expr =
      ((parser.deliver expr).1.withLimit limit, (parser.deliver expr).2) := by
  obtain ⟨_, _, _, _, forms⟩ := parser
  cases forms <;> rfl

/-- What the parser hands on, under another limit. -/
def resultWithLimit (limit : Nat) (result : Parser × Option Value) : Parser × Option Value :=
  (result.1.withLimit limit, result.2)

variable {limit : Nat} (hle : parser.limit ≤ limit)

include hle

theorem opened_withLimit {bracket : Bracket} {quoted : Bool}
    (h : ∀ position, parser.opened bracket quoted ≠ fail .tooDeep position) :
    (parser.withLimit limit).opened bracket quoted =
      (parser.opened bracket quoted).map (resultWithLimit limit) := by
  have hroom : ¬ parser.limit ≤ parser.forms.length := fun hfull => h _ (if_pos hfull)
  have hroom' : ¬ limit ≤ parser.forms.length := fun hfull => hroom (Nat.le_trans hle hfull)
  rw [opened, opened, if_neg hroom, withLimit, if_neg hroom']
  rfl

omit hle in
theorem closed_withLimit (bracket : Bracket) (token : String) :
    (parser.withLimit limit).closed bracket token =
      (parser.closed bracket token).map (resultWithLimit limit) := by
  have hsame : (parser.withLimit limit).forms = parser.forms := rfl
  rw [closed, closed, hsame]
  cases parser.forms with
  | nil => rfl
  | cons form outer =>
      dsimp only
      split
      · exact congrArg Except.ok
          (deliver_withLimit { parser.advance with forms := outer } limit form.close)
      · rfl

theorem step_withLimit (h : ∀ position, parser.step token ≠ fail .tooDeep position) :
    (parser.withLimit limit).step token = (parser.step token).map (resultWithLimit limit) := by
  have hquote : (parser.withLimit limit).quotePending = parser.quotePending := rfl
  unfold step at h ⊢
  rw [hquote]
  generalize parser.quotePending = pending at h ⊢
  generalize tokenKind token = kind at h ⊢
  match pending, kind, h with
  | true, .opening .round, h => exact opened_withLimit hle h
  | true, .opening .curly, _ | true, .closing _, _ | true, .quote, _ | true, .atom, _ => rfl
  | false, .opening bracket, h => exact opened_withLimit hle h
  | false, .closing bracket, _ => exact closed_withLimit bracket token
  | false, .quote, _ => rfl
  | false, .atom, _ => exact congrArg Except.ok (deliver_withLimit parser.advance limit _)

/-- Whatever comes of tokens but a lack of room comes of them under every larger limit. -/
theorem parseAll_withLimit {tokens : List String}
    (h : ∀ position, parser.parseAll tokens ≠ fail .tooDeep position) :
    (parser.withLimit limit).parseAll tokens = parser.parseAll tokens := by
  induction tokens generalizing parser with
  | nil => rfl
  | cons token rest ih =>
      rw [parseAll] at h
      rw [parseAll, parseAll, step_withLimit hle]
      · cases hstep : parser.step token with
        | error failure => rfl
        | ok result =>
            obtain ⟨next, _ | expr⟩ := result
            · rw [hstep] at h
              exact ih (step_limit hstep ▸ hle) h
            · rw [hstep] at h
              have hrest := ih (step_limit hstep ▸ hle) fun position hdeep => h position ?_
              · exact congrArg (Except.map (expr :: ·)) hrest
              · simp only [hdeep]
                rfl
      · intro position hdeep
        rw [hdeep] at h
        exact h position rfl

omit hle in
/-- Every level is opened by a token of its own. -/
theorem parseAll_ne_tooDeep {tokens : List String}
    (hroom : parser.forms.length + tokens.length ≤ parser.limit) (position : Nat) :
    parser.parseAll tokens ≠ fail .tooDeep position := by
  induction tokens generalizing parser with
  | nil =>
      rw [parseAll]
      split <;> nofun
  | cons token rest ih =>
      rw [List.length_cons] at hroom
      rw [parseAll]
      split
      · next failure hstep =>
          cases hstep ▸ parser.stepsTo_step token with
          | tooDeep hfull => omega
          | unexpected => nofun
      · next next hstep =>
          have := length_forms_step hstep
          exact ih (by rw [step_limit hstep]; omega)
      · next next expr hstep =>
          have := length_forms_step hstep
          have hrest := @ih next (by rw [step_limit hstep]; omega)
          cases hparse : next.parseAll rest with
          | ok exprs => nofun
          | error failure =>
              rintro ⟨⟩
              exact hrest hparse

end SetLisp.Parser

namespace SetLisp

variable {limit more payload : Nat} {tokens : List String}

theorem parseAll_of_le (hle : limit ≤ more)
    (h : ∀ position, parseAll limit payload tokens ≠ Parser.fail .tooDeep position) :
    parseAll more payload tokens = parseAll limit payload tokens :=
  @Parser.parseAll_withLimit { limit := limit, payload := payload, position := 0 } more hle tokens h

/-- A level for each token is room enough. -/
theorem parseAll_ne_tooDeep (hroom : tokens.length ≤ limit) (position : Nat) :
    parseAll limit payload tokens ≠ Parser.fail .tooDeep position :=
  Parser.parseAll_ne_tooDeep (by simpa using hroom) position

end SetLisp
