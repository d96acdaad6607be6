import SetLisp.Proofs.Reading.Faults

namespace SetLisp

theorem tokenKind_eq_quote_iff {token : String} : tokenKind token = .quote ↔ token = "'" := by
  constructor
  · intro hkind
    have hspells := spells_tokenKind token
    rwa [hkind] at hspells
  · rintro rfl
    decide

namespace Parser

variable {parser next last : Parser} {token : String} {tokens : List String}
  {expr? : Option Value} {failure : ParseFailure}

theorem position_deliver (parser : Parser) (expr : Value) :
    (parser.deliver expr).1.position = parser.position := by
  unfold deliver
  split <;> rfl

theorem payload_deliver (parser : Parser) (expr : Value) :
    (parser.deliver expr).1.payload = parser.payload := by
  unfold deliver
  split <;> rfl

theorem quotePending_deliver (parser : Parser) (expr : Value) :
    (parser.deliver expr).1.quotePending = parser.quotePending := by
  unfold deliver
  split <;> rfl

theorem position_of_step (h : parser.step token = .ok (next, expr?)) :
    next.position = parser.position + 1 := by
  cases h ▸ parser.stepsTo_step token with
  | opened | quoted => rfl
  | completed _ hresult =>
      obtain rfl := congrArg Prod.fst hresult
      exact position_deliver _ _

theorem payload_of_step (h : parser.step token = .ok (next, expr?)) :
    next.payload = parser.payload := by
  cases h ▸ parser.stepsTo_step token with
  | opened | quoted => rfl
  | completed _ hresult =>
      obtain rfl := congrArg Prod.fst hresult
      exact payload_deliver _ _

theorem quotePending_of_opened {bracket : Bracket} {quoted : Bool}
    (h : parser.opened bracket quoted = .ok (next, expr?)) : next.quotePending = false := by
  unfold opened at h
  split at h <;> cases h
  rfl

theorem quotePending_of_closed {bracket : Bracket}
    (h : parser.closed bracket token = .ok (next, expr?)) : next.quotePending = false := by
  unfold closed at h
  split at h
  · cases h
  · split at h
    · obtain rfl := congrArg Prod.fst (Except.ok.inj h)
      exact quotePending_deliver _ _
    · cases h

/-- Behind a token a quote is pending exactly if the token is one. -/
theorem quotePending_of_step (h : parser.step token = .ok (next, expr?)) :
    next.quotePending = true ↔ token = "'" := by
  rw [← tokenKind_eq_quote_iff]
  unfold step at h
  split at h
  · next hkind => simp [hkind, quotePending_of_opened h]
  · cases h
  · next hkind => simp [hkind, quotePending_of_opened h]
  · next hkind => simp [hkind, quotePending_of_closed h]
  · next hkind =>
      cases h
      simp [hkind]
  · next hkind =>
      obtain rfl := congrArg Prod.fst (Except.ok.inj h)
      simp [hkind, quotePending_deliver, advance]

/-- What the parser says of a token it does not take, and where it stays: on the token if there is
no room for it or if it stands behind a quote, else behind it. -/
inductive Refuses (parser : Parser) (token : String) : ParseFailure → Prop
  | tooDeep : Refuses parser token ⟨.tooDeep, parser.position⟩
  | unexpected : Refuses parser token
      ⟨.error (.unexpectedToken token), parser.position + if parser.quotePending then 0 else 1⟩

theorem refuses_of_opened {bracket : Bracket} {quoted : Bool}
    (h : parser.opened bracket quoted = .error failure) : parser.Refuses token failure := by
  unfold opened at h
  split at h <;> cases h
  exact .tooDeep

theorem refuses_of_step (h : parser.step token = .error failure) :
    parser.Refuses token failure := by
  have hunexpected {place : Nat}
      (hplace : place = parser.position + if parser.quotePending then 0 else 1) :
      parser.Refuses token ⟨.error (.unexpectedToken token), place⟩ := hplace ▸ .unexpected
  unfold step at h
  split at h
  · exact refuses_of_opened h
  · next hquote _ =>
      cases h
      exact hunexpected (by rw [hquote, if_pos rfl]; rfl)
  · exact refuses_of_opened h
  · next hquote _ =>
      have hbehind :
          parser.position + 1 = parser.position + if parser.quotePending then 0 else 1 := by
        rw [hquote]
        rfl
      unfold closed at h
      split at h
      · cases h
        exact hunexpected hbehind
      · split at h
        · cases h
        · cases h
          exact hunexpected hbehind
  · cases h
  · cases h

theorem Advances.position_eq (h : parser.Advances tokens last) :
    last.position = parser.position + tokens.length := by
  induction h with
  | refl => rfl
  | step hstep _ ih =>
      rw [ih, position_of_step hstep, List.length_cons]
      omega

/-- The last token taken decides whether a quote is pending. -/
theorem Advances.quotePending_iff (h : parser.Advances tokens last) :
    last.quotePending = true ↔
      tokens.getLast?.elim (parser.quotePending = true) (· = "'") := by
  induction h with
  | refl => rfl
  | @step _ _ _ _ tokens hstep _ ih =>
      rw [ih, List.getLast?_cons]
      cases tokens.getLast? with
      | none => exact quotePending_of_step hstep
      | some => rfl

theorem Advances.quotePending_iff_getLast? (h : parser.Advances tokens last)
    (hquote : parser.quotePending = false) :
    last.quotePending = true ↔ tokens.getLast? = some "'" := by
  rw [h.quotePending_iff, hquote]
  cases tokens.getLast? <;> simp

/-- The parser stops short of an expression: it takes all tokens and misses one, or it refuses one
behind those it has taken. -/
inductive Stops (parser : Parser) : List String → ParseFailure → Prop
  | short {tokens : List String} {last : Parser} (htaken : parser.Advances tokens last) :
      Stops parser tokens
        ⟨.error (if last.idle then .emptyInput else .missingToken), last.position⟩
  | refused {before behind : List String} {token : String} {last : Parser}
      {failure : ParseFailure} (htaken : parser.Advances before last)
      (hrefuses : last.Refuses token failure) :
      Stops parser (before ++ token :: behind) failure

theorem stops_of_parse (h : parser.parse tokens = .error failure) :
    parser.Stops tokens failure := by
  induction tokens generalizing parser with
  | nil =>
      cases h
      exact .short .refl
  | cons token rest ih =>
      rw [parse] at h
      split at h
      · next failure' hstep =>
          cases h
          exact @Stops.refused _ [] rest token _ _ .refl (refuses_of_step hstep)
      · next next hstep =>
          cases ih h with
          | short htaken => exact .short (.step hstep htaken)
          | refused htaken hrefuses => exact .refused (.step hstep htaken) hrefuses
      · cases h

theorem Refuses.position_le {token : String} (h : parser.Refuses token failure) :
    parser.position ≤ failure.position ∧ failure.position ≤ parser.position + 1 := by
  cases h with
  | tooDeep => exact ⟨Nat.le_refl _, Nat.le_succ _⟩
  | unexpected => cases parser.quotePending <;> simp

theorem Stops.position_le (h : parser.Stops tokens failure) :
    parser.position ≤ failure.position ∧
      failure.position ≤ parser.position + tokens.length := by
  cases h with
  | short htaken =>
      rw [htaken.position_eq]
      exact ⟨Nat.le_add_right _ _, Nat.le_refl _⟩
  | @refused before behind token last _ htaken hrefuses =>
      have hplace := hrefuses.position_le
      rw [htaken.position_eq] at hplace
      rw [List.length_append, List.length_cons]
      omega

/-- Unless the nesting is too deep, something is missing behind all tokens, or one of them is out of
place and has been gone past, unless a quote stands in front of it. -/
theorem Stops.place (h : parser.Stops tokens failure) (hquote : parser.quotePending = false) :
    failure.fault = .tooDeep ∨
      ((failure.fault = .error .emptyInput ∨ failure.fault = .error .missingToken) ∧
        failure.position = parser.position + tokens.length) ∨
      ∃ before token behind, failure.fault = .error (.unexpectedToken token) ∧
        tokens = before ++ token :: behind ∧
        failure.position =
          parser.position + before.length + if before.getLast? = some "'" then 0 else 1 := by
  cases h with
  | @short _ last htaken =>
      refine .inr (.inl ⟨?_, htaken.position_eq⟩)
      cases last.idle with
      | true => exact .inl rfl
      | false => exact .inr rfl
  | @refused before behind token last _ htaken hrefuses =>
      cases hrefuses with
      | tooDeep => exact .inl rfl
      | unexpected =>
          refine .inr (.inr ⟨before, token, behind, rfl, rfl, ?_⟩)
          simp only [htaken.position_eq, htaken.quotePending_iff_getLast? hquote]

/-- Where reading all expressions stops, reading one of them does. -/
theorem position_le_of_parseAll (hidle : parser.idle = true)
    (h : parser.parseAll tokens = .error failure) :
    parser.position ≤ failure.position ∧
      failure.position ≤ parser.position + tokens.length := by
  obtain ⟨before, rest, exprs, rfl, -, -, -, hfails⟩ := exists_failing_form hidle h
  have hplace := (stops_of_parse hfails).position_le
  simp only [moved] at hplace
  rw [List.length_append]
  omega

/-- The parser with so many more tokens in front. The payload is the one in which the marks of
numbers stay what they are. -/
def shifted (parser : Parser) (payload count : Nat) : Parser :=
  { parser with payload := payload, position := count + parser.position }

end Parser

def ParseFailure.shifted (failure : ParseFailure) (count : Nat) : ParseFailure :=
  { failure with position := count + failure.position }

def Parsed.shifted (parsed : Parsed) (count : Nat) : Parsed :=
  { parsed with position := count + parsed.position }

namespace Parser

variable {parser : Parser} {payload count : Nat}

/-- What comes of one token, with so many more tokens in front. -/
def shiftedStep (payload count : Nat) (result : Except ParseFailure (Parser × Option Value)) :
    Except ParseFailure (Parser × Option Value) :=
  (result.map fun next => (next.1.shifted payload count, next.2)).mapError (·.shifted count)

theorem deliver_shifted (parser : Parser) (expr : Value) :
    (parser.shifted payload count).deliver expr =
      ((parser.deliver expr).1.shifted payload count, (parser.deliver expr).2) := by
  obtain ⟨_, _, _, _, forms⟩ := parser
  cases forms <;> rfl

theorem opened_shifted (bracket : Bracket) (quoted : Bool) :
    (parser.shifted payload count).opened bracket quoted =
      shiftedStep payload count (parser.opened bracket quoted) := by
  have hforms : (parser.shifted payload count).forms = parser.forms := rfl
  have hlimit : (parser.shifted payload count).limit = parser.limit := rfl
  rw [opened, opened, hforms, hlimit]
  split <;> rfl

theorem closed_shifted (bracket : Bracket) (token : String) :
    (parser.shifted payload count).closed bracket token =
      shiftedStep payload count (parser.closed bracket token) := by
  have hforms : (parser.shifted payload count).forms = parser.forms := rfl
  rw [closed, closed, hforms]
  cases parser.forms with
  | nil => rfl
  | cons form outer =>
      dsimp only
      split
      · exact congrArg Except.ok
          (deliver_shifted { parser.advance with forms := outer } form.close)
      · rfl

theorem step_shifted (hpayload : parser.payload = payload + count) (token : String) :
    (parser.shifted payload count).step token = shiftedStep payload count (parser.step token) := by
  have hquote : (parser.shifted payload count).quotePending = parser.quotePending := rfl
  have hmark : (parser.shifted payload count).payload + (parser.shifted payload count).position =
      parser.payload + parser.position := by
    rw [hpayload, Nat.add_assoc]
    rfl
  unfold step
  rw [hquote, hmark]
  generalize parser.quotePending = pending
  generalize tokenKind token = kind
  match pending, kind with
  | true, .opening .round => exact opened_shifted .round true
  | true, .opening .curly | true, .closing _ | true, .quote | true, .atom => rfl
  | false, .opening bracket => exact opened_shifted bracket false
  | false, .closing bracket => exact closed_shifted bracket token
  | false, .quote => rfl
  | false, .atom => exact congrArg Except.ok (deliver_shifted parser.advance _)

/-- More tokens in front only count. -/
theorem parse_shifted (hpayload : parser.payload = payload + count) (tokens : List String) :
    (parser.shifted payload count).parse tokens =
      ((parser.parse tokens).map (·.shifted count)).mapError (·.shifted count) := by
  induction tokens generalizing parser with
  | nil => rfl
  | cons token rest ih =>
      rw [parse, parse, step_shifted hpayload]
      cases hstep : parser.step token with
      | error failure => rfl
      | ok result =>
          obtain ⟨next, _ | expr⟩ := result
          · exact ih ((payload_of_step hstep).trans hpayload)
          · rfl

end Parser

/-- As many levels as there are tokens are enough for one expression as well. -/
theorem parse_fault_ne_tooDeep {limit payload : Nat} {tokens : List String}
    {failure : ParseFailure} (hroom : tokens.length ≤ limit)
    (h : parse limit payload tokens = .error failure) : failure.fault ≠ .tooDeep := by
  intro hdeep
  have hne : tokens ≠ [] := by
    rintro rfl
    cases h
    cases hdeep
  have hall := Parser.parseAll_of_parse_error h fun _ => hne
  obtain ⟨fault, position⟩ := failure
  obtain rfl := hdeep
  exact parseAll_ne_tooDeep hroom position hall

end SetLisp
