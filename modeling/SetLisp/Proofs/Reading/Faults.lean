import SetLisp.Proofs.Reading.Parsing
import SetLisp.Proofs.Reading.Room

/-!
# Where parsing fails

Tokens the parser does not accept either can be continued to tokens it accepts, or stop being so
at one of them. The parser tells these apart: it misses a token exactly in the first case, and in
the second it rejects the very token with which all hope is lost.

Whatever the parser has taken without a fault can be continued, because the forms that are open can
be closed. Whatever it rejects cannot, because it never looks behind the token it rejects.
-/

namespace SetLisp

namespace Parser

variable {parser next last : Parser} {tokens : List String} {exprs : List Value}

/-- The parser takes the tokens, handing over the expressions. -/
inductive Reads : Parser → List String → List Value → Parser → Prop
  | nil {parser : Parser} : Reads parser [] [] parser
  | cons {parser next last : Parser} {token : String} {tokens : List String}
      {expr? : Option Value} {exprs : List Value}
      (hstep : parser.step token = .ok (next, expr?)) (hrest : Reads next tokens exprs last) :
      Reads parser (token :: tokens) (expr?.toList ++ exprs) last

theorem parseAll_cons_of_ok {token : String} {expr? : Option Value}
    (hstep : parser.step token = .ok (next, expr?)) (rest : List String) :
    parser.parseAll (token :: rest) = (next.parseAll rest).map (expr?.toList ++ ·) := by
  rw [parseAll, hstep]
  cases expr? with
  | none => exact (congrFun Except.map_id _).symm
  | some expr => rfl

theorem Reads.parseAll_append (h : parser.Reads tokens exprs last) (rest : List String) :
    parser.parseAll (tokens ++ rest) = (last.parseAll rest).map (exprs ++ ·) := by
  induction h with
  | nil => exact (congrFun Except.map_id _).symm
  | cons hstep _ ih =>
      rw [List.cons_append, parseAll_cons_of_ok hstep, ih]
      cases parseAll _ rest with
      | error failure => rfl
      | ok others => exact congrArg Except.ok (List.append_assoc _ _ others).symm

theorem Reads.withLimit (h : parser.Reads tokens exprs last) {limit : Nat}
    (hle : parser.limit ≤ limit) :
    (parser.withLimit limit).Reads tokens exprs (last.withLimit limit) := by
  induction h with
  | nil => exact .nil
  | cons hstep _ ih =>
      refine .cons ?_ (ih (step_limit hstep ▸ hle))
      rw [step_withLimit hle (fun position => by rw [hstep]; nofun), hstep]
      rfl

/-- The parser takes all tokens, or all in front of one with which it fails. -/
theorem reads_or_fails (parser : Parser) (tokens : List String) :
    (∃ exprs last, parser.Reads tokens exprs last) ∨
      ∃ before token behind exprs last failure, tokens = before ++ token :: behind ∧
        parser.Reads before exprs last ∧ last.step token = .error failure := by
  induction tokens generalizing parser with
  | nil => exact .inl ⟨[], parser, .nil⟩
  | cons token rest ih =>
      cases hstep : parser.step token with
      | error failure =>
          exact .inr ⟨[], token, rest, [], parser, failure, rfl, .nil, hstep⟩
      | ok result =>
          obtain ⟨next, expr?⟩ := result
          rcases ih next with ⟨exprs, last, hreads⟩ |
            ⟨before, token', behind, exprs, last, failure, rfl, hreads, hfails⟩
          · exact .inl ⟨_, last, .cons hstep hreads⟩
          · exact .inr ⟨token :: before, token', behind, _, last, failure, rfl,
              .cons hstep hreads, hfails⟩

/-- A token with which the parser fails is the end of it, whatever stands behind. -/
theorem Reads.parseAll_of_fails {token : String} {failure : ParseFailure}
    (h : parser.Reads tokens exprs last) (hfails : last.step token = .error failure)
    (behind : List String) : parser.parseAll (tokens ++ token :: behind) = .error failure := by
  rw [h.parseAll_append, parseAll, hfails]
  rfl

/-- The closing tokens of the open forms, innermost first, end all of them. -/
theorem exists_parseAll_closers (brackets : List Bracket) {parser : Parser}
    (hforms : parser.forms.map OpenForm.bracket = brackets)
    (hquote : parser.quotePending = false) :
    ∃ exprs, parser.parseAll (brackets.map closingToken) = .ok exprs := by
  induction brackets generalizing parser with
  | nil =>
      have hidle : parser.idle = true := idle_iff.mpr ⟨List.map_eq_nil_iff.mp hforms, hquote⟩
      exact ⟨[], by rw [List.map_nil, parseAll, if_pos hidle]⟩
  | cons bracket brackets ih =>
      obtain ⟨form, outer, hform, hbracket, houter⟩ := List.map_eq_cons_iff.mp hforms
      have hstep : parser.step (closingToken bracket) =
          .ok (deliver { parser.advance with forms := outer } form.close) := by
        rw [step, hquote, tokenKind_closingToken]
        simp only [closed, hform, hbracket, if_true]
      generalize hdeliver : deliver { parser.advance with forms := outer } form.close = result
        at hstep
      have hnext : ∃ exprs, result.1.parseAll (brackets.map closingToken) = .ok exprs := by
        subst hdeliver
        refine ih ?_ ?_
        · rw [← houter]
          cases outer <;> rfl
        · cases outer <;> rfl
      obtain ⟨exprs, hexprs⟩ := hnext
      exact ⟨_, (parseAll_cons_of_ok hstep _).trans (congrArg _ hexprs)⟩

/-- A parser with room for one form more can be led to the end of everything it has begun. -/
theorem exists_parseAll (hroom : parser.forms.length < parser.limit) :
    ∃ more exprs, parser.parseAll more = .ok exprs := by
  cases hquote : parser.quotePending with
  | false =>
      obtain ⟨exprs, hexprs⟩ := exists_parseAll_closers _ rfl hquote
      exact ⟨_, exprs, hexprs⟩
  | true =>
      -- Behind a quote nothing but a form can stand.
      have hkind : tokenKind "(" = .opening .round := by decide
      have hstep : parser.step "(" = parser.opened .round true := by
        rw [step, hquote, hkind]
      rw [opened, if_neg (Nat.not_le_of_lt hroom)] at hstep
      obtain ⟨exprs, hexprs⟩ :=
        @exists_parseAll_closers (.round :: parser.forms.map OpenForm.bracket)
          { parser.advance with forms := ⟨.round, true, []⟩ :: parser.forms } rfl rfl
      exact ⟨_, _, (parseAll_cons_of_ok hstep _).trans (congrArg _ hexprs)⟩

/-- At the end of the tokens something may be missing; everything else is the fault of a token. -/
theorem fault_of_parseAll {failure : ParseFailure} (h : parser.parseAll tokens = .error failure) :
    failure.fault = .tooDeep ∨ failure.fault = .error .missingToken ∨
      ∃ token ∈ tokens, failure.fault = .error (.unexpectedToken token) := by
  rcases reads_or_fails parser tokens with ⟨exprs, last, hreads⟩ |
    ⟨before, token, behind, exprs, last, failure', rfl, hreads, hfails⟩
  · rw [← List.append_nil tokens, hreads.parseAll_append, parseAll] at h
    split at h
    · cases h
    · cases h
      exact .inr (.inl rfl)
  · obtain rfl := Except.error.inj ((hreads.parseAll_of_fails hfails behind).symm.trans h)
    exact (fault_of_step hfails).imp id fun hfault => .inr ⟨token, by simp, hfault⟩

/-- Only where there is nothing to read is that what is wrong. -/
theorem eq_nil_of_parse_emptyInput {position : Nat}
    (h : parser.parse tokens = fail (.error .emptyInput) position) :
    tokens = [] ∧ parser.idle = true := by
  induction tokens generalizing parser with
  | nil =>
      rw [parse] at h
      split at h
      · next hidle => exact ⟨rfl, hidle⟩
      · cases h
  | cons token rest ih =>
      rw [parse] at h
      split at h
      · next failure hstep =>
          cases h
          rcases fault_of_step hstep with hfault | hfault <;> cases hfault
      · next next hstep =>
          have hidle := (ih h).2
          rw [idle_of_step hstep] at hidle
          cases hidle
      · cases h

/-- Between forms, where there is something left to read, the parser fails as in the next form. -/
theorem parseAll_of_parse_error {failure : ParseFailure}
    (h : parser.parse tokens = .error failure) (hleft : parser.idle = true → tokens ≠ []) :
    parser.parseAll tokens = .error failure := by
  induction tokens generalizing parser with
  | nil =>
      rw [parse] at h
      rw [parseAll]
      cases hidle : parser.idle with
      | false =>
          rw [hidle, if_neg Bool.false_ne_true] at h
          rw [if_neg Bool.false_ne_true, fail, Except.error.inj h]
      | true => exact absurd rfl (hleft hidle)
  | cons token rest ih =>
      rw [parse] at h
      rw [parseAll]
      split at h
      · rw [Except.error.inj h]
      · next next hstep =>
          have hinside : next.idle = false := idle_of_step hstep
          exact ih h fun hidle => absurd (hinside.symm.trans hidle) Bool.false_ne_true
      · cases h

/-- In front of the fault stand forms without one. -/
theorem exists_failing_form {failure : ParseFailure} (hidle : parser.idle = true)
    (h : parser.parseAll tokens = .error failure) :
    ∃ before rest exprs, tokens = before ++ rest ∧ rest ≠ [] ∧
      DerivesEach (parser.payload + parser.position) before exprs ∧
      (∀ expr ∈ exprs, expr.nesting ≤ parser.limit) ∧
      (parser.moved before.length).parse rest = .error failure := by
  induction hlength : tokens.length using Nat.strongRecOn generalizing parser tokens with
  | ind count ih =>
      have hne : tokens ≠ [] := by
        rintro rfl
        rw [parseAll, if_pos hidle] at h
        cases h
      cases hparse : parser.parse tokens with
      | error failure' =>
          have herror := (parseAll_of_parse_error hparse fun _ => hne).symm.trans h
          obtain rfl := Except.error.inj herror
          exact ⟨[], tokens, [], rfl, hne, .nil, List.forall_mem_nil _, hparse⟩
      | ok parsed =>
          obtain ⟨read, hread, hexpr, hnesting, -⟩ :=
            exists_derives_of_parse (hasRead_nil rfl rfl rfl hidle) hparse
          rw [List.nil_append] at hexpr
          have hfirst := parseAll_append_of_derivesEach (derivesEach_singleton hexpr) hidle rfl
            (List.forall_mem_singleton.mpr hnesting) parsed.rest
          rw [← hread, h] at hfirst
          have hbehind : (parser.moved read.length).parseAll parsed.rest = .error failure := by
            cases hrest : (parser.moved read.length).parseAll parsed.rest with
            | ok => rw [hrest] at hfirst; cases hfirst
            | error => rw [hrest] at hfirst; cases hfirst; rfl
          have hshorter : parsed.rest.length < count := by
            have hsome := List.length_pos_iff.mpr hexpr.ne_nil
            rw [← hlength, hread, List.length_append]
            omega
          obtain ⟨before, rest, exprs, hsplit, hrest, hbefore, hnestings, hfails⟩ :=
            @ih _ hshorter (parser.moved read.length) parsed.rest hidle hbehind rfl
          refine ⟨read ++ before, rest, parsed.expr :: exprs, ?_, hrest, ?_, ?_, ?_⟩
          · rw [hread, hsplit, List.append_assoc]
          · exact .cons hexpr (by rwa [Nat.add_assoc])
          · exact List.forall_mem_cons.mpr ⟨hnesting, hnestings⟩
          · rw [List.length_append, moved, ← Nat.add_assoc]
            exact hfails

end Parser

/-- A form of the tokens is at fault: those in front of it are read, and there the parser fails. -/
def FormFails (limit payload : Nat) (tokens : List String) (fault : ParseFault) : Prop :=
  ∃ before rest exprs position, tokens = before ++ rest ∧ rest ≠ [] ∧
    parseAll limit payload before = .ok exprs ∧
    Parser.parse { limit := limit, payload := payload, position := before.length } rest =
      Parser.fail fault position

/-- The tokens are refused for the fault of a form. -/
theorem formFails_iff {limit payload : Nat} {tokens : List String} {fault : ParseFault} :
    FormFails limit payload tokens fault ↔
      ∃ position, parseAll limit payload tokens = Parser.fail fault position := by
  constructor
  · rintro ⟨before, rest, exprs, position, rfl, hrest, hbefore, hfails⟩
    obtain ⟨hexprs, hnesting⟩ := parseAll_eq_ok_iff.mp hbefore
    have hall := @Parser.parseAll_append_of_derivesEach
      { limit := limit, payload := payload, position := 0 } _ _ _ hexprs rfl rfl hnesting rest
    have hmoved : Parser.moved { limit := limit, payload := payload, position := 0 } before.length =
        { limit := limit, payload := payload, position := before.length } := by
      rw [Parser.moved, Nat.zero_add]
    rw [hmoved, Parser.parseAll_of_parse_error hfails fun _ => hrest] at hall
    exact ⟨position, hall⟩
  · rintro ⟨position, hparse⟩
    obtain ⟨before, rest, exprs, rfl, hrest, hexprs, hnesting, hfails⟩ :=
      Parser.exists_failing_form rfl hparse
    rw [Parser.moved, Nat.zero_add] at hfails
    exact ⟨before, rest, exprs, position, rfl, hrest,
      parseAll_eq_ok_iff.mpr ⟨hexprs, hnesting⟩, hfails⟩

/-! ### Tokens that can be continued -/

/-- The parser takes the tokens if only it has room enough. -/
def Accepted (tokens : List String) : Prop :=
  ∃ limit payload exprs, parseAll limit payload tokens = .ok exprs

/-- Some tokens behind make them tokens that the parser accepts. -/
def Extensible (tokens : List String) : Prop :=
  ∃ more, Accepted (tokens ++ more)

variable {limit payload : Nat} {tokens : List String}

/-- With a level for each token it does not matter how much room there is. -/
theorem accepted_iff (payload : Nat) (hroom : tokens.length ≤ limit) :
    Accepted tokens ↔ ∃ exprs, parseAll limit payload tokens = .ok exprs := by
  constructor
  · rintro ⟨limit', payload', exprs, hparse⟩
    obtain ⟨hexprs, -⟩ := parseAll_eq_ok_iff.mp hparse
    obtain ⟨exprs', hexprs', -⟩ := hexprs.restart payload
    -- The nesting found may need more room, but more room changes nothing.
    have hmore : parseAll (max limit (Value.nestingOfItems exprs')) payload tokens = .ok exprs' :=
      parseAll_eq_ok_iff.mpr
        ⟨hexprs', Value.nestingOfItems_le_iff.mp (Nat.le_max_right _ _)⟩
    rw [parseAll_of_le (Nat.le_max_left _ _) (parseAll_ne_tooDeep hroom)] at hmore
    exact ⟨exprs', hmore⟩
  · rintro ⟨exprs, hparse⟩
    exact ⟨limit, payload, exprs, hparse⟩

/-- A fault that is no lack of room remains one however much room there is. -/
theorem not_accepted_of_parseAll {failure : ParseFailure}
    (h : parseAll limit payload tokens = .error failure) (hfault : failure.fault ≠ .tooDeep) :
    ¬ Accepted tokens := by
  intro haccepted
  obtain ⟨exprs, hparse⟩ :=
    (accepted_iff payload (Nat.le_max_right limit tokens.length)).mp haccepted
  rw [parseAll_of_le (Nat.le_max_left _ _), h] at hparse
  · cases hparse
  · intro position hdeep
    obtain rfl := Except.error.inj (h.symm.trans hdeep)
    exact hfault rfl

theorem Extensible.of_append {more : List String} (h : Extensible (tokens ++ more)) :
    Extensible tokens := by
  obtain ⟨rest, haccepted⟩ := h
  exact ⟨more ++ rest, List.append_assoc tokens more rest ▸ haccepted⟩

theorem Extensible.take (h : Extensible tokens) (count : Nat) :
    Extensible (tokens.take count) := by
  rw [← List.take_append_drop count tokens] at h
  exact h.of_append

variable {last : Parser} {exprs : List Value}
  (h : Parser.Reads { limit := limit, payload := payload, position := 0 } tokens exprs last)

include h

/-- Tokens that the parser has taken can be continued. -/
theorem Parser.Reads.extensible : Extensible tokens := by
  let room := max limit (last.forms.length + 1)
  obtain ⟨more, others, hmore⟩ :=
    @exists_parseAll (last.withLimit room) (Nat.le_max_right limit (last.forms.length + 1))
  refine ⟨more, room, payload, exprs ++ others, ?_⟩
  exact ((h.withLimit (Nat.le_max_left _ _)).parseAll_append more).trans (congrArg _ hmore)

/-- With the token that the parser rejects all hope is lost. -/
theorem Parser.Reads.not_extensible {token : String} {failure : ParseFailure}
    (hfails : last.step token = .error failure) (hfault : failure.fault ≠ .tooDeep) :
    ¬ Extensible (tokens ++ [token]) := by
  rintro ⟨more, haccepted⟩
  rw [List.append_assoc, List.singleton_append] at haccepted
  exact not_accepted_of_parseAll (h.parseAll_of_fails hfails more) hfault haccepted

omit h

/-- What the parser fails with on tokens it does not accept, unless it runs out of room. -/
theorem parseAll_of_not_accepted (hrejected : ¬ Accepted tokens)
    (hroom : ∀ position, parseAll limit payload tokens ≠ Parser.fail .tooDeep position) :
    (Extensible tokens ∧
        ∃ position, parseAll limit payload tokens = Parser.fail (.error .missingToken) position) ∨
      ∃ before token behind position, tokens = before ++ token :: behind ∧ Extensible before ∧
        ¬ Extensible (before ++ [token]) ∧
        parseAll limit payload tokens =
          Parser.fail (.error (.unexpectedToken token)) position := by
  rcases Parser.reads_or_fails { limit := limit, payload := payload, position := 0 } tokens with
    ⟨exprs, last, hreads⟩ | ⟨before, token, behind, exprs, last, failure, rfl, hreads, hfails⟩
  · have hparse := hreads.parseAll_append []
    rw [List.append_nil, Parser.parseAll] at hparse
    split at hparse
    · exact (hrejected ⟨limit, payload, _, hparse⟩).elim
    · exact .inl ⟨hreads.extensible, last.position, hparse⟩
  · have hparse := hreads.parseAll_of_fails hfails behind
    obtain ⟨fault, position⟩ := failure
    rcases Parser.fault_of_step hfails with rfl | rfl
    · exact (hroom position hparse).elim
    · have hhopeless : ¬ Extensible (before ++ [token]) :=
        hreads.not_extensible hfails (by rintro ⟨⟩)
      exact .inr ⟨before, token, behind, position, rfl, hreads.extensible, hhopeless, hparse⟩

/-- What begins with an opening parenthesis is a list. -/
theorem exists_items_of_parse {parsed : Parsed}
    (hparse : parse limit payload ("(" :: tokens) = .ok parsed) :
    ∃ items, parsed.expr = .list items := by
  obtain ⟨expr, rest, position⟩ := parsed
  obtain ⟨read, htokens, hexpr, -⟩ := parse_eq_ok_iff.mp hparse
  cases hexpr with
  | atom hatom =>
      obtain ⟨rfl, -⟩ := List.cons.inj htokens
      exact (hatom (by decide)).elim
  | round | curly | quoted => exact ⟨_, rfl⟩

theorem parse_emptyInput_iff :
    (∃ position, parse limit payload tokens = Parser.fail (.error .emptyInput) position) ↔
      tokens = [] := by
  constructor
  · rintro ⟨position, hempty⟩
    exact (Parser.eq_nil_of_parse_emptyInput hempty).1
  · rintro rfl
    exact ⟨0, rfl⟩

/-- **Faults tell what can still become right.** Tokens that are not accepted miss a token exactly
if some tokens behind would complete them; otherwise the fault is the first token with which nothing
behind helps any more. There are no other faults but a lack of room. Having nothing to read is one
only where a single expression is wanted, and the expression behind a quote, which begins with an
opening parenthesis, cannot fail to be a list. -/
theorem faults_tell_incomplete_from_wrong (limit payload : Nat) :
    (∀ tokens, ¬ Accepted tokens →
      (∀ position, parseAll limit payload tokens ≠ Parser.fail .tooDeep position) →
      ((∃ position, parseAll limit payload tokens =
          Parser.fail (.error .missingToken) position) ↔ Extensible tokens) ∧
        (¬ Extensible tokens → ∃ i token position, tokens[i]? = some token ∧
          parseAll limit payload tokens =
            Parser.fail (.error (.unexpectedToken token)) position ∧
          ¬ Extensible (tokens.take (i + 1)) ∧
          ∀ j < i, Extensible (tokens.take (j + 1)))) ∧
    (∀ tokens, tokens.length ≤ limit →
      (∀ position, parseAll limit payload tokens ≠ Parser.fail .tooDeep position) ∧
        (Accepted tokens ↔ ∃ exprs, parseAll limit payload tokens = .ok exprs)) ∧
    (∀ tokens failure, parseAll limit payload tokens = .error failure →
      failure.fault = .tooDeep ∨ failure.fault = .error .missingToken ∨
        ∃ token ∈ tokens, failure.fault = .error (.unexpectedToken token)) ∧
    (∀ tokens parsed, parse limit payload ("(" :: tokens) = .ok parsed →
      ∃ items, parsed.expr = .list items) ∧
    (∀ tokens, (∃ position, parse limit payload tokens =
      Parser.fail (.error .emptyInput) position) ↔ tokens = []) := by
  refine ⟨?_, ?_, ?_, ?_, ?_⟩
  · intro tokens hrejected hroom
    rcases parseAll_of_not_accepted hrejected hroom with ⟨hextensible, hmissing⟩ |
      ⟨before, token, behind, position, rfl, hbefore, hhopeless, hparse⟩
    · exact ⟨iff_of_true hmissing hextensible, fun hhopeless => (hhopeless hextensible).elim⟩
    · have hwrong : ¬ Extensible (before ++ token :: behind) := fun hextensible => by
        rw [List.append_cons] at hextensible
        exact hhopeless hextensible.of_append
      refine ⟨iff_of_false ?_ hwrong, fun _ =>
        ⟨before.length, token, position, by simp, hparse, ?_, ?_⟩⟩
      · rintro ⟨position', hmissing⟩
        rw [hparse] at hmissing
        cases hmissing
      · rw [List.take_length_add_append]
        exact hhopeless
      · intro j hj
        rw [List.take_append_of_le_length hj]
        exact hbefore.take (j + 1)
  · exact fun tokens hroom => ⟨parseAll_ne_tooDeep hroom, accepted_iff payload hroom⟩
  · exact fun tokens failure => Parser.fault_of_parseAll
  · exact fun tokens parsed => exists_items_of_parse
  · exact fun tokens => parse_emptyInput_iff

/-- A brace cannot close a parenthesis, so it does not matter that the parenthesis is closed behind
it. What stands in front of the brace can be continued, and so can a quote. -/
theorem faults_tell_incomplete_from_wrong_brace :
    let tokens := ["(", "a", "\x7d", ")"]
    ¬ Accepted tokens ∧ ¬ Extensible tokens ∧
      parseAll 4 0 tokens = Parser.fail (.error (.unexpectedToken "\x7d")) 3 ∧
      ¬ Extensible ["(", "a", "\x7d"] ∧ Extensible ["(", "a"] ∧
      ¬ Accepted ["'"] ∧ Extensible ["'"] := by
  intro tokens
  obtain ⟨htell, hroom, -⟩ := faults_tell_incomplete_from_wrong 4 0
  have hbrace : parseAll 4 0 tokens = Parser.fail (.error (.unexpectedToken "\x7d")) 3 := rfl
  have hrejected : ¬ Accepted tokens := not_accepted_of_parseAll hbrace nofun
  obtain ⟨hmissing, hwrong⟩ := htell tokens hrejected (hroom tokens (by decide)).1
  have hhopeless : ¬ Extensible tokens := fun hextensible => by
    obtain ⟨position, hparse⟩ := hmissing.mpr hextensible
    cases hbrace.symm.trans hparse
  obtain ⟨i, token, position, htoken, hparse, hlost, hbefore⟩ := hwrong hhopeless
  cases hbrace.symm.trans hparse
  have honly : ∀ i < tokens.length, tokens[i]? = some "\x7d" → i = 2 := by decide
  obtain rfl := honly i (List.getElem?_eq_some_iff.mp htoken).1 htoken
  have hquote : parseAll 4 0 ["'"] = Parser.fail (.error .missingToken) 1 := rfl
  have hopen : ¬ Accepted ["'"] := not_accepted_of_parseAll hquote nofun
  exact ⟨hrejected, hhopeless, hbrace, hlost, hbefore 1 (by decide), hopen,
    (htell _ hopen (hroom _ (by decide)).1).1.mp ⟨1, hquote⟩⟩

end SetLisp
