import Mathlib.Tactic.SplitIfs
import SetLisp.Proofs.Reading.Grammar

/-!
# What the parser has read

The parser holds what it has read in open forms. At every moment the tokens read so far are those of
the open forms, each with its brackets and with items the grammar derives; so what a closing bracket
hands over is derived as well.
-/

namespace SetLisp

def openingTokens : Bracket → Bool → List String
  | .round, false => ["("]
  | .round, true => ["'", "("]
  | .curly, _ => ["\x7b"]

def closingToken : Bracket → String
  | .round => ")"
  | .curly => "\x7d"

theorem derives_close {start : Nat} {tokens : List String} (form : OpenForm)
    (hitems : DerivesEach (start + (openingTokens form.bracket form.quoted).length) tokens
      form.items.reverse) :
    Derives start
      (openingTokens form.bracket form.quoted ++ (tokens ++ [closingToken form.bracket]))
      form.close := by
  obtain ⟨bracket, quoted, items⟩ := form
  match bracket, quoted with
  | .round, false => exact .round hitems
  | .round, true => exact .quoted hitems
  | .curly, false => exact .curly hitems
  | .curly, true => exact .curly hitems

theorem nesting_close (form : OpenForm) :
    form.close.nesting = Value.nestingOfItems form.items.reverse + 1 := by
  obtain ⟨bracket, quoted, items⟩ := form
  match bracket, quoted with
  | .round, false => rfl
  | .round, true => exact congrArg (· + 1) (Value.nestingOfItems_symbol_cons "list" items.reverse)
  | .curly, false => exact congrArg (· + 1) (Value.nestingOfItems_symbol_cons "set" items.reverse)
  | .curly, true => exact congrArg (· + 1) (Value.nestingOfItems_symbol_cons "set" items.reverse)

/-- Which tokens are of a kind. -/
def TokenKind.Spells : TokenKind → String → Prop
  | .opening bracket, token => openingTokens bracket false = [token]
  | .closing bracket, token => token = closingToken bracket
  | .quote, token => token = "'"
  | .atom, token => token ∉ reservedTokens

theorem spells_tokenKind (token : String) : (tokenKind token).Spells token := by
  unfold tokenKind
  split_ifs <;> simp_all [TokenKind.Spells, openingTokens, closingToken, reservedTokens]

theorem tokenKind_eq_atom {token : String} (htoken : token ∉ reservedTokens) :
    tokenKind token = .atom := by
  simp only [reservedTokens, List.mem_cons, List.not_mem_nil, or_false, not_or] at htoken
  simp [tokenKind, htoken]

theorem tokenKind_closingToken (bracket : Bracket) :
    tokenKind (closingToken bracket) = .closing bracket := by
  cases bracket <;> decide

namespace Parser

/-- The tokens that the open forms, innermost first, are made of. Each item of a form nests no
deeper than the limit leaves room for. -/
inductive Holds (limit start : Nat) : List OpenForm → List String → Prop
  | none : Holds limit start [] []
  | form {outer : List OpenForm} {before tokens : List String} (form : OpenForm)
      (houter : Holds limit start outer before) (hroom : outer.length < limit)
      (hitems : DerivesEach
        (start + (before ++ openingTokens form.bracket form.quoted).length) tokens
        form.items.reverse)
      (hnesting : ∀ item ∈ form.items, item.nesting + (outer.length + 1) ≤ limit) :
      Holds limit start (form :: outer)
        (before ++ openingTokens form.bracket form.quoted ++ tokens)

theorem Holds.length_le {limit start : Nat} {forms : List OpenForm} {tokens : List String}
    (h : Holds limit start forms tokens) : forms.length ≤ limit := by
  cases h with
  | none => exact Nat.zero_le limit
  | form _ _ hroom => exact hroom

/-- The parser has read the tokens, of which the first stands at place `start`, since it was last
between expressions. -/
structure HasRead (limit payload start : Nat) (tokens : List String) (parser : Parser) : Prop where
  limit_eq : parser.limit = limit
  payload_eq : parser.payload = payload
  place_eq : payload + parser.position = start + tokens.length
  holds : ∃ before, tokens = before ++ (if parser.quotePending then ["'"] else []) ∧
    Holds limit start parser.forms before

/-- What a parser and an expression it hands over, if any, say about the tokens read. -/
def Continues (limit payload start : Nat) (tokens : List String) : Parser × Option Value → Prop
  | (next, none) => HasRead limit payload start tokens next
  | (next, some expr) =>
      HasRead limit payload (start + tokens.length) [] next ∧ Derives start tokens expr ∧
        expr.nesting ≤ limit

variable {limit payload start : Nat} {parser next : Parser}

theorem idle_iff : parser.idle = true ↔ parser.forms = [] ∧ parser.quotePending = false := by
  simp [idle]

theorem hasRead_nil (hlimit : parser.limit = limit) (hpayload : parser.payload = payload)
    (hplace : payload + parser.position = start) (hidle : parser.idle = true) :
    HasRead limit payload start [] parser := by
  obtain ⟨hforms, hquote⟩ := idle_iff.mp hidle
  refine ⟨hlimit, hpayload, hplace, [], by simp [hquote], ?_⟩
  rw [hforms]
  exact .none

/-- An expression handed over completes the tokens it is derived from. -/
theorem continues_deliver (parser : Parser) {before tokens : List String} {expr : Value}
    (hlimit : parser.limit = limit) (hpayload : parser.payload = payload)
    (hquote : parser.quotePending = false)
    (hplace : payload + parser.position = start + (before ++ tokens).length)
    (hholds : Holds limit start parser.forms before)
    (hexpr : Derives (start + before.length) tokens expr)
    (hnesting : expr.nesting + parser.forms.length ≤ limit) :
    Continues limit payload start (before ++ tokens) (parser.deliver expr) := by
  obtain ⟨_, _, position, _, forms⟩ := parser
  obtain rfl := hlimit
  obtain rfl := hpayload
  obtain rfl := hquote
  cases hholds with
  | none => exact ⟨⟨rfl, rfl, hplace, [], rfl, .none⟩, hexpr, hnesting⟩
  | @form outer before inner form houter hroom hitems hitemsNesting =>
      refine ⟨rfl, rfl, hplace, _, (List.append_nil _).symm, ?_⟩
      rw [List.append_assoc]
      refine .form { form with items := expr :: form.items } houter hroom ?_ ?_
      · rw [List.reverse_cons]
        refine hitems.snoc ?_
        rwa [Nat.add_assoc, ← List.length_append]
      · rintro item (_ | ⟨_, hitem⟩)
        · exact hnesting
        · exact hitemsNesting item hitem

/-- An opened form is made of its opening tokens. -/
theorem continues_opened {before : List String} (bracket : Bracket) (quoted : Bool)
    {result : Parser × Option Value} (hlimit : parser.limit = limit)
    (hpayload : parser.payload = payload)
    (hplace : payload + (parser.position + 1) =
      start + (before ++ openingTokens bracket quoted).length)
    (hholds : Holds limit start parser.forms before)
    (h : parser.opened bracket quoted = .ok result) :
    Continues limit payload start (before ++ openingTokens bracket quoted) result := by
  unfold opened at h
  split_ifs at h with hdeep
  · cases h
  · cases h
    have hroom : parser.forms.length < limit := by omega
    refine ⟨hlimit, hpayload, hplace, _, (List.append_nil _).symm, ?_⟩
    have hform := Holds.form { bracket := bracket, quoted := quoted, items := [] }
      hholds hroom .nil (by simp)
    rwa [List.append_nil] at hform

/-- A closed form is derived from its tokens. -/
theorem continues_closed {tokens : List String} {bracket : Bracket} {token : String}
    {result : Parser × Option Value} (h : HasRead limit payload start tokens parser)
    (hquote : parser.quotePending = false) (hclosed : parser.closed bracket token = .ok result) :
    Continues limit payload start (tokens ++ [closingToken bracket]) result := by
  obtain ⟨hlimit, hpayload, hplace, before, rfl, hholds⟩ := h
  simp only [hquote, Bool.false_eq_true, if_false, List.append_nil] at hplace ⊢
  generalize hforms : parser.forms = forms at hholds
  cases hholds with
  | none => simp [closed, hforms, fail] at hclosed
  | @form outer before inner form houter hroom hitems hnesting =>
      simp only [closed, hforms] at hclosed
      split_ifs at hclosed with hbracket
      · cases hclosed
        have hclose := derives_close form (by rwa [List.length_append, ← Nat.add_assoc] at hitems)
        have hitemsNesting :
            Value.nestingOfItems form.items.reverse ≤ limit - (outer.length + 1) := by
          refine Value.nestingOfItems_le_iff.mpr fun item hitem => ?_
          have := hnesting item (List.mem_reverse.mp hitem)
          omega
        have hdelivered := continues_deliver { parser.advance with forms := outer } hlimit hpayload
          rfl ?_ houter hclose ?_
        · simpa [hbracket] using hdelivered
        · simp only [advance, List.length_append, List.length_cons, List.length_nil] at hplace ⊢
          omega
        · rw [nesting_close]
          change _ + outer.length ≤ limit
          omega
      · cases hclosed

/-- One token more. -/
theorem HasRead.step {tokens : List String} {token : String} {result : Parser × Option Value}
    (h : HasRead limit payload start tokens parser) (hstep : parser.step token = .ok result) :
    Continues limit payload start (tokens ++ [token]) result := by
  have hspells := spells_tokenKind token
  unfold Parser.step at hstep
  generalize tokenKind token = kind at hspells hstep
  obtain ⟨hlimit, hpayload, hplace, before, rfl, hholds⟩ := id h
  split at hstep
  · next hquote =>
      obtain rfl : token = "(" := by simpa [TokenKind.Spells, openingTokens] using hspells.symm
      simp only [hquote, if_true, List.append_assoc] at hplace ⊢
      refine continues_opened .round true hlimit hpayload ?_ hholds hstep
      simp only [openingTokens, List.length_append, List.length_cons, List.length_nil] at hplace ⊢
      omega
  · cases hstep
  · next bracket hquote =>
      simp only [hquote, List.append_nil, Bool.false_eq_true, if_false] at hplace ⊢
      rw [← show openingTokens bracket false = [token] from hspells]
      refine continues_opened bracket false hlimit hpayload ?_ hholds hstep
      rw [show openingTokens bracket false = [token] from hspells, List.length_append,
        List.length_singleton]
      omega
  · next bracket hquote =>
      rw [show token = closingToken bracket from hspells] at hstep ⊢
      exact continues_closed h hquote hstep
  · next hquote =>
      cases hstep
      obtain rfl : token = "'" := hspells
      simp only [hquote, List.append_nil, Bool.false_eq_true, if_false] at hplace ⊢
      refine ⟨hlimit, hpayload, ?_, before, rfl, hholds⟩
      simp only [advance, List.length_append, List.length_singleton]
      omega
  · next hquote =>
      cases hstep
      simp only [hquote, List.append_nil, Bool.false_eq_true, if_false] at hplace ⊢
      refine continues_deliver parser.advance hlimit hpayload rfl ?_ hholds ?_ ?_
      · simp only [advance, List.length_append, List.length_singleton]
        omega
      · rw [hpayload, hplace]
        exact .atom hspells
      · rw [Value.nesting_atomOfToken]
        exact Nat.zero_add _ ▸ hholds.length_le

theorem exists_derives_of_parse {done rest : List String} {parsed : Parsed}
    (h : HasRead limit payload start done parser) (hparse : parser.parse rest = .ok parsed) :
    ∃ more, rest = more ++ parsed.rest ∧ Derives start (done ++ more) parsed.expr ∧
      parsed.expr.nesting ≤ limit ∧ payload + parsed.position = start + (done ++ more).length := by
  induction rest generalizing parser done with
  | nil => cases hparse
  | cons token rest ih =>
      rw [parse] at hparse
      split at hparse
      · cases hparse
      · next next hstep =>
          obtain ⟨more, hrest, hmore⟩ := ih (h.step hstep) hparse
          refine ⟨token :: more, by rw [hrest]; rfl, ?_⟩
          rwa [List.append_assoc] at hmore
      · next next expr hstep =>
          cases hparse
          obtain ⟨hnext, hexpr, hnesting⟩ := h.step hstep
          exact ⟨[token], rfl, hexpr, hnesting, hnext.place_eq⟩

theorem derivesEach_of_parseAll {done rest : List String} {exprs : List Value}
    (h : HasRead limit payload start done parser) (hparse : parser.parseAll rest = .ok exprs) :
    DerivesEach start (done ++ rest) exprs ∧ ∀ expr ∈ exprs, expr.nesting ≤ limit := by
  induction rest generalizing parser start done exprs with
  | nil =>
      rw [parseAll] at hparse
      split_ifs at hparse with hidle
      · cases hparse
        obtain ⟨hforms, hquote⟩ := idle_iff.mp hidle
        obtain ⟨before, rfl, hholds⟩ := h.holds
        rw [hforms] at hholds
        cases hholds
        simp [hquote, DerivesEach.nil]
      · cases hparse
  | cons token rest ih =>
      rw [parseAll] at hparse
      split at hparse
      · cases hparse
      · next next hstep =>
          have hrest := ih (h.step hstep) hparse
          rwa [List.append_assoc] at hrest
      · next next expr hstep =>
          obtain ⟨hnext, hexpr, hnesting⟩ := h.step hstep
          cases hrest : next.parseAll rest with
          | error failure => simp [hrest, Except.map] at hparse
          | ok others =>
              obtain ⟨hothers, hothersNesting⟩ := ih hnext hrest
              simp only [hrest, Except.map, Except.ok.injEq] at hparse
              subst hparse
              refine ⟨?_, ?_⟩
              · simpa using DerivesEach.cons hexpr hothers
              · rintro other (_ | ⟨_, hother⟩)
                · exact hnesting
                · exact hothersNesting other hother

end Parser

end SetLisp
