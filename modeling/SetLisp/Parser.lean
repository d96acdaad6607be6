import SetLisp.Double.Numeral
import SetLisp.Token
import SetLisp.Value

/-!
# Parsing

The parser goes over the tokens once. It keeps the forms that are still open, innermost first,
each with the items read so far; a closing bracket turns the innermost one into an item of the
next. A form in braces is a call of `set`, and a quoted form in parentheses a call of `list`.

Nesting is limited: an opening bracket that would exceed the limit stops the parser before any
fault behind it.
-/

namespace SetLisp

/-- The number a token stands for, if it has no underscore; `payload` marks one that is not a
number. -/
def numberOfToken? (payload : Nat) (token : String) : Option Double :=
  if token.toList.contains '_' then none
  else (Numeral.read? token.toList).map (Numeral.value payload)

def atomOfToken (payload : Nat) (token : String) : Value :=
  if token = "true" then .boolean true
  else if token = "false" then .boolean false
  else
    match numberOfToken? payload token with
    | some x => .number x
    | none => .symbol token

/-- A form whose closing bracket has not come yet, with its items so far, last first. -/
structure OpenForm where
  bracket : Bracket
  quoted : Bool
  items : List Value

def OpenForm.close (form : OpenForm) : Value :=
  let items := form.items.reverse
  match form.bracket, form.quoted with
  | .round, false => .list items
  | .round, true => .list (.symbol "list" :: items)
  | .curly, _ => .list (.symbol "set" :: items)

inductive ParseFault where
  | error (error : ParseError)
  | tooDeep
deriving DecidableEq, Repr

/-- A fault and where the cursor is left. -/
structure ParseFailure where
  fault : ParseFault
  position : Nat
deriving DecidableEq, Repr

structure Parser where
  limit : Nat
  /-- added to the place of a token to mark the number it makes when that is not a number -/
  payload : Nat
  position : Nat
  quotePending : Bool := false
  forms : List OpenForm := []

namespace Parser

def fail {α : Type} (fault : ParseFault) (position : Nat) : Except ParseFailure α :=
  .error { fault := fault, position := position }

/-- Hands a finished expression to the innermost open form; outside all forms it is the result. -/
def deliver (parser : Parser) (expr : Value) : Parser × Option Value :=
  match parser.forms with
  | [] => (parser, some expr)
  | form :: outer =>
      ({ parser with forms := { form with items := expr :: form.items } :: outer }, none)

def advance (parser : Parser) : Parser :=
  { parser with position := parser.position + 1, quotePending := false }

def opened (parser : Parser) (bracket : Bracket) (quoted : Bool) :
    Except ParseFailure (Parser × Option Value) :=
  if parser.limit ≤ parser.forms.length then fail .tooDeep parser.position
  else
    .ok ({ parser.advance with
            forms := { bracket := bracket, quoted := quoted, items := [] } :: parser.forms },
      none)

def closed (parser : Parser) (bracket : Bracket) (token : String) :
    Except ParseFailure (Parser × Option Value) :=
  match parser.forms with
  | [] => fail (.error (.unexpectedToken token)) (parser.position + 1)
  | form :: outer =>
      if form.bracket = bracket then
        .ok (deliver { parser.advance with forms := outer } form.close)
      else fail (.error (.unexpectedToken token)) (parser.position + 1)

/-- Takes one token; the second result is the expression it completes outside all forms. -/
def step (parser : Parser) (token : String) : Except ParseFailure (Parser × Option Value) :=
  match parser.quotePending, tokenKind token with
  | true, .opening .round => parser.opened .round true
  | true, _ => fail (.error (.unexpectedToken token)) parser.position
  | false, .opening bracket => parser.opened bracket false
  | false, .closing bracket => parser.closed bracket token
  | false, .quote => .ok ({ parser.advance with quotePending := true }, none)
  | false, .atom =>
      .ok (parser.advance.deliver (atomOfToken (parser.payload + parser.position) token))

/-- Whether the parser stands between expressions. -/
def idle (parser : Parser) : Bool :=
  parser.forms.isEmpty && !parser.quotePending

end Parser

/-- An expression, the tokens behind it and the place of the first of these. -/
structure Parsed where
  expr : Value
  rest : List String
  position : Nat

namespace Parser

/-- Reads on to the end of the first expression. -/
def parse (parser : Parser) : List String → Except ParseFailure Parsed
  | [] => fail (.error (if parser.idle then .emptyInput else .missingToken)) parser.position
  | token :: rest =>
      match parser.step token with
      | .error failure => .error failure
      | .ok (next, none) => parse next rest
      | .ok (next, some expr) => .ok { expr := expr, rest := rest, position := next.position }

/-- Reads every expression up to the last token. -/
def parseAll (parser : Parser) : List String → Except ParseFailure (List Value)
  | [] => if parser.idle then .ok [] else fail (.error .missingToken) parser.position
  | token :: rest =>
      match parser.step token with
      | .error failure => .error failure
      | .ok (next, none) => parseAll next rest
      | .ok (next, some expr) => (parseAll next rest).map (expr :: ·)

end Parser

/-- How deeply forms, calls and values may nest. -/
def defaultLimit : Nat := 1000

def parse (limit payload : Nat) (tokens : List String) : Except ParseFailure Parsed :=
  Parser.parse { limit := limit, payload := payload, position := 0 } tokens

def parseAll (limit payload : Nat) (tokens : List String) : Except ParseFailure (List Value) :=
  Parser.parseAll { limit := limit, payload := payload, position := 0 } tokens

end SetLisp
