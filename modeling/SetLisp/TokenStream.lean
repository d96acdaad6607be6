import SetLisp.Parser

namespace SetLisp

/-- A cursor over tokens that never change. A failed reading leaves it where the fault was found. -/
structure TokenStream where
  tokens : List String
  position : Nat := 0

namespace TokenStream

def remaining (stream : TokenStream) : List String :=
  stream.tokens.drop stream.position

def peek? (stream : TokenStream) : Option String :=
  stream.tokens[stream.position]?

def atEnd (stream : TokenStream) : Bool :=
  stream.tokens.length ≤ stream.position

def moveTo (stream : TokenStream) (position : Nat) : TokenStream :=
  { stream with position := position }

def advance (stream : TokenStream) : Except ParseFailure String × TokenStream :=
  match stream.peek? with
  | some token => (.ok token, stream.moveTo (stream.position + 1))
  | none => (Parser.fail (.error .missingToken) stream.position, stream)

def parser (limit payload : Nat) (stream : TokenStream) : Parser :=
  { limit := limit, payload := payload, position := stream.position }

def parseExpr (limit payload : Nat) (stream : TokenStream) :
    Except ParseFailure Value × TokenStream :=
  match (stream.parser limit payload).parse stream.remaining with
  | .ok parsed => (.ok parsed.expr, stream.moveTo parsed.position)
  | .error failure => (.error failure, stream.moveTo failure.position)

def parseAll (limit payload : Nat) (stream : TokenStream) :
    Except ParseFailure (List Value) × TokenStream :=
  match (stream.parser limit payload).parseAll stream.remaining with
  | .ok exprs => (.ok exprs, stream.moveTo stream.tokens.length)
  | .error failure => (.error failure, stream.moveTo failure.position)

end TokenStream

end SetLisp
