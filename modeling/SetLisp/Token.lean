import SetLisp.Error
import SetLisp.Text.Blank

namespace SetLisp

def isBracket (c : Char) : Bool :=
  c == '(' || c == ')' || c == '\x7b' || c == '\x7d'

namespace Token

/-- The token a run of characters makes, if there is one. -/
def ofRun (run : List Char) : List (List Char) :=
  if run.isEmpty then [] else [run.reverse]

/-- Scans the text; the first argument holds the open run, last character first. -/
def scanFrom : List Char → List Char → List (List Char)
  | run, [] => ofRun run
  | run, c :: rest =>
      if isBracket c then ofRun run ++ [c] :: scanFrom [] rest
      else if Text.isBlank c then ofRun run ++ scanFrom [] rest
      else scanFrom (c :: run) rest

def scan (text : List Char) : List (List Char) :=
  scanFrom [] text

end Token

/-- Each bracket is a token, and every other token is a longest run of characters that are neither
blank nor a bracket. A quote is a token only where it stands by itself. -/
def tokenize (text : String) : List String :=
  (Token.scan text.toList).map String.ofList

inductive TokenKind where
  | opening (bracket : Bracket)
  | closing (bracket : Bracket)
  | quote
  | atom
deriving DecidableEq, Repr

def tokenKind (token : String) : TokenKind :=
  if token = "(" then .opening .round
  else if token = "\x7b" then .opening .curly
  else if token = ")" then .closing .round
  else if token = "\x7d" then .closing .curly
  else if token = "'" then .quote
  else .atom

end SetLisp
