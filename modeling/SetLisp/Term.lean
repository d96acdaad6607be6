import SetLisp.Error
import SetLisp.Text.Blank
import SetLisp.Text.Lines

/-!
# Terms

A source is split into terms before anything in it is parsed: a bracketed form, or a run of other
characters outside all brackets. Brackets are only counted here, whatever their kinds. A quote
that stands alone belongs to the term after it.
-/

namespace SetLisp

def openerOf? (c : Char) : Option Bracket :=
  if c = '(' then some .round else if c = '\x7b' then some .curly else none

def closerOf? (c : Char) : Option Bracket :=
  if c = ')' then some .round else if c = '\x7d' then some .curly else none

/-- The finished terms and the characters of the open term, both last first, and the brackets
open in it, innermost first. -/
structure TermReader where
  terms : List String := []
  term : List Char := []
  opened : List Bracket := []

namespace TermReader

/-- Whether the open term is a quote and nothing else. -/
def quotePending (reader : TermReader) : Bool :=
  reader.term == ['\x27']

def flush (reader : TermReader) : TermReader :=
  match Text.trimmed reader.term.reverse with
  | [] => { reader with term := [] }
  | term => { reader with terms := String.ofList term :: reader.terms, term := [] }

def add (reader : TermReader) (c : Char) : TermReader :=
  { reader with term := c :: reader.term }

def readChar (reader : TermReader) (c : Char) : Except ReaderError TermReader :=
  if reader.opened.isEmpty && Text.isBlank c then
    .ok (if reader.quotePending then reader else reader.flush)
  else
    match openerOf? c, closerOf? c with
    | some bracket, _ => .ok { reader.add c with opened := bracket :: reader.opened }
    | none, some bracket =>
        match reader.opened with
        | [] => .error (.unexpected bracket)
        | [_] => .ok { reader.add c with opened := [] }.flush
        | _ :: outer => .ok { reader.add c with opened := outer }
    | none, none => .ok (reader.add c)

/-- Between lines an open form has a space, and any other term but a lone quote ends. -/
def endLine (reader : TermReader) : TermReader :=
  if reader.opened.isEmpty then
    if reader.quotePending then reader else reader.flush
  else reader.add ' '

def withoutBreak (line : List Char) : List Char :=
  (line.reverse.dropWhile Text.isFileBreak).reverse

def readLine (reader : TermReader) (line : List Char) : Except ReaderError TermReader :=
  ((withoutBreak line).foldlM readChar reader).map endLine

def finish (reader : TermReader) : Except ReaderError (List String) :=
  match reader.opened with
  | bracket :: _ => .error (.missing bracket)
  | [] => .ok reader.flush.terms.reverse

end TermReader

def readTerms (lines : List (List Char)) : Except ReaderError (List String) :=
  (lines.foldlM TermReader.readLine {}).bind TermReader.finish

def readTermsOfText (text : String) : Except ReaderError (List String) :=
  readTerms (Text.linesOf Text.isTextBreak text.toList)

end SetLisp
