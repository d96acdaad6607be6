/-!
# Lines

A text is cut into lines at breaks, a carriage return followed by a line feed counting once, and a
break at the very end opens no further line. Two sets of breaks are in use: a text handed over as
a string also breaks at the vertical tab, the form feed and the separators, a file only at
carriage returns and line feeds.
-/

namespace SetLisp.Text

def isFileBreak (c : Char) : Bool :=
  c == '\n' || c == '\r'

def isTextBreak (c : Char) : Bool :=
  isFileBreak c || c == '\x0b' || c == '\x0c' || c == '\x1c' || c == '\x1d' || c == '\x1e' ||
    c == '\u0085' || c == '\u2028' || c == '\u2029'

/-- Cuts the text at its breaks; the first argument holds the open line, last character first. -/
def cutLines (isBreak : Char → Bool) : List Char → List Char → List (List Char)
  | line, [] => if line.isEmpty then [] else [line.reverse]
  | line, '\r' :: '\n' :: rest => line.reverse :: cutLines isBreak [] rest
  | line, c :: rest =>
      if isBreak c then line.reverse :: cutLines isBreak [] rest
      else cutLines isBreak (c :: line) rest

def linesOf (isBreak : Char → Bool) (text : List Char) : List (List Char) :=
  cutLines isBreak [] text

/-- The text up to its last break. A carriage return at the end is no break yet, as a line feed
may follow. -/
def closedPart (isBreak : Char → Bool) (text : List Char) : List Char :=
  let settled := if text.getLast? == some '\r' then text.dropLast else text
  (settled.reverse.dropWhile fun c => !isBreak c).reverse

end SetLisp.Text
