import SetLisp.Text.Casing
import SetLisp.Text.Blank

/-!
# Lowercasing

Every letter gives way to its lowercase partner. Two letters need more than a partner: the dotted
capital i becomes two characters, and a capital sigma takes its final form at the end of a word.
-/

namespace SetLisp.Text

def CaseRun.covers (run : CaseRun) (c : Char) : Bool :=
  run.first ≤ c.toNat && c.toNat ≤ run.last && (c.toNat - run.first) % run.stride == 0

def lowercaseChar (c : Char) : List Char :=
  if c == '\u0130' then ['i', '\u0307']
  else
    match lowercaseRuns.find? (·.covers c) with
    | some run => [Char.ofNat (c.toNat + run.shift).toNat]
    | none => [c]

/-- Whether the nearest character that is not case-ignorable is a cased letter. -/
def leadsToCased (text : List Char) : Bool :=
  match text.dropWhile (inRanges caseIgnorableRanges) with
  | [] => false
  | c :: _ => inRanges casedRanges c

/-- Lowercases the text that stands after `before`, which is given last character first. A capital
sigma is final after a cased letter unless a cased letter follows. -/
def lowercaseAfter : List Char → List Char → List Char
  | _, [] => []
  | before, c :: rest =>
      (if c == '\u03a3' then
        if leadsToCased before && !leadsToCased rest then ['\u03c2'] else ['\u03c3']
      else lowercaseChar c) ++ lowercaseAfter (c :: before) rest

def lowercase (text : String) : String :=
  String.ofList (lowercaseAfter [] text.toList)

end SetLisp.Text
