import SetLisp.Session
import SetLisp.Source.Decode
import SetLisp.Source.Path
import SetLisp.Term

/-!
# Running a file

The file is decoded and split into terms before any of it is evaluated; a file that fails there
evaluates nothing. Each term then writes the texts of its values, in order with what it prints. A
term that fails writes no values, is recorded, and ends the run unless the session keeps going. An
integer of an embedder that is too large to be shown is no failure of a term: it breaks the run.
-/

namespace SetLisp

/-- A file that cannot be opened, by the number and the words of the operating system. -/
structure OpenFailure where
  code : Nat
  reason : String
deriving DecidableEq, Repr

def OpenFailure.message (failure : OpenFailure) (path : String) : String :=
  "[Errno " ++ toString failure.code ++ "] " ++ failure.reason ++ ": " ++ Text.quoted path

/-- Why the run of a file has no count of failures. -/
inductive RunFailure where
  | unopened (failure : OpenFailure)
  | fault (fault : Fault)
deriving DecidableEq, Repr

/-- The terms of a file, or what is wrong with it. A fault in the brackets of the lines before a
fault in the bytes is the one that is found. -/
def readSource (bytes : List UInt8) : Except String (List String) :=
  let source := decodeSource bytes
  match source.fault? with
  | none => (readTerms source.lines).mapError ReaderError.message
  | some fault =>
      match source.lines.foldlM TermReader.readLine {} with
      | .error error => .error error.message
      | .ok _ => .error fault.message

def abbreviate (term : String) : String :=
  let chars := term.toList
  if chars.length ≤ 80 then term else String.ofList (chars.take 77 ++ "...".toList)

namespace Session

def runTerm (session : Session) (term : String) : Except Failure Unit × Session :=
  match session.evalTerm term with
  | (.error failure, session) => (.error failure, session)
  | (.ok pairs, session) =>
      match session.run (Eval.textsOf session.limit (pairs.map (·.2))) with
      | (.error failure, session) => (.error failure, session)
      | (.ok texts, session) => (.ok (), session.write (String.join (texts.map (· ++ "\n"))))

/-- Runs the terms from the one numbered `index` on and counts those that fail. -/
def runTerms (session : Session) (index : Nat) : List String → Except RunFailure Nat × Session
  | [] => (.ok 0, session)
  | term :: rest =>
      match session.runTerm term with
      | (.ok (), session) => session.runTerms (index + 1) rest
      | (.error (.fault fault), session) => (.error (.fault fault), session)
      | (.error failure, session) =>
          let session := session.record .error
            ("term " ++ toString index ++ " " ++ abbreviate term ++ ": " ++ failure.message)
          if session.keepGoing then
            let (failures, session) := session.runTerms (index + 1) rest
            (failures.map (· + 1), session)
          else (.ok 1, session)

/-- The session with a stream that holds the text so far in place of the one it prints to. -/
def onStream (session : Session) (text : String) : Session :=
  { session with machine := { session.machine with output := text } }

/-- Goes on with the stream `out` in place of the standard output, which is put back behind it,
however it ends. Without such a stream it goes on with the standard output. -/
def redirected {α : Type} (session : Session) (out : Option String)
    (action : Session → α × Session) : α × Option String × Session :=
  match out with
  | none =>
      let (result, ended) := action session
      (result, none, ended)
  | some text =>
      let (result, ended) := action (session.onStream text)
      (result, some ended.machine.output, ended.onStream session.machine.output)

def runBytesTo (session : Session) (out : Option String) (path : String) (bytes : List UInt8) :
    Except RunFailure Nat × Option String × Session :=
  match readSource bytes with
  | .error message => (.ok 1, out, session.record .error (Path.normal path ++ ": " ++ message))
  | .ok terms =>
      (session.record .info ("evaluating " ++ toString terms.length ++ " term(s)")).redirected out
        (·.runTerms 1 terms)

/-- Runs the file at a path, given what opening it brought, and counts its failures. What the file
prints and the texts of its values go to the stream `out`, if there is one. -/
def runFileTo (session : Session) (out : Option String) (path : String)
    (opened : Except OpenFailure (List UInt8)) : Except RunFailure Nat × Option String × Session :=
  let session := session.record .info ("reading " ++ Path.normal path)
  match opened with
  | .error failure => (.error (.unopened failure), out, session)
  | .ok bytes => session.runBytesTo out path bytes

/-- Runs a file that writes to the standard output. -/
def runFile (session : Session) (path : String) (opened : Except OpenFailure (List UInt8)) :
    Except RunFailure Nat × Session :=
  let (result, _, session) := session.runFileTo none path opened
  (result, session)

end Session

end SetLisp
