import SetLisp.Proofs.Reading.Faults
import SetLisp.Proofs.Session.FileRun
import SetLisp.Proofs.Source.Encoding

namespace SetLisp

theorem exists_readSource_error_of_fault {bytes : List UInt8} {fault : Text.Utf8Fault}
    (h : (decodeSource bytes).fault? = some fault) :
    ∃ message, readSource bytes = .error message := by
  rw [readSource, h]
  dsimp only
  split
  · exact ⟨_, rfl⟩
  · exact ⟨_, rfl⟩

/-- The bytes are those of no text, or of one that cannot be split into terms. -/
def Unreadable (bytes : List UInt8) : Prop :=
  (∀ text : String, bytes ≠ text.toUTF8.toList) ∨
    ∃ (text : String) (error : ReaderError), bytes = text.toUTF8.toList ∧
      readTerms (Text.linesOf Text.isFileBreak text.toList) = .error error

theorem unreadable_iff {bytes : List UInt8} :
    Unreadable bytes ↔ ∃ message, readSource bytes = .error message := by
  constructor
  · rintro (hnone | ⟨text, error, rfl, hterms⟩)
    · cases hfault : (decodeSource bytes).fault? with
      | some fault => exact exists_readSource_error_of_fault hfault
      | none =>
          obtain ⟨text, htext⟩ := decodeSource_fault?_eq_none_iff.mp hfault
          exact absurd htext (hnone text)
    · exact ⟨error.message, by rw [Session.readSource_toUTF8, hterms]; rfl⟩
  · rintro ⟨message, h⟩
    by_cases htext : ∃ text : String, bytes = text.toUTF8.toList
    · obtain ⟨text, rfl⟩ := htext
      rw [Session.readSource_toUTF8] at h
      cases hterms : readTerms (Text.linesOf Text.isFileBreak text.toList) with
      | error error => exact .inr ⟨text, error, rfl, hterms⟩
      | ok terms =>
          rw [hterms] at h
          cases h
    · exact .inl (not_exists.mp htext)

namespace Session

theorem machine_record (session : Session) (severity : Severity) (message : String) :
    (session.record severity message).machine =
      { session.machine with log := (session.record severity message).machine.log } := by
  rw [record, Machine.record]
  dsimp only
  split <;> rfl

variable {α : Type}

theorem runText_of_formFails {session : Session} {text : String} {fault : ParseFault}
    (h : FormFails session.limit session.machine.next (tokenize text) fault)
    (action : List Value → Eval α) :
    session.runText text action = (.error (.ofParseFault fault), session) := by
  obtain ⟨position, hparse⟩ := formFails_iff.mp h
  exact runText_of_parse_error action hparse

/-- No evaluation ends like a text that is refused. -/
theorem run_ne_parse (session : Session) (action : Eval α) (error : ParseError) :
    (session.run action).1 ≠ .error (.parse error) := by
  rw [run_eq]
  rcases (action.outcome session.machine).1 with halt | value
  · cases halt <;> nofun
  · nofun

theorem of_runText_parse {session : Session} {text : String} {action : List Value → Eval α}
    {error : ParseError} (h : (session.runText text action).1 = .error (.parse error)) :
    FormFails session.limit session.machine.next (tokenize text) (.error error) ∧
      (session.runText text action).2 = session := by
  rw [runText] at h ⊢
  cases hparse : parseAll session.limit session.machine.next (tokenize text) with
  | error failure =>
      obtain ⟨fault, position⟩ := failure
      rw [hparse] at h
      cases fault with
      | error error' =>
          cases h
          exact ⟨formFails_iff.mpr ⟨position, hparse⟩, rfl⟩
      | tooDeep => cases h
  | ok exprs =>
      rw [hparse] at h
      exact absurd h (run_ne_parse _ _ error)

/-- **A refused text leaves no trace.** If a form of a text fails to be read, wherever it stands and
whatever stands in front of it, nothing of the text is evaluated and the session is as it was. No
evaluation fails as reading does, so a failure to read tells that the session is as it was. The same
holds of a file that is no text or cannot be split into terms, except that one error is recorded. -/
theorem refused_text_leaves_no_trace (session : Session) :
    (∀ text fault, FormFails session.limit session.machine.next (tokenize text) fault →
      session.eval text = (.error (.ofParseFault fault), session) ∧
        session.evalTerm text = (.error (.ofParseFault fault), session)) ∧
    (∀ expr error, (session.evaluate expr).1 ≠ .error (.parse error)) ∧
    (∀ text error, (session.eval text).1 = .error (.parse error) →
      FormFails session.limit session.machine.next (tokenize text) (.error error) ∧
        (session.eval text).2 = session) ∧
    (∀ text error, (session.evalTerm text).1 = .error (.parse error) →
      FormFails session.limit session.machine.next (tokenize text) (.error error) ∧
        (session.evalTerm text).2 = session) ∧
    ∀ path bytes, Unreadable bytes →
      ∃ message ended, readSource bytes = .error message ∧
        session.runFile path (.ok bytes) = (.ok 1, ended) ∧
        ended.machine = { session.machine with log := ended.machine.log } ∧
        ended.machine.errors =
          session.machine.errors ++ [Path.normal path ++ ": " ++ message] := by
  refine ⟨fun text fault hfails => ⟨runText_of_formFails hfails _, runText_of_formFails hfails _⟩,
    fun expr error => run_ne_parse session _ error, fun text error => of_runText_parse,
    fun text error => of_runText_parse, fun path bytes hunreadable => ?_⟩
  obtain ⟨message, hmessage⟩ := unreadable_iff.mp hunreadable
  refine ⟨message, _, hmessage, runFile_of_readSource_error session path hmessage, ?_, ?_⟩
  · rw [machine_record, machine_record]
  · rw [record, Machine.errors_record_error, errors_record_info]

/-- A brace that closes nothing behind a definition and a print, and a byte that begins no character
behind a term that would print. -/
theorem refused_text_leaves_no_trace_behind_forms :
    let session := Session.start .debug true
    let bytes : List UInt8 := [40, 112, 114, 105, 110, 116, 32, 116, 114, 117, 101, 41, 10, 255]
    FormFails session.limit session.machine.next (tokenize "(define x true) (print x) (f \x7d")
        (.error (.unexpectedToken "\x7d")) ∧
      session.eval "(define x true) (print x) (f \x7d" =
        (.error (.parse (.unexpectedToken "\x7d")), session) ∧
      Unreadable bytes ∧
      ∃ ended, session.runFile "a" (.ok bytes) = (.ok 1, ended) ∧
        ended.machine.chain = session.machine.chain ∧ ended.machine.output = "" ∧
        ended.machine.errors =
          ["a: 'utf-8' codec can't decode byte 0xff in position 13: invalid start byte"] := by
  intro session bytes
  obtain ⟨htexts, -, -, -, hfiles⟩ := refused_text_leaves_no_trace session
  have hfails : FormFails session.limit session.machine.next
      (tokenize "(define x true) (print x) (f \x7d") (.error (.unexpectedToken "\x7d")) :=
    ⟨["(", "define", "x", "true", ")", "(", "print", "x", ")"], ["(", "f", "\x7d"],
      [.list [.symbol "define", .symbol "x", .boolean true], .list [.symbol "print", .symbol "x"]],
      12, rfl, List.cons_ne_nil _ _, rfl, rfl⟩
  have hsource : readSource bytes =
      .error "'utf-8' codec can't decode byte 0xff in position 13: invalid start byte" := rfl
  have hunreadable : Unreadable bytes := unreadable_iff.mpr ⟨_, hsource⟩
  obtain ⟨message, ended, hmessage, hrun, hmachine, herrors⟩ := hfiles "a" bytes hunreadable
  obtain rfl := Except.error.inj (hsource.symm.trans hmessage)
  refine ⟨hfails, (htexts _ _ hfails).1, hunreadable, ended, hrun, ?_, ?_, herrors⟩
  · rw [hmachine]
  · rw [hmachine]
    rfl

end Session

end SetLisp
