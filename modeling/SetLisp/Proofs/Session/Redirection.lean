import SetLisp.Proofs.Scope.Copying
import SetLisp.Proofs.Session.KeepGoing

namespace SetLisp

open Eval

namespace Machine

/-- The second machine prints to another stream: it has printed behind `stream` what the first one
has printed behind `before`, and is like it in all else. -/
def Retargeted (before stream : String) (machine retargeted : Machine) : Prop :=
  ∃ printed, machine.output = before ++ printed ∧
    retargeted = { machine with output := stream ++ printed }

theorem record_withOutput (machine : Machine) (output : String) (entry : LogRecord) :
    { machine with output := output }.record entry =
      { machine.record entry with output := output } := by
  by_cases hadmits : machine.level.admits entry.severity <;> simp [record, hadmits]

end Machine

variable {before stream : String}

theorem respected_retargeted (before stream : String) :
    Respected (Machine.Retargeted before stream) where
  lookup? := by
    rintro machine _ ⟨printed, -, rfl⟩ name
    rfl
  level := by
    rintro machine _ ⟨printed, -, rfl⟩
    rfl
  next := by
    rintro machine _ ⟨printed, -, rfl⟩
    rfl
  define := by
    rintro machine _ ⟨printed, houtput, rfl⟩ name value
    exact ⟨printed, houtput, rfl⟩
  write := by
    rintro machine _ ⟨printed, houtput, rfl⟩ text
    refine ⟨printed ++ text, ?_, ?_⟩
    · rw [← String.append_assoc, ← houtput]
      rfl
    · rw [← String.append_assoc]
      rfl
  record := by
    rintro machine _ ⟨printed, houtput, rfl⟩ entry
    refine ⟨printed, ?_, machine.record_withOutput _ entry⟩
    rw [Machine.output_record, houtput]
  skip := by
    rintro machine _ ⟨printed, houtput, rfl⟩ count
    exact ⟨printed, houtput, rfl⟩

namespace Eval

theorem retargeted_inScope (scope : Frame) {action action' : Eval Value}
    (h : Alike (Machine.Retargeted before stream) action action') :
    Alike (Machine.Retargeted before stream) (inScope scope action) (inScope scope action') := by
  rintro machine _ ⟨printed, houtput, rfl⟩
  rw [outcome_inScope, outcome_inScope]
  have hentered : Machine.Retargeted before stream (machine.enter scope)
      (({ machine with output := stream ++ printed } : Machine).enter scope) :=
    ⟨printed, houtput, rfl⟩
  obtain ⟨hresult, more, hmore, hafter⟩ := h _ _ hentered
  rw [hafter]
  exact ⟨hresult, more, hmore, rfl⟩

/-- Evaluation does not read what has been printed. -/
theorem retargeted_evaluate (room : Nat) (expr : Value) :
    Alike (Machine.Retargeted before stream) (evaluate room expr) (evaluate room expr) := by
  have h := alike_evaluateBy (fun _ : Unit => respected_retargeted before stream)
    (fun scope _ _ haction _ => retargeted_inScope scope (haction ())) room expr ()
  rwa [evaluateBy_inScope] at h

end Eval

namespace Session

section Alike

variable {link : Machine → Machine → Prop} (h : Respected link) {room : Nat}
  (heval : ∀ expr, Alike link (SetLisp.evaluate room expr) (SetLisp.evaluate room expr))

include h heval

theorem alike_evaluateRecorded (exprs : List Value) :
    Alike link (evaluateRecorded room exprs) (evaluateRecorded room exprs) := by
  induction exprs with
  | nil => exact Alike.pure []
  | cons expr rest ih =>
      refine (heval expr).bind fun value => ?_
      have hpairs := ih.bind fun pairs => Alike.pure ((expr, value) :: pairs)
      refine h.alike_debugging.bind fun debug => ?_
      cases debug with
      | false => exact hpairs
      | true =>
          refine (alike_textOf room expr).bind fun shown => ?_
          refine (alike_textOf room value).bind fun text => ?_
          exact (h.alike_record _ _ _).bind fun _ => hpairs

theorem alike_showEach (exprs : List Value) :
    Alike link (showEach room exprs) (showEach room exprs) := by
  refine (alike_evaluateRecorded h heval exprs).bind fun pairs => ?_
  exact (alike_textsOf room _).bind fun texts => h.alike_write _

end Alike

/-- The second session prints to another stream, and is like the first one in all else. -/
def Retargeted (before stream : String) (first second : Session) : Prop :=
  ∃ printed, first.machine.output = before ++ printed ∧
    second = first.onStream (stream ++ printed)

theorem redirected_some {α : Type} (session : Session) (text : String)
    (action : Session → α × Session) :
    session.redirected (some text) action =
      let ended := action (session.onStream text)
      (ended.1, some ended.2.machine.output, ended.2.onStream session.machine.output) := rfl

theorem onStream_eq {session : Session} {text : String} (h : session.machine.output = text) :
    session.onStream text = session := by
  subst h
  rfl

theorem retargeted_onStream (session : Session) (stream : String) :
    Retargeted session.machine.output stream session (session.onStream stream) := by
  refine ⟨"", String.append_empty.symm, ?_⟩
  rw [String.append_empty]

namespace Retargeted

variable {α : Type} {first second : Session}

theorem run (h : Retargeted before stream first second) {action : Eval α}
    (haction : Alike (Machine.Retargeted before stream) action action) :
    (second.run action).1 = (first.run action).1 ∧
      Retargeted before stream (first.run action).2 (second.run action).2 := by
  obtain ⟨printed, houtput, rfl⟩ := h
  obtain ⟨hresult, more, hmore, hafter⟩ := haction first.machine _ ⟨printed, houtput, rfl⟩
  rw [run_eq, run_eq]
  refine ⟨congrArg (Except.mapError Failure.ofHalt) hresult.symm, more, hmore, ?_⟩
  exact congrArg (fun machine => ({ first with machine := machine } : Session)) hafter

theorem runText (h : Retargeted before stream first second) {action : List Value → Eval α}
    (haction : ∀ exprs, Alike (Machine.Retargeted before stream) (action exprs) (action exprs))
    (text : String) :
    (second.runText text action).1 = (first.runText text action).1 ∧
      Retargeted before stream (first.runText text action).2 (second.runText text action).2 := by
  obtain ⟨printed, houtput, rfl⟩ := h
  let second := first.onStream (stream ++ printed)
  have hparses : parseAll second.limit second.machine.next (tokenize text) =
      parseAll first.limit first.machine.next (tokenize text) := rfl
  cases hparse : parseAll first.limit first.machine.next (tokenize text) with
  | error failure =>
      rw [runText_of_parse_error action hparse,
        runText_of_parse_error action (hparses.trans hparse)]
      exact ⟨rfl, printed, houtput, rfl⟩
  | ok exprs =>
      rw [runText_of_parse_ok action hparse, runText_of_parse_ok action (hparses.trans hparse)]
      have hskipped : Retargeted before stream
          { first with machine := first.machine.skip (tokenize text).length }
          { second with machine := second.machine.skip (tokenize text).length } :=
        ⟨printed, houtput, rfl⟩
      exact hskipped.run (haction exprs)

theorem record (h : Retargeted before stream first second) (severity : Severity)
    (message : String) :
    Retargeted before stream (first.record severity message) (second.record severity message) := by
  obtain ⟨printed, houtput, rfl⟩ := h
  refine ⟨printed, (first.machine.output_record _).trans houtput, ?_⟩
  exact congrArg (fun machine => ({ first with machine := machine } : Session))
    (first.machine.record_withOutput _ _)

theorem limit_eq (h : Retargeted before stream first second) : second.limit = first.limit := by
  obtain ⟨printed, -, rfl⟩ := h
  rfl

theorem keepGoing_eq (h : Retargeted before stream first second) :
    second.keepGoing = first.keepGoing := by
  obtain ⟨printed, -, rfl⟩ := h
  rfl

theorem runTerm (h : Retargeted before stream first second) {term : String}
    {result : Except Failure Unit} {ended : Session}
    (hterm : first.runTerm term = (result, ended)) :
    ∃ ended', second.runTerm term = (result, ended') ∧
      Retargeted before stream ended ended' := by
  obtain ⟨hresult, hended⟩ := h.runText (alike_showEach (respected_retargeted before stream)
    (retargeted_evaluate first.limit)) term
  rw [← runTerm_eq, hterm] at hresult hended
  rw [← h.limit_eq, ← runTerm_eq] at hresult hended
  exact ⟨(second.runTerm term).2, Prod.ext hresult rfl, hended⟩

theorem runTerms (h : Retargeted before stream first second) (index : Nat)
    (terms : List String) :
    (second.runTerms index terms).1 = (first.runTerms index terms).1 ∧
      Retargeted before stream (first.runTerms index terms).2
        (second.runTerms index terms).2 := by
  fun_induction Session.runTerms first index terms generalizing second with
  | case1 => exact ⟨rfl, h⟩
  | case2 first index term rest ended hterm ih =>
      obtain ⟨ended', hterm', hended⟩ := h.runTerm hterm
      rw [runTerms_of_success index rest hterm']
      exact ih hended
  | case3 first index term rest fault ended hterm =>
      obtain ⟨ended', hterm', hended⟩ := h.runTerm hterm
      rw [runTerms_of_fault index rest hterm']
      exact ⟨rfl, hended⟩
  | case4 first index term rest failure ended hfailure hterm recorded hgoes count gone hrest =>
      rename_i ih
      obtain ⟨ended', hterm', hended⟩ := h.runTerm hterm
      rw [runTerms_past_failure index rest hterm' hfailure (hended.keepGoing_eq.trans hgoes)]
      obtain ⟨hcount, hgone⟩ := ih (hended.record _ _)
      rw [hrest] at hcount hgone
      exact ⟨congrArg (Except.map (· + 1)) hcount, hgone⟩
  | case5 first index term rest failure ended hfailure hterm recorded =>
      rename_i hstops
      obtain ⟨ended', hterm', hended⟩ := h.runTerm hterm
      have hstops' : ended.keepGoing = false := Bool.eq_false_of_not_eq_true hstops
      rw [runTerms_of_failure hterm' hfailure (hended.keepGoing_eq.trans hstops')]
      exact ⟨rfl, hended.record _ _⟩

end Retargeted

/-- **A run with a stream of its own.** It comes to what a run comes to that writes to the standard
output, and leaves the same behind, but what it prints and the texts of its values go to its stream,
in the same order, and the standard output stays as it was. -/
theorem runFileTo_some (session : Session) (out path : String)
    (opened : Except OpenFailure (List UInt8)) :
    let (result, ran) := session.runFile path opened
    ∃ written, ran.machine.output = session.machine.output ++ written ∧
      session.runFileTo (some out) path opened =
        (result, some (out ++ written), ran.onStream session.machine.output) := by
  let announced := session.record .info ("reading " ++ Path.normal path)
  have hannounced : announced.machine.output = session.machine.output :=
    session.machine.output_record _
  cases opened with
  | error failure =>
      refine ⟨"", hannounced.trans String.append_empty.symm, ?_⟩
      rw [String.append_empty, onStream_eq hannounced]
      rfl
  | ok bytes =>
      cases hread : readSource bytes with
      | error message =>
          let recorded := announced.record .error (Path.normal path ++ ": " ++ message)
          have houtput : recorded.machine.output = session.machine.output :=
            (announced.machine.output_record _).trans hannounced
          rw [runFile_of_readSource_error session path hread]
          refine ⟨"", houtput.trans String.append_empty.symm, ?_⟩
          rw [String.append_empty, onStream_eq houtput, runFileTo, runBytesTo, hread]
      | ok terms =>
          have houtput := output_announced session path terms.length
          obtain ⟨hresult, written, hwritten, hran⟩ :=
            (retargeted_onStream (session.announced path terms.length) out).runTerms 1 terms
          rw [houtput] at hwritten
          rw [runFile_of_readSource_ok session path hread]
          refine ⟨written, hwritten, ?_⟩
          rw [runFileTo, runBytesTo, hread]
          change (session.announced path terms.length).redirected (some out)
            (·.runTerms 1 terms) = _
          rw [redirected_some]
          dsimp only
          rw [hresult, hran, houtput]
          rfl

end Session

end SetLisp
