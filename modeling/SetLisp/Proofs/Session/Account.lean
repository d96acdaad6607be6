import SetLisp.Proofs.Eval.Naming
import SetLisp.Proofs.Session.KeepGoing

/-!
# The account of a run

A run of terms is told term by term. A term is shown if all its forms are evaluated, each behind
those before it, and all their values have texts; it has then printed what it printed and shown the
values. A term that fails has printed something as well, and one error is recorded for it, with its
number. Behind a failure the run goes on or stops, as the session has it. So the errors recorded are
as many as the terms that failed, and without any every term is shown.
-/

namespace SetLisp

open Eval

/-- The record a session makes of a form and its value while it debugs. -/
def valueRecord (expr value : Value) : LogRecord :=
  { severity := .debug, source := .interpreter, message := expr.text ++ " -> " ++ value.text }

/-- The forms are evaluated in turn to the values, each on the machine that those before it have
left and that has been asked to record their values. -/
inductive EvaluatesEach (room : Nat) : List Value → Machine → List Value → Machine → Prop
  | nil {machine : Machine} : EvaluatesEach room [] machine [] machine
  | cons {expr value : Value} {rest values : List Value} {machine middle after : Machine}
      (hexpr : (evaluate room expr).outcome machine = (.ok value, middle))
      (hrest : EvaluatesEach room rest (middle.record (valueRecord expr value)) values after) :
      EvaluatesEach room (expr :: rest) machine (value :: values) after

theorem Machine.record_of_not_admits {machine : Machine} {entry : LogRecord}
    (h : machine.level.admits entry.severity = false) : machine.record entry = machine := by
  rw [record, h]
  rfl

theorem evaluatesEach_of_outcome {room : Nat} {exprs : List Value} {machine after : Machine}
    {pairs : List (Value × Value)}
    (h : (Session.evaluateRecorded room exprs).outcome machine = (.ok pairs, after)) :
    EvaluatesEach room exprs machine (pairs.map (·.2)) after := by
  induction exprs generalizing machine pairs with
  | nil =>
      cases h
      exact .nil
  | cons expr rest ih =>
      obtain ⟨value, middle, hvalue, hrecorded⟩ := outcome_bind_eq_ok.mp h
      obtain ⟨debug, middle', hdebug, hbehind⟩ := outcome_bind_eq_ok.mp hrecorded
      cases hdebug
      cases hadmits : middle.level.admits .debug with
      | false =>
          rw [hadmits] at hbehind
          obtain ⟨others, last, hothers, hpure⟩ := outcome_bind_eq_ok.mp hbehind
          cases hpure
          refine .cons hvalue ?_
          rw [Machine.record_of_not_admits hadmits]
          exact ih hothers
      | true =>
          rw [hadmits] at hbehind
          obtain ⟨shown, middle', hshown, hshowing⟩ := outcome_bind_eq_ok.mp hbehind
          obtain ⟨text, middle'', htext, hrecording⟩ := outcome_bind_eq_ok.mp hshowing
          obtain ⟨⟨⟩, noted, hnoted, hrest⟩ := outcome_bind_eq_ok.mp hrecording
          obtain ⟨others, last, hothers, hpure⟩ := outcome_bind_eq_ok.mp hrest
          obtain ⟨rfl, rfl⟩ := outcome_textOf_eq_ok hshown
          obtain ⟨rfl, rfl⟩ := outcome_textOf_eq_ok htext
          cases hnoted
          cases hpure
          exact .cons hvalue (ih hothers)

/-- The evaluation of forms records no error. -/
theorem EvaluatesEach.errors_eq {room : Nat} {exprs values : List Value} {machine after : Machine}
    (h : EvaluatesEach room exprs machine values after) : after.errors = machine.errors := by
  induction h with
  | nil => rfl
  | @cons expr value _ _ machine _ _ hexpr _ ih =>
      obtain ⟨-, herrors, -⟩ := (ignoresLog_evaluate room expr).outcome machine
      rw [hexpr] at herrors
      have hdebug : (valueRecord expr value).severity ≠ .error := by
        rw [valueRecord]
        nofun
      rw [ih, Machine.errors_record_of_ne _ hdebug, herrors]

namespace Session

/-- All forms of the term are evaluated and their values shown, behind what is printed for them. -/
inductive Shows (session : Session) (term : String) : String → Session → Prop
  | intro {exprs values : List Value} {printed : String} {after : Machine}
      (hparse : parseAll session.limit session.machine.next (tokenize term) = .ok exprs)
      (heval : EvaluatesEach session.limit exprs (session.machine.skip (tokenize term).length)
        values after)
      (hshown : ∀ value ∈ values, value.textFault? session.limit = none)
      (hprinted : after.output = session.machine.output ++ printed) :
      Shows session term (printed ++ shownValues values)
        { session with machine := after.write (shownValues values) }

/-- The term fails, behind what is printed for it, and shows no value. -/
structure FailsWith (session : Session) (term : String) (failure : Failure) (printed : String)
    (next : Session) : Prop where
  fails : session.TermFails term
  run_eq : session.runTerm term = (.error failure, next)
  output_eq : next.machine.output = session.machine.output ++ printed
  errors_eq : next.machine.errors = session.machine.errors

variable {session next ended : Session} {term written printed : String} {failure : Failure}

theorem showable_of_outcome_textsOf {room : Nat} {values : List Value} {texts : List String}
    {machine after : Machine} (h : (textsOf room values).outcome machine = (.ok texts, after)) :
    ∀ value ∈ values, value.textFault? room = none := by
  intro value hvalue
  by_contra hfault
  obtain ⟨halt, hhalt⟩ :=
    (outcome_textsOf_halts_iff room values machine).mpr ⟨value, hvalue, hfault⟩
  rw [h] at hhalt
  cases hhalt

theorem exists_values_of_showEach {room : Nat} {exprs : List Value} {machine last : Machine}
    (h : (showEach room exprs).outcome machine = (.ok (), last)) :
    ∃ values after, EvaluatesEach room exprs machine values after ∧
      (∀ value ∈ values, value.textFault? room = none) ∧
      last = after.write (shownValues values) ∧ machine.GrowsTo after := by
  obtain ⟨pairs, after, hpairs, hshowing⟩ := outcome_bind_eq_ok.mp h
  obtain ⟨texts, after', htexts, hwritten⟩ := outcome_bind_eq_ok.mp hshowing
  have hshowable := showable_of_outcome_textsOf htexts
  have hgrows := (truncates_evaluateRecorded room exprs).growsTo machine
  obtain ⟨rfl, rfl⟩ := outcome_textsOf_eq_ok htexts
  cases hwritten
  rw [hpairs] at hgrows
  rw [join_texts]
  exact ⟨_, _, evaluatesEach_of_outcome hpairs, hshowable, rfl, hgrows⟩

/-- A term that succeeds is shown. -/
theorem exists_shows (h : session.runTerm term = (.ok (), next)) :
    ∃ written, session.Shows term written next := by
  cases hparse : parseAll session.limit session.machine.next (tokenize term) with
  | error failure =>
      rw [runTerm_eq, runText_of_parse_error _ hparse] at h
      cases h
  | ok exprs =>
      rw [runTerm_of_parse_ok hparse, run_eq] at h
      dsimp only at h
      rcases houtcome : (showEach session.limit exprs).outcome
          (session.machine.skip (tokenize term).length) with ⟨halt | ⟨⟩, last⟩
      · rw [houtcome] at h
        cases h
      · rw [houtcome] at h
        cases h
        obtain ⟨values, after, heval, hshown, rfl, hgrows⟩ := exists_values_of_showEach houtcome
        obtain ⟨printed, hprinted⟩ := hgrows.output_eq
        exact ⟨_, .intro hparse heval hshown hprinted⟩

theorem exists_failsWith (h : session.runTerm term = (.error failure, next)) :
    ∃ printed, session.FailsWith term failure printed next := by
  have hgrows := runTerm_growsTo session term
  have herrors := errors_runTerm session term
  rw [h] at hgrows herrors
  obtain ⟨printed, hprinted⟩ := hgrows.output_eq
  exact ⟨printed, termFails_iff.mpr ⟨failure, by rw [h]⟩, h, hprinted, herrors⟩

theorem Shows.output_eq (h : session.Shows term written next) :
    next.machine.output = session.machine.output ++ written := by
  cases h with
  | @intro _ values printed after _ _ _ hprinted =>
      change after.output ++ shownValues values = _
      rw [hprinted, String.append_assoc]

theorem Shows.errors_eq (h : session.Shows term written next) :
    next.machine.errors = session.machine.errors := by
  cases h with
  | intro _ heval => exact heval.errors_eq

theorem Shows.keepGoing_eq (h : session.Shows term written next) :
    next.keepGoing = session.keepGoing := by
  cases h
  rfl

theorem FailsWith.keepGoing_eq (h : session.FailsWith term failure printed next) :
    next.keepGoing = session.keepGoing := by
  have hkept := keepGoing_runTerm session term
  rwa [h.run_eq] at hkept

/-- What is recorded for a term that fails. -/
def termError (index : Nat) (term : String) (failure : Failure) : String :=
  "term " ++ toString index ++ " " ++ abbreviate term ++ ": " ++ failure.message

/-- The account of a run of terms from the one with the number on: what it writes, the errors it
records, one for each term that fails, and the session it leaves. -/
inductive Accounts : Nat → Session → List String → List String → String → Session → Prop
  | nil {index : Nat} {session : Session} : Accounts index session [] [] "" session
  | shown {index : Nat} {session next ended : Session} {term written more : String}
      {rest errors : List String} (hterm : session.Shows term written next)
      (hrest : Accounts (index + 1) next rest errors more ended) :
      Accounts index session (term :: rest) errors (written ++ more) ended
  | failed {index : Nat} {session next ended : Session} {term printed more : String}
      {rest errors : List String} {failure : Failure} (hgoes : session.keepGoing = true)
      (hterm : session.FailsWith term failure printed next)
      (hrest : Accounts (index + 1) (next.record .error (termError index term failure)) rest errors
        more ended) :
      Accounts index session (term :: rest) (termError index term failure :: errors)
        (printed ++ more) ended
  | stopped {index : Nat} {session next : Session} {term printed : String} {rest : List String}
      {failure : Failure} (hstops : session.keepGoing = false)
      (hterm : session.FailsWith term failure printed next) :
      Accounts index session (term :: rest) [termError index term failure] printed
        (next.record .error (termError index term failure))

/-- Each of the terms is shown, in the session that those before it have left. -/
inductive ShowsAll : Session → List String → String → Session → Prop
  | nil {session : Session} : ShowsAll session [] "" session
  | cons {session next ended : Session} {term written more : String} {rest : List String}
      (hterm : session.Shows term written next) (hrest : ShowsAll next rest more ended) :
      ShowsAll session (term :: rest) (written ++ more) ended

variable {index : Nat} {terms errors : List String}

/-- **A run has an account.** No integer can be too large to be shown, so the run counts the errors
of its account. -/
theorem exists_accounts (hchain : session.machine.chain.Binds Value.InRange) (index : Nat)
    (terms : List String) :
    ∃ errors written, Accounts index session terms errors written (session.runTerms index terms).2 ∧
      (session.runTerms index terms).1 = .ok errors.length := by
  induction terms generalizing session index with
  | nil => exact ⟨[], "", .nil, rfl⟩
  | cons term rest ih =>
      obtain ⟨hnext, hbreaks⟩ := runTerm_inRange hchain term
      rcases hterm : session.runTerm term with ⟨failure | ⟨⟩, next⟩ <;>
        rw [hterm] at hnext hbreaks
      · have hfailure (fault : Fault) : failure ≠ .fault fault := fun h =>
          hbreaks fault (congrArg Except.error h)
        obtain ⟨printed, hfails⟩ := exists_failsWith hterm
        cases hgoes : session.keepGoing with
        | false =>
            rw [runTerms_of_failure hterm hfailure (hfails.keepGoing_eq.trans hgoes)]
            exact ⟨_, _, .stopped hgoes hfails, rfl⟩
        | true =>
            rw [runTerms_past_failure index rest hterm hfailure (hfails.keepGoing_eq.trans hgoes)]
            have hrecorded : (next.record .error (termError index term failure)).machine.chain.Binds
                Value.InRange := by
              rwa [record, Machine.chain_record]
            obtain ⟨errors, more, hrest, hcount⟩ := ih hrecorded (index + 1)
            refine ⟨_, _, .failed hgoes hfails hrest, ?_⟩
            exact congrArg (Except.map (· + 1)) hcount
      · obtain ⟨written, hshows⟩ := exists_shows hterm
        rw [runTerms_of_success index rest hterm]
        obtain ⟨errors, more, hrest, hcount⟩ := ih hnext (index + 1)
        exact ⟨_, _, .shown hshows hrest, hcount⟩

namespace Accounts

variable {written : String}

theorem output_eq (h : Accounts index session terms errors written ended) :
    ended.machine.output = session.machine.output ++ written := by
  induction h with
  | nil => exact String.append_empty.symm
  | shown hterm _ ih => rw [ih, hterm.output_eq, String.append_assoc]
  | failed _ hterm _ ih =>
      rw [ih, record, Machine.output_record, hterm.output_eq, String.append_assoc]
  | stopped _ hterm => rw [record, Machine.output_record, hterm.output_eq]

theorem errors_eq (h : Accounts index session terms errors written ended) :
    ended.machine.errors = session.machine.errors ++ errors := by
  induction h with
  | nil => exact (List.append_nil _).symm
  | shown hterm _ ih => rw [ih, hterm.errors_eq]
  | failed _ hterm _ ih =>
      rw [ih, record, Machine.errors_record_error, hterm.errors_eq, List.append_assoc]
      rfl
  | stopped _ hterm => rw [record, Machine.errors_record_error, hterm.errors_eq]

/-- A run that does not keep going records one error at most. -/
theorem length_errors_le (h : Accounts index session terms errors written ended)
    (hstops : session.keepGoing = false) : errors.length ≤ 1 := by
  induction h with
  | nil => exact Nat.zero_le 1
  | shown hterm _ ih => exact ih (hterm.keepGoing_eq.trans hstops)
  | failed hgoes => cases hgoes.symm.trans hstops
  | stopped => exact Nat.le_refl 1

/-- Without errors every term is shown. -/
theorem showsAll (h : Accounts index session terms [] written ended) :
    ShowsAll session terms written ended := by
  generalize hnone : [] = errors at h
  induction h with
  | nil => exact .nil
  | shown hterm _ ih => exact .cons hterm (ih hnone)
  | failed => cases hnone
  | stopped => cases hnone

end Accounts

end Session

end SetLisp
