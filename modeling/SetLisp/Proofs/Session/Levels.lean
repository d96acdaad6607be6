import Mathlib.Data.List.Forall2
import SetLisp.Proofs.Session.Attempts
import SetLisp.Proofs.Session.FileRun

namespace SetLisp

open Eval

namespace Session

/-- What a session can be asked for. -/
inductive Request where
  | eval (text : String)
  | evalTerm (term : String)
  | evaluate (expr : Value)
  | runFile (path : String) (opened : Except OpenFailure (List UInt8))

inductive Answer where
  | values (result : Except Failure (List Value))
  | pairs (result : Except Failure (List (Value × Value)))
  | value (result : Except Failure Value)
  | failures (result : Except RunFailure Nat)

/-- The answer to a request, and the session left behind it. -/
def answer (session : Session) : Request → Answer × Session
  | .eval text => let (result, after) := session.eval text; (.values result, after)
  | .evalTerm term => let (result, after) := session.evalTerm term; (.pairs result, after)
  | .evaluate expr => let (result, after) := session.evaluate expr; (.value result, after)
  | .runFile path opened =>
      let (result, after) := session.runFile path opened
      (.failures result, after)

/-- The answers to requests that are made one after another. -/
def answers (session : Session) : List Request → List (Answer × Session)
  | [] => []
  | request :: rest => session.answer request :: (session.answer request).2.answers rest

/-- Whether nothing that the request asks for is given up for want of room. -/
def HasRoomFor (session : Session) : Request → Prop
  | .eval text => (session.eval text).1 ≠ .error (.eval .depthExceeded)
  | .evalTerm term => (session.evalTerm term).1 ≠ .error (.eval .depthExceeded)
  | .evaluate expr => (session.evaluate expr).1 ≠ .error (.eval .depthExceeded)
  | .runFile path opened => ∀ bytes terms, opened = .ok bytes → readSource bytes = .ok terms →
      .error (.eval .depthExceeded) ∉ (session.announced path terms.length).attempts terms

def HasRoom (session : Session) : List Request → Prop
  | [] => True
  | request :: rest => session.HasRoomFor request ∧ (session.answer request).2.HasRoom rest

/-- Whether no integer that is handed in is too large to be shown. -/
def Request.InRange : Request → Prop
  | .evaluate expr => expr.InRange
  | _ => True

/-- The session as it records at another level. -/
def withLevel (session : Session) (level : LogLevel) : Session :=
  { session with machine := { session.machine with level := level } }

variable {α : Type} {session first second : Session} {term : String} {terms : List String}

theorem level_record (session : Session) (severity : Severity) (message : String) :
    (session.record severity message).machine.level = session.machine.level :=
  session.machine.level_record _

theorem level_answer (session : Session) (request : Request) :
    (session.answer request).2.machine.level = session.machine.level := by
  cases request with
  | eval text => exact level_runText text (ignoresLog_evaluateAll session.limit)
  | evalTerm term => exact level_runText term (ignoresLog_evaluateRecorded session.limit)
  | evaluate expr => exact level_run (ignoresLog_evaluate session.limit expr)
  | runFile path opened =>
      let keeps (before after : Session) : Prop := after.machine.level = before.machine.level
      exact @runFile_keeps keeps (fun _ => rfl) (fun h h' => h'.trans h) level_runTerm
        level_record session path opened

theorem eval_inRange (hchain : session.machine.chain.Binds Value.InRange) (text : String) :
    (session.eval text).2.machine.chain.Binds Value.InRange ∧
      ∀ fault, (session.eval text).1 ≠ .error (.fault fault) := by
  obtain ⟨hafter, hresult, -⟩ := runText_sound text (fun _ hexprs =>
    Value.closed_inRange.sound_evaluateAll session.limit fun expr hexpr =>
      (hexprs expr hexpr).inRange) hchain
  exact ⟨hafter, hresult⟩

theorem evalTerm_inRange (hchain : session.machine.chain.Binds Value.InRange) (term : String) :
    (session.evalTerm term).2.machine.chain.Binds Value.InRange ∧
      ∀ fault, (session.evalTerm term).1 ≠ .error (.fault fault) := by
  obtain ⟨hafter, hresult, -⟩ := runText_sound term (fun _ hexprs =>
    sound_evaluateRecorded Value.closed_inRange session.limit fun expr hexpr =>
      (hexprs expr hexpr).inRange) hchain
  exact ⟨hafter, hresult⟩

theorem evaluate_inRange (hchain : session.machine.chain.Binds Value.InRange) {expr : Value}
    (hexpr : expr.InRange) :
    (session.evaluate expr).2.machine.chain.Binds Value.InRange ∧
      ∀ fault, (session.evaluate expr).1 ≠ .error (.fault fault) := by
  obtain ⟨hafter, hresult, -⟩ :=
    run_sound (Value.closed_inRange.sound_evaluate session.limit hexpr) hchain
  exact ⟨hafter, hresult⟩

theorem answer_inRange (hchain : session.machine.chain.Binds Value.InRange) {request : Request}
    (hrequest : request.InRange) :
    (session.answer request).2.machine.chain.Binds Value.InRange := by
  cases request with
  | eval text => exact (eval_inRange hchain text).1
  | evalTerm term => exact (evalTerm_inRange hchain term).1
  | evaluate expr => exact (evaluate_inRange hchain hrequest).1
  | runFile path opened =>
      let keeps (before after : Session) : Prop :=
        before.machine.chain.Binds Value.InRange → after.machine.chain.Binds Value.InRange
      refine @runFile_keeps keeps (fun _ => id) (fun h h' => h' ∘ h)
        (fun _ term hchain => (runTerm_inRange hchain term).1) ?_ session path opened hchain
      intro session severity message hchain
      exact (session.machine.chain_record _).symm ▸ hchain

/-! ### Sessions that look alike -/

/-- The sessions differ at most in what they have recorded besides errors, and in what they
record. -/
structure LooksLike (first second : Session) : Prop extends AgreesWith first second where
  errors_eq : second.machine.errors = first.machine.errors

namespace LooksLike

theorem symm (h : first.LooksLike second) : second.LooksLike first :=
  ⟨h.toAgreesWith.symm, h.errors_eq.symm⟩

theorem withLevel (session : Session) (level level' : LogLevel) :
    (session.withLevel level).LooksLike (session.withLevel level') :=
  ⟨⟨rfl, rfl, rfl, rfl, rfl⟩, rfl⟩

theorem record (h : first.LooksLike second) (severity : Severity) (message : String) :
    (first.record severity message).LooksLike (second.record severity message) := by
  refine ⟨h.toAgreesWith.record severity message, ?_⟩
  rw [Session.record, Session.record]
  by_cases hseverity : severity = .error
  · subst hseverity
    rw [Machine.errors_record_error, Machine.errors_record_error, h.errors_eq]
  · rw [Machine.errors_record_of_ne _ hseverity, Machine.errors_record_of_ne _ hseverity,
      h.errors_eq]

variable {action : Eval α}

theorem run (h : first.LooksLike second) (haction : IgnoresLog action)
    (hends : Settles first.machine.level second.machine.level (first.run action).1) :
    (second.run action).1 = (first.run action).1 ∧
      (first.run action).2.LooksLike (second.run action).2 := by
  obtain ⟨hresult, hafter⟩ := h.toAgreesWith.run haction hends
  refine ⟨hresult, hafter, ?_⟩
  rw [errors_run haction, errors_run haction, h.errors_eq]

theorem runText (h : first.LooksLike second) {action : List Value → Eval α}
    (haction : ∀ exprs, IgnoresLog (action exprs)) (text : String)
    (hends : Settles first.machine.level second.machine.level (first.runText text action).1) :
    (second.runText text action).1 = (first.runText text action).1 ∧
      (first.runText text action).2.LooksLike (second.runText text action).2 := by
  obtain ⟨hresult, hafter⟩ := h.toAgreesWith.runText haction text hends
  refine ⟨hresult, hafter, ?_⟩
  rw [errors_runText text haction, errors_runText text haction, h.errors_eq]

theorem runTerm (h : first.LooksLike second) {result : Except Failure Unit} {ended : Session}
    (hterm : first.runTerm term = (result, ended))
    (hends : Settles first.machine.level second.machine.level result) :
    ∃ ended', second.runTerm term = (result, ended') ∧ ended.LooksLike ended' ∧
      ended.machine.level = first.machine.level ∧ ended'.machine.level = second.machine.level := by
  obtain ⟨hresult, hafter⟩ := h.toAgreesWith.runTerm term (by rwa [hterm])
  have herrors := errors_runTerm first term
  have hlevel := level_runTerm first term
  rw [hterm] at hresult hafter herrors hlevel
  refine ⟨(second.runTerm term).2, Prod.ext hresult rfl, ⟨hafter, ?_⟩, hlevel,
    level_runTerm second term⟩
  rw [errors_runTerm, herrors, h.errors_eq]

theorem runTerms (h : first.LooksLike second) (index : Nat)
    (hends : ∀ result ∈ first.attempts terms,
      Settles first.machine.level second.machine.level result) :
    (second.runTerms index terms).1 = (first.runTerms index terms).1 ∧
      (first.runTerms index terms).2.LooksLike (second.runTerms index terms).2 := by
  constructor
  · rw [runTerms_eq_tally, runTerms_eq_tally, h.toAgreesWith.attempts_eq hends]
  · fun_induction Session.runTerms first index terms generalizing second with
    | case1 => exact h
    | case2 first index term rest ended hterm ih =>
        rw [attempts_of_success hterm] at hends
        obtain ⟨hfirst, hrest⟩ := List.forall_mem_cons.mp hends
        obtain ⟨ended', hterm', hended, hlevel, hlevel'⟩ := h.runTerm hterm hfirst
        rw [runTerms_of_success index rest hterm']
        exact ih hended (by rwa [hlevel, hlevel'])
    | case3 first index term rest fault ended hterm =>
        rw [attempts, hterm] at hends
        obtain ⟨ended', hterm', hended, -, -⟩ := h.runTerm hterm (hends _ List.mem_cons_self)
        rw [runTerms_of_fault index rest hterm']
        exact hended
    | case4 first index term rest failure ended hfailure hterm recorded hgoes count gone hrest =>
        rename_i ih
        have hgoes' : ended.keepGoing = true := hgoes
        rw [attempts_of_failure hterm hfailure, if_pos hgoes', ← attempts_record ended] at hends
        obtain ⟨hfirst, hbehind⟩ := List.forall_mem_cons.mp hends
        obtain ⟨ended', hterm', hended, hlevel, hlevel'⟩ := h.runTerm hterm hfirst
        -- both sessions record the failure with the same words and go on
        rw [runTerms_past_failure index rest hterm' hfailure (hended.keepGoing_eq.trans hgoes')]
        rw [hrest] at ih
        refine ih (hended.record _ _) ?_
        rwa [level_record, level_record, hlevel, hlevel']
    | case5 first index term rest failure ended hfailure hterm recorded =>
        rename_i hstops
        have hstops' : ended.keepGoing = false := Bool.eq_false_of_not_eq_true hstops
        rw [attempts_of_failure hterm hfailure] at hends
        obtain ⟨ended', hterm', hended, -, -⟩ := h.runTerm hterm (hends _ List.mem_cons_self)
        rw [runTerms_of_failure hterm' hfailure (hended.keepGoing_eq.trans hstops')]
        exact hended.record _ _

theorem runFile (h : first.LooksLike second) (path : String)
    (opened : Except OpenFailure (List UInt8))
    (hends : ∀ bytes terms, opened = .ok bytes → readSource bytes = .ok terms →
      ∀ result ∈ (first.announced path terms.length).attempts terms,
        Settles first.machine.level second.machine.level result) :
    (second.runFile path opened).1 = (first.runFile path opened).1 ∧
      (first.runFile path opened).2.LooksLike (second.runFile path opened).2 := by
  cases opened with
  | error failure => exact ⟨rfl, h.record _ _⟩
  | ok bytes =>
      cases hread : readSource bytes with
      | error message =>
          rw [runFile_of_readSource_error _ path hread, runFile_of_readSource_error _ path hread]
          exact ⟨rfl, (h.record _ _).record _ _⟩
      | ok terms =>
          rw [runFile_of_readSource_ok _ path hread, runFile_of_readSource_ok _ path hread]
          have hannounced := (h.record .info ("reading " ++ Path.normal path)).record .info
            ("evaluating " ++ toString terms.length ++ " term(s)")
          refine hannounced.runTerms 1 ?_
          simp only [level_record]
          exact hends bytes terms rfl hread

/-- **One request.** Sessions that look alike answer alike, unless one of them is given up where it
shows values for its log. -/
theorem answer (h : first.LooksLike second) {request : Request}
    (hends : first.machine.level.admits .debug = second.machine.level.admits .debug ∨
      first.machine.level.admits .debug = true ∧ first.HasRoomFor request ∧
        first.machine.chain.Binds Value.InRange ∧ request.InRange) :
    (second.answer request).1 = (first.answer request).1 ∧
      (first.answer request).2.LooksLike (second.answer request).2 := by
  have hsettles {β : Type} {result : Except Failure β}
      (hroom : first.HasRoomFor request → result ≠ .error (.eval .depthExceeded))
      (hrange : first.machine.chain.Binds Value.InRange → request.InRange →
        ∀ fault, result ≠ .error (.fault fault)) :
      Settles first.machine.level second.machine.level result := by
    obtain halike | ⟨hdebug, hroomFor, hchain, hrequest⟩ := hends
    · exact .inl halike
    · exact .inr ⟨hdebug, hroom hroomFor, hrange hchain hrequest⟩
  cases request with
  | eval text =>
      obtain ⟨hresult, hafter⟩ := h.runText (ignoresLog_evaluateAll first.limit) text
        (hsettles id fun hchain _ => (eval_inRange hchain text).2)
      rw [Session.answer, Session.answer, Session.eval, Session.eval, h.limit_eq]
      exact ⟨congrArg Answer.values hresult, hafter⟩
  | evalTerm term =>
      obtain ⟨hresult, hafter⟩ := h.runText (ignoresLog_evaluateRecorded first.limit) term
        (hsettles id fun hchain _ => (evalTerm_inRange hchain term).2)
      rw [Session.answer, Session.answer, Session.evalTerm, Session.evalTerm, h.limit_eq]
      exact ⟨congrArg Answer.pairs hresult, hafter⟩
  | evaluate expr =>
      obtain ⟨hresult, hafter⟩ := h.run (ignoresLog_evaluate first.limit expr)
        (hsettles id fun hchain hexpr => (evaluate_inRange hchain hexpr).2)
      rw [Session.answer, Session.answer, Session.evaluate, Session.evaluate, h.limit_eq]
      exact ⟨congrArg Answer.value hresult, hafter⟩
  | runFile path opened =>
      obtain ⟨hresult, hafter⟩ := h.runFile path opened <| by
        intro bytes terms hopened hread result hmem
        refine hsettles (fun hroom heq => ?_) (fun hchain _ fault heq => ?_)
        · exact hroom bytes terms hopened hread (heq ▸ hmem)
        · rw [← chain_announced first path terms.length] at hchain
          exact attempts_inRange hchain fault (heq ▸ hmem)
      exact ⟨congrArg Answer.failures hresult, hafter⟩

/-- **One request after another.** -/
theorem answers {requests : List Request} (h : first.LooksLike second)
    (hends : first.machine.level.admits .debug = second.machine.level.admits .debug ∨
      first.machine.level.admits .debug = true ∧ first.HasRoom requests ∧
        first.machine.chain.Binds Value.InRange ∧ ∀ request ∈ requests, request.InRange) :
    List.Forall₂ (fun step step' => step'.1 = step.1 ∧ step.2.LooksLike step'.2)
      (first.answers requests) (second.answers requests) := by
  induction requests generalizing first second with
  | nil => exact .nil
  | cons request rest ih =>
      obtain halike | ⟨hdebug, ⟨hroomFor, hroom⟩, hchain, hrange⟩ := hends
      · obtain ⟨hresult, hafter⟩ := h.answer (.inl halike)
        refine .cons ⟨hresult, hafter⟩ (ih hafter (.inl ?_))
        rwa [level_answer, level_answer]
      · obtain ⟨hrequest, hrest⟩ := List.forall_mem_cons.mp hrange
        obtain ⟨hresult, hafter⟩ := h.answer (.inr ⟨hdebug, hroomFor, hchain, hrequest⟩)
        refine .cons ⟨hresult, hafter⟩ (ih hafter (.inr ⟨?_, hroom, ?_, hrest⟩))
        · rwa [level_answer]
        · exact answer_inRange hchain hrequest

end LooksLike

theorem admits_debug_of_ne {level : LogLevel} (h : level ≠ .debug) :
    level.admits .debug = false := by
  cases level with
  | none | info => rfl
  | debug => exact absurd rfl h

/-- **The log level does not show.** Whatever is asked of a session, at any two log levels it gives
the same answers, and after every request it has bound, printed and drawn the same and recorded the
same errors. Only at level debug something can be given up for want of room that is not given up
elsewhere, which is why nothing may be given up there.

An expression that is handed in may hold data of an embedder, but no integer that is too large to be
shown; an expression of the language holds none. -/
theorem log_level_does_not_show (session : Session)
    (hchain : session.machine.chain.Binds Value.InRange) (requests : List Request)
    (hrequests : ∀ request ∈ requests, request.InRange) (level level' : LogLevel)
    (hroom : level = .debug ∨ level' = .debug → (session.withLevel .debug).HasRoom requests) :
    List.Forall₂ (fun step step' => step'.1 = step.1 ∧ step.2.LooksLike step'.2)
      ((session.withLevel level).answers requests)
      ((session.withLevel level').answers requests) := by
  have hdebug (other : LogLevel) (hroom : (session.withLevel .debug).HasRoom requests) :
      List.Forall₂ (fun step step' => step'.1 = step.1 ∧ step.2.LooksLike step'.2)
        ((session.withLevel .debug).answers requests)
        ((session.withLevel other).answers requests) :=
    (LooksLike.withLevel session .debug other).answers (.inr ⟨rfl, hroom, hchain, hrequests⟩)
  by_cases hlevel : level = .debug
  · subst hlevel
    exact hdebug level' (hroom (.inl rfl))
  by_cases hlevel' : level' = .debug
  · subst hlevel'
    refine (hdebug level (hroom (.inr rfl))).flip.imp fun step step' h => ?_
    exact ⟨h.1.symm, h.2.symm⟩
  · have halike := (admits_debug_of_ne hlevel).trans (admits_debug_of_ne hlevel').symm
    exact (LooksLike.withLevel session level level').answers (.inl halike)

/-- A lambda is defined and then called by a file. Level debug shows both for the log. -/
theorem log_level_does_not_show_lambda :
    let session := Session.start .none false
    let requests : List Request :=
      [.eval "(fn f x x)", .runFile "a" (.ok "(f true)".toUTF8.toList)]
    session.machine.chain.Binds Value.InRange ∧ (∀ request ∈ requests, request.InRange) ∧
      (session.withLevel .debug).HasRoom requests ∧
      List.Forall₂ (fun step step' => step'.1 = step.1 ∧ step.2.LooksLike step'.2)
        ((session.withLevel .none).answers requests)
        ((session.withLevel .debug).answers requests) := by
  intro session requests
  have hchain : session.machine.chain.Binds Value.InRange := inRange_start .none false
  have hrequests : ∀ request ∈ requests, request.InRange := by
    simp [requests, Request.InRange]
  let entry : LogRecord := ⟨.debug, .functionForm, "defined f as (lambda x x)"⟩
  let defined : Session :=
    { machine :=
        { chain := { own := initialFrame ++ [("f", .lambda 7 ["x"] (.symbol "x"))] }
          log := [entry]
          level := .debug
          next := 8 } }
  have heval : (session.withLevel .debug).eval "(fn f x x)" = (.ok [.boolean true], defined) := by
    have hparse : parseAll session.limit session.machine.next (tokenize "(fn f x x)") =
        .ok [.list [.symbol "fn", .symbol "f", .symbol "x", .symbol "x"]] := rfl
    rw [Session.eval, @runText_of_parse_ok _ (session.withLevel .debug) _ _ _ hparse]
    rfl
  have hterms : readTerms (Text.linesOf Text.isFileBreak "(f true)".toList) = .ok ["(f true)"] :=
    rfl
  have hread : readSource "(f true)".toUTF8.toList = .ok ["(f true)"] := by
    rw [readSource_toUTF8, hterms]
    rfl
  have hattempts : (defined.announced "a" 1).attempts ["(f true)"] = [.ok ()] := by
    have hparse : parseAll defined.limit (defined.announced "a" 1).machine.next
        (tokenize "(f true)") = .ok [.list [.symbol "f", .boolean true]] := rfl
    have hrun : ((defined.announced "a" 1).runTerm "(f true)").1 = .ok () := by
      rw [@runTerm_of_parse_ok (defined.announced "a" 1) _ _ hparse]
      rfl
    rcases hterm : (defined.announced "a" 1).runTerm "(f true)" with ⟨result, ended⟩
    rw [hterm] at hrun
    obtain rfl : result = .ok () := hrun
    rw [attempts_of_success hterm, attempts]
  have hdefines : (session.withLevel .debug).HasRoomFor (.eval "(fn f x x)") := by
    rw [HasRoomFor, heval]
    intro h
    cases h
  have hcalls : defined.HasRoomFor (.runFile "a" (.ok "(f true)".toUTF8.toList)) := by
    intro bytes terms hopened hterms'
    obtain rfl := Except.ok.inj hopened
    obtain rfl := Except.ok.inj (hread.symm.trans hterms')
    rw [List.length_singleton, hattempts]
    simp
  have hanswer : ((session.withLevel .debug).answer (.eval "(fn f x x)")).2 = defined := by
    rw [answer, heval]
  have hroom : (session.withLevel .debug).HasRoom requests := by
    dsimp only [requests]
    rw [HasRoom, HasRoom, HasRoom, hanswer]
    exact ⟨hdefines, hcalls, trivial⟩
  exact ⟨hchain, hrequests, hroom,
    log_level_does_not_show session hchain requests hrequests .none .debug fun _ => hroom⟩

end Session

end SetLisp
