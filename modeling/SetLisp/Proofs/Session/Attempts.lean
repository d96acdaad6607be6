import SetLisp.Proofs.Session.Agreement
import SetLisp.Proofs.Session.TermRun

namespace SetLisp.Session

open Eval

/-- Whether a run goes on to the next term. -/
def goesOnAfter (session : Session) : Except Failure Unit → Bool
  | .ok () => true
  | .error (.fault _) => false
  | .error _ => session.keepGoing

/-- What comes of the terms a run of the session comes to. -/
def attempts (session : Session) : List String → List (Except Failure Unit)
  | [] => []
  | term :: rest =>
      let (result, after) := session.runTerm term
      result :: if after.goesOnAfter result then after.attempts rest else []

/-- The result of a run with these attempts: it counts those that failed, unless one of them broke
the run. -/
def tally : List (Except Failure Unit) → Except RunFailure Nat
  | [] => .ok 0
  | .ok () :: rest => tally rest
  | .error (.fault fault) :: _ => .error (.fault fault)
  | .error _ :: rest => (tally rest).map (· + 1)

variable {session first second : Session} {term : String} {terms : List String}

theorem runTerm_withKeepGoing (session : Session) (keepGoing : Bool) (term : String) :
    (session.withKeepGoing keepGoing).runTerm term =
      ((session.runTerm term).1, (session.runTerm term).2.withKeepGoing keepGoing) := by
  rw [runTerm_eq, runTerm_eq]
  exact runText_withKeepGoing term keepGoing

theorem keepGoing_runTerm (session : Session) (term : String) :
    (session.runTerm term).2.keepGoing = session.keepGoing :=
  congrArg (·.2.keepGoing) (runTerm_withKeepGoing session session.keepGoing term)

theorem level_runTerm (session : Session) (term : String) :
    (session.runTerm term).2.machine.level = session.machine.level := by
  rw [runTerm_eq]
  exact level_runText term (ignoresLog_showEach session.limit)

theorem errors_runTerm (session : Session) (term : String) :
    (session.runTerm term).2.machine.errors = session.machine.errors := by
  rw [runTerm_eq]
  exact errors_runText term (ignoresLog_showEach session.limit)

theorem runTerm_growsTo (session : Session) (term : String) :
    session.machine.GrowsTo (session.runTerm term).2.machine := by
  rw [runTerm_eq]
  exact runText_growsTo term (truncates_showEach session.limit)

theorem runTerm_inRange (hchain : session.machine.chain.Binds Value.InRange) (term : String) :
    (session.runTerm term).2.machine.chain.Binds Value.InRange ∧
      ∀ fault, (session.runTerm term).1 ≠ .error (.fault fault) := by
  rw [runTerm_eq]
  obtain ⟨hafter, hresult, -⟩ := runText_sound term (fun _ hexprs =>
    sound_showEach Value.closed_inRange session.limit fun expr hexpr =>
      (hexprs expr hexpr).inRange) hchain
  exact ⟨hafter, hresult⟩

theorem AgreesWith.runTerm (h : first.AgreesWith second) (term : String)
    (hends : Settles first.machine.level second.machine.level (first.runTerm term).1) :
    (second.runTerm term).1 = (first.runTerm term).1 ∧
      (first.runTerm term).2.AgreesWith (second.runTerm term).2 := by
  rw [runTerm_eq] at hends
  rw [runTerm_eq, runTerm_eq, h.limit_eq]
  exact h.runText (ignoresLog_showEach first.limit) term hends

theorem goesOnAfter_error (session : Session) {failure : Failure}
    (hfailure : ∀ fault, failure ≠ .fault fault) :
    session.goesOnAfter (.error failure) = session.keepGoing := by
  cases failure with
  | fault fault => exact absurd rfl (hfailure fault)
  | parse error | eval error => rfl

theorem AgreesWith.goesOnAfter_eq (h : first.AgreesWith second) (result : Except Failure Unit) :
    second.goesOnAfter result = first.goesOnAfter result := by
  rcases result with (_ | _ | _) | _
  · exact h.keepGoing_eq
  · exact h.keepGoing_eq
  · rfl
  · rfl

/-- **Agreeing sessions come to the same attempts.** -/
theorem AgreesWith.attempts_eq (h : first.AgreesWith second)
    (hends : ∀ result ∈ first.attempts terms,
      Settles first.machine.level second.machine.level result) :
    second.attempts terms = first.attempts terms := by
  induction terms generalizing first second with
  | nil => rfl
  | cons term rest ih =>
      rw [attempts] at hends
      dsimp only at hends
      obtain ⟨hresult, hafter⟩ := h.runTerm term (hends _ List.mem_cons_self)
      rw [attempts, attempts]
      dsimp only
      rw [hresult, hafter.goesOnAfter_eq]
      split
      · next hgoes =>
          rw [ih hafter fun result hmem => ?_]
          rw [level_runTerm, level_runTerm]
          rw [if_pos hgoes] at hends
          exact hends result (List.mem_cons_of_mem _ hmem)
      · rfl

theorem attempts_record (session : Session) (severity : Severity) (message : String)
    (terms : List String) :
    (session.record severity message).attempts terms = session.attempts terms :=
  ((AgreesWith.refl session).record_right severity message).attempts_eq fun _ _ =>
    .inl (congrArg (LogLevel.admits · .debug) (session.machine.level_record _).symm)

theorem attempts_inRange (hchain : session.machine.chain.Binds Value.InRange) :
    ∀ fault, .error (.fault fault) ∉ session.attempts terms := by
  intro fault
  induction terms generalizing session with
  | nil => exact List.not_mem_nil
  | cons term rest ih =>
      obtain ⟨hafter, hresult⟩ := runTerm_inRange hchain term
      rw [attempts]
      dsimp only
      intro hmem
      rcases List.mem_cons.mp hmem with heq | hmem
      · exact hresult fault heq.symm
      · split at hmem
        · exact ih hafter hmem
        · exact List.not_mem_nil hmem

section Run

variable {ended : Session} (index : Nat) (rest : List String)

theorem runTerms_of_success (hterm : session.runTerm term = (.ok (), ended)) :
    session.runTerms index (term :: rest) = ended.runTerms (index + 1) rest := by
  rw [runTerms, hterm]

theorem runTerms_of_fault {fault : Fault}
    (hterm : session.runTerm term = (.error (.fault fault), ended)) :
    session.runTerms index (term :: rest) = (.error (.fault fault), ended) := by
  rw [runTerms, hterm]

/-- The first of the terms fails, and the session goes on. -/
theorem runTerms_past_failure {failure : Failure}
    (hterm : session.runTerm term = (.error failure, ended))
    (hfailure : ∀ fault, failure ≠ .fault fault)
    (hgoes : ended.keepGoing = true) :
    session.runTerms index (term :: rest) =
      let going := (ended.record .error
        ("term " ++ toString index ++ " " ++ abbreviate term ++ ": " ++ failure.message)).runTerms
          (index + 1) rest
      (going.1.map (· + 1), going.2) := by
  have hgoes' (message : String) : (ended.record .error message).keepGoing = true := hgoes
  rw [runTerms, hterm]
  cases failure with
  | fault fault => exact absurd rfl (hfailure fault)
  | parse error | eval error =>
      dsimp only
      rw [hgoes', if_pos rfl]

end Run

theorem attempts_of_success {ended : Session} (hterm : session.runTerm term = (.ok (), ended))
    (rest : List String) : session.attempts (term :: rest) = .ok () :: ended.attempts rest := by
  rw [attempts, hterm]
  rfl

theorem attempts_of_failure {ended : Session} {failure : Failure}
    (hterm : session.runTerm term = (.error failure, ended))
    (hfailure : ∀ fault, failure ≠ .fault fault)
    (rest : List String) :
    session.attempts (term :: rest) =
      .error failure :: if ended.keepGoing then ended.attempts rest else [] := by
  rw [attempts, hterm]
  dsimp only
  rw [ended.goesOnAfter_error hfailure]

theorem tally_of_failure {failure : Failure} (hfailure : ∀ fault, failure ≠ .fault fault)
    (rest : List (Except Failure Unit)) :
    tally (.error failure :: rest) = (tally rest).map (· + 1) := by
  cases failure with
  | fault fault => exact absurd rfl (hfailure fault)
  | parse error | eval error => rfl

/-- **A run tallies its attempts.** -/
theorem runTerms_eq_tally (session : Session) (index : Nat) (terms : List String) :
    (session.runTerms index terms).1 = tally (session.attempts terms) := by
  fun_induction runTerms session index terms with
  | case1 => rfl
  | case2 session index term rest ended hterm ih =>
      rw [attempts_of_success hterm, ih]
      rfl
  | case3 session index term rest fault ended hterm =>
      rw [attempts, hterm]
      rfl
  | case4 session index term rest failure ended hfailure hterm recorded hgoes count gone hrest ih =>
      have hgoes' : ended.keepGoing = true := hgoes
      rw [hrest, attempts_record] at ih
      rw [attempts_of_failure hterm hfailure, if_pos hgoes', tally_of_failure hfailure, ← ih]
  | case5 session index term rest failure ended hfailure hterm recorded hstops =>
      have hstops' : ¬ ended.keepGoing = true := hstops
      rw [attempts_of_failure hterm hfailure, if_neg hstops', tally_of_failure hfailure]
      rfl

section Keeps

variable {keeps : Session → Session → Prop} (hrefl : ∀ session, keeps session session)
  (htrans : ∀ {before middle after}, keeps before middle → keeps middle after → keeps before after)
  (hterm : ∀ (session : Session) (term : String), keeps session (session.runTerm term).2)
  (hrecord : ∀ (session : Session) (severity : Severity) (message : String),
    keeps session (session.record severity message))

include hrefl htrans hterm hrecord

/-- A run keeps what every term and every record keep. -/
theorem runTerms_keeps (session : Session) (index : Nat) (terms : List String) :
    keeps session (session.runTerms index terms).2 := by
  have hended {session ended : Session} {term : String} {result : Except Failure Unit}
      (h : session.runTerm term = (result, ended)) : keeps session ended := by
    have hkeeps := hterm session term
    rwa [h] at hkeeps
  fun_induction runTerms session index terms with
  | case1 session => exact hrefl session
  | case2 session index term rest ended h ih => exact htrans (hended h) ih
  | case3 session index term rest fault ended h => exact hended h
  | case4 session index term rest failure ended _ h recorded _ count gone hrest ih =>
      rw [hrest] at ih
      exact htrans (htrans (hended h) (hrecord ended _ _)) ih
  | case5 session index term rest failure ended _ h => exact htrans (hended h) (hrecord ended _ _)

theorem runFile_keeps (session : Session) (path : String)
    (opened : Except OpenFailure (List UInt8)) :
    keeps session (session.runFile path opened).2 := by
  let announced := session.record .info ("reading " ++ Path.normal path)
  have hannounced : keeps session announced := hrecord session _ _
  cases opened with
  | error failure => exact hannounced
  | ok bytes =>
      refine htrans hannounced ?_
      change keeps announced (announced.runBytesTo none path bytes).2.2
      rw [runBytesTo]
      cases readSource bytes with
      | error message => exact hrecord announced _ _
      | ok terms =>
          exact htrans (hrecord announced _ _)
            (runTerms_keeps hrefl htrans hterm hrecord _ 1 terms)

end Keeps

theorem runTerms_growsTo (session : Session) (index : Nat) (terms : List String) :
    session.machine.GrowsTo (session.runTerms index terms).2.machine := by
  let keeps (before after : Session) : Prop := before.machine.GrowsTo after.machine
  exact @runTerms_keeps keeps (fun _ => .refl) .trans runTerm_growsTo (fun _ _ _ => .record _)
    session index terms

end SetLisp.Session
