import SetLisp.Proofs.Session.Attempts
import SetLisp.Proofs.Session.FileRun

/-!
# Keeping going

A run that keeps going does what one that stops at the first failure does, and goes on from there.
What was printed, recorded and bound at the failure stays in front of what comes of the terms behind
it, and each of these is run in the session that all terms in front of it have left.
-/

namespace SetLisp

open Eval

theorem Machine.GrowsTo.errors_prefix {before after : Machine} (h : before.GrowsTo after) :
    before.errors <+: after.errors :=
  (h.log_prefix.filter _).map _

namespace Eval

/-- An action halts if a part of it does. -/
theorem outcome_bind_halts_iff {α β : Type} (action : Eval α) (next : α → Eval β)
    (machine : Machine) :
    (∃ halt, ((action >>= next).outcome machine).1 = .error halt) ↔
      (∃ halt, (action.outcome machine).1 = .error halt) ∨
        ∃ value, (action.outcome machine).1 = .ok value ∧
          ∃ halt, ((next value).outcome (action.outcome machine).2).1 = .error halt := by
  rw [outcome_bind]
  rcases action.outcome machine with ⟨halt | value, after⟩ <;> simp

/-- Values cannot be shown together if one of them cannot be shown. -/
theorem outcome_textsOf_halts_iff (room : Nat) (values : List Value) (machine : Machine) :
    (∃ halt, ((textsOf room values).outcome machine).1 = .error halt) ↔
      ∃ value ∈ values, value.textFault? room ≠ none := by
  induction values with
  | nil => simp [textsOf]
  | cons value rest ih =>
      have hcons : (∃ other ∈ value :: rest, other.textFault? room ≠ none) ↔
          value.textFault? room ≠ none ∨ ∃ other ∈ rest, other.textFault? room ≠ none := by simp
      rw [textsOf, outcome_bind_halts_iff, hcons]
      cases hfault : value.textFault? room with
      | some fault => cases fault <;> simp [textOf, hfault]
      | none =>
          have htext : (textOf room value).outcome machine = (.ok value.text, machine) := by
            rw [textOf, hfault]
            rfl
          have hrest : (∃ halt, ((textsOf room rest >>= fun texts =>
                pure (value.text :: texts)).outcome machine).1 = .error halt) ↔
              ∃ halt, ((textsOf room rest).outcome machine).1 = .error halt := by
            rw [outcome_bind_halts_iff]
            simp
          rw [htext]
          simpa using hrest.trans ih

end Eval

namespace Session

/-- A term fails when it is parsed, when one of its expressions is evaluated, or when a value is to
be shown. What a session shows for its log while it debugs belongs to the evaluation. -/
inductive TermFails (session : Session) (term : String) : Prop
  | parsing {failure : ParseFailure}
      (hparse : parseAll session.limit session.machine.next (tokenize term) = .error failure)
  | evaluation {exprs : List Value} {halt : Halt}
      (hparse : parseAll session.limit session.machine.next (tokenize term) = .ok exprs)
      (heval : ((evaluateRecorded session.limit exprs).outcome
        (session.machine.skip (tokenize term).length)).1 = .error halt)
  | rendering {exprs : List Value} {pairs : List (Value × Value)} {pair : Value × Value}
      (hparse : parseAll session.limit session.machine.next (tokenize term) = .ok exprs)
      (heval : ((evaluateRecorded session.limit exprs).outcome
        (session.machine.skip (tokenize term).length)).1 = .ok pairs)
      (hpair : pair ∈ pairs) (hfault : pair.2.textFault? session.limit ≠ none)

/-- How many of the terms fail, each run in the session that all terms in front of it have left,
those that failed included. -/
inductive CountsFailures : Session → List String → Nat → Prop
  | nil (session : Session) : CountsFailures session [] 0
  | shown {session : Session} {term : String} {rest : List String} {count : Nat}
      (hterm : ¬ session.TermFails term)
      (hrest : CountsFailures (session.runTerm term).2 rest count) :
      CountsFailures session (term :: rest) count
  | failed {session : Session} {term : String} {rest : List String} {count : Nat}
      (hterm : session.TermFails term)
      (hrest : CountsFailures (session.runTerm term).2 rest count) :
      CountsFailures session (term :: rest) (count + 1)

variable {session ended : Session} {term : String} {terms : List String}

theorem termFails_iff :
    session.TermFails term ↔ ∃ failure, (session.runTerm term).1 = .error failure := by
  rw [runTerm_eq]
  cases hparse : parseAll session.limit session.machine.next (tokenize term) with
  | error failure =>
      rw [runText_of_parse_error _ hparse]
      exact iff_of_true (.parsing hparse) ⟨_, rfl⟩
  | ok exprs =>
      rw [runText_of_parse_ok _ hparse, run_eq]
      have hmap {result : Except Halt Unit} :
          (∃ failure, result.mapError Failure.ofHalt = .error failure) ↔
            ∃ halt, result = .error halt := by
        cases result <;> simp [Except.mapError]
      dsimp only
      rw [hmap, showEach, outcome_bind_halts_iff]
      constructor
      · rintro (hparse' | ⟨hparse', heval⟩ | ⟨hparse', heval, hpair, hfault⟩)
        · cases hparse.symm.trans hparse'
        · obtain rfl := Except.ok.inj (hparse.symm.trans hparse')
          exact .inl ⟨_, heval⟩
        · obtain rfl := Except.ok.inj (hparse.symm.trans hparse')
          refine .inr ⟨_, heval, ?_⟩
          rw [outcome_bind_halts_iff, outcome_textsOf_halts_iff]
          exact .inl ⟨_, List.mem_map_of_mem hpair, hfault⟩
      · rintro (⟨halt, heval⟩ | ⟨pairs, heval, hshows⟩)
        · exact .evaluation hparse heval
        · rw [outcome_bind_halts_iff, outcome_textsOf_halts_iff] at hshows
          obtain ⟨value, hvalue, hfault⟩ | ⟨texts, -, halt, hwrite⟩ := hshows
          · obtain ⟨pair, hpair, rfl⟩ := List.mem_map.mp hvalue
            exact .rendering hparse heval hpair hfault
          · cases hwrite

/-- A session that keeps going tallies the terms that fail. -/
theorem exists_countsFailures (hgoes : session.keepGoing = true)
    (hrange : ∀ fault, .error (.fault fault) ∉ session.attempts terms) :
    ∃ count, tally (session.attempts terms) = .ok count ∧ CountsFailures session terms count := by
  induction terms generalizing session with
  | nil => exact ⟨0, rfl, .nil session⟩
  | cons term rest ih =>
      have hgoes' := (keepGoing_runTerm session term).trans hgoes
      rcases hterm : session.runTerm term with ⟨failure | ⟨⟩, ended⟩
      · have hfails : session.TermFails term := termFails_iff.mpr ⟨failure, by rw [hterm]⟩
        have hfailure (fault : Fault) : failure ≠ .fault fault := by
          rintro rfl
          refine hrange fault ?_
          rw [attempts, hterm]
          exact List.mem_cons_self
        rw [hterm] at hgoes'
        rw [attempts_of_failure hterm hfailure, if_pos hgoes'] at hrange ⊢
        obtain ⟨count, htally, hcounts⟩ := ih hgoes' fun fault hmem =>
          hrange fault (List.mem_cons_of_mem _ hmem)
        refine ⟨count + 1, ?_, .failed hfails (by rwa [hterm])⟩
        rw [tally_of_failure hfailure, htally]
        rfl
      · have hshows : ¬ session.TermFails term := by
          rw [termFails_iff, hterm]
          rintro ⟨failure, h⟩
          cases h
        rw [hterm] at hgoes'
        rw [attempts_of_success hterm] at hrange ⊢
        obtain ⟨count, htally, hcounts⟩ := ih hgoes' fun fault hmem =>
          hrange fault (List.mem_cons_of_mem _ hmem)
        exact ⟨count, htally, .shown hshows (by rwa [hterm])⟩

section File

variable {path : String} {bytes : List UInt8} (hgoes : session.keepGoing = true)
  (hchain : session.machine.chain.Binds Value.InRange)

include hgoes hchain

theorem exists_count_runFile (terms : List String) (hread : readSource bytes = .ok terms) :
    ∃ count, (session.runFile path (.ok bytes)).1 = .ok count ∧
      CountsFailures (session.announced path terms.length) terms count := by
  rw [runFile_of_readSource_ok session path hread, runTerms_eq_tally]
  refine exists_countsFailures hgoes (attempts_inRange ?_)
  rwa [chain_announced]

theorem runFile_ne_fault (path : String) (bytes : List UInt8) (fault : Fault) :
    (session.runFile path (.ok bytes)).1 ≠ .error (.fault fault) := by
  intro h
  cases hread : readSource bytes with
  | error message =>
      rw [runFile_of_readSource_error session path hread] at h
      cases h
  | ok terms =>
      obtain ⟨count, hcount, -⟩ := exists_count_runFile hgoes hchain terms hread
      cases hcount.symm.trans h

end File

/-! ### Two runs -/

/-- How a run that keeps going continues one that stops, where both start with these errors. Either
nothing fails and they are alike, or it goes on behind the failure that stops the other. -/
inductive Continues (errors : List String) :
    Except RunFailure Nat × Session → Except RunFailure Nat × Session → Prop
  | alike {result : Except RunFailure Nat} {stopped gone : Session}
      (hresult : result = .ok 0 ∨ ∃ fault, result = .error (.fault fault))
      (hmachine : gone.machine = stopped.machine) :
      Continues errors (result, stopped) (result, gone)
  | further {count : Except RunFailure Nat} {stopped gone : Session} (message : String)
      (herrors : stopped.machine.errors = errors ++ [message]) (hcount : count ≠ .ok 0)
      (hgrows : stopped.machine.GrowsTo gone.machine) :
      Continues errors (.ok 1, stopped) (count, gone)

theorem continues_runTerms (session : Session) (index : Nat) (terms : List String) :
    Continues session.machine.errors ((session.withKeepGoing false).runTerms index terms)
      ((session.withKeepGoing true).runTerms index terms) := by
  induction terms generalizing session index with
  | nil => exact .alike (.inl rfl) rfl
  | cons term rest ih =>
      have herrors := errors_runTerm session term
      have hstopping := runTerm_withKeepGoing session false term
      have hgoing := runTerm_withKeepGoing session true term
      rcases hterm : session.runTerm term with ⟨failure | ⟨⟩, ended⟩ <;>
        rw [hterm] at herrors hstopping hgoing
      · by_cases hfault : ∃ fault, failure = .fault fault
        · obtain ⟨fault, rfl⟩ := hfault
          rw [runTerms_of_fault index rest hstopping, runTerms_of_fault index rest hgoing]
          exact .alike (.inr ⟨fault, rfl⟩) rfl
        · have hfailure := not_exists.mp hfault
          rw [runTerms_of_failure hstopping hfailure rfl,
            runTerms_past_failure index rest hgoing hfailure rfl]
          let message := "term " ++ toString index ++ " " ++ abbreviate term ++ ": " ++
            failure.message
          let recorded := (ended.withKeepGoing true).record .error message
          refine .further message ?_ ?_ (runTerms_growsTo recorded (index + 1) rest)
          · exact (Machine.errors_record_error _ _ _).trans (congrArg (· ++ _) herrors)
          · change (recorded.runTerms (index + 1) rest).1.map (· + 1) ≠ .ok 0
            rcases (recorded.runTerms (index + 1) rest).1 with failure | count <;> nofun
      · rw [runTerms_of_success index rest hstopping, runTerms_of_success index rest hgoing,
          ← herrors]
        exact ih ended (index + 1)

theorem continues_runFile (session : Session) (path : String) (bytes : List UInt8) :
    Continues session.machine.errors ((session.withKeepGoing false).runFile path (.ok bytes))
      ((session.withKeepGoing true).runFile path (.ok bytes)) := by
  cases hread : readSource bytes with
  | error message =>
      rw [runFile_of_readSource_error _ path hread, runFile_of_readSource_error _ path hread]
      refine .further (Path.normal path ++ ": " ++ message) ?_ nofun .refl
      exact (Machine.errors_record_error _ _ _).trans
        (congrArg (· ++ _) (errors_record_info session _))
  | ok terms =>
      rw [runFile_of_readSource_ok _ path hread, runFile_of_readSource_ok _ path hread,
        ← errors_announced session path terms.length]
      exact continues_runTerms (session.announced path terms.length) 1 terms

/-- **Keeping going only continues.** A run without failures is the same whether the session keeps
going or not. Where a run stops with a failure, the one that keeps going has printed the same by
then, recorded the same error and bound the same names, and adds to that. If no integer is out of
range, there is no other way to end, and the run that keeps going counts the terms that fail, each
run in the session that all terms in front of it have left. -/
theorem keeping_going_only_continues (session : Session) (path : String) (bytes : List UInt8) :
    let stopping := (session.withKeepGoing false).runFile path (.ok bytes)
    let going := (session.withKeepGoing true).runFile path (.ok bytes)
    (stopping.1 = .ok 0 ↔ going.1 = .ok 0) ∧
    (stopping.1 ≠ .ok 1 → going.1 = stopping.1 ∧ going.2.machine = stopping.2.machine) ∧
    (stopping.1 = .ok 1 →
      (∃ printed, going.2.machine.output = stopping.2.machine.output ++ printed) ∧
      (∃ message others,
        stopping.2.machine.errors = session.machine.errors ++ [message] ∧
        going.2.machine.errors = session.machine.errors ++ message :: others) ∧
      stopping.2.machine.chain.own.names <+: going.2.machine.chain.own.names) ∧
    (session.machine.chain.Binds Value.InRange →
      (stopping.1 = .ok 0 ∨ stopping.1 = .ok 1) ∧
      ∀ terms, readSource bytes = .ok terms → ∃ count, going.1 = .ok count ∧
        CountsFailures ((session.withKeepGoing true).announced path terms.length) terms count) := by
  intro stopping going
  have hcontinues : Continues session.machine.errors stopping going :=
    continues_runFile session path bytes
  have hcounts (hchain : session.machine.chain.Binds Value.InRange) : ∀ terms,
      readSource bytes = .ok terms → ∃ count, going.1 = .ok count ∧
        CountsFailures ((session.withKeepGoing true).announced path terms.length) terms count :=
    @exists_count_runFile (session.withKeepGoing true) path bytes rfl hchain
  have hrange (hchain : session.machine.chain.Binds Value.InRange) :
      ∀ fault, going.1 ≠ .error (.fault fault) :=
    @runFile_ne_fault (session.withKeepGoing true) rfl hchain path bytes
  clear_value stopping going
  cases hcontinues with
  | alike hresult hmachine =>
      refine ⟨Iff.rfl, fun _ => ⟨rfl, hmachine⟩, ?_, fun hchain => ⟨?_, hcounts hchain⟩⟩
      · rintro rfl
        obtain hresult | ⟨fault, hresult⟩ := hresult <;> cases hresult
      · exact .inl (hresult.resolve_right (not_exists.mpr (hrange hchain)))
  | further message herrors hcount hgrows =>
      refine ⟨iff_of_false nofun hcount, fun hne => absurd rfl hne, fun _ => ⟨?_, ?_, ?_⟩,
        fun hchain => ⟨.inr rfl, hcounts hchain⟩⟩
      · exact hgrows.output_eq
      · obtain ⟨others, hothers⟩ := hgrows.errors_prefix
        refine ⟨message, others, herrors, ?_⟩
        rw [← hothers, herrors, List.append_assoc, List.singleton_append]
      · exact hgrows.names_prefix

/-- The first term fails behind what it bound and printed, the second shows what was bound, and the
third fails again. -/
theorem keeping_going_only_continues_behind_failure :
    let session := Session.start .none false
    let terms := ["(cons (define x (print true)) nope)", "x", "nope"]
    let bytes := "(cons (define x (print true)) nope) x nope".toUTF8.toList
    let stopping := (session.withKeepGoing false).runFile "a" (.ok bytes)
    let going := (session.withKeepGoing true).runFile "a" (.ok bytes)
    session.machine.chain.Binds Value.InRange ∧ readSource bytes = .ok terms ∧
      stopping.1 = .ok 1 ∧ stopping.2.machine.output = "true\n" ∧
      stopping.2.machine.chain.own.names = initialFrame.names ++ ["x"] ∧
      going.1 = .ok 2 ∧ going.2.machine.output = "true\ntrue\n" ∧
      (∃ printed, going.2.machine.output = stopping.2.machine.output ++ printed) ∧
      (∃ message others, stopping.2.machine.errors = [message] ∧
        going.2.machine.errors = message :: others) ∧
      stopping.2.machine.chain.own.names <+: going.2.machine.chain.own.names ∧
      CountsFailures ((session.withKeepGoing true).announced "a" 3) terms 2 := by
  intro session terms bytes stopping going
  have hrange : session.machine.chain.Binds Value.InRange := inRange_start .none false
  have hterms : readTerms (Text.linesOf Text.isFileBreak
      "(cons (define x (print true)) nope) x nope".toList) = .ok terms := rfl
  have hread : readSource bytes = .ok terms := by
    rw [readSource_toUTF8, hterms]
    rfl
  let failed (keepGoing : Bool) : Session :=
    { machine :=
        { chain := { own := initialFrame ++ [("x", .boolean true)] }
          output := "true\n"
          next := 14 }
      keepGoing := keepGoing }
  have hfirst (keepGoing : Bool) : ((session.withKeepGoing keepGoing).announced "a" 3).runTerm
      "(cons (define x (print true)) nope)" =
        (.error (.eval (.unknownSymbol "nope")), failed keepGoing) := by
    have hparse : parseAll session.limit session.machine.next
        (tokenize "(cons (define x (print true)) nope)") = .ok [.list [.symbol "cons",
          .list [.symbol "define", .symbol "x", .list [.symbol "print", .boolean true]],
          .symbol "nope"]] := rfl
    rw [@runTerm_of_parse_ok ((session.withKeepGoing keepGoing).announced "a" 3) _ _ hparse]
    rfl
  let recorded := (failed true).record .error
    "term 1 (cons (define x (print true)) nope): Unknown symbol nope"
  let shown : Session :=
    { recorded with machine := { recorded.machine with output := "true\ntrue\n", next := 15 } }
  have hsecond : recorded.runTerm "x" = (.ok (), shown) := by
    have hparse : parseAll recorded.limit recorded.machine.next (tokenize "x") =
        .ok [.symbol "x"] := rfl
    rw [runTerm_of_parse_ok hparse]
    rfl
  have hthird : shown.runTerm "nope" = (.error (.eval (.unknownSymbol "nope")),
      { shown with machine := shown.machine.skip 1 }) := by
    have hparse : parseAll shown.limit shown.machine.next (tokenize "nope") =
        .ok [.symbol "nope"] := rfl
    rw [runTerm_of_parse_ok hparse]
    rfl
  have hstopping : stopping = (.ok 1, (failed false).record .error
      "term 1 (cons (define x (print true)) nope): Unknown symbol nope") := by
    dsimp only [stopping]
    rw [runFile_of_readSource_ok _ "a" hread]
    exact runTerms_of_failure (hfirst false) nofun rfl 1 _
  have hgoing : going = (.ok 2, ({ shown with machine := shown.machine.skip 1 } : Session).record
      .error "term 3 nope: Unknown symbol nope") := by
    have hrest : recorded.runTerms 2 ["x", "nope"] = (.ok 1,
        ({ shown with machine := shown.machine.skip 1 } : Session).record .error
          "term 3 nope: Unknown symbol nope") := by
      rw [runTerms_of_success 2 _ hsecond, runTerms_past_failure 3 _ hthird nofun rfl]
      rfl
    dsimp only [going]
    rw [runFile_of_readSource_ok _ "a" hread]
    refine (runTerms_past_failure 1 _ (hfirst true) nofun rfl).trans ?_
    exact congrArg (fun run : Except RunFailure Nat × Session => (run.1.map (· + 1), run.2)) hrest
  obtain ⟨-, -, hprefix, hcounted⟩ := keeping_going_only_continues session "a" bytes
  obtain ⟨hprinted, herrors, hnames⟩ := hprefix (congrArg Prod.fst hstopping)
  obtain ⟨count, hcount, hcounts⟩ := (hcounted hrange).2 terms hread
  obtain rfl : 2 = count := Except.ok.inj ((congrArg Prod.fst hgoing).symm.trans hcount)
  refine ⟨hrange, hread, congrArg Prod.fst hstopping, ?_, ?_, congrArg Prod.fst hgoing, ?_,
    hprinted, herrors, hnames, hcounts⟩
  · rw [hstopping]
    rfl
  · rw [hstopping]
    rfl
  · rw [hgoing]
    rfl

end Session

end SetLisp
