import SetLisp.Proofs.Eval.Faults
import SetLisp.Proofs.Eval.Soundness
import SetLisp.Proofs.Session.TermRun
import SetLisp.Proofs.Source.Decoding

/-!
# Running a file is evaluating its text

A session that runs a file comes to the same values, prints and bindings as one that evaluates the
text of the file, and fails where the other fails. Only identities are handed out in another order,
so the bindings are the same up to those handed out since.
-/

namespace SetLisp

open Eval Function

variable {ρ : Nat → Nat}

namespace Machine

/-- Both machines have come from `start` and have the same bindings, up to identities handed out
since. -/
def SameBindings (start first second : Machine) : Prop :=
  ∃ ρ, Injective ρ ∧ (∀ id < start.next, ρ id = id) ∧ second.chain = first.chain.renamed ρ

end Machine

theorem sound_evaluateAll (room : Nat) {exprs : List Value}
    (hexprs : ∀ expr ∈ exprs, expr.IsExpression) :
    Sound Value.WellFormed (fun values => ∀ value ∈ values, value.WellFormed)
      (evaluateAll room exprs) :=
  Value.closed_wellFormed.sound_evaluateAll room hexprs

theorem Passes.wellFormed {room : Nat} {machine after : Machine} {groups : List (List Value)}
    {passages : List Passage} (h : Passes room machine groups passages after)
    (hchain : machine.chain.WellFormed)
    (hexprs : ∀ group ∈ groups, ∀ expr ∈ group, expr.IsExpression) :
    ∀ passage ∈ passages, ∀ value ∈ passage.values, value.WellFormed := by
  induction h with
  | nil => simp
  | @cons machine middle after group groups passage passages hgroup _ ih =>
      obtain ⟨hmiddle, hvalues⟩ :=
        sound_evaluateAll room (hexprs group List.mem_cons_self) machine hchain
      rw [hgroup.outcome_eq] at hmiddle hvalues
      rintro other (_ | ⟨_, hother⟩)
      · exact hvalues
      · exact ih hmiddle (fun group hmem => hexprs group (List.mem_cons_of_mem _ hmem)) other hother

namespace Session

theorem readSource_toUTF8 (text : String) :
    readSource text.toUTF8.toList =
      (readTerms (Text.linesOf Text.isFileBreak text.toList)).mapError ReaderError.message := by
  rw [readSource, decodeSource_toUTF8]

/-- The session in which the terms of a file are run, with what is recorded before. -/
def announced (session : Session) (path : String) (count : Nat) : Session :=
  (session.record .info ("reading " ++ Path.normal path)).record .info
    ("evaluating " ++ toString count ++ " term(s)")

section Read

variable {bytes : List UInt8} (session : Session) (path : String)

/-- A file that cannot be read is only recorded. -/
theorem runFile_of_readSource_error {message : String} (h : readSource bytes = .error message) :
    session.runFile path (.ok bytes) =
      (.ok 1, (session.record .info ("reading " ++ Path.normal path)).record .error
        (Path.normal path ++ ": " ++ message)) := by
  rw [runFile, runFileTo, runBytesTo, h]

theorem runFile_of_readSource_ok {terms : List String} (h : readSource bytes = .ok terms) :
    session.runFile path (.ok bytes) =
      (session.announced path terms.length).runTerms 1 terms := by
  rw [runFile, runFileTo, runBytesTo, h]
  rfl

theorem runFile_toUTF8 {text : String} {terms : List String}
    (h : readTerms (Text.linesOf Text.isFileBreak text.toList) = .ok terms) :
    session.runFile path (.ok text.toUTF8.toList) =
      (session.announced path terms.length).runTerms 1 terms := by
  apply runFile_of_readSource_ok
  rw [readSource_toUTF8, h]
  rfl

end Read

theorem InStep.announced {session : Session} {machine : Machine} {place : Nat}
    {terms : List String} {groups : List (List Value)} {draws : List Nat}
    (h : InStep ρ session machine place terms groups draws) (path : String) (count : Nat) :
    InStep ρ (session.announced path count) machine place terms groups draws :=
  (h.record _ _).record _ _

theorem chain_announced (session : Session) (path : String) (count : Nat) :
    (session.announced path count).machine.chain = session.machine.chain := by
  rw [announced, record, Machine.chain_record, record, Machine.chain_record]

theorem output_announced (session : Session) (path : String) (count : Nat) :
    (session.announced path count).machine.output = session.machine.output := by
  rw [announced, record, Machine.output_record, record, Machine.output_record]

theorem errors_record_info (session : Session) (message : String) :
    (session.record .info message).machine.errors = session.machine.errors :=
  session.machine.errors_record_of_ne nofun

theorem errors_announced (session : Session) (path : String) (count : Nat) :
    (session.announced path count).machine.errors = session.machine.errors := by
  rw [announced, errors_record_info, errors_record_info]

/-! ### From the forms to the run -/

/-- Where the run of a file ends, seen from a machine that has evaluated the text of the file from
the same session on: the bindings are the same, and a text has been written and errors recorded. -/
structure Leaves (session : Session) (evaluated : Machine) (ran : Session) (written : String)
    (errors : List String) : Prop where
  bindings : session.machine.SameBindings evaluated ran.machine
  output : ran.machine.output = session.machine.output ++ written
  errors : ran.machine.errors = session.machine.errors ++ errors

section Run

variable {session : Session} {text : String} {terms : List String} {passages : List Passage}
  {after : Machine}

theorem runFile_of_passes {groups : List (List Value)} (hfresh : session.machine.Fresh)
    (hquiet : session.machine.level.admits .debug = false)
    (hterms : readTerms (Text.linesOf Text.isFileBreak text.toList) = .ok terms)
    (hread : ReadsInGroups session.limit session.machine.next terms groups)
    (hpasses : Passes session.limit (session.machine.skip (terms.flatMap tokenize).length) groups
      passages after)
    (hshown : ∀ passage ∈ passages, ∀ value ∈ passage.values,
      value.textFault? session.limit = none) (path : String) :
    ∃ ran, session.runFile path (.ok text.toUTF8.toList) = (.ok 0, ran) ∧
      session.Leaves after ran (String.join (passages.map Passage.shown)) [] := by
  have hdraws : groups.length = (passages.map Passage.drawn ++ []).length := by
    rw [List.append_nil, List.length_map, hpasses.length_eq]
  obtain ⟨ρ, hfixed, hstep⟩ := exists_inStep hfresh hread hdraws
  rw [← List.append_nil groups] at hstep
  obtain ⟨done, rest, place, ended, heq, -, hrun, hlast, houtput, herrors⟩ :=
    InStep.runTerms_of_passes hpasses (hstep.announced path terms.length) hquiet rfl hshown 1
  obtain rfl : rest = [] := by
    cases hlast.read
    rfl
  rw [List.append_nil] at heq
  refine ⟨_, (runFile_toUTF8 session path hterms).trans hrun, ?_, ?_, ?_⟩
  · exact ⟨ρ, hlast.injective, hfixed, hlast.chain_eq⟩
  · exact houtput.trans (congrArg (· ++ _) (output_announced session path terms.length))
  · rw [List.append_nil, herrors]
    exact errors_announced session path terms.length

theorem runFile_of_haltsAfter {groups : List (List Value)} {printed : String} {halt : Halt}
    (hfresh : session.machine.Fresh) (hquiet : session.machine.level.admits .debug = false)
    (hstops : session.keepGoing = false)
    (hterms : readTerms (Text.linesOf Text.isFileBreak text.toList) = .ok terms)
    (hread : ReadsInGroups session.limit session.machine.next terms groups)
    (hhalts : HaltsAfter session.limit (session.machine.skip (terms.flatMap tokenize).length) groups
      passages printed halt after)
    (hshown : ∀ passage ∈ passages, ∀ value ∈ passage.values,
      value.textFault? session.limit = none)
    (hhalt : ∀ fault, Failure.ofHalt halt ≠ .fault fault) (path : String) :
    ∃ done term rest ran, terms = done ++ term :: rest ∧ done.length = passages.length ∧
      session.runFile path (.ok text.toUTF8.toList) = (.ok 1, ran) ∧
      session.Leaves after ran (String.join (passages.map Passage.shown) ++ printed)
        ["term " ++ toString (1 + done.length) ++ " " ++ abbreviate term ++ ": " ++
          (Failure.ofHalt halt).message] := by
  obtain ⟨before, group, behind, middle, rfl, hpasses, hgroup, hprinted⟩ := hhalts
  have hmiddle := hpasses.quiet (hquiet : (session.machine.skip _).level.admits .debug = false)
  obtain ⟨-, -, -, drawn, -, hdrawn⟩ := exists_printed hmiddle hgroup
  -- what the groups behind draw does not matter, as they are not run
  have hdraws : (before ++ group :: behind).length =
      (passages.map Passage.drawn ++ drawn :: behind.map fun _ => 0).length := by
    simp [hpasses.length_eq]
  obtain ⟨ρ, hfixed, hstep⟩ := exists_inStep hfresh hread hdraws
  obtain ⟨done, term, rest, halted, heq, hlength, hrun, hchain, houtput, herrors⟩ :=
    InStep.runTerms_of_halt hpasses hgroup hprinted hdrawn (hstep.announced path terms.length)
      hquiet rfl hshown hhalt hstops 1
  refine ⟨done, term, rest, _, heq, hlength.trans hpasses.length_eq.symm,
    (runFile_toUTF8 session path hterms).trans hrun, ?_, ?_, ?_⟩
  · refine ⟨ρ, hstep.injective, hfixed, ?_⟩
    rw [record, Machine.chain_record]
    exact hchain
  · rw [record, Machine.output_record]
    exact houtput.trans (congrArg (· ++ _) (output_announced session path terms.length))
  · rw [record, Machine.errors_record_error]
    refine congrArg (· ++ _) ?_
    rw [herrors]
    exact errors_announced session path terms.length

/-- **A file is run like its text is evaluated.** The terms of a text that the parser accepts hold
its forms in groups. If all forms have values, the run of a file with the text counts no failure and
shows the values passage by passage, each behind what was printed for it. If a form fails, the run
counts one failure and records it, and of the term it fails in it shows what was printed only.

Values that cannot be shown are left aside; where all that is bound is well-formed, only want of
room can be in the way. -/
theorem runFile_follows_eval {exprs : List Value} (hfresh : session.machine.Fresh)
    (hquiet : session.machine.level.admits .debug = false) (hstops : session.keepGoing = false)
    (hparse : parseAll session.limit session.machine.next (tokenize text) = .ok exprs)
    (path : String) :
    ∃ terms groups, readTerms (Text.linesOf Text.isFileBreak text.toList) = .ok terms ∧
      ReadsInGroups session.limit session.machine.next terms groups ∧ groups.flatten = exprs ∧
      (∀ values evaluated, session.eval text = (.ok values, evaluated) →
        ∃ passages, values = passages.flatMap Passage.values ∧
          Passes session.limit (session.machine.skip (tokenize text).length) groups passages
            evaluated.machine ∧
          ((∀ value ∈ values, value.textFault? session.limit = none) →
            ∃ ran, session.runFile path (.ok text.toUTF8.toList) = (.ok 0, ran) ∧
              session.Leaves evaluated.machine ran (String.join (passages.map Passage.shown)) []) ∧
          (session.machine.chain.WellFormed → ∀ value ∈ values, value.Showable)) ∧
      (∀ failure evaluated, session.eval text = (.error failure, evaluated) →
        ∃ passages printed halt, failure = .ofHalt halt ∧
          HaltsAfter session.limit (session.machine.skip (tokenize text).length) groups passages
            printed halt evaluated.machine ∧
          ((∀ passage ∈ passages, ∀ value ∈ passage.values,
              value.textFault? session.limit = none) → failure ≠ .fault .integerTooLarge →
            ∃ done term rest ran, terms = done ++ term :: rest ∧ done.length = passages.length ∧
              session.runFile path (.ok text.toUTF8.toList) = (.ok 1, ran) ∧
              session.Leaves evaluated.machine ran
                (String.join (passages.map Passage.shown) ++ printed)
                ["term " ++ toString (1 + done.length) ++ " " ++ abbreviate term ++ ": " ++
                  failure.message]) ∧
          (session.machine.chain.WellFormed → (∀ fault, failure ≠ .fault fault) ∧
            ∀ passage ∈ passages, ∀ value ∈ passage.values, value.Showable)) := by
  obtain ⟨hderives, hnesting⟩ := parseAll_eq_ok_iff.mp hparse
  obtain ⟨terms, hterms, htokens, hisTerm⟩ :=
    exists_terms (fun c hc => TermReader.isBlank_of_isFileBreak hc) hderives
  have hexprs := hderives.isExpression fun token htoken => mem_tokenize htoken
  rw [← htokens] at hderives
  obtain ⟨groups, hread, rfl⟩ := exists_readsInGroups hderives hnesting hisTerm
  have hgroups : ∀ group ∈ groups, ∀ expr ∈ group, expr.IsExpression :=
    fun group hgroup expr hexpr => hexprs expr (List.mem_flatten.mpr ⟨group, hgroup, hexpr⟩)
  have hstart : (session.machine.skip (tokenize text).length).level.admits .debug = false := hquiet
  refine ⟨terms, groups, hterms, hread, rfl, ?_, ?_⟩
  · intro values evaluated heval
    obtain ⟨passages, hpasses, rfl⟩ := exists_passes hstart (outcome_of_eval_ok hparse heval)
    refine ⟨passages, rfl, hpasses, fun hshown => ?_, fun hchain value hvalue => ?_⟩
    · rw [← htokens] at hpasses
      refine runFile_of_passes hfresh hquiet hterms hread hpasses ?_ path
      intro passage hpassage value hvalue
      exact hshown value (List.mem_flatMap.mpr ⟨passage, hpassage, hvalue⟩)
    · obtain ⟨passage, hpassage, hvalue⟩ := List.mem_flatMap.mp hvalue
      exact (hpasses.wellFormed hchain hgroups passage hpassage value hvalue).showable
  · intro failure evaluated heval
    obtain ⟨halt, rfl, houtcome⟩ := outcome_of_eval_error hparse heval
    obtain ⟨passages, printed, hhalts⟩ := exists_haltsAfter hstart houtcome
    refine ⟨passages, printed, halt, rfl, hhalts, fun hshown hfailure => ?_, fun hchain => ⟨?_, ?_⟩⟩
    · rw [← htokens] at hhalts
      refine runFile_of_haltsAfter hfresh hquiet hstops hterms hread hhalts hshown ?_ path
      cases halt with
      | error | exhausted => exact nofun
      | fault fault =>
          obtain rfl := fault_of_evaluateAll houtcome
          exact absurd rfl hfailure
    · have hends := (sound_evaluateAll session.limit hexprs
        (session.machine.skip (tokenize text).length) hchain).2
      rw [houtcome] at hends
      cases halt with
      | error | exhausted => exact nofun
      | fault fault => exact absurd rfl (hends fault)
    · obtain ⟨before, group, behind, middle, rfl, hpasses, -⟩ := hhalts
      intro passage hpassage value hvalue
      refine (hpasses.wellFormed hchain ?_ passage hpassage value hvalue).showable
      exact fun group hgroup => hgroups group (List.mem_append_left _ hgroup)

end Run

/-- A run that shows what it prints in front of the value, and one that fails in its second term: of
this it shows only what was printed. -/
theorem runFile_follows_eval_printing :
    let session := Session.start .none false
    session.machine.Fresh ∧
      (∃ evaluated ran,
        session.eval "(print true)\nfalse" = (.ok [.boolean true, .boolean false], evaluated) ∧
        session.runFile "a" (.ok "(print true)\nfalse".toUTF8.toList) = (.ok 0, ran) ∧
        session.Leaves evaluated.machine ran "true\ntrue\nfalse\n" []) ∧
      ∃ evaluated ran,
        session.eval "false (cons (print true) nope)" =
          (.error (.eval (.unknownSymbol "nope")), evaluated) ∧
        session.runFile "a" (.ok "false (cons (print true) nope)".toUTF8.toList) = (.ok 1, ran) ∧
        session.Leaves evaluated.machine ran "false\ntrue\n"
          ["term 2 (cons (print true) nope): Unknown symbol nope"] := by
  intro session
  have hfresh : session.machine.Fresh := fresh_start .none false
  have hshown (value : Bool) : (Value.boolean value).textFault? session.limit = none := rfl
  let printing : Value := .list [.symbol "print", .boolean true]
  let failing : Value := .list [.symbol "cons", printing, .symbol "nope"]
  refine ⟨hfresh, ?_, ?_⟩
  · have hparse : parseAll session.limit session.machine.next (tokenize "(print true)\nfalse") =
        .ok [printing, .boolean false] := rfl
    have hterms : readTerms (Text.linesOf Text.isFileBreak "(print true)\nfalse".toList) =
        .ok ["(print true)", "false"] := rfl
    have hread : ReadsInGroups session.limit session.machine.next ["(print true)", "false"]
        [[printing], [.boolean false]] :=
      .cons rfl (.cons rfl .nil)
    have hpasses : Passes session.limit
        (session.machine.skip (tokenize "(print true)\nfalse").length)
        [[printing], [.boolean false]]
        [⟨"true\n", [.boolean true], 1⟩, ⟨"", [.boolean false], 0⟩] _ :=
      .cons ⟨rfl, rfl, rfl⟩ (.cons ⟨rfl, rfl, rfl⟩ .nil)
    have heval : session.eval "(print true)\nfalse" = (.ok [.boolean true, .boolean false], _) :=
      (eval_eq hparse).trans rfl
    obtain ⟨terms, groups, hterms', hread', -, hok, -⟩ :=
      runFile_follows_eval hfresh rfl rfl hparse "a"
    obtain rfl := Except.ok.inj (hterms.symm.trans hterms')
    obtain rfl := hread.unique hread'
    obtain ⟨passages, -, hpasses', hrun, -⟩ := hok _ _ heval
    obtain ⟨rfl, -⟩ := hpasses.unique hpasses'
    obtain ⟨ran, hran, hleaves⟩ := hrun (by simp [hshown])
    exact ⟨_, ran, heval, hran, hleaves⟩
  · have hparse : parseAll session.limit session.machine.next
        (tokenize "false (cons (print true) nope)") = .ok [.boolean false, failing] := rfl
    have hterms : readTerms
        (Text.linesOf Text.isFileBreak "false (cons (print true) nope)".toList) =
        .ok ["false", "(cons (print true) nope)"] := rfl
    have hread : ReadsInGroups session.limit session.machine.next
        ["false", "(cons (print true) nope)"] [[.boolean false], [failing]] :=
      .cons rfl (.cons rfl .nil)
    have hhalts : HaltsAfter session.limit
        (session.machine.skip (tokenize "false (cons (print true) nope)").length)
        [[.boolean false], [failing]] [⟨"", [.boolean false], 0⟩] "true\n"
        (.error (.unknownSymbol "nope")) _ :=
      ⟨[_], _, [], _, rfl, .cons ⟨rfl, rfl, rfl⟩ .nil, rfl, rfl⟩
    have heval : session.eval "false (cons (print true) nope)" =
        (.error (.eval (.unknownSymbol "nope")), _) :=
      (eval_eq hparse).trans rfl
    obtain ⟨terms, groups, hterms', hread', -, -, herror⟩ :=
      runFile_follows_eval hfresh rfl rfl hparse "a"
    obtain rfl := Except.ok.inj (hterms.symm.trans hterms')
    obtain rfl := hread.unique hread'
    obtain ⟨passages, printed, halt, -, hhalts', hrun, -⟩ := herror _ _ heval
    obtain ⟨rfl, rfl, -⟩ := hhalts.unique hhalts'
    obtain ⟨done, term, rest, ran, hsplit, hlength, hran, hleaves⟩ :=
      hrun (by simp [hshown]) nofun
    obtain ⟨first, rfl⟩ := List.length_eq_one_iff.mp hlength
    obtain ⟨-, hbehind⟩ := List.cons.inj hsplit
    obtain ⟨rfl, -⟩ := List.cons.inj hbehind
    rw [hlength] at hleaves
    exact ⟨_, ran, heval, hran, hleaves⟩

end Session

end SetLisp
