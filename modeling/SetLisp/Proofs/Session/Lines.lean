import SetLisp.Proofs.Reading.Regrouping
import SetLisp.Proofs.Session.Account
import SetLisp.Proofs.Session.FileRun
import SetLisp.Proofs.Session.Printouts
import SetLisp.Proofs.Value.OneLine

namespace SetLisp

open Eval

theorem endsLines_isTextBreak : EndsLines Text.isTextBreak :=
  ⟨by decide, by decide, fun _ => isBlank_of_isTextBreak⟩

theorem endsLines_lineFeed : EndsLines fun c => c == '\n' :=
  ⟨rfl, rfl, fun c hc => eq_of_beq hc ▸ by decide⟩

theorem toList_shownValues (values : List Value) :
    (shownValues values).toList = (values.map Value.chars).flatMap (· ++ ['\n']) := by
  induction values with
  | nil => rfl
  | cons value rest ih =>
      rw [shownValues, List.map_cons, String.join_cons, String.toList_append, String.toList_append,
        Value.toList_text, List.map_cons, List.flatMap_cons, ← ih]
      rfl

/-- Values that are shown come back as the lines of the text. -/
theorem linesOf_shownValues {values : List Value} (hvalues : ∀ value ∈ values, value.WellFormed)
    {isBreak : Char → Bool} (hbreak : EndsLines isBreak) :
    Text.linesOf isBreak (shownValues values).toList = values.map Value.chars := by
  rw [toList_shownValues]
  refine linesOf_flatMap (fun text htext => ?_) hbreak
  obtain ⟨value, hvalue, rfl⟩ := List.mem_map.mp htext
  exact (hvalues value hvalue).tidy

namespace Session

/-- Records a form with its value while the session debugs. -/
def noteValue (room : Nat) (expr value : Value) : Eval Unit := do
  if ← debugging then
    let shown ← textOf room expr
    Eval.record .debug .interpreter (shown ++ " -> " ++ (← textOf room value))

theorem silent_noteValue (room : Nat) (expr value : Value) :
    Silent (noteValue room expr value) := by
  refine silent_debugging.bind fun debug => ?_
  cases debug with
  | false => exact silent_pure ()
  | true =>
      refine (silent_textOf room expr).bind fun shown => ?_
      exact (silent_textOf room value).bind fun text => silent_record _ _ _

theorem sound_noteValue {expr value : Value} (hexpr : expr.Showable) (hvalue : value.Showable)
    (room : Nat) : Sound Value.WellFormed (fun _ => True) (noteValue room expr value) := by
  refine keeps_debugging.bind fun debug _ => ?_
  cases debug with
  | false => exact Keeps.pure trivial
  | true =>
      refine (sound_textOf hexpr room).bind fun shown _ => ?_
      exact (sound_textOf hvalue room).bind fun text _ => sound_record _ _ _

theorem evaluateRecorded_cons (room : Nat) (expr : Value) (rest : List Value) :
    evaluateRecorded room (expr :: rest) = (do
      let value ← SetLisp.evaluate room expr
      noteValue room expr value
      let pairs ← evaluateRecorded room rest
      return (expr, value) :: pairs) := by
  refine congrArg (SetLisp.evaluate room expr >>= ·) (funext fun value => ?_)
  rw [noteValue, bind_assoc]
  refine congrArg (debugging >>= ·) (funext fun debug => ?_)
  cases debug with
  | false => rfl
  | true => simp only [if_true, bind_assoc]

/-- The values that the forms of a term print. -/
def printoutOfRecorded (room : Nat) : List Value → Printout
  | [] => .nothing
  | expr :: rest =>
      (printout room expr).andThen (SetLisp.evaluate room expr) fun value =>
        Printout.nothing.andThen (noteValue room expr value) fun _ => printoutOfRecorded room rest

/-- The values that a term shows: what its forms print, and their own values if all of these can be
shown. -/
def printoutOfTerm (room : Nat) (exprs : List Value) : Printout :=
  (printoutOfRecorded room exprs).andThen (evaluateRecorded room exprs) fun pairs _ =>
    let values := pairs.map (·.2)
    if ∀ value ∈ values, value.textFault? room = none then values else []

theorem prints_evaluateRecorded (room : Nat) {exprs : List Value}
    (hexprs : ∀ expr ∈ exprs, expr.IsExpression) :
    Prints (evaluateRecorded room exprs) (printoutOfRecorded room exprs) := by
  induction exprs with
  | nil => exact (silent_pure []).prints
  | cons expr rest ih =>
      obtain ⟨hexpr, hrest⟩ := List.forall_mem_cons.mp hexprs
      rw [evaluateRecorded_cons]
      refine (prints_evaluate room hexpr).bind (sound_evaluate room hexpr) fun value hvalue => ?_
      have hnote := sound_noteValue hexpr.showable hvalue.showable room
      refine (silent_noteValue room expr value).prints.bind hnote fun _ _ => ?_
      exact (ih hrest).bind_silent fun pairs => silent_pure _

theorem prints_showEach (room : Nat) {exprs : List Value}
    (hexprs : ∀ expr ∈ exprs, expr.IsExpression) :
    Prints (showEach room exprs) (printoutOfTerm room exprs) := by
  refine (prints_evaluateRecorded room hexprs).bind
    (sound_evaluateRecorded Value.closed_wellFormed room hexprs) fun pairs hpairs => ?_
  intro machine _
  dsimp only
  split
  · next hshown =>
      rw [outcome_bind, outcome_textsOf hshown]
      dsimp only
      rw [join_texts]
      refine ⟨rfl, fun value hvalue => ?_⟩
      obtain ⟨pair, hpair, rfl⟩ := List.mem_map.mp hvalue
      exact hpairs pair hpair
  · next hshown =>
      have hfault : ∃ value ∈ pairs.map (·.2), value.textFault? room ≠ none := by
        simpa only [not_forall, exists_prop] using hshown
      obtain ⟨halt, hhalt⟩ := (outcome_textsOf_halts_iff room _ machine).mpr hfault
      have hsilent := (silent_textsOf room (pairs.map (·.2))).output_eq machine
      rcases htexts : (textsOf room (pairs.map (·.2))).outcome machine with ⟨_ | texts, after⟩
      · rw [htexts] at hsilent
        rw [outcome_bind, htexts]
        exact ⟨hsilent.trans String.append_empty.symm, nofun⟩
      · rw [htexts] at hhalt
        cases hhalt

/-- The values that running a term shows; a term that is refused shows none. -/
def shownByTerm (session : Session) (term : String) : List Value :=
  match parseAll session.limit session.machine.next (tokenize term) with
  | .error _ => []
  | .ok exprs =>
      printoutOfTerm session.limit exprs (session.machine.skip (tokenize term).length)

/-- The second session has written the values since the first, a line each; they and all it binds
are well-formed. -/
structure Lists (session : Session) (values : List Value) (after : Session) : Prop where
  output_eq : after.machine.output = session.machine.output ++ shownValues values
  wellFormed : ∀ value ∈ values, value.WellFormed
  chain : after.machine.chain.WellFormed

variable {session middle after : Session} {first second : List Value}

theorem Lists.nil (hchain : session.machine.chain.WellFormed) : session.Lists [] session :=
  ⟨String.append_empty.symm, nofun, hchain⟩

theorem Lists.append (hfirst : session.Lists first middle) (hsecond : middle.Lists second after) :
    session.Lists (first ++ second) after where
  output_eq := by
    rw [hsecond.output_eq, hfirst.output_eq, shownValues_append, String.append_assoc]
  wellFormed := List.forall_mem_append.mpr ⟨hfirst.wellFormed, hsecond.wellFormed⟩
  chain := hsecond.chain

theorem Lists.record (h : session.Lists first after) (severity : Severity) (message : String) :
    session.Lists first (after.record severity message) where
  output_eq := (after.machine.output_record _).trans h.output_eq
  wellFormed := h.wellFormed
  chain := (after.machine.chain_record _).symm ▸ h.chain

theorem lists_runTerm (hchain : session.machine.chain.WellFormed) (term : String) :
    session.Lists (session.shownByTerm term) (session.runTerm term).2 := by
  rw [shownByTerm]
  cases hparse : parseAll session.limit session.machine.next (tokenize term) with
  | error failure =>
      rw [runTerm_eq, runText_of_parse_error _ hparse]
      exact .nil hchain
  | ok exprs =>
      have hexprs := (parseAll_eq_ok_iff.mp hparse).1.isExpression
        fun token htoken => mem_tokenize htoken
      have hskipped : (session.machine.skip (tokenize term).length).chain.WellFormed := hchain
      obtain ⟨houtput, hgood⟩ := prints_showEach session.limit hexprs _ hskipped
      rw [runTerm_of_parse_ok hparse, run_eq]
      exact ⟨houtput, hgood,
        (sound_showEach Value.closed_wellFormed session.limit hexprs _ hskipped).1⟩

/-- The values that a run of the terms shows, from the one with the number on. -/
def shownByTerms (session : Session) (index : Nat) : List String → List Value
  | [] => []
  | term :: rest =>
      session.shownByTerm term ++
        match session.runTerm term with
        | (.ok (), after) => after.shownByTerms (index + 1) rest
        | (.error failure, after) =>
            if after.goesOnAfter (.error failure) then
              (after.record .error (termError index term failure)).shownByTerms (index + 1) rest
            else []

theorem lists_runTerms (hchain : session.machine.chain.WellFormed) (index : Nat)
    (terms : List String) :
    session.Lists (session.shownByTerms index terms) (session.runTerms index terms).2 := by
  fun_induction runTerms session index terms with
  | case1 session index => exact .nil hchain
  | case2 session index term rest ended hterm ih =>
      have hlists := lists_runTerm hchain term
      rw [hterm] at hlists
      rw [shownByTerms, hterm]
      exact hlists.append (ih hlists.chain)
  | case3 session index term rest fault ended hterm =>
      have hlists := lists_runTerm hchain term
      rw [hterm] at hlists
      rw [shownByTerms, hterm]
      exact hlists.append (.nil hlists.chain)
  | case4 session index term rest failure ended hfailure hterm recorded hgoes count gone hrest ih =>
      have hlists := lists_runTerm hchain term
      rw [hterm] at hlists
      have hrecorded := hlists.record .error (termError index term failure)
      have hgoesOn := (ended.goesOnAfter_error hfailure).trans hgoes
      rw [hrest] at ih
      rw [shownByTerms, hterm]
      dsimp only
      rw [if_pos hgoesOn]
      exact hrecorded.append (ih hrecorded.chain)
  | case5 session index term rest failure ended hfailure hterm recorded hstops =>
      have hlists := lists_runTerm hchain term
      rw [hterm] at hlists
      have hrecorded := hlists.record .error (termError index term failure)
      have hgoesOn : ¬ ended.goesOnAfter (.error failure) = true := by
        rwa [ended.goesOnAfter_error hfailure]
      rw [shownByTerms, hterm]
      dsimp only
      rw [if_neg hgoesOn]
      exact hrecorded.append (.nil hrecorded.chain)

/-- The values that running a file shows. -/
def shownByFile (session : Session) (path : String)
    (opened : Except OpenFailure (List UInt8)) : List Value :=
  match opened with
  | .error _ => []
  | .ok bytes =>
      match readSource bytes with
      | .error _ => []
      | .ok terms => (session.announced path terms.length).shownByTerms 1 terms

theorem lists_runFile (hchain : session.machine.chain.WellFormed) (path : String)
    (opened : Except OpenFailure (List UInt8)) :
    session.Lists (session.shownByFile path opened) (session.runFile path opened).2 := by
  have hreading := (Lists.nil hchain).record .info ("reading " ++ Path.normal path)
  cases opened with
  | error failure => exact hreading
  | ok bytes =>
      rw [shownByFile]
      cases hread : readSource bytes with
      | error message =>
          rw [runFile_of_readSource_error session path hread]
          exact hreading.record .error (Path.normal path ++ ": " ++ message)
      | ok terms =>
          have hannounced := hreading.record .info
            ("evaluating " ++ toString terms.length ++ " term(s)")
          rw [runFile_of_readSource_ok session path hread]
          exact hannounced.append (lists_runTerms hannounced.chain 1 terms)

end Session

/-- The value is shown on one line, however lines end. -/
def Value.TakesOneLine (value : Value) : Prop :=
  OneLine value.chars ∧
    ∀ isBreak, EndsLines isBreak → ∀ c ∈ value.chars, isBreak c = false

theorem Value.WellFormed.takesOneLine {value : Value} (h : value.WellFormed) :
    value.TakesOneLine :=
  ⟨h.oneLine, fun _ hbreak => h.tidy.not_break hbreak⟩

/-- **One line for each result.** Whatever programs compute or bind takes one line to show. So what
the run of a file adds to the output are the texts of the values that its terms print and of those
its successful terms have, a line each, and cutting it into lines gives these texts back in
order. -/
theorem results_are_lines (session : Session) (hsession : Reachable session.machine.chain) :
    (∀ (room : Nat) (expr : Value), expr.IsExpression →
      let outcome := (evaluate room expr).outcome session.machine
      (∀ value, outcome.1 = .ok value → value.TakesOneLine) ∧
        ∀ frame ∈ outcome.2.chain.frames, ∀ binding ∈ frame, binding.2.TakesOneLine) ∧
    (EndsLines Text.isTextBreak ∧ EndsLines fun c => c == '\n') ∧
    ∀ (path : String) (opened : Except OpenFailure (List UInt8)),
      let shown := session.shownByFile path opened
      (session.runFile path opened).2.machine.output =
          session.machine.output ++ shownValues shown ∧
        (∀ value ∈ shown, value.TakesOneLine) ∧
        ∀ isBreak, EndsLines isBreak →
          Text.linesOf isBreak (shownValues shown).toList = shown.map Value.chars := by
  refine ⟨fun room expr hexpr => ?_, ⟨endsLines_isTextBreak, endsLines_lineFeed⟩,
    fun path opened => ?_⟩
  · obtain ⟨hchain, hends⟩ := sound_evaluate room hexpr session.machine hsession.wellFormed
    refine ⟨fun value hvalue => ?_, fun frame hframe binding hbinding => ?_⟩
    · rw [hvalue] at hends
      exact hends.takesOneLine
    · exact (hchain frame hframe binding hbinding).takesOneLine
  · have hlists := Session.lists_runFile hsession.wellFormed path opened
    exact ⟨hlists.output_eq, fun value hvalue => (hlists.wellFormed value hvalue).takesOneLine,
      fun isBreak hbreak => linesOf_shownValues hlists.wellFormed hbreak⟩

/-- A file is run that defines a function, prints it, fails behind a print, and goes on. -/
theorem results_are_lines_keeping_going :
    let session := Session.start .none true
    let expr := Value.list [.symbol "list", .boolean true]
    let text := "(fn f x (not x)) (print f)\n(cons (print true) nope)\n\x7btrue\x7d"
    let lines := ["true", "(lambda x (not x))", "(lambda x (not x))", "true", "\x7btrue\x7d"]
    let written := (session.runFile "a" (.ok text.toUTF8.toList)).2.machine.output
    Reachable session.machine.chain ∧ expr.IsExpression ∧
      ((evaluate 9 expr).outcome session.machine).1 = .ok (.list [.boolean true]) ∧
      (Value.list [.boolean true]).TakesOneLine ∧
      Text.linesOf Text.isTextBreak written.toList = lines.map String.toList := by
  intro session expr text lines written
  have hexpr : expr.Parsed 1 := ⟨1, "(list true)", [expr], rfl, List.mem_cons_self⟩
  have hread : readSource
      "(fn f x (not x)) (print f)\n(cons (print true) nope)\n\x7btrue\x7d".toUTF8.toList =
      .ok ["(fn f x (not x))", "(print f)", "(cons (print true) nope)", "\x7btrue\x7d"] := by
    rw [Session.readSource_toUTF8]
    rfl
  have hterms : (((Session.start .none true).announced "a" 4).shownByTerms 1
      ["(fn f x (not x))", "(print f)", "(cons (print true) nope)", "\x7btrue\x7d"]).map
        Value.chars =
      ["true", "(lambda x (not x))", "(lambda x (not x))", "true", "\x7btrue\x7d"].map
        String.toList := by
    decide +kernel
  have hshown : (session.shownByFile "a" (.ok text.toUTF8.toList)).map Value.chars =
      lines.map String.toList := by
    rw [Session.shownByFile, hread]
    exact hterms
  obtain ⟨hresults, ⟨htext, -⟩, hfile⟩ := results_are_lines session .start
  obtain ⟨hvalue, -⟩ := hresults 9 expr hexpr.isExpression.1
  obtain ⟨houtput, -, hlines⟩ := hfile "a" (.ok text.toUTF8.toList)
  have hwritten : written = shownValues (session.shownByFile "a" (.ok text.toUTF8.toList)) :=
    houtput.trans String.empty_append
  refine ⟨.start, hexpr.isExpression.1, rfl, hvalue _ rfl, ?_⟩
  rw [hwritten, hlines Text.isTextBreak htext, hshown]

end SetLisp
