import SetLisp.CommandLine.Run
import SetLisp.Proofs.Session.Account
import SetLisp.Proofs.Session.Refusal

/-!
# The exit status

A run of the program ends with status 2 if its settings are faulty, and then nothing else is looked
at. Otherwise it ends with 0 if no error is recorded and with 1 if one is. The errors account for
the run: one for a file that cannot be opened or read, or else one for each term that fails.
-/

namespace SetLisp

/-- The messages of the records that are errors. -/
def errorsOf (records : List LogRecord) : List String :=
  (records.filter fun entry => entry.severity = .error).map (·.message)

theorem errorsOf_append (first second : List LogRecord) :
    errorsOf (first ++ second) = errorsOf first ++ errorsOf second := by
  rw [errorsOf, List.filter_append, List.map_append]
  rfl

theorem renderLog_append (level : LogLevel) (first second : List LogRecord) :
    renderLog level (first ++ second) = renderLog level first ++ renderLog level second := by
  rw [renderLog, List.map_append, String.join_append]
  rfl

namespace CommandLine

variable {environment : Variables} {openFile : String → Except OpenFailure (List UInt8)}
  {config : Config} {path : String}

/-- An error that the command line records itself. -/
def ownRecord (message : String) : LogRecord :=
  { severity := .error, source := .commandLine, message := message }

theorem renderLog_ownRecord (level : LogLevel) (message : String) :
    renderLog level [ownRecord message] = ownError level message := by
  simp [renderLog, ownRecord, ownError]

/-- What the run of a file comes to in the session of its own, and that session. -/
def ran (config : Config) (openFile : String → Except OpenFailure (List UInt8)) (path : String) :
    Except RunFailure Nat × Session :=
  (Session.start config.level config.keepGoing).runFile path (openFile (Path.normal path))

/-- All that the run of a file records, the command line's own errors last. -/
def fileRecords (config : Config) (openFile : String → Except OpenFailure (List UInt8))
    (path : String) : List LogRecord :=
  match ran config openFile path with
  | (.ok _, session) => session.machine.log
  | (.error failure, session) =>
      session.machine.log ++ [ownRecord (runFailureMessage path (Path.normal path) failure)]

/-- All that a run of the program records. -/
def records (environment : Variables) (openFile : String → Except OpenFailure (List UInt8))
    (options : Options) : List LogRecord :=
  match settings environment options with
  | .error error => [ownRecord error.message]
  | .ok config => fileRecords config openFile options.path

/-- The level at which it is shown; before there are settings it is level none. -/
def recordLevel (environment : Variables) (options : Options) : LogLevel :=
  match settings environment options with
  | .error _ => .none
  | .ok config => config.level

/-! ### Files -/

/-- The account of a file: the errors recorded, the text written and the session left. A file that
cannot be opened or read is one error, and nothing is evaluated. -/
inductive FileAccount (session : Session) (path : String) :
    Except OpenFailure (List UInt8) → List String → String → Session → Prop
  | unopened {failure : OpenFailure} {ended : Session}
      (hended : ended.machine = { session.machine with log := ended.machine.log }) :
      FileAccount session path (.error failure)
        [runFailureMessage path (Path.normal path) (.unopened failure)] "" ended
  | unread {bytes : List UInt8} {message : String} {ended : Session}
      (hread : readSource bytes = .error message)
      (hended : ended.machine = { session.machine with log := ended.machine.log }) :
      FileAccount session path (.ok bytes) [Path.normal path ++ ": " ++ message] "" ended
  | run {bytes : List UInt8} {terms errors : List String} {written : String} {ended : Session}
      (hread : readSource bytes = .ok terms)
      (hterms : Session.Accounts 1 (session.announced path terms.length) terms errors written
        ended) :
      FileAccount session path (.ok bytes) errors written ended

section FileAccount

variable {session ended : Session} {opened : Except OpenFailure (List UInt8)}
  {errors : List String} {written : String}

theorem FileAccount.length_errors_le (h : FileAccount session path opened errors written ended)
    (hstops : session.keepGoing = false) : errors.length ≤ 1 := by
  cases h with
  | unopened => exact Nat.le_refl 1
  | unread => exact Nat.le_refl 1
  | run _ hterms => exact hterms.length_errors_le hstops

/-- Without errors the file is read and every term is shown. -/
theorem FileAccount.showsAll (h : FileAccount session path opened [] written ended) :
    ∃ bytes terms, opened = .ok bytes ∧ readSource bytes = .ok terms ∧
      Session.ShowsAll (session.announced path terms.length) terms written ended := by
  cases h with
  | run hread hterms => exact ⟨_, _, rfl, hread, hterms.showsAll⟩

end FileAccount

/-- What the run of a file comes to, by what it comes to in its session. -/
theorem runFile_eq (config : Config) (openFile : String → Except OpenFailure (List UInt8))
    (path : String) :
    runFile config openFile path =
      { status := if (ran config openFile path).1 = .ok 0 then 0 else 1
        stdout := (ran config openFile path).2.machine.output
        stderr := renderLog config.level (fileRecords config openFile path) } := by
  rw [runFile, fileRecords, ran]
  rcases (Session.start config.level config.keepGoing).runFile path (openFile (Path.normal path))
    with ⟨failure | failures, session⟩
  · simp [renderLog_append, renderLog_ownRecord]
  · simp

/-- The run of a file is accounted for. It comes to 0 exactly if no error is recorded, and with a
file that is opened it comes to how many there are. -/
structure Accounted (config : Config) (openFile : String → Except OpenFailure (List UInt8))
    (path : String) : Prop where
  account : FileAccount (.start config.level config.keepGoing) path
    (openFile (Path.normal path)) (errorsOf (fileRecords config openFile path))
    (ran config openFile path).2.machine.output (ran config openFile path).2
  zero_iff : (ran config openFile path).1 = .ok 0 ↔
    errorsOf (fileRecords config openFile path) = []
  count_eq : ∀ bytes, openFile (Path.normal path) = .ok bytes →
    (ran config openFile path).1 = .ok (errorsOf (fileRecords config openFile path)).length

theorem accounted_of_unopened {failure : OpenFailure}
    (hopened : openFile (Path.normal path) = .error failure) : Accounted config openFile path := by
  let session := Session.start config.level config.keepGoing
  let ended := session.record .info ("reading " ++ Path.normal path)
  have hran : ran config openFile path = (.error (.unopened failure), ended) := by
    rw [ran, hopened]
    rfl
  have hlog : errorsOf ended.machine.log = [] := Session.errors_record_info session _
  have herrors : errorsOf (fileRecords config openFile path) =
      [runFailureMessage path (Path.normal path) (.unopened failure)] := by
    rw [fileRecords, hran]
    dsimp only
    rw [errorsOf_append, hlog]
    rfl
  have hwritten : ended.machine.output = "" := Machine.output_record _ _
  constructor
  case account =>
    rw [herrors, hran, hopened, hwritten]
    exact .unopened (Session.machine_record session _ _)
  case zero_iff =>
    rw [herrors, hran]
    exact iff_of_false nofun nofun
  case count_eq =>
    rw [hopened]
    nofun

theorem accounted_of_unread {bytes : List UInt8} {message : String}
    (hopened : openFile (Path.normal path) = .ok bytes)
    (hread : readSource bytes = .error message) : Accounted config openFile path := by
  let session := Session.start config.level config.keepGoing
  let reading := session.record .info ("reading " ++ Path.normal path)
  let ended := reading.record .error (Path.normal path ++ ": " ++ message)
  have hran : ran config openFile path = (.ok 1, ended) := by
    rw [ran, hopened]
    exact Session.runFile_of_readSource_error session path hread
  have herrors : errorsOf (fileRecords config openFile path) =
      [Path.normal path ++ ": " ++ message] := by
    rw [fileRecords, hran]
    refine (Machine.errors_record_error _ _ _).trans ?_
    rw [Session.errors_record_info]
    rfl
  have hwritten : ended.machine.output = "" :=
    (Machine.output_record _ _).trans (Machine.output_record _ _)
  have hended : ended.machine = { session.machine with log := ended.machine.log } := by
    rw [Session.machine_record, Session.machine_record]
  constructor
  case account =>
    rw [herrors, hran, hopened, hwritten]
    exact .unread hread hended
  case zero_iff =>
    rw [herrors, hran]
    exact iff_of_false nofun nofun
  case count_eq =>
    rw [herrors, hran]
    exact fun _ _ => rfl

theorem accounted_of_read {bytes : List UInt8} {terms : List String}
    (hopened : openFile (Path.normal path) = .ok bytes) (hread : readSource bytes = .ok terms) :
    Accounted config openFile path := by
  let session := Session.start config.level config.keepGoing
  have hchain : (session.announced path terms.length).machine.chain.Binds Value.InRange := by
    rw [Session.chain_announced]
    exact Session.inRange_start _ _
  obtain ⟨errors, written, haccount, hcount⟩ := Session.exists_accounts hchain 1 terms
  have hran : ran config openFile path =
      (session.announced path terms.length).runTerms 1 terms := by
    rw [ran, hopened]
    exact Session.runFile_of_readSource_ok session path hread
  rw [← hran] at haccount hcount
  have hresult : ran config openFile path =
      (.ok errors.length, (ran config openFile path).2) := by rw [← hcount]
  have herrors : errorsOf (fileRecords config openFile path) = errors := by
    rw [fileRecords, hresult]
    refine haccount.errors_eq.trans ?_
    rw [Session.errors_announced]
    rfl
  have hwritten : (ran config openFile path).2.machine.output = written := by
    rw [haccount.output_eq, Session.output_announced]
    exact String.empty_append
  constructor
  case account =>
    rw [herrors, hopened, hwritten]
    exact .run hread haccount
  case zero_iff =>
    rw [herrors, hcount]
    simp
  case count_eq =>
    rw [herrors]
    exact fun _ _ => hcount

/-- **The account of a file.** -/
theorem accounted (config : Config) (openFile : String → Except OpenFailure (List UInt8))
    (path : String) : Accounted config openFile path := by
  cases hopened : openFile (Path.normal path) with
  | error failure => exact accounted_of_unopened hopened
  | ok bytes =>
      cases hread : readSource bytes with
      | error message => exact accounted_of_unread hopened hread
      | ok terms => exact accounted_of_read hopened hread

variable {arguments : List String} {options : Options}

theorem records_of_settings_error {error : UnknownLevel}
    (h : settings environment options = .error error) :
    records environment openFile options = [ownRecord error.message] := by
  rw [records, h]

theorem records_of_settings_ok (h : settings environment options = .ok config) :
    records environment openFile options = fileRecords config openFile options.path := by
  rw [records, h]

theorem countsFailures_of_settings_ok (h : settings environment options = .ok config)
    (hgoes : config.keepGoing = true) {bytes : List UInt8} {terms : List String}
    (hopened : openFile (Path.normal options.path) = .ok bytes)
    (hread : readSource bytes = .ok terms) :
    Session.CountsFailures
      ((Session.start config.level config.keepGoing).announced options.path terms.length) terms
      (errorsOf (records environment openFile options)).length := by
  have herrors := (accounted config openFile options.path).count_eq bytes hopened
  obtain ⟨count, hcount, hcounts⟩ :=
    @Session.exists_count_runFile (.start config.level config.keepGoing) options.path bytes hgoes
      (Session.inRange_start _ _) terms hread
  rw [← hopened] at hcount
  rw [records_of_settings_ok h, ← Except.ok.inj (hcount.symm.trans herrors)]
  exact hcounts

section Run

variable (harguments : readArguments arguments = .ok (.run options))

include harguments

theorem run_of_settings_error {error : UnknownLevel}
    (h : settings environment options = .error error) :
    run environment openFile arguments =
      { status := 2, stderr := renderLog .none [ownRecord error.message] } := by
  rw [run, harguments, renderLog_ownRecord]
  dsimp only
  rw [h]

theorem run_of_settings_ok (h : settings environment options = .ok config) :
    run environment openFile arguments = runFile config openFile options.path := by
  rw [run, harguments]
  dsimp only
  rw [h]

theorem stderr_run :
    (run environment openFile arguments).stderr =
      renderLog (recordLevel environment options) (records environment openFile options) := by
  rw [recordLevel, records]
  cases h : settings environment options with
  | error error => rw [run_of_settings_error harguments h]
  | ok config => rw [run_of_settings_ok harguments h, runFile_eq]

theorem status_of_settings_ok (h : settings environment options = .ok config) :
    (run environment openFile arguments).status =
      if errorsOf (records environment openFile options) = [] then 0 else 1 := by
  rw [run_of_settings_ok harguments h, runFile_eq, records_of_settings_ok h]
  exact if_congr (accounted config openFile options.path).zero_iff rfl rfl

/-- With settings the errors of the run are those of the account of its file. -/
theorem fileAccount_of_settings_ok (h : settings environment options = .ok config) :
    FileAccount (.start config.level config.keepGoing) options.path
      (openFile (Path.normal options.path)) (errorsOf (records environment openFile options))
      (run environment openFile arguments).stdout (ran config openFile options.path).2 := by
  rw [run_of_settings_ok harguments h, runFile_eq, records_of_settings_ok h]
  exact (accounted config openFile options.path).account

end Run

/-- **The exit status accounts for the errors.** The program ends with status 2 exactly if its
settings are faulty; that is then the one error, and what the files hold does not matter. Otherwise
it ends with 0 exactly if no error is recorded, and every form of every term has then been evaluated
and shown; and else with 1, the errors being one for a file that cannot be opened or read, of which
nothing is evaluated, or one for each term that fails, at most one unless the run keeps going. -/
theorem status_accounts_for_errors
    (harguments : readArguments arguments = .ok (.run options)) (environment : Variables)
    (openFile : String → Except OpenFailure (List UInt8)) :
    let outcome := run environment openFile arguments
    let errors := errorsOf (records environment openFile options)
    outcome.stderr =
      renderLog (recordLevel environment options) (records environment openFile options) ∧
    (outcome.status = 2 ↔ ∃ error, settings environment options = .error error) ∧
    (∀ error, settings environment options = .error error →
      errors = [error.message] ∧ outcome.stdout = "" ∧
        ∀ openFile', run environment openFile' arguments = outcome) ∧
    ∀ config, settings environment options = .ok config →
      let session := Session.start config.level config.keepGoing
      let opened := openFile (Path.normal options.path)
      let ended := (session.runFile options.path opened).2
      (outcome.status = 0 ↔ errors = []) ∧ (outcome.status = 1 ↔ errors ≠ []) ∧
      (config.keepGoing = false → errors.length ≤ 1) ∧
      (config.keepGoing = true → ∀ bytes terms, opened = .ok bytes → readSource bytes = .ok terms →
        Session.CountsFailures (session.announced options.path terms.length) terms
          errors.length) ∧
      FileAccount session options.path opened errors outcome.stdout ended ∧
      (outcome.status = 0 → ∃ bytes terms, opened = .ok bytes ∧ readSource bytes = .ok terms ∧
        Session.ShowsAll (session.announced options.path terms.length) terms outcome.stdout
          ended) := by
  intro outcome errors
  refine ⟨stderr_run harguments, ?_, fun error h => ?_, fun config h => ?_⟩
  · constructor
    · intro htwo
      cases h : settings environment options with
      | error error => exact ⟨error, rfl⟩
      | ok config =>
          rw [status_of_settings_ok harguments h] at htwo
          split at htwo <;> cases htwo
    · rintro ⟨error, h⟩
      exact congrArg Outcome.status (run_of_settings_error harguments h)
  · have hrun (other : String → Except OpenFailure (List UInt8)) :
        run environment other arguments =
          { status := 2, stderr := renderLog .none [ownRecord error.message] } :=
      run_of_settings_error harguments h
    exact ⟨congrArg errorsOf (records_of_settings_error h), congrArg Outcome.stdout (hrun openFile),
      fun other => (hrun other).trans (hrun openFile).symm⟩
  · intro session opened ended
    have hstatus : outcome.status = if errors = [] then 0 else 1 :=
      status_of_settings_ok harguments h
    have haccount : FileAccount session options.path opened errors outcome.stdout ended :=
      fileAccount_of_settings_ok harguments h
    refine ⟨by rw [hstatus]; split <;> simp_all, by rw [hstatus]; split <;> simp_all,
      haccount.length_errors_le, fun hgoes bytes terms hopened hread =>
        countsFailures_of_settings_ok h hgoes hopened hread, haccount, fun hzero => ?_⟩
    have hnone : errors = [] := by
      rw [hstatus] at hzero
      split at hzero
      · assumption
      · cases hzero
    rw [hnone] at haccount
    exact haccount.showsAll

/-- Two terms, the first of which fails, and settings that name no level. -/
theorem status_accounts_for_errors_keeping_going :
    let openFile : String → Except OpenFailure (List UInt8) :=
      fun _ => .ok "nope true".toUTF8.toList
    let options : Options := { path := "a", level? := none, keepGoing? := some true }
    let session := Session.start .none true
    readArguments ["--keep-going", "a"] = .ok (.run options) ∧
      run [] openFile ["--keep-going", "a"] =
        { status := 1, stdout := "true\n", stderr := "term 1 nope: Unknown symbol nope\n" } ∧
      errorsOf (records [] openFile options) = ["term 1 nope: Unknown symbol nope"] ∧
      Session.CountsFailures (session.announced "a" 2) ["nope", "true"] 1 ∧
      FileAccount session "a" (.ok "nope true".toUTF8.toList) ["term 1 nope: Unknown symbol nope"]
        "true\n" (session.runFile "a" (.ok "nope true".toUTF8.toList)).2 ∧
      ∀ openFile', run [(levelVariable, "loud")] openFile' ["--keep-going", "a"] =
        run [(levelVariable, "loud")] openFile ["--keep-going", "a"] := by
  intro openFile options session
  have harguments : readArguments ["--keep-going", "a"] = .ok (.run options) := rfl
  have hrun : run [] openFile ["--keep-going", "a"] =
      { status := 1, stdout := "true\n", stderr := "term 1 nope: Unknown symbol nope\n" } := by
    decide +kernel
  have herrors : errorsOf (records [] openFile options) =
      ["term 1 nope: Unknown symbol nope"] := by
    decide +kernel
  have hread : readSource "nope true".toUTF8.toList = .ok ["nope", "true"] := by
    decide +kernel
  have hsettings : settings [] options = .ok { level := .none, keepGoing := true } := by
    decide +kernel
  have hloud : settings [(levelVariable, "loud")] options = .error (.named "loud") := by
    decide +kernel
  obtain ⟨-, -, -, hruns⟩ := status_accounts_for_errors harguments [] openFile
  obtain ⟨-, -, -, hcounts, haccount, -⟩ := hruns _ hsettings
  obtain ⟨-, -, hfaulty, -⟩ :=
    status_accounts_for_errors harguments [(levelVariable, "loud")] openFile
  rw [herrors] at hcounts haccount
  rw [hrun] at haccount
  have hcounted := hcounts rfl "nope true".toUTF8.toList ["nope", "true"] rfl hread
  obtain ⟨-, -, hsame⟩ := hfaulty _ hloud
  exact ⟨harguments, hrun, herrors, hcounted, haccount, hsame⟩

end CommandLine

end SetLisp
