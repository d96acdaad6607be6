import SetLisp.Config
import SetLisp.Proofs.Number.Numeral
import SetLisp.Proofs.Text.Respelling

namespace SetLisp

open Text

theorem levelVariable_ne : levelVariable ≠ keepGoingVariable := by
  decide

namespace Variables

variable {environment other : Variables} {name : String}

def set (environment : Variables) (name value : String) : Variables :=
  (name, value) :: environment

def unset (environment : Variables) (name : String) : Variables :=
  environment.filter fun entry => entry.1 != name

theorem get?_set_self (environment : Variables) (name value : String) :
    (environment.set name value).get? name = some value := by
  have hname : (name == name) = true := beq_self_eq_true name
  rw [set, get?, List.find?_cons, hname]
  rfl

theorem get?_set_of_ne (environment : Variables) {other : String} (h : name ≠ other)
    (value : String) : (environment.set name value).get? other = environment.get? other := by
  have hother : (name == other) = false := beq_false_of_ne h
  rw [set, get?, List.find?_cons, hother, get?]

theorem get?_unset_self (environment : Variables) (name : String) :
    (environment.unset name).get? name = none := by
  rw [unset, get?, Option.map_eq_none_iff, List.find?_eq_none]
  intro entry hentry hname
  have hother := (List.mem_filter.mp hentry).2
  rw [bne, hname] at hother
  cases hother

theorem get?_unset_of_ne (environment : Variables) {other : String} (h : name ≠ other) :
    (environment.unset name).get? other = environment.get? other := by
  have hfound : (fun entry : String × String =>
      decide ((entry.1 != name) = true ∧ (entry.1 == other) = true)) =
      fun entry => entry.1 == other := by
    funext entry
    rw [Bool.eq_iff_iff, decide_eq_true_iff, and_iff_right_iff_imp, beq_iff_eq, bne_iff_ne]
    rintro rfl
    exact h.symm
  rw [unset, get?, List.find?_filter, hfound, get?]

/-- The text that the variable gives for the log level. -/
def levelText (environment : Variables) : String :=
  match environment.get? levelVariable with
  | none => LogLevel.none.name
  | some raw => if raw.isEmpty then LogLevel.none.name else cleaned raw

theorem levelText_congr (h : other.get? levelVariable = environment.get? levelVariable) :
    other.levelText = environment.levelText := by
  rw [levelText, h, levelText]

theorem levelText_set {raw : String} (h : raw ≠ "") (environment : Variables) :
    (environment.set levelVariable raw).levelText = cleaned raw := by
  rw [levelText, get?_set_self]
  exact if_neg (mt String.isEmpty_iff.mp h)

theorem levelText_set_empty (environment : Variables) :
    (environment.set levelVariable "").levelText = LogLevel.none.name := by
  rw [levelText, get?_set_self]
  rfl

theorem levelText_unset (environment : Variables) :
    (environment.unset levelVariable).levelText = LogLevel.none.name := by
  rw [levelText, get?_unset_self]

theorem level?_eq (environment : Variables) :
    (·.getD .none) <$> environment.level? = LogLevel.read environment.levelText := by
  rw [level?, levelText]
  cases environment.get? levelVariable with
  | none => rfl
  | some raw =>
      dsimp only
      split
      · rfl
      · cases LogLevel.read (cleaned raw) <;> rfl

theorem flag_congr {default : Bool} (h : other.get? name = environment.get? name) :
    other.flag name default = environment.flag name default := by
  rw [flag, h, flag]

theorem flag_set (environment : Variables) (name raw : String) (default : Bool) :
    (environment.set name raw).flag name default =
      if (trim raw).isEmpty then default else truthy.contains (cleaned raw) := by
  rw [flag, get?_set_self]

theorem flag_unset (environment : Variables) (name : String) (default : Bool) :
    (environment.unset name).flag name default = default := by
  rw [flag, get?_unset_self]

end Variables

theorem cleaned_of_blanks {blank : String} (h : ∀ c ∈ blank.toList, isBlank c = true) :
    cleaned blank = "" := by
  rw [cleaned, trim_of_blanks h]
  rfl

namespace LogLevel

theorem name_ne_empty (level : LogLevel) : level.name ≠ "" := by
  cases level <;> decide

theorem ofName?_eq_some_iff {name : String} {level : LogLevel} :
    ofName? name = some level ↔ level.name = name := by
  constructor
  · intro h
    exact eq_of_beq (List.find?_some (p := fun level : LogLevel => level.name == name) h)
  · rintro rfl
    cases level <;> decide

theorem ofName?_eq_none_iff {name : String} :
    ofName? name = Option.none ↔ ∀ level : LogLevel, level.name ≠ name := by
  rw [Option.eq_none_iff_forall_ne_some]
  exact forall_congr' fun level => not_congr ofName?_eq_some_iff

theorem read_eq_ok_iff {name : String} {level : LogLevel} :
    LogLevel.read name = .ok level ↔ level.name = name := by
  rw [LogLevel.read, ← ofName?_eq_some_iff]
  cases ofName? name <;> simp

theorem read_eq_error_iff {name : String} {error : UnknownLevel} :
    LogLevel.read name = .error error ↔
      error = .named name ∧ ∀ level : LogLevel, level.name ≠ name := by
  rw [LogLevel.read, ← ofName?_eq_none_iff]
  cases ofName? name <;> simp [eq_comm]

end LogLevel

namespace Config

variable {environment other : Variables} {level? : Option String} {keepGoing? : Option Bool}

/-- The text that decides about the level, and the answer that decides about keeping going. -/
theorem read_eq (environment : Variables) (level? : Option String) (keepGoing? : Option Bool) :
    Config.read environment level? keepGoing? =
      (LogLevel.read (level?.getD environment.levelText)).map fun level =>
        { level := level
          keepGoing := keepGoing?.getD (environment.flag keepGoingVariable false) } := by
  cases level? with
  | some name =>
      simp only [Config.read, Option.getD_some]
      cases LogLevel.read name <;> rfl
  | none =>
      simp only [Config.read, Variables.level?_eq, Option.getD_none]
      cases LogLevel.read environment.levelText <;> rfl

theorem read_congr (hlevel : level? = none → other.levelText = environment.levelText)
    (hflag : keepGoing? = none →
      other.flag keepGoingVariable false = environment.flag keepGoingVariable false) :
    Config.read other level? keepGoing? = Config.read environment level? keepGoing? := by
  have htext : level?.getD other.levelText = level?.getD environment.levelText := by
    cases level? with
    | some name => rfl
    | none => exact hlevel rfl
  have hanswer : keepGoing?.getD (other.flag keepGoingVariable false) =
      keepGoing?.getD (environment.flag keepGoingVariable false) := by
    cases keepGoing? with
    | some answer => rfl
    | none => exact hflag rfl
  rw [read_eq, read_eq, htext, hanswer]

theorem read_congr_level (hlevel : level? = none → other.levelText = environment.levelText)
    (hother : other.get? keepGoingVariable = environment.get? keepGoingVariable) :
    Config.read other level? keepGoing? = Config.read environment level? keepGoing? :=
  read_congr hlevel fun _ => Variables.flag_congr hother

theorem read_congr_flag
    (hflag : keepGoing? = none →
      other.flag keepGoingVariable false = environment.flag keepGoingVariable false)
    (hother : other.get? levelVariable = environment.get? levelVariable) :
    Config.read other level? keepGoing? = Config.read environment level? keepGoing? :=
  read_congr (fun _ => Variables.levelText_congr hother) hflag

theorem read_eq_error_iff {error : UnknownLevel} :
    Config.read environment level? keepGoing? = .error error ↔
      error = .named (level?.getD environment.levelText) ∧
        ∀ level : LogLevel, level.name ≠ level?.getD environment.levelText := by
  rw [read_eq, ← LogLevel.read_eq_error_iff]
  cases LogLevel.read (level?.getD environment.levelText) <;> simp [Except.map]

theorem read_eq_ok_iff {config : Config} :
    Config.read environment level? keepGoing? = .ok config ↔
      config.level.name = level?.getD environment.levelText ∧
        config.keepGoing = keepGoing?.getD (environment.flag keepGoingVariable false) := by
  rw [read_eq, ← LogLevel.read_eq_ok_iff]
  cases config
  cases LogLevel.read (level?.getD environment.levelText) <;> simp [Except.map, eq_comm]

end Config

/-- **Settings are read alike.** Blanks around the word of a variable and the case of its ASCII
letters do not count. A blank switch is as good as unset, and so is an empty log level, but blanks
alone, where the variable decides, are refused as a level without a name. A setting that is given
explicitly does not depend on its variable. The settings are refused exactly if the text that
decides about the level is the name of none. -/
theorem settings_are_read_alike (environment : Variables) (level? : Option String)
    (keepGoing? : Option Bool) :
    let read (environment : Variables) := Config.read environment level? keepGoing?
    let withLevel (raw : String) := read (environment.set levelVariable raw)
    let withFlag (raw : String) := read (environment.set keepGoingVariable raw)
    let text := level?.getD environment.levelText
    (∀ raw respelled, Respells raw respelled →
      (raw ≠ "" → withLevel respelled = withLevel raw) ∧ withFlag respelled = withFlag raw) ∧
    (∀ blank : String, (∀ c ∈ blank.toList, isBlank c = true) →
      (level? = none → blank ≠ "" → withLevel blank = .error (.named "")) ∧
      withFlag blank = read (environment.unset keepGoingVariable)) ∧
    withLevel "" = read (environment.unset levelVariable) ∧
    (level? ≠ none → read (environment.unset levelVariable) = read environment ∧
      ∀ raw, withLevel raw = read environment) ∧
    (keepGoing? ≠ none → read (environment.unset keepGoingVariable) = read environment ∧
      ∀ raw, withFlag raw = read environment) ∧
    (∀ error, read environment = .error error ↔
      error = .named text ∧ ∀ level : LogLevel, level.name ≠ text) ∧
    ∀ config, read environment = .ok config ↔
      config.level.name = text ∧
        config.keepGoing = keepGoing?.getD (environment.flag keepGoingVariable false) := by
  have hlevelSet (raw : String) := environment.get?_set_of_ne levelVariable_ne raw
  have hflagSet (raw : String) := environment.get?_set_of_ne levelVariable_ne.symm raw
  have hlevelUnset := environment.get?_unset_of_ne levelVariable_ne
  have hflagUnset := environment.get?_unset_of_ne levelVariable_ne.symm
  refine ⟨fun raw respelled hrespells => ⟨fun hraw => ?_, ?_⟩, fun blank hblank => ⟨?_, ?_⟩, ?_,
    fun hlevel => ⟨?_, fun raw => ?_⟩, fun hflag => ⟨?_, fun raw => ?_⟩,
    fun error => Config.read_eq_error_iff, fun config => Config.read_eq_ok_iff⟩
  · refine Config.read_congr_level (fun _ => ?_) ((hlevelSet respelled).trans (hlevelSet raw).symm)
    rw [Variables.levelText_set (hrespells.ne_empty hraw), Variables.levelText_set hraw, cleaned,
      cleaned, hrespells.lowercase_trim_eq]
  · refine Config.read_congr_flag (fun _ => ?_) ((hflagSet respelled).trans (hflagSet raw).symm)
    rw [Variables.flag_set, Variables.flag_set, cleaned, cleaned, hrespells.lowercase_trim_eq,
      hrespells.isEmpty_trim_eq]
  · rintro rfl hne
    refine Config.read_eq_error_iff.mpr ?_
    rw [Option.getD_none, Variables.levelText_set hne, cleaned_of_blanks hblank]
    exact ⟨rfl, LogLevel.name_ne_empty⟩
  · refine Config.read_congr_flag (fun _ => ?_) ((hflagSet blank).trans hflagUnset.symm)
    rw [Variables.flag_set, Variables.flag_unset, trim_of_blanks hblank]
    rfl
  · refine Config.read_congr_level (fun _ => ?_) ((hlevelSet "").trans hlevelUnset.symm)
    rw [Variables.levelText_set_empty, Variables.levelText_unset]
  · exact Config.read_congr_level (absurd · hlevel) hlevelUnset
  · exact Config.read_congr_level (absurd · hlevel) (hlevelSet raw)
  · exact Config.read_congr_flag (absurd · hflag) hflagUnset
  · exact Config.read_congr_flag (absurd · hflag) (hflagSet raw)

/-- A level in mixed case between blanks is read, a switch of blanks alone is unset, and a level
that does not exist is refused unless an explicit one hides it. -/
theorem settings_are_read_alike_respelled :
    let environment : Variables := [(levelVariable, "loud"), (keepGoingVariable, "on")]
    Respells "debug" "\t DeBuG " ∧
      Config.read (environment.set levelVariable "\t DeBuG ") none none =
        .ok { level := .debug, keepGoing := true } ∧
      Config.read (environment.set keepGoingVariable " \n") (some "info") none =
        .ok { level := .info, keepGoing := false } ∧
      Config.read environment none (some true) = .error (.named "loud") := by
  intro environment
  have hrespells : Respells "debug" "\t DeBuG " :=
    ⟨['\t', ' '], "DeBuG".toList, [' '], by decide, forall_mem_of_all (by decide),
      forall_mem_of_all (by decide), by decide⟩
  have hdebug : Config.read (environment.set levelVariable "debug") none none =
      .ok { level := .debug, keepGoing := true } := by decide +kernel
  have hinfo : Config.read (environment.unset keepGoingVariable) (some "info") none =
      .ok { level := .info, keepGoing := false } := by decide +kernel
  have hspelling := (settings_are_read_alike environment none none).1 _ _ hrespells
  have hblank := (settings_are_read_alike environment (some "info") none).2.1 " \n"
    (forall_mem_of_all (by decide))
  have hrefused := (settings_are_read_alike environment none (some true)).2.2.2.2.2.1
    (.named "loud")
  exact ⟨hrespells, (hspelling.1 (by decide)).trans hdebug, hblank.2.trans hinfo,
    hrefused.mpr ⟨by decide +kernel, fun level => by cases level <;> decide +kernel⟩⟩

/-- A log level of one blank is refused, where no log level and an empty one are not. -/
theorem blank_level_is_not_unset :
    ¬ ∀ (environment : Variables) (level? : Option String) (keepGoing? : Option Bool)
      (blank : String), (∀ c ∈ blank.toList, isBlank c = true) →
        Config.read (environment.set levelVariable blank) level? keepGoing? =
            Config.read (environment.unset levelVariable) level? keepGoing? ∧
          Config.read (environment.set keepGoingVariable blank) level? keepGoing? =
            Config.read (environment.unset keepGoingVariable) level? keepGoing? := by
  intro hall
  have hequal := (hall [] none none " " (forall_mem_of_all (by decide))).1
  have hrefused : Config.read (Variables.set [] levelVariable " ") none none =
      .error (.named "") := by decide +kernel
  have hread : Config.read (Variables.unset [] levelVariable) none none = .ok {} := by
    decide +kernel
  rw [hrefused, hread] at hequal
  cases hequal

end SetLisp
