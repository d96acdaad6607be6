import SetLisp.Proofs.Eval.Naming
import SetLisp.Proofs.Session.Levels
import SetLisp.Proofs.Value.WellFormed

/-!
# Named functions

To name a function is to define a lambda. The two forms take the same parts, bind the same lambda to
the same name and draw one identity each, so that nothing a session is asked for afterwards can tell
which of them was evaluated. What they differ in is their own answer and a record in the log.

Both forms show their parts, and either may be given up for want of room to do so. A named function
is shown for the log besides, but the parameters of a defined lambda have one level less to nest.
-/

namespace SetLisp

open Eval

def namedFunction (name : Value) (parameters : List Value) (body : Value) : Value :=
  .list (.symbol "fn" :: name :: (parameters ++ [body]))

def definedLambda (name : Value) (parameters : List Value) (body : Value) : Value :=
  .list [.symbol "define", name, .list (.symbol "lambda" :: (parameters ++ [body]))]

/-- What fits into some room is not too deep for more. -/
theorem Value.textFault?_eq_tooDeep_of_le {room more : Nat} (hle : room ≤ more) {value : Value}
    (h : value.textFault? more = some .tooDeep) : value.textFault? room = some .tooDeep := by
  by_contra hfits
  rw [value.textFault?_of_le hle hfits] at h
  exact hfits h

namespace Eval

section ComesTo

variable {α β : Type} {parts : List Value} {room more : Nat} {action : Eval α} {next : α → Eval β}
  {machine middle after : Machine} {value : α} {answer : β}

/-- The action leads from the machine to the value and the machine behind it, unless it is given up
because one of the parts is too deep for the room. -/
def ComesTo (parts : List Value) (room : Nat) (action : Eval α) (machine : Machine) (value : α)
    (after : Machine) : Prop :=
  action.outcome machine = (.ok value, after) ∨
    (action.outcome machine).1 = .error .exhausted ∧
      ∃ part ∈ parts, part.textFault? room = some .tooDeep

namespace ComesTo

theorem of_outcome (h : action.outcome machine = (.ok value, after)) :
    ComesTo parts room action machine value after :=
  .inl h

theorem bind (h : ComesTo parts room action machine value middle)
    (hnext : ComesTo parts room (next value) middle answer after) :
    ComesTo parts room (action >>= next) machine answer after := by
  rw [ComesTo, outcome_bind]
  obtain hvalue | ⟨hexhausted, hdeep⟩ := h
  · rw [hvalue]
    exact hnext
  · rcases houtcome : action.outcome machine with ⟨halt | value, ended⟩
    · rw [houtcome] at hexhausted
      exact .inr ⟨congrArg Except.error (Except.error.inj hexhausted), hdeep⟩
    · rw [houtcome] at hexhausted
      cases hexhausted

end ComesTo

/-- A value is shown unless it is too deep, and then one of the parts must be. -/
theorem comesTo_textOf {shown : Value} (hshown : shown.Showable)
    (hdeep : shown.textFault? more = some .tooDeep →
      ∃ part ∈ parts, part.textFault? room = some .tooDeep) (machine : Machine) :
    ComesTo parts room (textOf more shown) machine shown.text machine := by
  rw [ComesTo, textOf]
  cases hfault : shown.textFault? more with
  | none => exact .inl rfl
  | some fault =>
      cases fault with
      | tooDeep => exact .inr ⟨rfl, hdeep hfault⟩
      | integerTooLarge => exact absurd hfault (hshown more)

variable (hparts : ∀ part ∈ parts, part.Showable)

include hparts

theorem comesTo_textOf_part (hle : room ≤ more) {part : Value} (hpart : part ∈ parts)
    (machine : Machine) : ComesTo parts room (textOf more part) machine part.text machine :=
  comesTo_textOf (hparts part hpart)
    (fun hdeep => ⟨part, hpart, Value.textFault?_eq_tooDeep_of_le hle hdeep⟩) machine

theorem comesTo_textsOf (hle : room ≤ more) {values : List Value}
    (hvalues : ∀ value ∈ values, value ∈ parts) (machine : Machine) :
    ComesTo parts room (textsOf more values) machine (values.map Value.text) machine := by
  induction values with
  | nil => exact .of_outcome rfl
  | cons value rest ih =>
      obtain ⟨hvalue, hrest⟩ := List.forall_mem_cons.mp hvalues
      refine (comesTo_textOf_part hparts hle hvalue machine).bind ?_
      exact (ih hrest).bind (.of_outcome rfl)

theorem comesTo_makeLambda (hle : room ≤ more) {parameters : List Value}
    (hparameters : ∀ parameter ∈ parameters, parameter ∈ parts) (body : Value)
    (machine : Machine) :
    ComesTo parts room (makeLambda more parameters body) machine
      (.lambda machine.next (parameters.map Value.text) body) (machine.skip 1) :=
  (comesTo_textsOf hparts hle hparameters machine).bind (.of_outcome rfl)

end ComesTo

end Eval

section Forms

variable {room : Nat} {name body : Value} {parameters : List Value}

/-- What the log says about a named function. -/
def definitionRecord (name made : Value) : LogRecord :=
  { severity := .debug
    source := .functionForm
    message := "defined " ++ name.text ++ " as " ++ made.text }

variable (hparts : ∀ part ∈ name :: body :: parameters, part.Showable) (hne : parameters ≠ [])

include hparts hne

theorem comesTo_definedLambda (machine : Machine) :
    let made := Value.lambda machine.next (parameters.map Value.text) body
    ComesTo (name :: body :: parameters) room
      (evaluate (room + 2) (definedLambda name parameters body)) machine made
      ((machine.skip 1).define name.text made) := by
  intro made
  have hform : evaluate (room + 2) (definedLambda name parameters body) =
      runForm (evaluate (room + 1)) (room + 1) .define
        [name, .list (.symbol "lambda" :: (parameters ++ [body]))] := rfl
  have hlambda : evaluate (room + 1) (.list (.symbol "lambda" :: (parameters ++ [body]))) =
      runForm (evaluate room) room .lambda (parameters ++ [body]) := rfl
  rw [hform, runForm_define, hlambda, runForm_lambda _ _ hne]
  refine (comesTo_makeLambda hparts (Nat.le_refl room) (by simp +contextual) body machine).bind ?_
  refine (comesTo_textOf_part hparts (Nat.le_succ room) (by simp) (machine.skip 1)).bind ?_
  exact .of_outcome rfl

theorem comesTo_namedFunction (machine : Machine) :
    let made := Value.lambda machine.next (parameters.map Value.text) body
    ComesTo (name :: body :: parameters) room
      (evaluate (room + 2) (namedFunction name parameters body)) machine (.boolean true)
      (((machine.skip 1).define name.text made).record (definitionRecord name made)) := by
  intro made
  have hform : evaluate (room + 2) (namedFunction name parameters body) =
      runForm (evaluate (room + 1)) (room + 1) .function (name :: (parameters ++ [body])) := rfl
  rw [hform, runForm_function _ _ name hne, defineFunction]
  refine (comesTo_makeLambda hparts (Nat.le_succ room) (by simp +contextual) body machine).bind ?_
  refine (comesTo_textOf_part hparts (Nat.le_succ room) (by simp) (machine.skip 1)).bind ?_
  let defined := (machine.skip 1).define name.text made
  refine (ComesTo.of_outcome (outcome_define name.text made (machine.skip 1))).bind ?_
  refine (ComesTo.of_outcome (outcome_debugging defined)).bind ?_
  cases hdebug : defined.level.admits .debug with
  | false =>
      have hquiet : defined.record (definitionRecord name made) = defined :=
        if_neg (ne_true_of_eq_false hdebug)
      rw [hquiet]
      exact .of_outcome rfl
  | true =>
      have hbody : body ∈ name :: body :: parameters := by simp
      have hmade : made.Showable := .of_succ (hparts body hbody)
      have hrecorded : ComesTo (name :: body :: parameters) room
          (recordDefinition (room + 1) name.text made) defined ()
          (defined.record (definitionRecord name made)) := by
        rw [ComesTo, recordDefinition]
        cases hfault : made.textFault? (room + 1) with
        | none => exact .inl rfl
        | some fault =>
            cases fault with
            -- the body has one level less to nest than the lambda around it
            | tooDeep => exact .inr ⟨rfl, body, hbody, hfault⟩
            | integerTooLarge => exact absurd hfault (hmade (room + 1))
      exact hrecorded.bind (.of_outcome rfl)

end Forms

namespace Session

section NamedFunctions

variable {session : Session} {name body expr value : Value} {parameters parts : List Value}
  {room : Nat} {machine after : Machine}

/-- The session answers with the value, unless it has no room since one of the parts is too deep. -/
theorem evaluate_of_comesTo
    (h : ComesTo parts room (SetLisp.evaluate session.limit expr) session.machine value after) :
    session.evaluate expr = (.ok value, { session with machine := after }) ∨
      ¬ session.HasRoomFor (.evaluate expr) ∧
        ∃ part ∈ parts, part.textFault? room = some .tooDeep := by
  rw [HasRoomFor, Session.evaluate, run_eq]
  obtain hvalue | ⟨hexhausted, hdeep⟩ := h
  · rw [hvalue]
    exact .inl rfl
  · rw [hexhausted]
    exact .inr ⟨fun hroom => hroom rfl, hdeep⟩

theorem hasRoomFor_of_comesTo
    (h : ComesTo parts room (SetLisp.evaluate session.limit expr) session.machine value after)
    (hfits : ∀ part ∈ parts, part.textFault? room ≠ some .tooDeep) :
    session.HasRoomFor (.evaluate expr) := by
  obtain hvalue | ⟨-, part, hpart, hdeep⟩ := evaluate_of_comesTo h
  · intro hexhausted
    cases hvalue ▸ hexhausted
  · exact absurd hdeep (hfits part hpart)

theorem evaluate_eq_of_hasRoomFor
    (h : ComesTo parts room (SetLisp.evaluate session.limit expr) session.machine value after)
    (hroom : session.HasRoomFor (.evaluate expr)) :
    session.evaluate expr = (.ok value, { session with machine := after }) :=
  (evaluate_of_comesTo h).resolve_right fun hdeep => hdeep.1 hroom

/-- A definition and the lambda in it take one level each. -/
theorem exists_limit_of_hasRoomFor
    (h : session.HasRoomFor (.evaluate (definedLambda name parameters body))) :
    ∃ room, session.limit = room + 2 := by
  obtain ⟨machine, keepGoing, limit⟩ := session
  match limit with
  | 0 | 1 => exact absurd rfl h
  | room + 2 => exact ⟨room, rfl⟩

theorem evaluate_without_parameters (hlimit : session.limit = room + 2) (name body : Value) :
    session.evaluate (namedFunction name [] body) =
        (.error (.eval (.formArity .function)), session) ∧
      session.evaluate (definedLambda name [] body) =
        (.error (.eval (.formArity .lambda)), session) := by
  obtain ⟨machine, keepGoing, limit⟩ := session
  obtain rfl : limit = room + 2 := hlimit
  exact ⟨rfl, rfl⟩

/-- A session looks the same without a record that its machine makes while it debugs. -/
theorem LooksLike.of_record (session : Session) {entry : LogRecord}
    (hentry : entry.severity = .debug) (machine : Machine) :
    LooksLike { session with machine := machine.record entry }
      { session with machine := machine } where
  chain_eq := (machine.chain_record entry).symm
  output_eq := (machine.output_record entry).symm
  next_eq := (machine.next_record entry).symm
  keepGoing_eq := rfl
  limit_eq := rfl
  errors_eq := (machine.errors_record_of_ne (by rw [hentry]; decide)).symm

/-- Sessions that look alike behind an expression each answer alike from there on. -/
theorem LooksLike.answers_evaluate {other : Value}
    (h : (session.evaluate expr).2.LooksLike (session.evaluate other).2)
    (requests : List Request) :
    List.Forall₂ (fun step step' => step'.1 = step.1 ∧ step.2.LooksLike step'.2)
      ((session.evaluate expr).2.answers requests)
      ((session.evaluate other).2.answers requests) := by
  have hlevel (expr : Value) :
      (session.evaluate expr).2.machine.level = session.machine.level :=
    level_answer session (.evaluate expr)
  exact h.answers (.inl (by rw [hlevel, hlevel]))

section Parts

variable (hparts : ∀ part ∈ name :: body :: parameters, part.Showable)

include hparts

theorem evaluate_with_parameters (hne : parameters ≠ []) (hlimit : session.limit = room + 2)
    (hfunction : session.HasRoomFor (.evaluate (namedFunction name parameters body)))
    (hdefinition : session.HasRoomFor (.evaluate (definedLambda name parameters body))) :
    let made := Value.lambda session.machine.next (parameters.map Value.text) body
    let machine := (session.machine.skip 1).define name.text made
    session.evaluate (namedFunction name parameters body) =
        (.ok (.boolean true),
          { session with machine := machine.record (definitionRecord name made) }) ∧
      session.evaluate (definedLambda name parameters body) =
        (.ok made, { session with machine := machine }) :=
  ⟨evaluate_eq_of_hasRoomFor (hlimit ▸ comesTo_namedFunction hparts hne _) hfunction,
    evaluate_eq_of_hasRoomFor (hlimit ▸ comesTo_definedLambda hparts hne _) hdefinition⟩

/-- There is room for both forms where two levels more than their parts need are left. -/
theorem hasRoomFor_forms (hlimit : room + 2 ≤ session.limit)
    (hfits : ∀ part ∈ name :: body :: parameters, part.textFault? room ≠ some .tooDeep) :
    session.HasRoomFor (.evaluate (namedFunction name parameters body)) ∧
      session.HasRoomFor (.evaluate (definedLambda name parameters body)) := by
  obtain ⟨more, hmore⟩ := Nat.exists_eq_add_of_le' (Nat.le_of_add_left_le hlimit)
  have hroom : room ≤ more := by omega
  have hfitsMore : ∀ part ∈ name :: body :: parameters, part.textFault? more ≠ some .tooDeep :=
    fun part hpart hdeep => hfits part hpart (Value.textFault?_eq_tooDeep_of_le hroom hdeep)
  by_cases hne : parameters = []
  · subst hne
    obtain ⟨hnamed, hdefined⟩ := evaluate_without_parameters hmore name body
    constructor
    · intro hexhausted
      cases hnamed ▸ hexhausted
    · intro hexhausted
      cases hdefined ▸ hexhausted
  · exact ⟨hasRoomFor_of_comesTo (hmore ▸ comesTo_namedFunction hparts hne _) hfitsMore,
      hasRoomFor_of_comesTo (hmore ▸ comesTo_definedLambda hparts hne _) hfitsMore⟩

end Parts

end NamedFunctions

/-- **A named function is a defined lambda.** Without parameters both forms are refused and change
nothing. With parameters the definition has the lambda for its value and the named function has
true, and both bind a lambda of the next identity with the same parameters and the same body, so
that the two sessions answer alike to whatever they are asked for afterwards. Both have handed out
one identity, so that the same ones follow.

Either form is given up only if one of its parts is too deep to be shown. Nothing but that can keep
an expression of the language from being shown. -/
theorem named_function_is_defined_lambda (session : Session) (name : Value)
    (parameters : List Value) (body : Value)
    (hparts : ∀ part ∈ name :: body :: parameters, part.Showable) :
    let function := namedFunction name parameters body
    let definition := definedLambda name parameters body
    let named := session.evaluate function
    let defined := session.evaluate definition
    let made := Value.lambda session.machine.next (parameters.map Value.text) body
    (∀ room, room + 2 ≤ session.limit →
      (∀ part ∈ name :: body :: parameters, part.textFault? room ≠ some .tooDeep) →
      session.HasRoomFor (.evaluate function) ∧ session.HasRoomFor (.evaluate definition)) ∧
    (session.HasRoomFor (.evaluate function) → session.HasRoomFor (.evaluate definition) →
      (parameters = [] → named = (.error (.eval (.formArity .function)), session) ∧
        defined = (.error (.eval (.formArity .lambda)), session)) ∧
      (parameters ≠ [] → named.1 = .ok (.boolean true) ∧ defined.1 = .ok made ∧
        named.2.machine.chain = session.machine.chain.define name.text made ∧
        defined.2.machine.chain = session.machine.chain.define name.text made) ∧
      named.2.LooksLike defined.2 ∧
      ∀ requests, List.Forall₂ (fun step step' => step'.1 = step.1 ∧ step.2.LooksLike step'.2)
        (named.2.answers requests) (defined.2.answers requests)) := by
  intro function definition named defined made
  refine ⟨fun room hlimit hfits => hasRoomFor_forms hparts hlimit hfits,
    fun hfunction hdefinition => ?_⟩
  obtain ⟨room, hlimit⟩ := exists_limit_of_hasRoomFor hdefinition
  have hrefused (hnone : parameters = []) :
      named = (.error (.eval (.formArity .function)), session) ∧
        defined = (.error (.eval (.formArity .lambda)), session) := by
    subst hnone
    exact evaluate_without_parameters hlimit name body
  have hmade (hne : parameters ≠ []) :=
    evaluate_with_parameters hparts hne hlimit hfunction hdefinition
  have halike : named.2.LooksLike defined.2 := by
    by_cases hne : parameters = []
    · rw [(hrefused hne).1, (hrefused hne).2]
      exact ⟨.refl session, rfl⟩
    · change (session.evaluate function).2.LooksLike (session.evaluate definition).2
      rw [(hmade hne).1, (hmade hne).2]
      exact .of_record session rfl _
  refine ⟨hrefused, fun hne => ?_, halike, halike.answers_evaluate⟩
  obtain ⟨hnamed, hdefined⟩ := hmade hne
  refine ⟨congrArg Prod.fst hnamed, congrArg Prod.fst hdefined, ?_, ?_⟩
  · exact (congrArg (·.2.machine.chain) hnamed).trans (Machine.chain_record _ _)
  · exact congrArg (·.2.machine.chain) hdefined

/-- One parameter is no symbol, and the body looks up a name that only its caller binds. The log
tells the two forms apart, and nothing else does. -/
theorem named_function_is_defined_lambda_of_caller :
    let session := Session.start .debug false
    let parameters : List Value := [.symbol "x", .list [.symbol "x"]]
    let body : Value := .list [.symbol "cons", .symbol "x", .symbol "rest"]
    let named := session.evaluate (namedFunction (.symbol "f") parameters body)
    let defined := session.evaluate (definedLambda (.symbol "f") parameters body)
    let requests : List Request := [.eval "(fn g rest (f true rest))", .eval "(g '(1))"]
    (∀ part ∈ Value.symbol "f" :: body :: parameters, part.Showable) ∧
      named.1 = .ok (.boolean true) ∧
      defined.1 = .ok (.lambda session.machine.next ["x", "(x)"] body) ∧
      named.2.machine.log ≠ defined.2.machine.log ∧
      List.Forall₂ (fun step step' => step'.1 = step.1 ∧ step.2.LooksLike step'.2)
        (named.2.answers requests) (defined.2.answers requests) := by
  intro session parameters body named defined requests
  have hparts : ∀ part ∈ Value.symbol "f" :: body :: parameters, part.Showable := by
    have hsymbol (name : String) : (Value.symbol name).InRange := .symbol name
    have hlist : (Value.list [.symbol "x"]).InRange := .list (by simp [hsymbol])
    have hbody : body.InRange := .list (by simp [hsymbol])
    intro part hpart
    refine Value.InRange.showable ?_
    simp only [parameters, List.mem_cons, List.not_mem_nil, or_false] at hpart
    rcases hpart with rfl | rfl | rfl | rfl <;> simp only [hsymbol, hbody, hlist]
  have hfits : ∀ part ∈ Value.symbol "f" :: body :: parameters,
      part.textFault? 3 ≠ some .tooDeep := by decide
  obtain ⟨hroom, halike⟩ := named_function_is_defined_lambda session _ parameters body hparts
  obtain ⟨hfunction, hdefinition⟩ := hroom 3 (by decide) hfits
  obtain ⟨-, hmade, -, hanswers⟩ := halike hfunction hdefinition
  obtain ⟨hnamed, hdefined, -⟩ := hmade (List.cons_ne_nil _ _)
  exact ⟨hparts, hnamed, hdefined, List.cons_ne_nil _ _, hanswers requests⟩

end Session

end SetLisp
