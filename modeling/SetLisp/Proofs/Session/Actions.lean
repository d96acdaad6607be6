import SetLisp.Proofs.Eval.Room
import SetLisp.Proofs.Eval.Soundness
import SetLisp.Proofs.Session.Recording
import SetLisp.Proofs.Value.InRange
import SetLisp.Session.File

namespace SetLisp

open Eval

namespace Session

/-- Evaluates the expressions of a term and writes the texts of their values. -/
def showEach (room : Nat) (exprs : List Value) : Eval Unit := do
  let pairs ← evaluateRecorded room exprs
  let texts ← textsOf room (pairs.map (·.2))
  Eval.write (String.join (texts.map (· ++ "\n")))

variable {α : Type} {session : Session} {action : Eval α}

theorem run_eq (session : Session) (action : Eval α) :
    session.run action = ((action.outcome session.machine).1.mapError Failure.ofHalt,
      { session with machine := (action.outcome session.machine).2 }) := rfl

section Text

variable {text : String} (action : List Value → Eval α)

theorem runText_of_parse_error {failure : ParseFailure}
    (h : parseAll session.limit session.machine.next (tokenize text) = .error failure) :
    session.runText text action = (.error (.ofParseFault failure.fault), session) := by
  rw [runText, h]

theorem runText_of_parse_ok {exprs : List Value}
    (h : parseAll session.limit session.machine.next (tokenize text) = .ok exprs) :
    session.runText text action =
      { session with machine := session.machine.skip (tokenize text).length }.run
        (action exprs) := by
  rw [runText, h]

end Text

theorem runTerm_eq (session : Session) (term : String) :
    session.runTerm term = session.runText term (showEach session.limit) := by
  rw [runTerm, evalTerm, runText, runText]
  cases parseAll session.limit session.machine.next (tokenize term) with
  | error failure => rfl
  | ok exprs =>
      dsimp only
      rw [run_eq, run_eq, showEach, outcome_bind]
      rcases (evaluateRecorded session.limit exprs).outcome _ with ⟨halt | pairs, after⟩
      · rfl
      · dsimp only [Except.mapError]
        rw [run_eq, outcome_bind]
        dsimp only
        generalize (textsOf session.limit (pairs.map fun pair => pair.2)).outcome after = ended
        obtain ⟨halt | texts, ended⟩ := ended <;> rfl

theorem runTerm_of_parse_ok {term : String} {exprs : List Value}
    (h : parseAll session.limit session.machine.next (tokenize term) = .ok exprs) :
    session.runTerm term =
      { session with machine := session.machine.skip (tokenize term).length }.run
        (showEach session.limit exprs) := by
  rw [runTerm_eq, runText_of_parse_ok _ h]

theorem renames_showEach {ρ : Nat → Nat} {m₀ n₀ : Machine} {bound : Nat}
    (hρ : Carries ρ m₀ n₀ bound) (room : Nat) (exprs : List Value) :
    Renames ρ m₀ n₀ bound id (showEach room exprs)
      (showEach room (exprs.map (Value.renamed ρ))) := by
  refine (renames_evaluateRecorded hρ room exprs).bind fun pairs => ?_
  have hvalues : (pairs.map (Prod.map (Value.renamed ρ) (Value.renamed ρ))).map (·.2) =
      (pairs.map (·.2)).map (Value.renamed ρ) := by
    rw [List.map_map, List.map_map]
    rfl
  rw [hvalues]
  exact (renames_textsOf room _).bind fun texts => renames_write _

theorem ignoresLog_showEach (room : Nat) (exprs : List Value) :
    IgnoresLog (showEach room exprs) := by
  refine (ignoresLog_evaluateRecorded room exprs).bind fun pairs => ?_
  refine (ignoresLog_textsOf room _).bind fun texts => ?_
  exact ignoresLog_write _

theorem level_run (h : IgnoresLog action) :
    (session.run action).2.machine.level = session.machine.level :=
  (h.outcome session.machine).1

/-- What is run records no error by itself. -/
theorem errors_run (h : IgnoresLog action) :
    (session.run action).2.machine.errors = session.machine.errors :=
  (h.outcome session.machine).2.1

theorem truncates_evaluateRecorded (room : Nat) (exprs : List Value) :
    Truncates (evaluateRecorded room exprs) (evaluateRecorded room exprs) := by
  induction exprs with
  | nil => exact .pure []
  | cons expr rest ih =>
      refine (truncates_evaluate (Nat.le_refl room) expr).bind fun value => ?_
      have hpairs := ih.bind fun pairs => Truncates.pure ((expr, value) :: pairs)
      refine truncates_debugging.bind fun debug => ?_
      cases debug with
      | false => exact hpairs
      | true =>
          refine (truncates_textOf (Nat.le_refl room) expr).bind fun shown => ?_
          refine (truncates_textOf (Nat.le_refl room) value).bind fun text => ?_
          exact (truncates_record _ _ _).bind fun _ => hpairs

theorem truncates_showEach (room : Nat) (exprs : List Value) :
    Truncates (showEach room exprs) (showEach room exprs) := by
  refine (truncates_evaluateRecorded room exprs).bind fun pairs => ?_
  exact (truncates_textsOf (Nat.le_refl room) _).bind fun texts => truncates_write _

section Sound

variable {code good : Value → Prop} (hclosed : Value.ClosedUnderEvaluation code good)

include hclosed

theorem sound_evaluateRecorded (room : Nat) {exprs : List Value}
    (hexprs : ∀ expr ∈ exprs, code expr) :
    Sound good (fun pairs => ∀ pair ∈ pairs, good pair.2) (evaluateRecorded room exprs) := by
  induction exprs with
  | nil => exact Keeps.pure (List.forall_mem_nil _)
  | cons expr rest ih =>
      have hexpr := hexprs expr List.mem_cons_self
      refine (hclosed.sound_evaluate room hexpr).bind fun value hvalue => ?_
      have hrest := ih fun other hother => hexprs other (List.mem_cons_of_mem expr hother)
      have hpairs : Sound good (fun pairs => ∀ pair ∈ pairs, good pair.2)
          (do
            let pairs ← evaluateRecorded room rest
            return (expr, value) :: pairs) :=
        hrest.bind fun pairs hpairs => Keeps.pure (List.forall_mem_cons.mpr ⟨hvalue, hpairs⟩)
      refine keeps_debugging.bind fun debug _ => ?_
      cases debug with
      | false => exact hpairs
      | true =>
          refine (sound_textOf (hclosed.showable_code hexpr) room).bind fun shown _ => ?_
          refine (sound_textOf (hclosed.showable hvalue) room).bind fun text _ => ?_
          exact (sound_record _ _ _).bind fun _ _ => hpairs

theorem sound_showEach (room : Nat) {exprs : List Value} (hexprs : ∀ expr ∈ exprs, code expr) :
    Sound good (fun _ => True) (showEach room exprs) := by
  refine (sound_evaluateRecorded hclosed room hexprs).bind fun pairs hpairs => ?_
  have htexts : Sound good (fun texts => texts = (pairs.map (·.2)).map Value.text)
      (textsOf room (pairs.map (·.2))) :=
    keeps_textsOf nofun fun value hvalue => by
      obtain ⟨pair, hpair, rfl⟩ := List.mem_map.mp hvalue
      exact hclosed.showable (hpairs pair hpair) room
  exact htexts.bind fun texts _ => keeps_write (fun _ _ hchain => hchain) _

end Sound

/-- The result of a sound action: no fault, and nothing but what it may answer. -/
def ResultOf (answers : α → Prop) (result : Except Failure α) : Prop :=
  (∀ fault, result ≠ .error (.fault fault)) ∧ ∀ value, result = .ok value → answers value

variable {good : Value → Prop} {answers : α → Prop}

theorem run_sound (h : Sound good answers action) (hchain : session.machine.chain.Binds good) :
    (session.run action).2.machine.chain.Binds good ∧ ResultOf answers (session.run action).1 := by
  obtain ⟨hafter, hends⟩ := h session.machine hchain
  rw [run_eq]
  refine ⟨hafter, ?_⟩
  rcases hresult : (action.outcome session.machine).1 with halt | value
  · rw [hresult] at hends
    refine ⟨?_, nofun⟩
    cases halt with
    | error | exhausted => exact nofun
    | fault fault => exact absurd rfl (hends fault)
  · rw [hresult] at hends
    refine ⟨nofun, fun other hother => ?_⟩
    cases hother
    exact hends

theorem inRange_start (level : LogLevel) (keepGoing : Bool) :
    (start level keepGoing).machine.chain.Binds Value.InRange :=
  fun frame hframe binding hbinding =>
    (Reachable.start.wellFormed frame hframe binding hbinding).inRange

section Text

variable {action : List Value → Eval α} (text : String)

/-- The session with another answer to the question whether it keeps going. -/
def withKeepGoing (session : Session) (keepGoing : Bool) : Session :=
  { session with keepGoing := keepGoing }

theorem runText_withKeepGoing (keepGoing : Bool) :
    (session.withKeepGoing keepGoing).runText text action =
      ((session.runText text action).1,
        (session.runText text action).2.withKeepGoing keepGoing) := by
  cases hparse : parseAll session.limit session.machine.next (tokenize text) with
  | error failure =>
      rw [runText_of_parse_error action hparse]
      exact runText_of_parse_error action hparse
  | ok exprs =>
      rw [runText_of_parse_ok action hparse]
      exact runText_of_parse_ok action hparse

theorem level_runText (h : ∀ exprs, IgnoresLog (action exprs)) :
    (session.runText text action).2.machine.level = session.machine.level := by
  cases hparse : parseAll session.limit session.machine.next (tokenize text) with
  | error failure => rw [runText_of_parse_error action hparse]
  | ok exprs =>
      rw [runText_of_parse_ok action hparse]
      exact level_run (h exprs)

theorem errors_runText (h : ∀ exprs, IgnoresLog (action exprs)) :
    (session.runText text action).2.machine.errors = session.machine.errors := by
  cases hparse : parseAll session.limit session.machine.next (tokenize text) with
  | error failure => rw [runText_of_parse_error action hparse]
  | ok exprs =>
      rw [runText_of_parse_ok action hparse]
      exact errors_run (h exprs)

theorem runText_growsTo (h : ∀ exprs, Truncates (action exprs) (action exprs)) :
    session.machine.GrowsTo (session.runText text action).2.machine := by
  cases hparse : parseAll session.limit session.machine.next (tokenize text) with
  | error failure =>
      rw [runText_of_parse_error action hparse]
      exact .refl
  | ok exprs =>
      rw [runText_of_parse_ok action hparse]
      exact (Machine.GrowsTo.skip _).trans ((h exprs).growsTo _)

/-- What an action keeps that runs expressions, a session keeps that runs it on a text. -/
theorem runText_sound {good : Value → Prop} {answers : α → Prop}
    (h : ∀ exprs : List Value, (∀ expr ∈ exprs, expr.IsExpression) →
      Sound good answers (action exprs))
    (hchain : session.machine.chain.Binds good) :
    (session.runText text action).2.machine.chain.Binds good ∧
      ResultOf answers (session.runText text action).1 := by
  cases hparse : parseAll session.limit session.machine.next (tokenize text) with
  | error failure =>
      rw [runText_of_parse_error action hparse]
      refine ⟨hchain, ?_, nofun⟩
      obtain ⟨fault, position⟩ := failure
      cases fault <;> exact nofun
  | ok exprs =>
      have hexprs := (parseAll_eq_ok_iff.mp hparse).1.isExpression
        fun token htoken => mem_tokenize htoken
      rw [runText_of_parse_ok action hparse]
      exact run_sound (h exprs hexprs) hchain

end Text

end Session

end SetLisp
