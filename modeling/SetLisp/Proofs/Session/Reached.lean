import SetLisp.Proofs.Builtin.SetAlgebra
import SetLisp.Proofs.Session.Levels

namespace SetLisp

open Eval Function

/-- Well-formed, and without a set that repeats a member. -/
def Value.Sane (value : Value) : Prop :=
  value.WellFormed ∧ value.Distinct

theorem Value.closed_sane : ClosedUnderEvaluation IsExpression Sane where
  boolean value := ⟨.boolean value, .boolean value⟩
  number value := ⟨.number value, .number value⟩
  list_iff := by
    intro items
    simp only [Sane, closed_wellFormed.list_iff, Builtin.closed_distinct.list_iff,
      forall_and]
  ofList h := ⟨closed_wellFormed.ofList fun value hvalue => (h value hvalue).1,
    Builtin.closed_distinct.ofList fun value hvalue => (h value hvalue).2⟩
  unionAll h := ⟨closed_wellFormed.unionAll fun set hset => (h set hset).1,
    Builtin.closed_distinct.unionAll fun set hset => (h set hset).2⟩
  interAll hne h := ⟨closed_wellFormed.interAll hne fun set hset => (h set hset).1,
    Builtin.closed_distinct.interAll hne fun set hset => (h set hset).2⟩
  showable_code := closed_wellFormed.showable_code
  showable h := closed_wellFormed.showable h.1
  code_list_iff := closed_wellFormed.code_list_iff
  of_literal h hsymbol hlist := by
    refine ⟨closed_wellFormed.of_literal h hsymbol hlist, ?_⟩
    cases h with
    | boolean value => exact .boolean value
    | number value => exact .number value
    | symbol => exact absurd rfl (hsymbol _)
    | list => exact absurd rfl (hlist _)
  lambda hparameters hbody := ⟨closed_wellFormed.lambda hparameters hbody, .object rfl⟩
  body_of_lambda h := closed_wellFormed.body_of_lambda h.1

namespace Session

variable {session : Session}

/-- What a program can ask a session for: any text, term or file, and the evaluation of an
expression that has no identity the session still has to hand out. -/
def Request.Admissible (session : Session) : Request → Prop
  | .evaluate expr => expr.IsExpression ∧ session.machine.Knows expr
  | _ => True

/-- The sessions that admissible requests lead to from a start. -/
inductive Reached : Session → Prop
  | start (level : LogLevel) (keepGoing : Bool) : Reached (start level keepGoing)
  | answer {session : Session} (h : Reached session) {request : Request}
      (hrequest : request.Admissible session) : Reached (session.answer request).2

/-- What every request keeps. -/
structure Kept (session : Session) : Prop where
  fresh : session.machine.Fresh
  binds : session.machine.chain.Binds Value.Sane

theorem kept_start (level : LogLevel) (keepGoing : Bool) : (start level keepGoing).Kept where
  fresh := fresh_start level keepGoing
  binds := by
    rintro frame (_ | ⟨_, ⟨⟩⟩) binding hbinding
    refine ⟨wellFormed_initialFrame binding hbinding, ?_⟩
    rcases List.mem_append.mp hbinding with hbuiltin | hconstant
    · obtain ⟨function, -, rfl⟩ := List.mem_map.mp hbuiltin
      exact .object rfl
    · rcases hconstant with _ | ⟨_, _ | ⟨_, ⟨⟩⟩⟩
      · exact .number _
      · exact .number _

namespace Kept

theorem wellFormed (h : session.Kept) : session.machine.chain.WellFormed :=
  fun frame hframe binding hbinding => (h.binds frame hframe binding hbinding).1

theorem inRange (h : session.Kept) : session.machine.chain.Binds Value.InRange :=
  fun frame hframe binding hbinding => (h.wellFormed frame hframe binding hbinding).inRange

theorem record (h : session.Kept) (severity : Severity) (message : String) :
    (session.record severity message).Kept where
  fresh := by
    obtain ⟨hshared, hrenamed⟩ := h.fresh
    rw [Session.record]
    constructor <;> rw [Machine.next_record]
    · exact hshared
    · rw [Machine.chain_record]
      exact hrenamed
  binds := by
    rw [Session.record, Machine.chain_record]
    exact h.binds

/-- A text brings in no identity that is still to be handed out, so an action that renames with its
expressions keeps the session fresh. -/
theorem fresh_runText (h : session.Kept) {α : Type} {action : List Value → Eval α}
    (haction : ∀ {m n : Machine} {ρ : Nat → Nat} {bound : Nat}, Carries ρ m n bound →
      ∀ exprs, ∃ f : α → α,
        Renames ρ m n bound f (action exprs) (action (exprs.map (Value.renamed ρ))))
    (text : String) : (session.runText text action).2.machine.Fresh := by
  cases hparse : parseAll session.limit session.machine.next (tokenize text) with
  | error failure =>
      rw [runText_of_parse_error action hparse]
      exact h.fresh
  | ok exprs =>
      rw [runText_of_parse_ok action hparse]
      refine (h.fresh.skip _).after fun {ρ bound} hρ hfixed => ?_
      have hrenamed := @parseAll_renamed ρ _ _ _ _ _ hparse fun i hi =>
        hfixed _ (Nat.add_lt_add_left hi _)
      have hexprs : exprs.map (Value.renamed ρ) = exprs :=
        Except.ok.inj (hrenamed.symm.trans hparse)
      have hrenames := haction hρ exprs
      rwa [hexprs] at hrenames

theorem eval (h : session.Kept) (text : String) :
    (session.eval text).2.Kept ∧
      ∀ values, (session.eval text).1 = .ok values → ∀ value ∈ values, value.Sane := by
  obtain ⟨hbinds, -, hvalues⟩ := runText_sound text (fun _ hexprs =>
    Value.closed_sane.sound_evaluateAll session.limit hexprs) h.binds
  refine ⟨⟨?_, hbinds⟩, hvalues⟩
  exact h.fresh_runText (fun hρ exprs => ⟨_, renames_evaluateAll hρ session.limit exprs⟩) text

theorem evalTerm (h : session.Kept) (term : String) : (session.evalTerm term).2.Kept where
  fresh := h.fresh_runText
    (fun hρ exprs => ⟨_, renames_evaluateRecorded hρ session.limit exprs⟩) term
  binds := (runText_sound term (fun _ hexprs =>
    sound_evaluateRecorded Value.closed_sane session.limit hexprs) h.binds).1

theorem runTerm (h : session.Kept) (term : String) : (session.runTerm term).2.Kept := by
  rw [runTerm_eq]
  exact ⟨h.fresh_runText (fun hρ exprs => ⟨id, renames_showEach hρ session.limit exprs⟩) term,
    (runText_sound term (fun _ hexprs =>
      sound_showEach Value.closed_sane session.limit hexprs) h.binds).1⟩

theorem evaluate (h : session.Kept) {expr : Value} (hexpr : expr.IsExpression)
    (hknown : session.machine.Knows expr) :
    (session.evaluate expr).2.Kept ∧
      ∀ value, (session.evaluate expr).1 = .ok value → value.Sane := by
  obtain ⟨hbinds, -, hvalue⟩ :=
    run_sound (Value.closed_sane.sound_evaluate session.limit hexpr) h.binds
  refine ⟨⟨h.fresh.after fun {ρ bound} hρ hfixed => ⟨Value.renamed ρ, ?_⟩, hbinds⟩, hvalue⟩
  have hrenames := renames_evaluate hρ session.limit expr
  rwa [hknown ρ hfixed] at hrenames

theorem answer (h : session.Kept) {request : Request} (hrequest : request.Admissible session) :
    (session.answer request).2.Kept := by
  cases request with
  | eval text => exact (h.eval text).1
  | evalTerm term => exact h.evalTerm term
  | evaluate expr => exact (h.evaluate hrequest.1 hrequest.2).1
  | runFile path opened =>
      let keeps (before after : Session) : Prop := before.Kept → after.Kept
      exact @runFile_keeps keeps (fun _ => id) (fun h h' => h' ∘ h) (fun _ term h => h.runTerm term)
        (fun _ severity message h => h.record severity message) session path opened h

end Kept

/-- **What holds of every session.** Whatever it was asked for, no identity that it still has to
hand out is bound, and all that is bound is well-formed and repeats no member in a set. -/
theorem Reached.kept (h : Reached session) : session.Kept := by
  induction h with
  | start level keepGoing => exact kept_start level keepGoing
  | answer _ hrequest ih => exact ih.answer hrequest

end Session

end SetLisp
