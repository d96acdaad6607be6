import SetLisp.Proofs.Session.Actions

namespace SetLisp

open Eval

namespace Session

/-- The sessions differ at most in what they have recorded and in what they record. -/
structure AgreesWith (first second : Session) : Prop where
  chain_eq : second.machine.chain = first.machine.chain
  output_eq : second.machine.output = first.machine.output
  next_eq : second.machine.next = first.machine.next
  keepGoing_eq : second.keepGoing = first.keepGoing
  limit_eq : second.limit = first.limit

/-- Whether a session at the second level has to come to the result that one at the first level has
come to. It has to if both show the same for their logs, and if the first one shows all and was not
stopped by it. -/
def Settles {α : Type} (level level' : LogLevel) (result : Except Failure α) : Prop :=
  level.admits .debug = level'.admits .debug ∨
    level.admits .debug = true ∧ result ≠ .error (.eval .depthExceeded) ∧
      ∀ fault, result ≠ .error (.fault fault)

variable {α : Type} {first second : Session} {action : Eval α}

theorem Settles.decisive {machine machine' : Machine} {result : Except Halt α}
    (h : Settles machine.level machine'.level (result.mapError Failure.ofHalt)) :
    Decisive machine machine' result := by
  refine h.imp id fun ⟨hdebug, hroom, hrange⟩ => ⟨hdebug, fun halt hhalt => ?_⟩
  rw [hhalt] at hroom hrange
  cases halt with
  | error error => exact ⟨error, rfl⟩
  | exhausted => exact absurd rfl hroom
  | fault fault => exact absurd rfl (hrange fault)

namespace AgreesWith

theorem refl (session : Session) : session.AgreesWith session :=
  ⟨rfl, rfl, rfl, rfl, rfl⟩

theorem symm (h : first.AgreesWith second) : second.AgreesWith first :=
  ⟨h.chain_eq.symm, h.output_eq.symm, h.next_eq.symm, h.keepGoing_eq.symm, h.limit_eq.symm⟩

theorem record_right (h : first.AgreesWith second) (severity : Severity) (message : String) :
    first.AgreesWith (second.record severity message) where
  chain_eq := (second.machine.chain_record _).trans h.chain_eq
  output_eq := (second.machine.output_record _).trans h.output_eq
  next_eq := (second.machine.next_record _).trans h.next_eq
  keepGoing_eq := h.keepGoing_eq
  limit_eq := h.limit_eq

theorem record (h : first.AgreesWith second) (severity : Severity) (message : String) :
    (first.record severity message).AgreesWith (second.record severity message) :=
  (h.symm.record_right severity message).symm.record_right severity message

/-- The sessions come to the same with an action that takes no notice of the log. -/
theorem run (h : first.AgreesWith second) (haction : IgnoresLog action)
    (hends : Settles first.machine.level second.machine.level (first.run action).1) :
    (second.run action).1 = (first.run action).1 ∧
      (first.run action).2.AgreesWith (second.run action).2 := by
  rw [run_eq] at hends
  obtain ⟨hresult, hafter⟩ := haction.agrees h.chain_eq h.next_eq hends.decisive
  obtain ⟨text, hfirst, hsecond⟩ := hafter.printed
  rw [run_eq, run_eq, hresult]
  refine ⟨rfl, hafter.chain_eq_of_id, ?_, hafter.next_eq_of_id h.next_eq, h.keepGoing_eq,
    h.limit_eq⟩
  rw [hsecond, hfirst, h.output_eq]

theorem skip (h : first.AgreesWith second) (count : Nat) :
    ({ first with machine := first.machine.skip count } : Session).AgreesWith
      { second with machine := second.machine.skip count } :=
  ⟨h.chain_eq, h.output_eq, congrArg (· + count) h.next_eq, h.keepGoing_eq, h.limit_eq⟩

theorem runText (h : first.AgreesWith second) {action : List Value → Eval α}
    (haction : ∀ exprs, IgnoresLog (action exprs)) (text : String)
    (hends : Settles first.machine.level second.machine.level (first.runText text action).1) :
    (second.runText text action).1 = (first.runText text action).1 ∧
      (first.runText text action).2.AgreesWith (second.runText text action).2 := by
  have hparses : parseAll second.limit second.machine.next (tokenize text) =
      parseAll first.limit first.machine.next (tokenize text) := by rw [h.limit_eq, h.next_eq]
  cases hparse : parseAll first.limit first.machine.next (tokenize text) with
  | error failure =>
      rw [runText_of_parse_error action hparse,
        runText_of_parse_error action (hparses.trans hparse)]
      exact ⟨rfl, h⟩
  | ok exprs =>
      rw [runText_of_parse_ok action hparse] at hends ⊢
      rw [runText_of_parse_ok action (hparses.trans hparse)]
      exact (h.skip (tokenize text).length).run (haction exprs) hends

end AgreesWith

end Session

end SetLisp
