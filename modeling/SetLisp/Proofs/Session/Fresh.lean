import SetLisp.Proofs.Eval.Renaming
import SetLisp.Proofs.Reading.Marks
import SetLisp.Session

namespace SetLisp

open Eval Function

variable {ρ : Nat → Nat}

namespace Machine

/-- No binding has an identity that is still to be handed out: renaming such identities changes
nothing. -/
structure Fresh (machine : Machine) : Prop where
  shared : sharedPayload < machine.next
  renamed_eq {ρ : Nat → Nat} (hinjective : Injective ρ) (hfixed : ∀ id < machine.next, ρ id = id) :
    machine.chain.renamed ρ = machine.chain

variable {machine : Machine}

theorem Fresh.skip (h : machine.Fresh) (count : Nat) : (machine.skip count).Fresh where
  shared := Nat.lt_add_right count h.shared
  renamed_eq hinjective hfixed :=
    h.renamed_eq hinjective fun id hid => hfixed id (Nat.lt_add_right count hid)

/-- The value has no identity that is still to be handed out. -/
def Knows (machine : Machine) (value : Value) : Prop :=
  ∀ ρ : Nat → Nat, (∀ id < machine.next, ρ id = id) → value.renamed ρ = value

/-- An action that has no identity still to be handed out keeps the machine fresh: it is its own run
up to a renaming of such identities. -/
theorem Fresh.after {α : Type} {action : Eval α} (h : machine.Fresh)
    (haction : ∀ {ρ : Nat → Nat} {bound : Nat}, Carries ρ machine machine bound →
      (∀ id < machine.next, ρ id = id) →
        ∃ f : α → α, Renames ρ machine machine bound f action action) :
    (action.outcome machine).2.Fresh := by
  obtain ⟨_, hkept⟩ := haction (carries_id rfl 0) fun _ _ => rfl
  have hgrows := hkept.grows machine
  refine ⟨h.shared.trans_le hgrows, fun {ρ} hinjective hfixed => ?_⟩
  have hbefore : ∀ id < machine.next, ρ id = id := fun id hid => hfixed id (hid.trans_le hgrows)
  have hcarries : Carries ρ machine machine (action.outcome machine).2.next :=
    { injective := hinjective
      shared := hbefore _ h.shared
      supply := fun _ hbound => by rw [hfixed _ hbound, Nat.add_comm] }
  have hstart : Machine.Renamed ρ machine machine machine machine :=
    .refl (h.renamed_eq hinjective hbefore).symm
  obtain ⟨_, hrenames⟩ := haction hcarries hbefore
  obtain ⟨-, hafter⟩ := hrenames.agrees hstart (Nat.le_refl _) (.of_level_eq rfl)
  exact hafter.chain_eq.symm

end Machine

theorem Frame.renamed_initialFrame : initialFrame.renamed ρ = initialFrame := by
  have hconstants : renamed ρ constants = constants := by
    simp only [renamed, constants, List.map_cons, List.map_nil, Value.renamed,
      Double.renamed_ofUnits]
  rw [renamed, initialFrame, List.map_append, List.map_map]
  exact congrArg (Builtin.all.map (fun function => (function.name, Value.builtin function)) ++ ·)
    hconstants

namespace Session

theorem fresh_start (level : LogLevel) (keepGoing : Bool) :
    (Session.start level keepGoing).machine.Fresh where
  shared := Nat.zero_lt_one
  renamed_eq _ _ := congrArg (fun own => ({ own := own } : Chain)) Frame.renamed_initialFrame

variable {session : Session} {text : String} {exprs : List Value}

theorem eval_eq (hparse : parseAll session.limit session.machine.next (tokenize text) = .ok exprs) :
    session.eval text =
      let outcome := (evaluateAll session.limit exprs).outcome
        (session.machine.skip (tokenize text).length)
      (outcome.1.mapError Failure.ofHalt, { session with machine := outcome.2 }) := by
  rw [eval, runText, hparse]
  rfl

theorem outcome_of_eval_ok {values : List Value} {evaluated : Session}
    (hparse : parseAll session.limit session.machine.next (tokenize text) = .ok exprs)
    (h : session.eval text = (.ok values, evaluated)) :
    (evaluateAll session.limit exprs).outcome (session.machine.skip (tokenize text).length) =
      (.ok values, evaluated.machine) := by
  rw [eval_eq hparse] at h
  rcases houtcome : (evaluateAll session.limit exprs).outcome
    (session.machine.skip (tokenize text).length) with ⟨halt | found, after⟩ <;> rw [houtcome] at h
  · cases h
  · cases h
    rfl

theorem outcome_of_eval_error {failure : Failure} {evaluated : Session}
    (hparse : parseAll session.limit session.machine.next (tokenize text) = .ok exprs)
    (h : session.eval text = (.error failure, evaluated)) :
    ∃ halt, failure = .ofHalt halt ∧
      (evaluateAll session.limit exprs).outcome (session.machine.skip (tokenize text).length) =
        (.error halt, evaluated.machine) := by
  rw [eval_eq hparse] at h
  rcases houtcome : (evaluateAll session.limit exprs).outcome
    (session.machine.skip (tokenize text).length) with ⟨halt | found, after⟩ <;> rw [houtcome] at h
  · cases h
    exact ⟨halt, rfl, rfl⟩
  · cases h

end Session

end SetLisp
