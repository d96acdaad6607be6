import SetLisp.Proofs.Eval.LogBlind
import SetLisp.Session

namespace SetLisp

open Eval

variable {ρ : Nat → Nat} {m₀ n₀ : Machine} {bound : Nat}

theorem renames_evaluateRecorded (hρ : Carries ρ m₀ n₀ bound) (room : Nat) (exprs : List Value) :
    Renames ρ m₀ n₀ bound (List.map (Prod.map (Value.renamed ρ) (Value.renamed ρ)))
      (Session.evaluateRecorded room exprs)
      (Session.evaluateRecorded room (exprs.map (Value.renamed ρ))) := by
  induction exprs with
  | nil => exact Renames.pure (List.map (Prod.map (Value.renamed ρ) (Value.renamed ρ))) []
  | cons expr rest ih =>
      refine (renames_evaluate hρ room expr).bind fun value => ?_
      have hpairs : Renames ρ m₀ n₀ bound
          (List.map (Prod.map (Value.renamed ρ) (Value.renamed ρ)))
          (do
            let pairs ← Session.evaluateRecorded room rest
            return (expr, value) :: pairs)
          (do
            let pairs ← Session.evaluateRecorded room (rest.map (Value.renamed ρ))
            return (expr.renamed ρ, value.renamed ρ) :: pairs) :=
        ih.bind fun pairs =>
          Renames.pure (List.map (Prod.map (Value.renamed ρ) (Value.renamed ρ)))
            ((expr, value) :: pairs)
      refine Renames.whenDebugging ?_ hpairs fun hlevels => ?_
      · refine (renames_textOf room expr).bind fun shown => ?_
        refine (renames_textOf room value).bind fun text => ?_
        exact (renames_record _ _).bind fun _ => hpairs
      · refine .textOf_left hlevels fun shown => .textOf_left hlevels fun text => ?_
        exact .record_left hlevels hpairs

theorem ignoresLog_evaluateRecorded (room : Nat) (exprs : List Value) :
    IgnoresLog (Session.evaluateRecorded room exprs) := by
  intro m₀ n₀ bound hnext
  have hrenames := renames_evaluateRecorded (carries_id hnext bound) room exprs
  have hid : List.map (Prod.map (Value.renamed id) (Value.renamed id)) = id := by
    rw [funext Value.renamed_id]
    exact funext List.map_id
  rwa [map_renamed_id, hid] at hrenames

/-- While nothing of it is recorded, the expressions are evaluated as ever. -/
theorem outcome_evaluateRecorded (room : Nat) (exprs : List Value) {machine : Machine}
    (hquiet : machine.level.admits .debug = false) :
    (Session.evaluateRecorded room exprs).outcome machine =
      (((evaluateAll room exprs).outcome machine).1.map exprs.zip,
        ((evaluateAll room exprs).outcome machine).2) := by
  induction exprs generalizing machine with
  | nil => rfl
  | cons expr rest ih =>
      obtain ⟨hlevel, -⟩ := (ignoresLog_evaluate room expr).outcome machine
      rw [Session.evaluateRecorded, evaluateAll, evaluateEach, outcome_bind, outcome_bind]
      rcases hvalue : (evaluate room expr).outcome machine with ⟨halt | value, after⟩
      · rfl
      · rw [hvalue] at hlevel
        have hafter : after.level.admits .debug = false := by rw [hlevel, hquiet]
        have hrest := ih hafter
        dsimp only
        rw [outcome_bind, outcome_debugging, hafter]
        change (Session.evaluateRecorded room rest >>= fun pairs =>
          pure ((expr, value) :: pairs)).outcome after = _
        rw [outcome_bind, hrest, outcome_bind, ← evaluateAll]
        rcases (evaluateAll room rest).outcome after with ⟨halt | values, ended⟩ <;> rfl

end SetLisp
