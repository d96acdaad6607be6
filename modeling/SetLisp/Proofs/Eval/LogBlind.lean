import SetLisp.Proofs.Eval.Renaming

/-!
# Taking no notice of the log

A run never reads what has been recorded. Two machines with the same bindings and the same supply of
identities, whatever is in their logs and at whatever levels they record, run an action to the same
end, print the same and bind the same; only what the more talkative one shows for its log may stop
it, for want of room or at an integer too large.
-/

namespace SetLisp

variable {α β : Type} {m₀ n₀ m n : Machine} {bound : Nat}

theorem Machine.Renamed.chain_eq_of_id (h : Machine.Renamed id m₀ n₀ m n) : n.chain = m.chain :=
  h.chain_eq.trans m.chain.renamed_id

theorem Machine.Renamed.next_eq_of_id (h : Machine.Renamed id m₀ n₀ m n)
    (hnext : n₀.next = m₀.next) : n.next = m.next := by
  have hdrawn := h.next_eq
  omega

namespace Eval

/-- The action does the same on two machines with the same supply, however their logs differ. -/
def IgnoresLog (action : Eval α) : Prop :=
  ∀ ⦃m₀ n₀ : Machine⦄ ⦃bound : Nat⦄, n₀.next = m₀.next →
    Renames id m₀ n₀ bound id action action

namespace IgnoresLog

theorem bind {action : Eval α} {next : α → Eval β} (haction : IgnoresLog action)
    (hnext : ∀ value, IgnoresLog (next value)) : IgnoresLog (action >>= next) :=
  fun _ _ _ hsupply => (haction hsupply).bind fun value => hnext value hsupply

variable {action : Eval α}

/-- What the second machine comes to is read off the first. -/
theorem agrees (h : IgnoresLog action) (hchain : n.chain = m.chain) (hnext : n.next = m.next)
    (hends : Decisive m n (action.outcome m).1) :
    (action.outcome n).1 = (action.outcome m).1 ∧
      Machine.Renamed id m n (action.outcome m).2 (action.outcome n).2 := by
  have hstart : Machine.Renamed id m n m n := .refl (hchain.trans m.chain.renamed_id.symm)
  obtain ⟨hresult, hafter⟩ := (h hnext).agrees hstart (Nat.le_refl _) hends
  refine ⟨hresult.trans ?_, hafter⟩
  cases (action.outcome m).1 <;> rfl

/-- What the action does to one machine. -/
theorem outcome (h : IgnoresLog action) (machine : Machine) :
    (action.outcome machine).2.level = machine.level ∧
      (action.outcome machine).2.errors = machine.errors ∧
      ∃ printed drawn, (action.outcome machine).2.output = machine.output ++ printed ∧
        (action.outcome machine).2.next = machine.next + drawn := by
  obtain ⟨-, hafter⟩ := h.agrees rfl rfl (.of_level_eq rfl : Decisive machine machine _)
  obtain ⟨printed, hprinted, -⟩ := hafter.printed
  exact ⟨hafter.level_eq, hafter.errors_eq, printed, _, hprinted,
    (Nat.add_sub_of_le hafter.next_le).symm⟩

end IgnoresLog

theorem map_renamed_id : List.map (Value.renamed id) = id := by
  funext values
  rw [funext Value.renamed_id, List.map_id']
  rfl

theorem ignoresLog_evaluate (room : Nat) (expr : Value) : IgnoresLog (evaluate room expr) := by
  intro m₀ n₀ bound hnext
  have hrenames := renames_evaluate (carries_id hnext bound) room expr
  rwa [Value.renamed_id, funext Value.renamed_id] at hrenames

theorem ignoresLog_evaluateAll (room : Nat) (exprs : List Value) :
    IgnoresLog (evaluateAll room exprs) := by
  intro m₀ n₀ bound hnext
  have hrenames := renames_evaluateAll (carries_id hnext bound) room exprs
  rwa [map_renamed_id] at hrenames

theorem ignoresLog_textsOf (room : Nat) (values : List Value) :
    IgnoresLog (textsOf room values) := by
  intro m₀ n₀ bound _
  have hrenames := @renames_textsOf id m₀ n₀ bound room values
  rwa [map_renamed_id] at hrenames

theorem ignoresLog_write (text : String) : IgnoresLog (write text) :=
  fun _ _ _ _ => renames_write text

end Eval

end SetLisp
