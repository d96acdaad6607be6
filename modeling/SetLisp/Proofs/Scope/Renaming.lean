import SetLisp.Env.Chain
import SetLisp.Eval.Apply
import SetLisp.Proofs.Value.Renaming

namespace SetLisp

variable {ρ : Nat → Nat}

namespace Frame

def renamed (ρ : Nat → Nat) (frame : Frame) : Frame :=
  frame.map fun binding => (binding.1, binding.2.renamed ρ)

theorem renamed_id (frame : Frame) : frame.renamed id = frame := by
  induction frame with
  | nil => rfl
  | cons binding rest ih =>
      change (binding.1, binding.2.renamed id) :: Frame.renamed id rest = _
      rw [ih, Value.renamed_id]

theorem find?_renamed (frame : Frame) (name : String) :
    (frame.renamed ρ).find? name = (frame.find? name).map (Value.renamed ρ) := by
  induction frame with
  | nil => rfl
  | cons binding rest ih =>
      change (if binding.1 = name then some (binding.2.renamed ρ)
        else (Frame.renamed ρ rest).find? name) = _
      rw [ih, find?]
      split <;> rfl

theorem define_renamed (frame : Frame) (name : String) (value : Value) :
    (frame.renamed ρ).define name (value.renamed ρ) = (frame.define name value).renamed ρ := by
  induction frame with
  | nil => rfl
  | cons binding rest ih =>
      change (if binding.1 = name then (binding.1, value.renamed ρ) :: Frame.renamed ρ rest
        else (binding.1, binding.2.renamed ρ) :: (Frame.renamed ρ rest).define name _) = _
      rw [ih, define]
      split <;> rfl

theorem update_renamed (frame : Frame) (bindings : List (String × Value)) :
    (frame.renamed ρ).update (Frame.renamed ρ bindings) = (frame.update bindings).renamed ρ := by
  induction bindings generalizing frame with
  | nil => rfl
  | cons binding rest ih =>
      change ((frame.renamed ρ).define binding.1 (binding.2.renamed ρ)).update
        (Frame.renamed ρ rest) = _
      rw [define_renamed, ih]
      rfl

end Frame

namespace Chain

def renamed (ρ : Nat → Nat) (chain : Chain) : Chain :=
  { own := chain.own.renamed ρ, outer := chain.outer.map (Frame.renamed ρ) }

theorem renamed_id (chain : Chain) : chain.renamed id = chain := by
  have houter : chain.outer.map (Frame.renamed id) = chain.outer := by
    rw [funext Frame.renamed_id, List.map_id']
  rw [renamed, Frame.renamed_id, houter]

theorem frames_renamed (chain : Chain) :
    (chain.renamed ρ).frames = chain.frames.map (Frame.renamed ρ) := rfl

theorem lookup?_renamed (chain : Chain) (name : String) :
    (chain.renamed ρ).lookup? name = (chain.lookup? name).map (Value.renamed ρ) := by
  rw [lookup?, frames_renamed, lookup?]
  induction chain.frames with
  | nil => rfl
  | cons frame rest ih =>
      rw [List.map_cons, List.findSome?_cons, List.findSome?_cons, Frame.find?_renamed, ih]
      cases frame.find? name <;> rfl

theorem define_renamed (chain : Chain) (name : String) (value : Value) :
    (chain.renamed ρ).define name (value.renamed ρ) = (chain.define name value).renamed ρ := by
  rw [define, renamed, Frame.define_renamed]
  rfl

theorem push_renamed (chain : Chain) (scope : Frame) :
    (chain.renamed ρ).push (scope.renamed ρ) = (chain.push scope).renamed ρ := rfl

theorem pop_renamed (chain : Chain) : (chain.renamed ρ).pop = chain.pop.renamed ρ := by
  obtain ⟨own, _ | ⟨caller, outer⟩⟩ := chain <;> rfl

end Chain

theorem Eval.callScope_renamed (parameters : List String) (args : List Value) :
    callScope parameters (args.map (Value.renamed ρ)) =
      (callScope parameters args).map (Frame.renamed ρ) := by
  have hbindings : parameters.zip (args.map (Value.renamed ρ)) =
      Frame.renamed ρ (parameters.zip args) := by
    rw [List.zip_map_right]
    rfl
  rw [callScope, List.length_map, hbindings, callScope]
  split
  · rfl
  · exact congrArg Except.ok (Frame.update_renamed [] (parameters.zip args))

end SetLisp
