import SetLisp.Eval.Apply

namespace SetLisp

theorem Machine.chain_record (machine : Machine) (entry : LogRecord) :
    (machine.record entry).chain = machine.chain := by
  unfold record
  split <;> rfl

namespace Eval

variable {α β : Type}

/-- How an action ends from a machine, and the machine it leaves. -/
def outcome (action : Eval α) (machine : Machine) : Except Halt α × Machine :=
  ExceptT.run action machine

@[simp]
theorem outcome_pure (value : α) (machine : Machine) :
    (pure value : Eval α).outcome machine = (.ok value, machine) := rfl

@[simp]
theorem outcome_throw (halt : Halt) (machine : Machine) :
    (throw halt : Eval α).outcome machine = (.error halt, machine) := rfl

theorem outcome_bind (action : Eval α) (next : α → Eval β) (machine : Machine) :
    (action >>= next).outcome machine =
      match action.outcome machine with
      | (.ok value, after) => (next value).outcome after
      | (.error halt, after) => (.error halt, after) := by
  rcases h : action.outcome machine with ⟨_ | value, after⟩ <;>
    simp only [outcome, ExceptT.run, bind, ExceptT.bind, ExceptT.mk, StateT.bind] at h ⊢ <;>
    rw [h] <;> rfl

/-- A composed action that ends with a value has passed through the value of its first part. -/
theorem outcome_bind_eq_ok {action : Eval α} {next : α → Eval β} {machine after : Machine}
    {value : β} :
    (action >>= next).outcome machine = (.ok value, after) ↔
      ∃ first middle, action.outcome machine = (.ok first, middle) ∧
        (next first).outcome middle = (.ok value, after) := by
  rw [outcome_bind]
  rcases action.outcome machine with ⟨halt | first, middle⟩
  · simp
  · constructor
    · intro h
      exact ⟨first, middle, rfl, h⟩
    · rintro ⟨first, middle, hfirst, h⟩
      cases hfirst
      exact h

@[simp]
theorem outcome_lookup? (name : String) (machine : Machine) :
    (lookup? name).outcome machine = (.ok (machine.chain.lookup? name), machine) := rfl

@[simp]
theorem outcome_define (name : String) (value : Value) (machine : Machine) :
    (define name value).outcome machine = (.ok (), machine.define name value) := rfl

@[simp]
theorem outcome_write (text : String) (machine : Machine) :
    (write text).outcome machine = (.ok (), machine.write text) := rfl

@[simp]
theorem outcome_record (severity : Severity) (source : LogSource) (message : String)
    (machine : Machine) :
    (record severity source message).outcome machine =
      (.ok (), machine.record { severity := severity, source := source, message := message }) :=
  rfl

@[simp]
theorem outcome_debugging (machine : Machine) :
    debugging.outcome machine = (.ok (machine.level.admits .debug), machine) := rfl

@[simp]
theorem outcome_fresh (machine : Machine) :
    fresh.outcome machine = (.ok machine.next, machine.skip 1) := rfl

theorem outcome_inScope (scope : Frame) (action : Eval α) (machine : Machine) :
    (inScope scope action).outcome machine =
      ((action.outcome (machine.enter scope)).1,
        (action.outcome (machine.enter scope)).2.leave) := rfl

/-- An answer is handed over when its members may enter a set, and printed first by `print`. -/
theorem applyBuiltin_eq (room : Nat) (function : Builtin) (args : Value) :
    applyBuiltin room function args = (do
      let payload ← fresh
      match function.resultOfAll payload args with
      | .error error => fail error
      | .ok value =>
          if Value.someTooDeepForMember room (function.newMembers args) then throw .exhausted
          else if function = .print then do
            let text ← textOf room value
            write (text ++ "\n")
            pure value
          else pure value) := by
  refine congrArg (fresh >>= ·) (funext fun payload => ?_)
  rw [Builtin.answerOfAll_eq]
  cases function.resultOfAll payload args with
  | error error => rfl
  | ok value =>
      by_cases hdeep : Value.someTooDeepForMember room (function.newMembers args) = true
      · rfl
      · rfl

end Eval

end SetLisp
