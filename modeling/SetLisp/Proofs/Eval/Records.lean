import SetLisp.Eval.Machine

namespace SetLisp.Machine

/-- The errors that have been recorded. -/
def errors (machine : Machine) : List String :=
  (machine.log.filter fun entry => entry.severity = .error).map (·.message)

variable (machine : Machine) (entry : LogRecord)

theorem output_record : (machine.record entry).output = machine.output := by
  unfold record
  split <;> rfl

theorem next_record : (machine.record entry).next = machine.next := by
  unfold record
  split <;> rfl

theorem level_record : (machine.record entry).level = machine.level := by
  unfold record
  split <;> rfl

theorem errors_record_error (source : LogSource) (message : String) :
    (machine.record { severity := .error, source := source, message := message }).errors =
      machine.errors ++ [message] := by
  have hadmits : machine.level.admits .error = true := by cases machine.level <;> rfl
  rw [record, if_pos hadmits, errors, List.filter_append, List.map_append]
  rfl

theorem errors_record_of_ne {entry : LogRecord} (hentry : entry.severity ≠ .error) :
    (machine.record entry).errors = machine.errors := by
  unfold record
  split
  · have hnone : [entry].filter (fun entry => entry.severity = .error) = [] := by
      simp [hentry]
    rw [errors, List.filter_append, hnone, List.append_nil, errors]
  · rfl

end SetLisp.Machine
