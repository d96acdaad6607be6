import SetLisp.Proofs.Eval.Rules

/-!
# Running alike

Two actions run alike when machines that are linked before are linked after, and both runs end the
same way. What the rules of evaluation do to a machine is bound to a few primitive steps, so it is
enough that the link respects those: whatever evaluates the parts of a form alike then evaluates
the form alike.
-/

namespace SetLisp

/-- What linked machines agree on, and the steps that leave them linked. -/
structure Respected (link : Machine → Machine → Prop) : Prop where
  lookup? {m n : Machine} (hlink : link m n) (name : String) :
    m.chain.lookup? name = n.chain.lookup? name
  level {m n : Machine} (hlink : link m n) : m.level = n.level
  next {m n : Machine} (hlink : link m n) : m.next = n.next
  define {m n : Machine} (hlink : link m n) (name : String) (value : Value) :
    link (m.define name value) (n.define name value)
  write {m n : Machine} (hlink : link m n) (text : String) : link (m.write text) (n.write text)
  record {m n : Machine} (hlink : link m n) (entry : LogRecord) :
    link (m.record entry) (n.record entry)
  skip {m n : Machine} (hlink : link m n) (count : Nat) : link (m.skip count) (n.skip count)

namespace Eval

variable {α β : Type} {link : Machine → Machine → Prop}

/-- From linked machines both actions end the same way and leave linked machines. -/
def Alike (link : Machine → Machine → Prop) (first second : Eval α) : Prop :=
  ∀ m n, link m n →
    (first.outcome m).1 = (second.outcome n).1 ∧ link (first.outcome m).2 (second.outcome n).2

namespace Alike

theorem pure (value : α) : Alike link (Pure.pure value) (Pure.pure value) := by
  intro m n hlink
  rw [outcome_pure, outcome_pure]
  exact ⟨rfl, hlink⟩

theorem throw (halt : Halt) : Alike link (throw halt : Eval α) (throw halt) := by
  intro m n hlink
  rw [outcome_throw, outcome_throw]
  exact ⟨rfl, hlink⟩

theorem fail (error : EvalError) : Alike link (fail error : Eval α) (fail error) :=
  throw (.error error)

theorem bind {first second : Eval α} {next next' : α → Eval β} (haction : Alike link first second)
    (hnext : ∀ value, Alike link (next value) (next' value)) :
    Alike link (first >>= next) (second >>= next') := by
  intro m n hlink
  obtain ⟨hresult, hafter⟩ := haction m n hlink
  rw [outcome_bind, outcome_bind]
  rcases hfirst : first.outcome m with ⟨result, after⟩
  rcases hsecond : second.outcome n with ⟨result', after'⟩
  rw [hfirst, hsecond] at hresult hafter
  obtain rfl : result = result' := hresult
  cases result with
  | ok value => exact hnext value after after' hafter
  | error halt => exact ⟨rfl, hafter⟩

end Alike

theorem alike_textOf (room : Nat) (value : Value) :
    Alike link (textOf room value) (textOf room value) := by
  unfold textOf
  rcases value.textFault? room with _ | _ | _
  · exact Alike.pure value.text
  · exact Alike.throw .exhausted
  · exact Alike.throw (.fault .integerTooLarge)

theorem alike_textsOf (room : Nat) (values : List Value) :
    Alike link (textsOf room values) (textsOf room values) := by
  induction values with
  | nil => exact Alike.pure []
  | cons value rest ih =>
      exact (alike_textOf room value).bind fun text =>
        ih.bind fun texts => Alike.pure (text :: texts)

theorem alike_evaluateEach {evaluate evaluate' : Value → Eval Value}
    (heval : ∀ expr, Alike link (evaluate expr) (evaluate' expr)) (exprs : List Value) :
    Alike link (evaluateEach evaluate exprs) (evaluateEach evaluate' exprs) := by
  induction exprs with
  | nil => exact Alike.pure []
  | cons expr rest ih =>
      exact (heval expr).bind fun value =>
        ih.bind fun values => Alike.pure (value :: values)

end Eval

namespace Respected

open Eval

variable {α : Type} {link : Machine → Machine → Prop} (h : Respected link)

include h

theorem alike_lookup? (name : String) : Alike link (Eval.lookup? name) (Eval.lookup? name) := by
  intro m n hlink
  rw [outcome_lookup?, outcome_lookup?, h.lookup? hlink]
  exact ⟨rfl, hlink⟩

theorem alike_define (name : String) (value : Value) :
    Alike link (Eval.define name value) (Eval.define name value) := by
  intro m n hlink
  rw [outcome_define, outcome_define]
  exact ⟨rfl, h.define hlink name value⟩

theorem alike_write (text : String) : Alike link (Eval.write text) (Eval.write text) := by
  intro m n hlink
  rw [outcome_write, outcome_write]
  exact ⟨rfl, h.write hlink text⟩

theorem alike_record (severity : Severity) (source : LogSource) (message : String) :
    Alike link (Eval.record severity source message) (Eval.record severity source message) := by
  intro m n hlink
  rw [outcome_record, outcome_record]
  exact ⟨rfl, h.record hlink _⟩

theorem alike_debugging : Alike link debugging debugging := by
  intro m n hlink
  rw [outcome_debugging, outcome_debugging, h.level hlink]
  exact ⟨rfl, hlink⟩

theorem alike_fresh : Alike link fresh fresh := by
  intro m n hlink
  rw [outcome_fresh, outcome_fresh, h.next hlink]
  exact ⟨rfl, h.skip hlink 1⟩

theorem alike_applyBuiltin (room : Nat) (function : Builtin) (args : Value) :
    Alike link (applyBuiltin room function args) (applyBuiltin room function args) := by
  rw [applyBuiltin_eq]
  refine h.alike_fresh.bind fun payload => ?_
  cases function.resultOfAll payload args with
  | error error => exact Alike.fail error
  | ok value =>
      dsimp only
      split
      · exact Alike.throw .exhausted
      · split
        · exact (alike_textOf room value).bind fun text =>
            (h.alike_write (text ++ "\n")).bind fun _ => Alike.pure value
        · exact Alike.pure value

theorem alike_makeLambda (room : Nat) (parameters : List Value) (body : Value) :
    Alike link (makeLambda room parameters body) (makeLambda room parameters body) :=
  (alike_textsOf room parameters).bind fun _ => h.alike_fresh.bind fun _ => Alike.pure _

theorem alike_recordDefinition (room : Nat) (name : String) (function : Value) :
    Alike link (recordDefinition room name function) (recordDefinition room name function) := by
  unfold recordDefinition
  split
  · exact h.alike_record _ _ _
  · exact Alike.throw .exhausted
  · exact Alike.pure ()

theorem alike_defineFunction (room : Nat) (name : Value) (parameters : List Value)
    (body : Value) :
    Alike link (defineFunction room name parameters body)
      (defineFunction room name parameters body) := by
  refine (h.alike_makeLambda room parameters body).bind fun function => ?_
  refine (alike_textOf room name).bind fun name => ?_
  refine (h.alike_define name function).bind fun _ => ?_
  refine h.alike_debugging.bind fun debug => ?_
  cases debug with
  | false => exact Alike.pure (Value.boolean true)
  | true =>
      exact (h.alike_recordDefinition room name function).bind fun _ =>
        Alike.pure (Value.boolean true)

variable {evaluate evaluate' : Value → Eval Value}
  (heval : ∀ expr, Alike link (evaluate expr) (evaluate' expr))

include heval

theorem alike_runForm (room : Nat) (form : SpecialForm) (parts : List Value) :
    Alike link (runForm evaluate room form parts) (runForm evaluate' room form parts) := by
  cases formRule form parts with
  | conditional condition yes no =>
      rw [runForm_conditional, runForm_conditional]
      refine (heval condition).bind fun value => ?_
      split
      · exact heval yes
      · exact heval no
      · exact Alike.fail .conditionNotBoolean
  | define name expr =>
      rw [runForm_define, runForm_define]
      exact (heval expr).bind fun value => (alike_textOf room name).bind fun text =>
        (h.alike_define text value).bind fun _ => Alike.pure value
  | lambda parameters body hne =>
      rw [runForm_lambda evaluate room hne, runForm_lambda evaluate' room hne]
      exact h.alike_makeLambda room parameters body
  | function name parameters body hne =>
      rw [runForm_function evaluate room name hne, runForm_function evaluate' room name hne]
      exact h.alike_defineFunction room name parameters body
  | arity form parts htakes =>
      rw [runForm_arity evaluate room htakes, runForm_arity evaluate' room htakes]
      exact Alike.fail (.formArity form)

end Respected

end SetLisp
