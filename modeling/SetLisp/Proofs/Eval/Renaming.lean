import SetLisp.Eval.Evaluate
import SetLisp.Proofs.Eval.Records
import SetLisp.Proofs.Eval.Rules
import SetLisp.Proofs.Scope.Renaming

/-!
# Runs that differ in identities

Two machines with the same bindings up to identities run an expression alike, even if their supplies
of identities stand at different places: values and halts agree, the same text is printed, and the
bindings stay the same up to identities.

One renaming serves for a whole run. It is fixed in hindsight, when it is known how many identities
the run has drawn: it has to carry those of the first run over to those of the second.

The machines may also differ in what they record. A run that records more shows values which the
other does not show, and may be stopped there; as long as it is not, it ends like the other.
-/

namespace SetLisp

open Function

variable {ρ : Nat → Nat} {m₀ n₀ m n : Machine} {bound : Nat}

/-- What is drawn from the first supply up to the bound is renamed to what is drawn from the
second. -/
structure Carries (ρ : Nat → Nat) (m₀ n₀ : Machine) (bound : Nat) : Prop where
  injective : Injective ρ
  shared : ρ sharedPayload = sharedPayload
  supply {id : Nat} (hstart : m₀.next ≤ id) (hbound : id < bound) : ρ id + m₀.next = n₀.next + id

theorem carries_id (hnext : n₀.next = m₀.next) (bound : Nat) : Carries id m₀ n₀ bound where
  injective := injective_id
  shared := rfl
  supply _ _ := by rw [hnext, id, Nat.add_comm]

namespace Machine

/-- The machines have the same bindings up to identities, and since they were `m₀` and `n₀` both
have printed the same and drawn as many identities. Neither has recorded an error, and if they
record at one level, they have recorded the same. -/
structure Renamed (ρ : Nat → Nat) (m₀ n₀ m n : Machine) : Prop where
  chain_eq : n.chain = m.chain.renamed ρ
  level_eq : m.level = m₀.level
  level_eq' : n.level = n₀.level
  printed : ∃ text, m.output = m₀.output ++ text ∧ n.output = n₀.output ++ text
  errors_eq : m.errors = m₀.errors
  errors_eq' : n.errors = n₀.errors
  recorded (hlevel : m₀.level = n₀.level) :
    ∃ entries, m.log = m₀.log ++ entries ∧ n.log = n₀.log ++ entries
  next_le : m₀.next ≤ m.next
  next_eq : m.next + n₀.next = n.next + m₀.next

theorem Renamed.refl (hchain : n.chain = m.chain.renamed ρ) : Renamed ρ m n m n where
  chain_eq := hchain
  level_eq := rfl
  level_eq' := rfl
  printed := ⟨"", by rw [String.append_empty, String.append_empty]; exact ⟨rfl, rfl⟩⟩
  errors_eq := rfl
  errors_eq' := rfl
  recorded _ := ⟨[], by rw [List.append_nil, List.append_nil]; exact ⟨rfl, rfl⟩⟩
  next_le := Nat.le_refl _
  next_eq := Nat.add_comm _ _

theorem Renamed.define (h : Renamed ρ m₀ n₀ m n) (name : String) (value : Value) :
    Renamed ρ m₀ n₀ (m.define name value) (n.define name (value.renamed ρ)) :=
  { h with
    chain_eq := by
      rw [Machine.define, h.chain_eq, Chain.define_renamed]
      rfl }

theorem Renamed.write (h : Renamed ρ m₀ n₀ m n) (text : String) :
    Renamed ρ m₀ n₀ (m.write text) (n.write text) :=
  { h with
    printed := by
      obtain ⟨printed, hm, hn⟩ := h.printed
      refine ⟨printed ++ text, ?_, ?_⟩
      · rw [Machine.write, hm, String.append_assoc]
      · rw [Machine.write, hn, String.append_assoc] }

theorem Renamed.skip (h : Renamed ρ m₀ n₀ m n) (count : Nat) :
    Renamed ρ m₀ n₀ (m.skip count) (n.skip count) :=
  { h with
    next_le := Nat.le_add_right_of_le h.next_le
    next_eq := by
      have hnext := h.next_eq
      simp only [Machine.skip]
      omega }

theorem Renamed.enter (h : Renamed ρ m₀ n₀ m n) (scope : Frame) :
    Renamed ρ m₀ n₀ (m.enter scope) (n.enter (scope.renamed ρ)) :=
  { h with
    chain_eq := by
      rw [Machine.enter, h.chain_eq, Chain.push_renamed]
      rfl }

theorem Renamed.leave (h : Renamed ρ m₀ n₀ m n) : Renamed ρ m₀ n₀ m.leave n.leave :=
  { h with
    chain_eq := by
      rw [Machine.leave, h.chain_eq, Chain.pop_renamed]
      rfl }

theorem Renamed.record (h : Renamed ρ m₀ n₀ m n) {entry : LogRecord}
    (hentry : entry.severity ≠ .error) :
    Renamed ρ m₀ n₀ (m.record entry) (n.record entry) where
  chain_eq := by rw [chain_record, chain_record, h.chain_eq]
  level_eq := by rw [level_record, h.level_eq]
  level_eq' := by rw [level_record, h.level_eq']
  printed := by rw [output_record, output_record]; exact h.printed
  errors_eq := by rw [errors_record_of_ne m hentry, h.errors_eq]
  errors_eq' := by rw [errors_record_of_ne n hentry, h.errors_eq']
  recorded hlevel := by
    obtain ⟨entries, hm, hn⟩ := h.recorded hlevel
    rw [Machine.record, Machine.record, h.level_eq, h.level_eq', hlevel]
    split
    · refine ⟨entries ++ [entry], ?_, ?_⟩
      · rw [hm, List.append_assoc]
      · rw [hn, List.append_assoc]
    · exact ⟨entries, hm, hn⟩
  next_le := by rw [next_record]; exact h.next_le
  next_eq := by rw [next_record, next_record]; exact h.next_eq

/-- The first machine may record alone if it does so at a level of its own. -/
theorem Renamed.record_left (h : Renamed ρ m₀ n₀ m n) {entry : LogRecord}
    (hentry : entry.severity ≠ .error) (hlevels : m₀.level ≠ n₀.level) :
    Renamed ρ m₀ n₀ (m.record entry) n where
  chain_eq := by rw [chain_record, h.chain_eq]
  level_eq := by rw [level_record, h.level_eq]
  level_eq' := h.level_eq'
  printed := by rw [output_record]; exact h.printed
  errors_eq := by rw [errors_record_of_ne m hentry, h.errors_eq]
  errors_eq' := h.errors_eq'
  recorded hlevel := absurd hlevel hlevels
  next_le := by rw [next_record]; exact h.next_le
  next_eq := by rw [next_record]; exact h.next_eq

end Machine

namespace Eval

variable {α α' β β' : Type}

/-- Whether the second run has to end as the first one does. It has to if both show the same for the
log; and if only the first one shows anything, then unless that has stopped it. -/
def Decisive (m₀ n₀ : Machine) (result : Except Halt α) : Prop :=
  m₀.level.admits .debug = n₀.level.admits .debug ∨
    m₀.level.admits .debug = true ∧ ∀ halt, result = .error halt → ∃ error, halt = .error error

theorem Decisive.of_level_eq {result : Except Halt α} (h : m₀.level = n₀.level) :
    Decisive m₀ n₀ result :=
  .inl (congrArg (LogLevel.admits · .debug) h)

/-- No value stops a run. -/
theorem Decisive.ok {result : Except Halt α} (h : Decisive m₀ n₀ result) (value : β) :
    Decisive m₀ n₀ (.ok value) :=
  h.imp id fun hstop => ⟨hstop.1, nofun⟩

theorem Decisive.error {halt : Halt} (h : Decisive m₀ n₀ (.error halt : Except Halt α)) :
    Decisive m₀ n₀ (.error halt : Except Halt β) :=
  h.imp id fun hstop =>
    ⟨hstop.1, fun _ hhalt => hstop.2 _ (congrArg Except.error (Except.error.inj hhalt))⟩

/-- No action gives identities back, and if the first one ends within the bound, the second ends the
same way up to identities. -/
structure Renames (ρ : Nat → Nat) (m₀ n₀ : Machine) (bound : Nat) (f : α → α') (first : Eval α)
    (second : Eval α') : Prop where
  grows (m : Machine) : m.next ≤ (first.outcome m).2.next
  agrees {m n : Machine} (h : Machine.Renamed ρ m₀ n₀ m n)
    (hbound : (first.outcome m).2.next ≤ bound) (hends : Decisive m₀ n₀ (first.outcome m).1) :
    (second.outcome n).1 = (first.outcome m).1.map f ∧
      Machine.Renamed ρ m₀ n₀ (first.outcome m).2 (second.outcome n).2

namespace Renames

theorem pure (f : α → α') (value : α) :
    Renames ρ m₀ n₀ bound f (Pure.pure value) (Pure.pure (f value)) where
  grows _ := Nat.le_refl _
  agrees h _ _ := ⟨rfl, h⟩

theorem throw (f : α → α') (halt : Halt) :
    Renames ρ m₀ n₀ bound f (throw halt : Eval α) (throw halt) where
  grows _ := Nat.le_refl _
  agrees h _ _ := ⟨rfl, h⟩

theorem fail (f : α → α') (error : EvalError) :
    Renames ρ m₀ n₀ bound f (fail error : Eval α) (fail error) :=
  throw f (.error error)

theorem bind {f : α → α'} {g : β → β'} {first : Eval α} {second : Eval α'} {next : α → Eval β}
    {next' : α' → Eval β'} (haction : Renames ρ m₀ n₀ bound f first second)
    (hnext : ∀ value, Renames ρ m₀ n₀ bound g (next value) (next' (f value))) :
    Renames ρ m₀ n₀ bound g (first >>= next) (second >>= next') where
  grows m := by
    have hfirst := haction.grows m
    rw [outcome_bind]
    rcases hresult : first.outcome m with ⟨halt | value, after⟩
    · rwa [hresult] at hfirst
    · rw [hresult] at hfirst
      exact Nat.le_trans hfirst ((hnext value).grows after)
  agrees {m n} h hbound hends := by
    rw [outcome_bind] at hbound hends ⊢
    rw [outcome_bind]
    have hagrees := haction.agrees h
    rcases hfirst : first.outcome m with ⟨halt | value, after⟩
    · rw [hfirst] at hbound hends hagrees
      obtain ⟨hresult, hafter⟩ := hagrees hbound hends.error
      rcases hsecond : second.outcome n with ⟨result', after'⟩
      rw [hsecond] at hresult hafter
      obtain rfl : result' = .error halt := hresult
      exact ⟨rfl, hafter⟩
    · rw [hfirst] at hbound hends hagrees
      obtain ⟨hresult, hafter⟩ :=
        hagrees (Nat.le_trans ((hnext value).grows after) hbound) (hends.ok value)
      rcases hsecond : second.outcome n with ⟨result', after'⟩
      rw [hsecond] at hresult hafter
      obtain rfl : result' = .ok (f value) := hresult
      exact (hnext value).agrees hafter hbound hends

theorem inScope {f : α → α'} {first : Eval α} {second : Eval α'}
    (haction : Renames ρ m₀ n₀ bound f first second) (scope : Frame) :
    Renames ρ m₀ n₀ bound f (inScope scope first) (inScope (scope.renamed ρ) second) where
  grows m := haction.grows (m.enter scope)
  agrees h hbound hends := by
    obtain ⟨hresult, hafter⟩ := haction.agrees (h.enter scope) hbound hends
    exact ⟨hresult, hafter.leave⟩

end Renames

theorem renames_lookup? (name : String) :
    Renames ρ m₀ n₀ bound (Option.map (Value.renamed ρ)) (lookup? name) (lookup? name) where
  grows _ := Nat.le_refl _
  agrees {m n} h _ _ := by
    rw [outcome_lookup?, outcome_lookup?, h.chain_eq, Chain.lookup?_renamed]
    exact ⟨rfl, h⟩

theorem renames_define (name : String) (value : Value) :
    Renames ρ m₀ n₀ bound id (define name value) (define name (value.renamed ρ)) where
  grows _ := Nat.le_refl _
  agrees h _ _ := ⟨rfl, h.define name value⟩

theorem renames_write (text : String) :
    Renames ρ m₀ n₀ bound id (write text) (write text) where
  grows _ := Nat.le_refl _
  agrees h _ _ := ⟨rfl, h.write text⟩

theorem renames_record (source : LogSource) (message : String) :
    Renames ρ m₀ n₀ bound id (record .debug source message) (record .debug source message) where
  grows m := Nat.le_of_eq (m.next_record _).symm
  agrees h _ _ := ⟨rfl, h.record nofun⟩

theorem renames_fresh (hρ : Carries ρ m₀ n₀ bound) : Renames ρ m₀ n₀ bound ρ fresh fresh where
  grows m := Nat.le_succ m.next
  agrees {m n} h hbound _ := by
    have hnext := h.next_eq
    have hcarried := hρ.supply h.next_le hbound
    have hfresh : n.next = ρ m.next := by omega
    refine ⟨?_, h.skip 1⟩
    rw [outcome_fresh, outcome_fresh, hfresh]
    rfl

theorem renames_textOf (room : Nat) (value : Value) :
    Renames ρ m₀ n₀ bound id (textOf room value) (textOf room (value.renamed ρ)) := by
  unfold textOf
  rw [Value.textFault?_renamed, Value.text_renamed]
  rcases value.textFault? room with _ | _ | _
  · exact Renames.pure id value.text
  · exact Renames.throw id .exhausted
  · exact Renames.throw id (.fault .integerTooLarge)

theorem renames_textsOf (room : Nat) (values : List Value) :
    Renames ρ m₀ n₀ bound id (textsOf room values)
      (textsOf room (values.map (Value.renamed ρ))) := by
  induction values with
  | nil => exact Renames.pure id []
  | cons value rest ih =>
      refine (renames_textOf room value).bind fun text => ?_
      exact ih.bind fun texts => Renames.pure id (text :: texts)

/-! ### What is done for the log -/

/-- If only the first machine looks at a value, it may run out of room there. -/
theorem Renames.throw_left {f : α → α'} {β : Type} {halt : Halt} {next : β → Eval α}
    {second : Eval α'} (hlevels : m₀.level.admits .debug ≠ n₀.level.admits .debug)
    (hhalt : ∀ error, halt ≠ .error error) :
    Renames ρ m₀ n₀ bound f ((MonadExcept.throw halt : Eval β) >>= next) second where
  grows _ := Nat.le_refl _
  agrees _ _ hends := by
    obtain ⟨error, herror⟩ := (hends.resolve_left hlevels).2 halt rfl
    exact absurd herror (hhalt error)

/-- If only the first machine shows the value, it may go on as the second one does. -/
theorem Renames.textOf_left {f : α → α'} {room : Nat} {value : Value} {next : String → Eval α}
    {second : Eval α'} (hlevels : m₀.level.admits .debug ≠ n₀.level.admits .debug)
    (hnext : ∀ text, Renames ρ m₀ n₀ bound f (next text) second) :
    Renames ρ m₀ n₀ bound f (textOf room value >>= next) second := by
  unfold textOf
  rcases value.textFault? room with _ | _ | _
  · exact hnext value.text
  · exact .throw_left hlevels nofun
  · exact .throw_left hlevels nofun

theorem Renames.record_left {f : α → α'} {source : LogSource} {message : String}
    {next : Unit → Eval α} {second : Eval α'}
    (hlevels : m₀.level.admits .debug ≠ n₀.level.admits .debug)
    (hnext : Renames ρ m₀ n₀ bound f (next ()) second) :
    Renames ρ m₀ n₀ bound f (record .debug source message >>= next) second where
  grows m := by
    have hgrows := hnext.grows
      (m.record { severity := .debug, source := source, message := message })
    rwa [Machine.next_record] at hgrows
  agrees h hbound hends :=
    hnext.agrees (h.record_left nofun fun hlevel => hlevels (by rw [hlevel])) hbound hends

theorem renames_recordDefinition (room : Nat) (name : String) (function : Value) :
    Renames ρ m₀ n₀ bound id (recordDefinition room name function)
      (recordDefinition room name (function.renamed ρ)) := by
  unfold recordDefinition
  rw [Value.textFault?_renamed, Value.text_renamed]
  rcases function.textFault? room with _ | _ | _
  · exact renames_record _ _
  · exact Renames.throw id .exhausted
  · exact Renames.pure id ()

theorem Renames.recordDefinition_left {f : α → α'} {room : Nat} {name : String} {function : Value}
    {next : Unit → Eval α} {second : Eval α'}
    (hlevels : m₀.level.admits .debug ≠ n₀.level.admits .debug)
    (hnext : Renames ρ m₀ n₀ bound f (next ()) second) :
    Renames ρ m₀ n₀ bound f (recordDefinition room name function >>= next) second := by
  unfold recordDefinition
  rcases function.textFault? room with _ | _ | _
  · exact .record_left hlevels hnext
  · exact .throw_left hlevels nofun
  · exact hnext

/-- What is done while debugging only need not be done on both machines. -/
theorem Renames.whenDebugging {f : α → α'} {loud quiet : Eval α} {loud' quiet' : Eval α'}
    (hloud : Renames ρ m₀ n₀ bound f loud loud') (hquiet : Renames ρ m₀ n₀ bound f quiet quiet')
    (hmixed : m₀.level.admits .debug ≠ n₀.level.admits .debug →
      Renames ρ m₀ n₀ bound f loud quiet') :
    Renames ρ m₀ n₀ bound f (do if ← debugging then loud else quiet)
      (do if ← debugging then loud' else quiet') where
  grows m := by
    rw [outcome_bind, outcome_debugging]
    dsimp only
    split
    · exact hloud.grows m
    · exact hquiet.grows m
  agrees {m n} h hbound hends := by
    rw [outcome_bind, outcome_debugging] at hbound hends ⊢
    rw [outcome_bind, outcome_debugging]
    dsimp only at hbound hends ⊢
    rw [h.level_eq] at hbound hends ⊢
    rw [h.level_eq']
    cases hfirst : m₀.level.admits .debug <;> cases hsecond : n₀.level.admits .debug <;>
      rw [hfirst] at hbound hends
    · exact hquiet.agrees h hbound hends
    · rcases hends with hsame | ⟨hdebug, -⟩
      · rw [hfirst, hsecond] at hsame
        cases hsame
      · rw [hfirst] at hdebug
        cases hdebug
    · refine (hmixed ?_).agrees h hbound hends
      rw [hfirst, hsecond]
      exact nofun
    · exact hloud.agrees h hbound hends

section Rules

variable (hρ : Carries ρ m₀ n₀ bound)

include hρ

theorem renames_applyBuiltin (room : Nat) (function : Builtin) (args : List Value) :
    Renames ρ m₀ n₀ bound (Value.renamed ρ) (applyBuiltin room function (.list args))
      (applyBuiltin room function (.list (args.map (Value.renamed ρ)))) := by
  rw [applyBuiltin_eq, applyBuiltin_eq]
  refine (renames_fresh hρ).bind fun payload => ?_
  simp only [Builtin.resultOfAll, Builtin.newMembers_renamed, Value.someTooDeepForMember_renamed,
    Builtin.result_renamed hρ.injective hρ.shared]
  cases function.result payload args with
  | error error => exact Renames.fail _ error
  | ok value =>
      dsimp only [Except.map]
      split
      · exact Renames.throw _ .exhausted
      · split
        · refine (renames_textOf room value).bind fun text => ?_
          exact (renames_write (text ++ "\n")).bind fun _ => Renames.pure _ value
        · exact Renames.pure _ value

theorem renames_makeLambda (room : Nat) (parameters : List Value) (body : Value) :
    Renames ρ m₀ n₀ bound (Value.renamed ρ) (makeLambda room parameters body)
      (makeLambda room (parameters.map (Value.renamed ρ)) (body.renamed ρ)) := by
  refine (renames_textsOf room parameters).bind fun names => ?_
  exact (renames_fresh hρ).bind fun identity =>
    Renames.pure (Value.renamed ρ) (.lambda identity names body)

theorem renames_defineFunction (room : Nat) (name : Value) (parameters : List Value)
    (body : Value) :
    Renames ρ m₀ n₀ bound (Value.renamed ρ) (defineFunction room name parameters body)
      (defineFunction room (name.renamed ρ) (parameters.map (Value.renamed ρ))
        (body.renamed ρ)) := by
  refine (renames_makeLambda hρ room parameters body).bind fun function => ?_
  refine (renames_textOf room name).bind fun name => ?_
  refine (renames_define name function).bind fun _ => ?_
  have hanswer : Renames ρ m₀ n₀ bound (Value.renamed ρ) (Pure.pure (.boolean true))
      (Pure.pure (.boolean true)) := Renames.pure (Value.renamed ρ) (.boolean true)
  refine Renames.whenDebugging ?_ hanswer fun hlevels => ?_
  · exact (renames_recordDefinition room name function).bind fun _ => hanswer
  · exact .recordDefinition_left hlevels hanswer

variable {evaluate : Value → Eval Value}
  (heval : ∀ expr, Renames ρ m₀ n₀ bound (Value.renamed ρ) (evaluate expr)
    (evaluate (expr.renamed ρ)))

include heval

omit hρ in
theorem renames_evaluateEach (exprs : List Value) :
    Renames ρ m₀ n₀ bound (List.map (Value.renamed ρ)) (evaluateEach evaluate exprs)
      (evaluateEach evaluate (exprs.map (Value.renamed ρ))) := by
  induction exprs with
  | nil => exact Renames.pure (List.map (Value.renamed ρ)) []
  | cons expr rest ih =>
      refine (heval expr).bind fun value => ?_
      exact ih.bind fun values => Renames.pure (List.map (Value.renamed ρ)) (value :: values)

theorem renames_runForm (room : Nat) (form : SpecialForm) (parts : List Value) :
    Renames ρ m₀ n₀ bound (Value.renamed ρ) (runForm evaluate room form parts)
      (runForm evaluate room form (parts.map (Value.renamed ρ))) := by
  cases formRule form parts with
  | conditional condition yes no =>
      simp only [List.map_cons, List.map_nil, runForm_conditional]
      refine (heval condition).bind fun value => ?_
      cases value
      case boolean value => cases value <;> exact heval _
      all_goals exact Renames.fail _ .conditionNotBoolean
  | define name expr =>
      simp only [List.map_cons, List.map_nil, runForm_define]
      refine (heval expr).bind fun value => ?_
      refine (renames_textOf room name).bind fun text => ?_
      exact (renames_define text value).bind fun _ => Renames.pure _ value
  | lambda parameters body hne =>
      have hrenamed : parameters.map (Value.renamed ρ) ≠ [] := mt List.map_eq_nil_iff.mp hne
      rw [List.map_append, List.map_singleton, runForm_lambda evaluate room hne,
        runForm_lambda evaluate room hrenamed]
      exact renames_makeLambda hρ room parameters body
  | function name parameters body hne =>
      have hrenamed : parameters.map (Value.renamed ρ) ≠ [] := mt List.map_eq_nil_iff.mp hne
      rw [List.map_cons, List.map_append, List.map_singleton,
        runForm_function evaluate room name hne, runForm_function evaluate room _ hrenamed]
      exact renames_defineFunction hρ room name parameters body
  | arity form parts htakes =>
      have hrenamed : form.takes (parts.map (Value.renamed ρ)).length = false := by
        rwa [List.length_map]
      rw [runForm_arity evaluate room htakes, runForm_arity evaluate room hrenamed]
      exact Renames.fail _ (.formArity form)

theorem renames_apply (room : Nat) (name : String) (function : Value) (args : List Value) :
    Renames ρ m₀ n₀ bound (Value.renamed ρ) (apply evaluate room name function args)
      (apply evaluate room name (function.renamed ρ) (args.map (Value.renamed ρ))) := by
  cases function
  case builtin function => exact renames_applyBuiltin hρ room function args
  case lambda identity parameters body =>
    simp only [Value.renamed_lambda, apply, applyLambda, List.isEmpty_map, callScope_renamed]
    split
    · exact Renames.fail _ .noArguments
    · cases callScope parameters args with
      | error error => exact Renames.fail _ error
      | ok scope => exact (heval body).inScope scope
  all_goals exact Renames.fail _ (.notFunction name)

theorem renames_call (room : Nat) (name : String) (exprs : List Value) :
    Renames ρ m₀ n₀ bound (Value.renamed ρ) (call evaluate room name exprs)
      (call evaluate room name (exprs.map (Value.renamed ρ))) := by
  refine (renames_lookup? name).bind fun found => ?_
  cases found with
  | none => exact Renames.fail _ (.notInScope name)
  | some function =>
      dsimp only [Option.map]
      rw [Value.isFunction_renamed]
      split
      · refine (renames_evaluateEach heval exprs).bind fun args => ?_
        exact renames_apply hρ heval room name function args
      · exact Renames.fail _ (.notFunction name)

end Rules

end Eval

open Eval

/-- **Evaluation looks at no identity.** -/
theorem renames_evaluate (hρ : Carries ρ m₀ n₀ bound) (room : Nat) (expr : Value) :
    Renames ρ m₀ n₀ bound (Value.renamed ρ) (evaluate room expr)
      (evaluate room (expr.renamed ρ)) := by
  induction room generalizing expr with
  | zero => exact Renames.throw _ .exhausted
  | succ room ih =>
      cases expr
      case symbol name =>
        refine (renames_lookup? name).bind fun found => ?_
        cases found with
        | none => exact Renames.fail _ (.unknownSymbol name)
        | some value => exact Renames.pure _ value
      case list items =>
        rw [Value.renamed_list]
        match items with
        | [] => exact Renames.fail _ .emptyForm
        | .list head :: rest =>
            rw [List.map_cons, Value.renamed_list]
            have hrest := ih (.list rest)
            have hhead := ih (.list head)
            rw [Value.renamed_list] at hrest hhead
            exact hhead.bind fun _ => hrest
        | .symbol name :: rest =>
            rw [List.map_cons]
            have hsymbol : (Value.symbol name).renamed ρ = .symbol name := rfl
            rw [hsymbol, evaluate, evaluate]
            cases SpecialForm.ofName? name with
            | some form => exact renames_runForm hρ ih room form rest
            | none => exact renames_call hρ ih room name rest
        | .boolean _ :: _ | .number _ :: _ | .set _ :: _ | .builtin _ :: _ | .lambda .. :: _
        | .foreign .. :: _ => exact Renames.fail _ .literalHead
      case set members =>
        exact Renames.pure (Value.renamed ρ) (Value.set members)
      all_goals exact Renames.pure (Value.renamed ρ) _

theorem renames_evaluateAll (hρ : Carries ρ m₀ n₀ bound) (room : Nat) (exprs : List Value) :
    Renames ρ m₀ n₀ bound (List.map (Value.renamed ρ)) (evaluateAll room exprs)
      (evaluateAll room (exprs.map (Value.renamed ρ))) :=
  renames_evaluateEach (renames_evaluate hρ room) exprs

end SetLisp
