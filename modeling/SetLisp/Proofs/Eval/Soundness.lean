import SetLisp.Eval.Evaluate
import SetLisp.Proofs.Eval.Keeps
import SetLisp.Proofs.Eval.Rules
import SetLisp.Proofs.Scope.Table
import SetLisp.Proofs.Value.WellFormed

namespace SetLisp

def Frame.WellFormed (frame : Frame) : Prop :=
  ∀ binding ∈ frame, binding.2.WellFormed

def Chain.WellFormed (chain : Chain) : Prop :=
  ∀ frame ∈ chain.frames, frame.WellFormed

variable {good : Value → Prop}

namespace Frame

/-- Whether all that the frame binds is good. -/
def Binds (good : Value → Prop) (frame : Frame) : Prop :=
  ∀ binding ∈ frame, good binding.2

theorem Binds.find? {frame : Frame} (h : frame.Binds good) {name : String} {value : Value}
    (hfind : frame.find? name = some value) : good value :=
  h (name, value) (mem_of_find? hfind)

theorem Binds.define {frame : Frame} (h : frame.Binds good) (name : String) {value : Value}
    (hvalue : good value) : (frame.define name value).Binds good := by
  intro binding hbinding
  rcases mem_define hbinding with hold | rfl
  · exact h binding hold
  · exact hvalue

end Frame

theorem wellFormed_initialFrame : initialFrame.WellFormed := by
  intro binding hbinding
  rcases List.mem_append.mp hbinding with hbuiltin | hconstant
  · obtain ⟨function, -, rfl⟩ := List.mem_map.mp hbuiltin
    exact .builtin function
  · rcases hconstant with _ | ⟨_, _ | ⟨_, ⟨⟩⟩⟩
    · exact .number _
    · exact .number _

namespace Chain

/-- Whether all that the chain binds is good. -/
def Binds (good : Value → Prop) (chain : Chain) : Prop :=
  ∀ frame ∈ chain.frames, frame.Binds good

variable {chain : Chain}

theorem Binds.lookup? (h : chain.Binds good) {name : String} {value : Value}
    (hlookup : chain.lookup? name = some value) : good value := by
  obtain ⟨frame, hframe, hfind⟩ := List.exists_of_findSome?_eq_some hlookup
  exact (h frame hframe).find? hfind

theorem Binds.define (h : chain.Binds good) (name : String) {value : Value}
    (hvalue : good value) : (chain.define name value).Binds good := by
  rintro frame (_ | ⟨_, hframe⟩)
  · exact (h chain.own List.mem_cons_self).define name hvalue
  · exact h frame (List.mem_cons_of_mem chain.own hframe)

theorem Binds.push (h : chain.Binds good) {scope : Frame} (hscope : scope.Binds good) :
    (chain.push scope).Binds good := by
  rintro frame (_ | ⟨_, hframe⟩)
  · exact hscope
  · exact h frame hframe

theorem Binds.pop (h : chain.Binds good) : chain.pop.Binds good := by
  obtain ⟨own, outer⟩ := chain
  cases outer with
  | nil => exact h
  | cons caller outer => exact fun frame hframe => h frame (List.mem_cons_of_mem own hframe)

end Chain

namespace Eval

variable {α : Type} {code : Value → Prop}

/-- Binding nothing but good values and halting only with an error of evaluation or for want of
room. -/
def Sound (good : Value → Prop) (answers : α → Prop) (action : Eval α) : Prop :=
  Keeps (fun machine => machine.chain.Binds good) (fun halt => ∀ fault, halt ≠ .fault fault)
    answers action

theorem sound_fail {answers : α → Prop} (error : EvalError) : Sound good answers (fail error) :=
  Keeps.throw nofun

theorem sound_lookup? (name : String) :
    Sound good (fun found => ∀ value ∈ found, good value) (lookup? name) :=
  keeps_lookup? (fun _ hchain _ _ hlookup => hchain.lookup? hlookup) name

theorem sound_define (name : String) {value : Value} (hvalue : good value) :
    Sound good (fun _ => True) (define name value) :=
  keeps_define fun _ hchain => hchain.define name hvalue

theorem sound_record (severity : Severity) (source : LogSource) (message : String) :
    Sound good (fun _ => True) (record severity source message) := by
  refine keeps_record (fun machine entry hchain => ?_) severity source message
  rwa [machine.chain_record entry]

theorem sound_fresh : Sound good (fun _ => True) fresh :=
  keeps_fresh fun _ _ hchain => hchain

theorem sound_textOf {value : Value} (hvalue : value.Showable) (room : Nat) :
    Sound good (fun text => text = value.text) (textOf room value) :=
  keeps_textOf nofun (hvalue room)

section Rules

variable (hclosed : Value.ClosedUnderEvaluation code good)

include hclosed

theorem sound_applyBuiltin (room : Nat) (function : Builtin) {args : List Value}
    (hargs : ∀ arg ∈ args, good arg) :
    Sound good good (applyBuiltin room function (.list args)) := by
  rw [applyBuiltin_eq]
  refine sound_fresh.bind fun payload _ => ?_
  cases hresult : function.resultOfAll payload (.list args) with
  | error error => exact sound_fail error
  | ok value =>
      have hvalue : good value := hclosed.of_result hargs hresult
      dsimp only
      split
      · exact Keeps.throw nofun
      · split
        · refine (sound_textOf (hclosed.showable hvalue) room).bind fun text _ => ?_
          exact (keeps_write (fun _ _ hchain => hchain) _).bind fun _ _ => Keeps.pure hvalue
        · exact Keeps.pure hvalue

theorem sound_makeLambda (room : Nat) {parameters : List Value} {body : Value}
    (hparameters : ∀ parameter ∈ parameters, code parameter) (hbody : code body) :
    Sound good good (makeLambda room parameters body) := by
  have htexts : Sound good (fun texts => texts = parameters.map Value.text)
      (textsOf room parameters) :=
    keeps_textsOf nofun fun parameter hparameter =>
      hclosed.showable_code (hparameters parameter hparameter) room
  refine htexts.bind fun names hnames => sound_fresh.bind fun id _ => Keeps.pure ?_
  rw [hnames]
  exact hclosed.lambda hparameters hbody

omit hclosed in
theorem sound_recordDefinition (room : Nat) (name : String) (function : Value) :
    Sound good (fun _ => True) (recordDefinition room name function) := by
  unfold recordDefinition
  split
  · exact sound_record _ _ _
  · exact Keeps.throw nofun
  · exact Keeps.pure trivial

theorem sound_defineFunction (room : Nat) {name : Value} {parameters : List Value} {body : Value}
    (hname : code name) (hparameters : ∀ parameter ∈ parameters, code parameter)
    (hbody : code body) : Sound good good (defineFunction room name parameters body) := by
  refine (sound_makeLambda hclosed room hparameters hbody).bind fun function hfunction => ?_
  refine (sound_textOf (hclosed.showable_code hname) room).bind fun text _ => ?_
  refine (sound_define text hfunction).bind fun _ _ => ?_
  refine keeps_debugging.bind fun debug _ => ?_
  cases debug with
  | false => exact Keeps.pure (hclosed.boolean true)
  | true =>
      exact (sound_recordDefinition room text function).bind fun _ _ =>
        Keeps.pure (hclosed.boolean true)

variable {evaluate : Value → Eval Value}
  (heval : ∀ expr : Value, code expr → Sound good good (evaluate expr))

include heval

theorem sound_runForm (room : Nat) (form : SpecialForm) {parts : List Value}
    (hparts : ∀ part ∈ parts, code part) :
    Sound good good (runForm evaluate room form parts) := by
  cases formRule form parts with
  | conditional condition yes no =>
      simp only [List.mem_cons, List.not_mem_nil, or_false, forall_eq_or_imp, forall_eq] at hparts
      obtain ⟨hcondition, hyes, hno⟩ := hparts
      rw [runForm_conditional]
      refine (heval condition hcondition).bind fun value _ => ?_
      split
      · exact heval yes hyes
      · exact heval no hno
      · exact sound_fail .conditionNotBoolean
  | define name expr =>
      simp only [List.mem_cons, List.not_mem_nil, or_false, forall_eq_or_imp, forall_eq] at hparts
      obtain ⟨hname, hexpr⟩ := hparts
      rw [runForm_define]
      refine (heval expr hexpr).bind fun value hvalue => ?_
      refine (sound_textOf (hclosed.showable_code hname) room).bind fun text _ => ?_
      exact (sound_define text hvalue).bind fun _ _ => Keeps.pure hvalue
  | lambda parameters body hne =>
      obtain ⟨hparameters, hbody⟩ := List.forall_mem_append.mp hparts
      rw [runForm_lambda evaluate room hne]
      exact sound_makeLambda hclosed room hparameters (hbody body List.mem_cons_self)
  | function name parameters body hne =>
      obtain ⟨hname, hrest⟩ := List.forall_mem_cons.mp hparts
      obtain ⟨hparameters, hbody⟩ := List.forall_mem_append.mp hrest
      rw [runForm_function evaluate room name hne]
      exact sound_defineFunction hclosed room hname hparameters (hbody body List.mem_cons_self)
  | arity form parts htakes =>
      rw [runForm_arity evaluate room htakes]
      exact sound_fail (.formArity form)

omit hclosed in
theorem sound_applyLambda {parameters : List String} {body : Value} (hbody : code body)
    {args : List Value} (hargs : ∀ arg ∈ args, good arg) :
    Sound good good (applyLambda evaluate parameters body args) := by
  unfold applyLambda
  split
  · exact sound_fail .noArguments
  · cases hscope : callScope parameters args with
    | error error => exact sound_fail error
    | ok scope =>
        refine keeps_inScope (fun _ hchain => ?_) (fun _ hchain => hchain.pop) (heval body hbody)
        exact hchain.push fun binding hbinding => hargs binding.2 (mem_of_callScope hscope hbinding)

theorem sound_apply (room : Nat) (name : String) {function : Value} (hfunction : good function)
    {args : List Value} (hargs : ∀ arg ∈ args, good arg) :
    Sound good good (apply evaluate room name function args) := by
  cases function with
  | builtin function => exact sound_applyBuiltin hclosed room function hargs
  | lambda => exact sound_applyLambda heval (hclosed.body_of_lambda hfunction) hargs
  | boolean | number | symbol | list | set | foreign => exact sound_fail (.notFunction name)

theorem sound_call (room : Nat) (name : String) {exprs : List Value}
    (hexprs : ∀ expr ∈ exprs, code expr) :
    Sound good good (call evaluate room name exprs) := by
  refine (sound_lookup? name).bind fun found hfound => ?_
  cases found with
  | none => exact sound_fail (.notInScope name)
  | some function =>
      dsimp only
      split
      · refine (keeps_evaluateEach fun expr hexpr => heval expr (hexprs expr hexpr)).bind
          fun args hargs => ?_
        exact sound_apply hclosed heval room name (hfound function rfl) hargs
      · exact sound_fail (.notFunction name)

end Rules

end Eval

open Eval

theorem Value.ClosedUnderEvaluation.sound_evaluate {code : Value → Prop}
    (hclosed : ClosedUnderEvaluation code good) (room : Nat) {expr : Value} (hexpr : code expr) :
    Sound good good (evaluate room expr) := by
  induction room generalizing expr with
  | zero => exact Keeps.throw nofun
  | succ room ih =>
      cases expr with
      | symbol name =>
          refine (sound_lookup? name).bind fun found hfound => ?_
          cases found with
          | none => exact sound_fail (.unknownSymbol name)
          | some value => exact Keeps.pure (hfound value rfl)
      | list items =>
          have hitems := hclosed.code_list_iff.mp hexpr
          match items, hitems with
          | [], _ => exact sound_fail .emptyForm
          | .list head :: rest, hitems =>
              have hrest : code (.list rest) :=
                hclosed.code_list_iff.mpr fun item hitem =>
                  hitems item (List.mem_cons_of_mem _ hitem)
              exact (ih (hitems _ List.mem_cons_self)).bind fun _ _ => ih hrest
          | .symbol name :: rest, hitems =>
              have hrest : ∀ item ∈ rest, code item :=
                fun item hitem => hitems item (List.mem_cons_of_mem _ hitem)
              rw [evaluate]
              cases SpecialForm.ofName? name with
              | some form => exact sound_runForm hclosed (fun _ => ih) room form hrest
              | none => exact sound_call hclosed (fun _ => ih) room name hrest
          | .boolean _ :: _, _ | .number _ :: _, _ | .set _ :: _, _ | .builtin _ :: _, _
          | .lambda .. :: _, _ | .foreign .. :: _, _ => exact sound_fail .literalHead
      | boolean | number | set | builtin | lambda | foreign =>
          exact Keeps.pure (hclosed.of_literal hexpr nofun nofun)

theorem Value.ClosedUnderEvaluation.sound_evaluateAll {code : Value → Prop}
    (hclosed : ClosedUnderEvaluation code good) (room : Nat) {exprs : List Value}
    (hexprs : ∀ expr ∈ exprs, code expr) :
    Sound good (fun values => ∀ value ∈ values, good value) (evaluateAll room exprs) :=
  keeps_evaluateEach fun expr hexpr => hclosed.sound_evaluate room (hexprs expr hexpr)

theorem sound_evaluate (room : Nat) {expr : Value} (hexpr : expr.IsExpression) :
    Sound Value.WellFormed Value.WellFormed (evaluate room expr) :=
  Value.closed_wellFormed.sound_evaluate room hexpr

/-- The chains that programs can leave behind: the one they start on, and whatever the evaluation
of an expression leaves of such a chain, however it ends. -/
inductive Reachable : Chain → Prop
  | start : Reachable { own := initialFrame }
  | step {machine : Machine} {expr : Value} (hmachine : Reachable machine.chain)
      (hexpr : expr.IsExpression) (room : Nat) :
      Reachable ((evaluate room expr).outcome machine).2.chain

theorem Reachable.wellFormed {chain : Chain} (h : Reachable chain) : chain.WellFormed := by
  induction h with
  | start =>
      rintro frame (_ | ⟨_, ⟨⟩⟩)
      exact wellFormed_initialFrame
  | step _ hexpr room ih => exact (sound_evaluate room hexpr _ ih).1

/-- **Type soundness.** On a chain that programs can reach, the evaluation of an expression ends
with a well-formed value, with an error of evaluation or for want of room, and all that is bound
afterwards is well-formed. -/
theorem evaluate_type_sound (machine : Machine) (hmachine : Reachable machine.chain) (expr : Value)
    (hexpr : expr.IsExpression) (room : Nat) :
    ((∃ value, ((evaluate room expr).outcome machine).1 = .ok value ∧ value.WellFormed) ∨
      (∃ error, ((evaluate room expr).outcome machine).1 = .error (.error error)) ∨
      ((evaluate room expr).outcome machine).1 = .error .exhausted) ∧
    ∀ frame ∈ ((evaluate room expr).outcome machine).2.chain.frames, ∀ binding ∈ frame,
      binding.2.WellFormed := by
  obtain ⟨hafter, hends⟩ := sound_evaluate room hexpr machine hmachine.wellFormed
  refine ⟨?_, hafter⟩
  rcases hresult : ((evaluate room expr).outcome machine).1 with halt | value
  · rw [hresult] at hends
    cases halt with
    | error error => exact .inr (.inl ⟨error, rfl⟩)
    | exhausted => exact .inr (.inr rfl)
    | fault fault => exact absurd rfl (hends fault)
  · rw [hresult] at hends
    exact .inl ⟨value, rfl, hends⟩

/-- After a function was defined, its call makes a set of one member, and all that is bound remains
well-formed. -/
theorem evaluate_type_sound_call :
    let definition := Value.list [.symbol "fn", .symbol "f", .symbol "x",
      .list [.symbol "set", .symbol "x", .symbol "x"]]
    let call := Value.list [.symbol "f", .boolean true]
    let defined := ((evaluate 9 definition).outcome { chain := { own := initialFrame } }).2
    Reachable defined.chain ∧ call.IsExpression ∧
      ((evaluate 9 call).outcome defined).1 = .ok (.set [.boolean true]) ∧
      (Value.set [.boolean true]).WellFormed ∧
      ∀ frame ∈ ((evaluate 9 call).outcome defined).2.chain.frames, ∀ binding ∈ frame,
        binding.2.WellFormed := by
  intro definition call defined
  have hdefinition : definition.Parsed 2 :=
    ⟨1, "(fn f x (set x x))", [definition], rfl, List.mem_cons_self⟩
  have hcall : call.Parsed 1 := ⟨1, "(f true)", [call], rfl, List.mem_cons_self⟩
  have hdefined : Reachable defined.chain := .step .start hdefinition.isExpression.1 9
  have hresult : ((evaluate 9 call).outcome defined).1 = .ok (.set [.boolean true]) := rfl
  obtain ⟨hends, hbound⟩ := evaluate_type_sound defined hdefined call hcall.isExpression.1 9
  refine ⟨hdefined, hcall.isExpression.1, hresult, ?_, hbound⟩
  rw [hresult] at hends
  rcases hends with ⟨value, hvalue, hwell⟩ | ⟨error, herror⟩ | hexhausted
  · cases hvalue
    exact hwell
  · cases herror
  · cases hexhausted

end SetLisp
