import SetLisp.Eval.Evaluate
import SetLisp.Proofs.Eval.Alike
import SetLisp.Proofs.Eval.Keeps
import SetLisp.Proofs.Scope.Table
import SetLisp.Proofs.Scope.Without
import SetLisp.Proofs.Value.WellFormed

/-!
# Bindings nobody mentions

Code reads a binding only through a symbol with its name. All code that a run can come to stands in
the expression or in the bodies of lambdas that bound values hold, so a name that no symbol there
has may be bound to anything, in any frame. Names that are made from the text of an expression are
only written: a definition may well bind the name, and it remains unread.
-/

namespace SetLisp

namespace Value

/-- The name is the name of a symbol somewhere in the value. -/
inductive Occurs (name : String) : Value → Prop
  | symbol : Occurs name (.symbol name)
  | item {items : List Value} {item : Value} (hitem : item ∈ items) (h : Occurs name item) :
      Occurs name (.list items)
  | member {members : List Value} {member : Value} (hmember : member ∈ members)
      (h : Occurs name member) : Occurs name (.set members)
  | body {id : Nat} {parameters : List String} {body : Value} (h : Occurs name body) :
      Occurs name (.lambda id parameters body)

/-- The name is the name of a symbol in the body of a lambda that the value is or holds. -/
inductive Reaches (name : String) : Value → Prop
  | item {items : List Value} {item : Value} (hitem : item ∈ items) (h : Reaches name item) :
      Reaches name (.list items)
  | member {members : List Value} {member : Value} (hmember : member ∈ members)
      (h : Reaches name member) : Reaches name (.set members)
  | body {id : Nat} {parameters : List String} {body : Value} (h : Occurs name body) :
      Reaches name (.lambda id parameters body)

variable {name : String} {value : Value}

theorem Reaches.occurs (h : Reaches name value) : Occurs name value := by
  induction h with
  | item hitem _ ih => exact .item hitem ih
  | member hmember _ ih => exact .member hmember ih
  | body h => exact .body h

theorem occurs_symbol_iff {symbol : String} : Occurs name (.symbol symbol) ↔ symbol = name := by
  constructor
  · rintro ⟨⟩
    rfl
  · rintro rfl
    exact .symbol

theorem not_occurs_boolean (truth : Bool) : ¬ Occurs name (.boolean truth) :=
  nofun

theorem not_occurs_list_iff {items : List Value} :
    ¬ Occurs name (.list items) ↔ ∀ item ∈ items, ¬ Occurs name item := by
  constructor
  · exact fun h item hitem hoccurs => h (.item hitem hoccurs)
  · intro h hoccurs
    cases hoccurs with
    | item hitem hoccurs => exact h _ hitem hoccurs

theorem not_reaches_lambda_iff {id : Nat} {parameters : List String} {body : Value} :
    ¬ Reaches name (.lambda id parameters body) ↔ ¬ Occurs name body := by
  constructor
  · exact fun h hoccurs => h (.body hoccurs)
  · intro h hreaches
    cases hreaches with
    | body hoccurs => exact h hoccurs

theorem not_reaches_list_iff {items : List Value} :
    ¬ Reaches name (.list items) ↔ ∀ item ∈ items, ¬ Reaches name item := by
  constructor
  · exact fun h item hitem hreaches => h (.item hitem hreaches)
  · intro h hreaches
    cases hreaches with
    | item hitem hreaches => exact h _ hitem hreaches

theorem not_reaches_set_iff {members : List Value} :
    ¬ Reaches name (.set members) ↔ ∀ member ∈ members, ¬ Reaches name member := by
  constructor
  · exact fun h member hmember hreaches => h (.member hmember hreaches)
  · intro h hreaches
    cases hreaches with
    | member hmember hreaches => exact h _ hmember hreaches

theorem hereditary_not_reaches (name : String) : Hereditary (¬ Reaches name ·) where
  boolean _ := nofun
  number _ := nofun
  list_iff := not_reaches_list_iff
  set_iff := not_reaches_set_iff

end Value

/-- No value bound under another name reaches the name. -/
def Chain.Unreached (chain : Chain) (name : String) : Prop :=
  ∀ frame ∈ chain.frames, ∀ binding ∈ frame, binding.1 ≠ name → ¬ binding.2.Reaches name

namespace Chain.Unreached

variable {chain : Chain} {name bound : String} {value : Value}

theorem lookup? (h : chain.Unreached name) (hbound : bound ≠ name)
    (hlookup : chain.lookup? bound = some value) : ¬ value.Reaches name := by
  obtain ⟨frame, hframe, hfind⟩ := List.exists_of_findSome?_eq_some hlookup
  exact h frame hframe (bound, value) (Frame.mem_of_find? hfind) hbound

theorem define (h : chain.Unreached name) (bound : String) (hvalue : ¬ value.Reaches name) :
    (chain.define bound value).Unreached name := by
  rintro frame (_ | ⟨_, hframe⟩) binding hbinding
  · rcases Frame.mem_define hbinding with hold | rfl
    · exact h chain.own List.mem_cons_self binding hold
    · exact fun _ => hvalue
  · exact h frame (List.mem_cons_of_mem chain.own hframe) binding hbinding

theorem push (h : chain.Unreached name) {scope : Frame}
    (hscope : ∀ binding ∈ scope, ¬ binding.2.Reaches name) : (chain.push scope).Unreached name := by
  rintro frame (_ | ⟨_, hframe⟩)
  · exact fun binding hbinding _ => hscope binding hbinding
  · exact h frame hframe

theorem pop (h : chain.Unreached name) : chain.pop.Unreached name := by
  obtain ⟨own, outer⟩ := chain
  cases outer with
  | nil => exact h
  | cons caller outer => exact fun frame hframe => h frame (List.mem_cons_of_mem own hframe)

end Chain.Unreached

/-! ### Machines that agree but for the name -/

/-- The machines differ at most in what they bind to the name, and no value bound under another name
reaches it. -/
structure Machine.AgreeOff (name : String) (m n : Machine) : Prop where
  chain_eq : m.chain.without name = n.chain.without name
  unreached : m.chain.Unreached name
  output_eq : m.output = n.output
  log_eq : m.log = n.log
  level_eq : m.level = n.level
  next_eq : m.next = n.next

namespace Machine.AgreeOff

variable {name bound : String} {value : Value} {m n : Machine}

theorem lookup?_eq (h : AgreeOff name m n) (hbound : bound ≠ name) :
    m.chain.lookup? bound = n.chain.lookup? bound := by
  rw [← m.chain.lookup?_without hbound, h.chain_eq, n.chain.lookup?_without hbound]

/-- Whatever name is written, the same is written on both sides. -/
theorem define (h : AgreeOff name m n) (bound : String) (hvalue : ¬ value.Reaches name) :
    AgreeOff name (m.define bound value) (n.define bound value) := by
  have hchain : (m.chain.define bound value).without name =
      (n.chain.define bound value).without name := by
    by_cases hbound : bound = name
    · rw [hbound, Chain.without_define_self, Chain.without_define_self, h.chain_eq]
    · rw [Chain.without_define_of_ne _ hbound, Chain.without_define_of_ne _ hbound, h.chain_eq]
  exact { h with chain_eq := hchain, unreached := h.unreached.define bound hvalue }

theorem write (h : AgreeOff name m n) (text : String) :
    AgreeOff name (m.write text) (n.write text) :=
  { h with output_eq := congrArg (· ++ text) h.output_eq }

theorem record (h : AgreeOff name m n) (entry : LogRecord) :
    AgreeOff name (m.record entry) (n.record entry) := by
  rw [Machine.record, Machine.record, h.level_eq]
  split
  · exact { h with log_eq := congrArg (· ++ [entry]) h.log_eq, level_eq := rfl }
  · exact h

theorem skip (h : AgreeOff name m n) (count : Nat) :
    AgreeOff name (m.skip count) (n.skip count) :=
  { h with next_eq := congrArg (· + count) h.next_eq }

theorem enter (h : AgreeOff name m n) {scope : Frame}
    (hscope : ∀ binding ∈ scope, ¬ binding.2.Reaches name) :
    AgreeOff name (m.enter scope) (n.enter scope) := by
  have hchain : (m.chain.push scope).without name = (n.chain.push scope).without name := by
    rw [Chain.without_push, Chain.without_push, h.chain_eq]
  exact { h with chain_eq := hchain, unreached := h.unreached.push hscope }

theorem leave (h : AgreeOff name m n) : AgreeOff name m.leave n.leave := by
  have hchain : m.chain.pop.without name = n.chain.pop.without name := by
    rw [Chain.without_pop, Chain.without_pop, h.chain_eq]
  exact { h with chain_eq := hchain, unreached := h.unreached.pop }

end Machine.AgreeOff

namespace Eval

variable {α β : Type} {name : String}

/-- Machines that agree but for the name stay so, and the action ends on both in the same way, if
with a value then with a good one. -/
def Blind (name : String) (good : α → Prop) (action : Eval α) : Prop :=
  ∀ m n, Machine.AgreeOff name m n →
    (action.outcome m).1 = (action.outcome n).1 ∧
    EndsWell (fun _ => True) good (action.outcome m).1 ∧
    Machine.AgreeOff name (action.outcome m).2 (action.outcome n).2

namespace Blind

theorem pure {good : α → Prop} {value : α} (hvalue : good value) :
    Blind name good (Pure.pure value) :=
  fun _ _ hagree => ⟨rfl, hvalue, hagree⟩

theorem throw {good : α → Prop} (halt : Halt) : Blind name good (throw halt : Eval α) :=
  fun _ _ hagree => ⟨rfl, trivial, hagree⟩

theorem fail {good : α → Prop} (error : EvalError) : Blind name good (fail error : Eval α) :=
  throw (.error error)

theorem bind {found : α → Prop} {good : β → Prop} {action : Eval α} {next : α → Eval β}
    (haction : Blind name found action)
    (hnext : ∀ value, found value → Blind name good (next value)) :
    Blind name good (action >>= next) := by
  intro m n hagree
  obtain ⟨hresult, hends, hafter⟩ := haction m n hagree
  rw [outcome_bind, outcome_bind]
  rcases hfirst : action.outcome m with ⟨result, after⟩
  rcases hsecond : action.outcome n with ⟨result', after'⟩
  rw [hfirst, hsecond] at hresult hafter
  rw [hfirst] at hends
  obtain rfl : result = result' := hresult
  cases result with
  | ok value => exact hnext value hends after after' hafter
  | error halt => exact ⟨rfl, trivial, hafter⟩

theorem of_alike {action : Eval α} (h : Alike (Machine.AgreeOff name) action action) :
    Blind name (fun _ => True) action := by
  intro m n hagree
  obtain ⟨hresult, hafter⟩ := h m n hagree
  refine ⟨hresult, ?_, hafter⟩
  cases (action.outcome m).1 <;> exact trivial

/-- What a scope binds is the same on both sides, be it the name itself. -/
theorem inScope {good : α → Prop} {scope : Frame} {action : Eval α}
    (hscope : ∀ binding ∈ scope, ¬ binding.2.Reaches name) (haction : Blind name good action) :
    Blind name good (inScope scope action) := by
  intro m n hagree
  obtain ⟨hresult, hends, hafter⟩ := haction _ _ (hagree.enter hscope)
  rw [outcome_inScope, outcome_inScope]
  exact ⟨hresult, hends, hafter.leave⟩

end Blind

theorem blind_lookup? {bound : String} (hbound : bound ≠ name) :
    Blind name (fun found => ∀ value ∈ found, ¬ value.Reaches name) (lookup? bound) := by
  intro m n hagree
  rw [outcome_lookup?, outcome_lookup?, hagree.lookup?_eq hbound]
  refine ⟨rfl, fun value hvalue => ?_, hagree⟩
  rw [← hagree.lookup?_eq hbound] at hvalue
  exact hagree.unreached.lookup? hbound hvalue

theorem blind_define (bound : String) {value : Value} (hvalue : ¬ value.Reaches name) :
    Blind name (fun _ => True) (define bound value) :=
  fun _ _ hagree => ⟨rfl, trivial, hagree.define bound hvalue⟩

theorem blind_write (text : String) : Blind name (fun _ => True) (write text) :=
  fun _ _ hagree => ⟨rfl, trivial, hagree.write text⟩

theorem blind_record (severity : Severity) (source : LogSource) (message : String) :
    Blind name (fun _ => True) (record severity source message) :=
  fun _ _ hagree => ⟨rfl, trivial, hagree.record _⟩

theorem blind_debugging : Blind name (fun _ => True) debugging := by
  intro m n hagree
  rw [outcome_debugging, outcome_debugging, hagree.level_eq]
  exact ⟨rfl, trivial, hagree⟩

theorem blind_fresh : Blind name (fun _ => True) fresh := by
  intro m n hagree
  rw [outcome_fresh, outcome_fresh, hagree.next_eq]
  exact ⟨rfl, trivial, hagree.skip 1⟩

theorem blind_textOf (room : Nat) (value : Value) :
    Blind name (fun _ => True) (textOf room value) :=
  .of_alike (alike_textOf room value)

theorem blind_textsOf (room : Nat) (values : List Value) :
    Blind name (fun _ => True) (textsOf room values) :=
  .of_alike (alike_textsOf room values)

theorem blind_evaluateEach {evaluate : Value → Eval Value} {exprs : List Value}
    (heval : ∀ expr ∈ exprs, Blind name (¬ ·.Reaches name) (evaluate expr)) :
    Blind name (fun values => ∀ value ∈ values, ¬ value.Reaches name)
      (evaluateEach evaluate exprs) := by
  induction exprs with
  | nil => exact .pure (List.forall_mem_nil _)
  | cons expr rest ih =>
      obtain ⟨hexpr, hrest⟩ := List.forall_mem_cons.mp heval
      exact hexpr.bind fun value hvalue => (ih hrest).bind fun values hvalues =>
        .pure (List.forall_mem_cons.mpr ⟨hvalue, hvalues⟩)

/-- Builtins make no code: what the result holds, the arguments hold. -/
theorem blind_applyBuiltin (room : Nat) (function : Builtin) {args : List Value}
    (hargs : ∀ arg ∈ args, ¬ arg.Reaches name) :
    Blind name (¬ ·.Reaches name) (applyBuiltin room function (.list args)) := by
  rw [applyBuiltin_eq]
  refine blind_fresh.bind fun payload _ => ?_
  cases hresult : function.resultOfAll payload (.list args) with
  | error error => exact .fail error
  | ok value =>
      have hvalue : ¬ value.Reaches name :=
        (Value.hereditary_not_reaches name).closed.of_result hargs hresult
      dsimp only
      split
      · exact .throw .exhausted
      · split
        · exact (blind_textOf room value).bind fun text _ =>
            (blind_write (text ++ "\n")).bind fun _ _ => .pure hvalue
        · exact .pure hvalue

theorem blind_makeLambda (room : Nat) (parameters : List Value) {body : Value}
    (hbody : ¬ body.Occurs name) :
    Blind name (¬ ·.Reaches name) (makeLambda room parameters body) :=
  (blind_textsOf room parameters).bind fun _ _ => blind_fresh.bind fun _ _ =>
    .pure (Value.not_reaches_lambda_iff.mpr hbody)

theorem blind_recordDefinition (room : Nat) (bound : String) (function : Value) :
    Blind name (fun _ => True) (recordDefinition room bound function) := by
  unfold recordDefinition
  split
  · exact blind_record _ _ _
  · exact .throw .exhausted
  · exact .pure trivial

theorem blind_defineFunction (room : Nat) (bound : Value) (parameters : List Value) {body : Value}
    (hbody : ¬ body.Occurs name) :
    Blind name (¬ ·.Reaches name) (defineFunction room bound parameters body) := by
  refine (blind_makeLambda room parameters hbody).bind fun function hfunction => ?_
  refine (blind_textOf room bound).bind fun text _ => ?_
  refine (blind_define text hfunction).bind fun _ _ => ?_
  refine blind_debugging.bind fun debug _ => ?_
  cases debug with
  | false => exact .pure nofun
  | true => exact (blind_recordDefinition room text function).bind fun _ _ => .pure nofun

variable {evaluate : Value → Eval Value}
  (heval : ∀ expr : Value, ¬ expr.Occurs name → Blind name (¬ ·.Reaches name) (evaluate expr))

include heval

theorem blind_runForm (room : Nat) (form : SpecialForm) {parts : List Value}
    (hparts : ∀ part ∈ parts, ¬ part.Occurs name) :
    Blind name (¬ ·.Reaches name) (runForm evaluate room form parts) := by
  cases formRule form parts with
  | conditional condition yes no =>
      simp only [List.mem_cons, List.not_mem_nil, or_false, forall_eq_or_imp, forall_eq] at hparts
      obtain ⟨hcondition, hyes, hno⟩ := hparts
      rw [runForm_conditional]
      refine (heval condition hcondition).bind fun value _ => ?_
      split
      · exact heval yes hyes
      · exact heval no hno
      · exact .fail .conditionNotBoolean
  | define bound expr =>
      simp only [List.mem_cons, List.not_mem_nil, or_false, forall_eq_or_imp, forall_eq] at hparts
      rw [runForm_define]
      refine (heval expr hparts.2).bind fun value hvalue => ?_
      exact (blind_textOf room bound).bind fun text _ =>
        (blind_define text hvalue).bind fun _ _ => .pure hvalue
  | lambda parameters body hne =>
      obtain ⟨-, hbody⟩ := List.forall_mem_append.mp hparts
      rw [runForm_lambda evaluate room hne]
      exact blind_makeLambda room parameters (hbody body List.mem_cons_self)
  | function bound parameters body hne =>
      obtain ⟨-, hrest⟩ := List.forall_mem_cons.mp hparts
      obtain ⟨-, hbody⟩ := List.forall_mem_append.mp hrest
      rw [runForm_function evaluate room bound hne]
      exact blind_defineFunction room bound parameters (hbody body List.mem_cons_self)
  | arity form parts htakes =>
      rw [runForm_arity evaluate room htakes]
      exact .fail (.formArity form)

/-- The frames a body runs in are those of its caller, so that nothing needs to be known of where
the lambda was made. -/
theorem blind_applyLambda (parameters : List String) {body : Value} (hbody : ¬ body.Occurs name)
    {args : List Value} (hargs : ∀ arg ∈ args, ¬ arg.Reaches name) :
    Blind name (¬ ·.Reaches name) (applyLambda evaluate parameters body args) := by
  unfold applyLambda
  split
  · exact .fail .noArguments
  · cases hscope : callScope parameters args with
    | error error => exact .fail error
    | ok scope =>
        refine .inScope (fun binding hbinding => ?_) (heval body hbody)
        exact hargs binding.2 (mem_of_callScope hscope hbinding)

theorem blind_apply (room : Nat) (called : String) {function : Value}
    (hfunction : ¬ function.Reaches name) {args : List Value}
    (hargs : ∀ arg ∈ args, ¬ arg.Reaches name) :
    Blind name (¬ ·.Reaches name) (apply evaluate room called function args) := by
  unfold apply
  split
  · next function => exact blind_applyBuiltin room function hargs
  · next id parameters body =>
      exact blind_applyLambda heval parameters (Value.not_reaches_lambda_iff.mp hfunction) hargs
  · exact .fail (.notFunction called)

theorem blind_call (room : Nat) {called : String} (hcalled : called ≠ name) {exprs : List Value}
    (hexprs : ∀ expr ∈ exprs, ¬ expr.Occurs name) :
    Blind name (¬ ·.Reaches name) (call evaluate room called exprs) := by
  refine (blind_lookup? hcalled).bind fun found hfound => ?_
  cases found with
  | none => exact .fail (.notInScope called)
  | some function =>
      dsimp only
      split
      · refine (blind_evaluateEach fun expr hexpr => heval expr (hexprs expr hexpr)).bind
          fun args hargs => ?_
        exact blind_apply heval room called (hfound function rfl) hargs
      · exact .fail (.notFunction called)

end Eval

open Eval

variable {name : String}

theorem blind_evaluate (room : Nat) {expr : Value} (hexpr : ¬ expr.Occurs name) :
    Blind name (¬ ·.Reaches name) (evaluate room expr) := by
  induction room generalizing expr with
  | zero => exact .throw .exhausted
  | succ room ih =>
      have hsymbol {bound : String} (hoccurs : ¬ (Value.symbol bound).Occurs name) :
          bound ≠ name :=
        fun heq => hoccurs (Value.occurs_symbol_iff.mpr heq)
      unfold evaluate
      split
      · next bound =>
          refine (blind_lookup? (hsymbol hexpr)).bind fun found hfound => ?_
          cases found with
          | none => exact .fail (.unknownSymbol bound)
          | some value => exact .pure (hfound value rfl)
      · exact .fail .emptyForm
      · next head rest =>
          obtain ⟨hhead, hrest⟩ := List.forall_mem_cons.mp (Value.not_occurs_list_iff.mp hexpr)
          exact (ih hhead).bind fun _ _ => ih (Value.not_occurs_list_iff.mpr hrest)
      · next called rest =>
          obtain ⟨hcalled, hrest⟩ := List.forall_mem_cons.mp (Value.not_occurs_list_iff.mp hexpr)
          cases SpecialForm.ofName? called with
          | some form => exact blind_runForm (fun _ => ih) room form hrest
          | none => exact blind_call (fun _ => ih) room (hsymbol hcalled) hrest
      · exact .fail .literalHead
      · exact .pure fun hreaches => hexpr hreaches.occurs

/-- **A binding nobody mentions does not matter.** When no symbol of the expression has the name,
nor one in a body that a value under another name leads to, then binding the name, to whatever and
in whichever frame, changes neither how the evaluation ends nor what it prints nor what it leaves
bound to other names. -/
theorem evaluate_ignores_unmentioned_binding (room : Nat) (expr : Value) (machine : Machine)
    (name : String) (hexpr : ¬ expr.Occurs name) (hchain : machine.chain.Unreached name)
    (depth : Nat) (value : Value) :
    let plain := (evaluate room expr).outcome machine
    let bound := (evaluate room expr).outcome
      { machine with chain := machine.chain.bindIn depth name value }
    plain.1 = bound.1 ∧ plain.2.output = bound.2.output ∧ plain.2.log = bound.2.log ∧
      plain.2.chain.without name = bound.2.chain.without name ∧
      ∀ other, other ≠ name → plain.2.chain.lookup? other = bound.2.chain.lookup? other := by
  intro plain bound
  have hagree : Machine.AgreeOff name machine
      { machine with chain := machine.chain.bindIn depth name value } :=
    ⟨(machine.chain.without_bindIn depth name value).symm, hchain, rfl, rfl, rfl, rfl⟩
  obtain ⟨hresult, -, hafter⟩ := blind_evaluate room hexpr _ _ hagree
  exact ⟨hresult, hafter.output_eq, hafter.log_eq, hafter.chain_eq,
    fun other hother => hafter.lookup?_eq hother⟩

/-- The text of an expression is bound that is the name of no symbol: the run defines it anew, in
the nearest frame and in that of a call. -/
theorem evaluate_ignores_unmentioned_binding_rendered :
    let definition (expr : Value) :=
      Value.list [.symbol "define", .list [.symbol "a", .symbol "b"], expr]
    let function := Value.lambda 1 ["x"] (definition (.symbol "x"))
    let expr := definition (.list [.symbol "f", .boolean true])
    let machine : Machine := { chain := { own := [("f", function)], outer := [[]] }, next := 2 }
    ¬ expr.Occurs "(a b)" ∧ machine.chain.Unreached "(a b)" ∧
      ((evaluate 9 expr).outcome
        { machine with chain := machine.chain.bindIn 1 "(a b)" function }).1 =
          .ok (.boolean true) := by
  intro definition function expr machine
  have hexpr : ¬ expr.Occurs "(a b)" := by
    simp [expr, definition, Value.not_occurs_list_iff, Value.occurs_symbol_iff,
      Value.not_occurs_boolean]
  have hchain : machine.chain.Unreached "(a b)" := by
    simp [machine, Chain.Unreached, Chain.frames, function, definition, Value.not_occurs_list_iff,
      Value.occurs_symbol_iff, Value.not_reaches_lambda_iff]
  have hplain : ((evaluate 9 expr).outcome machine).1 = .ok (.boolean true) := rfl
  have hsame := (evaluate_ignores_unmentioned_binding 9 expr machine _ hexpr hchain 1 function).1
  exact ⟨hexpr, hchain, hsame.symm.trans hplain⟩

end SetLisp
