import SetLisp.Proofs.Eval.Keeps
import SetLisp.Proofs.Eval.Room

namespace SetLisp

/-- The symbol stands somewhere in the expression. -/
inductive Value.Mentions (name : String) : Value → Prop
  | symbol : Mentions name (.symbol name)
  | item {items : List Value} {item : Value} (hitem : item ∈ items) (h : Mentions name item) :
      Mentions name (.list items)

theorem SpecialForm.name_of_ofName? {name : String} {form : SpecialForm}
    (h : ofName? name = some form) : form.name = name := by
  have hfound := List.find?_some h
  exact beq_iff_eq.mp hfound

namespace Eval

variable {α : Type} {chain : Chain}

/-- Whatever the action does, and however it ends, the chain stays. -/
def LeavesChain (chain : Chain) (action : Eval α) : Prop :=
  Keeps (fun machine => machine.chain = chain) (fun _ => True) (fun _ => True) action

theorem endsWell_true (result : Except Halt α) :
    EndsWell (fun _ => True) (fun _ => True) result := by
  cases result <;> exact trivial

namespace LeavesChain

theorem pure (value : α) : LeavesChain chain (Pure.pure value) :=
  Keeps.pure trivial

theorem throw (halt : Halt) : LeavesChain chain (throw halt : Eval α) :=
  Keeps.throw trivial

theorem fail (error : EvalError) : LeavesChain chain (fail error : Eval α) :=
  throw (.error error)

theorem bind {β : Type} {action : Eval α} {next : α → Eval β} (haction : LeavesChain chain action)
    (hnext : ∀ value, LeavesChain chain (next value)) : LeavesChain chain (action >>= next) :=
  Keeps.bind haction fun value _ => hnext value

/-- What a scope is entered for may define in it, and nowhere else. -/
theorem inScope {scope : Frame} {action : Eval α}
    (h : ∀ machine : Machine, machine.GrowsTo (action.outcome machine).2) :
    LeavesChain chain (inScope scope action) := by
  intro machine hchain
  rw [outcome_inScope]
  exact ⟨(h _).chain_leave.trans hchain, endsWell_true _⟩

end LeavesChain

theorem leavesChain_lookup? (name : String) : LeavesChain chain (lookup? name) :=
  fun _ hchain => ⟨hchain, trivial⟩

theorem leavesChain_fresh : LeavesChain chain fresh :=
  keeps_fresh fun _ _ hchain => hchain

theorem leavesChain_textOf (room : Nat) (value : Value) :
    LeavesChain chain (textOf room value) := by
  unfold textOf
  split
  · exact .pure value.text
  · exact .throw .exhausted
  · exact .throw (.fault .integerTooLarge)

theorem leavesChain_textsOf (room : Nat) (values : List Value) :
    LeavesChain chain (textsOf room values) := by
  induction values with
  | nil => exact .pure []
  | cons value rest ih =>
      exact (leavesChain_textOf room value).bind fun text =>
        ih.bind fun texts => .pure (text :: texts)

theorem leavesChain_applyBuiltin (room : Nat) (function : Builtin) (args : Value) :
    LeavesChain chain (applyBuiltin room function args) := by
  rw [applyBuiltin_eq]
  refine leavesChain_fresh.bind fun payload => ?_
  cases function.resultOfAll payload args with
  | error error => exact .fail error
  | ok value =>
      dsimp only
      split
      · exact .throw .exhausted
      · split
        · have hwrite (text : String) : LeavesChain chain (write text) :=
            keeps_write (fun _ _ hchain => hchain) text
          exact (leavesChain_textOf room value).bind fun text =>
            (hwrite (text ++ "\n")).bind fun _ => .pure value
        · exact .pure value

theorem leavesChain_makeLambda (room : Nat) (parameters : List Value) (body : Value) :
    LeavesChain chain (makeLambda room parameters body) :=
  (leavesChain_textsOf room parameters).bind fun _ => leavesChain_fresh.bind fun _ => .pure _

/-- A call leaves every frame of the caller alone, also the one it is made in. -/
theorem leavesChain_applyLambda (room : Nat) (parameters : List String) (body : Value)
    (args : List Value) : LeavesChain chain (applyLambda (evaluate room) parameters body args) := by
  unfold applyLambda
  split
  · exact .fail .noArguments
  · cases callScope parameters args with
    | error error => exact .fail error
    | ok scope => exact .inScope (truncates_evaluate (Nat.le_refl room) body).growsTo

theorem leavesChain_apply (room : Nat) (name : String) (function : Value) (args : List Value) :
    LeavesChain chain (apply (evaluate room) room name function args) := by
  unfold apply
  split
  · exact leavesChain_applyBuiltin room _ (.list args)
  · exact leavesChain_applyLambda room _ _ args
  · exact .fail (.notFunction name)

theorem leavesChain_call (room : Nat) (name : String) {exprs : List Value}
    (hexprs : ∀ expr ∈ exprs, LeavesChain chain (evaluate room expr)) :
    LeavesChain chain (call (evaluate room) room name exprs) := by
  refine (leavesChain_lookup? name).bind fun found => ?_
  cases found with
  | none => exact .fail (.notInScope name)
  | some function =>
      dsimp only
      split
      · exact Keeps.bind (keeps_evaluateEach hexprs) fun args _ =>
          leavesChain_apply room name function args
      · exact .fail (.notFunction name)

/-- A special form that is neither `define` nor `fn` leaves the chain to its parts. -/
theorem leavesChain_runForm (room : Nat) {form : SpecialForm} (hdefine : form ≠ .define)
    (hfunction : form ≠ .function) {parts : List Value}
    (hparts : ∀ part ∈ parts, LeavesChain chain (evaluate room part)) :
    LeavesChain chain (runForm (evaluate room) room form parts) := by
  cases formRule form parts with
  | conditional condition yes no =>
      simp only [List.mem_cons, List.not_mem_nil, or_false, forall_eq_or_imp, forall_eq] at hparts
      obtain ⟨hcondition, hyes, hno⟩ := hparts
      rw [runForm_conditional]
      refine hcondition.bind fun value => ?_
      split
      · exact hyes
      · exact hno
      · exact .fail .conditionNotBoolean
  | define name expr => exact absurd rfl hdefine
  | lambda parameters body hne =>
      rw [runForm_lambda (evaluate room) room hne]
      exact leavesChain_makeLambda room parameters body
  | function name parameters body hne => exact absurd rfl hfunction
  | arity form parts htakes =>
      rw [runForm_arity (evaluate room) room htakes]
      exact .fail (.formArity form)

end Eval

open Eval

/-- An expression that mentions neither `define` nor `fn` defines nothing, whatever it calls. -/
theorem leavesChain_evaluate {chain : Chain} (room : Nat) {expr : Value}
    (hdefine : ¬ expr.Mentions "define") (hfunction : ¬ expr.Mentions "fn") :
    LeavesChain chain (evaluate room expr) := by
  induction room generalizing expr with
  | zero => exact .throw .exhausted
  | succ room ih =>
      have hitems {items rest : List Value} (hexpr : expr = .list items) (hrest : rest ⊆ items) :
          ∀ item ∈ rest, LeavesChain chain (evaluate room item) := by
        subst hexpr
        exact fun item hitem => ih (fun h => hdefine (.item (hrest hitem) h))
          fun h => hfunction (.item (hrest hitem) h)
      unfold evaluate
      split
      · next name =>
          refine (leavesChain_lookup? name).bind fun found => ?_
          cases found with
          | none => exact .fail (.unknownSymbol name)
          | some value => exact .pure value
      · exact .fail .emptyForm
      · next head rest =>
          refine (hitems rfl (List.Subset.refl _) _ List.mem_cons_self).bind fun _ => ?_
          refine ih (fun h => hdefine ?_) fun h => hfunction ?_
          · cases h with
            | item hitem h => exact .item (List.mem_cons_of_mem _ hitem) h
          · cases h with
            | item hitem h => exact .item (List.mem_cons_of_mem _ hitem) h
      · next name rest =>
          have hrest := hitems rfl (List.subset_cons_self (Value.symbol name) rest)
          cases hform : SpecialForm.ofName? name with
          | none => exact leavesChain_call room name hrest
          | some form =>
              have hname := SpecialForm.name_of_ofName? hform
              refine leavesChain_runForm room ?_ ?_ hrest
              · rintro rfl
                exact hdefine (.item List.mem_cons_self (hname ▸ .symbol))
              · rintro rfl
                exact hfunction (.item List.mem_cons_self (hname ▸ .symbol))
      · exact .fail .literalHead
      · exact .pure expr

/-- **Evaluation writes to its own frame.** However an evaluation ends, the frames behind the
nearest one stay, and the nearest one keeps its names in their order and gets new ones only behind
them. It stays as well when the expression mentions neither `define` nor `fn`, and so do all frames
when a function is applied. -/
theorem evaluate_writes_own_frame (room : Nat) (expr : Value) (machine : Machine) :
    let after := ((evaluate room expr).outcome machine).2
    after.chain.outer = machine.chain.outer ∧
      machine.chain.own.names <+: after.chain.own.names ∧
      (¬ expr.Mentions "define" → ¬ expr.Mentions "fn" → after.chain = machine.chain) ∧
      ∀ parameters body args,
        ((applyLambda (evaluate room) parameters body args).outcome machine).2.chain =
          machine.chain := by
  intro after
  have hgrows : machine.GrowsTo after :=
    (truncates_evaluate (Nat.le_refl room) expr).growsTo machine
  refine ⟨hgrows.outer_eq, hgrows.names_prefix, fun hdefine hfunction => ?_, ?_⟩
  · exact (leavesChain_evaluate room hdefine hfunction machine rfl).1
  · intro parameters body args
    exact (leavesChain_applyLambda room parameters body args machine rfl).1

/-- The body of a called function defines a name that its caller has bound, and one it has not. -/
theorem evaluate_writes_own_frame_call :
    let definition (name : String) := Value.list [.symbol "define", .symbol name, .symbol "x"]
    let function := Value.lambda 1 ["x"] (.list [definition "y", .symbol "define", .symbol "z",
      .symbol "x"])
    let expr := Value.list [.symbol "f", .boolean false]
    let machine : Machine :=
      { chain := { own := [("y", .boolean true)], outer := [[("f", function)]] }, next := 2 }
    let outcome := (evaluate 5 expr).outcome machine
    ¬ expr.Mentions "define" ∧ ¬ expr.Mentions "fn" ∧ outcome.1 = .ok (.boolean false) ∧
      outcome.2.chain = machine.chain := by
  intro definition function expr machine outcome
  have hmentions (name : String) (hname : name ≠ "f") :
      ¬ (Value.list [.symbol "f", .boolean false]).Mentions name := by
    rintro (_ | ⟨_ | ⟨_, _ | ⟨_, ⟨⟩⟩⟩, h⟩)
    · cases h
      exact hname rfl
    · cases h
  have hdefine := hmentions "define" (by decide)
  have hfunction := hmentions "fn" (by decide)
  exact ⟨hdefine, hfunction, rfl,
    (evaluate_writes_own_frame 5 expr machine).2.2.1 hdefine hfunction⟩

end SetLisp
