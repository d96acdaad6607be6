import SetLisp.Builtin.Result

namespace SetLisp.Builtin

section Folds

variable {α : Type} {accept : Value → Option α} {op : α → α → α} {initial result : α}
  {first : Value} {args rest rest' : List Value}

/-- One pass over arguments of which the first stands at `index`. An accepted argument becomes the
result at index zero, and everywhere else it is folded into the result. -/
def pass (accept : Value → Option α) (op : α → α → α) : Nat → α → List Value → α
  | _, result, [] => result
  | index, result, arg :: rest =>
      match accept arg with
      | none => pass accept op (index + 1) result rest
      | some x => pass accept op (index + 1) (if index = 0 then x else op result x) rest

/-- Behind the first argument the place no longer matters. -/
theorem pass_succ (index : Nat) (result : α) (args : List Value) :
    pass accept op (index + 1) result args = (args.filterMap accept).foldl op result := by
  induction args generalizing index result with
  | nil => rfl
  | cons arg rest ih =>
      rw [pass]
      cases harg : accept arg with
      | none => rw [List.filterMap_cons_none harg, ih]
      | some x =>
          dsimp only
          rw [List.filterMap_cons_some harg, List.foldl_cons, if_neg (Nat.succ_ne_zero index), ih]

theorem accumulate_of_accepted {x : α} (h : accept first = some x) (rest : List Value) :
    accumulate accept op initial (first :: rest) = (rest.filterMap accept).foldl op x := by
  rw [accumulate, seed, h, Option.getD_some]

/-- Without an accepted first argument the fold goes over all of them. -/
theorem accumulate_of_not_accepted (h : args.head?.bind accept = none) :
    accumulate accept op initial args = (args.filterMap accept).foldl op initial := by
  cases args with
  | nil => rfl
  | cons first rest =>
      have hfirst : accept first = none := h
      rw [accumulate, seed, hfirst, Option.getD_none, List.filterMap_cons_none hfirst]

theorem accumulate_eq_pass (args : List Value) :
    accumulate accept op initial args = pass accept op 0 initial args := by
  cases args with
  | nil => rfl
  | cons first rest =>
      rw [pass]
      cases hfirst : accept first with
      | none =>
          have hnone : (first :: rest).head?.bind accept = none := hfirst
          dsimp only
          rw [accumulate_of_not_accepted hnone, List.filterMap_cons_none hfirst, pass_succ]
      | some x =>
          dsimp only
          rw [accumulate_of_accepted hfirst, if_pos rfl, pass_succ]

theorem accumulate_append (hargs : args ≠ []) (more : List Value) :
    accumulate accept op initial (args ++ more) =
      (more.filterMap accept).foldl op (accumulate accept op initial args) := by
  cases args with
  | nil => exact absurd rfl hargs
  | cons first rest =>
      rw [List.cons_append, accumulate, accumulate, List.filterMap_append, List.foldl_append]

theorem filterMap_of_ignored {ignored : List Value} (h : ∀ arg ∈ ignored, accept arg = none)
    (before behind : List Value) :
    (before ++ ignored ++ behind).filterMap accept = (before ++ behind).filterMap accept := by
  have hnone : ignored.filterMap accept = [] := List.filterMap_eq_nil_iff.mpr h
  rw [List.filterMap_append, List.filterMap_append, hnone, List.append_nil,
    ← List.filterMap_append]

/-- Behind the first argument only the accepted ones count. -/
theorem accumulate_congr (h : rest.filterMap accept = rest'.filterMap accept) :
    accumulate accept op initial (first :: rest) =
      accumulate accept op initial (first :: rest') := by
  rw [accumulate, accumulate, h]

end Folds

/-- What a builtin folds, and with which operation. -/
inductive Folding where
  | numbers (op : Double → Double → Double)
  | booleans (op : Bool → Bool → Bool)

namespace Folding

def accepts : Folding → Value → Bool
  | numbers _, arg => arg.number?.isSome
  | booleans _, arg => arg.boolean?.isSome

/-- Numbers are folded from zero and truth values from false. -/
def run : Folding → List Value → Value
  | numbers op, args => .number (accumulate Value.number? op (.zero false) args)
  | booleans op, args => .boolean (accumulate Value.boolean? op false args)

theorem run_of_ignored (folding : Folding) {ignored : List Value}
    (h : ∀ arg ∈ ignored, folding.accepts arg = false) (first : Value)
    (before behind : List Value) :
    folding.run (first :: (before ++ ignored ++ behind)) =
      folding.run (first :: (before ++ behind)) := by
  cases folding with
  | numbers op =>
      have hnone : ∀ arg ∈ ignored, arg.number? = none := fun arg harg =>
        Option.isNone_iff_eq_none.mp (Option.isSome_eq_false_iff.mp (h arg harg))
      exact congrArg Value.number (accumulate_congr (filterMap_of_ignored hnone before behind))
  | booleans op =>
      have hnone : ∀ arg ∈ ignored, arg.boolean? = none := fun arg harg =>
        Option.isNone_iff_eq_none.mp (Option.isSome_eq_false_iff.mp (h arg harg))
      exact congrArg Value.boolean (accumulate_congr (filterMap_of_ignored hnone before behind))

end Folding

/-- How the builtins of arithmetic, and those of logic that take two truth values, fold. -/
def folding? (fresh : Nat) : Builtin → Option Folding
  | add => some (.numbers (Double.add fresh))
  | sub => some (.numbers (Double.sub fresh))
  | mul => some (.numbers (Double.mul fresh))
  | div => some (.numbers (quotient fresh))
  | rem => some (.numbers (remainder fresh))
  | and => some (.booleans (· && ·))
  | or => some (.booleans (· || ·))
  | _ => none

theorem result_of_folding? {function : Builtin} {fresh : Nat} {folding : Folding}
    (h : function.folding? fresh = some folding) (args : List Value) :
    function.result fresh args = .ok (folding.run args) := by
  cases function <;> cases h <;> rfl

/-- **Arguments are folded in order.** An accepted first argument is where the fold over the others
starts; otherwise the fold goes over all of them from the initial value. That is what a single pass
comes to which looks at places and kinds, and with more arguments behind some the fold goes on from
what it has come to. With arithmetic and logic, arguments of another kind may thus be put in or left
out anywhere behind the first. -/
theorem arguments_are_folded {α : Type} (accept : Value → Option α) (op : α → α → α)
    (initial : α) :
    (∀ args, accumulate accept op initial args = pass accept op 0 initial args) ∧
    (∀ first x rest, accept first = some x →
      accumulate accept op initial (first :: rest) = (rest.filterMap accept).foldl op x) ∧
    (∀ args, args.head?.bind accept = none →
      accumulate accept op initial args = (args.filterMap accept).foldl op initial) ∧
    (∀ args more, args ≠ [] →
      accumulate accept op initial (args ++ more) =
        (more.filterMap accept).foldl op (accumulate accept op initial args)) ∧
    ∀ (function : Builtin) (fresh : Nat) (folding : Folding),
      function.folding? fresh = some folding →
        (∀ args, function.result fresh args = .ok (folding.run args)) ∧
        ∀ first before ignored behind, (∀ arg ∈ ignored, folding.accepts arg = false) →
          function.result fresh (first :: (before ++ ignored ++ behind)) =
            function.result fresh (first :: (before ++ behind)) := by
  refine ⟨accumulate_eq_pass, fun first x rest hfirst => accumulate_of_accepted hfirst rest,
    fun args hfirst => accumulate_of_not_accepted hfirst,
    fun args more hargs => accumulate_append hargs more,
    fun function fresh folding hfolding => ⟨result_of_folding? hfolding, ?_⟩⟩
  intro first before ignored behind hignored
  rw [result_of_folding? hfolding, result_of_folding? hfolding,
    folding.run_of_ignored hignored first before behind]

/-- A truth value stands first, so the numbers are taken from zero, and what is no number behind it
may go. Where the infinity stands first, the fold starts from it. -/
theorem arguments_are_folded_mixed :
    let ignored : List Value := [.list [], .set [.number (.zero false)]]
    let infinity := Value.number (.infinite false)
    let zero := Value.number (.zero true)
    sub.folding? 1 = some (.numbers (Double.sub 1)) ∧
      (∀ arg ∈ ignored, arg.number?.isSome = false) ∧
      sub.result 1 (.boolean true :: ([infinity] ++ ignored ++ [zero])) =
        .ok (.number (.infinite true)) ∧
      sub.result 1 (infinity :: ([] ++ ignored ++ [zero])) = .ok infinity := by
  intro ignored infinity zero
  have hfolding : sub.folding? 1 = some (.numbers (Double.sub 1)) := rfl
  have hignored : ∀ arg ∈ ignored, arg.number?.isSome = false :=
    List.forall_mem_cons.mpr ⟨rfl, List.forall_mem_singleton.mpr rfl⟩
  have hfrom : Double.sub 1 (.zero false) (.infinite false) = .infinite true := by decide +kernel
  have hmore : Double.sub 1 (.infinite true) (.zero true) = .infinite true := by decide +kernel
  have hless : Double.sub 1 (.infinite false) (.zero true) = .infinite false := by decide +kernel
  obtain ⟨-, haccepted, hnone, -, hbuiltins⟩ :=
    arguments_are_folded Value.number? (Double.sub 1) (.zero false)
  obtain ⟨hresult, hsame⟩ := hbuiltins sub 1 _ hfolding
  have hnumbers : [Value.boolean true, infinity, zero].filterMap Value.number? =
      [.infinite false, .zero true] := rfl
  have hbehind : [zero].filterMap Value.number? = [.zero true] := rfl
  refine ⟨hfolding, hignored, ?_, ?_⟩
  · rw [hsame _ _ _ _ hignored, hresult, Folding.run, hnone _ rfl, List.singleton_append, hnumbers,
      List.foldl_cons, hfrom, List.foldl_cons, hmore, List.foldl_nil]
  · rw [hsame _ _ _ _ hignored, hresult, Folding.run, haccepted _ _ _ rfl, List.nil_append, hbehind,
      List.foldl_cons, hless, List.foldl_nil]

end SetLisp.Builtin
