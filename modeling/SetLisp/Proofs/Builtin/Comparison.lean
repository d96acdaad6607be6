import SetLisp.Builtin.Result

namespace SetLisp.Builtin

/-- The relation a comparing builtin puts between two numbers. -/
def relation? : Builtin → Option (Double → Double → Bool)
  | equal => some Double.equal
  | less => some Double.less
  | greater => some fun x y => y.less x
  | lessOrEqual => some Double.lessOrEqual
  | greaterOrEqual => some fun x y => y.lessOrEqual x
  | _ => none

variable {function : Builtin} {relation : Double → Double → Bool}

theorem result_of_relation? (h : function.relation? = some relation) (fresh : Nat)
    (args : List Value) :
    function.result fresh args = .ok (.boolean (compareAdjacent relation args)) := by
  cases function <;> cases h <;> rfl

theorem foldl_compare_concat (start : Double × Bool) (before : List Double) (last : Double) :
    (before ++ [last]).foldl (fun state next => (next, relation state.1 next)) start =
      (last, relation (before.foldl (fun state next => (next, relation state.1 next)) start).1
        last) := by
  rw [List.foldl_append]
  rfl

/-- With what stands for the first argument in front, the last two numbers decide. -/
theorem compareAdjacent_of_seed {first : Value} {rest : List Value} (before : List Double)
    {previous last : Double}
    (h : seed Value.number? (.zero false) first :: rest.filterMap Value.number? =
      before ++ [previous, last]) :
    compareAdjacent relation (first :: rest) = relation previous last := by
  rw [compareAdjacent]
  cases before with
  | nil =>
      obtain ⟨hfirst, hrest⟩ := List.cons.inj h
      rw [hfirst, hrest]
      rfl
  | cons _ before =>
      rw [List.cons_append] at h
      obtain ⟨-, hrest⟩ := List.cons.inj h
      rw [hrest, List.append_cons, foldl_compare_concat, foldl_compare_concat]

section

variable {args : List Value}

theorem compareAdjacent_of_last_pair {before : List Double} {previous last : Double}
    (h : args.filterMap Value.number? = before ++ [previous, last]) :
    compareAdjacent relation args = relation previous last := by
  cases args with
  | nil => simp at h
  | cons first rest =>
      cases hfirst : first.number? with
      | some x =>
          refine compareAdjacent_of_seed before ?_
          rwa [seed, hfirst, Option.getD_some, ← List.filterMap_cons_some hfirst]
      | none =>
          refine compareAdjacent_of_seed (.zero false :: before) ?_
          rw [seed, hfirst, Option.getD_none, ← List.filterMap_cons_none hfirst, h,
            List.cons_append]

theorem compareAdjacent_of_no_number (h : args.filterMap Value.number? = []) :
    compareAdjacent relation args = false := by
  cases args with
  | nil => rfl
  | cons first rest =>
      rw [List.filterMap_eq_nil_iff] at h
      have hrest : rest.filterMap Value.number? = [] :=
        List.filterMap_eq_nil_iff.mpr fun value hvalue =>
          h value (List.mem_cons_of_mem first hvalue)
      rw [compareAdjacent, hrest]
      rfl

/-- A number on its own is compared with zero, unless it is the first argument. -/
theorem compareAdjacent_of_one_number {only : Double}
    (h : args.filterMap Value.number? = [only]) :
    compareAdjacent relation args =
      ((args.head?.bind Value.number?).isNone && relation (.zero false) only) := by
  cases args with
  | nil => cases h
  | cons first rest =>
      rw [List.head?_cons, Option.bind_some]
      cases hfirst : first.number? with
      | some x =>
          rw [List.filterMap_cons_some hfirst] at h
          obtain ⟨-, hrest⟩ := List.cons.inj h
          rw [compareAdjacent, hrest]
          rfl
      | none =>
          rw [Option.isNone_none, Bool.true_and]
          refine compareAdjacent_of_seed [] ?_
          rw [seed, hfirst, Option.getD_none, ← List.filterMap_cons_none hfirst, h, List.nil_append]

end

/-- **The last pair decides.** With two numbers or more among the arguments the answer is the
relation between the last two, and without a number it is false. So it is with one number, except
that this is compared with zero where an argument of another kind stands first. -/
theorem comparison_follows_last_pair (h : function.relation? = some relation) (fresh : Nat)
    (args : List Value) :
    (∀ before previous last, args.filterMap Value.number? = before ++ [previous, last] →
      function.result fresh args = .ok (.boolean (relation previous last))) ∧
    (args.filterMap Value.number? = [] → function.result fresh args = .ok (.boolean false)) ∧
    ∀ only, args.filterMap Value.number? = [only] →
      function.result fresh args =
        .ok (.boolean ((args.head?.bind Value.number?).isNone && relation (.zero false) only)) := by
  rw [result_of_relation? h]
  refine ⟨fun before previous last hpair => ?_, fun hnone => ?_, fun only hone => ?_⟩
  · rw [compareAdjacent_of_last_pair hpair]
  · rw [compareAdjacent_of_no_number hnone]
  · rw [compareAdjacent_of_one_number hone]

/-- Three numbers with arguments of other kinds around them: the first two descend, but the last two
do not. -/
theorem comparison_follows_last_pair_mixed :
    let args : List Value := [.list [], .number (.infinite false), .boolean true,
      .number (.infinite true), .set [], .number (.infinite false), .boolean false]
    greater.relation? = some (fun x y => y.less x) ∧
      args.filterMap Value.number? = [.infinite false] ++ [.infinite true, .infinite false] ∧
      greater.result 1 args = .ok (.boolean false) := by
  intro args
  have hrelation : greater.relation? = some (fun x y => y.less x) := rfl
  have hnumbers : args.filterMap Value.number? =
      [.infinite false] ++ [.infinite true, .infinite false] := rfl
  have hascends : Double.less (.infinite false) (.infinite true) = false := by decide +kernel
  have hanswer := (comparison_follows_last_pair hrelation 1 args).1 _ _ _ hnumbers
  rw [hascends] at hanswer
  exact ⟨hrelation, hnumbers, hanswer⟩

/-- One number is no pair, but a truth value in front of a zero makes it equal to something. -/
theorem comparison_of_one_number :
    ¬ ∀ (function : Builtin) (relation : Double → Double → Bool),
      function.relation? = some relation → ∀ (fresh : Nat) (args : List Value),
        (∀ before previous last, args.filterMap Value.number? = before ++ [previous, last] →
          function.result fresh args = .ok (.boolean (relation previous last))) ∧
        ((args.filterMap Value.number?).length < 2 →
          function.result fresh args = .ok (.boolean false)) := by
  intro hall
  have hone : [Value.boolean true, .number (.zero false)].filterMap Value.number? =
      [.zero false] := rfl
  have hfalse := (hall equal Double.equal rfl 1 [.boolean true, .number (.zero false)]).2
    (by rw [hone]; decide)
  have hequal : Double.equal (.zero false) (.zero false) = true := by decide +kernel
  rw [result_of_relation? rfl, compareAdjacent_of_one_number hone, hequal] at hfalse
  cases hfalse

end SetLisp.Builtin
