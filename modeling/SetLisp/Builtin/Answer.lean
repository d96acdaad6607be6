import SetLisp.Builtin.Result
import SetLisp.Halt

namespace SetLisp.Builtin

/-- The only argument of `function`, which must be a list. -/
def soleList (function : Builtin) (args : List Value) : Except Halt (List Value) := do
  if args.length ≠ 1 then throw (.error (.argumentCount function .one))
  match ← Parts.item args 0 with
  | .list items => return items
  | _ => throw (.error (.argumentKind function .list))

/-- What a builtin does with its arguments, with `fresh` as the payload of a new result that is not
a number. The builtins that fold over their arguments take nothing apart. -/
def answer (fresh : Nat) (function : Builtin) (args : List Value) : Except Halt Value :=
  match function with
  | not => do
      if args.isEmpty then throw (.error (.argumentCount not .some))
      match ← Parts.item args 0 with
      | .boolean value => return .boolean !value
      | _ => throw (.error (.argumentKind not .boolean))
  | head => do
      let items ← soleList head args
      if items.isEmpty then throw (.error .emptyHead)
      Parts.item items 0
  | tail => do
      let items ← soleList tail args
      return .list items.tail
  | cons => do
      if args.length ≠ 2 then throw (.error (.argumentCount cons .two))
      match ← Parts.pair args with
      | (first, .list rest) => return .list (first :: rest)
      | (first, _) => return .list [first]
  | inter => do
      let sets ← (someSets inter args).mapError Halt.error
      let first ← Parts.item sets 0
      return .set (sets.tail.foldl Members.inter first)
  | print => do
      if args.length ≠ 1 then throw (.error (.argumentCount print .one))
      Parts.item args 0
  | function => (function.result fresh args).mapError Halt.error

/-- The answer to arguments that come as one value; what is no list holds no arguments. -/
def answerOfAll (fresh : Nat) (function : Builtin) : Value → Except Halt Value
  | .list args => function.answer fresh args
  | _ => .error (.error (.argumentKind function .listArgument))

theorem soleList_eq (function : Builtin) (args : List Value) :
    soleList function args = (onlyList function args).mapError Halt.error := by
  match args with
  | [] => rfl
  | first :: second :: rest =>
      have hlength : (first :: second :: rest).length ≠ 1 := by simp
      rw [soleList, if_pos hlength, onlyList]
      · rfl
      · simp
      · simp
  | [.list items] => rfl
  | [.boolean _] | [.number _] | [.symbol _] | [.set _] | [.builtin _] | [.lambda ..]
  | [.foreign ..] => rfl

theorem ne_nil_of_someSets {function : Builtin} {args : List Value} {sets : List Members}
    (h : someSets function args = .ok sets) : sets ≠ [] := by
  rintro rfl
  rcases args with _ | ⟨arg, rest⟩
  · cases h
  · change allSets function (arg :: rest) = .ok [] at h
    rw [allSets.eq_def] at h
    cases arg with
    | set members =>
        dsimp only at h
        cases hrest : allSets function rest <;> rw [hrest] at h <;> cases h
    | _ => cases h

/-- **No builtin faults.** What a builtin does comes to its result, whatever it is given. -/
theorem answer_eq (fresh : Nat) (function : Builtin) (args : List Value) :
    function.answer fresh args = (function.result fresh args).mapError Halt.error := by
  cases function with
  | not =>
      match args with
      | [] => rfl
      | .boolean _ :: _ | .number _ :: _ | .symbol _ :: _ | .list _ :: _ | .set _ :: _
      | .builtin _ :: _ | .lambda .. :: _ | .foreign .. :: _ => rfl
  | head =>
      rw [answer, soleList_eq, result]
      rcases onlyList head args with error | _ | ⟨item, items⟩ <;> rfl
  | tail =>
      rw [answer, soleList_eq, result]
      cases onlyList tail args <;> rfl
  | cons =>
      match args with
      | [] | [_] => rfl
      | first :: second :: third :: rest =>
          have hlength : (first :: second :: third :: rest).length ≠ 2 := by simp
          rw [answer, if_pos hlength, result, construct]
          · rfl
          · simp
          · simp
      | [_, .list _] => rfl
      | [_, .boolean _] | [_, .number _] | [_, .symbol _] | [_, .set _] | [_, .builtin _]
      | [_, .lambda ..] | [_, .foreign ..] => rfl
  | inter =>
      rw [answer, result]
      cases hsets : someSets inter args with
      | error error => rfl
      | ok sets =>
          obtain ⟨first, rest, rfl⟩ := List.exists_cons_of_ne_nil (ne_nil_of_someSets hsets)
          rfl
  | print =>
      match args with
      | [] | [_] => rfl
      | first :: second :: rest =>
          have hlength : (first :: second :: rest).length ≠ 1 := by simp
          rw [answer, if_pos hlength]
          rfl
  | _ => simp only [answer]

theorem answerOfAll_eq (fresh : Nat) (function : Builtin) (args : Value) :
    function.answerOfAll fresh args = (function.resultOfAll fresh args).mapError Halt.error := by
  cases args with
  | list args => exact answer_eq fresh function args
  | _ => rfl

end SetLisp.Builtin
