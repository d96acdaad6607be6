import SetLisp.Proofs.Eval.CallOrder

namespace SetLisp

open Eval

/-- Evaluates the lists in turn for what they do, and then the rest of the form. -/
def evaluateInSequence (room : Nat) (heads : List (List Value)) (rest : List Value) :
    Eval Value := do
  let _ ← evaluateEach (evaluate room) (heads.map .list)
  evaluate room (.list rest)

section Rooms

variable {room more : Nat} {head rest : List Value} {heads : List (List Value)}

theorem evaluateInSequence_nil : evaluateInSequence room [] rest = evaluate room (.list rest) :=
  pure_bind _ _

theorem evaluateInSequence_cons :
    evaluateInSequence room (head :: heads) rest =
      evaluate room (.list head) >>= fun _ => evaluateInSequence room heads rest := by
  rw [evaluateInSequence, List.map_cons, evaluateEach, bind_assoc]
  refine congrArg _ (funext fun value => ?_)
  rw [bind_assoc, evaluateInSequence]
  exact congrArg _ (funext fun values => pure_bind _ _)

/-- The room that is enough for the form is enough for the sequence. -/
theorem truncates_evaluateInSequence (hle : room ≤ more) :
    Truncates (evaluate room (.list (heads.map .list ++ rest)))
      (evaluateInSequence more heads rest) := by
  induction heads generalizing room with
  | nil =>
      rw [evaluateInSequence_nil]
      exact truncates_evaluate hle _
  | cons head heads ih =>
      rw [evaluateInSequence_cons]
      cases room with
      | zero =>
          have hself := (truncates_evaluate (Nat.le_refl more) (.list head)).bind fun _ =>
            ih (Nat.zero_le more)
          exact .exhausted hself.growsTo_second
      | succ room =>
          have hle : room ≤ more := Nat.le_of_succ_le hle
          exact (truncates_evaluate hle (.list head)).bind fun _ => ih hle

/-- With one level of room more for each list at the head, the form goes as far as the sequence. -/
theorem truncates_evaluate_heads (hle : room + heads.length ≤ more) :
    Truncates (evaluateInSequence room heads rest)
      (evaluate more (.list (heads.map .list ++ rest))) := by
  induction heads generalizing more with
  | nil =>
      rw [evaluateInSequence_nil]
      exact truncates_evaluate hle _
  | cons head heads ih =>
      rw [List.length_cons] at hle
      obtain ⟨more, rfl⟩ : ∃ level, more = level + 1 := ⟨more - 1, by omega⟩
      rw [evaluateInSequence_cons]
      exact (truncates_evaluate (by omega) (.list head)).bind fun _ => ih (by omega)

end Rooms

/-- Where there is room enough, the action that may be cut short ends as the other one does. -/
theorem Eval.Truncates.outcome_eq {α : Type} {first second : Eval α} (h : Truncates first second)
    {machine : Machine} (hroom : (first.outcome machine).1 ≠ .error .exhausted) :
    second.outcome machine = first.outcome machine :=
  ((h.same_or_cut machine).resolve_right fun hcut => hroom hcut.1).symm

section Lists

variable {room : Nat} {heads : List (List Value)} {machine after : Machine}

theorem outcome_evaluateInSequence_of_inTurn {values : List Value}
    (h : InTurn (evaluate room) machine (heads.map .list) values after) (rest : List Value) :
    (evaluateInSequence room heads rest).outcome machine =
      (evaluate room (.list rest)).outcome after := by
  rw [evaluateInSequence, outcome_bind, outcome_evaluateEach_of_inTurn h]

theorem outcome_evaluateInSequence_of_halts {halt : Halt}
    (h : HaltsInTurn (evaluate room) machine (heads.map .list) halt after) (rest : List Value) :
    (evaluateInSequence room heads rest).outcome machine = (.error halt, after) := by
  obtain ⟨before, failing, behind, values, middle, hheads, hbefore, hfailing⟩ := h
  rw [evaluateInSequence, hheads, outcome_bind,
    outcome_evaluateEach_of_halt hbefore hfailing behind]

/-- The form of nothing but lists reaches the empty form or the first list that halts. -/
theorem outcome_evaluate_lists (room : Nat) (heads : List (List Value)) (machine : Machine) :
    let outcome := (evaluate room (.list (heads.map .list))).outcome machine
    outcome.1 = .error .exhausted ∨
      (outcome.1 = .error (.error .emptyForm) ∧
        ∃ values, InTurn (evaluate room) machine (heads.map .list) values outcome.2) ∨
      ∃ halt, outcome.1 = .error halt ∧
        HaltsInTurn (evaluate room) machine (heads.map .list) halt outcome.2 := by
  intro outcome
  by_cases hroom : outcome.1 = .error .exhausted
  · exact .inl hroom
  · right
    have hsame : (evaluateInSequence room heads []).outcome machine = outcome := by
      have htruncates := @truncates_evaluateInSequence room room [] heads (Nat.le_refl room)
      rw [List.append_nil] at htruncates
      exact htruncates.outcome_eq hroom
    rcases inTurn_or_haltsInTurn (evaluate room) machine (heads.map .list) with
      ⟨values, after, hturn⟩ | ⟨halt, after, hhalts⟩
    · rw [outcome_evaluateInSequence_of_inTurn hturn] at hsame
      cases room with
      | zero => exact absurd (congrArg Prod.fst hsame.symm) hroom
      | succ room =>
          have hempty : outcome = (.error (.error .emptyForm), after) := hsame.symm
          rw [hempty]
          exact .inl ⟨rfl, values, hturn⟩
    · rw [outcome_evaluateInSequence_of_halts hhalts] at hsame
      rw [← hsame]
      exact .inr ⟨halt, rfl, hhalts⟩

/-- Lists that all have values leave the empty form. -/
theorem outcome_evaluate_lists_of_inTurn {values : List Value}
    (h : InTurn (evaluate room) machine (heads.map .list) values after) :
    (evaluate (room + 1 + heads.length) (.list (heads.map .list))).outcome machine =
      (.error (.error .emptyForm), after) := by
  -- One level more is room for the empty form too, and changes no value.
  have heach : (evaluateEach (evaluate (room + 1)) (heads.map .list)).outcome machine =
      (.ok values, after) := by
    have hvalues := outcome_evaluateEach_of_inTurn h
    have htruncates :=
      truncates_evaluateEach (truncates_evaluate (Nat.le_succ room)) (heads.map .list)
    rw [htruncates.outcome_eq (by rw [hvalues]; nofun), hvalues]
  have hsequence : (evaluateInSequence (room + 1) heads []).outcome machine =
      (.error (.error .emptyForm), after) := by
    rw [evaluateInSequence, outcome_bind, heach]
    rfl
  have htruncates := @truncates_evaluate_heads (room + 1) _ [] heads (Nat.le_refl _)
  rw [List.append_nil] at htruncates
  rw [htruncates.outcome_eq (by rw [hsequence]; nofun), hsequence]

/-- The first list that halts ends the form. -/
theorem outcome_evaluate_lists_of_halts {halt : Halt}
    (h : HaltsInTurn (evaluate room) machine (heads.map .list) halt after)
    (hhalt : halt ≠ .exhausted) :
    (evaluate (room + heads.length) (.list (heads.map .list))).outcome machine =
      (.error halt, after) := by
  have hsequence := outcome_evaluateInSequence_of_halts h []
  have htruncates := @truncates_evaluate_heads room _ [] heads (Nat.le_refl _)
  rw [List.append_nil] at htruncates
  refine (htruncates.outcome_eq ?_).trans hsequence
  rw [hsequence]
  exact fun hexhausted => hhalt (Except.error.inj hexhausted)

end Lists

/-- **Lists at the head are a sequence.** Unless it runs out of room, a form that begins with lists
ends as the sequence does, with the same value or error on the same machine; and unless the sequence
runs out of room, so does the form with one level more for each list. A form of nothing but lists
has no value: it halts with the first list that halts, or as the empty form when all of them have
done what they do. -/
theorem list_heads_are_a_sequence (heads : List (List Value)) (rest : List Value) (room : Nat)
    (machine : Machine) :
    let form (room : Nat) := (evaluate room (.list (heads.map .list ++ rest))).outcome machine
    let sequence := (evaluateInSequence room heads rest).outcome machine
    let lists (room : Nat) := (evaluate room (.list (heads.map .list))).outcome machine
    ((form room).1 ≠ .error .exhausted → sequence = form room) ∧
    (sequence.1 ≠ .error .exhausted → form (room + heads.length) = sequence) ∧
    (∀ value, (lists room).1 ≠ .ok value) ∧
    ((lists room).1 = .error .exhausted ∨
      ((lists room).1 = .error (.error .emptyForm) ∧
        ∃ values, InTurn (evaluate room) machine (heads.map .list) values (lists room).2) ∨
      ∃ halt, (lists room).1 = .error halt ∧
        HaltsInTurn (evaluate room) machine (heads.map .list) halt (lists room).2) ∧
    (∀ values after, InTurn (evaluate room) machine (heads.map .list) values after →
      lists (room + 1 + heads.length) = (.error (.error .emptyForm), after)) ∧
    ∀ halt after, HaltsInTurn (evaluate room) machine (heads.map .list) halt after →
      halt ≠ .exhausted → lists (room + heads.length) = (.error halt, after) := by
  intro form sequence lists
  have hlists := outcome_evaluate_lists room heads machine
  refine ⟨(truncates_evaluateInSequence (Nat.le_refl room)).outcome_eq,
    (truncates_evaluate_heads (Nat.le_refl _)).outcome_eq, fun value hvalue => ?_, hlists,
    fun values after => outcome_evaluate_lists_of_inTurn,
    fun halt after => outcome_evaluate_lists_of_halts⟩
  rcases hlists with hexhausted | ⟨hempty, -⟩ | ⟨halt, hhalt, -⟩
  · cases hvalue.symm.trans hexhausted
  · cases hvalue.symm.trans hempty
  · cases hvalue.symm.trans hhalt

/-- A special form surfaces behind a list, and sees what the list has bound. Two lists with values
leave the empty form, and a call of what is unbound ends the form in front of the second list. -/
theorem list_heads_are_a_sequence_defining :
    let machine : Machine := { chain := { own := [] } }
    let first := [.symbol "define", .symbol "x", .boolean true]
    let second := [.symbol "define", .symbol "y", .symbol "x"]
    let unbound := [.symbol "z"]
    let bound := machine.define "x" (.boolean true)
    (evaluate 3 (.list (.list first :: second))).outcome machine =
        (.ok (.boolean true), bound.define "y" (.boolean true)) ∧
      (evaluate 5 (.list [.list first, .list second])).outcome machine =
        (.error (.error .emptyForm), bound.define "y" (.boolean true)) ∧
      (evaluate 5 (.list [.list first, .list unbound, .list second])).outcome machine =
        (.error (.error (.notInScope "z")), bound) := by
  intro machine first second unbound bound
  obtain ⟨-, hform, -⟩ := list_heads_are_a_sequence [first] second 2 machine
  obtain ⟨-, -, -, -, hempty, -⟩ := list_heads_are_a_sequence [first, second] [] 2 machine
  obtain ⟨-, -, -, -, -, hhalts⟩ :=
    list_heads_are_a_sequence [first, unbound, second] [] 2 machine
  have hsequence : (evaluateInSequence 2 [first] second).outcome machine =
      (.ok (.boolean true), bound.define "y" (.boolean true)) := rfl
  refine ⟨(hform (by rw [hsequence]; nofun)).trans hsequence, ?_, ?_⟩
  · exact hempty _ _ (.cons rfl (.cons rfl .nil))
  · exact hhalts (.error (.notInScope "z")) bound
      ⟨[.list first], .list unbound, [.list second], _, bound, rfl, .cons rfl .nil, rfl⟩ nofun

end SetLisp
