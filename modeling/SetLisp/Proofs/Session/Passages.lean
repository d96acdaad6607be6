import SetLisp.Proofs.Eval.LogBlind
import SetLisp.Session

namespace SetLisp

open Eval

structure Passage where
  printed : String
  values : List Value
  drawn : Nat

/-- The values as a run shows them, a line each. -/
def shownValues (values : List Value) : String :=
  String.join (values.map fun value => value.text ++ "\n")

theorem join_texts (values : List Value) :
    String.join ((values.map Value.text).map (· ++ "\n")) = shownValues values := by
  rw [List.map_map]
  rfl

namespace Passage

/-- The passage as a run shows it: the text that is printed, then the values. -/
def shown (passage : Passage) : String :=
  passage.printed ++ shownValues passage.values

/-- The evaluation of the group ends with values, and this is what comes of it. -/
structure Tells (passage : Passage) (room : Nat) (machine : Machine) (group : List Value)
    (after : Machine) : Prop where
  outcome_eq : (evaluateAll room group).outcome machine = (.ok passage.values, after)
  output_eq : after.output = machine.output ++ passage.printed
  next_eq : after.next = machine.next + passage.drawn

end Passage

/-- The groups are evaluated one after the other and leave the passages. -/
inductive Passes (room : Nat) : Machine → List (List Value) → List Passage → Machine → Prop
  | nil {machine : Machine} : Passes room machine [] [] machine
  | cons {machine middle after : Machine} {group : List Value} {groups : List (List Value)}
      {passage : Passage} {passages : List Passage}
      (hgroup : passage.Tells room machine group middle)
      (hrest : Passes room middle groups passages after) :
      Passes room machine (group :: groups) (passage :: passages) after

/-- The groups before one leave the passages; that one halts, after it has printed a text. -/
def HaltsAfter (room : Nat) (machine : Machine) (groups : List (List Value))
    (passages : List Passage) (printed : String) (halt : Halt) (after : Machine) : Prop :=
  ∃ before group behind middle, groups = before ++ group :: behind ∧
    Passes room machine before passages middle ∧
    (evaluateAll room group).outcome middle = (.error halt, after) ∧
    after.output = middle.output ++ printed

variable {room : Nat} {machine middle after after' : Machine} {group : List Value}
  {groups : List (List Value)} {passages passages' : List Passage}

/-- What one evaluation does to a machine, whatever the machine keeps a record of. -/
theorem exists_drawn {result : Except Halt (List Value)}
    (h : (evaluateAll room group).outcome machine = (result, after)) :
    after.level = machine.level ∧ after.errors = machine.errors ∧
      ∃ printed drawn, after.output = machine.output ++ printed ∧
        after.next = machine.next + drawn := by
  have hdone := (ignoresLog_evaluateAll room group).outcome machine
  rwa [h] at hdone

/-- What one evaluation does to a machine that keeps no record of it. -/
theorem exists_printed {result : Except Halt (List Value)}
    (hquiet : machine.level.admits .debug = false)
    (h : (evaluateAll room group).outcome machine = (result, after)) :
    after.level.admits .debug = false ∧ after.errors = machine.errors ∧
      ∃ printed drawn, after.output = machine.output ++ printed ∧
        after.next = machine.next + drawn := by
  obtain ⟨hlevel, hdone⟩ := exists_drawn h
  exact ⟨hlevel ▸ hquiet, hdone⟩

theorem exists_tells {values : List Value} (hquiet : machine.level.admits .debug = false)
    (h : (evaluateAll room group).outcome machine = (.ok values, after)) :
    ∃ passage : Passage, passage.values = values ∧ passage.Tells room machine group after := by
  obtain ⟨-, -, printed, drawn, hprinted, hdrawn⟩ := exists_printed hquiet h
  exact ⟨⟨printed, values, drawn⟩, rfl, h, hprinted, hdrawn⟩

theorem Passage.Tells.quiet {passage : Passage} (h : passage.Tells room machine group after)
    (hquiet : machine.level.admits .debug = false) : after.level.admits .debug = false :=
  (exists_printed hquiet h.outcome_eq).1

theorem Passage.Tells.unique {passage passage' : Passage}
    (h : passage.Tells room machine group after) (h' : passage'.Tells room machine group after') :
    passage = passage' ∧ after = after' := by
  obtain ⟨printed, values, drawn⟩ := passage
  obtain ⟨printed', values', drawn'⟩ := passage'
  obtain ⟨hvalues, rfl⟩ := Prod.mk.inj (h.outcome_eq.symm.trans h'.outcome_eq)
  obtain rfl : values = values' := Except.ok.inj hvalues
  obtain rfl : printed = printed' :=
    (String.append_right_inj _).mp (h.output_eq.symm.trans h'.output_eq)
  obtain rfl : drawn = drawn' := Nat.add_left_cancel (h.next_eq.symm.trans h'.next_eq)
  exact ⟨rfl, rfl⟩

theorem evaluateEach_append (evaluate : Value → Eval Value) (first second : List Value) :
    evaluateEach evaluate (first ++ second) = do
      let values ← evaluateEach evaluate first
      let others ← evaluateEach evaluate second
      return values ++ others := by
  induction first with
  | nil => simp [evaluateEach]
  | cons expr rest ih => simp [evaluateEach, ih]

/-- An evaluation that ends with values passes through every group. -/
theorem exists_passes {values : List Value} (hquiet : machine.level.admits .debug = false)
    (h : (evaluateAll room groups.flatten).outcome machine = (.ok values, after)) :
    ∃ passages, Passes room machine groups passages after ∧
      values = passages.flatMap Passage.values := by
  induction groups generalizing machine values with
  | nil =>
      cases h
      exact ⟨[], .nil, rfl⟩
  | cons group rest ih =>
      rw [List.flatten_cons, evaluateAll, evaluateEach_append] at h
      obtain ⟨first, middle, hgroup, hothers⟩ := outcome_bind_eq_ok.mp h
      obtain ⟨others, last, hrest, hpure⟩ := outcome_bind_eq_ok.mp hothers
      cases hpure
      obtain ⟨passage, rfl, htells⟩ := exists_tells hquiet hgroup
      obtain ⟨passages, hpasses, rfl⟩ := ih (htells.quiet hquiet) hrest
      exact ⟨passage :: passages, .cons htells hpasses, rfl⟩

/-- An evaluation that halts passes through the groups before the one it halts in. -/
theorem exists_haltsAfter {halt : Halt} (hquiet : machine.level.admits .debug = false)
    (h : (evaluateAll room groups.flatten).outcome machine = (.error halt, after)) :
    ∃ passages printed, HaltsAfter room machine groups passages printed halt after := by
  induction groups generalizing machine with
  | nil => cases h
  | cons group rest ih =>
      rw [List.flatten_cons, evaluateAll, evaluateEach_append, ← evaluateAll, ← evaluateAll,
        outcome_bind] at h
      rcases hgroup : (evaluateAll room group).outcome machine with ⟨halt' | first, middle⟩
      · rw [hgroup] at h
        cases h
        obtain ⟨-, -, printed, drawn, hprinted, -⟩ := exists_printed hquiet hgroup
        exact ⟨[], printed, [], group, rest, machine, rfl, .nil, hgroup, hprinted⟩
      · obtain ⟨passage, rfl, htells⟩ := exists_tells hquiet hgroup
        rw [hgroup] at h
        dsimp only at h
        rw [outcome_bind] at h
        rcases hrest : (evaluateAll room rest.flatten).outcome middle with ⟨halt' | others, last⟩
        · rw [hrest] at h
          cases h
          obtain ⟨passages, printed, before, failing, behind, reached, rfl, hpasses, hfailing⟩ :=
            ih (htells.quiet hquiet) hrest
          exact ⟨passage :: passages, printed, group :: before, failing, behind, reached, rfl,
            .cons htells hpasses, hfailing⟩
        · rw [hrest] at h
          cases h

namespace Passes

theorem quiet (h : Passes room machine groups passages after)
    (hquiet : machine.level.admits .debug = false) : after.level.admits .debug = false := by
  induction h with
  | nil => exact hquiet
  | cons hgroup _ ih => exact ih (hgroup.quiet hquiet)

theorem length_eq (h : Passes room machine groups passages after) :
    passages.length = groups.length := by
  induction h with
  | nil => rfl
  | cons _ _ ih => rw [List.length_cons, ih, List.length_cons]

theorem unique (h : Passes room machine groups passages after)
    (h' : Passes room machine groups passages' after') : passages = passages' ∧ after = after' := by
  induction h generalizing passages' with
  | nil =>
      cases h'
      exact ⟨rfl, rfl⟩
  | cons hgroup _ ih =>
      cases h' with
      | cons hgroup' hrest' =>
          obtain ⟨rfl, rfl⟩ := hgroup.unique hgroup'
          obtain ⟨rfl, rfl⟩ := ih hrest'
          exact ⟨rfl, rfl⟩

end Passes

/-- An evaluation halts in one group and in one way. -/
theorem HaltsAfter.unique {printed printed' : String} {halt halt' : Halt}
    (h : HaltsAfter room machine groups passages printed halt after)
    (h' : HaltsAfter room machine groups passages' printed' halt' after') :
    passages = passages' ∧ printed = printed' ∧ halt = halt' ∧ after = after' := by
  obtain ⟨before, group, behind, middle, rfl, hpasses, hgroup, hprinted⟩ := h
  obtain ⟨before', group', behind', middle', hsplit, hpasses', hgroup', hprinted'⟩ := h'
  induction before generalizing machine passages passages' before' with
  | nil =>
      cases hpasses
      cases hpasses' with
      | nil =>
          obtain ⟨rfl, -⟩ := List.cons.inj hsplit
          obtain ⟨hhalt, rfl⟩ := Prod.mk.inj (hgroup.symm.trans hgroup')
          exact ⟨rfl, (String.append_right_inj _).mp (hprinted.symm.trans hprinted'),
            Except.error.inj hhalt, rfl⟩
      | cons hpassed =>
          obtain ⟨rfl, -⟩ := List.cons.inj hsplit
          cases hgroup.symm.trans hpassed.outcome_eq
  | cons first before ih =>
      cases hpasses with
      | cons hfirst hrest =>
          cases hpasses' with
          | nil =>
              obtain ⟨rfl, -⟩ := List.cons.inj hsplit
              cases hgroup'.symm.trans hfirst.outcome_eq
          | cons hfirst' hrest' =>
              obtain ⟨rfl, hothers⟩ := List.cons.inj hsplit
              obtain ⟨rfl, rfl⟩ := hfirst.unique hfirst'
              obtain ⟨rfl, hsame⟩ := ih hrest _ hothers hrest'
              exact ⟨rfl, hsame⟩

end SetLisp
