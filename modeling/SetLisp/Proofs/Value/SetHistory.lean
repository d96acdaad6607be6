import SetLisp.Parser
import SetLisp.Proofs.Value.Store

namespace SetLisp

open Value (Firsts classes)

namespace SetStep

/-- The sets a step speaks of. -/
def sets : SetStep → List Nat
  | make items => Item.setsOfItems items
  | add object item => object :: item.sets
  | union first second => [first, second]
  | inter first second => [first, second]

def Known (store : Store) (step : SetStep) : Prop :=
  ∀ object ∈ step.sets, object < store.length

/-- The step puts no new member into a set that is in a member of a set, be it the new one. -/
def Unshared (store : Store) : SetStep → Prop
  | add object item => store.has object item = true ∨ object ∉ item.sets ∧ ¬ store.Holds object
  | _ => True

/-- Each of the steps is as demanded where it is taken. -/
def Each (demand : Store → SetStep → Prop) : Store → List SetStep → Prop
  | _, [] => True
  | store, step :: rest => demand store step ∧ Each demand (store.step step) rest

instance {store : Store} {object : Nat} : Decidable (store.Holds object) :=
  inferInstanceAs (Decidable (∃ table ∈ store, ∃ slot ∈ table, object ∈ slot.item.sets))

instance {store : Store} {step : SetStep} : Decidable (step.Known store) :=
  inferInstanceAs (Decidable (∀ object ∈ step.sets, object < store.length))

instance {store : Store} : (step : SetStep) → Decidable (step.Unshared store)
  | add object item => inferInstanceAs
      (Decidable (store.has object item = true ∨ object ∉ item.sets ∧ ¬ store.Holds object))
  | make _ => isTrue trivial
  | union .. => isTrue trivial
  | inter .. => isTrue trivial

instance Each.decidable {demand : Store → SetStep → Prop}
    [∀ store step, Decidable (demand store step)] :
    (store : Store) → (steps : List SetStep) → Decidable (Each demand store steps)
  | _, [] => isTrue trivial
  | store, step :: rest =>
      have : Decidable (Each demand (store.step step) rest) := Each.decidable _ rest
      inferInstanceAs (Decidable (demand store step ∧ Each demand (store.step step) rest))

end SetStep

/-- A store with the values that were put into each set, as they were then. -/
structure SetTrace where
  store : Store := []
  put : Nat → List Value := fun _ => []

namespace SetTrace

/-- What each set stands for. -/
def members (trace : SetTrace) (object : Nat) : Members :=
  Members.ofList (trace.put object)

/-- An intersection is made of what was put into the first set and is in the second. -/
def step (trace : SetTrace) (step : SetStep) : SetTrace where
  store := trace.store.step step
  put :=
    match step with
    | .make items =>
        Function.update trace.put trace.store.length (items.map (Item.value trace.members))
    | .add object item =>
        Function.update trace.put object (trace.put object ++ [item.value trace.members])
    | .union first second =>
        Function.update trace.put trace.store.length (trace.put first ++ trace.put second)
    | .inter first second =>
        Function.update trace.put trace.store.length
          ((trace.put first).filter (trace.members second).has)

def run (steps : List SetStep) : SetTrace :=
  steps.foldl step {}

/-- The sets can be read, and stand for the first of each class of what was put in. -/
structure Sound (trace : SetTrace) : Prop where
  reads : trace.store.Reads trace.members
  distinct : ∀ object, ∀ value ∈ trace.put object, value.Distinct

variable {trace : SetTrace} {steps : List SetStep} {object : Nat}

theorem put_step_of_ne {step : SetStep} (hstep : ∀ item, step ≠ .add object item)
    (hobject : object < trace.store.length) :
    (trace.step step).put object = trace.put object := by
  cases step with
  | add other item =>
      exact Function.update_of_ne (fun heq : object = other => hstep item (heq ▸ rfl)) _ trace.put
  | make | union | inter => exact Function.update_of_ne hobject.ne _ trace.put

theorem Sound.firsts (h : trace.Sound) (object : Nat) :
    Firsts (trace.put object) (trace.members object) :=
  Members.ofList_firsts (h.distinct object)

theorem sound_update {store : Store} {put : Nat → List Value} {values : List Value}
    {members : Members} (hput : ∀ object, ∀ value ∈ put object, value.Distinct)
    (hvalues : ∀ value ∈ values, value.Distinct) (hfirsts : Firsts values members)
    (hreads : store.Reads (Function.update (fun place => Members.ofList (put place)) object
      members)) :
    Sound ⟨store, Function.update put object values⟩ := by
  have hmembers : SetTrace.members ⟨store, Function.update put object values⟩ =
      Function.update (fun place => Members.ofList (put place)) object members := by
    rw [← Members.ofList_eq_of_firsts hfirsts hvalues]
    exact Function.comp_update Members.ofList put object values
  refine ⟨hmembers ▸ hreads, fun place => ?_⟩
  by_cases hplace : place = object
  · subst hplace
    simpa using hvalues
  · simpa [hplace] using hput place

theorem Sound.after_step (h : trace.Sound) {step : SetStep} (hknown : step.Known trace.store)
    (hunshared : step.Unshared trace.store) : (trace.step step).Sound := by
  have hvalue (item : Item) := item.value_distinct h.reads.distinct
  cases step with
  | make items =>
      have hvalues : ∀ value ∈ items.map (Item.value trace.members), value.Distinct :=
        List.forall_mem_map.mpr fun item _ => hvalue item
      refine sound_update h.distinct hvalues (Members.ofList_firsts hvalues) (h.reads.make items ?_)
      exact fun item hitem set hset => hknown set (Item.mem_setsOfItems.mpr ⟨item, hitem, hset⟩)
  | add object item =>
      have hvalues : ∀ value ∈ trace.put object ++ [item.value trace.members], value.Distinct :=
        List.forall_mem_append.mpr ⟨h.distinct object, List.forall_mem_singleton.mpr (hvalue item)⟩
      have hfirsts := Members.insert_firsts (h.firsts object) (h.distinct object) (hvalue item)
      refine sound_update h.distinct hvalues hfirsts ?_
      have hobject := hknown object List.mem_cons_self
      rcases hunshared with hhas | ⟨hitem, hfree⟩
      · have hold : Members.insert (trace.members object) (item.value trace.members) =
            trace.members object := by
          rw [Members.insert, ← h.reads.has_eq, hhas, if_pos rfl]
        rw [hold]
        change (trace.store.add object item).Reads
          (Function.update trace.members object (trace.members object))
        rw [Function.update_eq_self, Store.add_eq_self hobject hhas]
        exact h.reads
      · exact h.reads.add hobject (fun set hset => hknown set (List.mem_cons_of_mem _ hset)) hitem
          hfree
  | union first second =>
      exact sound_update h.distinct
        (List.forall_mem_append.mpr ⟨h.distinct first, h.distinct second⟩)
        (Members.union_firsts (h.firsts first) (h.firsts second) (h.distinct first)
          (h.distinct second))
        h.reads.union
  | inter first second =>
      refine sound_update h.distinct
        (fun value hmem => h.distinct first value (List.mem_of_mem_filter hmem))
        (Members.inter_firsts (h.firsts first) (h.distinct first)
          (h.reads.distinct second).of_mem_set fun value hmem => ?_) h.reads.inter
      exact Members.has_iff (h.reads.distinct second).of_mem_set (h.distinct first value hmem)

theorem store_foldl (trace : SetTrace) :
    (steps.foldl SetTrace.step trace).store = steps.foldl Store.step trace.store := by
  induction steps generalizing trace with
  | nil => rfl
  | cons step steps ih => exact ih (trace.step step)

@[simp]
theorem store_run : (run steps).store = Store.run steps :=
  store_foldl {}

theorem sound_run (hsteps : SetStep.Each
    (fun store step => step.Known store ∧ step.Unshared store) [] steps) : (run steps).Sound := by
  suffices hfold : ∀ trace : SetTrace, trace.Sound → SetStep.Each
      (fun store step => step.Known store ∧ step.Unshared store) trace.store steps →
      (steps.foldl SetTrace.step trace).Sound from
    hfold {} ⟨.nil, fun _ => List.forall_mem_nil _⟩ hsteps
  clear hsteps
  induction steps with
  | nil => exact fun trace htrace _ => htrace
  | cons step steps ih =>
      rintro trace htrace ⟨⟨hknown, hunshared⟩, hsteps⟩
      exact ih (trace.step step) (htrace.after_step hknown hunshared) hsteps

/-- What holds of a set of a sound trace: its keys are those of its members, and these are the
firsts of what was put in. -/
structure HoldsFirsts (trace : SetTrace) (object : Nat) : Prop where
  keyed : ∀ slot ∈ trace.store.table object, slot.key = trace.store.key slot.item
  pairwise : (trace.store.table object).items.Pairwise fun x y =>
    ¬ (x.value trace.members).Similar (y.value trace.members)
  firsts : Firsts (trace.put object)
    ((trace.store.table object).items.map (Item.value trace.members))
  length_eq : (trace.store.table object).length = (classes (trace.put object)).ncard
  has_iff : ∀ item, trace.store.has object item = true ↔
    ∃ member ∈ (trace.store.table object).items,
      (member.value trace.members).Similar (item.value trace.members)

theorem Sound.holdsFirsts (h : trace.Sound) (object : Nat) : trace.HoldsFirsts object := by
  have hfirsts := h.firsts object
  rw [← h.reads.members_eq] at hfirsts
  refine ⟨fun slot => h.reads.key_of_mem, List.pairwise_map.mp hfirsts.pairwise, hfirsts, ?_,
    fun item => ?_⟩
  · rw [← hfirsts.length_eq, List.length_map, Table.items, List.length_map]
  · rw [h.reads.has_iff, ← h.reads.members_eq]
    simp only [List.mem_map, exists_exists_and_eq_and]

end SetTrace

/-- **Sets after any run.** While no set that is in a member of a set takes a new member, every set
files each member under the key it has, holds no two similar members, lists the first of each class
of similar values that were put in, in the order in which they came, has as many members as there
are such classes, and has what is similar to a member. A step changes neither the members of a set
it does not add to nor what they stand for. The rule is needed: a new member of a set that is in a
member of a set always leaves a key on file that is not the key of its member. -/
theorem sets_hold_first_insertions (steps : List SetStep)
    (hsteps : SetStep.Each (fun store step => step.Known store ∧ step.Unshared store) [] steps) :
    (SetTrace.run steps).store = Store.run steps ∧
    (∀ members, (Store.run steps).Reads members ↔ members = (SetTrace.run steps).members) ∧
    (∀ object, (SetTrace.run steps).HoldsFirsts object) ∧
    (∀ first second, (Store.run steps).equal first second =
      Members.equal ((SetTrace.run steps).members first) ((SetTrace.run steps).members second)) ∧
    (∀ object step, object < (Store.run steps).length → step.Known (Store.run steps) →
      step.Unshared (Store.run steps) → (∀ item, step ≠ .add object item) →
      ((Store.run steps).step step).table object = (Store.run steps).table object ∧
      ∀ members, ((Store.run steps).step step).Reads members →
        members object = (SetTrace.run steps).members object) ∧
    ∀ object item, (SetStep.add object item).Known (Store.run steps) →
      ((SetStep.add object item).Unshared (Store.run steps) ↔
        ((Store.run steps).add object item).Keyed) := by
  have hsound := SetTrace.sound_run hsteps
  have hreads := hsound.reads
  rw [SetTrace.store_run] at hreads
  refine ⟨SetTrace.store_run, ?_, hsound.holdsFirsts, fun _ _ => hreads.equal_eq, ?_, ?_⟩
  · exact fun members => ⟨fun hmembers => hmembers.unique hreads, fun heq => heq ▸ hreads⟩
  · intro object step hobject hknown hunshared hstep
    refine ⟨Store.table_step_of_ne hstep hobject, fun members hmembers => ?_⟩
    rw [← SetTrace.store_run] at hobject hknown hunshared hmembers
    have hafter := hsound.after_step hknown hunshared
    rw [hmembers.unique hafter.reads]
    exact congrArg Members.ofList (SetTrace.put_step_of_ne hstep hobject)
  · intro object item hknown
    have hobject := hknown object List.mem_cons_self
    cases hhas : (Store.run steps).has object item with
    | true => simp [SetStep.Unshared, hhas, Store.add_eq_self hobject hhas, hreads.keyed]
    | false =>
        rw [hreads.keyed_add_iff hobject (fun set hset => hknown set (List.mem_cons_of_mem _ hset))
          hhas]
        simp [SetStep.Unshared, hhas]

/-- A set of a zero and its negative has one member, and a set that holds it is no other set when
the first is made anew. -/
theorem sets_hold_first_insertions_zeros :
    (classes ((SetTrace.run
      [.make [.plain (.number (.zero false)) rfl], .add 0 (.plain (.number (.zero true)) rfl),
        .make [.set 0, .plain (.number (.nan 1)) rfl],
        .make [.plain (.number (.zero true)) rfl], .add 1 (.list [.set 2]), .add 1 (.set 2),
        .union 1 2]).put 3)).ncard = 4 := by
  obtain ⟨hstore, -, hholds, -⟩ := sets_hold_first_insertions
    [.make [.plain (.number (.zero false)) rfl], .add 0 (.plain (.number (.zero true)) rfl),
      .make [.set 0, .plain (.number (.nan 1)) rfl],
      .make [.plain (.number (.zero true)) rfl], .add 1 (.list [.set 2]), .add 1 (.set 2),
      .union 1 2] (by decide +kernel)
  rw [← (hholds 3).length_eq, hstore]
  decide +kernel

/-- Lists in one another. -/
def Item.nested : Nat → Item
  | 0 => .list []
  | depth + 1 => .list [nested depth]

theorem Item.nested_tooDeep (depth : Nat) : (nested depth).tooDeep depth = true := by
  induction depth with
  | zero => rfl
  | succ depth ih => simp [nested, tooDeep, someTooDeep, ih]

/-- A set is put into another and takes a member there. -/
def SetStep.sharing : List SetStep :=
  [.make [], .make [.set 0], .add 0 (.plain (.number (.ofUnits false unitsPerOne)) rfl)]

/-- The other set does not have its own member any more: it holds it under a key that is out of
date, and takes it a second time. And what nests too deeply for a key makes no set. -/
theorem shared_set_is_lost :
    SetStep.Each (fun store step => step.Known store) [] (SetStep.sharing ++ [.add 1 (.set 0)]) ∧
    ((Store.run SetStep.sharing).table 1).items = [.set 0] ∧
    ¬ (Store.run SetStep.sharing).Keyed ∧
    (Store.run SetStep.sharing).has 1 (.set 0) = false ∧
    ((Store.run (SetStep.sharing ++ [.add 1 (.set 0)])).table 1).items = [.set 0, .set 0] ∧
    Store.step? defaultLimit [] (.make [Item.nested defaultLimit]) = none := by
  have hitems : ((Store.run SetStep.sharing).table 1).items = [.set 0] := rfl
  have hhas : (Store.run SetStep.sharing).has 1 (.set 0) = false := by decide +kernel
  refine ⟨by decide +kernel, hitems, fun hkeyed => ?_, hhas, ?_, ?_⟩
  · have hmem : Item.set 0 ∈ ((Store.run SetStep.sharing).table 1).items := by
      rw [hitems]
      exact List.mem_cons_self
    obtain ⟨slot, hslot, hitem⟩ := List.mem_map.mp hmem
    rw [Store.has, Table.has, List.any_eq_false] at hhas
    refine hhas slot hslot ?_
    rw [← hitem]
    exact hkeyed 1 slot hslot
  · have hrun : Store.run (SetStep.sharing ++ [.add 1 (.set 0)]) =
        (Store.run SetStep.sharing).add 1 (.set 0) := List.foldl_append
    rw [hrun, Store.table_add (by decide), Function.update_self, Table.items_file, ← Store.has,
      hhas, hitems]
    rfl
  · simp [Store.step?, SetStep.items, Item.someTooDeep, Item.nested_tooDeep]

end SetLisp
