import Mathlib.Logic.Function.Basic
import SetLisp.Proofs.Value.Keys
import SetLisp.Value.Store

/-!
# Reading a store

The sets of a store stand for members once it is said what the sets in their members stand for. As
long as every key on file is the key its member has now, a set stands for the values it holds under
keys, and adding to one set changes what another stands for only if the other refers to it.
-/

namespace SetLisp

namespace Item

/-- What holds of plain values and sets and passes from items to their list holds of every item. -/
@[elab_as_elim]
theorem inductionOn {motive : Item → Prop} (item : Item)
    (plain : ∀ value hplain, motive (plain value hplain))
    (list : ∀ items, (∀ item ∈ items, motive item) → motive (list items))
    (set : ∀ object, motive (set object)) : motive item := by
  match item with
  | .plain value hplain => exact plain value hplain
  | .list items => exact list items fun item _ => inductionOn item plain list set
  | .set object => exact set object
termination_by sizeOf item

mutual

/-- The sets that an item refers to, those in its lists included. -/
def sets : Item → List Nat
  | plain .. => []
  | list items => setsOfItems items
  | set object => [object]

def setsOfItems : List Item → List Nat
  | [] => []
  | item :: rest => sets item ++ setsOfItems rest

end

mutual

/-- The value of an item, given the members that each set stands for. -/
def value (members : Nat → Members) : Item → Value
  | plain value _ => value
  | list items => .list (values members items)
  | set object => .set (members object)

def values (members : Nat → Members) : List Item → List Value
  | [] => []
  | item :: rest => value members item :: values members rest

end

variable {item : Item} {items : List Item} {members others : Nat → Members} {object : Nat}

@[simp]
theorem mem_setsOfItems : object ∈ setsOfItems items ↔ ∃ item ∈ items, object ∈ item.sets := by
  induction items with
  | nil => simp [setsOfItems]
  | cons item items ih => simp [setsOfItems, ih]

@[simp]
theorem values_eq_map : values members items = items.map (value members) := by
  induction items with
  | nil => rfl
  | cons item items ih => rw [values, ih, List.map_cons]

theorem value_congr (h : ∀ object ∈ item.sets, members object = others object) :
    item.value members = item.value others := by
  induction item using inductionOn with
  | plain value hplain => rfl
  | list items ih =>
      simp only [sets, mem_setsOfItems] at h
      rw [value, value, values_eq_map, values_eq_map]
      refine congrArg _ (List.map_congr_left fun item hitem => ?_)
      exact ih item hitem fun object hobject => h object ⟨item, hitem, hobject⟩
  | set object => exact congrArg _ (h object List.mem_cons_self)

theorem value_update (h : object ∉ item.sets) (members : Nat → Members) (set : Members) :
    item.value (Function.update members object set) = item.value members :=
  value_congr fun _ hother => Function.update_of_ne (ne_of_mem_of_not_mem hother h) set members

theorem value_distinct (item : Item) (h : ∀ object, (Value.set (members object)).Distinct) :
    (item.value members).Distinct := by
  induction item using inductionOn with
  | plain value hplain =>
      cases value with
      | boolean truth => exact .boolean truth
      | number x => exact .number x
      | list | set => cases hplain
      | foreign _ datum => cases datum <;> exact .object rfl
      | symbol | builtin | lambda => exact .object rfl
  | list items ih => simpa [value] using ih
  | set object => exact h object

theorem sizeOf_members_lt (h : object ∈ item.sets) :
    sizeOf (members object) < sizeOf (item.value members) := by
  induction item using inductionOn with
  | plain value hplain => cases h
  | list items ih =>
      simp only [sets, mem_setsOfItems] at h
      obtain ⟨item, hitem, hobject⟩ := h
      have hmember := List.sizeOf_lt_of_mem (List.mem_map_of_mem (f := value members) hitem)
      have hinner := ih item hitem hobject
      rw [value, values_eq_map, Value.list.sizeOf_spec]
      omega
  | set other =>
      obtain rfl := List.mem_singleton.mp h
      rw [value, Value.set.sizeOf_spec]
      omega

end Item

theorem Table.mem_file {table : Table} {key : Key} {item : Item} {slot : Slot}
    (h : slot ∈ table.file key item) : slot ∈ table ∨ slot = ⟨key, item⟩ := by
  rw [file] at h
  split at h
  · exact .inl h
  · exact (List.mem_append.mp h).imp_right List.mem_singleton.mp

theorem Table.items_file {table : Table} {key : Key} {item : Item} :
    (table.file key item).items =
      if table.has key then table.items else table.items ++ [item] := by
  rw [file]
  split <;> simp [items]

namespace Store

variable {store other : Store} {members others : Nat → Members} {item : Item} {items : List Item}
  {object first second : Nat}

@[simp]
theorem keys_eq_map : store.keys items = items.map store.key := by
  induction items with
  | nil => rfl
  | cons item items ih => rw [keys, ih, List.map_cons]

@[simp]
theorem table_append_nil : (store ++ [[]]).table object = store.table object := by
  rw [table, table, List.getD_eq_getElem?_getD, List.getD_eq_getElem?_getD, List.getElem?_append]
  split
  · rfl
  · next hlength =>
      rw [List.getElem?_eq_none (Nat.le_of_not_lt hlength)]
      rcases object - store.length with _ | n <;> rfl

theorem table_add (hobject : object < store.length) :
    (store.add object item).table = Function.update store.table object
      ((store.table object).file (store.key item) item) := by
  funext place
  by_cases hplace : place = object
  · subst hplace
    simp [table, add, hobject]
  · rw [Function.update_of_ne hplace]
    simp [table, add, List.getElem?_set_ne (Ne.symm hplace)]

theorem mem_table_add (hobject : object < store.length) {place : Nat} {slot : Slot}
    (h : slot ∈ (store.add object item).table place) :
    slot ∈ store.table place ∨ slot = ⟨store.key item, item⟩ := by
  rw [table_add hobject] at h
  by_cases hplace : place = object
  · subst hplace
    rw [Function.update_self] at h
    exact Table.mem_file h
  · rw [Function.update_of_ne hplace] at h
    exact .inl h

theorem mem_table_add_of_mem (hobject : object < store.length) {place : Nat} {slot : Slot}
    (h : slot ∈ store.table place) : slot ∈ (store.add object item).table place := by
  rw [table_add hobject]
  by_cases hplace : place = object
  · subst hplace
    rw [Function.update_self, Table.file]
    split
    · exact h
    · exact List.mem_append_left _ h
  · rwa [Function.update_of_ne hplace]

@[simp]
theorem length_add : (store.add object item).length = store.length :=
  List.length_set

theorem add_eq_self (hobject : object < store.length) (h : store.has object item = true) :
    store.add object item = store := by
  have htable : store.table object = store[object] := by simp [table, hobject]
  rw [has] at h
  rw [add, Table.file, if_pos h, htable, List.set_getElem_self]

/-- Adding changes the table of no other set. -/
theorem table_addAll_of_ne (hne : object ≠ first) :
    (store.addAll first items).table object = store.table object := by
  induction items generalizing store with
  | nil => rfl
  | cons item items ih =>
      refine ih.trans ?_
      simp [table, add, List.getElem?_set_ne hne.symm]

/-- A step changes the members of no set but the one it adds to. -/
theorem table_step_of_ne {step : SetStep} (hstep : ∀ item, step ≠ .add object item)
    (hobject : object < store.length) : (store.step step).table object = store.table object := by
  have hmake (items : List Item) : (store.make items).table object = store.table object :=
    (table_addAll_of_ne hobject.ne).trans table_append_nil
  cases step with
  | make items => exact hmake items
  | add other item =>
      have hne : object ≠ other := fun heq : object = other => hstep item (heq ▸ rfl)
      change (store.addAll other [item]).table object = _
      exact table_addAll_of_ne hne
  | union | inter => exact hmake _

/-- Every key on file is the key its member has now. -/
def Keyed (store : Store) : Prop :=
  ∀ object, ∀ slot ∈ store.table object, slot.key.equal (store.key slot.item) = true

/-- A set that is in a member of a set. -/
def Holds (store : Store) (object : Nat) : Prop :=
  ∃ table ∈ store, ∃ slot ∈ table, object ∈ slot.item.sets

theorem holds_iff : store.Holds object ↔
    ∃ place, ∃ slot ∈ store.table place, object ∈ slot.item.sets := by
  constructor
  · rintro ⟨table, htable, slot, hslot, hobject⟩
    obtain ⟨place, hplace, rfl⟩ := List.getElem_of_mem htable
    refine ⟨place, slot, ?_, hobject⟩
    simpa [Store.table, hplace] using hslot
  · rintro ⟨place, slot, hslot, hobject⟩
    have hplace : place < store.length := by
      by_contra hplace
      simp [Store.table, List.getElem?_eq_none (Nat.le_of_not_lt hplace)] at hslot
    refine ⟨store[place], List.getElem_mem hplace, slot, ?_, hobject⟩
    simpa [Store.table, hplace] using hslot

theorem not_holds_add (hobject : object < store.length) (hitem : object ∉ item.sets)
    (hfree : ¬ store.Holds object) : ¬ (store.add object item).Holds object := by
  intro hholds
  obtain ⟨place, slot, hslot, hset⟩ := holds_iff.mp hholds
  rcases mem_table_add hobject hslot with hslot | rfl
  · exact hfree (holds_iff.mpr ⟨place, slot, hslot, hset⟩)
  · exact hitem hset

/-- The sets stand for members that are filed under their keys, none of them twice. -/
structure Reads (store : Store) (members : Nat → Members) : Prop where
  known : ∀ object, ∀ slot ∈ store.table object, ∀ set ∈ slot.item.sets, set < store.length
  filed : ∀ object, ∀ slot ∈ store.table object, slot.key = (slot.item.value members).key
  members_eq : ∀ object, (store.table object).items.map (Item.value members) = members object
  distinct : ∀ object, (Value.set (members object)).Distinct

namespace Reads

/-- A store is read in one way only. -/
theorem unique (h : store.Reads members) (h' : store.Reads others) : members = others := by
  funext object
  induction hsize : sizeOf (members object) using Nat.strong_induction_on generalizing object with
  | _ size ih =>
      rw [← h.members_eq, ← h'.members_eq]
      refine List.map_congr_left fun item hitem => Item.value_congr fun inner hinner => ?_
      have hmember : item.value members ∈ members object :=
        h.members_eq object ▸ List.mem_map_of_mem hitem
      have hlt := (Item.sizeOf_members_lt hinner).trans (List.sizeOf_lt_of_mem hmember)
      exact ih _ (hsize ▸ hlt) inner rfl

theorem key_eq (h : store.Reads members) : store.key item = (item.value members).key := by
  induction item using Item.inductionOn with
  | plain value hplain => rfl
  | list items ih =>
      rw [key, Item.value, Value.key, keys_eq_map, Item.values_eq_map, Value.keys_eq_map,
        List.map_map]
      exact congrArg _ (List.map_congr_left ih)
  | set object =>
      rw [key, Item.value, Value.key, Value.keys_eq_map, ← h.members_eq, Table.items, Table.keys,
        List.map_map, List.map_map]
      exact congrArg _ (List.map_congr_left (h.filed object))

/-- Every key on file is the key of its member. -/
theorem key_of_mem (h : store.Reads members) {slot : Slot}
    (hslot : slot ∈ store.table object) : slot.key = store.key slot.item :=
  (h.filed object slot hslot).trans h.key_eq.symm

theorem keyed (h : store.Reads members) : store.Keyed := by
  intro object slot hslot
  rw [h.key_of_mem hslot, h.key_eq, Value.key_equal_iff]
  exact .refl _

theorem has_iff (h : store.Reads members) :
    store.has object item = true ↔
      ∃ member ∈ members object, member.Similar (item.value members) := by
  rw [has, Table.has, List.any_eq_true, ← h.members_eq]
  simp only [Table.items, List.map_map, List.mem_map, exists_exists_and_eq_and, Function.comp_apply]
  refine exists_congr fun slot => and_congr_right fun hslot => ?_
  rw [h.filed object slot hslot, h.key_eq, Value.key_equal_iff]

theorem has_eq (h : store.Reads members) :
    store.has object item = Members.has (members object) (item.value members) := by
  have hvalue := item.value_distinct h.distinct
  rw [Bool.eq_iff_iff, h.has_iff, Members.has_iff (h.distinct object).of_mem_set hvalue,
    Value.toClass_mem_classes]

theorem equal_eq (h : store.Reads members) :
    store.equal first second = Members.equal (members first) (members second) := by
  have hlength place : (store.table place).length = (members place).length := by
    rw [← h.members_eq, List.length_map, Table.items, List.length_map]
  have hall : ((store.table first).all fun slot => (store.table second).has slot.key) =
      Value.eachIn (members first) (members second) := by
    rw [Bool.eq_iff_iff, List.all_eq_true, Value.eachIn_iff, ← h.members_eq first, Table.items]
    simp only [List.map_map, List.forall_mem_map, Function.comp_apply]
    refine forall₂_congr fun slot hslot => ?_
    rw [h.key_of_mem hslot, ← has, h.has_iff]
    refine exists_congr fun member => and_congr_right fun hmember => ?_
    rw [Value.same_iff_similar (Item.value_distinct _ h.distinct)
      ((h.distinct second).of_mem_set member hmember)]
    exact ⟨Value.Similar.symm, Value.Similar.symm⟩
  rw [equal, hall, hlength, hlength]
  rfl

theorem nil : Store.Reads [] fun _ => [] where
  known _ _ hslot := nomatch hslot
  filed _ _ hslot := nomatch hslot
  members_eq _ := rfl
  distinct _ := .set (List.forall_mem_nil _) .nil

theorem value_of_not_holds (hfree : ¬ store.Holds object) {place : Nat} {slot : Slot}
    (hslot : slot ∈ store.table place) (members : Nat → Members) (set : Members) :
    slot.item.value (Function.update members object set) = slot.item.value members :=
  Item.value_update (fun hset => hfree (holds_iff.mpr ⟨place, slot, hslot, hset⟩)) members set

/-- A set that no member of a set refers to may come to stand for something else, and the members
of all sets stand for what they stood for. -/
theorem map_value_update (h : store.Reads members) (hfree : ¬ store.Holds object) (set : Members)
    (place : Nat) :
    (store.table place).items.map (Item.value (Function.update members object set)) =
      members place := by
  rw [← h.members_eq place, Table.items, List.map_map, List.map_map]
  exact List.map_congr_left fun slot hslot => value_of_not_holds hfree hslot members set

/-- A new member of a set that no member of a set refers to changes what that set stands for, and
no other. -/
theorem add (h : store.Reads members) (hobject : object < store.length)
    (hknown : ∀ set ∈ item.sets, set < store.length) (hitem : object ∉ item.sets)
    (hfree : ¬ store.Holds object) :
    (store.add object item).Reads (Function.update members object
      (Members.insert (members object) (item.value members))) where
  known := by
    intro place slot hslot
    rw [length_add]
    rcases mem_table_add hobject hslot with hslot | rfl
    · exact h.known place slot hslot
    · exact hknown
  filed := by
    intro place slot hslot
    rcases mem_table_add hobject hslot with hslot | rfl
    · rw [value_of_not_holds hfree hslot]
      exact h.filed place slot hslot
    · rw [Item.value_update hitem]
      exact h.key_eq
  members_eq := by
    intro place
    have hold := h.map_value_update hfree (Members.insert (members object) (item.value members))
    have hnew := Item.value_update hitem members
      (Members.insert (members object) (item.value members))
    rw [table_add hobject]
    by_cases hplace : place = object
    · subst hplace
      rw [Function.update_self, Function.update_self, Table.items_file, ← has, h.has_eq]
      generalize Function.update members place _ = others at hnew hold ⊢
      rw [Members.insert]
      split
      · exact hold place
      · rw [List.map_append, hold, List.map_singleton, hnew]
    · rw [Function.update_of_ne hplace, Function.update_of_ne hplace]
      exact hold place
  distinct := by
    intro place
    by_cases hplace : place = object
    · subst hplace
      have hfirsts := Members.insert_firsts (.of_pairwise (h.distinct place).pairwise_of_set)
        (h.distinct place).of_mem_set (item.value_distinct h.distinct)
      rw [Function.update_self]
      refine hfirsts.distinct (List.forall_mem_append.mpr ⟨(h.distinct place).of_mem_set, ?_⟩)
      exact List.forall_mem_singleton.mpr (item.value_distinct h.distinct)
    · rw [Function.update_of_ne hplace]
      exact h.distinct place

theorem addAll (h : store.Reads members) (hobject : object < store.length)
    (hknown : ∀ item ∈ items, ∀ set ∈ item.sets, set < store.length)
    (hitems : ∀ item ∈ items, object ∉ item.sets) (hfree : ¬ store.Holds object) :
    (store.addAll object items).Reads (Function.update members object
      (Members.insertAll (members object) (items.map (Item.value members)))) := by
  induction items generalizing store members with
  | nil => simpa [Store.addAll, Members.insertAll] using h
  | cons item items ih =>
      obtain ⟨hknownItem, hknown⟩ := List.forall_mem_cons.mp hknown
      obtain ⟨hitem, hitems⟩ := List.forall_mem_cons.mp hitems
      have hadd := h.add hobject hknownItem hitem hfree
      have hrest := ih hadd (by simpa using hobject) (by simpa using hknown) hitems
        (not_holds_add hobject hitem hfree)
      have hvalues (set : Members) := List.map_congr_left fun item hitem =>
        Item.value_update (hitems item hitem) members set
      rw [Function.update_self, Function.update_idem, hvalues] at hrest
      exact hrest

/-- A new set stands for its items, each of them once. -/
theorem make (h : store.Reads members) (items : List Item)
    (hknown : ∀ item ∈ items, ∀ set ∈ item.sets, set < store.length) :
    (store.make items).Reads (Function.update members store.length
      (Members.ofList (items.map (Item.value members)))) := by
  have hempty : members store.length = [] := by
    rw [← h.members_eq, table, List.getD_eq_getElem?_getD, List.getElem?_eq_none le_rfl]
    rfl
  have hlength : (store ++ [[]]).length = store.length + 1 := by simp
  have hallocated : Store.Reads (store ++ [[]]) members := by
    refine ⟨fun object slot hslot set hset => ?_, ?_, ?_, h.distinct⟩
    · rw [table_append_nil] at hslot
      rw [hlength]
      exact Nat.lt_succ_of_lt (h.known object slot hslot set hset)
    · simpa using h.filed
    · simpa using h.members_eq
  have hfree : ¬ Store.Holds (store ++ [[]]) store.length := by
    intro hholds
    obtain ⟨place, slot, hslot, hset⟩ := holds_iff.mp hholds
    rw [table_append_nil] at hslot
    exact Nat.lt_irrefl _ (h.known place slot hslot _ hset)
  have hall := hallocated.addAll (by simp) (fun item hitem set hset => ?_)
    (fun item hitem hset => Nat.lt_irrefl _ (hknown item hitem _ hset)) hfree
  · rwa [hempty] at hall
  · rw [hlength]
    exact Nat.lt_succ_of_lt (hknown item hitem set hset)

theorem known_of_mem (h : store.Reads members) (hitem : item ∈ (store.table object).items) :
    ∀ set ∈ item.sets, set < store.length := by
  obtain ⟨slot, hslot, rfl⟩ := List.mem_map.mp hitem
  exact h.known object slot hslot

theorem union (h : store.Reads members) :
    (store.union first second).Reads (Function.update members store.length
      (Members.union (members first) (members second))) := by
  have hmake := h.make ((store.table first).items ++ (store.table second).items)
    fun item hitem => (List.mem_append.mp hitem).elim h.known_of_mem h.known_of_mem
  have hvalues : Members.ofList (members first ++ members second) =
      Members.union (members first) (members second) := by
    rw [Members.ofList, Members.insertAll, List.foldl_append]
    exact congrArg (Members.insertAll · _) (Members.ofList_eq_self (h.distinct first))
  rwa [List.map_append, h.members_eq, h.members_eq, hvalues] at hmake

theorem inter (h : store.Reads members) :
    (store.inter first second).Reads (Function.update members store.length
      (Members.inter (members first) (members second))) := by
  have hmake := h.make (Table.items ((store.table first).filter fun slot =>
    (store.table second).has slot.key)) fun item hitem =>
      h.known_of_mem ((List.filter_sublist.map _).subset hitem)
  have hvalues : (Table.items ((store.table first).filter fun slot =>
      (store.table second).has slot.key)).map (Item.value members) =
      Members.inter (members first) (members second) := by
    rw [Members.inter, ← h.members_eq first, Table.items, Table.items, List.map_map, List.map_map,
      List.filter_map]
    refine congrArg _ (List.filter_congr fun slot hslot => ?_)
    rw [h.key_of_mem hslot, ← has, h.has_eq]
    rfl
  have hdistinct : (Value.set (Members.inter (members first) (members second))).Distinct :=
    (h.distinct first).of_sublist List.filter_sublist
  rwa [hvalues, Members.ofList_eq_self hdistinct] at hmake

end Reads

/-- A set that takes a new member changes the key of what refers to it. -/
theorem key_add_ne (hobject : object < store.length) (hnew : store.has object item = false)
    {other : Item} (h : object ∈ other.sets) :
    (store.key other).equal ((store.add object item).key other) = false := by
  induction other using Item.inductionOn with
  | plain value hplain => cases h
  | list items ih =>
      simp only [Item.sets, Item.mem_setsOfItems] at h
      obtain ⟨inner, hinner, hobject⟩ := h
      rw [key, key, Key.equal, keys_eq_map, keys_eq_map, ← Bool.not_eq_true]
      intro hequal
      have hsame := Key.equal_of_equalItems hequal inner hinner
      rw [ih inner hinner hobject] at hsame
      cases hsame
  | set place =>
      obtain rfl := List.mem_singleton.mp h
      rw [has] at hnew
      rw [key, key, table_add hobject, Function.update_self, Table.file, hnew, ← Bool.not_eq_true,
        Key.equal_set_iff]
      rintro ⟨-, hback⟩
      obtain ⟨key, hkey, hequal⟩ := hback (store.key item) (by simp [Table.keys])
      obtain ⟨slot, hslot, rfl⟩ := List.mem_map.mp hkey
      rw [← Bool.not_eq_true, Table.has, List.any_eq_true] at hnew
      exact hnew ⟨slot, hslot, hequal⟩

/-- A new member leaves every key on file current exactly when no member refers to its set. -/
theorem Reads.keyed_add_iff (h : store.Reads members) (hobject : object < store.length)
    (hknown : ∀ set ∈ item.sets, set < store.length) (hnew : store.has object item = false) :
    (store.add object item).Keyed ↔ object ∉ item.sets ∧ ¬ store.Holds object := by
  refine ⟨fun hkeyed => ⟨fun hitem => ?_, fun hholds => ?_⟩, fun ⟨hitem, hfree⟩ =>
    (h.add hobject hknown hitem hfree).keyed⟩
  · have hslot : ⟨store.key item, item⟩ ∈ (store.add object item).table object := by
      rw [has] at hnew
      rw [table_add hobject, Function.update_self, Table.file, hnew]
      simp
    have hequal := hkeyed object _ hslot
    rw [key_add_ne hobject hnew hitem] at hequal
    cases hequal
  · obtain ⟨place, slot, hslot, hset⟩ := holds_iff.mp hholds
    have hequal := hkeyed place slot (mem_table_add_of_mem hobject hslot)
    rw [h.key_of_mem hslot, key_add_ne hobject hnew hset] at hequal
    cases hequal

end Store

end SetLisp
