import Mathlib.Data.Set.Card
import SetLisp.Proofs.Value.Similarity
import SetLisp.Proofs.Value.WellFormed

namespace SetLisp

namespace Value

variable {x : Value} {values members more : List Value}

def classes (values : List Value) : Set Class :=
  {c | c ∈ values.map toClass}

theorem toClass_mem_classes : x.toClass ∈ classes values ↔ ∃ value ∈ values, value.Similar x := by
  simp only [classes, Set.mem_ofPred_eq, List.mem_map, toClass_eq_iff]

@[simp]
theorem classes_append : classes (values ++ more) = classes values ∪ classes more := by
  ext c
  simp [classes]

theorem classes_singleton : classes [x] = {x.toClass} := by
  ext c
  simp [classes]

theorem classes_flatten (lists : List (List Value)) :
    classes lists.flatten = {c | ∃ values ∈ lists, c ∈ classes values} := by
  ext c
  simp [classes]

/-- The members are the values that are similar to no earlier one, in the order of the values. -/
inductive Firsts : List Value → List Value → Prop
  | nil : Firsts [] []
  | new {values members : List Value} {value : Value} (h : Firsts values members)
      (hnew : ∀ earlier ∈ values, ¬ earlier.Similar value) :
      Firsts (values ++ [value]) (members ++ [value])
  | again {values members : List Value} {value : Value} (h : Firsts values members)
      (hagain : ∃ earlier ∈ values, earlier.Similar value) : Firsts (values ++ [value]) members

namespace Firsts

theorem sublist (h : Firsts values members) : members.Sublist values := by
  induction h with
  | nil => exact .slnil
  | new _ _ ih => exact ih.append (.refl _)
  | again _ _ ih => exact ih.trans (List.sublist_append_left _ _)

theorem classes_eq (h : Firsts values members) : classes members = classes values := by
  induction h with
  | nil => rfl
  | new _ _ ih => rw [classes_append, classes_append, ih]
  | again _ hagain ih =>
      rw [classes_append, classes_singleton, ih, eq_comm, Set.union_eq_left,
        Set.singleton_subset_iff]
      exact toClass_mem_classes.mpr hagain

theorem pairwise (h : Firsts values members) : members.Pairwise fun x y => ¬ x.Similar y := by
  induction h with
  | nil => exact .nil
  | new h hnew ih =>
      refine List.pairwise_append.mpr ⟨ih, List.pairwise_singleton _ _, fun x hx y hy => ?_⟩
      rw [List.mem_singleton.mp hy]
      exact hnew x (h.sublist.subset hx)
  | again _ _ ih => exact ih

theorem distinct (h : Firsts values members) (hvalues : ∀ value ∈ values, value.Distinct) :
    (Value.set members).Distinct :=
  .set (fun member hmember => hvalues member (h.sublist.subset hmember)) h.pairwise

/-- There are as many members as classes. -/
theorem length_eq (h : Firsts values members) : members.length = (classes values).ncard := by
  classical
  have hnodup := nodup_map_toClass h.pairwise
  calc members.length = (members.map toClass).toFinset.card := by
        rw [List.toFinset_card_of_nodup hnodup, List.length_map]
    _ = (classes members).ncard := by
        rw [← Set.ncard_coe_finset, List.coe_toFinset, classes]
    _ = (classes values).ncard := by rw [h.classes_eq]

theorem of_pairwise (hpairwise : members.Pairwise fun x y => ¬ x.Similar y) :
    Firsts members members := by
  induction members using List.reverseRecOn with
  | nil => exact .nil
  | append_singleton members value ih =>
      obtain ⟨hmembers, -, hnew⟩ := List.pairwise_append.mp hpairwise
      exact .new (ih hmembers) fun earlier hearlier =>
        hnew earlier hearlier value List.mem_cons_self

/-- A condition that similar values share picks the firsts of what it picks. -/
theorem filter {condition : Value → Bool} (h : Firsts values members)
    (hcondition : ∀ x ∈ values, ∀ y ∈ values, x.Similar y → condition x = condition y) :
    Firsts (values.filter condition) (members.filter condition) := by
  induction h with
  | nil => exact .nil
  | @new values members value h hnew ih =>
      have hinit := ih fun x hx y hy =>
        hcondition x (List.mem_append_left _ hx) y (List.mem_append_left _ hy)
      rw [List.filter_append, List.filter_append]
      by_cases hvalue : condition value = true
      · rw [List.filter_cons_of_pos hvalue]
        exact .new hinit fun earlier hearlier => hnew earlier (List.mem_of_mem_filter hearlier)
      · rwa [List.filter_cons_of_neg hvalue, List.filter_nil, List.append_nil, List.append_nil]
  | @again values members value h hagain ih =>
      have hinit := ih fun x hx y hy =>
        hcondition x (List.mem_append_left _ hx) y (List.mem_append_left _ hy)
      rw [List.filter_append]
      by_cases hvalue : condition value = true
      · rw [List.filter_cons_of_pos hvalue]
        obtain ⟨earlier, hearlier, hsimilar⟩ := hagain
        have hshared : condition earlier = condition value :=
          hcondition earlier (List.mem_append_left _ hearlier) value (by simp) hsimilar
        exact .again hinit ⟨earlier, List.mem_filter.mpr ⟨hearlier, hshared.trans hvalue⟩, hsimilar⟩
      · rwa [List.filter_cons_of_neg hvalue, List.filter_nil, List.append_nil]

end Firsts

end Value

namespace Members

open Value (Firsts classes)

variable {first second members values more : List Value} {value : Value}

theorem has_iff (hmembers : ∀ member ∈ members, member.Distinct) (hvalue : value.Distinct) :
    has members value = true ↔ value.toClass ∈ classes members := by
  rw [Value.toClass_mem_classes, has, List.any_eq_true]
  refine exists_congr fun member => and_congr_right fun hmember => ?_
  exact Value.same_iff_similar (hmembers member hmember) hvalue

theorem has_iff_of_firsts (h : Firsts values members)
    (hvalues : ∀ earlier ∈ values, earlier.Distinct) (hvalue : value.Distinct) :
    has members value = true ↔ ∃ earlier ∈ values, earlier.Similar value := by
  have hmembers member (hmember : member ∈ members) := hvalues member (h.sublist.subset hmember)
  rw [has_iff hmembers hvalue, h.classes_eq, Value.toClass_mem_classes]

theorem insert_firsts (h : Firsts values members) (hvalues : ∀ earlier ∈ values, earlier.Distinct)
    (hvalue : value.Distinct) : Firsts (values ++ [value]) (insert members value) := by
  have hhas := has_iff_of_firsts h hvalues hvalue
  rw [insert]
  split
  · next hold => exact .again h (hhas.mp hold)
  · next hnew =>
      refine .new h fun earlier hearlier hsimilar => ?_
      exact hnew (hhas.mpr ⟨earlier, hearlier, hsimilar⟩)

theorem insertAll_firsts (h : Firsts values members)
    (hvalues : ∀ earlier ∈ values, earlier.Distinct) (hmore : ∀ value ∈ more, value.Distinct) :
    Firsts (values ++ more) (insertAll members more) := by
  induction more generalizing values members with
  | nil => rwa [List.append_nil]
  | cons value more ih =>
      obtain ⟨hvalue, hmore⟩ := List.forall_mem_cons.mp hmore
      have hvalues' : ∀ earlier ∈ values ++ [value], earlier.Distinct :=
        List.forall_mem_append.mpr ⟨hvalues, List.forall_mem_singleton.mpr hvalue⟩
      rw [List.append_cons]
      exact ih (insert_firsts h hvalues hvalue) hvalues' hmore

theorem ofList_firsts (hvalues : ∀ value ∈ values, value.Distinct) :
    Firsts values (ofList values) :=
  insertAll_firsts .nil (List.forall_mem_nil _) hvalues

theorem ofList_distinct (hvalues : ∀ value ∈ values, value.Distinct) :
    (Value.set (ofList values)).Distinct :=
  (ofList_firsts hvalues).distinct hvalues

theorem ofList_append_singleton : ofList (values ++ [value]) = insert (ofList values) value :=
  List.foldl_append

/-- The firsts of values are what a set of the values holds. -/
theorem ofList_eq_of_firsts (h : Firsts values members)
    (hvalues : ∀ value ∈ values, value.Distinct) : ofList values = members := by
  induction h with
  | nil => rfl
  | @new values members value h hnew ih =>
      obtain ⟨hvalues, hvalue⟩ := List.forall_mem_append.mp hvalues
      have hhas := has_iff_of_firsts h hvalues (List.forall_mem_singleton.mp hvalue)
      rw [ofList_append_singleton, ih hvalues]
      refine if_neg fun hold => ?_
      obtain ⟨earlier, hearlier, hsimilar⟩ := hhas.mp hold
      exact hnew earlier hearlier hsimilar
  | @again values members value h hagain ih =>
      obtain ⟨hvalues, hvalue⟩ := List.forall_mem_append.mp hvalues
      have hhas := has_iff_of_firsts h hvalues (List.forall_mem_singleton.mp hvalue)
      rw [ofList_append_singleton, ih hvalues]
      exact if_pos (hhas.mpr hagain)

/-- The members of a set, put into a set, make it anew. -/
theorem ofList_eq_self (hmembers : (Value.set members).Distinct) : ofList members = members :=
  ofList_eq_of_firsts (.of_pairwise hmembers.pairwise_of_set) hmembers.of_mem_set

/-- What two lists of values put into two sets, one after the other puts into the union. -/
theorem union_firsts (h : Firsts values first) (hmore : Firsts more second)
    (hvalues : ∀ value ∈ values, value.Distinct) (hmore' : ∀ value ∈ more, value.Distinct) :
    Firsts (values ++ more) (union first second) := by
  induction hmore with
  | nil => rwa [List.append_nil]
  | @new more second value _ _ ih =>
      obtain ⟨hmore', hvalue⟩ := List.forall_mem_append.mp hmore'
      have hall : ∀ value ∈ values ++ more, value.Distinct :=
        List.forall_mem_append.mpr ⟨hvalues, hmore'⟩
      rw [← List.append_assoc, union, insertAll, List.foldl_append]
      exact insert_firsts (ih hmore') hall (List.forall_mem_singleton.mp hvalue)
  | again _ hagain ih =>
      obtain ⟨earlier, hearlier, hsimilar⟩ := hagain
      rw [← List.append_assoc]
      exact .again (ih (List.forall_mem_append.mp hmore').1)
        ⟨earlier, List.mem_append_right _ hearlier, hsimilar⟩

theorem inter_firsts {condition : Value → Bool} (h : Firsts values first)
    (hvalues : ∀ value ∈ values, value.Distinct) (hsecond : ∀ member ∈ second, member.Distinct)
    (hcondition : ∀ value ∈ values, condition value = true ↔ value.toClass ∈ classes second) :
    Firsts (values.filter condition) (inter first second) := by
  have hsame : inter first second = first.filter condition := by
    refine List.filter_congr fun member hmember => Bool.eq_iff_iff.mpr ?_
    have hvalue := h.sublist.subset hmember
    rw [has_iff hsecond (hvalues member hvalue), hcondition member hvalue]
  rw [hsame]
  refine h.filter fun x hx y hy hsimilar => Bool.eq_iff_iff.mpr ?_
  rw [hcondition x hx, hcondition y hy, Value.toClass_eq_iff.mpr hsimilar]

/-- Sets are equal when they hold values of the same classes. -/
theorem equal_iff (hfirst : (Value.set first).Distinct) (hsecond : (Value.set second).Distinct) :
    equal first second = true ↔ classes first = classes second := by
  rw [equal, Value.same_iff_similar hfirst hsecond, Value.similar_sets_iff, Set.Subset.antisymm_iff]
  rfl

end Members

end SetLisp
