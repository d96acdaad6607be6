import SetLisp.Builtin.Result
import SetLisp.Proofs.Value.Members

namespace SetLisp.Builtin

open Members
open Value (Firsts classes)

variable {set other : Members} {sets others : List Members} {groups : List (List Members)}
  {function : Builtin} {args : List Value} {fresh : Nat}

theorem allSets_map_set : allSets function (sets.map .set) = .ok sets := by
  induction sets with
  | nil => rfl
  | cons set sets ih => rw [List.map_cons, allSets, ih, Except.map]

theorem someSets_map_set (hne : sets ≠ []) : someSets function (sets.map .set) = .ok sets := by
  rw [someSets, if_neg (by simpa using hne), allSets_map_set]

theorem allSets_eq_error (h : ∃ arg ∈ args, arg.set? = none) :
    allSets function args = .error (.argumentKind function .setArguments) := by
  fun_induction allSets function args with
  | case1 => simp at h
  | case2 members rest ih =>
      obtain ⟨arg, harg, hnone⟩ := h
      rcases List.mem_cons.mp harg with rfl | harg
      · cases hnone
      · rw [ih ⟨arg, harg, hnone⟩, Except.map]
  | case3 => rfl

theorem someSets_eq_error (h : ∃ arg ∈ args, arg.set? = none) :
    someSets function args = .error (.argumentKind function .setArguments) := by
  obtain ⟨arg, harg, -⟩ := id h
  rw [someSets, if_neg (by simpa using List.ne_nil_of_mem harg), allSets_eq_error h]

section

variable (hsets : ∀ set ∈ sets, (Value.set set).Distinct)

include hsets

theorem unionAll_firsts : Firsts sets.flatten (unionAll sets) := by
  suffices hfold : ∀ {values start : List Value}, Firsts values start →
      (∀ value ∈ values, value.Distinct) →
        Firsts (values ++ sets.flatten) (sets.foldl Members.union start) from
    hfold .nil (List.forall_mem_nil _)
  induction sets with
  | nil =>
      intro values start hstart _
      rwa [List.flatten_nil, List.append_nil]
  | cons set sets ih =>
      intro values start hstart hvalues
      obtain ⟨hset, hsets⟩ := List.forall_mem_cons.mp hsets
      have hunion := union_firsts hstart (.of_pairwise hset.pairwise_of_set) hvalues hset.of_mem_set
      rw [List.flatten_cons, ← List.append_assoc]
      exact ih hsets hunion (List.forall_mem_append.mpr ⟨hvalues, hset.of_mem_set⟩)

theorem unionAll_distinct : (Value.set (unionAll sets)).Distinct := by
  refine (unionAll_firsts hsets).distinct fun value hvalue => ?_
  obtain ⟨set, hset, hmem⟩ := List.mem_flatten.mp hvalue
  exact (hsets set hset).of_mem_set value hmem

theorem classes_unionAll : classes (unionAll sets) = {c | ∃ set ∈ sets, c ∈ classes set} := by
  rw [(unionAll_firsts hsets).classes_eq, Value.classes_flatten]

theorem has_unionAll_iff {value : Value} (hvalue : value.Distinct) :
    has (unionAll sets) value = true ↔ ∃ set ∈ sets, has set value = true := by
  rw [has_iff (unionAll_distinct hsets).of_mem_set hvalue, classes_unionAll hsets]
  refine exists_congr fun set => and_congr_right fun hset => ?_
  exact (has_iff (hsets set hset).of_mem_set hvalue).symm

end

theorem interAll_cons :
    interAll (set :: sets) = set.filter fun member => sets.all (has · member) := by
  induction sets generalizing set with
  | nil => simp [interAll]
  | cons other sets ih =>
      have hstep : interAll (set :: other :: sets) = interAll (set.inter other :: sets) := rfl
      rw [hstep, ih, Members.inter, List.filter_filter]
      refine List.filter_congr fun member _ => ?_
      rw [List.all_cons, Bool.and_comm]

section

variable (hne : sets ≠ []) (hsets : ∀ set ∈ sets, (Value.set set).Distinct)

include hsets

theorem interAll_eq_filter :
    interAll sets = (sets.head hne).filter fun member => sets.all (has · member) := by
  obtain ⟨set, rest, rfl⟩ := List.exists_cons_of_ne_nil hne
  have hset := hsets set List.mem_cons_self
  rw [interAll_cons, List.head_cons]
  refine List.filter_congr fun member hmember => ?_
  have hhas : has set member = true :=
    (has_iff hset.of_mem_set (hset.of_mem_set member hmember)).mpr (List.mem_map_of_mem hmember)
  rw [List.all_cons, hhas, Bool.true_and]

include hne

theorem interAll_distinct : (Value.set (interAll sets)).Distinct := by
  rw [interAll_eq_filter hne hsets]
  exact (hsets _ (List.head_mem hne)).of_sublist List.filter_sublist

theorem classes_interAll : classes (interAll sets) = {c | ∀ set ∈ sets, c ∈ classes set} := by
  obtain ⟨set, rest, rfl⟩ := List.exists_cons_of_ne_nil hne
  obtain ⟨hset, hrest⟩ := List.forall_mem_cons.mp hsets
  have hhas {member} (hmember : member ∈ set) {other} (hother : other ∈ rest) :
      has other member = true ↔ member.toClass ∈ classes other :=
    has_iff (hrest other hother).of_mem_set (hset.of_mem_set member hmember)
  rw [interAll_cons]
  ext c
  refine Iff.trans ?_ List.forall_mem_cons.symm
  constructor
  · intro hc
    obtain ⟨member, hmember, rfl⟩ := List.mem_map.mp hc
    obtain ⟨hmember, hall⟩ := List.mem_filter.mp hmember
    refine ⟨List.mem_map_of_mem hmember, fun other hother => ?_⟩
    exact (hhas hmember hother).mp (List.all_eq_true.mp hall other hother)
  · rintro ⟨hc, hall⟩
    obtain ⟨member, hmember, rfl⟩ := List.mem_map.mp hc
    refine List.mem_map_of_mem (List.mem_filter.mpr ⟨hmember, List.all_eq_true.mpr ?_⟩)
    exact fun other hother => (hhas hmember hother).mpr (hall other hother)

theorem has_interAll_iff {value : Value} (hvalue : value.Distinct) :
    has (interAll sets) value = true ↔ ∀ set ∈ sets, has set value = true := by
  rw [has_iff (interAll_distinct hne hsets).of_mem_set hvalue, classes_interAll hne hsets]
  refine forall₂_congr fun set hset => ?_
  exact (has_iff (hsets set hset).of_mem_set hvalue).symm

end

/-- No builtin makes a set with a repetition. -/
theorem closed_distinct : Value.ClosedUnderBuiltins Value.Distinct where
  boolean := .boolean
  number := .number
  list_iff := Value.distinct_list_iff
  ofList := ofList_distinct
  unionAll := unionAll_distinct
  interAll := interAll_distinct

/-! ### Laws -/

/-- The lists have equal sets, in any order and any number of times. -/
def SameSets (sets others : List Members) : Prop :=
  (∀ set ∈ sets, ∃ other ∈ others, set.equal other = true) ∧
    ∀ other ∈ others, ∃ set ∈ sets, set.equal other = true

section

variable (hsets : ∀ set ∈ sets, (Value.set set).Distinct)
  (hothers : ∀ other ∈ others, (Value.set other).Distinct) (hsame : SameSets sets others)

include hsets hothers hsame

theorem classes_of_sameSets :
    (∀ set ∈ sets, ∃ other ∈ others, classes set = classes other) ∧
      ∀ other ∈ others, ∃ set ∈ sets, classes set = classes other := by
  refine ⟨fun set hset => ?_, fun other hother => ?_⟩
  · obtain ⟨other, hother, hequal⟩ := hsame.1 set hset
    exact ⟨other, hother, (equal_iff (hsets set hset) (hothers other hother)).mp hequal⟩
  · obtain ⟨set, hset, hequal⟩ := hsame.2 other hother
    exact ⟨set, hset, (equal_iff (hsets set hset) (hothers other hother)).mp hequal⟩

/-- Neither order nor repetition counts, nor which of equal sets are taken. -/
theorem unionAll_equal_of_sameSets : (unionAll sets).equal (unionAll others) = true := by
  obtain ⟨hclasses, hclasses'⟩ := classes_of_sameSets hsets hothers hsame
  rw [equal_iff (unionAll_distinct hsets) (unionAll_distinct hothers), classes_unionAll hsets,
    classes_unionAll hothers]
  ext c
  constructor
  · rintro ⟨set, hset, hc⟩
    obtain ⟨other, hother, heq⟩ := hclasses set hset
    exact ⟨other, hother, heq ▸ hc⟩
  · rintro ⟨other, hother, hc⟩
    obtain ⟨set, hset, heq⟩ := hclasses' other hother
    exact ⟨set, hset, heq ▸ hc⟩

theorem interAll_equal_of_sameSets (hne : sets ≠ []) (hne' : others ≠ []) :
    (interAll sets).equal (interAll others) = true := by
  obtain ⟨hclasses, hclasses'⟩ := classes_of_sameSets hsets hothers hsame
  rw [equal_iff (interAll_distinct hne hsets) (interAll_distinct hne' hothers),
    classes_interAll hne hsets, classes_interAll hne' hothers]
  ext c
  constructor
  · intro hall other hother
    obtain ⟨set, hset, heq⟩ := hclasses' other hother
    exact heq ▸ hall set hset
  · intro hall set hset
    obtain ⟨other, hother, heq⟩ := hclasses set hset
    exact heq ▸ hall other hother

end

section

variable (hgroups : ∀ group ∈ groups, ∀ set ∈ group, (Value.set set).Distinct)

include hgroups

theorem distinct_of_mem_flatten : ∀ set ∈ groups.flatten, (Value.set set).Distinct := by
  intro set hset
  obtain ⟨group, hgroup, hmem⟩ := List.mem_flatten.mp hset
  exact hgroups group hgroup set hmem

theorem unionAll_map_unionAll :
    (unionAll (groups.map unionAll)).equal (unionAll groups.flatten) = true := by
  have hunions : ∀ set ∈ groups.map unionAll, (Value.set set).Distinct :=
    List.forall_mem_map.mpr fun group hgroup => unionAll_distinct (hgroups group hgroup)
  have hflat := distinct_of_mem_flatten hgroups
  rw [equal_iff (unionAll_distinct hunions) (unionAll_distinct hflat), classes_unionAll hunions,
    classes_unionAll hflat]
  ext c
  constructor
  · rintro ⟨_, hmem, hc⟩
    obtain ⟨group, hgroup, rfl⟩ := List.mem_map.mp hmem
    rw [classes_unionAll (hgroups group hgroup)] at hc
    obtain ⟨set, hset, hc⟩ := hc
    exact ⟨set, List.mem_flatten_of_mem hgroup hset, hc⟩
  · rintro ⟨set, hset, hc⟩
    obtain ⟨group, hgroup, hset⟩ := List.mem_flatten.mp hset
    refine ⟨unionAll group, List.mem_map_of_mem hgroup, ?_⟩
    rw [classes_unionAll (hgroups group hgroup)]
    exact ⟨set, hset, hc⟩

theorem interAll_map_interAll (hne : groups ≠ []) (hne' : ∀ group ∈ groups, group ≠ []) :
    (interAll (groups.map interAll)).equal (interAll groups.flatten) = true := by
  have hinters : ∀ set ∈ groups.map interAll, (Value.set set).Distinct :=
    List.forall_mem_map.mpr fun group hgroup =>
      interAll_distinct (hne' group hgroup) (hgroups group hgroup)
  have hflat := distinct_of_mem_flatten hgroups
  have hneFlat : groups.flatten ≠ [] := by
    obtain ⟨group, hgroup⟩ := List.exists_mem_of_ne_nil groups hne
    exact fun hnil => hne' group hgroup (List.flatten_eq_nil_iff.mp hnil group hgroup)
  have hneMap : groups.map interAll ≠ [] := mt List.map_eq_nil_iff.mp hne
  rw [equal_iff (interAll_distinct hneMap hinters) (interAll_distinct hneFlat hflat),
    classes_interAll hneMap hinters, classes_interAll hneFlat hflat]
  ext c
  constructor
  · intro hall set hset
    obtain ⟨group, hgroup, hset⟩ := List.mem_flatten.mp hset
    have hc := hall (interAll group) (List.mem_map_of_mem hgroup)
    rw [classes_interAll (hne' group hgroup) (hgroups group hgroup)] at hc
    exact hc set hset
  · intro hall _ hmem
    obtain ⟨group, hgroup, rfl⟩ := List.mem_map.mp hmem
    rw [classes_interAll (hne' group hgroup) (hgroups group hgroup)]
    exact fun set hset => hall set (List.mem_flatten_of_mem hgroup hset)

end

section

variable (hset : (Value.set set).Distinct)

include hset

section

variable (hother : (Value.set other).Distinct)

include hother

theorem distinct_of_mem_pair : ∀ member ∈ [set, other], (Value.set member).Distinct :=
  List.forall_mem_cons.mpr ⟨hset, List.forall_mem_singleton.mpr hother⟩

theorem classes_unionAll_pair : classes (unionAll [set, other]) = classes set ∪ classes other := by
  rw [classes_unionAll (distinct_of_mem_pair hset hother)]
  ext c
  simp

theorem classes_interAll_pair : classes (interAll [set, other]) = classes set ∩ classes other := by
  rw [classes_interAll (List.cons_ne_nil _ _) (distinct_of_mem_pair hset hother)]
  ext c
  simp

theorem unionAll_pair_distinct : (Value.set (unionAll [set, other])).Distinct :=
  unionAll_distinct (distinct_of_mem_pair hset hother)

theorem interAll_pair_distinct : (Value.set (interAll [set, other])).Distinct :=
  interAll_distinct (List.cons_ne_nil _ _) (distinct_of_mem_pair hset hother)

end

variable (hsets : ∀ set ∈ sets, (Value.set set).Distinct)

include hsets

theorem unionAll_interAll_self : (unionAll [set, interAll (set :: sets)]).equal set = true := by
  have hall : ∀ member ∈ set :: sets, (Value.set member).Distinct :=
    List.forall_mem_cons.mpr ⟨hset, hsets⟩
  have hinter := interAll_distinct (List.cons_ne_nil set sets) hall
  rw [equal_iff (unionAll_pair_distinct hset hinter) hset, classes_unionAll_pair hset hinter,
    classes_interAll (List.cons_ne_nil set sets) hall, Set.union_eq_left]
  exact fun c hc => hc set List.mem_cons_self

theorem interAll_unionAll_self : (interAll [set, unionAll (set :: sets)]).equal set = true := by
  have hall : ∀ member ∈ set :: sets, (Value.set member).Distinct :=
    List.forall_mem_cons.mpr ⟨hset, hsets⟩
  have hunion := unionAll_distinct hall
  rw [equal_iff (interAll_pair_distinct hset hunion) hset, classes_interAll_pair hset hunion,
    classes_unionAll hall, Set.inter_eq_left]
  exact fun c hc => ⟨set, List.mem_cons_self, hc⟩

/-- Intersection distributes over union. -/
theorem interAll_unionAll :
    (interAll [set, unionAll sets]).equal
      (unionAll (sets.map fun other => interAll [set, other])) = true := by
  have hunion := unionAll_distinct hsets
  have hmap : ∀ member ∈ sets.map fun other => interAll [set, other],
      (Value.set member).Distinct :=
    List.forall_mem_map.mpr fun other hother => interAll_pair_distinct hset (hsets other hother)
  rw [equal_iff (interAll_pair_distinct hset hunion) (unionAll_distinct hmap),
    classes_interAll_pair hset hunion, classes_unionAll hsets, classes_unionAll hmap]
  ext c
  constructor
  · rintro ⟨hc, other, hother, hc'⟩
    refine ⟨_, List.mem_map_of_mem hother, ?_⟩
    rw [classes_interAll_pair hset (hsets other hother)]
    exact ⟨hc, hc'⟩
  · rintro ⟨_, hmem, hc⟩
    obtain ⟨other, hother, rfl⟩ := List.mem_map.mp hmem
    rw [classes_interAll_pair hset (hsets other hother)] at hc
    exact ⟨hc.1, other, hother, hc.2⟩

/-- Union distributes over intersection. -/
theorem unionAll_interAll (hne : sets ≠ []) :
    (unionAll [set, interAll sets]).equal
      (interAll (sets.map fun other => unionAll [set, other])) = true := by
  have hinter := interAll_distinct hne hsets
  have hneMap : (sets.map fun other => unionAll [set, other]) ≠ [] := mt List.map_eq_nil_iff.mp hne
  have hmap : ∀ member ∈ sets.map fun other => unionAll [set, other],
      (Value.set member).Distinct :=
    List.forall_mem_map.mpr fun other hother => unionAll_pair_distinct hset (hsets other hother)
  rw [equal_iff (unionAll_pair_distinct hset hinter) (interAll_distinct hneMap hmap),
    classes_unionAll_pair hset hinter, classes_interAll hne hsets, classes_interAll hneMap hmap]
  ext c
  constructor
  · intro hc _ hmem
    obtain ⟨other, hother, rfl⟩ := List.mem_map.mp hmem
    rw [classes_unionAll_pair hset (hsets other hother)]
    exact hc.imp_right fun hall => hall other hother
  · intro hall
    refine or_iff_not_imp_left.mpr fun hc other hother => ?_
    have hunion := hall _ (List.mem_map_of_mem hother)
    rw [classes_unionAll_pair hset (hsets other hother)] at hunion
    exact hunion.resolve_left hc

end

/-- **The algebra of sets.** The union of some sets lists what they hold in the order of first
appearance, and the intersection keeps the members of the first that all have. Up to equality
neither depends on the order, the repetition or the grouping of the sets, each absorbs the other,
and each distributes over the other. An argument that is no set is refused. -/
theorem union_inter_algebra (fresh : Nat) {sets : List Members} (hne : sets ≠ [])
    (hsets : ∀ set ∈ sets, (Value.set set).Distinct) :
    (union.result fresh (sets.map .set) = .ok (.set (unionAll sets)) ∧
      Firsts sets.flatten (unionAll sets) ∧
      ∀ value : Value, value.Distinct →
        (has (unionAll sets) value = true ↔ ∃ set ∈ sets, has set value = true)) ∧
    (inter.result fresh (sets.map .set) = .ok (.set (interAll sets)) ∧
      interAll sets = ((sets.head hne).filter fun member => sets.all (has · member)) ∧
      ∀ value : Value, value.Distinct →
        (has (interAll sets) value = true ↔ ∀ set ∈ sets, has set value = true)) ∧
    (∀ others : List Members, others ≠ [] → (∀ other ∈ others, (Value.set other).Distinct) →
      SameSets sets others →
        (unionAll sets).equal (unionAll others) = true ∧
        (interAll sets).equal (interAll others) = true) ∧
    (∀ groups : List (List Members), groups.flatten = sets → (∀ group ∈ groups, group ≠ []) →
      (unionAll (groups.map unionAll)).equal (unionAll sets) = true ∧
      (interAll (groups.map interAll)).equal (interAll sets) = true) ∧
    (∀ set : Members, (Value.set set).Distinct →
      (unionAll [set, interAll (set :: sets)]).equal set = true ∧
      (interAll [set, unionAll (set :: sets)]).equal set = true ∧
      (interAll [set, unionAll sets]).equal
        (unionAll (sets.map fun other => interAll [set, other])) = true ∧
      (unionAll [set, interAll sets]).equal
        (interAll (sets.map fun other => unionAll [set, other])) = true) ∧
    ∀ (function : Builtin) (args : List Value), function = union ∨ function = inter →
      (∃ arg ∈ args, arg.set? = none) →
        function.result fresh args = .error (.argumentKind function .setArguments) := by
  refine ⟨⟨?_, unionAll_firsts hsets, fun value => has_unionAll_iff hsets⟩,
    ⟨?_, interAll_eq_filter hne hsets, fun value => has_interAll_iff hne hsets⟩, ?_, ?_, ?_, ?_⟩
  · rw [result, someSets_map_set hne, Except.map]
  · rw [result, someSets_map_set hne, Except.map]
  · exact fun others hne' hothers hsame => ⟨unionAll_equal_of_sameSets hsets hothers hsame,
      interAll_equal_of_sameSets hsets hothers hsame hne hne'⟩
  · rintro groups rfl hne'
    have hgroups group (hgroup : group ∈ groups) set (hset : set ∈ group) :=
      hsets set (List.mem_flatten_of_mem hgroup hset)
    have hneGroups : groups ≠ [] := fun hnil => hne (by rw [hnil, List.flatten_nil])
    exact ⟨unionAll_map_unionAll hgroups, interAll_map_interAll hgroups hneGroups hne'⟩
  · exact fun set hset => ⟨unionAll_interAll_self hset hsets, interAll_unionAll_self hset hsets,
      interAll_unionAll hset hsets, unionAll_interAll hset hsets hne⟩
  · rintro function args (rfl | rfl) hother
    · rw [result, someSets_eq_error hother, Except.map]
    · rw [result, someSets_eq_error hother, Except.map]

/-- Two sets in either order, with other representatives of zero and the same object that is not a
number. -/
theorem union_inter_algebra_swapped :
    let first := ofList [.number (.zero false), .number (.nan 1), .list []]
    let second := ofList [.set (ofList [.builtin .head]), .number (.nan 1), .number (.zero true)]
    (unionAll [first, second]).equal (unionAll [second, first]) = true ∧
      (interAll [first, second]).equal (interAll [second, first]) = true := by
  intro first second
  have hfirst : (Value.set first).Distinct := ofList_distinct (by simp)
  have hsecond : (Value.set second).Distinct := ofList_distinct (by simp [ofList_distinct])
  obtain ⟨-, -, hsame, -⟩ := union_inter_algebra 1 (List.cons_ne_nil first [second])
    (distinct_of_mem_pair hfirst hsecond)
  refine hsame [second, first] (List.cons_ne_nil _ _) (distinct_of_mem_pair hsecond hfirst) ?_
  unfold SameSets
  decide +kernel

end SetLisp.Builtin
