import Mathlib.Data.List.Forall2
import Mathlib.Data.List.Perm.Subperm
import SetLisp.Value.Key
import SetLisp.Value.Members

/-!
# Structural equality

When two values count as one member of a set, told from their structure alone: truth values and
numbers by value, lists item by item, sets in any order, and all else as objects. This is an
equivalence on all values, and on values whose sets hold nothing twice it is what sameness decides.
-/

namespace SetLisp

namespace Double

variable {x y z : Double}

theorem equal_iff :
    x.equal y = true ↔ ∃ place, x.position? = some place ∧ y.position? = some place := by
  rw [equal, comparing]
  cases x.position? <;> cases y.position? <;> simp
  exact eq_comm

theorem equal_symm (h : x.equal y = true) : y.equal x = true := by
  obtain ⟨place, hx, hy⟩ := equal_iff.mp h
  exact equal_iff.mpr ⟨place, hy, hx⟩

theorem equal_trans (h : x.equal y = true) (h' : y.equal z = true) : x.equal z = true := by
  obtain ⟨place, hx, hy⟩ := equal_iff.mp h
  obtain ⟨place', hy', hz⟩ := equal_iff.mp h'
  obtain rfl : place = place' := Option.some.inj (hy.symm.trans hy')
  exact equal_iff.mpr ⟨place, hx, hz⟩

/-- The same are the one object and what is numerically equal. -/
theorem same_iff : x.same y = true ↔ x = y ∨ x.equal y = true := by
  cases x <;> cases y <;> simp [same, equal_iff, position?]
  case infinite.infinite | finite.finite => grind

end Double

namespace Value

/-- What passes from the items of a list and from the members of a set to the whole holds of every
value. -/
@[elab_as_elim]
theorem inductionOn {motive : Value → Prop} (value : Value)
    (boolean : ∀ truth, motive (boolean truth)) (number : ∀ x, motive (number x))
    (list : ∀ items, (∀ item ∈ items, motive item) → motive (list items))
    (set : ∀ members, (∀ member ∈ members, motive member) → motive (set members))
    (object : ∀ value object, value.object? = some object → motive value) : motive value := by
  match value with
  | .boolean truth => exact boolean truth
  | .number x => exact number x
  | .list items =>
      exact list items fun item _ => inductionOn item boolean number list set object
  | .set members =>
      exact set members fun member _ => inductionOn member boolean number list set object
  | .symbol _ | .builtin _ | .lambda .. | .foreign _ .nothing | .foreign _ (.integer _)
  | .foreign _ (.text _) | .foreign _ (.symbol _) => exact object _ _ rfl
termination_by sizeOf value

/-- Structural equality: lists are similar item by item, and sets when every member of each is
similar to some member of the other. -/
def Similar : Value → Value → Prop
  | boolean a, boolean b => a = b
  | number x, number y => x = y ∨ x.equal y = true
  | list xs, list ys =>
      xs.length = ys.length ∧
        ∀ (i : Nat) (_ : i < xs.length) (_ : i < ys.length), Similar xs[i] ys[i]
  | set xs, set ys =>
      (∀ x ∈ xs, ∃ y ∈ ys, Similar x y) ∧ ∀ y ∈ ys, ∃ x, ∃ _ : x ∈ xs, Similar x y
  | x, y => ∃ object, x.object? = some object ∧ y.object? = some object
termination_by x => sizeOf x
decreasing_by
  · have hsize := List.sizeOf_lt_of_mem (List.getElem_mem ‹i < xs.length›)
    rw [list.sizeOf_spec]
    omega
  all_goals
    have hsize := List.sizeOf_lt_of_mem ‹x ∈ xs›
    rw [set.sizeOf_spec]
    omega

variable {a b : Bool} {i j : Double} {x y z : Value} {xs ys : List Value} {object : Object}

theorem similar_boolean_iff : (boolean a).Similar y ↔ y = boolean a := by
  cases y <;> simp [Similar, object?, eq_comm]

theorem similar_number_iff :
    (number i).Similar y ↔ ∃ j, y = number j ∧ (i = j ∨ i.equal j = true) := by
  cases y <;> simp [Similar, object?]

theorem similar_list_iff :
    (list xs).Similar y ↔ ∃ ys, y = list ys ∧ List.Forall₂ Similar xs ys := by
  cases y <;> simp [Similar, object?, List.forall₂_iff_get]

theorem similar_set_iff :
    (set xs).Similar y ↔
      ∃ ys, y = set ys ∧ (∀ x ∈ xs, ∃ y ∈ ys, x.Similar y) ∧ ∀ y ∈ ys, ∃ x ∈ xs, x.Similar y := by
  cases y <;> simp [Similar, object?]

theorem similar_object_iff (hx : x.object? = some object) :
    x.Similar y ↔ y.object? = some object := by
  cases x <;> cases y <;> simp_all [Similar, object?]

theorem Similar.refl (x : Value) : x.Similar x := by
  induction x using inductionOn with
  | boolean truth => exact similar_boolean_iff.mpr rfl
  | number i => exact similar_number_iff.mpr ⟨i, rfl, .inl rfl⟩
  | list items ih => exact similar_list_iff.mpr ⟨items, rfl, List.forall₂_same.mpr ih⟩
  | set members ih =>
      exact similar_set_iff.mpr
        ⟨members, rfl, fun x hx => ⟨x, hx, ih x hx⟩, fun y hy => ⟨y, hy, ih y hy⟩⟩
  | object value object hvalue => exact (similar_object_iff hvalue).mpr hvalue

theorem Similar.symm (h : x.Similar y) : y.Similar x := by
  induction x using inductionOn generalizing y with
  | boolean truth =>
      obtain rfl := similar_boolean_iff.mp h
      exact h
  | number i =>
      obtain ⟨j, rfl, hnumber⟩ := similar_number_iff.mp h
      exact similar_number_iff.mpr ⟨i, rfl, hnumber.imp Eq.symm Double.equal_symm⟩
  | list items ih =>
      obtain ⟨ys, rfl, hitems⟩ := similar_list_iff.mp h
      refine similar_list_iff.mpr ⟨items, rfl, ?_⟩
      rw [List.forall₂_iff_get] at hitems ⊢
      obtain ⟨hlength, hget⟩ := hitems
      exact ⟨hlength.symm, fun i hy hx => ih _ (List.get_mem items ⟨i, hx⟩) (hget i hx hy)⟩
  | set members ih =>
      obtain ⟨ys, rfl, hfirst, hsecond⟩ := similar_set_iff.mp h
      refine similar_set_iff.mpr ⟨members, rfl, fun y hy => ?_, fun x hx => ?_⟩
      · obtain ⟨x, hx, hsimilar⟩ := hsecond y hy
        exact ⟨x, hx, ih x hx hsimilar⟩
      · obtain ⟨y, hy, hsimilar⟩ := hfirst x hx
        exact ⟨y, hy, ih x hx hsimilar⟩
  | object value object hvalue =>
      exact (similar_object_iff ((similar_object_iff hvalue).mp h)).mpr hvalue

theorem Similar.trans (h : x.Similar y) (h' : y.Similar z) : x.Similar z := by
  induction x using inductionOn generalizing y z with
  | boolean truth =>
      obtain rfl := similar_boolean_iff.mp h
      exact h'
  | number i =>
      obtain ⟨j, rfl, hij⟩ := similar_number_iff.mp h
      obtain ⟨k, rfl, hjk⟩ := similar_number_iff.mp h'
      refine similar_number_iff.mpr ⟨k, rfl, ?_⟩
      rcases hij with rfl | hij
      · exact hjk
      · rcases hjk with rfl | hjk
        · exact .inr hij
        · exact .inr (Double.equal_trans hij hjk)
  | list items ih =>
      obtain ⟨ys, rfl, hxy⟩ := similar_list_iff.mp h
      obtain ⟨zs, rfl, hyz⟩ := similar_list_iff.mp h'
      refine similar_list_iff.mpr ⟨zs, rfl, ?_⟩
      rw [List.forall₂_iff_get] at hxy hyz ⊢
      obtain ⟨hlength, hget⟩ := hxy
      obtain ⟨hlength', hget'⟩ := hyz
      refine ⟨hlength.trans hlength', fun i hx hz => ?_⟩
      have hy : i < ys.length := hlength ▸ hx
      exact ih _ (List.get_mem items ⟨i, hx⟩) (hget i hx hy) (hget' i hy hz)
  | set members ih =>
      obtain ⟨ys, rfl, hxy, hyx⟩ := similar_set_iff.mp h
      obtain ⟨zs, rfl, hyz, hzy⟩ := similar_set_iff.mp h'
      refine similar_set_iff.mpr ⟨zs, rfl, fun x hx => ?_, fun z hz => ?_⟩
      · obtain ⟨y, hy, hsimilar⟩ := hxy x hx
        obtain ⟨z, hz, hsimilar'⟩ := hyz y hy
        exact ⟨z, hz, ih x hx hsimilar hsimilar'⟩
      · obtain ⟨y, hy, hsimilar'⟩ := hzy z hz
        obtain ⟨x, hx, hsimilar⟩ := hyx y hy
        exact ⟨x, hx, ih x hx hsimilar hsimilar'⟩
  | object value object hvalue =>
      rw [similar_object_iff hvalue] at h ⊢
      exact (similar_object_iff h).mp h'

theorem similar_equivalence : Equivalence Similar :=
  ⟨Similar.refl, Similar.symm, Similar.trans⟩

def similarity : Setoid Value :=
  ⟨Similar, similar_equivalence⟩

/-- What similar values have in common. -/
abbrev Class := Quotient similarity

def toClass (value : Value) : Class :=
  Quotient.mk similarity value

theorem toClass_eq_iff : x.toClass = y.toClass ↔ x.Similar y :=
  ⟨Quotient.exact, Quotient.sound (s := similarity)⟩

/-- No set in the value holds two similar members. -/
inductive Distinct : Value → Prop
  | boolean (value : Bool) : Distinct (.boolean value)
  | number (value : Double) : Distinct (.number value)
  | list {items : List Value} (hitems : ∀ item ∈ items, Distinct item) : Distinct (.list items)
  | set {members : List Value} (hmembers : ∀ member ∈ members, Distinct member)
      (hpairwise : members.Pairwise fun x y => ¬ x.Similar y) : Distinct (.set members)
  | object {value : Value} {object : Object} (hvalue : value.object? = some object) :
      Distinct value

attribute [simp] Distinct.boolean Distinct.number

@[simp]
theorem distinct_builtin (function : Builtin) : (builtin function).Distinct :=
  .object rfl

@[simp]
theorem distinct_lambda (id : Nat) (parameters : List String) (body : Value) :
    (lambda id parameters body).Distinct :=
  .object rfl

@[simp]
theorem distinct_list_iff : (list xs).Distinct ↔ ∀ item ∈ xs, item.Distinct := by
  refine ⟨fun h => ?_, .list⟩
  cases h with
  | list hitems => exact hitems
  | object hvalue => cases hvalue

theorem distinct_set_iff :
    (set xs).Distinct ↔
      (∀ member ∈ xs, member.Distinct) ∧ xs.Pairwise fun x y => ¬ x.Similar y := by
  refine ⟨fun h => ?_, fun ⟨hmembers, hpairwise⟩ => .set hmembers hpairwise⟩
  cases h with
  | set hmembers hpairwise => exact ⟨hmembers, hpairwise⟩
  | object hvalue => cases hvalue

theorem Distinct.of_mem_set (h : (Value.set xs).Distinct) : ∀ member ∈ xs, member.Distinct :=
  (distinct_set_iff.mp h).1

theorem Distinct.pairwise_of_set (h : (Value.set xs).Distinct) :
    xs.Pairwise fun x y => ¬ x.Similar y :=
  (distinct_set_iff.mp h).2

theorem Distinct.of_sublist (h : (Value.set xs).Distinct) (hsublist : ys.Sublist xs) :
    (Value.set ys).Distinct :=
  .set (fun member hmember => h.of_mem_set member (hsublist.subset hmember))
    (h.pairwise_of_set.sublist hsublist)

theorem nodup_map_toClass (hpairwise : xs.Pairwise fun x y => ¬ x.Similar y) :
    (xs.map toClass).Nodup :=
  List.pairwise_map.mpr (hpairwise.imp fun hne => by rwa [ne_eq, toClass_eq_iff])

theorem map_toClass_subset_iff :
    xs.map toClass ⊆ ys.map toClass ↔ ∀ x ∈ xs, ∃ y ∈ ys, x.Similar y := by
  constructor
  · intro hsubset x hx
    obtain ⟨y, hy, hclass⟩ := List.mem_map.mp (hsubset (List.mem_map_of_mem hx))
    exact ⟨y, hy, (toClass_eq_iff.mp hclass).symm⟩
  · intro hsimilar c hc
    obtain ⟨x, hx, rfl⟩ := List.mem_map.mp hc
    obtain ⟨y, hy, hxy⟩ := hsimilar x hx
    exact List.mem_map.mpr ⟨y, hy, toClass_eq_iff.mpr hxy.symm⟩

theorem similar_sets_iff :
    (set xs).Similar (set ys) ↔
      xs.map toClass ⊆ ys.map toClass ∧ ys.map toClass ⊆ xs.map toClass := by
  rw [similar_set_iff, map_toClass_subset_iff, map_toClass_subset_iff]
  constructor
  · rintro ⟨_, ⟨⟩, hxy, hyx⟩
    refine ⟨hxy, fun y hy => ?_⟩
    obtain ⟨x, hx, hsimilar⟩ := hyx y hy
    exact ⟨x, hx, hsimilar.symm⟩
  · rintro ⟨hxy, hyx⟩
    refine ⟨ys, rfl, hxy, fun y hy => ?_⟩
    obtain ⟨x, hx, hsimilar⟩ := hyx y hy
    exact ⟨x, hx, hsimilar.symm⟩

/-- Of two lists of members without repetition, one size and one inclusion are enough. -/
theorem similar_sets_iff_of_pairwise (hxs : xs.Pairwise fun x y => ¬ x.Similar y)
    (hys : ys.Pairwise fun x y => ¬ x.Similar y) :
    (set xs).Similar (set ys) ↔
      xs.length = ys.length ∧ xs.map toClass ⊆ ys.map toClass := by
  replace hxs := nodup_map_toClass hxs
  replace hys := nodup_map_toClass hys
  have hlengths : xs.length = ys.length ↔ (xs.map toClass).length = (ys.map toClass).length := by
    rw [List.length_map, List.length_map]
  rw [similar_sets_iff, hlengths]
  constructor
  · rintro ⟨hxy, hyx⟩
    exact ⟨((List.perm_ext_iff_of_nodup hxs hys).mpr fun c => ⟨@hxy c, @hyx c⟩).length_eq, hxy⟩
  · rintro ⟨hlength, hxy⟩
    have hperm := (List.subperm_of_subset hxs hxy).perm_of_length_le (Nat.le_of_eq hlength.symm)
    exact ⟨hxy, hperm.symm.subset⟩

/-! ### Sameness -/

theorem sameItems_iff (hsame : ∀ x ∈ xs, ∀ y ∈ ys, x.same y = true ↔ x.Similar y) :
    sameItems xs ys = true ↔ List.Forall₂ Similar xs ys := by
  induction xs generalizing ys with
  | nil => cases ys <;> simp [sameItems]
  | cons x xs ih =>
      cases ys with
      | nil => simp [sameItems]
      | cons y ys =>
          rw [sameItems, Bool.and_eq_true, List.forall₂_cons, hsame x List.mem_cons_self y
            List.mem_cons_self, ih fun u hu v hv => hsame u (List.mem_cons_of_mem x hu) v
            (List.mem_cons_of_mem y hv)]

theorem eachIn_iff :
    eachIn xs ys = true ↔ ∀ x ∈ xs, ∃ y ∈ ys, x.same y = true := by
  induction xs with
  | nil => simp [eachIn]
  | cons x xs ih => simp [eachIn, ih]

theorem same_object_iff (hx : x.object? = some object) :
    x.same y = true ↔ y.object? = some object := by
  rw [← hx, eq_comm (b := x.object?)]
  rcases x with _ | _ | name | _ | _ | function | ⟨id, parameters, body⟩ | ⟨id, _ | _ | _ | _⟩ <;>
    rcases y with _ | _ | name' | _ | _ | function' | ⟨id', parameters', body'⟩ |
      ⟨id', _ | _ | _ | _⟩ <;>
    cases hx <;> simp [same, object?]

/-- **Sameness is structural equality** on values without repetition. -/
theorem same_iff_similar (hx : x.Distinct) (hy : y.Distinct) : x.same y = true ↔ x.Similar y := by
  induction x using inductionOn generalizing y with
  | boolean truth =>
      rw [similar_boolean_iff]
      cases y <;> simp [same]
      exact eq_comm
  | number i =>
      rw [similar_number_iff]
      cases y <;> simp [same, Double.same_iff]
  | list items ih =>
      rw [similar_list_iff]
      cases y <;> simp [same]
      case list ys =>
        rw [distinct_list_iff] at hx hy
        exact sameItems_iff fun u hu v hv => ih u hu (hx u hu) (hy v hv)
  | set members ih =>
      cases y
      case set ys =>
        have hsame : eachIn members ys = true ↔ ∀ x ∈ members, ∃ y ∈ ys, x.Similar y := by
          rw [eachIn_iff]
          refine forall₂_congr fun u hu => exists_congr fun v => and_congr_right fun hv => ?_
          exact ih u hu (hx.of_mem_set u hu) (hy.of_mem_set v hv)
        rw [same, Bool.and_eq_true, beq_iff_eq, hsame, ← map_toClass_subset_iff,
          similar_sets_iff_of_pairwise hx.pairwise_of_set hy.pairwise_of_set]
      all_goals simp [same, similar_set_iff]
  | object value object hvalue => rw [same_object_iff hvalue, similar_object_iff hvalue]

end Value

end SetLisp
