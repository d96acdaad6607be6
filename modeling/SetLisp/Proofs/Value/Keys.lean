import SetLisp.Proofs.Value.Members

namespace SetLisp

namespace Key

variable {x y : Key} {xs ys : List Key}

theorem comparisons_eq_map : comparisons xs ys = xs.map fun x => ys.map x.equal := by
  induction xs with
  | nil => rfl
  | cons x xs ih => rw [comparisons, ih, List.map_cons]

theorem equal_set_iff :
    (set xs).equal (set ys) = true ↔
      (∀ x ∈ xs, ∃ y ∈ ys, x.equal y = true) ∧ ∀ y ∈ ys, ∃ x ∈ xs, x.equal y = true := by
  rw [equal, marksAll, comparisons_eq_map, Bool.and_eq_true]
  refine and_congr (by simp) ?_
  simp only [List.all_eq_true, List.mem_range, List.any_map, List.any_eq_true,
    Function.comp_apply, List.forall_mem_iff_forall_getElem]
  refine forall₂_congr fun column hcolumn => exists_congr fun x => and_congr_right fun _ => ?_
  simp [hcolumn]

theorem equal_of_equalItems {α : Type} {f g : α → Key} {items : List α}
    (h : equalItems (items.map f) (items.map g) = true) :
    ∀ item ∈ items, (f item).equal (g item) = true := by
  induction items with
  | nil => exact List.forall_mem_nil _
  | cons item items ih =>
      rw [List.map_cons, List.map_cons, equalItems, Bool.and_eq_true] at h
      exact List.forall_mem_cons.mpr ⟨h.1, ih h.2⟩

end Key

namespace Value

variable {x y : Value} {xs ys : List Value} {object : Object}

@[simp]
theorem keys_eq_map : keys xs = xs.map key := by
  induction xs with
  | nil => rfl
  | cons x xs ih => rw [keys, ih, List.map_cons]

theorem key_eq_object_iff : x.key = .object object ↔ x.object? = some object := by
  rcases x with _ | _ | _ | _ | _ | _ | _ | ⟨_, _ | _ | _ | _⟩ <;> simp [key, object?]

theorem equalItems_keys_iff (hitems : ∀ x ∈ xs, ∀ y, x.key.equal y.key = true ↔ x.Similar y) :
    Key.equalItems (xs.map key) (ys.map key) = true ↔ List.Forall₂ Similar xs ys := by
  induction xs generalizing ys with
  | nil => cases ys <;> simp [Key.equalItems]
  | cons x xs ih =>
      cases ys with
      | nil => simp [Key.equalItems]
      | cons y ys =>
          obtain ⟨hx, hxs⟩ := List.forall_mem_cons.mp hitems
          rw [List.map_cons, List.map_cons, Key.equalItems, Bool.and_eq_true, List.forall₂_cons,
            hx, ih hxs]

/-- **Keys are equal exactly when the values are similar.** -/
theorem key_equal_iff : x.key.equal y.key = true ↔ x.Similar y := by
  induction x using inductionOn generalizing y with
  | boolean truth =>
      rw [similar_boolean_iff]
      rcases y with _ | _ | _ | _ | _ | _ | _ | ⟨_, _ | _ | _ | _⟩ <;>
        simp [key, Key.equal, eq_comm (a := truth)]
  | number i =>
      rw [similar_number_iff]
      rcases y with _ | _ | _ | _ | _ | _ | _ | ⟨_, _ | _ | _ | _⟩ <;>
        simp [key, Key.equal, Double.same_iff]
  | list items ih =>
      rw [similar_list_iff]
      rcases y with _ | _ | _ | ys | _ | _ | _ | ⟨_, _ | _ | _ | _⟩ <;> simp [key, Key.equal]
      exact equalItems_keys_iff fun item hitem y => ih item hitem
  | set members ih =>
      rw [similar_set_iff]
      rcases y with _ | _ | _ | _ | ys | _ | _ | ⟨_, _ | _ | _ | _⟩
      case set =>
        simp only [key, keys_eq_map, Key.equal_set_iff, List.mem_map, forall_exists_index, and_imp,
          forall_apply_eq_imp_iff₂, exists_exists_and_eq_and, set.injEq, exists_eq_left']
        refine and_congr ?_ ?_
        · exact forall₂_congr fun x hx => exists_congr fun y => and_congr_right fun _ => ih x hx
        · exact forall₂_congr fun y _ => exists_congr fun x => and_congr_right fun hx => ih x hx
      all_goals simp [key, Key.equal]
  | object value object hvalue =>
      rw [similar_object_iff hvalue, key_eq_object_iff.mpr hvalue, ← key_eq_object_iff]
      cases y.key <;> simp [Key.equal, eq_comm (a := object)]

end Value

/-- **Membership is structural equality.** Keys agree exactly on similar values, similarity is an
equivalence, sameness decides it wherever sets hold nothing twice, and such sets are equal exactly
when their keys are. -/
theorem membership_is_similarity :
    (∀ x y : Value, x.key.equal y.key = true ↔ x.Similar y) ∧
    (∀ x : Value, x.Similar x) ∧
    (∀ x y : Value, x.Similar y → y.Similar x) ∧
    (∀ x y z : Value, x.Similar y → y.Similar z → x.Similar z) ∧
    (∀ x y : Value, x.Distinct → y.Distinct → (x.same y = true ↔ x.Similar y)) ∧
    ∀ first second : Members, (Value.set first).Distinct → (Value.set second).Distinct →
      (Members.equal first second = true ↔
        (Value.set first).key.equal (Value.set second).key = true) := by
  refine ⟨fun x y => Value.key_equal_iff, Value.Similar.refl, fun x y => Value.Similar.symm,
    fun x y z => Value.Similar.trans, fun x y => Value.same_iff_similar, ?_⟩
  intro first second hfirst hsecond
  rw [Members.equal, Value.same_iff_similar hfirst hsecond, Value.key_equal_iff]

/-- Sets of a truth value and a list with a set in it. Neither the signs of the zeros nor the orders
count, but which object it is that is not a number does. -/
theorem membership_is_similarity_nested :
    let nested (negative : Bool) (payload : Nat) := Value.list [.number (.zero negative),
      .set (Members.ofList [.builtin .head, .number (.nan payload)])]
    let first := Value.set (Members.ofList [nested false 1, .boolean true])
    let second := Value.set (Members.ofList [.boolean true, nested true 1])
    let third := Value.set (Members.ofList [nested false 2, .boolean true])
    first.Similar second ∧ ¬ first.Similar third := by
  intro nested first second third
  have hnested (negative : Bool) (payload : Nat) : (nested negative payload).Distinct := by
    simp [nested, Members.ofList_distinct]
  have hfirst : first.Distinct := Members.ofList_distinct (by simp [hnested])
  have hsecond : second.Distinct := Members.ofList_distinct (by simp [hnested])
  have hthird : third.Distinct := Members.ofList_distinct (by simp [hnested])
  obtain ⟨-, -, -, -, hsame, -⟩ := membership_is_similarity
  rw [← hsame first second hfirst hsecond, ← hsame first third hfirst hthird]
  decide +kernel

end SetLisp
