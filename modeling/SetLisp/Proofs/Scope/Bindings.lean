import Mathlib.Data.List.Induction
import Mathlib.Data.List.Nodup
import SetLisp.Proofs.Scope.Table

namespace SetLisp

/-- The value that the bindings give to the name last. -/
def lastValue? (bindings : List (String × Value)) (name : String) : Option Value :=
  (bindings.reverse.find? fun binding => binding.1 = name).map (·.2)

theorem lastValue?_concat (bindings : List (String × Value)) (last : String × Value)
    (name : String) :
    lastValue? (bindings ++ [last]) name =
      if last.1 = name then some last.2 else lastValue? bindings name := by
  rw [lastValue?, List.reverse_concat, List.find?_cons]
  by_cases hname : last.1 = name <;> simp [hname, lastValue?]

theorem lastValue?_append (bindings more : List (String × Value)) (name : String) :
    lastValue? (bindings ++ more) name =
      (lastValue? more name).or (lastValue? bindings name) := by
  rw [lastValue?, List.reverse_append, List.find?_append, Option.map_or]
  rfl

theorem isSome_lastValue? (bindings : List (String × Value)) (name : String) :
    (lastValue? bindings name).isSome = decide (name ∈ bindings.map Prod.fst) := by
  rw [lastValue?, Option.isSome_map, Bool.eq_iff_iff, List.find?_isSome, decide_eq_true_iff]
  simp

namespace Frame

theorem update_concat (frame : Frame) (bindings : List (String × Value))
    (last : String × Value) :
    frame.update (bindings ++ [last]) = (frame.update bindings).define last.1 last.2 := by
  rw [update, List.foldl_append]
  rfl

theorem update_append (frame : Frame) (bindings more : List (String × Value)) :
    frame.update (bindings ++ more) = (frame.update bindings).update more :=
  List.foldl_append

/-- A frame that starts empty binds each name to its last value. -/
theorem find?_update_nil (bindings : List (String × Value)) (name : String) :
    (update [] bindings).find? name = lastValue? bindings name := by
  induction bindings using List.reverseRecOn with
  | nil => rfl
  | append_singleton bindings last ih =>
      rw [update_concat, find?_define, lastValue?_concat, ih]

theorem binds_update_nil (bindings : List (String × Value)) (name : String) :
    binds (update [] bindings) name = decide (name ∈ bindings.map Prod.fst) := by
  rw [binds, find?_update_nil, isSome_lastValue?]

theorem names_define (frame : Frame) (name : String) (value : Value) :
    (frame.define name value).names =
      if name ∈ frame.names then frame.names else frame.names ++ [name] := by
  induction frame with
  | nil => rfl
  | cons binding rest ih =>
      obtain ⟨bound, old⟩ := binding
      have hnames (frame : Frame) (value : Value) : names ((bound, value) :: frame) =
          bound :: names frame := rfl
      rw [define, hnames]
      split
      · next hbound => rw [hnames, if_pos (hbound ▸ List.mem_cons_self)]
      · next hbound =>
          rw [hnames, ih]
          by_cases hmem : name ∈ names rest
          · rw [if_pos hmem, if_pos (List.mem_cons_of_mem bound hmem)]
          · have hnone : name ∉ bound :: names rest :=
              List.not_mem_cons_of_ne_of_not_mem (Ne.symm hbound) hmem
            rw [if_neg hmem, if_neg hnone, List.cons_append]

theorem names_update_nil (bindings : List (String × Value)) :
    (update [] bindings).names = (bindings.map Prod.fst).eraseDups := by
  induction bindings using List.reverseRecOn with
  | nil => rfl
  | append_singleton bindings last ih =>
      rw [update_concat, names_define, ih, List.map_append, List.eraseDups_append]
      by_cases hmem : last.1 ∈ bindings.map Prod.fst
      · rw [if_pos (List.mem_eraseDups.mpr hmem)]
        simp [List.removeAll, hmem]
      · rw [if_neg (mt List.mem_eraseDups.mp hmem)]
        simp [List.removeAll, hmem, List.eraseDups_cons]

theorem nodup_names_update_nil (bindings : List (String × Value)) :
    (update [] bindings).names.Nodup := by
  induction bindings using List.reverseRecOn with
  | nil => exact List.nodup_nil
  | append_singleton bindings last ih =>
      rw [update_concat, names_define]
      split
      · exact ih
      · next hmem => exact List.concat_eq_append ▸ ih.concat hmem

/-- Names and values of a frame that lists no name twice. -/
theorem eq_filterMap_names {frame : Frame} (h : frame.names.Nodup) :
    frame = frame.names.filterMap fun name => (frame.find? name).map (name, ·) := by
  induction frame with
  | nil => rfl
  | cons binding rest ih =>
      obtain ⟨bound, value⟩ := binding
      obtain ⟨hbound, hrest⟩ := List.nodup_cons.mp h
      have hbehind : ∀ name ∈ names rest,
          find? ((bound, value) :: rest) name = find? rest name := by
        intro name hname
        rw [find?, if_neg]
        rintro rfl
        exact hbound hname
      have htail : names rest = rest.map (·.1) := rfl
      rw [names, List.map_cons, List.filterMap_cons, find?, if_pos rfl, ← htail]
      refine congrArg ((bound, value) :: ·) ((ih hrest).trans ?_)
      exact List.filterMap_congr fun name hname => by rw [hbehind name hname]

/-- The names in the order in which they came, each with its last value. -/
theorem update_nil_eq (bindings : List (String × Value)) :
    update [] bindings = (bindings.map Prod.fst).eraseDups.filterMap fun name =>
      (lastValue? bindings name).map (name, ·) := by
  refine (eq_filterMap_names (nodup_names_update_nil bindings)).trans ?_
  rw [names_update_nil]
  exact List.filterMap_congr fun name _ => by rw [find?_update_nil]

end Frame

end SetLisp
