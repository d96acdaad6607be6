import SetLisp.Env.Chain

namespace SetLisp

namespace Frame

theorem find?_define (frame : Frame) (name other : String) (value : Value) :
    (frame.define name value).find? other =
      if name = other then some value else frame.find? other := by
  induction frame with
  | nil => rfl
  | cons binding rest ih =>
      obtain ⟨bound, old⟩ := binding
      by_cases hbound : bound = name
      · subst hbound
        by_cases hother : bound = other <;> simp [define, find?, hother]
      · by_cases hother : bound = other
        · subst hother
          simp [define, find?, hbound, Ne.symm hbound]
        · simp [define, find?, hbound, hother, ih]

theorem mem_of_find? {frame : Frame} {name : String} {value : Value}
    (h : frame.find? name = some value) : (name, value) ∈ frame := by
  induction frame with
  | nil => cases h
  | cons binding rest ih =>
      rw [find?] at h
      split at h
      · next hbound =>
          cases h
          exact hbound ▸ List.mem_cons_self
      · exact List.mem_cons_of_mem binding (ih h)

theorem mem_define {frame : Frame} {name : String} {value : Value} {binding : String × Value}
    (h : binding ∈ frame.define name value) : binding ∈ frame ∨ binding = (name, value) := by
  induction frame with
  | nil => exact .inr (List.mem_singleton.mp h)
  | cons first rest ih =>
      rw [define] at h
      split at h
      · next hbound =>
          rcases List.mem_cons.mp h with rfl | hrest
          · exact .inr (hbound ▸ rfl)
          · exact .inl (List.mem_cons_of_mem first hrest)
      · rcases List.mem_cons.mp h with rfl | hrest
        · exact .inl List.mem_cons_self
        · exact (ih hrest).imp_left (List.mem_cons_of_mem first)

theorem mem_update {frame : Frame} {bindings : List (String × Value)} {binding : String × Value}
    (h : binding ∈ frame.update bindings) : binding ∈ frame ∨ binding ∈ bindings := by
  induction bindings generalizing frame with
  | nil => exact .inl h
  | cons first rest ih =>
      rcases ih h with hdefine | hrest
      · rcases mem_define hdefine with hold | rfl
        · exact .inl hold
        · exact .inr List.mem_cons_self
      · exact .inr (List.mem_cons_of_mem first hrest)

/-- The second frame with the bindings of the first written over it. -/
def overlay (front back : Frame) : Frame :=
  front.foldr (fun binding table => table.define binding.1 binding.2) back

theorem find?_overlay (front back : Frame) (name : String) :
    (front.overlay back).find? name = (front.find? name).or (back.find? name) := by
  induction front with
  | nil => rfl
  | cons binding rest ih =>
      have hcons : overlay (binding :: rest) back =
          (overlay rest back).define binding.1 binding.2 := rfl
      rw [hcons, find?_define, ih]
      by_cases hbound : binding.1 = name <;> simp [find?, hbound]

end Frame

namespace Chain

/-- One table of all the chain shows. -/
def flatten (chain : Chain) : Frame :=
  chain.frames.foldr Frame.overlay []

theorem find?_foldr_overlay (frames : List Frame) (name : String) :
    (frames.foldr Frame.overlay []).find? name = frames.findSome? (·.find? name) := by
  induction frames with
  | nil => rfl
  | cons frame rest ih =>
      rw [List.foldr_cons, Frame.find?_overlay, ih, List.findSome?_cons]
      cases frame.find? name <;> rfl

theorem find?_flatten (chain : Chain) (name : String) :
    chain.flatten.find? name = chain.lookup? name :=
  find?_foldr_overlay chain.frames name

theorem lookup?_push (chain : Chain) (scope : Frame) (name : String) :
    (chain.push scope).lookup? name = (scope.find? name).or (chain.lookup? name) := by
  have hframes : (chain.push scope).frames = scope :: chain.frames := rfl
  rw [lookup?, hframes, List.findSome?_cons]
  cases scope.find? name <;> rfl

theorem lookup?_define (chain : Chain) (name other : String) (value : Value) :
    (chain.define name value).lookup? other =
      if name = other then some value else chain.lookup? other := by
  have hframes : (chain.define name value).frames = chain.own.define name value :: chain.outer :=
    rfl
  rw [lookup?, hframes, List.findSome?_cons, Frame.find?_define]
  by_cases hname : name = other
  · simp [hname]
  · simp [hname, lookup?, frames, List.findSome?_cons]

/-- A chain of one table shows what the table binds. -/
theorem lookup?_singleton (table : Frame) (name : String) :
    lookup? { own := table } name = table.find? name := by
  rw [lookup?, frames, List.findSome?_cons]
  cases table.find? name <;> rfl

end Chain

end SetLisp
