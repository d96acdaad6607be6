import SetLisp.Env.Chain

namespace SetLisp

variable {name other bound : String} {value : Value}

namespace Frame

def without (frame : Frame) (name : String) : Frame :=
  frame.filter fun binding => binding.1 != name

variable {frame : Frame}

theorem without_cons_self (frame : Frame) (name : String) (value : Value) :
    without ((name, value) :: frame) name = frame.without name :=
  List.filter_cons_of_neg (by simp)

theorem without_cons_of_ne (hbound : bound ≠ name) :
    without ((bound, value) :: frame) name = (bound, value) :: frame.without name :=
  List.filter_cons_of_pos (bne_iff_ne.mpr hbound)

theorem find?_without (hother : other ≠ name) :
    (frame.without name).find? other = frame.find? other := by
  induction frame with
  | nil => rfl
  | cons binding rest ih =>
      obtain ⟨bound, value⟩ := binding
      by_cases hbound : bound = name
      · subst hbound
        rw [without_cons_self, ih, find?, if_neg hother.symm]
      · rw [without_cons_of_ne hbound, find?, find?, ih]

theorem without_define_self (frame : Frame) (name : String) (value : Value) :
    (frame.define name value).without name = frame.without name := by
  induction frame with
  | nil => exact without_cons_self [] name value
  | cons binding rest ih =>
      obtain ⟨bound, old⟩ := binding
      by_cases hbound : bound = name
      · subst hbound
        rw [define, if_pos rfl, without_cons_self, without_cons_self]
      · rw [define, if_neg hbound, without_cons_of_ne hbound, without_cons_of_ne hbound, ih]

theorem without_define_of_ne (hbound : bound ≠ name) :
    (frame.define bound value).without name = (frame.without name).define bound value := by
  induction frame with
  | nil => exact without_cons_of_ne hbound
  | cons binding rest ih =>
      obtain ⟨first, old⟩ := binding
      by_cases hfirst : first = name
      · subst hfirst
        rw [define, if_neg hbound.symm, without_cons_self, without_cons_self, ih]
      · rw [without_cons_of_ne hfirst, define, define]
        split
        · exact without_cons_of_ne hfirst
        · rw [without_cons_of_ne hfirst, ih]

end Frame

namespace Chain

def without (chain : Chain) (name : String) : Chain :=
  { own := chain.own.without name, outer := chain.outer.map (·.without name) }

/-- Binds the name in the frame that many frames behind the nearest. -/
def bindIn (chain : Chain) (depth : Nat) (name : String) (value : Value) : Chain :=
  match depth with
  | 0 => chain.define name value
  | depth + 1 => { chain with outer := chain.outer.modify depth (·.define name value) }

theorem frames_without (chain : Chain) (name : String) :
    (chain.without name).frames = chain.frames.map (·.without name) :=
  rfl

theorem lookup?_without (chain : Chain) (hother : other ≠ name) :
    (chain.without name).lookup? other = chain.lookup? other := by
  rw [lookup?, lookup?, frames_without, List.findSome?_map]
  exact congrArg (List.findSome? · chain.frames) (funext fun frame => Frame.find?_without hother)

theorem without_define_self (chain : Chain) (name : String) (value : Value) :
    (chain.define name value).without name = chain.without name := by
  rw [without, without, define, Frame.without_define_self]

theorem without_define_of_ne (chain : Chain) (hbound : bound ≠ name) (value : Value) :
    (chain.define bound value).without name = (chain.without name).define bound value := by
  rw [without, without, define, define, Frame.without_define_of_ne hbound]

theorem without_push (chain : Chain) (scope : Frame) (name : String) :
    (chain.push scope).without name = (chain.without name).push (scope.without name) :=
  rfl

theorem without_pop (chain : Chain) (name : String) :
    chain.pop.without name = (chain.without name).pop := by
  obtain ⟨own, outer⟩ := chain
  cases outer <;> rfl

theorem without_bindIn (chain : Chain) (depth : Nat) (name : String) (value : Value) :
    (chain.bindIn depth name value).without name = chain.without name := by
  cases depth with
  | zero => exact chain.without_define_self name value
  | succ depth =>
      have houter : (chain.outer.modify depth (·.define name value)).map (·.without name) =
          chain.outer.map (·.without name) := by
        refine List.ext_getElem? fun place => ?_
        rw [List.getElem?_map, List.getElem?_map, List.getElem?_modify]
        cases chain.outer[place]? with
        | none => rfl
        | some frame =>
            by_cases hplace : depth = place
            · simp [hplace, Frame.without_define_self]
            · simp [hplace]
      rw [without, without, bindIn, houter]

end Chain

end SetLisp
