import SetLisp.Proofs.Eval.Outcome

namespace SetLisp.Eval

variable {α β : Type} {inv : Machine → Prop} {allowed : Halt → Prop}

/-- Whether an ending is a good value or an allowed halt. -/
def EndsWell (allowed : Halt → Prop) (good : α → Prop) : Except Halt α → Prop
  | .ok value => good value
  | .error halt => allowed halt

/-- From a machine with the invariant the action leaves one, and ends well. -/
def Keeps (inv : Machine → Prop) (allowed : Halt → Prop) (good : α → Prop) (action : Eval α) :
    Prop :=
  ∀ machine, inv machine →
    inv (action.outcome machine).2 ∧ EndsWell allowed good (action.outcome machine).1

namespace Keeps

theorem pure {good : α → Prop} {value : α} (hvalue : good value) :
    Keeps inv allowed good (Pure.pure value) := by
  intro machine hinv
  rw [outcome_pure]
  exact ⟨hinv, hvalue⟩

theorem throw {good : α → Prop} {halt : Halt} (hhalt : allowed halt) :
    Keeps inv allowed good (throw halt : Eval α) := by
  intro machine hinv
  rw [outcome_throw]
  exact ⟨hinv, hhalt⟩

theorem bind {found : α → Prop} {good : β → Prop} {action : Eval α} {next : α → Eval β}
    (haction : Keeps inv allowed found action)
    (hnext : ∀ value, found value → Keeps inv allowed good (next value)) :
    Keeps inv allowed good (action >>= next) := by
  intro machine hinv
  obtain ⟨hafter, hends⟩ := haction machine hinv
  rw [outcome_bind]
  rcases haction : action.outcome machine with ⟨halt | value, after⟩
  · rw [haction] at hafter hends
    exact ⟨hafter, hends⟩
  · rw [haction] at hafter hends
    exact hnext value hends after hafter

end Keeps

theorem keeps_lookup? {good : Value → Prop}
    (hfound : ∀ machine, inv machine → ∀ name value,
      machine.chain.lookup? name = some value → good value) (name : String) :
    Keeps inv allowed (fun found => ∀ value ∈ found, good value) (lookup? name) := by
  intro machine hinv
  rw [outcome_lookup?]
  exact ⟨hinv, hfound machine hinv name⟩

theorem keeps_define {name : String} {value : Value}
    (hdefine : ∀ machine, inv machine → inv (machine.define name value)) :
    Keeps inv allowed (fun _ => True) (define name value) := by
  intro machine hinv
  rw [outcome_define]
  exact ⟨hdefine machine hinv, trivial⟩

theorem keeps_write (hwrite : ∀ machine text, inv machine → inv (machine.write text))
    (text : String) : Keeps inv allowed (fun _ => True) (write text) := by
  intro machine hinv
  rw [outcome_write]
  exact ⟨hwrite machine text hinv, trivial⟩

theorem keeps_record (hrecord : ∀ machine entry, inv machine → inv (machine.record entry))
    (severity : Severity) (source : LogSource) (message : String) :
    Keeps inv allowed (fun _ => True) (record severity source message) := by
  intro machine hinv
  rw [outcome_record]
  exact ⟨hrecord machine _ hinv, trivial⟩

theorem keeps_debugging : Keeps inv allowed (fun _ => True) debugging := by
  intro machine hinv
  rw [outcome_debugging]
  exact ⟨hinv, trivial⟩

theorem keeps_fresh (hskip : ∀ machine count, inv machine → inv (machine.skip count)) :
    Keeps inv allowed (fun _ => True) fresh := by
  intro machine hinv
  rw [outcome_fresh]
  exact ⟨hskip machine 1 hinv, trivial⟩

theorem keeps_inScope {good : α → Prop} {scope : Frame} {action : Eval α}
    (henter : ∀ machine, inv machine → inv (machine.enter scope))
    (hleave : ∀ machine, inv machine → inv machine.leave)
    (haction : Keeps inv allowed good action) :
    Keeps inv allowed good (inScope scope action) := by
  intro machine hinv
  obtain ⟨hafter, hends⟩ := haction _ (henter machine hinv)
  rw [outcome_inScope]
  exact ⟨hleave _ hafter, hends⟩

theorem keeps_textOf {room : Nat} {value : Value} (hexhausted : allowed .exhausted)
    (hfault : value.textFault? room ≠ some .integerTooLarge) :
    Keeps inv allowed (fun text => text = value.text) (textOf room value) := by
  unfold textOf
  split
  · exact Keeps.pure rfl
  · exact Keeps.throw hexhausted
  · next hlarge => exact absurd hlarge hfault

theorem keeps_textsOf {room : Nat} {values : List Value} (hexhausted : allowed .exhausted)
    (hfault : ∀ value ∈ values, value.textFault? room ≠ some .integerTooLarge) :
    Keeps inv allowed (fun texts => texts = values.map Value.text) (textsOf room values) := by
  induction values with
  | nil => exact Keeps.pure rfl
  | cons value rest ih =>
      refine (keeps_textOf hexhausted (hfault value List.mem_cons_self)).bind fun text htext => ?_
      refine (ih fun other hother => hfault other (List.mem_cons_of_mem value hother)).bind
        fun texts htexts => Keeps.pure ?_
      rw [htext, htexts, List.map_cons]

theorem keeps_evaluateEach {good : Value → Prop} {evaluate : Value → Eval Value}
    {exprs : List Value} (heval : ∀ expr ∈ exprs, Keeps inv allowed good (evaluate expr)) :
    Keeps inv allowed (fun values => ∀ value ∈ values, good value)
      (evaluateEach evaluate exprs) := by
  induction exprs with
  | nil => exact Keeps.pure (by simp)
  | cons expr rest ih =>
      refine (heval expr List.mem_cons_self).bind fun value hvalue => ?_
      refine (ih fun other hother => heval other (List.mem_cons_of_mem expr hother)).bind
        fun values hvalues => Keeps.pure ?_
      rintro other (_ | ⟨_, hother⟩)
      · exact hvalue
      · exact hvalues other hother

end SetLisp.Eval
