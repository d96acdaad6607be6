import Mathlib.Data.List.Find
import SetLisp.Proofs.Scope.History

/-!
# Frames as layers

A tree of frames shows what its history says and nothing else. A name means in a frame what was last
bound to it in the nearest frame, going outward, in which it was ever bound. What is bound in a
frame shows at once in the frames above it up to those that bind the name themselves, and nowhere
else. A frame lists the names bound in it in the order in which they came, with their last values.
-/

namespace SetLisp

namespace Tree

namespace History

variable {count : Nat}

theorem find?_tree (history : History count) (id : Nat) (name : String) :
    history.tree.find? id name =
      (history.chain id).find? fun frame => history.Binds frame name := by
  have hbinds : ((fun entry : Nat × Frame => entry.2.binds name) ∘
      fun frame => (frame, history.table frame)) = fun frame => decide (history.Binds frame name) :=
    funext fun frame => Frame.binds_update_nil (history.bindings frame) name
  rw [Tree.find?, history.laid, List.find?_map, hbinds, Option.map_map]
  exact congrFun Option.map_id _

theorem lookup?_tree (history : History count) (id : Nat) (name : String) :
    history.tree.lookup? id name =
      (history.tree.find? id name).bind fun found =>
        lastValue? (history.bindings found) name := by
  refine congrArg _ (funext fun found => ?_)
  rw [history.laid.frame_eq, table, Frame.find?_update_nil]

theorem isSome_lastValue?_bindings (history : History count) (id : Nat) (name : String) :
    (lastValue? (history.bindings id) name).isSome = decide (history.Binds id name) :=
  isSome_lastValue? (history.bindings id) name

/-- A frame that is found has a value for the name. -/
theorem isSome_lookup? (history : History count) (id : Nat) (name : String) :
    (history.tree.lookup? id name).isSome = (history.tree.find? id name).isSome := by
  rw [lookup?_tree]
  cases hfound : history.tree.find? id name with
  | none => rfl
  | some found =>
      rw [find?_tree] at hfound
      have hbinds := List.find?_some hfound
      rw [Option.bind_some, isSome_lastValue?_bindings]
      exact hbinds

/-- The chain of tables in which code is evaluated shows the same. -/
theorem lookup?_chain (history : History count) {id : Nat} (hid : id < count) (name : String) :
    (history.tree.chain id).lookup? name = history.tree.lookup? id name := by
  have hframes : (history.tree.chain id).frames = (history.chain id).map history.table := by
    rw [Chain.frames, Tree.chain, history.laid.frame_eq, history.laid, List.map_tail,
      List.map_map, history.chain_of_lt hid]
    rfl
  rw [Chain.lookup?, hframes, lookup?_tree, find?_tree]
  induction history.chain id with
  | nil => rfl
  | cons frame farther ih =>
      rw [List.map_cons, List.findSome?_cons, List.find?_cons, ih, table, Frame.find?_update_nil]
      rw [← isSome_lastValue?_bindings]
      cases hlast : lastValue? (history.bindings frame) name with
      | none => rfl
      | some value => rw [Option.isSome_some, Option.bind_some, hlast]

/-- What is bound to the name in the target shows in the frame: the target is on its chain, and no
nearer frame binds the name. -/
def Shows (history : History count) (id target : Nat) (name : String) : Prop :=
  ∃ nearer farther, history.chain id = nearer ++ target :: farther ∧
    ∀ frame ∈ nearer, ¬ history.Binds frame name

theorem shows_of_find? {history : History count} {id found : Nat} {name : String}
    (h : history.tree.find? id name = some found) : history.Shows id found name := by
  rw [find?_tree, List.find?_eq_some_iff_append] at h
  obtain ⟨-, nearer, farther, hchain, hnearer⟩ := h
  exact ⟨nearer, farther, hchain, fun frame hframe => by simpa using hnearer frame hframe⟩

section Write

variable {history next : History count} {target : Fin count} {more : List (String × Value)}
  (hwrites : history.Writes target more next) {id : Nat} {name : String}

include hwrites

theorem Writes.binds_iff_of_ne {other : Nat} (hne : other ≠ target) :
    next.Binds other name ↔ history.Binds other name := by
  rw [Binds, hwrites.bindings_eq, if_neg hne, List.append_nil, Binds]

theorem Writes.binds_iff_of_none (hnone : lastValue? more name = none) (other : Nat) :
    next.Binds other name ↔ history.Binds other name := by
  have habsent : name ∉ more.map Prod.fst := by
    have hvalue := isSome_lastValue? more name
    rw [hnone] at hvalue
    exact of_decide_eq_false hvalue.symm
  rw [Binds, hwrites.bindings_eq, List.map_append, List.mem_append, Binds]
  split
  · exact or_iff_left habsent
  · exact or_iff_left List.not_mem_nil

/-- A write shows at once. -/
theorem Writes.shows {value : Value} (hshows : history.Shows id target name)
    (hvalue : lastValue? more name = some value) :
    next.tree.find? id name = some target.val ∧ next.tree.lookup? id name = some value := by
  obtain ⟨nearer, farther, hchain, hnearer⟩ := hshows
  have hlast : lastValue? (next.bindings target) name = some value := by
    rw [hwrites.bindings_eq, if_pos rfl, lastValue?_append, hvalue, Option.some_or]
  have hbinds : next.Binds target name := by
    have hsome := next.isSome_lastValue?_bindings target name
    rw [hlast] at hsome
    exact of_decide_eq_true hsome.symm
  have hpairwise := history.pairwise_chain id
  rw [hchain] at hpairwise
  have hfind : next.tree.find? id name = some target.val := by
    rw [find?_tree, hwrites.chain_eq, List.find?_eq_some_iff_append]
    refine ⟨decide_eq_true hbinds, nearer, farther, hchain, fun frame hframe => ?_⟩
    have hne : frame ≠ target := Nat.ne_of_gt
      ((List.pairwise_append.mp hpairwise).2.2 frame hframe target List.mem_cons_self)
    simpa [hwrites.binds_iff_of_ne hne] using hnearer frame hframe
  exact ⟨hfind, by rw [lookup?_tree, hfind, Option.bind_some, hlast]⟩

/-- A write to another name, or one that does not show, leaves what is found. -/
theorem Writes.find?_of_hidden
    (hhidden : ¬ history.Shows id target name ∨ lastValue? more name = none) :
    next.tree.find? id name = history.tree.find? id name := by
  have hsame {frames : List Nat}
      (hframes : ∀ frame ∈ frames, next.Binds frame name ↔ history.Binds frame name) :
      frames.find? (fun frame => decide (next.Binds frame name)) =
        frames.find? fun frame => decide (history.Binds frame name) :=
    List.find?_congr fun frame hframe => decide_eq_decide.mpr (hframes frame hframe)
  rw [find?_tree, find?_tree, hwrites.chain_eq]
  rcases hhidden with hshadowed | hnone
  · by_cases hmem : target.val ∈ history.chain id
    · -- A nearer frame binds the name, and the search stops there.
      obtain ⟨nearer, farther, hchain⟩ := List.append_of_mem hmem
      have hpairwise := history.pairwise_chain id
      rw [hchain] at hpairwise
      have hnearer := @hsame nearer fun frame hframe => hwrites.binds_iff_of_ne (Nat.ne_of_gt
        ((List.pairwise_append.mp hpairwise).2.2 frame hframe target List.mem_cons_self))
      have hsome : (nearer.find? fun frame => decide (history.Binds frame name)).isSome := by
        by_contra hnone
        refine hshadowed ⟨nearer, farther, hchain, fun frame hframe hbinds => hnone ?_⟩
        exact List.find?_isSome.mpr ⟨frame, hframe, decide_eq_true hbinds⟩
      rw [hchain, List.find?_append, List.find?_append, hnearer, Option.or_of_isSome hsome,
        Option.or_of_isSome hsome]
    · refine hsame fun frame hframe => hwrites.binds_iff_of_ne ?_
      rintro rfl
      exact hmem hframe
  · exact hsame fun frame _ => hwrites.binds_iff_of_none hnone frame

/-- And it leaves what the name means. -/
theorem Writes.lookup?_of_hidden
    (hhidden : ¬ history.Shows id target name ∨ lastValue? more name = none) :
    next.tree.lookup? id name = history.tree.lookup? id name := by
  rw [lookup?_tree, lookup?_tree, hwrites.find?_of_hidden hhidden]
  cases hfound : history.tree.find? id name with
  | none => rfl
  | some found =>
      rw [Option.bind_some, Option.bind_some, hwrites.bindings_eq, lastValue?_append]
      split
      · next htarget =>
          rcases hhidden with hshadowed | hnone
          · exact absurd (htarget ▸ shows_of_find? hfound) hshadowed
          · rw [hnone, Option.none_or]
      · rfl

end Write

/-- No frame shows what those above it or beside it bind. -/
theorem not_shows (history : History count) {id other : Fin count} (hne : other ≠ id)
    (h : other.val ∈ history.chain id ∨ (history.chain other).tail = (history.chain id).tail)
    (name : String) : ¬ history.Shows other id name := by
  rintro ⟨nearer, farther, hchain, -⟩
  refine history.not_mem_chain id.isLt other.isLt (fun hsame => hne (Fin.ext hsame)) h ?_
  rw [hchain]
  exact List.mem_append_right nearer List.mem_cons_self

end History

open History

/-- **Layers.** After any history, what is found for a name in a frame is the nearest frame of its
chain in which the name was ever bound, and the name means what was last bound to it there. The
queries agree on whether there is such a frame, and code that is evaluated in the frame sees the
same. What is written into a frame shows at once in every frame that stands on it with no nearer one
that binds the name, in no other frame, and so in none that it stands on or that stands beside it.
Each frame lists the names bound in it in the order in which they came, with their last values. -/
theorem frames_are_layers {count : Nat} (history : History count) (id : Fin count)
    (name : String) :
    history.tree.find? id name =
      (history.chain id).find? (fun frame => history.Binds frame name) ∧
    history.tree.lookup? id name = (history.tree.find? id name).bind
      (fun found => lastValue? (history.bindings found) name) ∧
    (history.tree.lookup? id name).isSome = (history.tree.find? id name).isSome ∧
    (∀ mark, history.tree.has id (.foreign mark (.text name)) =
      (history.tree.find? id name).isSome) ∧
    (∀ default, history.tree.get id name default =
      match history.tree.lookup? id name with
      | some value => value
      | none => default) ∧
    (history.tree.chain id).lookup? name = history.tree.lookup? id name ∧
    (∀ target more next, history.Writes target more next →
      (∀ value, history.Shows id target name → lastValue? more name = some value →
        next.tree.find? id name = some target.val ∧ next.tree.lookup? id name = some value) ∧
      (¬ history.Shows id target name ∨ lastValue? more name = none →
        next.tree.find? id name = history.tree.find? id name ∧
        next.tree.lookup? id name = history.tree.lookup? id name)) ∧
    (∀ other : Fin count, other ≠ id →
      other.val ∈ history.chain id ∨ (history.chain other).tail = (history.chain id).tail →
        ¬ history.Shows other id name) ∧
    history.tree.frame id =
      ((history.bindings id).map Prod.fst).eraseDups.filterMap fun bound =>
        (lastValue? (history.bindings id) bound).map (bound, ·) := by
  refine ⟨history.find?_tree id name, history.lookup?_tree id name,
    history.isSome_lookup? id name, fun _ => rfl, fun default => ?_,
    history.lookup?_chain id.isLt name, fun target more next hwrites =>
      ⟨fun value => hwrites.shows, fun hhidden =>
        ⟨hwrites.find?_of_hidden hhidden, hwrites.lookup?_of_hidden hhidden⟩⟩,
    fun other hne h => history.not_shows hne h name, ?_⟩
  · rw [Tree.get]
    cases history.tree.lookup? id name <;> rfl
  · rw [history.laid.frame_eq, table, Frame.update_nil_eq]

/-- Two frames stand beside each other on a third, and one of them binds `x` itself. What is then
written below both, where `x` was bound to nothing, shows in the other one alone. -/
theorem frames_are_layers_shadowed :
    let nothing := Value.foreign 0 .nothing
    let history := History.start.new.child 0 |>.child 0 |>.define 0 "x" nothing
      |>.define 1 "x" (.boolean true)
    let more := [("x", .boolean true), ("y", nothing), ("x", .boolean false)]
    let next := history.update 0 more
    history.tree.lookup? 2 "x" = some nothing ∧ history.tree.get 2 "y" nothing = nothing ∧
      next.tree.find? 2 "x" = some 0 ∧ next.tree.lookup? 2 "x" = some (.boolean false) ∧
      next.tree.lookup? 1 "x" = some (.boolean true) ∧ ¬ history.Shows 1 2 "x" ∧
      next.tree.frame 0 = [("x", .boolean false), ("y", nothing)] := by
  intro nothing history more next
  have hwrites : history.Writes 0 more next := .update more
  obtain ⟨-, hlookup, -, -, -, -, hwrite, hbeside, -⟩ := frames_are_layers history 2 "x"
  obtain ⟨-, -, -, -, hget, -⟩ := frames_are_layers history 2 "y"
  obtain ⟨-, -, -, -, -, -, hshadowed, -⟩ := frames_are_layers history 1 "x"
  obtain ⟨-, -, -, -, -, -, -, -, hlisted⟩ := frames_are_layers next 0 "x"
  have hshows : history.Shows 2 0 "x" := ⟨[2], [], rfl, by decide⟩
  have hhidden : ¬ history.Shows 1 0 "x" := by
    rintro ⟨nearer, farther, hchain, hnearer⟩
    have hsplit : [1, 0] = nearer ++ 0 :: farther := hchain
    have hfirst : 1 ∈ nearer := by
      cases nearer with
      | nil => cases hsplit
      | cons frame nearer =>
          rw [List.cons_append, List.cons.injEq] at hsplit
          exact hsplit.1 ▸ List.mem_cons_self
    exact hnearer 1 hfirst (by decide)
  obtain ⟨hfind, hvalue⟩ := (hwrite 0 more next hwrites).1 (.boolean false) hshows rfl
  have hkept := ((hshadowed 0 more next hwrites).2 (.inl hhidden)).2
  exact ⟨hlookup, hget nothing, hfind, hvalue, hkept, hbeside 1 (by decide) (.inr rfl), hlisted⟩

end Tree

end SetLisp
