import SetLisp.Env.Tree
import SetLisp.Proofs.Scope.Bindings

/-!
# Histories of trees

What was done to a tree of frames, step by step: frames were opened, on none or on one that was
there, and names were bound in them. The history says on which frames a frame stands and what was
bound in each, and after every step the paths of the tree are those frames with those bindings.
-/

namespace SetLisp

namespace Tree

theorem path_cons (node : Node) (older : Tree) (id : Nat) :
    path (node :: older) id =
      if id = older.length then (id, node.frame) :: node.outer.elim [] (path older)
      else path older id := by
  rw [path]
  cases node.outer <;> rfl

theorem path_create (tree : Tree) (outer : Option Nat) (id : Nat) :
    (tree.create outer).path id =
      if id = tree.length then (id, []) :: outer.elim [] tree.path else tree.path id :=
  path_cons _ _ _

theorem fst_lt_of_mem_path {tree : Tree} {id : Nat} {entry : Nat × Frame}
    (h : entry ∈ tree.path id) : entry.1 < tree.length := by
  induction tree generalizing id with
  | nil => cases h
  | cons node older ih =>
      rw [path_cons] at h
      rw [List.length_cons]
      split at h
      · next hid =>
          rcases List.mem_cons.mp h with rfl | hbehind
          · exact hid ▸ Nat.lt_succ_self _
          · cases houter : node.outer with
            | none =>
                rw [houter] at hbehind
                cases hbehind
            | some outer =>
                rw [houter] at hbehind
                exact Nat.lt_succ_of_lt (ih hbehind)
      · exact Nat.lt_succ_of_lt (ih h)

theorem length_setFrame (tree : Tree) (id : Nat) (frame : Frame) :
    (tree.setFrame id frame).length = tree.length := by
  induction tree with
  | nil => rfl
  | cons node older ih =>
      rw [setFrame]
      split
      · rfl
      · rw [List.length_cons, ih, List.length_cons]

/-- Writing a frame changes it on every path and moves none. -/
theorem path_setFrame (tree : Tree) (target id : Nat) (frame : Frame) :
    (tree.setFrame target frame).path id =
      (tree.path id).map fun entry => if entry.1 = target then (entry.1, frame) else entry := by
  induction tree generalizing id with
  | nil => rfl
  | cons node older ih =>
      rw [setFrame]
      split
      · next htarget =>
          -- The frames behind the latest one are older, so none of them is the one written.
          have hbehind (outer : Nat) : (path older outer).map
              (fun entry => if entry.1 = target then (entry.1, frame) else entry) =
                path older outer := by
            refine (List.map_congr_left fun entry hentry => ?_).trans (List.map_id _)
            exact if_neg (htarget ▸ Nat.ne_of_lt (fst_lt_of_mem_path hentry))
          rw [path_cons, path_cons]
          split
          · next hid =>
              rw [List.map_cons, if_pos (hid.trans htarget.symm)]
              cases node.outer with
              | none => rfl
              | some outer => exact congrArg _ (hbehind outer).symm
          · exact (hbehind id).symm
      · next htarget =>
          rw [path_cons, path_cons, length_setFrame]
          split
          · next hid =>
              rw [List.map_cons, if_neg fun hsame => htarget (hsame.symm.trans hid)]
              cases node.outer with
              | none => rfl
              | some outer => exact congrArg _ (ih outer)
          · exact ih id

/-- What was done to a tree of `count` frames, the latest step outermost. Every step is about frames
that are there. -/
inductive History : Nat → Type
  | start : History 0
  | new {count : Nat} (history : History count) : History (count + 1)
  | child {count : Nat} (history : History count) (outer : Fin count) : History (count + 1)
  | define {count : Nat} (history : History count) (id : Fin count) (name : String)
      (value : Value) : History count
  | update {count : Nat} (history : History count) (id : Fin count)
      (bindings : List (String × Value)) : History count

namespace History

variable {count : Nat}

/-- The tree that the steps lead to. -/
def tree {count : Nat} : History count → Tree
  | start => []
  | new history => history.tree.create none
  | child history outer => history.tree.create (some outer)
  | define history id name value => history.tree.define id name value
  | update history id bindings => history.tree.update id bindings

/-- What was bound in the frame, oldest first. -/
def bindings {count : Nat} : History count → Nat → List (String × Value)
  | start, _ => []
  | new history, id => history.bindings id
  | child history _, id => history.bindings id
  | define history target name value, id =>
      history.bindings id ++ if id = target then [(name, value)] else []
  | update history target more, id => history.bindings id ++ if id = target then more else []

/-- The frames that a frame stands on, from itself outward. -/
def chain {count : Nat} : History count → Nat → List Nat
  | start, _ => []
  | @new size history, id => if id = size then [id] else history.chain id
  | @child size history outer, id =>
      if id = size then id :: history.chain outer else history.chain id
  | define history _ _ _, id => history.chain id
  | update history _ _, id => history.chain id

/-- Whether the name was ever bound in the frame. -/
def Binds (history : History count) (id : Nat) (name : String) : Prop :=
  name ∈ (history.bindings id).map Prod.fst

instance (history : History count) (id : Nat) (name : String) :
    Decidable (history.Binds id name) :=
  inferInstanceAs (Decidable (name ∈ (history.bindings id).map Prod.fst))

/-- The next history writes the bindings into the frame. -/
inductive Writes (history : History count) (id : Fin count) :
    List (String × Value) → History count → Prop
  | define (name : String) (value : Value) :
      Writes history id [(name, value)] (history.define id name value)
  | update (bindings : List (String × Value)) :
      Writes history id bindings (history.update id bindings)

section Writes

variable {history next : History count} {id : Fin count} {more : List (String × Value)}

theorem Writes.tree_eq (h : history.Writes id more next) :
    next.tree = history.tree.update id more := by
  cases h <;> rfl

theorem Writes.bindings_eq (h : history.Writes id more next) (other : Nat) :
    next.bindings other = history.bindings other ++ if other = id then more else [] := by
  cases h <;> rfl

theorem Writes.chain_eq (h : history.Writes id more next) (other : Nat) :
    next.chain other = history.chain other := by
  cases h <;> rfl

end Writes

theorem chain_of_le (history : History count) {id : Nat} (hid : count ≤ id) :
    history.chain id = [] := by
  induction history with
  | start => rfl
  | new history ih | child history _ ih =>
      rw [chain, if_neg (Nat.ne_of_gt hid)]
      exact ih (Nat.le_of_succ_le hid)
  | define _ _ _ _ ih | update _ _ _ ih => exact ih hid

theorem bindings_of_le (history : History count) {id : Nat} (hid : count ≤ id) :
    history.bindings id = [] := by
  induction history with
  | start => rfl
  | new history ih | child history _ ih => exact ih (Nat.le_of_succ_le hid)
  | define history target _ _ ih | update history target _ ih =>
      rw [bindings, ih hid, if_neg (Nat.ne_of_gt (Nat.lt_of_lt_of_le target.isLt hid)),
        List.append_nil]

/-- A frame stands on itself first. -/
theorem chain_of_lt (history : History count) {id : Nat} (hid : id < count) :
    history.chain id = id :: (history.chain id).tail := by
  induction history with
  | start => cases hid
  | @new size history ih | @child size history _ ih =>
      rw [chain]
      split
      · rfl
      · exact ih (by omega)
  | define _ _ _ _ ih | update _ _ _ ih => exact ih hid

/-- Each frame of a chain is older than those in front of it. -/
theorem pairwise_chain (history : History count) (id : Nat) :
    (history.chain id).Pairwise (· > ·) := by
  induction history generalizing id with
  | start => exact .nil
  | new history ih =>
      rw [chain]
      split
      · exact List.pairwise_singleton _ _
      · exact ih id
  | child history outer ih =>
      rw [chain]
      split
      · next hid =>
          refine List.pairwise_cons.mpr ⟨fun other hother => ?_, ih outer⟩
          have houter := ih outer
          rw [history.chain_of_lt outer.isLt] at houter hother
          rcases List.mem_cons.mp hother with rfl | htail
          · exact hid ▸ outer.isLt
          · exact Nat.lt_trans (List.rel_of_pairwise_cons houter htail) (hid ▸ outer.isLt)
      · exact ih id
  | define _ _ _ _ ih | update _ _ _ ih => exact ih id

theorem lt_of_mem_tail_chain (history : History count) {id other : Nat} (hid : id < count)
    (h : other ∈ (history.chain id).tail) : other < id := by
  have hpairwise := history.pairwise_chain id
  rw [history.chain_of_lt hid] at hpairwise
  exact List.rel_of_pairwise_cons hpairwise h

theorem le_of_mem_chain (history : History count) {id other : Nat} (hid : id < count)
    (h : other ∈ history.chain id) : other ≤ id := by
  rw [history.chain_of_lt hid] at h
  rcases List.mem_cons.mp h with rfl | htail
  · exact Nat.le_refl _
  · exact Nat.le_of_lt (history.lt_of_mem_tail_chain hid htail)

/-- A frame stands on neither those that stand on it nor those that stand beside it. -/
theorem not_mem_chain (history : History count) {id other : Nat} (hid : id < count)
    (hother : other < count) (hne : other ≠ id)
    (h : other ∈ history.chain id ∨ (history.chain other).tail = (history.chain id).tail) :
    id ∉ history.chain other := by
  intro hmem
  rcases h with hbelow | hbeside
  · exact hne (Nat.le_antisymm (history.le_of_mem_chain hid hbelow)
      (history.le_of_mem_chain hother hmem))
  · rw [history.chain_of_lt hother, hbeside] at hmem
    rcases List.mem_cons.mp hmem with rfl | htail
    · exact hne rfl
    · exact Nat.lt_irrefl id (history.lt_of_mem_tail_chain hid htail)

/-- What the frame holds. -/
def table (history : History count) (id : Nat) : Frame :=
  Frame.update [] (history.bindings id)

theorem length_tree (history : History count) : history.tree.length = count := by
  induction history with
  | start => rfl
  | new _ ih | child _ _ ih => exact congrArg (· + 1) ih
  | define _ _ _ _ ih | update _ _ _ ih => exact (length_setFrame _ _ _).trans ih

/-- The frames on the path are those of the chain. -/
def Laid (history : History count) : Prop :=
  ∀ id, history.tree.path id = (history.chain id).map fun frame => (frame, history.table frame)

theorem Laid.frame_eq {history : History count} (h : history.Laid) (id : Nat) :
    history.tree.frame id = history.table id := by
  rw [frame, h id]
  rcases Nat.lt_or_ge id count with hid | hid
  · rw [history.chain_of_lt hid]
    rfl
  · rw [history.chain_of_le hid, table, history.bindings_of_le hid]
    rfl

/-- One frame more. -/
theorem Laid.create {history : History count} {next : History (count + 1)} (h : history.Laid)
    (outer : Option Nat) (htree : next.tree = history.tree.create outer)
    (hbindings : next.bindings = history.bindings)
    (hchain : ∀ id, next.chain id =
      if id = count then id :: outer.elim [] history.chain else history.chain id) : next.Laid := by
  have htable : next.table = history.table := by
    funext id
    rw [table, hbindings, table]
  intro id
  rw [htree, path_create, history.length_tree, hchain, htable]
  split
  · next hid =>
      have hempty : history.table id = [] := by
        rw [table, history.bindings_of_le (Nat.le_of_eq hid.symm)]
        rfl
      rw [List.map_cons, hempty]
      cases outer with
      | none => rfl
      | some outer => exact congrArg _ (h outer)
  · exact h id

/-- One write more. -/
theorem Laid.writes {history next : History count} {target : Fin count}
    {more : List (String × Value)} (h : history.Laid) (hwrites : history.Writes target more next) :
    next.Laid := by
  intro id
  rw [hwrites.tree_eq, Tree.update, path_setFrame, h, h.frame_eq, List.map_map, hwrites.chain_eq]
  refine List.map_congr_left fun other _ => ?_
  have htable : next.table other =
      (history.table other).update (if other = target then more else []) := by
    rw [table, hwrites.bindings_eq, Frame.update_append, ← table]
  rw [Function.comp_apply, htable]
  split
  · next hother =>
      obtain rfl : other = target := hother
      rfl
  · rfl

theorem laid (history : History count) : history.Laid := by
  induction history with
  | start => exact fun _ => rfl
  | new history ih => exact ih.create none rfl rfl fun _ => rfl
  | child history outer ih => exact ih.create (some outer) rfl rfl fun _ => rfl
  | define history id name value ih => exact ih.writes (.define name value)
  | update history id bindings ih => exact ih.writes (.update bindings)

end History

end Tree

end SetLisp
