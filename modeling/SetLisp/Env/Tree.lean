import SetLisp.Env.Chain

namespace SetLisp

structure Node where
  frame : Frame := []
  outer : Option Nat := none

/-- All frames, the latest first. The number of a frame is how many were opened before it, and a
frame stands on an earlier one. -/
abbrev Tree := List Node

namespace Tree

/-- Opens an empty frame, whose number is the size of the tree. -/
def create (tree : Tree) (outer : Option Nat) : Tree :=
  { outer := outer } :: tree

/-- The frames from the given one outward, each with its number. -/
def path : Tree → Nat → List (Nat × Frame)
  | [], _ => []
  | node :: older, id =>
      if id = older.length then
        (id, node.frame) ::
          match node.outer with
          | some outer => path older outer
          | none => []
      else path older id

def setFrame : Tree → Nat → Frame → Tree
  | [], _, _ => []
  | node :: older, id, frame =>
      if id = older.length then { node with frame := frame } :: older
      else node :: setFrame older id frame

def frame (tree : Tree) (id : Nat) : Frame :=
  ((tree.path id).head?.map (·.2)).getD []

def chain (tree : Tree) (id : Nat) : Chain :=
  { own := tree.frame id, outer := (tree.path id).tail.map (·.2) }

def define (tree : Tree) (id : Nat) (name : String) (value : Value) : Tree :=
  tree.setFrame id ((tree.frame id).define name value)

def update (tree : Tree) (id : Nat) (bindings : List (String × Value)) : Tree :=
  tree.setFrame id ((tree.frame id).update bindings)

def find? (tree : Tree) (id : Nat) (name : String) : Option Nat :=
  ((tree.path id).find? fun entry => entry.2.binds name).map (·.1)

def lookup? (tree : Tree) (id : Nat) (name : String) : Option Value :=
  (tree.find? id name).bind fun found => (tree.frame found).find? name

def get (tree : Tree) (id : Nat) (name : String) (default : Value) : Value :=
  (tree.lookup? id name).getD default

/-- Whether a value names a binding; only texts do. -/
def has (tree : Tree) (id : Nat) : Value → Bool
  | .foreign _ (.text name) => (tree.find? id name).isSome
  | _ => false

end Tree

end SetLisp
