import SetLisp.Error

/-!
# Halting

Why an evaluation stops without a value. Beside the errors of evaluation and a lack of room there
are faults, which a rule runs into when it takes a list apart that it has not looked at, or shows an
integer of an embedder that no number is near to.
-/

namespace SetLisp

inductive Fault where
  | integerTooLarge
  | index
  | unpack (expected given : Nat)
  | unpackFront (expected given : Nat)
deriving DecidableEq, Repr

def Fault.message : Fault → String
  | integerTooLarge => "int too large to convert to float"
  | index => "list index out of range"
  | unpack expected given =>
      if given < expected then
        "not enough values to unpack (expected " ++ toString expected ++ ", got " ++
          toString given ++ ")"
      else "too many values to unpack (expected " ++ toString expected ++ ")"
  | unpackFront expected given =>
      "not enough values to unpack (expected at least " ++ toString expected ++ ", got " ++
        toString given ++ ")"

inductive Halt where
  | error (error : EvalError)
  | exhausted
  | fault (fault : Fault)
deriving DecidableEq, Repr

namespace Parts

variable {α : Type}

def item (parts : List α) (place : Nat) : Except Halt α :=
  match parts[place]? with
  | some item => .ok item
  | none => .error (.fault .index)

def pair : List α → Except Halt (α × α)
  | [first, second] => .ok (first, second)
  | parts => .error (.fault (.unpack 2 parts.length))

/-- The last part, and all before it. -/
def frontAndLast (parts : List α) : Except Halt (List α × α) :=
  match parts.getLast? with
  | some last => .ok (parts.dropLast, last)
  | none => .error (.fault (.unpackFront 1 parts.length))

/-- The first part, the last, and all between them. -/
def ends : List α → Except Halt (α × List α × α)
  | first :: next :: rest =>
      .ok (first, (next :: rest).dropLast, (next :: rest).getLast (List.cons_ne_nil next rest))
  | parts => .error (.fault (.unpackFront 2 parts.length))

theorem frontAndLast_concat (front : List α) (last : α) :
    frontAndLast (front ++ [last]) = .ok (front, last) := by
  rw [frontAndLast, List.getLast?_concat, List.dropLast_concat]

theorem ends_concat (first : α) {middle : List α} (hne : middle ≠ []) (last : α) :
    ends (first :: (middle ++ [last])) = .ok (first, middle, last) := by
  obtain ⟨next, rest, rfl⟩ := List.exists_cons_of_ne_nil hne
  rw [List.cons_append, ends]
  simp only [← List.cons_append, List.dropLast_concat, List.getLast_concat]

end Parts

end SetLisp
