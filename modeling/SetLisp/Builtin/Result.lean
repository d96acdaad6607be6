import SetLisp.Double.Arithmetic
import SetLisp.Error
import SetLisp.Value.Members

namespace SetLisp

/-- The payload of the one shared result that is not a number: that of a division by zero, and of a
remainder by zero or of an infinity. Every other result that is not a number is an object of its
own, marked by a fresh payload. -/
def sharedPayload : Nat := 0

namespace Builtin

variable {α : Type}

def seed (accept : Value → Option α) (initial : α) (first : Value) : α :=
  (accept first).getD initial

/-- Folds `op` over the accepted arguments, starting from the first argument if that is accepted
and from `initial` otherwise. -/
def accumulate (accept : Value → Option α) (op : α → α → α) (initial : α) : List Value → α
  | [] => initial
  | first :: rest => (rest.filterMap accept).foldl op (seed accept initial first)

/-- Compares each number after the first argument with the number before it, zero standing in for
a first argument that is no number. The last comparison is the answer. -/
def compareAdjacent (relation : Double → Double → Bool) : List Value → Bool
  | [] => false
  | first :: rest =>
      ((rest.filterMap Value.number?).foldl (fun state next => (next, relation state.1 next))
        (seed Value.number? (.zero false) first, false)).2

/-- The quotient. Dividing by a zero gives an infinity unless the dividend is a zero as well or not
a number. -/
def quotient (fresh : Nat) (x y : Double) : Double :=
  if hzero : y.isZero = true then
    if x.isZero || x.isNaN then .nan sharedPayload
    else .infinite (x.isNegative ^^ y.isNegative)
  else x.div fresh y (eq_false_of_ne_true hzero)

/-- The remainder, which is not a number by a zero or of an infinity. -/
def remainder (fresh : Nat) (x y : Double) : Double :=
  if hundefined : y.isZero = true ∨ x.isInfinite = true then .nan sharedPayload
  else
    x.rem fresh y (eq_false_of_ne_true fun hinfinite => hundefined (.inr hinfinite))
      (eq_false_of_ne_true fun hzero => hundefined (.inl hzero))

def foldNumbers (op : Double → Double → Double) (args : List Value) : Value :=
  .number (accumulate Value.number? op (.zero false) args)

def foldBooleans (op : Bool → Bool → Bool) (args : List Value) : Value :=
  .boolean (accumulate Value.boolean? op false args)

def negation : List Value → Except EvalError Value
  | [] => .error (.argumentCount not .some)
  | .boolean value :: _ => .ok (.boolean !value)
  | _ => .error (.argumentKind not .boolean)

/-- The only argument of `function`, which must be a list. -/
def onlyList (function : Builtin) : List Value → Except EvalError (List Value)
  | [.list items] => .ok items
  | [_] => .error (.argumentKind function .list)
  | _ => .error (.argumentCount function .one)

def headOf : List Value → Except EvalError Value
  | [] => .error .emptyHead
  | item :: _ => .ok item

/-- A list with one more item in front. What is no list is dropped. -/
def construct : List Value → Except EvalError Value
  | [first, .list rest] => .ok (.list (first :: rest))
  | [first, _] => .ok (.list [first])
  | _ => .error (.argumentCount cons .two)

def joinLists : List Value → Except EvalError (List Value)
  | [] => .ok []
  | .list items :: rest => (joinLists rest).map (items ++ ·)
  | _ :: _ => .error (.argumentKind concat .listArguments)

/-- The members of each argument of `function`, all of which must be sets. -/
def allSets (function : Builtin) : List Value → Except EvalError (List Members)
  | [] => .ok []
  | .set members :: rest => (allSets function rest).map (members :: ·)
  | _ :: _ => .error (.argumentKind function .setArguments)

def someSets (function : Builtin) (args : List Value) : Except EvalError (List Members) :=
  if args.isEmpty then .error (.argumentCount function .someSet) else allSets function args

def unionAll (sets : List Members) : Members :=
  sets.foldl Members.union []

def interAll : List Members → Members
  | [] => []
  | first :: rest => rest.foldl Members.inter first

/-- The answer of a builtin, with `fresh` as the payload of a new result that is not a number. -/
def result (fresh : Nat) (function : Builtin) (args : List Value) : Except EvalError Value :=
  match function with
  | add => .ok (foldNumbers (Double.add fresh) args)
  | sub => .ok (foldNumbers (Double.sub fresh) args)
  | mul => .ok (foldNumbers (Double.mul fresh) args)
  | div => .ok (foldNumbers (quotient fresh) args)
  | rem => .ok (foldNumbers (remainder fresh) args)
  | equal => .ok (.boolean (compareAdjacent Double.equal args))
  | less => .ok (.boolean (compareAdjacent Double.less args))
  | greater => .ok (.boolean (compareAdjacent (fun x y => y.less x) args))
  | lessOrEqual => .ok (.boolean (compareAdjacent Double.lessOrEqual args))
  | greaterOrEqual => .ok (.boolean (compareAdjacent (fun x y => y.lessOrEqual x) args))
  | not => negation args
  | and => .ok (foldBooleans (· && ·) args)
  | or => .ok (foldBooleans (· || ·) args)
  | list => .ok (.list args)
  | set => .ok (.set (Members.ofList args))
  | head => (onlyList head args).bind headOf
  | tail => (onlyList tail args).map fun items => .list items.tail
  | cons => construct args
  | concat => (joinLists args).map .list
  | union => (someSets union args).map fun sets => .set (unionAll sets)
  | inter => (someSets inter args).map fun sets => .set (interAll sets)
  | print =>
      match args with
      | [value] => .ok value
      | _ => .error (.argumentCount print .one)

/-- The answer to arguments that come as one value; what is no list holds no arguments. -/
def resultOfAll (fresh : Nat) (function : Builtin) : Value → Except EvalError Value
  | .list args => function.result fresh args
  | _ => .error (.argumentKind function .listArgument)

/-- The values a builtin takes for members of a set. -/
def newMembers (function : Builtin) (args : Value) : List Value :=
  match function, args with
  | set, .list args => args
  | union, .list args => args.flatMap fun arg => arg.set?.getD []
  | inter, .list args => args.flatMap fun arg => arg.set?.getD []
  | _, _ => []

end Builtin

end SetLisp
