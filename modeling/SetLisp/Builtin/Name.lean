namespace SetLisp

inductive Builtin where
  | add | sub | mul | div | rem
  | equal | less | greater | lessOrEqual | greaterOrEqual
  | not | and | or
  | list | set | head | tail | cons | concat | union | inter
  | print
deriving DecidableEq, Repr

namespace Builtin

def name : Builtin → String
  | add => "+"
  | sub => "-"
  | mul => "*"
  | div => "/"
  | rem => "%"
  | equal => "="
  | less => "<"
  | greater => ">"
  | lessOrEqual => "<="
  | greaterOrEqual => ">="
  | not => "not"
  | and => "and"
  | or => "or"
  | list => "list"
  | set => "set"
  | head => "head"
  | tail => "tail"
  | cons => "cons"
  | concat => "concat"
  | union => "union"
  | inter => "inter"
  | print => "print"

/-- Every builtin, in the order in which the names are bound. -/
def all : List Builtin :=
  [add, sub, mul, div, rem, equal, less, greater, lessOrEqual, greaterOrEqual, not, and, or,
    list, set, head, tail, cons, concat, union, inter, print]

def ofName? (name : String) : Option Builtin :=
  all.find? fun function => function.name == name

theorem mem_all (function : Builtin) : function ∈ all := by
  cases function <;> decide

theorem ofName?_name (function : Builtin) : ofName? function.name = some function := by
  cases function <;> decide

theorem name_injective {f g : Builtin} (hname : f.name = g.name) : f = g := by
  have hfound := ofName?_name f
  rw [hname, ofName?_name g] at hfound
  exact (Option.some.inj hfound).symm

end Builtin

end SetLisp
