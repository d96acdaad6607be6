import SetLisp.Value.Same

namespace SetLisp

/-- In order of first insertion; of two values that are the same only the first is kept. -/
abbrev Members := List Value

namespace Members

def has (members : Members) (value : Value) : Bool :=
  members.any (·.same value)

def insert (members : Members) (value : Value) : Members :=
  if has members value then members else members ++ [value]

def insertAll (members : Members) (values : List Value) : Members :=
  values.foldl insert members

def ofList (values : List Value) : Members :=
  insertAll [] values

/-- The members of the first set, then those the second adds. -/
def union (first second : Members) : Members :=
  insertAll first second

def inter (first second : Members) : Members :=
  first.filter second.has

def equal (first second : Members) : Bool :=
  (Value.set first).same (Value.set second)

end Members

end SetLisp
