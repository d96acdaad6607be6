import SetLisp.Value.Key

/-!
# Set objects

A set is an object, and what holds it holds a reference: a set that is added to changes for the
lists and sets it is in as well. Each object files its members in a table, every member under the
key it had when it was put in. A key once filed stays as it is, and the key of a set is made of the
keys it has filed.
-/

namespace SetLisp

/-- Neither a list nor a set. -/
def Value.isPlain : Value → Bool
  | .list _ => false
  | .set _ => false
  | _ => true

/-- What is put into a set: another set by the number of its object, a list, or a plain value. -/
inductive Item where
  | plain (value : Value) (hplain : value.isPlain = true)
  | list (items : List Item)
  | set (object : Nat)

structure Slot where
  key : Key
  item : Item

/-- The members of one set in order of insertion. -/
abbrev Table := List Slot

namespace Table

def has (table : Table) (key : Key) : Bool :=
  table.any (·.key.equal key)

/-- Files an item under a key unless the key is taken. -/
def file (table : Table) (key : Key) (item : Item) : Table :=
  if table.has key then table else table ++ [⟨key, item⟩]

def items (table : Table) : List Item :=
  table.map (·.item)

def keys (table : Table) : List Key :=
  table.map (·.key)

end Table

/-- The tables of all sets, each at the number of its object. -/
abbrev Store := List Table

namespace Store

def table (store : Store) (object : Nat) : Table :=
  store.getD object []

mutual

/-- The key of an item as the store is now. -/
def key (store : Store) : Item → Key
  | .plain value _ => value.key
  | .list items => .list (keys store items)
  | .set object => .set (store.table object).keys

def keys (store : Store) : List Item → List Key
  | [] => []
  | item :: rest => key store item :: keys store rest

end

def has (store : Store) (object : Nat) (item : Item) : Bool :=
  (store.table object).has (store.key item)

/-- Adds an item to a set in place. -/
def add (store : Store) (object : Nat) (item : Item) : Store :=
  store.set object ((store.table object).file (store.key item) item)

def addAll (store : Store) (object : Nat) (items : List Item) : Store :=
  items.foldl (fun store item => store.add object item) store

/-- Makes a set of its own, whose number is the first that is free. -/
def make (store : Store) (items : List Item) : Store :=
  addAll (store ++ [[]]) store.length items

def union (store : Store) (first second : Nat) : Store :=
  store.make ((store.table first).items ++ (store.table second).items)

/-- The members of the first set whose filed keys are filed in the second. -/
def inter (store : Store) (first second : Nat) : Store :=
  store.make (Table.items ((store.table first).filter fun slot =>
    (store.table second).has slot.key))

def equal (store : Store) (first second : Nat) : Bool :=
  (store.table first).length == (store.table second).length &&
    (store.table first).all fun slot => (store.table second).has slot.key

end Store

mutual

/-- Whether lists nest too deeply in the item for a key. -/
def Item.tooDeep : Nat → Item → Bool
  | 0, _ => true
  | room + 1, .list items => someTooDeep room items
  | _ + 1, _ => false

def Item.someTooDeep : Nat → List Item → Bool
  | _, [] => false
  | room, item :: rest => tooDeep room item || someTooDeep room rest

end

inductive SetStep where
  | make (items : List Item)
  | add (object : Nat) (item : Item)
  | union (first second : Nat)
  | inter (first second : Nat)

/-- The items a step brings from outside. -/
def SetStep.items : SetStep → List Item
  | make items => items
  | add _ item => [item]
  | union .. => []
  | inter .. => []

namespace Store

def step (store : Store) : SetStep → Store
  | .make items => store.make items
  | .add object item => store.add object item
  | .union first second => store.union first second
  | .inter first second => store.inter first second

def run (steps : List SetStep) : Store :=
  steps.foldl step []

/-- What a step comes to where keys nest no deeper than there is room. A step that fails changes no
set. -/
def step? (room : Nat) (store : Store) (step : SetStep) : Option Store :=
  if Item.someTooDeep room step.items then none else some (store.step step)

end Store

end SetLisp
