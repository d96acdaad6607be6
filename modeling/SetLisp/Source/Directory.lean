import SetLisp.Session.File

namespace SetLisp

inductive Entry where
  | file (bytes : List UInt8)
  | directory
deriving DecidableEq, Repr

/-- The entries below a directory, each with its components. -/
abbrev Directory := List (List String × Entry)

def OpenFailure.notFound : OpenFailure := ⟨2, "No such file or directory"⟩

def OpenFailure.notDirectory : OpenFailure := ⟨20, "Not a directory"⟩

def OpenFailure.isDirectory : OpenFailure := ⟨21, "Is a directory"⟩

def OpenFailure.nameTooLong : OpenFailure := ⟨36, "File name too long"⟩

namespace Directory

/-- The components of a path to an entry. -/
def place (path : String) : List String :=
  (Path.components path.toList).map String.ofList

/-- The entry at a place. A directory is there if anything is below it. -/
def entry? (directory : Directory) (place : List String) : Option Entry :=
  match directory.find? fun entry => entry.1 == place with
  | some entry => some entry.2
  | none =>
      if place.isEmpty || directory.any fun entry => place.isPrefixOf entry.1 then
        some .directory
      else none

def componentLimit : Nat := 255

def pathLimit : Nat := 4095

/-- Walks outside the directory, from where nothing leads back into it. -/
def walkOutside : List String → Except OpenFailure (List UInt8)
  | [] => .error .isDirectory
  | component :: rest =>
      if componentLimit < component.utf8ByteSize then .error .nameTooLong
      else if component = ".." then walkOutside rest
      else .error .notFound

/-- Walks from a place along the components and opens the file it arrives at. -/
def walk (directory : Directory) (place : List String) :
    List String → Except OpenFailure (List UInt8)
  | [] =>
      match directory.entry? place with
      | some (.file bytes) => .ok bytes
      | some .directory => .error .isDirectory
      | none => .error .notFound
  | component :: rest =>
      match directory.entry? place with
      | none => .error .notFound
      | some (.file _) => .error .notDirectory
      | some .directory =>
          if componentLimit < component.utf8ByteSize then .error .nameTooLong
          else if component = ".." then
            if place.isEmpty then walkOutside rest else directory.walk place.dropLast rest
          else directory.walk (place ++ [component]) rest

/-- Opens a path. One that starts with a slash starts outside the directory. -/
def openFile (directory : Directory) (path : String) : Except OpenFailure (List UInt8) :=
  if pathLimit < path.utf8ByteSize then .error .nameTooLong
  else if path.toList.head? == some '/' then walkOutside (Directory.place path)
  else directory.walk [] (Directory.place path)

end Directory

end SetLisp
