import SetLisp.Text.Quoted

namespace SetLisp.Path

/-- The components of a path between its slashes. -/
def splitFrom : List Char → List Char → List (List Char)
  | component, [] => [component.reverse]
  | component, c :: rest =>
      if c == '/' then component.reverse :: splitFrom [] rest
      else splitFrom (c :: component) rest

def components (path : List Char) : List (List Char) :=
  (splitFrom [] path).filter fun component => !component.isEmpty && component != ['.']

/-- The slashes a path starts with, as they are shown. -/
def root (path : List Char) : List Char :=
  match (path.takeWhile (· == '/')).length with
  | 0 => []
  | 2 => ['/', '/']
  | _ => ['/']

/-- Empty and single-dot components are not shown. Two slashes in front, and only two, are kept as
they are. -/
def normal (path : String) : String :=
  match root path.toList ++ ['/'].intercalate (components path.toList) with
  | [] => "."
  | shown => String.ofList shown

end SetLisp.Path
