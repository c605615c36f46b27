import ApiClient.Text.Pieces

namespace ApiClient

abbrev Location := List String

structure Storage where
  folders : List Location
  files : List (Location × String)

inductive Obstacle where
  | missing
  | alreadyThere
  | notFolder
  | isFolder
deriving DecidableEq, Repr

def Obstacle.text : Obstacle → String
  | missing => "No such file or directory (os error 2)"
  | alreadyThere => "File exists (os error 17)"
  | notFolder => "Not a directory (os error 20)"
  | isFolder => "Is a directory (os error 21)"

namespace Location

/-- One step along a path: a dot stays, two dots go up. -/
def step (l : Location) (name : List Char) : Location :=
  if name = [] ∨ name = ['.'] then l
  else if name = ['.', '.'] then l.dropLast
  else l ++ [String.ofList name]

def origin (path : String) : Location :=
  if path.toList.head? = some '/' then ["/"] else []

def names (path : String) : List (List Char) :=
  path.toList.splitOnP (· == '/')

def ofPath (path : String) : Location :=
  (names path).foldl step (origin path)

def above (l : Location) : List Location :=
  (List.range l.length).map fun n => l.take n

def text (l : Location) : String :=
  "/".intercalate l

end Location

namespace Storage

def empty : Storage :=
  ⟨[], []⟩

def hasFolder (s : Storage) (l : Location) : Bool :=
  l.isEmpty || s.folders.contains l

def file? (s : Storage) (l : Location) : Option String :=
  s.files.lookup l

def hasFile (s : Storage) (l : Location) : Bool :=
  (s.file? l).isSome

/-- Where a path leads, if every name but the last stands for a folder. -/
def walk? (s : Storage) (l : Location) : List (List Char) → Option Location
  | [] => some l
  | name :: rest => if s.hasFolder l then s.walk? (l.step name) rest else none

def read? (s : Storage) (path : String) : Option String :=
  (s.walk? (Location.origin path) (Location.names path)).bind s.file?

def makeFolder (s : Storage) (l : Location) : Except Obstacle Storage :=
  if s.hasFile l then .error .alreadyThere
  else if l.above.any s.hasFile then .error .notFolder
  else
    let missing := (l.above ++ [l]).filter fun m => !s.hasFolder m
    .ok { s with folders := s.folders ++ missing }

def putFile (l : Location) (text : String) : List (Location × String) → List (Location × String)
  | [] => [(l, text)]
  | (m, t) :: rest => if m = l then (m, text) :: rest else (m, t) :: putFile l text rest

def writeFile (s : Storage) (l : Location) (text : String) : Except Obstacle Storage :=
  if s.hasFolder l then .error .isFolder
  else if l.above.any s.hasFile then .error .notFolder
  else if !s.hasFolder l.dropLast then .error .missing
  else .ok { s with files := putFile l text s.files }

end Storage

/-- A path below another one; an absolute path stands for itself. -/
def joinPath (root relative : String) : String :=
  match relative.toList.head?, root.toList.getLast? with
  | some '/', _ => relative
  | _, none => relative
  | _, some '/' => root ++ relative
  | _, _ => root ++ "/" ++ relative

def dropTrailing : List Char → List Char
  | '/' :: rest => if rest.isEmpty then ['/'] else dropTrailing rest
  | '.' :: '/' :: rest => dropTrailing ('/' :: rest)
  | cs => cs
termination_by cs => cs.length

def parentPath (path : String) : String :=
  String.ofList (dropTrailing (path.toList.reverse.dropWhile (· != '/'))).reverse

end ApiClient
