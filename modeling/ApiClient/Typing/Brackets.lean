namespace ApiClient.Typing

/-- Where a scan stands: how deep in brackets, in which quote, and just after a backslash or not. -/
structure Scan where
  depth : Int
  quote : Option Char
  escaped : Bool

def Scan.start : Scan :=
  ⟨0, none, false⟩

def isOpener (c : Char) : Bool :=
  c == '(' || c == '[' || c == '{' || c == '<'

def isCloser (c : Char) : Bool :=
  c == ')' || c == ']' || c == '}' || c == '>'

def Scan.step (s : Scan) (c : Char) : Scan :=
  match s.quote with
  | some q =>
    if s.escaped then { s with escaped := false }
    else if c = '\\' then { s with escaped := true }
    else if c = q then { s with quote := none }
    else s
  | none =>
    if c = '"' ∨ c = '\'' then { s with quote := some c }
    else if isOpener c then { s with depth := s.depth + 1 }
    else if isCloser c then { s with depth := s.depth - 1 }
    else s

/-- Whether `|` or `&` is read at this point as an operator of the whole text. -/
def Scan.isJoint (s : Scan) (c : Char) : Bool :=
  s.quote.isNone && s.depth == 0 && (c == '|' || c == '&')

def joinsFrom (s : Scan) : List Char → Bool
  | [] => false
  | c :: rest => s.isJoint c || joinsFrom (s.step c) rest

def joins (text : String) : Bool :=
  joinsFrom .start text.toList

end ApiClient.Typing
