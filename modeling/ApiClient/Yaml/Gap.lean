import ApiClient.Yaml.Character

namespace ApiClient.Yaml

/-- Blanks on one line, or line breaks: the first one, if it is kept, and the ones that follow.
Characters stand last first. -/
inductive Gap where
  | blanks (held : List Char)
  | breaks (first : Option Char) (more : List Char)
deriving DecidableEq, Repr

namespace Gap

def none : Gap :=
  .blanks []

def isNone : Gap → Bool
  | blanks [] => true
  | _ => false

def isBroken : Gap → Bool
  | blanks _ => false
  | breaks _ _ => true

def add (c : Char) : Gap → Gap
  | blanks held => if isBreak c then breaks (some c) [] else blanks (c :: held)
  | breaks first more => if isBreak c then breaks first (c :: more) else breaks first more

/-- A single line feed folds to a space, and before further breaks it is dropped. -/
def fold : Gap → List Char
  | blanks held => held
  | breaks (some '\n') [] => [' ']
  | breaks (some '\n') more => more
  | breaks first more => more ++ first.toList

end Gap

end ApiClient.Yaml
