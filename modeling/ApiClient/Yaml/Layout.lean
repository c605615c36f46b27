import ApiClient.Yaml.Cursor
import ApiClient.Yaml.Token

namespace ApiClient.Yaml

/-- A place where a key may start: before the token of that number. One that is required, because a
mapping's next entry starts there, must turn out to be a key. -/
structure KeyPlace where
  isRequired : Bool
  number : Nat
  position : Position

/-- The state between two tokens. `indent` is the column of the innermost block, -1 outside of
blocks. There is a key place for each open flow collection and one for the blocks around them.
Tokens stand last first. -/
structure Layout where
  cursor : Cursor
  indent : Int
  outerIndents : List Int
  key : Option KeyPlace
  outerKeys : List (Option KeyPlace)
  isKeyAllowed : Bool
  tokens : List Token
  count : Nat

def maxKeyLength : Nat := 1024

/-- The columns of the blocks that stay open at a column, and the number of those that close. -/
def closeBlocks (column : Int) (indent : Int) : List Int → Nat × Int × List Int
  | [] => (0, indent, [])
  | outer :: rest =>
    if indent > column then
      let (n, indent, rest) := closeBlocks column outer rest
      (n + 1, indent, rest)
    else (0, indent, outer :: rest)

namespace Layout

def start (cs : List Char) : Layout :=
  ⟨.start cs, -1, [], none, [], true, [], 0⟩

def inFlow (s : Layout) : Bool :=
  !s.outerKeys.isEmpty

def column (s : Layout) : Nat :=
  s.cursor.column

def emit (s : Layout) (t : Token) : Layout :=
  { s with tokens := t :: s.tokens, count := s.count + 1 }

def emitBefore (s : Layout) (number : Nat) (t : Token) : Layout :=
  let later := s.count - number
  { s with tokens := s.tokens.take later ++ t :: s.tokens.drop later, count := s.count + 1 }

def dropKey? (s : Layout) : Option Layout :=
  if s.key.any (·.isRequired) then none else some { s with key := none }

def holdKey? (s : Layout) : Option Layout :=
  if s.isKeyAllowed then
    s.dropKey?.map fun dropped =>
      { dropped with key := some ⟨!s.inFlow && s.indent == s.column, s.count, s.cursor.position⟩ }
  else some s

def KeyPlace.isOver (k : KeyPlace) (p : Position) : Bool :=
  k.position.line < p.line || k.position.index + maxKeyLength < p.index

def lastingKey? (p : Position) : Option KeyPlace → Option (Option KeyPlace)
  | some k =>
    if KeyPlace.isOver k p then (if k.isRequired then none else some none) else some (some k)
  | none => some none

/-- Keys do not run over lines. -/
def endKeys? (s : Layout) : Option Layout := do
  let key ← lastingKey? s.cursor.position s.key
  let outerKeys ← s.outerKeys.mapM (lastingKey? s.cursor.position)
  some { s with key, outerKeys }

def openBlock (s : Layout) (column number : Nat) (t : Token) : Layout :=
  if !s.inFlow && s.indent < column then
    { s.emitBefore number t with indent := column, outerIndents := s.indent :: s.outerIndents }
  else s

def closeBlocksTo (s : Layout) (column : Int) : Layout :=
  if s.inFlow then s
  else
    let (n, indent, outerIndents) := closeBlocks column s.indent s.outerIndents
    { s with indent, outerIndents, tokens := List.replicate n .blockEnd ++ s.tokens,
             count := s.count + n }

def allowKey (s : Layout) (allowed : Bool) : Layout :=
  { s with isKeyAllowed := allowed }

def goTo (s : Layout) (c : Cursor) : Layout :=
  { s with cursor := c }

def skip (s : Layout) (n : Nat) : Layout :=
  s.goTo (s.cursor.skip n)

end Layout

end ApiClient.Yaml
