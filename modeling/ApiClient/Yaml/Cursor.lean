import ApiClient.Yaml.Character

namespace ApiClient.Yaml

structure Position where
  line : Nat
  column : Nat
  index : Nat
deriving DecidableEq, Repr

structure Cursor where
  position : Position
  rest : List Char

def Position.after (p : Position) (c : Char) : Position :=
  if isBreak c then ⟨p.line + 1, 0, p.index + 1⟩ else ⟨p.line, p.column + 1, p.index + 1⟩

namespace Cursor

def start (cs : List Char) : Cursor :=
  ⟨⟨0, 0, 0⟩, cs⟩

def column (c : Cursor) : Nat :=
  c.position.column

def skip : Nat → Cursor → Cursor
  | n + 1, ⟨p, c :: rest⟩ => skip n ⟨p.after c, rest⟩
  | _, c => c

def spanFrom (f : Char → Bool) (p : Position) : List Char → List Char × Cursor
  | [] => ([], ⟨p, []⟩)
  | c :: rest =>
    if f c then
      let (taken, after) := spanFrom f (p.after c) rest
      (c :: taken, after)
    else ([], ⟨p, c :: rest⟩)

def span (f : Char → Bool) (c : Cursor) : List Char × Cursor :=
  spanFrom f c.position c.rest

def skipWhile (f : Char → Bool) (c : Cursor) : Cursor :=
  (c.span f).2

/-- Go behind blanks, a comment and the end of the line, if nothing else stands on the line. -/
def skipLine? (c : Cursor) : Option Cursor :=
  let c := c.skipWhile isBlank
  let c := if c.rest.head? = some '#' then c.skipWhile fun c => !isBreak c else c
  if isBreakNext c.rest then some (c.skip 1) else none

end Cursor

end ApiClient.Yaml
