import ApiClient.Yaml.Cursor
import ApiClient.Text.Hex

namespace ApiClient.Yaml

inductive Chomping where
  | strip
  | clip
  | keep
deriving DecidableEq, Repr

structure BlockHeader where
  chomping : Chomping
  indent : Option Nat
  after : Cursor

def chompingOf? : Char → Option Chomping
  | '-' => some .strip
  | '+' => some .keep
  | _ => none

/-- A chomping indicator and an indentation of one to nine, in either order and both optional. -/
def blockIndicators? (c : Cursor) : Option BlockHeader :=
  let chomping? (c : Cursor) : Option Chomping := c.rest.head?.bind chompingOf?
  let digit? (c : Cursor) : Option Nat := (c.rest.head?.filter Char.isDigit).bind Text.hexValue?
  match chomping? c, digit? c with
  | some chomping, _ =>
    let c := c.skip 1
    match digit? c with
    | some indent => if indent = 0 then none else some ⟨chomping, some indent, c.skip 1⟩
    | none => some ⟨chomping, none, c⟩
  | none, some indent =>
    let c := c.skip 1
    if indent = 0 then none
    else match chomping? c with
      | some chomping => some ⟨chomping, some indent, c.skip 1⟩
      | none => some ⟨.clip, some indent, c⟩
  | none, none => some ⟨.clip, none, c⟩

def blockHeader? (c : Cursor) : Option BlockHeader := do
  let header ← blockIndicators? c
  let after ← header.after.skipLine?
  some { header with after }

/-- A block scalar while it is read. `held` and `breaks`, the empty lines since the last line with
text, stand last first; `lineBreak` ended that line. `deepest` is the greatest column of an empty
line. -/
structure BlockText where
  held : List Char
  lineBreak : Option Char
  breaks : List Char
  startsBlank : Bool
  indent : Option Nat
  deepest : Nat
  inLine : Bool

namespace BlockText

/-- In folded text a line feed between two lines that do not start with blanks is a space, or
nothing before empty lines. -/
def join (b : BlockText) (literal startsBlank : Bool) : List Char :=
  if !literal && b.lineBreak == some '\n' && !b.startsBlank && !startsBlank then
    if b.breaks.isEmpty then ' ' :: b.held else b.breaks ++ b.held
  else b.breaks ++ b.lineBreak.toList ++ b.held

def text (b : BlockText) (chomping : Chomping) : String :=
  let kept := match chomping with
    | .strip => b.held
    | .clip => b.lineBreak.toList ++ b.held
    | .keep => b.breaks ++ b.lineBreak.toList ++ b.held
  String.ofList kept.reverse

def indentOr (b : BlockText) (least column : Nat) : Nat :=
  b.indent.getD (max (max b.deepest column) least)

end BlockText

inductive BlockStep where
  | finish
  | next (b : BlockText)

def indentStep? (literal : Bool) (least : Nat) (b : BlockText) (column : Nat) (c : Char) :
    Option BlockStep :=
  if isBlank c && b.indent.all (column < ·) then
    if c = '\t' then none else some (.next b)
  else if isBreak c then
    some (.next { b with breaks := c :: b.breaks, deepest := max b.deepest column })
  else
    let indent := b.indentOr least column
    if column ≠ indent then some .finish
    else
      let startsBlank := isBlank c
      some (.next ⟨c :: b.join literal startsBlank, none, [], startsBlank, some indent, 0, true⟩)

def blockStep? (literal : Bool) (least : Nat) (b : BlockText) (p : Position) (c : Char) :
    Option BlockStep :=
  if b.inLine then
    if isBreak c then some (.next { b with lineBreak := some c, inLine := false })
    else some (.next { b with held := c :: b.held })
  else indentStep? literal least b p.column c

def blockFrom (literal : Bool) (least : Nat) (b : BlockText) (p : Position) :
    List Char → Option (BlockText × Cursor)
  | [] => some (b, ⟨p, []⟩)
  | c :: rest =>
    match blockStep? literal least b p c with
    | none => none
    | some .finish => some (b, ⟨p, c :: rest⟩)
    | some (.next b) => blockFrom literal least b (p.after c) rest

def block? (literal : Bool) (parent : Int) (c : Cursor) : Option (String × Cursor) := do
  let header ← blockHeader? (c.skip 1)
  let indent := header.indent.map fun n => (max parent 0).toNat + n
  let least := max 1 (parent + 1).toNat
  let start : BlockText := ⟨[], none, [], false, indent, 0, false⟩
  let (b, after) ← blockFrom literal least start header.after.position header.after.rest
  some (b.text header.chomping, after)

end ApiClient.Yaml
