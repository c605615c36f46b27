import ApiClient.Yaml.Block
import ApiClient.Yaml.Layout
import ApiClient.Yaml.Name
import ApiClient.Yaml.Plain
import ApiClient.Yaml.Quoted

namespace ApiClient.Yaml

namespace Layout

/-- Go over white space and comments, from a position on. A tab counts as white space where no block
can open. A new line allows a key outside of flow collections. -/
def skipSpaceFrom (inFlow isKeyAllowed inComment : Bool) (p : Position) :
    List Char → Bool × Cursor
  | [] => (isKeyAllowed, ⟨p, []⟩)
  | c :: rest =>
    if isBreak c then skipSpaceFrom inFlow (isKeyAllowed || !inFlow) false (p.after c) rest
    else if inComment then skipSpaceFrom inFlow isKeyAllowed true (p.after c) rest
    else if c == ' ' || (c == '\t' && (inFlow || !isKeyAllowed)) ||
        (c == '\ufeff' && p.column == 0) then
      skipSpaceFrom inFlow isKeyAllowed false (p.after c) rest
    else if c == '#' then skipSpaceFrom inFlow isKeyAllowed true (p.after c) rest
    else (isKeyAllowed, ⟨p, c :: rest⟩)

def skipSpace (s : Layout) : Layout :=
  let (isKeyAllowed, cursor) :=
    skipSpaceFrom s.inFlow s.isKeyAllowed false s.cursor.position s.cursor.rest
  { s with isKeyAllowed, cursor }

def boundary? (s : Layout) (t : Token) (length : Nat) : Option Layout := do
  let s ← (s.closeBlocksTo (-1)).dropKey?
  some (((s.allowKey false).emit t).skip length)

def directiveToken? (s : Layout) : Option Layout := do
  let s ← (s.closeBlocksTo (-1)).dropKey?
  let (t, after) ← directive? s.cursor
  some (((s.allowKey false).emit t).goTo after)

def flowStart? (s : Layout) (t : Token) : Option Layout := do
  let s ← s.holdKey?
  let s := (s.allowKey true).emit t
  some ({ s with key := none, outerKeys := s.key :: s.outerKeys }.skip 1)

def flowEnd? (s : Layout) (t : Token) : Option Layout := do
  let s ← s.dropKey?
  let s := (s.allowKey false).emit t
  match s.outerKeys with
  | [] => some (s.skip 1)
  | key :: outerKeys => some ({ s with key, outerKeys }.skip 1)

def comma? (s : Layout) : Option Layout := do
  let s ← s.dropKey?
  some (((s.allowKey true).emit .comma).skip 1)

/-- In a block, an entry or an explicit key stands where a key may stand, and may open a block. -/
def openBlockHere? (s : Layout) (t : Token) : Option Layout :=
  if s.inFlow then some s
  else if s.isKeyAllowed then some (s.openBlock s.column s.count t)
  else none

def item? (s : Layout) : Option Layout := do
  let s ← (← s.openBlockHere? .blockSequence).dropKey?
  some (((s.allowKey true).emit .entry).skip 1)

def explicitKey? (s : Layout) : Option Layout := do
  let s ← (← s.openBlockHere? .blockMapping).dropKey?
  some (((s.allowKey (!s.inFlow)).emit .key).skip 1)

def value? (s : Layout) : Option Layout :=
  match s.key with
  | some k =>
    let s := (s.emitBefore k.number .key).openBlock k.position.column k.number .blockMapping
    some ((({ s with key := none }.allowKey false).emit .value).skip 1)
  | none => do
    let s ← s.openBlockHere? .blockMapping
    some (((s.allowKey (!s.inFlow)).emit .value).skip 1)

def keyPart? (s : Layout) (read : Cursor → Option (Token × Cursor)) : Option Layout := do
  let s ← s.holdKey?
  let (t, after) ← read s.cursor
  some (((s.allowKey false).emit t).goTo after)

def quotedToken? (single : Bool) (c : Cursor) : Option (Token × Cursor) :=
  (quoted? single c).map fun (text, after) => (.scalar text .quoted, after)

def blockToken? (s : Layout) (style : Style) : Option Layout := do
  let s ← s.dropKey?
  let (text, after) ← block? (style == .literal) s.indent s.cursor
  some (((s.allowKey true).emit (.scalar text style)).goTo after)

def plainToken? (s : Layout) : Option Layout := do
  let s ← s.holdKey?
  let p ← plain? ⟨s.inFlow, (s.indent + 1).toNat⟩ s.cursor
  some (((s.allowKey p.isBroken).emit (.scalar p.text .plain)).goTo p.after)

/-- A plain scalar does not start with an indicator, unless text follows one that needs a space. -/
def startsPlain (s : Layout) (c : Char) (rest : List Char) : Bool :=
  !("-?:,[]\x7b\x7d#&*!|>'\"%@\x60".toList.contains c || isSpace c) ||
    (c == '-' && !rest.head?.any isBlank) ||
    (!s.inFlow && (c == '?' || c == ':') && !isSpaceNext rest)

def token? (s : Layout) (c : Char) (rest : List Char) : Option Layout :=
  if s.column = 0 ∧ c = '%' then s.directiveToken?
  else if s.column = 0 ∧ isDocumentMark '-' (c :: rest) then s.boundary? .documentStart 3
  else if s.column = 0 ∧ isDocumentMark '.' (c :: rest) then s.boundary? .documentEnd 3
  else if c = '[' then s.flowStart? .flowSequence
  else if c = '\x7b' then s.flowStart? .flowMapping
  else if c = ']' then s.flowEnd? .flowSequenceEnd
  else if c = '\x7d' then s.flowEnd? .flowMappingEnd
  else if c = ',' then s.comma?
  else if c = '-' ∧ isSpaceNext rest then s.item?
  else if c = '?' ∧ (s.inFlow ∨ isSpaceNext rest) then s.explicitKey?
  else if c = ':' ∧ (s.inFlow ∨ isSpaceNext rest) then s.value?
  else if c = '*' then s.keyPart? fun c => (anchorName? c).map fun (n, after) => (.aliasOf n, after)
  else if c = '&' then s.keyPart? fun c => (anchorName? c).map fun (n, after) => (.anchor n, after)
  else if c = '!' then s.keyPart? (tag? s.inFlow)
  else if c = '|' ∧ !s.inFlow then s.blockToken? .literal
  else if c = '>' ∧ !s.inFlow then s.blockToken? .folded
  else if c = '\'' then s.keyPart? (quotedToken? true)
  else if c = '"' then s.keyPart? (quotedToken? false)
  else if s.startsPlain c rest then s.plainToken?
  else none

def next? (s : Layout) : Option (Layout × Bool) := do
  let s ← s.skipSpace.endKeys?
  let s := s.closeBlocksTo s.column
  match s.cursor.rest with
  | [] => (s.boundary? .streamEnd 0).map fun s => (s, true)
  | c :: rest => (s.token? c rest).map fun s => (s, false)

def index (s : Layout) : Nat :=
  s.cursor.position.index

/-- Read on up to the end of a text of that length. Every token but the last takes up characters. -/
def finish? (length : Nat) (s : Layout) : Option Layout :=
  match s.next? with
  | none => none
  | some (s', true) => some s'
  | some (s', false) =>
    if s.index < s'.index ∧ s'.index ≤ length then finish? length s' else none
termination_by length - s.index

end Layout

def tokens? (text : String) : Option (List Token) := do
  let cs ← prepare? text.toList
  let s ← (Layout.start cs).finish? cs.length
  some s.tokens.reverse

end ApiClient.Yaml
