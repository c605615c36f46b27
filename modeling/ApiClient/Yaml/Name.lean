import ApiClient.Text.Hex
import ApiClient.Yaml.Cursor
import ApiClient.Yaml.Token

namespace ApiClient.Yaml

def endsAnchor (c : Char) : Bool :=
  isSpace c || ['?', ':', ',', ']', '\x7d', '%', '@', '\x60'].contains c

def anchorName? (c : Cursor) : Option (List Char × Cursor) :=
  let (name, after) := (c.skip 1).span isNameChar
  if name ≠ [] ∧ after.rest.head?.all endsAnchor then some (name, after) else none

/-- A handle has a mark on both sides; a lone mark and the start of a suffix are read too. -/
def handle? (c : Cursor) : Option (List Char × Cursor) :=
  if c.rest.head? ≠ some '!' then none
  else
    let (name, after) := (c.skip 1).span isNameChar
    if after.rest.head? = some '!' then some ('!' :: name ++ ['!'], after.skip 1)
    else some ('!' :: name, after)

def isWholeHandle (cs : List Char) : Bool :=
  cs.length > 1 && cs.getLast? == some '!'

/-- A verbatim tag may have flow indicators that other tags may not have. -/
def isUriChar (verbatim : Bool) (c : Char) : Bool :=
  isNameChar c || ";/?:@&=+$.!~*'()".toList.contains c || (verbatim && [',', '[', ']'].contains c)

def octetsAfter? (octet : Nat) : Option Nat :=
  if octet < 0x80 then some 0
  else if octet / 0x20 = 0x6 then some 1
  else if octet / 0x10 = 0xE then some 2
  else if octet / 0x8 = 0x1E then some 3
  else none

def uriFrom (verbatim : Bool) (left : Nat) (held : List Char) (p : Position) :
    List Char → Option (List Char × Cursor)
  | '%' :: a :: b :: rest => do
    let octet := (← Text.hexValue? a) * 16 + (← Text.hexValue? b)
    let left ← if left = 0 then octetsAfter? octet
      else if octet / 0x40 = 2 then some (left - 1) else none
    uriFrom verbatim left (Char.ofNat octet :: held) (((p.after '%').after a).after b) rest
  | c :: rest =>
    if left ≠ 0 ∨ c = '%' then none
    else if isUriChar verbatim c then uriFrom verbatim 0 (c :: held) (p.after c) rest
    else some (held.reverse, ⟨p, c :: rest⟩)
  | [] => if left = 0 then some (held.reverse, ⟨p, []⟩) else none

def uri? (verbatim : Bool) (c : Cursor) : Option (List Char × Cursor) :=
  uriFrom verbatim 0 [] c.position c.rest

def nonEmptyUri? (verbatim : Bool) (c : Cursor) : Option (List Char × Cursor) :=
  (uri? verbatim c).filter fun (text, _) => !text.isEmpty

/-- The handle and the suffix of the tag that starts here. The handle is empty when the suffix is
the whole tag, as in a verbatim tag and in a lone mark. -/
def tagParts? (c : Cursor) : Option ((List Char × List Char) × Cursor) := do
  if (c.rest.drop 1).head? = some '<' then
    let (suffix, after) ← nonEmptyUri? true (c.skip 2)
    guard (after.rest.head? = some '>')
    some (([], suffix), after.skip 1)
  else
    let (handle, after) ← handle? c
    if isWholeHandle handle then
      let (suffix, after) ← nonEmptyUri? false after
      some ((handle, suffix), after)
    else
      let (more, after) ← uri? false after
      match handle.drop 1 ++ more with
      | [] => some (([], ['!']), after)
      | suffix => some ((['!'], suffix), after)

def tag? (inFlow : Bool) (c : Cursor) : Option (Token × Cursor) := do
  let ((handle, suffix), after) ← tagParts? c
  guard (isSpaceNext after.rest ∨ (inFlow ∧ after.rest.head? = some ','))
  some (.tag handle suffix, after)

def shortNumber? (c : Cursor) : Option (Nat × Cursor) :=
  let (digits, after) := c.span Char.isDigit
  if digits = [] ∨ digits.length > 9 then none
  else some (digits.foldl (fun n d => n * 10 + (d.toNat - '0'.toNat)) 0, after)

def version? (c : Cursor) : Option (Token × Cursor) := do
  let (major, c) ← shortNumber? (c.skipWhile isBlank)
  guard (c.rest.head? = some '.')
  let (minor, c) ← shortNumber? (c.skip 1)
  some (.version major minor, c)

def handleDirective? (c : Cursor) : Option (Token × Cursor) := do
  let (handle, c) ← handle? (c.skipWhile isBlank)
  guard (handle = ['!'] ∨ isWholeHandle handle)
  guard (c.rest.head?.any isBlank)
  let (lead, c) ← nonEmptyUri? true (c.skipWhile isBlank)
  guard (isSpaceNext c.rest)
  some (.handle handle lead, c)

def directive? (c : Cursor) : Option (Token × Cursor) := do
  let (name, c) := (c.skip 1).span isNameChar
  guard (isSpaceNext c.rest)
  let (token, c) ←
    if name = "YAML".toList then version? c
    else if name = "TAG".toList then handleDirective? c
    else none
  some (token, ← c.skipLine?)

end ApiClient.Yaml
