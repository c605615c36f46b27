import ApiClient.Text.Hex
import ApiClient.Yaml.Cursor
import ApiClient.Yaml.Gap

namespace ApiClient.Yaml

/-- Where a quoted scalar stands inside an escape: behind its first character, or with digits of a
code point left to read. -/
inductive Escape where
  | none
  | begun
  | code (left value : Nat)
deriving DecidableEq, Repr

def escaped? : Char → Option Char
  | '0' => some '\x00'
  | 'a' => some '\x07'
  | 'b' => some '\x08'
  | 't' => some '\t'
  | '\t' => some '\t'
  | 'n' => some '\n'
  | 'v' => some '\x0b'
  | 'f' => some '\x0c'
  | 'r' => some '\x0d'
  | 'e' => some '\x1b'
  | ' ' => some ' '
  | '"' => some '"'
  | '/' => some '/'
  | '\\' => some '\\'
  | 'N' => some '\x85'
  | '_' => some '\xa0'
  | 'L' => some '\u2028'
  | 'P' => some '\u2029'
  | _ => none

def codeDigits? : Char → Option Nat
  | 'x' => some 2
  | 'u' => some 4
  | 'U' => some 8
  | _ => none

def isScalarValue (n : Nat) : Bool :=
  n < 0xD800 || (0xDFFF < n && n ≤ 0x10FFFF)

structure Quoting where
  held : List Char
  gap : Gap
  escape : Escape

inductive QuotedStep where
  | close (held : List Char)
  | next (q : Quoting)

def openStep (single : Bool) (q : Quoting) (c : Char) (rest : List Char) : QuotedStep :=
  let held := q.gap.fold ++ q.held
  if single then
    if c = '\'' then
      if rest.head? = some '\'' then .next ⟨held, .none, .begun⟩ else .close held
    else .next ⟨c :: held, .none, .none⟩
  else if c = '"' then .close held
  else if c = '\\' then .next ⟨held, .none, .begun⟩
  else .next ⟨c :: held, .none, .none⟩

/-- The character behind the one that starts an escape. An escaped line break folds to nothing. -/
def begunStep? (single : Bool) (held : List Char) (c : Char) : Option Quoting :=
  if single then some ⟨c :: held, .none, .none⟩
  else if isBreak c then some ⟨held, .breaks .none [], .none⟩
  else match codeDigits? c with
    | some left => some ⟨held, .none, .code left 0⟩
    | none => (escaped? c).map fun e => ⟨e :: held, .none, .none⟩

def codeStep? (held : List Char) (left value : Nat) (c : Char) : Option Quoting := do
  let value := value * 16 + (← Text.hexValue? c)
  if left > 1 then some ⟨held, .none, .code (left - 1) value⟩
  else if isScalarValue value then some ⟨Char.ofNat value :: held, .none, .none⟩
  else none

def quotedStep? (single : Bool) (q : Quoting) (p : Position) (c : Char) (rest : List Char) :
    Option QuotedStep :=
  match q.escape with
  | .begun => (begunStep? single q.held c).map .next
  | .code left value => (codeStep? q.held left value c).map .next
  | .none =>
    if isSpace c then some (.next { q with gap := q.gap.add c })
    else if p.column = 0 ∧ isDocumentBound (c :: rest) then none
    else some (openStep single q c rest)

def quotedFrom (single : Bool) (q : Quoting) (p : Position) : List Char → Option (String × Cursor)
  | [] => none
  | c :: rest =>
    match quotedStep? single q p c rest with
    | none => none
    | some (.close held) => some (String.ofList held.reverse, ⟨p.after c, rest⟩)
    | some (.next q) => quotedFrom single q (p.after c) rest

def quoted? (single : Bool) (c : Cursor) : Option (String × Cursor) :=
  let c := c.skip 1
  quotedFrom single ⟨[], .none, .none⟩ c.position c.rest

end ApiClient.Yaml
