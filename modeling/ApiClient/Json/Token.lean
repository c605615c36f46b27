import ApiClient.Json.Number
import ApiClient.Text.Hex

namespace ApiClient.Json

inductive Token where
  | openBrace
  | closeBrace
  | openBracket
  | closeBracket
  | comma
  | colon
  | scalar (v : Json)

/-- Where a string stands inside an escape. `high` is the first half of a surrogate pair. -/
inductive Escape where
  | none
  | begun
  | digits (count : Nat) (value : Nat)
  | high (half : Nat)
  | highBegun (half : Nat)
  | lowDigits (half : Nat) (count : Nat) (value : Nat)

inductive Lexing where
  | between
  | word (held : List Char)
  | text (held : List Char) (escape : Escape)

def isJsonBlank (c : Char) : Bool :=
  c == ' ' || c == '\n' || c == '\t' || c == '\x0d'

def isWordChar (c : Char) : Bool :=
  c.isAlphanum || c == '-' || c == '+' || c == '.'

def wordValue? (cs : List Char) : Option Json :=
  if cs = "null".toList then some .null
  else if cs = "true".toList then some (.bool true)
  else if cs = "false".toList then some (.bool false)
  else (Number.ofText? cs).map .number

def simpleEscape? : Char → Option Char
  | '"' => some '"'
  | '\\' => some '\\'
  | '/' => some '/'
  | 'b' => some '\x08'
  | 'f' => some '\x0c'
  | 'n' => some '\n'
  | 'r' => some '\x0d'
  | 't' => some '\t'
  | _ => none

def betweenStep (c : Char) : Option (Lexing × List Token) :=
  if isJsonBlank c then some (.between, [])
  else if isWordChar c then some (.word [c], [])
  else match c with
    | '"' => some (.text [] .none, [])
    | '{' => some (.between, [.openBrace])
    | '}' => some (.between, [.closeBrace])
    | '[' => some (.between, [.openBracket])
    | ']' => some (.between, [.closeBracket])
    | ',' => some (.between, [.comma])
    | ':' => some (.between, [.colon])
    | _ => none

def isHighHalf (n : Nat) : Bool :=
  0xD800 ≤ n && n < 0xDC00

def isLowHalf (n : Nat) : Bool :=
  0xDC00 ≤ n && n < 0xE000

def textStep (held : List Char) (escape : Escape) (c : Char) : Option (Lexing × List Token) :=
  match escape with
  | .none =>
    if c = '"' then some (.between, [.scalar (.string (String.ofList held.reverse))])
    else if c = '\\' then some (.text held .begun, [])
    else if c.toNat < 0x20 then none
    else some (.text (c :: held) .none, [])
  | .begun =>
    if c = 'u' then some (.text held (.digits 0 0), [])
    else (simpleEscape? c).map fun e => (.text (e :: held) .none, [])
  | .digits count value => do
    let value := value * 16 + (← Text.hexValue? c)
    if count < 3 then some (.text held (.digits (count + 1) value), [])
    else if isHighHalf value then some (.text held (.high value), [])
    else if isLowHalf value then none
    else some (.text (Char.ofNat value :: held) .none, [])
  | .high half => if c = '\\' then some (.text held (.highBegun half), []) else none
  | .highBegun half => if c = 'u' then some (.text held (.lowDigits half 0 0), []) else none
  | .lowDigits half count value => do
    let value := value * 16 + (← Text.hexValue? c)
    if count < 3 then some (.text held (.lowDigits half (count + 1) value), [])
    else if isLowHalf value then
      let joined := 0x10000 + (half - 0xD800) * 0x400 + (value - 0xDC00)
      some (.text (Char.ofNat joined :: held) .none, [])
    else none

def lexStep (state : Lexing) (c : Char) : Option (Lexing × List Token) :=
  match state with
  | .between => betweenStep c
  | .word held =>
    if isWordChar c then some (.word (c :: held), [])
    else do
      let v ← wordValue? held.reverse
      let (state, tokens) ← betweenStep c
      some (state, .scalar v :: tokens)
  | .text held escape => textStep held escape c

def tokensFrom (state : Lexing) : List Char → Option (List Token)
  | [] =>
    match state with
    | .between => some []
    | .word held => (wordValue? held.reverse).map fun v => [.scalar v]
    | .text _ _ => none
  | c :: rest => do
    let (state, tokens) ← lexStep state c
    let more ← tokensFrom state rest
    some (tokens ++ more)

def tokens (cs : List Char) : Option (List Token) :=
  tokensFrom .between cs

end ApiClient.Json
