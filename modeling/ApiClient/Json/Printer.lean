import ApiClient.Json.Number

namespace ApiClient.Json

def hexDigit (n : Nat) : Char :=
  Nat.digitChar n

def escapeChar (c : Char) : List Char :=
  match c with
  | '"' => ['\\', '"']
  | '\\' => ['\\', '\\']
  | '\n' => ['\\', 'n']
  | '\t' => ['\\', 't']
  | '\x0d' => ['\\', 'r']
  | '\x08' => ['\\', 'b']
  | '\x0c' => ['\\', 'f']
  | c =>
    if c.toNat < 0x20 then
      ['\\', 'u', '0', '0', hexDigit (c.toNat / 16), hexDigit (c.toNat % 16)]
    else [c]

def quotedText (s : String) : String :=
  String.ofList ('"' :: s.toList.flatMap escapeChar ++ ['"'])

mutual

def text : Json → String
  | null => "null"
  | bool b => if b then "true" else "false"
  | number n => n.text
  | string s => quotedText s
  | array items => "[" ++ ",".intercalate (itemTexts items) ++ "]"
  | object entries => "\x7b" ++ ",".intercalate (entryTexts entries) ++ "\x7d"

def itemTexts : List Json → List String
  | [] => []
  | v :: rest => v.text :: itemTexts rest

def entryTexts : List (String × Json) → List String
  | [] => []
  | (k, v) :: rest => (quotedText k ++ ":" ++ v.text) :: entryTexts rest

end

def newLine (depth : Nat) : String :=
  String.ofList ('\n' :: List.replicate (2 * depth) ' ')

mutual

def prettyAt (depth : Nat) : Json → String
  | array [] => "[]"
  | object [] => "\x7b\x7d"
  | array items =>
    "[" ++ newLine (depth + 1) ++
      ("," ++ newLine (depth + 1)).intercalate (prettyItems (depth + 1) items) ++
      newLine depth ++ "]"
  | object entries =>
    "\x7b" ++ newLine (depth + 1) ++
      ("," ++ newLine (depth + 1)).intercalate (prettyEntries (depth + 1) entries) ++
      newLine depth ++ "\x7d"
  | v => v.text

def prettyItems (depth : Nat) : List Json → List String
  | [] => []
  | v :: rest => v.prettyAt depth :: prettyItems depth rest

def prettyEntries (depth : Nat) : List (String × Json) → List String
  | [] => []
  | (k, v) :: rest => (quotedText k ++ ": " ++ v.prettyAt depth) :: prettyEntries depth rest

end

def pretty (v : Json) : String :=
  v.prettyAt 0

end ApiClient.Json
