import ApiClient.Json.Token

namespace ApiClient.Json

def maxDepth : Nat := 127

/-- An open container: the items so far, last first, or the entries so far and the current key. -/
inductive Frame where
  | array (items : List Json)
  | object (entries : List (String × Json)) (key : String)

inductive Expecting where
  | value
  | valueOrClose
  | key
  | keyOrClose
  | colon
  | commaOrClose
  | finish (v : Json)

structure Reading where
  stack : List Frame
  expecting : Expecting

def place (v : Json) : List Frame → Reading
  | [] => ⟨[], .finish v⟩
  | .array items :: rest => ⟨.array (v :: items) :: rest, .commaOrClose⟩
  | .object entries key :: rest => ⟨.object (insertEntry key v entries) key :: rest, .commaOrClose⟩

def openFrame (frame : Frame) (expecting : Expecting) (stack : List Frame) : Option Reading :=
  if stack.length < maxDepth then some ⟨frame :: stack, expecting⟩ else none

def valueToken (stack : List Frame) : Token → Option Reading
  | .scalar v => some (place v stack)
  | .openBracket => openFrame (.array []) .valueOrClose stack
  | .openBrace => openFrame (.object [] "") .keyOrClose stack
  | _ => none

def closeToken : List Frame → Token → Option Reading
  | .array items :: rest, .closeBracket => some (place (.array items.reverse) rest)
  | .object entries _ :: rest, .closeBrace => some (place (.object entries) rest)
  | _, _ => none

def keyToken : List Frame → Token → Option Reading
  | .object entries _ :: rest, .scalar (.string key) => some ⟨.object entries key :: rest, .colon⟩
  | _, _ => none

def commaToken : List Frame → Token → Option Reading
  | .array items :: rest, .comma => some ⟨.array items :: rest, .value⟩
  | .object entries key :: rest, .comma => some ⟨.object entries key :: rest, .key⟩
  | _, _ => none

def readStep (r : Reading) (t : Token) : Option Reading :=
  match r.expecting with
  | .value => valueToken r.stack t
  | .valueOrClose => (closeToken r.stack t).orElse fun _ => valueToken r.stack t
  | .key => keyToken r.stack t
  | .keyOrClose => (closeToken r.stack t).orElse fun _ => keyToken r.stack t
  | .colon => match t with
    | .colon => some ⟨r.stack, .value⟩
    | _ => none
  | .commaOrClose => (closeToken r.stack t).orElse fun _ => commaToken r.stack t
  | .finish _ => none

def ofTokens? (ts : List Token) : Option Json := do
  match (← ts.foldlM readStep ⟨[], .value⟩).expecting with
  | .finish v => some v
  | _ => none

def ofText? (s : String) : Option Json :=
  (tokens s.toList).bind ofTokens?

end ApiClient.Json
