namespace ApiClient.Yaml

def isPrintable (c : Char) : Bool :=
  let n := c.toNat
  n == 0x9 || n == 0xA || n == 0xD || (0x20 ≤ n && n ≤ 0x7E) || n == 0x85 ||
    (0xA0 ≤ n && n ≤ 0xFFFD) || 0x10000 ≤ n

/-- A carriage return, alone or before a line feed, and a next-line character are line feeds. -/
def lineFeeds : List Char → List Char
  | '\x0d' :: '\n' :: rest => '\n' :: lineFeeds rest
  | c :: rest => (if c = '\x0d' ∨ c = '\x85' then '\n' else c) :: lineFeeds rest
  | [] => []

def prepare? (cs : List Char) : Option (List Char) :=
  if cs.all isPrintable then some (lineFeeds cs) else none

def isBreak (c : Char) : Bool :=
  c == '\n' || c == '\u2028' || c == '\u2029'

def isBlank (c : Char) : Bool :=
  c == ' ' || c == '\t'

def isSpace (c : Char) : Bool :=
  isBlank c || isBreak c

def isSpaceNext : List Char → Bool
  | [] => true
  | c :: _ => isSpace c

def isBreakNext : List Char → Bool
  | [] => true
  | c :: _ => isBreak c

def isNameChar (c : Char) : Bool :=
  c.isAlphanum || c == '_' || c == '-'

def isFlowIndicator (c : Char) : Bool :=
  [',', '[', ']', '\x7b', '\x7d'].contains c

/-- Three characters that stand alone at the start of a line and bound a document. -/
def isDocumentMark (mark : Char) (cs : List Char) : Bool :=
  cs.take 3 == [mark, mark, mark] && isSpaceNext (cs.drop 3)

def isDocumentBound (cs : List Char) : Bool :=
  isDocumentMark '-' cs || isDocumentMark '.' cs

end ApiClient.Yaml
