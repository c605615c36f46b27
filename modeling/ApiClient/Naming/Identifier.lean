import ApiClient.Text.Blank
import ApiClient.Text.Latin
import ApiClient.Text.Pieces

namespace ApiClient.Naming

open Text

inductive Notice where
  | fallback
  | transliterated
  | digit
deriving DecidableEq, Repr

def isWord (c : Char) : Bool :=
  c.isAlphanum || c == '_'

def isSeparator (c : Char) : Bool :=
  c == '-' || c == '_' || c == ' '

def isSeparatorOrDot (c : Char) : Bool :=
  isSeparator c || c == '.'

def startsWithDigit (cs : List Char) : Bool :=
  cs.head?.any (·.isDigit)

def onlyWords (cs : List Char) : List Char :=
  cs.filter isWord

/-- A separator in front of a word character is dropped, and the character becomes upper case. -/
def joinSeparated : List Char → List Char
  | [] => []
  | [c] => [c]
  | c :: next :: rest =>
    if isSeparator c && isWord next then next.toUpper :: joinSeparated rest
    else c :: joinSeparated (next :: rest)

/-- A run of separators and dots in front of a letter or digit is dropped, and that character
becomes upper case. `held` is the current run, last character first. -/
def joinRuns (held : List Char) : List Char → List Char
  | [] => held.reverse
  | c :: rest =>
    if isSeparatorOrDot c then joinRuns (c :: held) rest
    else if !held.isEmpty && c.isAlphanum then c.toUpper :: joinRuns [] rest
    else held.reverse ++ c :: joinRuns [] rest

def replaceDotChars (cs : List Char) : List Char :=
  onlyWords (joinRuns [] cs)

def replaceDot (s : String) : String :=
  String.ofList (replaceDotChars s.toList)

def transliterate [Transliteration] (cs : List Char) : List Char :=
  onlyWords (cs.flatMap latin)

end ApiClient.Naming
