import ApiClient.Client.Basic
import ApiClient.Text.Pieces

namespace ApiClient.Path

inductive Piece where
  | char (c : Char)
  | token (name : List Char)
deriving DecidableEq, Repr

def isNameChar (c : Char) : Bool :=
  c != '/' && c != '{' && c != '}' && c != ':'

def isInBraces (c : Char) : Bool :=
  c != '}'

/-- The token at the start of a text, and what follows it. -/
def token? : List Char → Option (List Char × List Char)
  | [] => none
  | c :: rest =>
    if c = ':' then
      if (rest.takeWhile isNameChar).isEmpty then none
      else some (rest.takeWhile isNameChar, rest.dropWhile isNameChar)
    else if c = '{' then
      if (rest.takeWhile isInBraces).isEmpty || (rest.dropWhile isInBraces).isEmpty then none
      else some (rest.takeWhile isInBraces, (rest.dropWhile isInBraces).tail)
    else none

theorem length_of_token? {cs name rest : List Char} (h : token? cs = some (name, rest)) :
    rest.length < cs.length := by
  have hd (p : Char → Bool) (l : List Char) : (l.dropWhile p).length ≤ l.length :=
    (List.dropWhile_suffix p).length_le
  unfold token? at h
  split at h
  · simp at h
  · next c tail =>
    have h1 := hd isNameChar tail
    have h2 := hd isInBraces tail
    split at h
    · split at h
      · simp at h
      · simp only [Option.some.injEq, Prod.mk.injEq] at h
        simp only [← h.2, List.length_cons]
        omega
    · split at h
      · split at h
        · simp at h
        · simp only [Option.some.injEq, Prod.mk.injEq] at h
          simp only [← h.2, List.length_cons, List.length_tail]
          omega
      · simp at h

/-- A path as single characters and tokens, leftmost tokens first. -/
def pieces : List Char → List Piece
  | [] => []
  | c :: rest =>
    match _h : token? (c :: rest) with
    | some (name, after) => .token name :: pieces after
    | none => .char c :: pieces rest
termination_by cs => cs.length
decreasing_by
  · exact length_of_token? _h
  · simp

def tokenNames (path : String) : List String :=
  (pieces path.toList).filterMap fun
    | .token name => some (String.ofList name)
    | .char _ => none

def placeholder (name : List Char) : List Char :=
  '$' :: '{' :: name ++ ['}']

def Piece.template : Piece → List Char
  | char c => [c]
  | token name => placeholder name

/-- The path with every token written as a placeholder. -/
def template (path : String) : String :=
  String.ofList ((pieces path.toList).flatMap Piece.template)

def aliasAt (i : Nat) : String :=
  "param" ++ toString i

def withAliases (i : Nat) : List Param → List Param
  | [] => []
  | p :: rest => { p with aliasName := some (aliasAt i) } :: withAliases (i + 1) rest

/-- Every placeholder of a parameter points at the alias, one parameter after the other. -/
def pointAtAliases (path : String) : List Param → String
  | [] => path
  | p :: rest =>
    let target := (p.aliasName.getD "").toList
    pointAtAliases
      (Text.replaceText (String.ofList (placeholder p.name.toList))
        (String.ofList (placeholder target)) path) rest

end ApiClient.Path
