import ApiClient.Json.Number
import ApiClient.Text.Blank

namespace ApiClient.Json

def scalarText? : Json → Option String
  | string s => some s
  | number n => some n.text
  | bool b => some (if b then "true" else "false")
  | _ => none

def scalarTexts : Json → List String
  | array items => items.filterMap scalarText?
  | v => v.scalarText?.toList

def isWordIgnoringCase (word s : String) : Bool :=
  (Text.trim s.toList).map Char.toLower == word.toList

/-- Booleans, `"true"` and `"false"` in any case, and whether a number is not zero. -/
def truth? : Json → Option Bool
  | bool b => some b
  | string s =>
    if isWordIgnoringCase "true" s then some true
    else if isWordIgnoringCase "false" s then some false
    else none
  | number n => some !n.isZero
  | _ => none

/-- The strings of an array of strings. -/
def allStrings? : List Json → Option (List String)
  | [] => some []
  | string s :: rest => (allStrings? rest).map (s :: ·)
  | _ :: _ => none

end ApiClient.Json
