import ApiClient.Json.Basic
import ApiClient.Text.Pieces

namespace ApiClient.Json

open Text

def unescapeSegment : List Char → List Char
  | [] => []
  | [c] => [c]
  | c :: next :: rest =>
    if c = '~' ∧ next = '1' then '/' :: unescapeSegment rest
    else if c = '~' ∧ next = '0' then '~' :: unescapeSegment rest
    else c :: unescapeSegment (next :: rest)

/-- The keys that a reference walks along, nothing when it does not point into the document. -/
def pointerKeys? (reference : String) : Option (List String) :=
  (['#', '/'].isPrefixOf? reference.toList).map fun pointer =>
    (pointer.splitOnP (· == '/')).map fun segment => String.ofList (unescapeSegment segment)

def index? (key : String) : Option Nat :=
  let digits := match key.toList with
    | '+' :: rest => rest
    | cs => cs
  if !digits.isEmpty && digits.all Char.isDigit then
    some (digits.foldl (fun n c => n * 10 + (c.toNat - '0'.toNat)) 0)
  else none

def child? (key : String) : Json → Option Json
  | object entries => entries.lookup key
  | array items => (index? key).bind (items[·]?)
  | _ => none

def descend? : List String → Json → Option Json
  | [], v => some v
  | key :: rest, v => (v.child? key).bind (descend? rest)

mutual

def references : Json → List String
  | array items => itemReferences items
  | object entries => entryReferences entries
  | _ => []

def itemReferences : List Json → List String
  | [] => []
  | v :: rest => v.references ++ itemReferences rest

def entryReferences : List (String × Json) → List String
  | [] => []
  | (key, v) :: rest =>
    (if key = "$ref" then v.string?.toList else []) ++ v.references ++ entryReferences rest

end

end ApiClient.Json
