import ApiClient.Json.Scalar

namespace ApiClient.Json

/-- The values of named fields, nothing when the value is no record or has too many items. -/
def fields? (names : List String) : Json → Option (String → Option Json)
  | object entries => some fun name => entries.lookup name
  | array items =>
    if items.length ≤ names.length then some fun name => (names.zip items).lookup name else none
  | _ => none

/-- A field that may be missing or `null`. -/
def optional? {α : Type} (read : Json → Option α) : Option Json → Option (Option α)
  | none => some none
  | some null => some none
  | some v => (read v).map some

def orDefault? {α : Type} (default : α) (read : Json → Option α) : Option Json → Option α
  | none => some default
  | some v => read v

/-- A field that must be there. -/
def present? {α : Type} (read : Json → Option α) (field : Option Json) : Option α :=
  field.bind read

def listOf? {α : Type} (read : Json → Option α) : Json → Option (List α)
  | array items => items.mapM read
  | _ => none

def readEntries? {α : Type} (read : Json → Option α) :
    List (String × Json) → Option (List (String × α))
  | [] => some []
  | (key, v) :: rest => do
    let a ← read v
    let more ← readEntries? read rest
    some ((key, a) :: more)

def mapOf? {α : Type} (read : Json → Option α) : Json → Option (List (String × α))
  | object entries => (readEntries? read entries).map mapOfEntries
  | _ => none

def lenientText (field : Option Json) : Option String :=
  field.bind scalarText?

def lenientTexts (field : Option Json) : List String :=
  (field.map scalarTexts).getD []

def lenientFlag (field : Option Json) : Option Bool :=
  field.bind truth?

end ApiClient.Json
