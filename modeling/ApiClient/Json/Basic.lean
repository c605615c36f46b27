import ApiClient.Decimal.Binary64

namespace ApiClient

inductive Number where
  | integer (n : Int)
  | binary64 (negative : Bool) (magnitude : Decimal.Binary64)
deriving DecidableEq, Repr

inductive Json where
  | null
  | bool (b : Bool)
  | number (n : Number)
  | string (s : String)
  | array (items : List Json)
  | object (entries : List (String × Json))
deriving Inhabited, Repr

/-- A repeated key keeps its first position and takes the last value. -/
def insertEntry {α : Type} (key : String) (value : α) : List (String × α) → List (String × α)
  | [] => [(key, value)]
  | (k, v) :: rest => if k = key then (k, value) :: rest else (k, v) :: insertEntry key value rest

/-- The map of a list of entries, inserted one after the other. -/
def mapOfEntries {α : Type} (entries : List (String × α)) : List (String × α) :=
  entries.foldl (fun map (key, value) => insertEntry key value map) []

namespace Json

def ofNat (n : Nat) : Json :=
  .number (.integer n)

def get? (key : String) : Json → Option Json
  | object entries => entries.lookup key
  | _ => none

def string? : Json → Option String
  | string s => some s
  | _ => none

def bool? : Json → Option Bool
  | bool b => some b
  | _ => none

def reference? (v : Json) : Option String :=
  (v.get? "$ref").bind string?

def ofOption {α : Type} (f : α → Json) : Option α → Json
  | some a => f a
  | none => null

/-- The entry of an optional field, left out when the field is absent. -/
def optionalEntry (key : String) (value : Option Json) : List (String × Json) :=
  match value with
  | some v => [(key, v)]
  | none => []

def strings (l : List String) : Json :=
  .array (l.map .string)

end Json

end ApiClient
