namespace ApiClient

abbrev NameCounts := List (String × Nat)

namespace NameCounts

def bump (used : NameCounts) (name : String) : NameCounts :=
  used.map fun (n, count) => if n = name then (n, count + 1) else (n, count)

/-- The first use of a name keeps it; later ones get the number of the use. -/
def take (used : NameCounts) (name : String) : String × NameCounts :=
  match used.lookup name with
  | some count => (name ++ "_" ++ toString (count + 1), used.bump name)
  | none => (name, (name, 1) :: used)

end NameCounts

structure ParamsTypeNames where
  byOperation : List (String × String)
  taken : List String

namespace ParamsTypeNames

def empty : ParamsTypeNames :=
  ⟨[], []⟩

/-- A name, then the same name numbered from two on. -/
def candidate (base : String) (i : Nat) : String :=
  if i = 0 then base else base ++ toString (i + 1)

def firstFree (names : ParamsTypeNames) (base : String) : String :=
  let candidates := (List.range (names.taken.length + 1)).map (candidate base)
  (candidates.find? fun name => !names.taken.contains name).getD base

/-- The name of an operation's parameter type, and whether it is a new one. -/
def assign (names : ParamsTypeNames) (key base : String) : (String × Bool) × ParamsTypeNames :=
  match names.byOperation.lookup key with
  | some name => ((name, false), names)
  | none =>
    let name := names.firstFree base
    ((name, true), ⟨(key, name) :: names.byOperation, name :: names.taken⟩)

end ParamsTypeNames

end ApiClient
