import ApiClient.Config.Basic
import ApiClient.Render.Index
import ApiClient.Render.Service
import ApiClient.Render.Typings
import ApiClient.Storage.Basic

namespace ApiClient.Render

structure UnitOutcome where
  file : String
  error : Option String
deriving DecidableEq, Repr

structure Report where
  units : List UnitOutcome
deriving DecidableEq, Repr

namespace Report

def succeeded (r : Report) : Nat :=
  (r.units.filter fun u => u.error.isNone).length

def failed (r : Report) : Nat :=
  (r.units.filter fun u => u.error.isSome).length

def isSuccess (r : Report) : Bool :=
  r.units.all fun u => u.error.isNone

end Report

abbrev Sink (α : Type) := α → String → String → Except Failure α

def typingsFile : String := "typings.d.ts"

def indexFile : String := "index.ts"

def serviceFile (u : ServiceUnit) : String :=
  u.fileName ++ ".ts"

def files (config : Config) (c : Client) : List (String × Except Failure String) :=
  (typingsFile, .ok (typings config.nullable c)) ::
    c.services.map (fun u => (serviceFile u, service config.nullable config.requestLibPath u)) ++
    [(indexFile, .ok (index c))]

/-- Write one file; a failure leaves the state alone. -/
def emit {α : Type} (sink : Sink α) (state : α) (file : String)
    (rendered : Except Failure String) : UnitOutcome × α :=
  match rendered.bind (sink state file) with
  | .ok state => (⟨file, none⟩, state)
  | .error failure => (⟨file, some failure.message⟩, state)

def emitAll {α : Type} (sink : Sink α) (state : α) :
    List (String × Except Failure String) → List UnitOutcome × α
  | [] => ([], state)
  | (file, rendered) :: rest =>
    let (outcome, state) := emit sink state file rendered
    let (outcomes, state) := emitAll sink state rest
    (outcome :: outcomes, state)

def renderTo {α : Type} (config : Config) (c : Client) (sink : Sink α) (state : α) : Report × α :=
  let (units, state) := emitAll sink state (files config c)
  (⟨units⟩, state)

def folderSink (root : String) : Sink Storage := fun storage relative text =>
  let target := joinPath root relative
  let parent := parentPath target
  match storage.makeFolder (Location.ofPath parent) with
  | .error o => .error (.render ("Failed to create directory " ++ parent ++ ": " ++ o.text))
  | .ok storage =>
    match storage.writeFile (Location.ofPath target) text with
    | .error o => .error (.render ("Failed to write " ++ target ++ ": " ++ o.text))
    | .ok storage => .ok storage

def renderToFolder (config : Config) (c : Client) (root : String) (storage : Storage) :
    Except Failure (Report × Storage) :=
  match storage.makeFolder (Location.ofPath root) with
  | .error o => .error (.render ("Failed to create output directory: " ++ o.text))
  | .ok storage => .ok (renderTo config c (folderSink root) storage)

end ApiClient.Render
