import ApiClient.Document.Reader
import ApiClient.Json.Pointer

namespace ApiClient.Document

def lookup (d : Document) (reference : String) : Except Failure (Option Json) :=
  match Json.pointerKeys? reference with
  | none => .ok none
  | some keys =>
    match d.tree.descend? keys with
    | some node => .ok (some node)
    | none => .error (.unresolved reference)

/-- The end of a chain with the `type` of an earlier target, if both have the form for it. -/
def withTypeOf (target resolved : Json) : Json :=
  match resolved, target.get? "type" with
  | .object entries, some type => .object (insertEntry "type" type entries)
  | resolved, _ => resolved

def without (reference : String) (pending : List String) : List String :=
  pending.filter (· ≠ reference)

theorem length_without_lt {reference : String} {pending : List String} (h : reference ∈ pending) :
    (without reference pending).length < pending.length :=
  List.length_filter_lt_length_iff_exists.2 ⟨reference, h, by simp⟩

def follow (d : Document) (pending : List String) (reference : String) :
    Except Failure (Option Json) :=
  if reference ∈ pending then do
    match ← d.lookup reference with
    | none => return none
    | some target =>
      match target.reference? with
      | none => return some target
      | some next =>
        match ← d.follow (without reference pending) next with
        | none => return some target
        | some resolved => return some (withTypeOf target resolved)
  else .error (.circular reference)
termination_by pending.length
decreasing_by exact length_without_lt ‹_›

/-- The node at the end of a chain of references, nothing for an external reference. An earlier
target that carries a `type` of its own gives it to the result. -/
def resolve (d : Document) (reference : String) : Except Failure (Option Json) :=
  d.follow (reference :: d.tree.references) reference

def resolveRef {α : Type} (d : Document) (read : Json → Option α) :
    RefOr α → Except Failure (Option α)
  | .item a => .ok (some a)
  | .reference path => do
    match ← d.resolve path with
    | none => return none
    | some v =>
      match read v with
      | some a => return some a
      | none => .error (.malformed path)

def resolveParameter (d : Document) : RefOr Parameter → Except Failure (Option Parameter) :=
  d.resolveRef Parameter.ofJson?

def resolveBody (d : Document) : RefOr RequestBody → Except Failure (Option RequestBody) :=
  d.resolveRef RequestBody.ofJson?

def resolveResponse (d : Document) : RefOr Response → Except Failure (Option Response) :=
  d.resolveRef Response.ofJson?

def resolveSchema (d : Document) (node : SchemaNode) : Except Failure SchemaNode :=
  match node with
  | .reference path => do
    match ← d.resolve path with
    | some v => return SchemaNode.ofJson v
    | none => return node
  | node => .ok node

end ApiClient.Document
