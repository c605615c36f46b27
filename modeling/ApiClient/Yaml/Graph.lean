import ApiClient.Json.Basic
import ApiClient.Yaml.Event
import ApiClient.Yaml.Tokens

namespace ApiClient.Yaml

inductive Node where
  | aliasOf (number : Nat)
  | scalar (tag : Option (List Char)) (text : String) (style : Style)
  | sequence (tag : Option (List Char)) (items : List Node)
  | mapping (tag : Option (List Char)) (entries : List (Node × Node))
deriving Inhabited

/-- A document. It has no root if its text is empty, and `size` counts its events. -/
structure Graph where
  root : Option Node
  targets : List (Nat × Node)
  size : Nat

/-- A collection that is still open: where it started, whether it is anchored, and its nodes so far,
last first; the keys and values of a mapping alternate. -/
structure OpenNode where
  isMapping : Bool
  tag : Option (List Char)
  isAnchored : Bool
  start : Nat
  nodes : List Node

/-- A document while its events are taken in. `numbers` are the numbers of the anchor names, `homes`
the places of the anchored nodes by number, last first, and `anchored` these nodes by place. -/
structure Growing where
  stack : List OpenNode
  root : Option Node
  numbers : List (String × Nat)
  homes : List (Nat × Nat)
  anchored : List (Nat × Node)
  size : Nat

def Growing.start : Growing :=
  ⟨[], none, [], [], [], 0⟩

def pairs {α : Type} : List α → List (α × α)
  | a :: b :: rest => (a, b) :: pairs rest
  | _ => []

def OpenNode.close (o : OpenNode) : Node :=
  if o.isMapping then .mapping o.tag (pairs o.nodes.reverse) else .sequence o.tag o.nodes.reverse

namespace Growing

def anchor (g : Growing) (p : Properties) : Growing :=
  match p.anchor with
  | none => g
  | some name =>
    let number := g.numbers.length
    { g with numbers := insertEntry (String.ofList name) number g.numbers,
             homes := (number, g.size) :: g.homes }

def place (g : Growing) (isAnchored : Bool) (start : Nat) (n : Node) : Growing :=
  let g := if isAnchored then { g with anchored := (start, n) :: g.anchored } else g
  match g.stack with
  | [] => { g with root := some n }
  | o :: rest => { g with stack := { o with nodes := n :: o.nodes } :: rest }

def openNode (g : Growing) (isMapping : Bool) (p : Properties) : Growing :=
  let g := g.anchor p
  { g with stack := ⟨isMapping, p.tag, p.anchor.isSome, g.size, []⟩ :: g.stack }

def closeNode (g : Growing) : Growing :=
  match g.stack with
  | [] => g
  | o :: rest => { g with stack := rest }.place o.isAnchored o.start o.close

def add? (g : Growing) (e : Event) : Option Growing := do
  let next ← match e with
    | .aliasOf name => do
      let number ← g.numbers.lookup (String.ofList name)
      some (g.place false g.size (.aliasOf number))
    | .scalar p text style =>
      some ((g.anchor p).place p.anchor.isSome g.size (.scalar p.tag text style))
    | .sequence p => some (g.openNode false p)
    | .mapping p => some (g.openNode true p)
    | .sequenceEnd => some g.closeNode
    | .mappingEnd => some g.closeNode
  some { next with size := g.size + 1 }

def finish (g : Growing) : Graph :=
  let targets := g.homes.filterMap fun (number, home) =>
    (g.anchored.lookup home).map fun n => (number, n)
  ⟨g.root, targets, g.size⟩

end Growing

def graph? (text : String) : Option Graph := do
  let g ← (← events? (← tokens? text)).foldlM Growing.add? .start
  some g.finish

end ApiClient.Yaml
