import ApiClient.Yaml.Cursor
import ApiClient.Yaml.Gap

namespace ApiClient.Yaml

/-- Where a plain scalar stands: in a flow collection or not, and the least column of its further
lines outside of one. -/
structure PlainContext where
  inFlow : Bool
  indent : Nat

structure Plain where
  text : String
  isBroken : Bool
  after : Cursor

/-- What cannot go on after a gap: less indented text, a bound of documents and a comment. -/
def PlainContext.endsAfterGap (x : PlainContext) (p : Position) (cs : List Char) : Bool :=
  (!x.inFlow && p.column < x.indent) || (p.column == 0 && isDocumentBound cs) ||
    cs.head? == some '#'

def PlainContext.endsBefore (x : PlainContext) (c : Char) (rest : List Char) : Bool :=
  (c == ':' && isSpaceNext rest) || (x.inFlow && isFlowIndicator c)

def PlainContext.refuses (x : PlainContext) (c : Char) (rest : List Char) : Bool :=
  x.inFlow && c == ':' && rest.head?.any fun next => next == '?' || isFlowIndicator next

def plainFrom (x : PlainContext) (held : List Char) (gap : Gap) (p : Position) :
    List Char → Option Plain
  | [] => some ⟨String.ofList held.reverse, gap.isBroken, ⟨p, []⟩⟩
  | c :: rest =>
    let here : Plain := ⟨String.ofList held.reverse, gap.isBroken, ⟨p, c :: rest⟩⟩
    if isSpace c then
      if gap.isBroken && c == '\t' && p.column < x.indent then none
      else plainFrom x held (gap.add c) (p.after c) rest
    else if !gap.isNone && x.endsAfterGap p (c :: rest) then some here
    else if x.refuses c rest then none
    else if x.endsBefore c rest then some here
    else plainFrom x (c :: (gap.fold ++ held)) .none (p.after c) rest

def plain? (x : PlainContext) (c : Cursor) : Option Plain :=
  plainFrom x [] .none c.position c.rest

end ApiClient.Yaml
