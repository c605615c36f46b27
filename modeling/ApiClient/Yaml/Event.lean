import ApiClient.Yaml.Token

namespace ApiClient.Yaml

structure Properties where
  anchor : Option (List Char)
  tag : Option (List Char)
deriving DecidableEq, Repr

namespace Properties

def none : Properties :=
  ⟨.none, .none⟩

def isNone (p : Properties) : Bool :=
  p.anchor.isNone && p.tag.isNone

def ofScalar (p : Properties) : Properties :=
  { p with tag := p.tag.filter (· != ['!']) }

end Properties

inductive Event where
  | aliasOf (name : List Char)
  | scalar (p : Properties) (text : String) (style : Style)
  | sequence (p : Properties)
  | sequenceEnd
  | mapping (p : Properties)
  | mappingEnd

def Event.empty (p : Properties) : Event :=
  .scalar p "" .plain

/-- What may come next. `loose` sequences stand in a mapping without further indentation, and a pair
is a mapping of one entry in a flow sequence. -/
inductive Goal where
  | finished
  | content
  | node (inBlock allowsLoose : Bool) (p : Properties)
  | item
  | itemNode
  | looseItem
  | looseItemNode
  | key
  | keyNode
  | value
  | valueNode
  | flowItem
  | flowItemEnd
  | pairKey
  | pairValue
  | pairValueNode
  | pairEnd
  | flowKey
  | flowKeyNode
  | flowKeyAlone
  | flowValue
  | flowValueNode
  | flowEntryEnd

abbrev Step := Option (List Event × List Goal)

def Step.after (events : List Event) (step : Step) : Step :=
  step.map fun (more, goals) => (events ++ more, goals)

abbrev Handles := List (List Char × List Char)

def defaultHandles : Handles :=
  [(['!'], ['!']), (['!', '!'], "tag:yaml.org,2002:".toList)]

def resolveTag? (handles : Handles) (handle suffix : List Char) : Option (List Char) :=
  if handle = [] then some suffix else (handles.lookup handle).map (· ++ suffix)

def nodeStep (handles : Handles) (inBlock allowsLoose : Bool) (p : Properties) (below : List Goal) :
    Token → Step
  | .aliasOf name => if p.isNone then some ([.aliasOf name], below) else none
  | .anchor name =>
    if p.anchor.isNone then
      some ([], .node inBlock allowsLoose { p with anchor := some name } :: below)
    else none
  | .tag handle suffix =>
    if p.tag.isNone then
      (resolveTag? handles handle suffix).map fun tag =>
        ([], .node inBlock allowsLoose { p with tag := some tag } :: below)
    else none
  | .scalar text style => some ([.scalar p.ofScalar text style], below)
  | .flowSequence => some ([.sequence p], .flowItem :: below)
  | .flowMapping => some ([.mapping p], .flowKey :: below)
  | .blockSequence => if inBlock then some ([.sequence p], .item :: below) else none
  | .blockMapping => if inBlock then some ([.mapping p], .key :: below) else none
  | .entry => if allowsLoose then some ([.sequence p], .looseItemNode :: below) else none
  | _ => none

def itemStep (below : List Goal) : Token → Step
  | .entry => some ([], .itemNode :: below)
  | .blockEnd => some ([.sequenceEnd], below)
  | _ => none

def keyStep (below : List Goal) : Token → Step
  | .key => some ([], .keyNode :: below)
  | .blockEnd => some ([.mappingEnd], below)
  | _ => none

def valueStep (below : List Goal) : Token → Step
  | .value => some ([], .valueNode :: below)
  | t => Step.after [.empty .none] (keyStep below t)

def flowItemStep (handles : Handles) (below : List Goal) : Token → Step
  | .key => some ([.mapping .none], .pairKey :: below)
  | .flowSequenceEnd => some ([.sequenceEnd], below)
  | t => nodeStep handles false false .none (.flowItemEnd :: below) t

def flowItemEndStep (below : List Goal) : Token → Step
  | .comma => some ([], .flowItem :: below)
  | .flowSequenceEnd => some ([.sequenceEnd], below)
  | _ => none

def pairValueStep (below : List Goal) : Token → Step
  | .value => some ([], .pairValueNode :: below)
  | t => Step.after [.empty .none, .mappingEnd] (flowItemEndStep below t)

def flowKeyStep (handles : Handles) (below : List Goal) : Token → Step
  | .key => some ([], .flowKeyNode :: below)
  | .flowMappingEnd => some ([.mappingEnd], below)
  | t => nodeStep handles false false .none (.flowKeyAlone :: below) t

def flowEntryEndStep (below : List Goal) : Token → Step
  | .comma => some ([], .flowKey :: below)
  | .flowMappingEnd => some ([.mappingEnd], below)
  | _ => none

def flowValueStep (below : List Goal) : Token → Step
  | .value => some ([], .flowValueNode :: below)
  | t => Step.after [.empty .none] (flowEntryEndStep below t)

def endsBlockNode (t : Token) : Bool :=
  t == .key || t == .value || t == .blockEnd

def endsContent (t : Token) : Bool :=
  t.isDirective || t == .documentStart || t == .documentEnd || t == .streamEnd

/-- A token that cannot go on with a node ends it, and is then a token of the goal below. -/
def step (handles : Handles) : List Goal → Token → Step
  | [], _ => none
  | .finished :: below, t => match t with
    | .documentEnd => some ([], .finished :: below)
    | .streamEnd => some ([], below)
    | _ => none
  | .content :: below, t =>
    if endsContent t then Step.after [.empty .none] (step handles below t)
    else nodeStep handles true false .none below t
  | .node inBlock allowsLoose p :: below, t =>
    match nodeStep handles inBlock allowsLoose p below t with
    | some next => some next
    | none => if p.isNone then none else Step.after [.empty p] (step handles below t)
  | .item :: below, t => itemStep below t
  | .itemNode :: below, t =>
    if t = .entry ∨ t = .blockEnd then Step.after [.empty .none] (itemStep below t)
    else nodeStep handles true false .none (.item :: below) t
  | .looseItem :: below, t =>
    if t = .entry then some ([], .looseItemNode :: below)
    else Step.after [.sequenceEnd] (step handles below t)
  | .looseItemNode :: below, t =>
    if t = .entry then some ([.empty .none], .looseItemNode :: below)
    else if endsBlockNode t then Step.after [.empty .none, .sequenceEnd] (step handles below t)
    else nodeStep handles true false .none (.looseItem :: below) t
  | .key :: below, t => keyStep below t
  | .keyNode :: below, t =>
    if endsBlockNode t then Step.after [.empty .none] (valueStep below t)
    else nodeStep handles true true .none (.value :: below) t
  | .value :: below, t => valueStep below t
  | .valueNode :: below, t =>
    if endsBlockNode t then Step.after [.empty .none] (keyStep below t)
    else nodeStep handles true true .none (.key :: below) t
  | .flowItem :: below, t => flowItemStep handles below t
  | .flowItemEnd :: below, t => flowItemEndStep below t
  | .pairKey :: below, t =>
    if t = .value ∨ t = .comma ∨ t = .flowSequenceEnd then
      some ([.empty .none], .pairValue :: below)
    else nodeStep handles false false .none (.pairValue :: below) t
  | .pairValue :: below, t => pairValueStep below t
  | .pairValueNode :: below, t =>
    if t = .comma ∨ t = .flowSequenceEnd then
      Step.after [.empty .none, .mappingEnd] (flowItemEndStep below t)
    else nodeStep handles false false .none (.pairEnd :: below) t
  | .pairEnd :: below, t => Step.after [.mappingEnd] (flowItemEndStep below t)
  | .flowKey :: below, t => flowKeyStep handles below t
  | .flowKeyNode :: below, t =>
    if t = .value ∨ t = .comma ∨ t = .flowMappingEnd then
      Step.after [.empty .none] (flowValueStep below t)
    else nodeStep handles false false .none (.flowValue :: below) t
  | .flowKeyAlone :: below, t => Step.after [.empty .none] (flowEntryEndStep below t)
  | .flowValue :: below, t => flowValueStep below t
  | .flowValueNode :: below, t =>
    if t = .comma ∨ t = .flowMappingEnd then
      Step.after [.empty .none] (flowEntryEndStep below t)
    else nodeStep handles false false .none (.flowEntryEnd :: below) t
  | .flowEntryEnd :: below, t => flowEntryEndStep below t

def eventsFrom (handles : Handles) (goals : List Goal) : List Token → Option (List Event)
  | [] => if goals.isEmpty then some [] else none
  | t :: rest => do
    let (events, goals) ← step handles goals t
    let more ← eventsFrom handles goals rest
    some (events ++ more)

/-- What directives declare: the format's version at most once, and each handle at most once. -/
def declared? (seenVersion : Bool) (handles : Handles) : List Token → Option Handles
  | [] => some handles
  | .version major minor :: rest =>
    if seenVersion ∨ major ≠ 1 ∨ (minor ≠ 1 ∧ minor ≠ 2) then none
    else declared? true handles rest
  | .handle handle lead :: rest =>
    if (handles.lookup handle).isSome then none
    else declared? seenVersion ((handle, lead) :: handles) rest
  | _ :: rest => declared? seenVersion handles rest

/-- The events of a text with one document; no events if the text has none. Directives stand before
an explicit start. -/
def events? (tokens : List Token) : Option (List Event) := do
  let directives := tokens.takeWhile Token.isDirective
  let handles ← declared? false [] directives
  let handles := handles ++ defaultHandles
  match tokens.drop directives.length with
  | .documentStart :: rest => eventsFrom handles [.content, .finished] rest
  | rest =>
    if !directives.isEmpty then none
    else if rest = [.streamEnd] then some []
    else eventsFrom handles [.node true false .none, .finished] rest

end ApiClient.Yaml
