import ApiClient.Naming.Identifier
import ApiClient.Naming.Reserved
import ApiClient.Text.CaseMap

namespace ApiClient.Naming

open Text

def reservedMark : String := "__openAPI__"

def fallbackMark : List Char := "Model_".toList

def lastSegment (cs : List Char) : List Char :=
  trim (afterLast (fun c => c == '/' || c == '.') cs)

def normalize (cs : List Char) : List Char :=
  (joinSeparated cs).filter fun c => isWord c || isIdeograph c

/-- The public key token among the parts of an assembly name. -/
def keyToken? (parts : List (List Char)) : Option (List Char) :=
  (parts.findSome? ("PublicKeyToken=".toList.isPrefixOf? ·)).bind fun token =>
    let token := onlyWords (trim token)
    if token.isEmpty || token.map Char.toLower == "null".toList then none else some token

/-- `Ns.Pet, Assembly, PublicKeyToken=abc` is `Pet_abc`. -/
def plainName (raw : List Char) : List Char :=
  match (raw.splitOnP (· == ',')).map trim with
  | [] => []
  | first :: parts =>
    let base := normalize (lastSegment first)
    match keyToken? parts with
    | some token => if base.isEmpty then base else base ++ '_' :: token
    | none => base

def dropEnd (mark cs : List Char) : List Char :=
  if mark.isSuffixOf cs then cs.take (cs.length - mark.length) else cs

/-- The outer name of a generic and the texts of its arguments. -/
def genericParts? (raw : List Char) : Option (List Char × List (List Char)) :=
  (breakAtMark ['[', '['] raw).map fun (before, inner) =>
    let outer := (lastSegment before).takeWhile (· != '\x60')
    let arguments := splitAtMark [']', ',', '['] (dropEnd [']', ']'] inner)
    (normalize outer, (arguments.map trim).filter (!·.isEmpty))

theorem length_mem_genericParts {raw outer a : List Char} {arguments : List (List Char)}
    (h : genericParts? raw = some (outer, arguments)) (ha : a ∈ arguments) :
    a.length < raw.length := by
  obtain ⟨⟨before, inner⟩, hb, he⟩ := Option.map_eq_some_iff.1 h
  simp only [Prod.mk.injEq] at he
  obtain ⟨-, rfl⟩ := he
  obtain ⟨b, hm, rfl⟩ := List.mem_map.1 (List.mem_filter.1 ha).1
  have h1 := length_mem_splitAtMark _ _ _ hm
  have h2 := length_trim_le b
  have h3 := length_breakAtMark hb
  have h4 : (dropEnd [']', ']'] inner).length ≤ inner.length := by
    unfold dropEnd
    split
    · exact List.length_take_le' _ _
    · exact Nat.le_refl _
  simp only [List.length_cons, List.length_nil] at h3
  omega

/-- Whether a name has to be replaced: nothing, a lone underscore, or only digits. -/
def isUnusable (name : List Char) : Bool :=
  name.isEmpty || name == ['_'] || name.all (·.isDigit)

variable [Transliteration]

def identifier (name : List Char) : List Char :=
  if isUnusable name then fallbackMark ++ name
  else
    let name := if name.any isIdeograph then transliterate name else name
    if startsWithDigit name then '_' :: name else name

def identifierNotices (name : List Char) : List Notice :=
  if isUnusable name then [.fallback]
  else
    let wide := name.any isIdeograph
    let latinName := if wide then transliterate name else name
    (if wide then [.transliterated] else []) ++ (if startsWithDigit latinName then [.digit] else [])

/-- Every rule but the mark of reserved words, for names inside a compound identifier. -/
def sanitize (raw : List Char) : List Char :=
  match _h : genericParts? raw with
  | none => identifier (plainName raw)
  | some (outer, arguments) =>
    let parts := outer :: arguments.attach.map fun ⟨a, _⟩ => sanitize a
    identifier (List.intercalate ['_'] (parts.filter (!·.isEmpty)))
termination_by raw.length
decreasing_by exact length_mem_genericParts _h ‹_›

def sanitizeNotices (raw : List Char) : List Notice :=
  match _h : genericParts? raw with
  | none => identifierNotices (plainName raw)
  | some (outer, arguments) =>
    let parts := outer :: arguments.map sanitize
    arguments.attach.flatMap (fun ⟨a, _⟩ => sanitizeNotices a) ++
      identifierNotices (List.intercalate ['_'] (parts.filter (!·.isEmpty)))
termination_by raw.length
decreasing_by exact length_mem_genericParts _h ‹_›

def typeName (raw : String) : String :=
  if isReserved raw then reservedMark ++ raw else String.ofList (sanitize raw.toList)

def typeNameNotices (raw : String) : List Notice :=
  if isReserved raw then [] else sanitizeNotices raw.toList

def referenceTail (reference : String) : String :=
  String.ofList (afterLast (· == '/') reference.toList)

/-- The type name of what a reference points at. -/
def referenceTypeName (reference : String) : String :=
  typeName (referenceTail reference)

end ApiClient.Naming
