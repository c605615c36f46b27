import ApiClient.Proofs.Distinct
import ApiClient.Proofs.Literals
import ApiClient.Typing.Expression

namespace ApiClient

namespace Text

inductive Place where
  | outside
  | inside
  | escaped

def Place.next : Place → Char → Place
  | .outside, c => if c = '"' then .inside else .outside
  | .inside, c => if c = '\\' then .escaped else if c = '"' then .outside else .inside
  | .escaped, _ => .inside

/-- The pieces between the bars that stand, with a blank on both sides, outside of literals. -/
def splitAtBars : Place → List Char → List (List Char)
  | _, [] => [[]]
  | .outside, ' ' :: '|' :: ' ' :: rest => [] :: splitAtBars .outside rest
  | p, c :: rest => (splitAtBars (p.next c) rest).modifyHead (c :: ·)

/-- The texts that a union of literals lists. -/
def readUnion (s : String) : Option (List String) :=
  (splitAtBars .outside s.toList).mapM fun piece => unquote? '"' (String.ofList piece)

section Unions

variable {rest piece : List Char} {pieces : List (List Char)}

theorem splitAtBars_next {p : Place} {c : Char} (h : p = .outside → c ≠ ' ') (rest : List Char) :
    splitAtBars p (c :: rest) = (splitAtBars (p.next c) rest).modifyHead (c :: ·) := by
  rw [splitAtBars]
  rintro more rfl hc -
  exact h rfl hc

theorem splitAtBars_inside (c : Char) (rest : List Char) : splitAtBars .inside (c :: rest) =
    (splitAtBars (Place.next .inside c) rest).modifyHead (c :: ·) := by
  have hplace : Place.inside = .outside → c ≠ ' ' := nofun
  exact splitAtBars_next hplace rest

theorem splitAtBars_escaped (c : Char) (rest : List Char) :
    splitAtBars .inside ('\\' :: c :: rest) =
      ((splitAtBars .inside rest).modifyHead (c :: ·)).modifyHead ('\\' :: ·) := by
  rw [splitAtBars_inside, Place.next, if_pos rfl, splitAtBars_next (p := .escaped) nofun,
    Place.next]

/-- A literal goes on up to its own closing quote. -/
theorem splitAtBars_escape (h : splitAtBars .outside rest = piece :: pieces) (cs : List Char) :
    splitAtBars .inside (escape '"' cs ++ '"' :: rest) =
      (escape '"' cs ++ '"' :: piece) :: pieces := by
  induction cs with
  | nil =>
    rw [escape, List.nil_append, splitAtBars_inside, Place.next, if_neg (by decide), if_pos rfl, h]
    rfl
  | cons c cs ih =>
    by_cases hspecial : c = '\\' ∨ c = '"'
    · rw [escape, if_pos hspecial, List.cons_append, List.cons_append, splitAtBars_escaped, ih]
      rfl
    · rw [not_or] at hspecial
      rw [escape, if_neg (not_or.2 hspecial), List.cons_append, splitAtBars_inside, Place.next,
        if_neg hspecial.1, if_neg hspecial.2, ih]
      rfl

theorem toList_quoteLiteral (s : String) :
    (quoteLiteral s).toList = '"' :: (escape '"' s.toList ++ ['"']) := by
  rw [quoteLiteral, quoted, String.toList_ofList, List.cons_append]

theorem splitAtBars_quoteLiteral (h : splitAtBars .outside rest = piece :: pieces) (s : String) :
    splitAtBars .outside ((quoteLiteral s).toList ++ rest) =
      ((quoteLiteral s).toList ++ piece) :: pieces := by
  rw [toList_quoteLiteral, List.cons_append, splitAtBars_next (fun _ => by decide), Place.next,
    if_pos rfl, List.append_assoc, List.singleton_append, splitAtBars_escape h]
  simp

theorem splitAtBars_intercalate {strings : List String} (hne : strings ≠ []) :
    splitAtBars .outside (" | ".intercalate (strings.map quoteLiteral)).toList =
      strings.map fun s => (quoteLiteral s).toList := by
  induction strings with
  | nil => exact absurd rfl hne
  | cons s rest ih =>
    cases rest with
    | nil =>
      have hend : splitAtBars .outside [] = [[]] := by rw [splitAtBars]
      simpa using splitAtBars_quoteLiteral hend s
    | cons next rest =>
      have hbar : ∀ more, splitAtBars .outside (' ' :: '|' :: ' ' :: more) =
          [] :: splitAtBars .outside more := fun more => by rw [splitAtBars]
      have hrest := hbar (" | ".intercalate ((next :: rest).map quoteLiteral)).toList
      rw [ih (List.cons_ne_nil next rest)] at hrest
      simpa [String.intercalate_cons_cons] using splitAtBars_quoteLiteral hrest s

theorem readUnion_intercalate {strings : List String} (hne : strings ≠ []) :
    readUnion (" | ".intercalate (strings.map quoteLiteral)) = some strings := by
  have hread : ∀ s, unquote? '"' (String.ofList (quoteLiteral s).toList) = some s := by
    intro s
    rw [String.ofList_toList, quoteLiteral, unquote?_quoted]
  rw [readUnion, splitAtBars_intercalate hne, List.mapM_map]
  simp only [Function.comp_def, hread]
  exact (List.mapM_pure (f := id)).trans (congrArg some (List.map_id strings))

end Unions

end Text

namespace Typing

variable [Text.Transliteration]

def entryType (t : Typing) : EnumEntry → String
  | .scalar v => scalarLiteral v
  | .composite _ reading => t.nodeType reading

theorem literals_eq_map (t : Typing) (entries : List EnumEntry) :
    t.literals entries = entries.map t.entryType := by
  induction entries with
  | nil => rfl
  | cons entry rest ih => cases entry <;> rw [literals, ih] <;> rfl

/-- The union of some texts is read back to the texts, each once, in the order in which they first
occur. -/
theorem readUnion_enumUnion (t : Typing) (strings : List String) (hne : strings ≠ []) :
    ∃ names,
      Text.readUnion (enumUnion (t.literals (strings.map fun s => .scalar (.string s)))) =
        some names ∧
      names.Nodup ∧ (∀ s, s ∈ names ↔ s ∈ strings) ∧
      names.Pairwise fun a b => strings.idxOf a < strings.idxOf b := by
  have hliterals : t.literals (strings.map fun s => .scalar (.string s)) =
      strings.map Text.quoteLiteral := by
    rw [literals_eq_map, List.map_map]
    rfl
  have hsome : (strings.map Text.quoteLiteral).isEmpty = false := by simpa using hne
  have hdistinct : distinct strings ≠ [] := by
    obtain ⟨s, hs⟩ := List.exists_mem_of_ne_nil strings hne
    exact List.ne_nil_of_mem (mem_distinct.2 hs)
  refine ⟨distinct strings, ?_, nodup_distinct strings, fun s => mem_distinct,
    pairwise_idxOf_distinct strings⟩
  rw [hliterals, enumUnion, hsome, if_neg Bool.false_ne_true, unionOf,
    distinct_map Text.quoteLiteral_injective, Text.readUnion_intercalate hdistinct]

end Typing

end ApiClient

namespace ApiClient

def spokenTexts : List String :=
  ["a", "b\" | \"c\\", "a", "\\", ""]

theorem spokenTexts_read : spokenTexts ≠ [] ∧
    ∃ names, Text.readUnion (Typing.enumUnion ((Typing.plain "API").literals
        (spokenTexts.map fun s => .scalar (.string s)))) = some names ∧
      names.Nodup ∧ (∀ s, s ∈ names ↔ s ∈ spokenTexts) ∧
      names.Pairwise fun a b => spokenTexts.idxOf a < spokenTexts.idxOf b := by
  have hne : spokenTexts ≠ [] := by decide
  exact ⟨hne, Typing.readUnion_enumUnion (Typing.plain "API") spokenTexts hne⟩

end ApiClient
