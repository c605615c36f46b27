import ApiClient.Proofs.Identifiers
import ApiClient.Proofs.WrittenUnions
import ApiClient.Typing.Named
import Mathlib.Data.List.Perm.Subperm

namespace ApiClient

def EnumEntry.isValue : EnumEntry → Bool
  | .scalar (.string _) | .scalar (.number _) | .scalar (.bool _) => true
  | _ => false

namespace NamedType

section FirstOfKey

variable {members : List (String × String)}

theorem firstOfKey_sublist (members : List (String × String)) :
    (firstOfKey members).Sublist members := by
  induction members with
  | nil => exact List.Sublist.refl []
  | cons m rest ih =>
    obtain ⟨key, literal⟩ := m
    exact (List.filter_sublist.trans ih).cons_cons _

theorem keys_firstOfKey (members : List (String × String)) :
    (firstOfKey members).map Prod.fst = distinct (members.map Prod.fst) := by
  induction members with
  | nil => rfl
  | cons m rest ih =>
    obtain ⟨key, literal⟩ := m
    rw [firstOfKey, List.map_cons, List.map_cons, distinct, ← ih, List.filter_map]
    rfl

/-- If a value has one key, the values that are kept are different from each other. -/
theorem values_firstOfKey_sublist (hkey : ∀ a ∈ members, ∀ b ∈ members, a.2 = b.2 → a.1 = b.1) :
    ((firstOfKey members).map Prod.snd).Sublist (distinct (members.map Prod.snd)) := by
  induction members with
  | nil => exact List.Sublist.refl []
  | cons m rest ih =>
    obtain ⟨key, literal⟩ := m
    obtain ⟨hhead, hrest⟩ := List.forall_mem_cons.1 hkey
    have hkept : (firstOfKey rest).filter (fun entry => entry.1 ≠ key) =
        ((firstOfKey rest).filter fun entry => entry.2 ≠ literal).filter
          fun entry => entry.1 ≠ key := by
      rw [List.filter_filter]
      refine List.filter_congr fun entry hentry => ?_
      have hmem : entry ∈ (key, literal) :: rest :=
        List.mem_cons_of_mem _ ((firstOfKey_sublist rest).subset hentry)
      have hsame : literal = entry.2 → key = entry.1 := hhead entry hmem
      by_cases hvalue : entry.2 = literal
      · simp [hvalue, hsame hvalue.symm]
      · simp [hvalue]
    have hvalues := (ih fun a ha b hb =>
      hrest a ha b (List.mem_cons_of_mem _ hb)).filter fun value => value ≠ literal
    rw [List.filter_map] at hvalues
    rw [firstOfKey, List.map_cons, List.map_cons, distinct, hkept]
    exact ((List.filter_sublist.map _).trans hvalues).cons_cons _

theorem values_firstOfKey_iff (hkey : ∀ a ∈ members, ∀ b ∈ members, a.2 = b.2 → a.1 = b.1) :
    (firstOfKey members).map Prod.snd = distinct (members.map Prod.snd) ↔
      ∀ a ∈ members, ∀ b ∈ members, a.1 = b.1 → a.2 = b.2 := by
  have hsublist := values_firstOfKey_sublist hkey
  constructor
  · intro heq a ha b hb hab
    have hkept : ∀ c ∈ members, ∃ c' ∈ firstOfKey members, c'.1 = c.1 ∧ c'.2 = c.2 := by
      intro c hc
      have hvalue : c.2 ∈ (firstOfKey members).map Prod.snd := by
        rw [heq, mem_distinct]
        exact List.mem_map_of_mem hc
      obtain ⟨c', hc', hsame⟩ := List.mem_map.1 hvalue
      exact ⟨c', hc', hkey c' ((firstOfKey_sublist members).subset hc') c hc hsame, hsame⟩
    obtain ⟨a', ha', hkeya, hvaluea⟩ := hkept a ha
    obtain ⟨b', hb', hkeyb, hvalueb⟩ := hkept b hb
    have hnodup : ((firstOfKey members).map Prod.fst).Nodup :=
      keys_firstOfKey members ▸ nodup_distinct _
    have hsame : a' = b' :=
      List.inj_on_of_nodup_map hnodup ha' hb' (hkeya.trans (hab.trans hkeyb.symm))
    rw [← hvaluea, ← hvalueb, hsame]
  · intro hvalue
    have hsubset : distinct (members.map Prod.snd) ⊆ (firstOfKey members).map Prod.snd := by
      intro value hmem
      obtain ⟨a, ha, rfl⟩ := List.mem_map.1 (mem_distinct.1 hmem)
      have hfirst : a.1 ∈ (firstOfKey members).map Prod.fst := by
        rw [keys_firstOfKey, mem_distinct]
        exact List.mem_map_of_mem ha
      obtain ⟨b, hb, hsame⟩ := List.mem_map.1 hfirst
      have hmem := (firstOfKey_sublist members).subset hb
      exact List.mem_map.2 ⟨b, hb, hvalue b hmem a ha hsame⟩
    exact hsublist.eq_of_length_le (List.subperm_of_subset (nodup_distinct _) hsubset).length_le

end FirstOfKey

section Members

def isMemberName (value : String) : Bool :=
  match value.toList with
  | [] => false
  | c :: rest => isIdentifierStart c && rest.all isIdentifierChar

theorem enumKey_eq (value : String) :
    enumKey value = if isMemberName value then value else Text.quoteLiteral value := by
  rw [enumKey, isMemberName]
  cases value.toList <;> rfl

theorem isMemberName_quoteLiteral (s : String) : isMemberName (Text.quoteLiteral s) = false := by
  rw [isMemberName, Text.toList_quoteLiteral]
  rfl

theorem isMemberName_text (n : Number) : isMemberName n.text = false := by
  obtain ⟨c, rest, hcs, hc⟩ := (Number.isNumeral_text n).head
  have hstart : isIdentifierStart c = false := by
    obtain hdigit | rfl := hc
    · have hascii : c.toNat < 128 := Text.toNat_lt_of_isAlphanum (by simp [Char.isAlphanum, hdigit])
      exact Text.forall_ascii (P := fun c => c.isDigit = true → isIdentifierStart c = false)
        (by decide +kernel) hascii hdigit
    · decide
  simp [isMemberName, hcs, hstart]

theorem enumKey_eq_quoteLiteral_iff {s x : String} :
    enumKey s = Text.quoteLiteral x ↔ s = x ∧ isMemberName x = false := by
  rw [enumKey_eq]
  cases hs : isMemberName s with
  | true =>
    rw [if_pos rfl]
    refine iff_of_false ?_ ?_
    · rintro rfl
      rw [isMemberName_quoteLiteral] at hs
      cases hs
    · rintro ⟨rfl, hname⟩
      rw [hname] at hs
      cases hs
  | false =>
    rw [if_neg Bool.false_ne_true, Text.quoteLiteral_injective.eq_iff]
    exact ⟨fun h => ⟨h, h ▸ hs⟩, And.left⟩

theorem enumKey_injective : Function.Injective enumKey := by
  intro s s' h
  cases hs' : isMemberName s' with
  | true =>
    have hkey : enumKey s' = s' := by rw [enumKey_eq, hs', if_pos rfl]
    rw [hkey, enumKey_eq] at h
    split at h
    · exact h
    · rw [← h, isMemberName_quoteLiteral] at hs'
      cases hs'
  | false =>
    have hkey : enumKey s' = Text.quoteLiteral s' := by
      rw [enumKey_eq, hs', if_neg Bool.false_ne_true]
    exact (enumKey_eq_quoteLiteral_iff.1 (h.trans hkey)).1

/-- How a number or boolean is written. -/
def spelling? : EnumEntry → Option String
  | .scalar (.number n) => some n.text
  | .scalar (.bool b) => some (if b then "true" else "false")
  | _ => none

theorem unquote?_spelling {entry : EnumEntry} {x : String} (h : spelling? entry = some x) :
    Text.unquote? '"' x = none := by
  cases entry with
  | composite v reading => cases h
  | scalar v =>
    cases v with
    | number n =>
      obtain rfl := Option.some.inj h
      obtain ⟨c, rest, hcs, hc⟩ := (Number.isNumeral_text n).head
      have hne : c ≠ '"' := by
        rintro rfl
        exact absurd hc (by decide)
      simp [Text.unquote?, hcs, hne]
    | bool b =>
      obtain rfl := Option.some.inj h
      cases b <;> decide
    | _ => cases h

theorem number_of_spelling {entry : EnumEntry} {x : String} (h : spelling? entry = some x)
    (hname : isMemberName x = false) : ∃ n, entry = .scalar (.number n) ∧ n.text = x := by
  cases entry with
  | composite v reading => cases h
  | scalar v =>
    cases v with
    | number n => exact ⟨n, rfl, Option.some.inj h⟩
    | bool b =>
      obtain rfl := Option.some.inj h
      cases b <;> exact absurd hname (by decide)
    | _ => cases h

theorem enumMember?_eq_some {entry : EnumEntry} {m : String × String}
    (h : enumMember? entry = some m) :
    (∃ s, entry = .scalar (.string s) ∧ m = (enumKey s, Text.quoteLiteral s)) ∨
      ∃ x, spelling? entry = some x ∧ m = (Text.quoteLiteral x, x) := by
  cases entry with
  | composite v reading => cases h
  | scalar v =>
    cases v with
    | string s => exact .inl ⟨s, rfl, (Option.some.inj h).symm⟩
    | number n => exact .inr ⟨n.text, rfl, (Option.some.inj h).symm⟩
    | bool b => exact .inr ⟨_, rfl, (Option.some.inj h).symm⟩
    | _ => cases h

/-- The key of a member, recovered from its literal. -/
def keyOf (literal : String) : String :=
  match Text.unquote? '"' literal with
  | some s => enumKey s
  | none => Text.quoteLiteral literal

theorem key_of_enumMember? {entry : EnumEntry} {m : String × String}
    (h : enumMember? entry = some m) : m.1 = keyOf m.2 := by
  obtain ⟨s, -, rfl⟩ | ⟨x, hx, rfl⟩ := enumMember?_eq_some h
  · rw [keyOf, Text.quoteLiteral, Text.unquote?_quoted]
  · rw [keyOf, unquote?_spelling hx]

def askedMembers (entries : List EnumEntry) : List (String × String) :=
  entries.filterMap enumMember?

/-- A key stands for two literals only if one is a number and the other the text of it. -/
theorem literal_of_key {entries : List EnumEntry}
    (hapart : ∀ n : Number, .scalar (.number n) ∈ entries →
      .scalar (.string n.text) ∉ entries) :
    ∀ a ∈ askedMembers entries, ∀ b ∈ askedMembers entries, a.1 = b.1 → a.2 = b.2 := by
  have hclash : ∀ s x entry, .scalar (.string s) ∈ entries → entry ∈ entries →
      spelling? entry = some x → enumKey s ≠ Text.quoteLiteral x := by
    intro s x entry hs hentry hx hkey
    obtain ⟨rfl, hname⟩ := enumKey_eq_quoteLiteral_iff.1 hkey
    obtain ⟨n, rfl, rfl⟩ := number_of_spelling hx hname
    exact hapart n hentry hs
  intro a ha b hb hab
  obtain ⟨entry, hentry, ha⟩ := List.mem_filterMap.1 ha
  obtain ⟨entry', hentry', hb⟩ := List.mem_filterMap.1 hb
  obtain ⟨s, rfl, rfl⟩ | ⟨x, hx, rfl⟩ := enumMember?_eq_some ha <;>
    obtain ⟨s', rfl, rfl⟩ | ⟨x', hx', rfl⟩ := enumMember?_eq_some hb
  · exact congrArg Text.quoteLiteral (enumKey_injective hab)
  · exact absurd hab (hclash s x' entry' hentry hentry' hx')
  · exact absurd hab.symm (hclash s' x entry hentry' hentry hx)
  · exact Text.quoteLiteral_injective hab

def enumMembers (entries : List EnumEntry) : List (String × String) :=
  firstOfKey (askedMembers entries)

variable [Text.Transliteration]

/-- Both forms of an enumeration write a value the same way. -/
theorem literals_askedMembers (t : Typing) (entries : List EnumEntry) :
    (askedMembers entries).map Prod.snd = t.literals (entries.filter EnumEntry.isValue) := by
  rw [Typing.literals_eq_map, askedMembers]
  induction entries with
  | nil => rfl
  | cons entry rest ih =>
    cases entry with
    | composite v reading => exact ih
    | scalar v =>
      cases v with
      | string s => exact congrArg (Text.quoteLiteral s :: ·) ih
      | number n => exact congrArg (n.text :: ·) ih
      | bool b => exact congrArg ((if b then "true" else "false") :: ·) ih
      | _ => exact ih

/-- A nominal enum has the values of the union, in order and each once, exactly when no number of
the list is also listed as a text. Otherwise it lacks some of them. -/
theorem enumMembers_values_iff (t : Typing) (entries : List EnumEntry) :
    ofEnum t .enum entries =
      ⟨some ("\x7b" ++ ",".intercalate ((enumMembers entries).map fun m => m.1 ++ "=" ++ m.2) ++
        "\x7d"), [], true⟩ ∧
    ofEnum t .stringLiteral entries = synonym (Typing.enumUnion (t.literals entries)) ∧
    ((enumMembers entries).map Prod.snd).Sublist
      (distinct (t.literals (entries.filter EnumEntry.isValue))) ∧
    ((enumMembers entries).map Prod.snd =
        distinct (t.literals (entries.filter EnumEntry.isValue)) ↔
      ∀ n : Number, .scalar (.number n) ∈ entries → .scalar (.string n.text) ∉ entries) := by
  have hkey : ∀ a ∈ askedMembers entries, ∀ b ∈ askedMembers entries, a.2 = b.2 → a.1 = b.1 := by
    intro a ha b hb hab
    obtain ⟨entry, -, ha⟩ := List.mem_filterMap.1 ha
    obtain ⟨entry', -, hb⟩ := List.mem_filterMap.1 hb
    rw [key_of_enumMember? ha, key_of_enumMember? hb, hab]
  rw [← literals_askedMembers t entries, enumMembers]
  refine ⟨rfl, rfl, values_firstOfKey_sublist hkey, ?_⟩
  rw [values_firstOfKey_iff hkey]
  refine ⟨fun hliteral n hnumber hstring => ?_, literal_of_key⟩
  have hown : (enumKey n.text, Text.quoteLiteral n.text) ∈ askedMembers entries :=
    List.mem_filterMap.2 ⟨_, hstring, rfl⟩
  have hother : (Text.quoteLiteral n.text, n.text) ∈ askedMembers entries :=
    List.mem_filterMap.2 ⟨_, hnumber, rfl⟩
  have hsame : enumKey n.text = Text.quoteLiteral n.text :=
    enumKey_eq_quoteLiteral_iff.2 ⟨rfl, isMemberName_text n⟩
  have hquoted : Text.quoteLiteral n.text = n.text := hliteral _ hown _ hother hsame
  have hspelling : Text.unquote? '"' n.text = none :=
    unquote?_spelling (show spelling? (.scalar (.number n)) = some n.text from rfl)
  rw [← hquoted, Text.quoteLiteral, Text.unquote?_quoted] at hspelling
  cases hspelling

end Members

end NamedType

end ApiClient

namespace ApiClient.NamedType

theorem not_enumMembers_values : ¬ ∀ (t : Typing) (entries : List EnumEntry),
    (enumMembers entries).map Prod.snd =
      distinct (t.literals (entries.filter EnumEntry.isValue)) := by
  intro agree
  have hlost := agree (Typing.plain "API")
    [.scalar (.string "1"), .scalar (.number (.integer 1))]
  exact absurd hlost (by decide +kernel)

end ApiClient.NamedType
