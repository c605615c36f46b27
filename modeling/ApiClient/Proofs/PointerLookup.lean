import ApiClient.Document.Reference
import ApiClient.Proofs.Pieces
import ApiClient.Proofs.Pointers
import ApiClient.Proofs.Runs

namespace ApiClient

namespace Json

open Text

section Unescaping

/-- A segment may be read in two passes, provided that the slashes come first. -/
theorem unescapeSegment_eq_replaceMark (cs : List Char) : unescapeSegment cs =
    replaceMark ['~', '0'] ['~'] (replaceMark ['~', '1'] ['/'] cs) := by
  have hit (c : Char) (new rest : List Char) :
      replaceMark ['~', c] new ('~' :: c :: rest) = new ++ replaceMark ['~', c] new rest :=
    replaceMark_append_mark (List.cons_ne_nil _ _) new rest
  have skip {c d : Char} (h : '~' ≠ d) (new rest : List Char) :
      replaceMark ['~', c] new (d :: rest) = d :: replaceMark ['~', c] new rest :=
    replaceMark_cons (by simp [h]) new
  fun_induction unescapeSegment cs with
  | case1 => simp only [replaceMark_nil]
  | case2 c =>
    have hsingle (d : Char) (new : List Char) : replaceMark ['~', d] new [c] = [c] := by
      rw [replaceMark_cons (by simp), replaceMark_nil]
    rw [hsingle, hsingle]
  | case3 c next rest h ih =>
    obtain ⟨rfl, rfl⟩ := h
    rw [hit, List.singleton_append, skip (by decide), ih]
  | case4 c next rest _ h ih =>
    obtain ⟨rfl, rfl⟩ := h
    have hfirst : ¬ ['~', '1'] <+: '~' :: '0' :: rest := by simp
    rw [replaceMark_cons hfirst, skip (d := '0') (by decide), hit, List.singleton_append, ih]
  | case5 c next rest hslash htilde ih =>
    have hfirst : ¬ ['~', '1'] <+: c :: next :: rest := by simpa [eq_comm] using hslash
    -- the first pass makes no `0` that the second could take for an escape
    have hsecond : ¬ ['~', '0'] <+: c :: replaceMark ['~', '1'] ['/'] (next :: rest) := by
      by_cases hnext : ['~', '1'] <+: next :: rest
      · obtain ⟨after, hafter⟩ := hnext
        rw [← hafter, List.cons_append, List.singleton_append, hit]
        simp
      · rw [replaceMark_cons hnext]
        simpa [eq_comm] using htilde
    rw [replaceMark_cons hfirst, replaceMark_cons hsecond, ih]

end Unescaping

section Steps

/-- A text reads as a position: decimal digits, with or without a plus sign in front. A number that
no array is long enough for is past the end of all of them. -/
def IsIndex (key : String) (i : Nat) : Prop :=
  ∃ digits, digits ≠ [] ∧ (∀ c ∈ digits, c.isDigit = true) ∧
    (key.toList = digits ∨ key.toList = '+' :: digits) ∧ Nat.ofDigitChars 10 digits 0 = i

inductive Step (key : String) : Json → Json → Prop where
  | entry {entries : List (String × Json)} {child : Json} (h : entries.lookup key = some child) :
      Step key (object entries) child
  | item {items : List Json} {i : Nat} {child : Json} (hindex : IsIndex key i)
      (h : items[i]? = some child) : Step key (array items) child

inductive Blocks (key : String) : Json → Prop where
  | missingKey {entries : List (String × Json)} (h : ∀ entry ∈ entries, entry.1 ≠ key) :
      Blocks key (object entries)
  | noIndex {items : List Json} (h : ∀ i, ¬ IsIndex key i) : Blocks key (array items)
  | pastEnd {items : List Json} {i : Nat} (hindex : IsIndex key i) (h : items.length ≤ i) :
      Blocks key (array items)
  | scalar {v : Json} (hobject : ∀ entries, v ≠ object entries)
      (harray : ∀ items, v ≠ array items) : Blocks key v

/-- The node that keys lead to, each of them taking a step. -/
inductive Reaches : List String → Json → Json → Prop where
  | here (v : Json) : Reaches [] v v
  | step {key : String} {keys : List String} {v child node : Json} (hstep : Step key v child)
      (hrest : Reaches keys child node) : Reaches (key :: keys) v node

variable {key : String} {keys : List String} {v node : Json}

def unsigned : List Char → List Char
  | '+' :: rest => rest
  | cs => cs

theorem unsigned_of_ne {c : Char} (h : c ≠ '+') (rest : List Char) :
    unsigned (c :: rest) = c :: rest := by
  rw [unsigned]
  intro _ heq
  exact h (List.cons.inj heq).1

theorem index?_eq_some {i : Nat} : index? key = some i ↔
    unsigned key.toList ≠ [] ∧ (∀ c ∈ unsigned key.toList, c.isDigit = true) ∧
      Nat.ofDigitChars 10 (unsigned key.toList) 0 = i := by
  have hvalue (digits : List Char) : digits.foldl (fun n c => n * 10 + (c.toNat - '0'.toNat)) 0 =
      Nat.ofDigitChars 10 digits 0 := by
    rw [Nat.ofDigitChars_eq_foldl]
    congr 1
    funext n c
    rw [Nat.mul_comm]
  change (if (!(unsigned key.toList).isEmpty && (unsigned key.toList).all Char.isDigit) = true then
    some ((unsigned key.toList).foldl (fun n c => n * 10 + (c.toNat - '0'.toNat)) 0) else none) =
      some i ↔ _
  rw [hvalue, Option.ite_none_right_eq_some, Option.some_inj, Bool.and_eq_true, List.all_eq_true,
    Bool.not_eq_true', List.isEmpty_eq_false_iff, and_assoc]

theorem index?_eq_some_iff {i : Nat} : index? key = some i ↔ IsIndex key i := by
  rw [index?_eq_some]
  constructor
  · rintro ⟨hne, hdigits, hi⟩
    refine ⟨_, hne, hdigits, ?_, hi⟩
    cases key.toList with
    | nil => exact .inl rfl
    | cons c rest =>
      by_cases hplus : c = '+'
      · rw [hplus]
        exact .inr rfl
      · exact .inl (unsigned_of_ne hplus rest).symm
  · rintro ⟨digits, hne, hdigits, hkey | hkey, hi⟩
    · obtain ⟨c, rest, rfl⟩ := List.exists_cons_of_ne_nil hne
      have hplus : c ≠ '+' := by
        rintro rfl
        exact absurd (hdigits '+' List.mem_cons_self) (by decide)
      rw [hkey, unsigned_of_ne hplus]
      exact ⟨hne, hdigits, hi⟩
    · rw [hkey, unsigned]
      exact ⟨hne, hdigits, hi⟩

theorem child?_eq_some_iff : v.child? key = some node ↔ Step key v node := by
  constructor
  · intro h
    cases v with
    | object entries => exact .entry h
    | array items =>
      obtain ⟨i, hindex, hitem⟩ := Option.bind_eq_some_iff.1 h
      exact .item (index?_eq_some_iff.1 hindex) hitem
    | _ => cases h
  · rintro (h | ⟨hindex, h⟩)
    · exact h
    · rw [child?, index?_eq_some_iff.2 hindex]
      exact h

theorem child?_eq_none_iff : v.child? key = none ↔ Blocks key v := by
  constructor
  · intro h
    cases v with
    | object entries =>
      refine .missingKey fun entry hentry heq => ?_
      have := List.lookup_eq_none_iff.1 h entry hentry
      simp [heq] at this
    | array items =>
      cases hindex : index? key with
      | none =>
        refine .noIndex fun i hi => ?_
        rw [← index?_eq_some_iff, hindex] at hi
        cases hi
      | some i =>
        rw [child?, hindex, Option.bind_some, List.getElem?_eq_none_iff] at h
        exact .pastEnd (index?_eq_some_iff.1 hindex) h
    | _ => exact .scalar (fun _ => Json.noConfusion) (fun _ => Json.noConfusion)
  · intro h
    cases h with
    | missingKey h =>
      rw [child?, List.lookup_eq_none_iff]
      exact fun entry hentry => bne_iff_ne.2 (h entry hentry).symm
    | noIndex h =>
      rw [child?, Option.eq_none_iff_forall_ne_some.2 fun i hi => h i (index?_eq_some_iff.1 hi)]
      rfl
    | pastEnd hindex h =>
      rw [child?, index?_eq_some_iff.2 hindex]
      exact List.getElem?_eq_none h
    | scalar hobject harray =>
      rw [child?]
      · exact hobject
      · exact harray

theorem descend?_eq_some_iff : v.descend? keys = some node ↔ Reaches keys v node := by
  induction keys generalizing v with
  | nil =>
    constructor
    · intro h
      cases h
      exact .here _
    · rintro ⟨⟩
      rfl
  | cons key keys ih =>
    rw [descend?, Option.bind_eq_some_iff]
    constructor
    · rintro ⟨child, hstep, hrest⟩
      exact .step (child?_eq_some_iff.1 hstep) (ih.1 hrest)
    · rintro (_ | ⟨hstep, hrest⟩)
      exact ⟨_, child?_eq_some_iff.2 hstep, ih.2 hrest⟩

/-- Keys lead nowhere exactly where one of them, after all those before it, takes no step. -/
theorem descend?_eq_none_iff : v.descend? keys = none ↔
    ∃ before key after node, keys = before ++ key :: after ∧ Reaches before v node ∧
      Blocks key node := by
  induction keys generalizing v with
  | nil => simp [descend?]
  | cons key keys ih =>
    rw [descend?, Option.bind_eq_none_iff]
    constructor
    · intro h
      cases hchild : v.child? key with
      | none => exact ⟨[], key, keys, v, rfl, .here v, child?_eq_none_iff.1 hchild⟩
      | some child =>
        obtain ⟨before, last, after, node, rfl, hreach, hblocks⟩ := ih.1 (h child hchild)
        exact ⟨key :: before, last, after, node, rfl, .step (child?_eq_some_iff.1 hchild) hreach,
          hblocks⟩
    · rintro ⟨before, last, after, node, hkeys, hreach, hblocks⟩ child hchild
      cases hreach with
      | here =>
        obtain ⟨rfl, -⟩ := List.cons.inj hkeys
        rw [child?_eq_none_iff.2 hblocks] at hchild
        cases hchild
      | @step first before _ next _ hstep hrest =>
        obtain ⟨rfl, rfl⟩ := List.cons.inj hkeys
        obtain rfl : next = child := by
          rw [← child?_eq_some_iff, hchild] at hstep
          exact (Option.some.inj hstep).symm
        exact ih.2 ⟨before, last, after, node, rfl, hrest, hblocks⟩

end Steps

end Json

namespace Document

/-- The pointer made of some keys finds exactly the node that they lead to, and it fails, with its
own name in the error, exactly if one of them takes no step. -/
theorem lookup_pointerTo (d : Document) (keys : List String) (h : keys ≠ []) :
    (∀ found, d.lookup (Json.pointerTo keys) = .ok found ↔
        ∃ node, found = some node ∧ Json.Reaches keys d.tree node) ∧
      ∀ failure, d.lookup (Json.pointerTo keys) = .error failure ↔
        failure = .unresolved (Json.pointerTo keys) ∧
          ∃ before key after node, keys = before ++ key :: after ∧
            Json.Reaches before d.tree node ∧ Json.Blocks key node := by
  simp only [← Json.descend?_eq_none_iff]
  simp only [← Json.descend?_eq_some_iff, lookup, Json.pointerKeys_pointerTo h]
  cases hnode : d.tree.descend? keys with
  | none => simp [eq_comm]
  | some node => simp [eq_comm]

def escapedTree : Json :=
  .object [("paths", .object []),
    ("~1", .object [("", .array [.null, .object [("a/b", .string "found")]])])]

def escapedDocument : Document :=
  (Run.ofTree .default escapedTree (by decide +kernel)).document

theorem lookup_pointerTo_escaped :
    ["~1", "", "+01", "a/b"] ≠ [] ∧ ["~1", "", "2"] ≠ [] ∧
      Json.pointerTo ["~1", "", "+01", "a/b"] = "#/~01//+01/a~1b" ∧
      escapedDocument.lookup (Json.pointerTo ["~1", "", "+01", "a/b"]) =
        .ok (some (.string "found")) ∧
      escapedDocument.lookup (Json.pointerTo ["~1", "", "2"]) =
        .error (.unresolved (Json.pointerTo ["~1", "", "2"])) := by
  refine ⟨by decide, by decide, by decide +kernel, ?_, ?_⟩
  · have hdigits : ∀ c ∈ ['0', '1'], c.isDigit = true :=
      List.forall_mem_cons.2 ⟨rfl, List.forall_mem_singleton.2 rfl⟩
    have hindex : Json.IsIndex "+01" 1 := ⟨['0', '1'], by decide, hdigits, .inr rfl, rfl⟩
    refine ((lookup_pointerTo escapedDocument _ (by decide)).1 _).2 ⟨_, rfl, ?_⟩
    exact .step (.entry rfl) (.step (.entry rfl)
      (.step (.item hindex rfl) (.step (.entry rfl) (.here _))))
  · have hdigits : ∀ c ∈ ['2'], c.isDigit = true := List.forall_mem_singleton.2 rfl
    have hindex : Json.IsIndex "2" 2 := ⟨['2'], by decide, hdigits, .inl rfl, rfl⟩
    refine ((lookup_pointerTo escapedDocument _ (by decide)).2 _).2 ⟨rfl, ["~1", ""], "2", [], ?_⟩
    exact ⟨_, rfl, .step (.entry rfl) (.step (.entry rfl) (.here _)),
      .pastEnd hindex (by decide)⟩

end Document

end ApiClient
