import ApiClient.Proofs.ParamsTypes

namespace ApiClient.ParamsTypeNames

inductive Settles (taken : List String) (base : String) : Nat → String → Prop where
  | free {i : Nat} (hfree : candidate base i ∉ taken) : Settles taken base i (candidate base i)
  | next {i : Nat} {name : String} (htaken : candidate base i ∈ taken)
      (h : Settles taken base (i + 1) name) : Settles taken base i name

/-- What a call answers, with the state it leaves. A new name is one that the trials end with. -/
inductive Assigns (names : ParamsTypeNames) (key base : String) :
    String × Bool → ParamsTypeNames → Prop where
  | known {name : String} (hknown : names.byOperation.lookup key = some name) :
      Assigns names key base (name, false) names
  | new {name : String} (hknown : names.byOperation.lookup key = none)
      (h : Settles names.taken base 0 name) :
      Assigns names key base (name, true) ⟨(key, name) :: names.byOperation, name :: names.taken⟩

section Trials

variable {taken : List String} {base : String}

theorem Settles.of_find? {n i : Nat} {name : String}
    (h : ((List.range' i n).map (candidate base)).find? (fun name => !taken.contains name) =
      some name) : Settles taken base i name := by
  induction n generalizing i with
  | zero => simp at h
  | succ n ih =>
    rw [List.range'_succ, List.map_cons] at h
    by_cases hfree : candidate base i ∈ taken
    · rw [List.find?_cons_of_neg (by simpa using hfree)] at h
      exact .next hfree (ih h)
    · rw [List.find?_cons_of_pos (by simpa using hfree)] at h
      cases h
      exact .free hfree

theorem Settles.unique {i : Nat} {name name' : String} (h : Settles taken base i name)
    (h' : Settles taken base i name') : name = name' := by
  induction h with
  | free hfree =>
    cases h' with
    | free => rfl
    | next htaken => exact absurd htaken hfree
  | next htaken _ ih =>
    cases h' with
    | free hfree => exact absurd htaken hfree
    | next _ h' => exact ih h'

theorem settles_firstFree (names : ParamsTypeNames) (base : String) :
    Settles names.taken base 0 (names.firstFree base) := by
  have hfree := names.firstFree_notMem base
  rw [firstFree, List.range_eq_range'] at *
  cases hfind : ((List.range' 0 (names.taken.length + 1)).map (candidate base)).find?
      fun name => !names.taken.contains name with
  | some name => exact .of_find? hfind
  | none =>
    have hbase := List.find?_eq_none.1 hfind base
      (List.mem_map.2 ⟨0, by simp [List.mem_range'], rfl⟩)
    rw [hfind, Option.getD_none] at hfree
    simp [hfree] at hbase

end Trials

theorem assigns_iff {names names' : ParamsTypeNames} {key base : String} {answer : String × Bool} :
    Assigns names key base answer names' ↔ names.assign key base = (answer, names') := by
  constructor
  · intro h
    cases h with
    | known hknown => rw [assign, hknown]
    | new hknown h =>
      rw [assign, hknown]
      obtain rfl := h.unique (names.settles_firstFree base)
      rfl
  · intro h
    rw [assign] at h
    split at h
    · next hknown =>
      cases h
      exact .known hknown
    · next hknown =>
      cases h
      exact .new hknown (names.settles_firstFree base)

def assignAll (names : ParamsTypeNames) (calls : List (String × String)) : ParamsTypeNames :=
  calls.foldl (fun names call => (names.assign call.1 call.2).2) names

def after (calls : List (String × String)) : ParamsTypeNames :=
  empty.assignAll calls

def answer (calls : List (String × String)) (i : Fin calls.length) : String × Bool :=
  ((after (calls.take i)).assign calls[i].1 calls[i].2).1

theorem after_concat (calls : List (String × String)) (call : String × String) :
    after (calls ++ [call]) = ((after calls).assign call.1 call.2).2 := by
  rw [after, assignAll, List.foldl_append]
  rfl

/-- What the two tables of a state have to do with each other, when these operations have been asked
for: each of them has a name, all their names are taken, and no two have the same. -/
structure Allocates (names : ParamsTypeNames) (keys : List String) : Prop where
  known : ∀ key, names.byOperation.lookup key = none ↔ key ∉ keys
  taken : ∀ key name, names.byOperation.lookup key = some name → name ∈ names.taken
  injective : ∀ key key' name, names.byOperation.lookup key = some name →
    names.byOperation.lookup key' = some name → key = key'

theorem allocates_empty : Allocates empty [] where
  known := by simp [empty]
  taken := by simp [empty]
  injective := by simp [empty]

variable {names : ParamsTypeNames} {keys : List String}

theorem Allocates.assign (h : names.Allocates keys) (key base : String) :
    (names.assign key base).2.Allocates (keys ++ [key]) := by
  obtain ⟨name, hknown, hassign⟩ | ⟨hknown, name, hfree, hassign⟩ := names.assign_cases key base
  · have hmem : key ∈ keys := by
      by_contra hmem
      rw [(h.known key).2 hmem] at hknown
      cases hknown
    rw [hassign]
    refine { h with known := ?_ }
    intro key'
    rw [h.known, List.mem_append, List.mem_singleton, not_or]
    constructor
    · intro hkey
      exact ⟨hkey, fun heq => hkey (heq ▸ hmem)⟩
    · exact And.left
  · rw [hassign]
    constructor
    · intro key'
      rw [List.lookup_cons, List.mem_append, List.mem_singleton, not_or]
      split
      · next heq => simp [eq_of_beq heq]
      · next heq => simp [h.known, ne_of_beq_false heq]
    · intro key' name' hlookup
      rw [List.lookup_cons] at hlookup
      split at hlookup
      · cases hlookup
        exact List.mem_cons_self
      · exact List.mem_cons_of_mem _ (h.taken key' name' hlookup)
    · intro key' key'' name' hlookup hlookup'
      rw [List.lookup_cons] at hlookup hlookup'
      split at hlookup <;> split at hlookup'
      · next hkey _ hkey' => exact (eq_of_beq hkey).trans (eq_of_beq hkey').symm
      · cases hlookup
        exact absurd (h.taken _ _ hlookup') hfree
      · cases hlookup'
        exact absurd (h.taken _ _ hlookup) hfree
      · exact h.injective key' key'' name' hlookup hlookup'

theorem allocates_after (calls : List (String × String)) :
    (after calls).Allocates (calls.map Prod.fst) := by
  induction calls using List.reverseRecOn with
  | nil => exact allocates_empty
  | append_singleton calls call ih =>
    rw [after_concat, List.map_append]
    exact ih.assign call.1 call.2

theorem lookup_assign (names : ParamsTypeNames) (key base : String) :
    (names.assign key base).2.byOperation.lookup key = some (names.assign key base).1.1 := by
  obtain ⟨name, hknown, hassign⟩ | ⟨-, name, -, hassign⟩ := names.assign_cases key base
  · rw [hassign, hknown]
  · rw [hassign, List.lookup_cons_self]

theorem lookup_assign_of_lookup {key name : String}
    (h : names.byOperation.lookup key = some name) (key' base : String) :
    (names.assign key' base).2.byOperation.lookup key = some name := by
  obtain ⟨name', -, hassign⟩ | ⟨hnone, name', -, hassign⟩ := names.assign_cases key' base
  · rw [hassign]
    exact h
  · rw [hassign, List.lookup_cons]
    split
    · next heq =>
      rw [← eq_of_beq heq, h] at hnone
      cases hnone
    · exact h

theorem lookup_assignAll_of_lookup {key name : String} (calls : List (String × String))
    (h : names.byOperation.lookup key = some name) :
    (names.assignAll calls).byOperation.lookup key = some name := by
  induction calls generalizing names with
  | nil => exact h
  | cons call calls ih => exact ih (lookup_assign_of_lookup h call.1 call.2)

theorem lookup_after {calls : List (String × String)} (i : Fin calls.length) :
    (after calls).byOperation.lookup calls[i].1 = some (answer calls i).1 := by
  have hsplit : after calls = (after (calls.take (i + 1))).assignAll (calls.drop (i + 1)) := by
    rw [after, after, assignAll, assignAll, assignAll, ← List.foldl_append, List.take_append_drop]
  rw [hsplit]
  apply lookup_assignAll_of_lookup
  rw [List.take_succ_eq_append_getElem i.isLt, after_concat]
  exact lookup_assign _ _ _

theorem answer_new_iff (calls : List (String × String)) (i : Fin calls.length) :
    (answer calls i).2 = true ↔ ∀ k < i, calls[k].1 ≠ calls[i].1 := by
  have hkeys : (after (calls.take i)).byOperation.lookup calls[i].1 = none ↔
      ∀ k < i, calls[k].1 ≠ calls[i].1 := by
    rw [(allocates_after _).known, List.mem_map]
    constructor
    · rintro hnone k hk heq
      exact hnone ⟨calls[k], List.mem_take_iff_getElem.2 ⟨k, by omega, rfl⟩, heq⟩
    · rintro hne ⟨call, hcall, heq⟩
      obtain ⟨k, hk, rfl⟩ := List.mem_take_iff_getElem.1 hcall
      have hlt : k < i ∧ k < calls.length := by omega
      exact hne ⟨k, hlt.2⟩ hlt.1 heq
  rw [← hkeys]
  obtain ⟨name, hknown, hassign⟩ | ⟨hknown, name, -, hassign⟩ :=
    (after (calls.take i)).assign_cases calls[i].1 calls[i].2
  · rw [answer, hassign, hknown]
    simp
  · rw [answer, hassign, hknown]
    simp

/-- Every call of a sequence comes to an answer. Calls for one operation have the same name, which
only the first of them answers as a new one, and calls for different operations different names. -/
theorem answer_injective (calls : List (String × String)) (i j : Fin calls.length) :
    Assigns (after (calls.take i)) calls[i].1 calls[i].2 (answer calls i)
      (after (calls.take (i + 1))) ∧
    (calls[i].1 = calls[j].1 ↔ (answer calls i).1 = (answer calls j).1) ∧
    ((answer calls i).2 = true ↔ ∀ k < i, calls[k].1 ≠ calls[i].1) := by
  refine ⟨?_, ⟨?_, ?_⟩, answer_new_iff calls i⟩
  · rw [List.take_succ_eq_append_getElem i.isLt, after_concat]
    exact assigns_iff.2 rfl
  · intro heq
    have hi := lookup_after i
    rw [heq, lookup_after j] at hi
    exact (Option.some.inj hi).symm
  · intro heq
    exact (allocates_after calls).injective _ _ _ (lookup_after i) (heq ▸ lookup_after j)

end ApiClient.ParamsTypeNames
