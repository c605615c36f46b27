import ApiClient.Text.Pieces
import Mathlib.Data.List.Infix

namespace ApiClient.Text

theorem splitOnP_eq_cons (p : Char → Bool) (cs : List Char) :
    ∃ others, cs.splitOnP p = cs.takeWhile (fun c => !p c) :: others := by
  induction cs with
  | nil => exact ⟨[], rfl⟩
  | cons c rest ih =>
    obtain ⟨others, hrest⟩ := ih
    rw [List.splitOnP_cons_eq_if_modifyHead, hrest, List.takeWhile_cons]
    cases p c with
    | true => exact ⟨_, rfl⟩
    | false => exact ⟨others, rfl⟩

section Cuts

variable {p : Char → Bool} {c : Char} {cs rest piece : List Char}

theorem mem_splitOnP_cons (h : piece ∈ (c :: rest).splitOnP p) :
    piece = [] ∨ piece ∈ rest.splitOnP p ∨
      p c = false ∧ piece = c :: rest.takeWhile (fun d => !p d) := by
  obtain ⟨others, hrest⟩ := splitOnP_eq_cons p rest
  rw [List.splitOnP_cons_eq_if_modifyHead] at h
  split at h
  · obtain rfl | h := List.mem_cons.1 h
    · exact .inl rfl
    · exact .inr (.inl h)
  · next hc =>
    rw [hrest, List.modifyHead_cons] at h
    obtain rfl | h := List.mem_cons.1 h
    · exact .inr (.inr ⟨Bool.eq_false_iff.2 hc, rfl⟩)
    · exact .inr (.inl (hrest ▸ List.mem_cons_of_mem _ h))

theorem infix_of_mem_splitOnP (h : piece ∈ cs.splitOnP p) : piece <:+: cs := by
  induction cs with
  | nil =>
    rw [List.splitOnP_nil, List.mem_singleton] at h
    exact h ▸ List.infix_rfl
  | cons c rest ih =>
    obtain rfl | h | ⟨-, rfl⟩ := mem_splitOnP_cons h
    · exact List.nil_infix
    · exact List.infix_cons (ih h)
    · exact (List.cons_prefix_cons.2 ⟨rfl, List.takeWhile_prefix _⟩).isInfix

theorem eq_false_of_mem_splitOnP (h : piece ∈ cs.splitOnP p) : ∀ c ∈ piece, p c = false := by
  induction cs with
  | nil =>
    rw [List.splitOnP_nil, List.mem_singleton] at h
    exact h ▸ List.forall_mem_nil _
  | cons c rest ih =>
    obtain rfl | h | ⟨hc, rfl⟩ := mem_splitOnP_cons h
    · exact List.forall_mem_nil _
    · exact ih h
    · refine List.forall_mem_cons.2 ⟨hc, fun d hd => ?_⟩
      simpa using List.all_eq_true.1 List.all_takeWhile d hd

end Cuts

theorem isSome_breakAtMark {mark cs : List Char} :
    (breakAtMark mark cs).isSome = true ↔ mark <:+: cs := by
  induction cs with
  | nil => cases mark <;> simp [breakAtMark]
  | cons c cs ih =>
    rw [breakAtMark, List.infix_cons_iff]
    split
    · next h => simp [List.isPrefixOf_iff_prefix.1 h]
    · next h =>
      have hp : ¬ mark <+: c :: cs := fun hp => h (List.isPrefixOf_iff_prefix.2 hp)
      simp [hp, ih]

theorem containsText_iff {mark s : String} :
    containsText mark s = true ↔ mark.toList <:+: s.toList :=
  isSome_breakAtMark

theorem eq_of_append_mark {mark : Char} {a b u v : List Char} (ha : mark ∉ a) (hb : mark ∉ b)
    (h : a ++ mark :: u = b ++ mark :: v) : a = b ∧ u = v := by
  induction a generalizing b with
  | nil =>
    cases b with
    | nil => exact ⟨rfl, (List.cons.inj h).2⟩
    | cons d b => exact absurd ((List.cons.inj h).1 ▸ List.mem_cons_self) hb
  | cons c a ih =>
    rw [List.mem_cons, not_or] at ha
    cases b with
    | nil => exact absurd (List.cons.inj h).1.symm ha.1
    | cons d b =>
      obtain ⟨rfl, htail⟩ := List.cons.inj h
      rw [List.mem_cons, not_or] at hb
      obtain ⟨rfl, huv⟩ := ih ha.2 hb.2 htail
      exact ⟨rfl, huv⟩

theorem eq_of_append_last_mark {mark : Char} {a b u v : List Char} (hu : mark ∉ u)
    (hv : mark ∉ v) (h : a ++ mark :: u = b ++ mark :: v) : a = b ∧ u = v := by
  have hr : u.reverse ++ mark :: a.reverse = v.reverse ++ mark :: b.reverse := by
    simpa using congrArg List.reverse h
  obtain ⟨huv, hab⟩ := eq_of_append_mark (by simpa using hu) (by simpa using hv) hr
  exact ⟨List.reverse_injective hab, List.reverse_injective huv⟩

theorem isDigit_of_mem_toString {n : Nat} {c : Char} (h : c ∈ (toString n).toList) :
    c.isDigit = true := by
  rw [Nat.toString_eq_repr, Nat.toList_repr] at h
  exact Nat.isDigit_of_mem_toDigits (by decide) (by decide) h

theorem notMem_toString {c : Char} (h : c.isDigit = false) (n : Nat) : c ∉ (toString n).toList := by
  intro hc
  rw [isDigit_of_mem_toString hc] at h
  cases h

/-- A text is read from the left: the mark is taken as a whole where it stands, and everything else
character by character. -/
theorem scan_induction {mark : List Char} (hne : mark ≠ []) {P : List Char → Prop} (nil : P [])
    (hit : ∀ rest, P rest → P (mark ++ rest))
    (skip : ∀ c rest, ¬ mark <+: c :: rest → P rest → P (c :: rest)) (cs : List Char) : P cs := by
  induction hn : cs.length using Nat.strong_induction_on generalizing cs with
  | _ n ih =>
    subst hn
    cases cs with
    | nil => exact nil
    | cons c rest =>
      by_cases hmark : mark <+: c :: rest
      · obtain ⟨after, hafter⟩ := hmark
        have hlen := congrArg List.length hafter
        have hpos := List.length_pos_iff.2 hne
        rw [List.length_append] at hlen
        rw [← hafter]
        exact hit after (ih after.length (by omega) after rfl)
      · exact skip c rest hmark (ih rest.length (by simp) rest rfl)

section Replace

variable {mark : List Char}

theorem replaceMark_nil (mark new : List Char) : replaceMark mark new [] = [] := by
  rw [replaceMark]

theorem replaceMark_append_mark (hne : mark ≠ []) (new rest : List Char) :
    replaceMark mark new (mark ++ rest) = new ++ replaceMark mark new rest := by
  obtain ⟨c, mark, rfl⟩ := List.exists_cons_of_ne_nil hne
  have hstart : (c :: mark).isPrefixOf (c :: (mark ++ rest)) = true := by
    simp [List.isPrefixOf_iff_prefix]
  rw [List.cons_append, replaceMark, if_pos hstart]
  simp

theorem replaceMark_cons {c : Char} {rest : List Char} (h : ¬ mark <+: c :: rest)
    (new : List Char) : replaceMark mark new (c :: rest) = c :: replaceMark mark new rest := by
  rw [replaceMark, if_neg (by rwa [List.isPrefixOf_iff_prefix])]

theorem replaceMark_of_absent {cs : List Char} (h : ¬ mark <:+: cs) (new : List Char) :
    replaceMark mark new cs = cs := by
  induction cs with
  | nil => exact replaceMark_nil mark new
  | cons c cs ih =>
    rw [List.infix_cons_iff, not_or] at h
    rw [replaceMark_cons h.1, ih h.2]

theorem count_replaceMark_le (hne : mark ≠ []) {new : List Char} {x : Char}
    (hx : new.count x ≤ mark.count x) (cs : List Char) :
    (replaceMark mark new cs).count x ≤ cs.count x := by
  induction cs using scan_induction hne with
  | nil => rw [replaceMark_nil]
  | hit rest ih =>
    rw [replaceMark_append_mark hne, List.count_append, List.count_append]
    omega
  | skip c rest hmark ih =>
    rw [replaceMark_cons hmark, List.count_cons, List.count_cons]
    omega

/-- Where the mark stands, a replacement loses what the new text lacks. -/
theorem count_replaceMark_lt {new cs : List Char} {x : Char} (hx : new.count x < mark.count x)
    (h : mark <:+: cs) : (replaceMark mark new cs).count x < cs.count x := by
  have hne : mark ≠ [] := by
    rintro rfl
    simp at hx
  induction cs using scan_induction hne with
  | nil => exact absurd (List.infix_nil.1 h) hne
  | hit rest ih =>
    have hrest := count_replaceMark_le hne (Nat.le_of_lt hx) rest
    rw [replaceMark_append_mark hne, List.count_append, List.count_append]
    omega
  | skip c rest hmark ih =>
    rw [List.infix_cons_iff] at h
    have hrest := ih (h.resolve_left hmark)
    rw [replaceMark_cons hmark, List.count_cons, List.count_cons]
    omega

end Replace

end ApiClient.Text
