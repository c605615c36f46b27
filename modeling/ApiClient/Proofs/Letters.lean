import ApiClient.Proofs.Pieces
import ApiClient.Text.Camel

namespace ApiClient.Text

/-- To show a property of all ASCII characters, check the 128 codes. -/
theorem forall_ascii {P : Char → Prop} (h : ∀ n < 128, P (Char.ofNat n)) {c : Char}
    (hc : c.toNat < 128) : P c := by
  have hn := h c.toNat hc
  rwa [Char.ofNat_toNat] at hn

theorem toNat_lt_of_isAlphanum {c : Char} (h : c.isAlphanum = true) : c.toNat < 128 := by
  have hle : c.val ≤ 'z'.val := by
    obtain halpha | hdigit := Bool.or_eq_true_iff.1 h
    · obtain hupper | hlower := Bool.or_eq_true_iff.1 halpha
      · have hZ := (of_decide_eq_true hupper).2
        exact UInt32.le_trans hZ (by decide)
      · exact of_decide_eq_true (Bool.and_eq_true_iff.1 hlower).2
    · have h9 := of_decide_eq_true (Bool.and_eq_true_iff.1 hdigit).2
      exact UInt32.le_trans h9 (by decide)
  exact Nat.lt_of_le_of_lt (UInt32.le_iff_toNat_le.1 hle) (by decide)

theorem isAlphanum_changeCase {c : Char} (h : c.isAlphanum = true) :
    c.toUpper.isAlphanum = true ∧ c.toLower.isAlphanum = true :=
  forall_ascii (P := fun c => c.isAlphanum = true →
      c.toUpper.isAlphanum = true ∧ c.toLower.isAlphanum = true)
    (by decide +kernel) (toNat_lt_of_isAlphanum h) h

theorem toUppercase_of_ascii {c : Char} (h : c.toNat < 128) : toUppercase c = [c.toUpper] := by
  rw [toUppercase, if_pos h]

theorem toLowercase_of_ascii {c : Char} (h : c.toNat < 128) : toLowercase c = [c.toLower] := by
  rw [toLowercase, if_pos h]

theorem lowercase_of_ascii {cs : List Char} (h : ∀ c ∈ cs, c.toNat < 128) :
    lowercase cs = cs.map Char.toLower := by
  induction cs with
  | nil => rfl
  | cons c cs ih =>
    obtain ⟨hc, hcs⟩ := List.forall_mem_cons.1 h
    cases cs with
    | nil =>
      have hne : c ≠ 'Σ' := by
        rintro rfl
        exact absurd hc (by decide)
      rw [lowercase, if_neg hne, toLowercase_of_ascii hc]
      rfl
    | cons d ds =>
      rw [lowercase, toLowercase_of_ascii hc, ih hcs]
      · rfl
      · simp

theorem mem_caseWords {mode : CaseMode} {held cs w : List Char} (h : w ∈ caseWords mode held cs)
    {c : Char} (hc : c ∈ w) : c ∈ held ∨ c ∈ cs := by
  fun_induction caseWords mode held cs with
  | case1 => cases h
  | case2 mode held d =>
    rw [List.mem_singleton] at h
    subst h
    simpa [or_comm] using hc
  | case3 mode held d next rest hmode ih =>
    obtain rfl | h := List.mem_cons.1 h
    · rw [List.mem_reverse, List.mem_cons] at hc
      obtain rfl | hc := hc
      · simp
      · exact .inl hc
    · obtain hheld | hrest := ih h
      · cases hheld
      · exact .inr (List.mem_cons_of_mem _ hrest)
  | case4 mode held d next rest hmode hupper ih =>
    obtain rfl | h := List.mem_cons.1 h
    · exact .inl (List.mem_reverse.1 hc)
    · obtain hheld | hrest := ih h
      · simp [List.mem_singleton.1 hheld]
      · exact .inr (List.mem_cons_of_mem _ hrest)
  | case5 mode held d next rest hmode hupper ih =>
    obtain hheld | hrest := ih h
    · obtain rfl | hheld := List.mem_cons.1 hheld
      · simp
      · exact .inl hheld
    · exact .inr (List.mem_cons_of_mem _ hrest)

theorem isAlphanum_of_mem_words {cs w : List Char} (hcs : ∀ c ∈ cs, c.toNat < 128)
    (hw : w ∈ words cs) : ∀ c ∈ w, c.isAlphanum = true := by
  intro c hc
  obtain ⟨piece, hpiece, hw⟩ := List.mem_flatMap.1 hw
  obtain hheld | hc := mem_caseWords hw hc
  · cases hheld
  · have halpha := eq_false_of_mem_splitOnP hpiece c hc
    simpa [isAlphanumeric, hcs c ((infix_of_mem_splitOnP hpiece).subset hc)] using halpha

theorem isAlphanum_lowercase {cs : List Char} (h : ∀ c ∈ cs, c.isAlphanum = true) :
    ∀ c ∈ lowercase cs, c.isAlphanum = true := by
  intro c hc
  rw [lowercase_of_ascii fun c hc => toNat_lt_of_isAlphanum (h c hc)] at hc
  obtain ⟨d, hd, rfl⟩ := List.mem_map.1 hc
  exact (isAlphanum_changeCase (h d hd)).2

theorem isAlphanum_capitalize {cs : List Char} (h : ∀ c ∈ cs, c.isAlphanum = true) :
    ∀ c ∈ capitalize cs, c.isAlphanum = true := by
  intro c hc
  cases cs with
  | nil => cases hc
  | cons d rest =>
    obtain ⟨hd, hrest⟩ := List.forall_mem_cons.1 h
    rw [capitalize, toUppercase_of_ascii (toNat_lt_of_isAlphanum hd)] at hc
    obtain rfl | hc := List.mem_cons.1 hc
    · exact (isAlphanum_changeCase hd).1
    · exact isAlphanum_lowercase hrest c hc

theorem isAlphanum_lowerCamel {cs : List Char} (h : ∀ c ∈ cs, c.toNat < 128) :
    ∀ c ∈ lowerCamel cs, c.isAlphanum = true := by
  intro c hc
  have hwords := fun w (hw : w ∈ words cs) => isAlphanum_of_mem_words h hw
  rw [lowerCamel] at hc
  cases hcs : words cs with
  | nil => simp [hcs] at hc
  | cons w ws =>
    rw [hcs] at hc hwords
    obtain ⟨hw, hws⟩ := List.forall_mem_cons.1 hwords
    obtain hc | hc := List.mem_append.1 hc
    · exact isAlphanum_lowercase hw c hc
    · obtain ⟨v, hv, hc⟩ := List.mem_flatMap.1 hc
      exact isAlphanum_capitalize (hws v hv) c hc

end ApiClient.Text
