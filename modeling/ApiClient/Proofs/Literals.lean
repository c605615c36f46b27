import ApiClient.Json.Number
import ApiClient.Proofs.Pieces
import ApiClient.Text.Quoted

namespace ApiClient.Text

/-- What stands in front of the quote that ends a text. A backslash stands for the character behind
it, and nothing may follow the quote. -/
def readQuoted (quote : Char) : List Char → Option (List Char)
  | [] => none
  | [c] => if c = quote then some [] else none
  | c :: d :: rest =>
    if c = '\\' then (readQuoted quote rest).map (d :: ·)
    else if c = quote then none
    else (readQuoted quote (d :: rest)).map (c :: ·)

def unquote? (quote : Char) (s : String) : Option String :=
  match s.toList with
  | [] => none
  | c :: rest => if c = quote then (readQuoted quote rest).map String.ofList else none

section Quoting

variable {quote : Char}

theorem readQuoted_cons {c : Char} {rest : List Char} (hne : rest ≠ []) (hslash : c ≠ '\\')
    (hquote : c ≠ quote) : readQuoted quote (c :: rest) = (readQuoted quote rest).map (c :: ·) := by
  cases rest with
  | nil => exact absurd rfl hne
  | cons d rest => rw [readQuoted, if_neg hslash, if_neg hquote]

theorem readQuoted_slash (c : Char) (rest : List Char) :
    readQuoted quote ('\\' :: c :: rest) = (readQuoted quote rest).map (c :: ·) := by
  rw [readQuoted, if_pos rfl]

theorem readQuoted_escape (cs : List Char) :
    readQuoted quote (escape quote cs ++ [quote]) = some cs := by
  induction cs with
  | nil => simp [escape, readQuoted]
  | cons c rest ih =>
    by_cases hspecial : c = '\\' ∨ c = quote
    · rw [escape, if_pos hspecial, List.cons_append, List.cons_append, readQuoted_slash, ih]
      rfl
    · rw [not_or] at hspecial
      rw [escape, if_neg (not_or.2 hspecial), List.cons_append,
        readQuoted_cons (by simp) hspecial.1 hspecial.2, ih]
      rfl

theorem unquote?_quoted (s : String) : unquote? quote (quoted quote s) = some s := by
  rw [unquote?, quoted, String.toList_ofList, List.cons_append]
  simp [readQuoted_escape]

theorem quoteLiteral_injective : Function.Injective quoteLiteral := by
  intro s t h
  have hread : unquote? '"' (quoteLiteral s) = unquote? '"' (quoteLiteral t) := congrArg _ h
  simpa only [quoteLiteral, unquote?_quoted, Option.some.injEq] using hread

/-- A text may be escaped in two passes, provided that the backslashes come first. -/
theorem escape_eq_replaceMark (hquote : quote ≠ '\\') (cs : List Char) : escape quote cs =
    replaceMark [quote] ['\\', quote] (replaceMark ['\\'] ['\\', '\\'] cs) := by
  have hit (mark : Char) (new rest : List Char) :
      replaceMark [mark] new (mark :: rest) = new ++ replaceMark [mark] new rest :=
    replaceMark_append_mark (List.cons_ne_nil mark []) new rest
  have skip {mark c : Char} (h : mark ≠ c) (new rest : List Char) :
      replaceMark [mark] new (c :: rest) = c :: replaceMark [mark] new rest :=
    replaceMark_cons (by simpa using h) new
  induction cs with
  | nil => simp only [escape, replaceMark_nil]
  | cons c rest ih =>
    rw [escape]
    by_cases hslash : c = '\\'
    · rw [if_pos (.inl hslash), hslash, hit, List.cons_append, List.cons_append, List.nil_append,
        skip hquote, skip hquote, ih]
    · rw [skip (Ne.symm hslash)]
      by_cases hc : c = quote
      · rw [if_pos (.inr hc), hc, hit, ih]
        rfl
      · rw [if_neg (not_or.2 ⟨hslash, hc⟩), skip (Ne.symm hc), ih]

end Quoting

end ApiClient.Text

namespace ApiClient.Number

def isNumeralChar (c : Char) : Bool :=
  c.isDigit || c == '.' || c == 'e' || c == '+' || c == '-'

structure IsNumeral (cs : List Char) : Prop where
  head : ∃ c rest, cs = c :: rest ∧ (c.isDigit = true ∨ c = '-')
  chars : ∀ c ∈ cs, isNumeralChar c = true

theorem isNumeralChar_of_isDigit {c : Char} (h : c.isDigit = true) : isNumeralChar c = true := by
  simp [isNumeralChar, h]

theorem IsNumeral.append {cs ds : List Char} (h : IsNumeral cs)
    (hds : ∀ c ∈ ds, isNumeralChar c = true) : IsNumeral (cs ++ ds) where
  head := by
    obtain ⟨c, rest, rfl, hc⟩ := h.head
    exact ⟨c, rest ++ ds, rfl, hc⟩
  chars := List.forall_mem_append.2 ⟨h.chars, hds⟩

theorem IsNumeral.take {cs : List Char} (h : IsNumeral cs) {k : Nat} (hk : 0 < k) :
    IsNumeral (cs.take k) where
  head := by
    obtain ⟨c, rest, rfl, hc⟩ := h.head
    obtain ⟨k, rfl⟩ := Nat.exists_eq_add_of_lt hk
    exact ⟨c, rest.take (0 + k), rfl, hc⟩
  chars c hc := h.chars c (List.mem_of_mem_take hc)

theorem IsNumeral.minus {cs : List Char} (h : IsNumeral cs) : IsNumeral ('-' :: cs) where
  head := ⟨'-', cs, rfl, .inr rfl⟩
  chars := List.forall_mem_cons.2 ⟨by decide, h.chars⟩

theorem isNumeral_toDigits (n : Nat) : IsNumeral (Nat.toDigits 10 n) where
  head := by
    obtain ⟨c, rest, hcs⟩ := List.exists_cons_of_ne_nil (Nat.toDigits_ne_nil (n := n) (b := 10))
    have hc : c ∈ Nat.toDigits 10 n := hcs ▸ List.mem_cons_self
    exact ⟨c, rest, hcs, .inl (Nat.isDigit_of_mem_toDigits (by decide) (by decide) hc)⟩
  chars _ hc :=
    isNumeralChar_of_isDigit (Nat.isDigit_of_mem_toDigits (by decide) (by decide) hc)

theorem isNumeral_decimalText (d : Decimal.Digits) : IsNumeral (decimalText d) := by
  have hdigits := isNumeral_toDigits d.digits
  have hsigns {cs : List Char} (h : cs.all isNumeralChar = true) :
      ∀ c ∈ cs, isNumeralChar c = true := List.all_eq_true.1 h
  have hzero : IsNumeral ['0', '.'] :=
    ⟨⟨'0', ['.'], rfl, .inl (by decide)⟩, hsigns (by decide)⟩
  have hzeros (k : Nat) : ∀ c ∈ List.replicate k '0', isNumeralChar c = true :=
    fun c hc => List.eq_of_mem_replicate hc ▸ by decide
  have hfraction (k : Nat) :
      ∀ c ∈ '.' :: (Nat.toDigits 10 d.digits).drop k, isNumeralChar c = true :=
    List.forall_mem_cons.2 ⟨by decide, fun c hc => hdigits.chars c (List.mem_of_mem_drop hc)⟩
  rw [decimalText]
  dsimp only
  split
  · exact hzero.append (hsigns (by decide))
  · split
    · exact (hdigits.append (hzeros _)).append (hsigns (by decide))
    · split
      · exact (hdigits.take (by omega)).append (hfraction _)
      · split
        · exact (hzero.append (hzeros _)).append hdigits.chars
        · have hexponent (k : Nat) := (isNumeral_toDigits k).chars
          refine (((hdigits.take Nat.one_pos).append ?_).append ?_).append (hexponent _)
          · split
            · exact nofun
            · exact hfraction _
          · split <;> exact hsigns (by decide)

theorem isNumeral_text (n : Number) : IsNumeral n.text.toList := by
  cases n with
  | integer n =>
    rw [text, Int.toString_eq_repr, Int.repr_eq_if]
    split
    · rw [Nat.toList_repr]
      exact isNumeral_toDigits _
    · rw [String.toList_append, Nat.toList_repr]
      exact (isNumeral_toDigits _).minus
  | binary64 negative magnitude =>
    have hdecimal := isNumeral_decimalText (Decimal.shortest magnitude)
    rw [text, String.toList_ofList]
    cases negative with
    | false => exact hdecimal
    | true => exact hdecimal.minus

end ApiClient.Number
