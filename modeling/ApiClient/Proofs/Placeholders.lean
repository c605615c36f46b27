import ApiClient.Endpoint.Path
import ApiClient.Proofs.Pieces

namespace ApiClient.Path

open Text

def written (f : String → String) (ps : List Piece) : List Char :=
  ps.flatMap fun
    | .char c => [c]
    | .token name => placeholder (f (String.ofList name)).toList

@[simp] theorem written_nil (f : String → String) : written f [] = [] := rfl

@[simp] theorem written_char (f : String → String) (c : Char) (ps : List Piece) :
    written f (.char c :: ps) = c :: written f ps := rfl

@[simp] theorem written_token (f : String → String) (name : List Char) (ps : List Piece) :
    written f (.token name :: ps) =
      placeholder (f (String.ofList name)).toList ++ written f ps := rfl

theorem template_eq_written (path : String) :
    template path = String.ofList (written id (pieces path.toList)) := by
  rw [template, written]
  congr 2
  funext piece
  cases piece <;> simp [Piece.template]

theorem written_congr {f g : String → String} {ps : List Piece}
    (h : ∀ name, .token name ∈ ps → f (String.ofList name) = g (String.ofList name)) :
    written f ps = written g ps := by
  induction ps with
  | nil => rfl
  | cons piece ps ih =>
    have htail := ih fun n hn => h n (List.mem_cons_of_mem _ hn)
    cases piece with
    | char c => rw [written_char, written_char, htail]
    | token n => rw [written_token, written_token, htail, h n (by simp)]

section Templates

/-- Pieces that begin no placeholder except where a token stands. -/
structure IsTemplate (f : String → String) (ps : List Piece) : Prop where
  chars : ¬ [Piece.char '$', .char '{'] <:+: ps
  braces : ∀ name, .token name ∈ ps → '}' ∉ (f (String.ofList name)).toList
  openings : ∀ name, .token name ∈ ps → ¬ ['$', '{'] <:+: (f (String.ofList name)).toList

variable {f : String → String} {ps : List Piece}

theorem IsTemplate.tail {piece : Piece} (h : IsTemplate f (piece :: ps)) : IsTemplate f ps where
  chars hin := h.chars (List.infix_cons hin)
  braces name hname := h.braces name (List.mem_cons_of_mem _ hname)
  openings name hname := h.openings name (List.mem_cons_of_mem _ hname)

theorem not_placeholder_prefix_char {c : Char} (h : IsTemplate f (.char c :: ps))
    (name : List Char) : ¬ placeholder name <+: c :: written f ps := by
  intro hstart
  obtain ⟨rfl, hrest⟩ := List.cons_prefix_cons.1 hstart
  cases ps with
  | nil => simp [written] at hrest
  | cons piece rest =>
    cases piece with
    | char d =>
      obtain ⟨rfl, -⟩ := List.cons_prefix_cons.1 hrest
      exact h.chars (List.prefix_append [Piece.char '$', .char '{'] rest).isInfix
    | token n =>
      obtain ⟨hd, -⟩ := List.cons_prefix_cons.1 hrest
      exact absurd hd (by decide)

theorem replaceMark_name (name new rest : List Char) {n : List Char}
    (hopen : ¬ ['$', '{'] <:+: n) :
    replaceMark (placeholder name) new (n ++ '}' :: rest) =
      n ++ '}' :: replaceMark (placeholder name) new rest := by
  induction n with
  | nil =>
    apply replaceMark_cons
    rintro hstart
    exact absurd (List.cons_prefix_cons.1 hstart).1 (by decide)
  | cons c n ih =>
    rw [List.infix_cons_iff, not_or] at hopen
    rw [List.cons_append, replaceMark_cons, ih hopen.2, List.cons_append]
    intro hstart
    obtain ⟨rfl, hrest⟩ := List.cons_prefix_cons.1 hstart
    cases n with
    | nil => exact absurd (List.cons_prefix_cons.1 hrest).1 (by decide)
    | cons d n =>
      obtain ⟨rfl, -⟩ := List.cons_prefix_cons.1 hrest
      exact hopen.1 (List.prefix_append ['$', '{'] n)

theorem placeholder_append (n rest : List Char) :
    placeholder n ++ rest = '$' :: '{' :: (n ++ '}' :: rest) := by
  simp [placeholder]

theorem replaceMark_placeholder_of_ne {name n : List Char} (new rest : List Char)
    (hname : '}' ∉ name) (hn : '}' ∉ n) (hopen : ¬ ['$', '{'] <:+: n) (hne : n ≠ name) :
    replaceMark (placeholder name) new (placeholder n ++ rest) =
      placeholder n ++ replaceMark (placeholder name) new rest := by
  rw [placeholder_append, placeholder_append, replaceMark_cons, replaceMark_cons,
    replaceMark_name name new rest hopen]
  · intro hstart
    exact absurd (List.cons_prefix_cons.1 hstart).1 (by decide)
  · rintro ⟨after, hafter⟩
    rw [placeholder_append] at hafter
    simp only [List.cons.injEq, true_and] at hafter
    exact hne (eq_of_append_mark hname hn hafter).1.symm

/-- Replacing the placeholder of a name renames the tokens of that name, and nothing else. -/
theorem replaceMark_written (h : IsTemplate f ps) {name : String} (target : String)
    (hname : '}' ∉ name.toList) :
    replaceMark (placeholder name.toList) (placeholder target.toList) (written f ps) =
      written (fun n => if f n = name then target else f n) ps := by
  induction ps with
  | nil => exact replaceMark_nil _ _
  | cons piece ps ih =>
    have htail := ih h.tail
    cases piece with
    | char c =>
      rw [written_char, written_char, replaceMark_cons (not_placeholder_prefix_char h _), htail]
    | token n =>
      rw [written_token, written_token, ← htail]
      by_cases heq : f (String.ofList n) = name
      · rw [heq, if_pos rfl]
        exact replaceMark_append_mark (by simp [placeholder]) _ _
      · have hne : (f (String.ofList n)).toList ≠ name.toList :=
          fun he => heq (String.toList_injective he)
        rw [if_neg heq]
        exact replaceMark_placeholder_of_ne _ _ hname (h.braces n (by simp))
          (h.openings n (by simp)) hne

theorem written_eq_iff {g : String → String}
    (hf : ∀ name, .token name ∈ ps → '}' ∉ (f (String.ofList name)).toList)
    (hg : ∀ name, .token name ∈ ps → '}' ∉ (g (String.ofList name)).toList) :
    written f ps = written g ps ↔
      ∀ name, .token name ∈ ps → f (String.ofList name) = g (String.ofList name) := by
  induction ps with
  | nil => simp
  | cons piece ps ih =>
    have htail := ih (fun n hn => hf n (List.mem_cons_of_mem _ hn))
      (fun n hn => hg n (List.mem_cons_of_mem _ hn))
    cases piece with
    | char c => simp [htail]
    | token n =>
      have hfn := hf n (by simp)
      have hgn := hg n (by simp)
      rw [written_token, written_token, placeholder_append, placeholder_append]
      simp only [List.cons.injEq, true_and, List.mem_cons, Piece.token.injEq, forall_eq_or_imp,
        ← htail]
      constructor
      · intro heq
        obtain ⟨hname, hrest⟩ := eq_of_append_mark hfn hgn heq
        exact ⟨String.toList_injective hname, hrest⟩
      · rintro ⟨hname, hrest⟩
        rw [hname, hrest]

theorem count_written {g : String → String}
    (hf : ∀ name, .token name ∈ ps → '}' ∉ (f (String.ofList name)).toList)
    (hg : ∀ name, .token name ∈ ps → '}' ∉ (g (String.ofList name)).toList) :
    (written f ps).count '}' = (written g ps).count '}' := by
  induction ps with
  | nil => rfl
  | cons piece ps ih =>
    have htail := ih (fun n hn => hf n (List.mem_cons_of_mem _ hn))
      (fun n hn => hg n (List.mem_cons_of_mem _ hn))
    cases piece with
    | char c => rw [written_char, written_char, List.count_cons, List.count_cons, htail]
    | token n =>
      have hfn := List.count_eq_zero.2 (hf n (by simp))
      have hgn := List.count_eq_zero.2 (hg n (by simp))
      simp [placeholder, hfn, hgn, htail]

end Templates

section Tokens

/-- A token at the start of a text: behind a colon as long a name as possible, or in braces any
name without a closing one. -/
inductive IsToken : List Char → List Char → List Char → Prop where
  | colon {name rest : List Char} (hne : name ≠ []) (hname : ∀ c ∈ name, isNameChar c = true)
      (hrest : ∀ c ∈ rest.head?, isNameChar c = false) : IsToken (':' :: (name ++ rest)) name rest
  | braces {name rest : List Char} (hne : name ≠ []) (hname : '}' ∉ name) :
      IsToken ('{' :: (name ++ '}' :: rest)) name rest

variable {cs name rest : List Char}

theorem span_append {p : Char → Bool} (hname : ∀ c ∈ name, p c = true)
    (hrest : ∀ c ∈ rest.head?, p c = false) :
    (name ++ rest).takeWhile p = name ∧ (name ++ rest).dropWhile p = rest := by
  rw [List.takeWhile_append_of_pos hname, List.dropWhile_append_of_pos hname]
  cases rest with
  | nil => simp
  | cons c rest =>
    have hc := hrest c rfl
    simp [hc]

theorem head?_dropWhile (p : Char → Bool) (cs : List Char) :
    ∀ c ∈ (cs.dropWhile p).head?, p c = false := by
  intro c hc
  have hno := List.head?_dropWhile_not p cs
  rw [hc] at hno
  simpa using hno

theorem IsToken.of_token? (h : token? cs = some (name, rest)) : IsToken cs name rest := by
  cases cs with
  | nil => simp [token?] at h
  | cons c tail =>
    rw [token?] at h
    split at h
    · next hcolon =>
      subst hcolon
      split at h
      · cases h
      · next hne =>
        obtain ⟨rfl, rfl⟩ := Prod.mk.inj (Option.some.inj h)
        have htoken := IsToken.colon (by simpa using hne)
          (List.all_eq_true.1 (List.all_takeWhile (p := isNameChar) (l := tail)))
          (head?_dropWhile isNameChar tail)
        rwa [List.takeWhile_append_dropWhile] at htoken
    · split at h
      · next hopen =>
        subst hopen
        split at h
        · cases h
        · next hne =>
          obtain ⟨rfl, rfl⟩ := Prod.mk.inj (Option.some.inj h)
          rw [Bool.or_eq_true, not_or, List.isEmpty_iff, List.isEmpty_iff] at hne
          obtain ⟨d, after, hafter⟩ := List.exists_cons_of_ne_nil hne.2
          have hd : isInBraces d = false := by
            apply head?_dropWhile isInBraces tail
            rw [hafter]
            rfl
          obtain rfl : d = '}' := by simpa [isInBraces] using hd
          have hname : '}' ∉ tail.takeWhile isInBraces := by
            intro hmem
            have hchar := List.all_eq_true.1 List.all_takeWhile _ hmem
            simp [isInBraces] at hchar
          have htoken : IsToken ('{' :: (_ ++ '}' :: after)) _ after := .braces hne.1 hname
          rw [← hafter, List.takeWhile_append_dropWhile] at htoken
          rw [hafter]
          exact htoken
      · cases h

theorem IsToken.token?_eq (h : IsToken cs name rest) : token? cs = some (name, rest) := by
  cases h with
  | colon hne hname hrest =>
    obtain ⟨htake, hdrop⟩ := span_append hname hrest
    simp [token?, htake, hdrop, hne]
  | @braces name rest hne hname =>
    have hchars : ∀ c ∈ name, isInBraces c = true := by
      intro c hc
      have hclose : c ≠ '}' := fun he => hname (he ▸ hc)
      simpa [isInBraces] using hclose
    have hclose : ∀ c ∈ ('}' :: rest).head?, isInBraces c = false := by simp [isInBraces]
    obtain ⟨htake, hdrop⟩ := span_append hchars hclose
    simp [token?, htake, hdrop, hne]

theorem token?_spec {cs name after : List Char} (h : token? cs = some (name, after)) :
    name <:+: cs ∧ after <:+ cs ∧ '}' ∉ name := by
  cases IsToken.of_token? h with
  | colon _ hname _ =>
    refine ⟨⟨[':'], after, rfl⟩, ⟨':' :: name, rfl⟩, fun hmem => ?_⟩
    exact absurd (hname _ hmem) (by decide)
  | braces _ hname =>
    refine ⟨⟨['{'], '}' :: after, by simp⟩, ⟨'{' :: (name ++ ['}']), by simp⟩, hname⟩

theorem head_pieces {cs : List Char} {d : Char} {ps : List Piece}
    (h : pieces cs = .char d :: ps) : ∃ rest, cs = d :: rest := by
  cases cs with
  | nil => simp [pieces] at h
  | cons c rest =>
    rw [pieces] at h
    split at h
    · cases h
    · cases h
      exact ⟨rest, rfl⟩

theorem isTemplate_pieces {cs : List Char} (h : ¬ ['$', '{'] <:+: cs) :
    IsTemplate id (pieces cs) := by
  fun_induction pieces cs with
  | case1 => exact ⟨by simp, by simp, by simp⟩
  | case2 c rest name after htoken ih =>
    obtain ⟨hname, hafter, hbrace⟩ := token?_spec htoken
    have htail := ih fun hopen => h (hopen.trans hafter.isInfix)
    constructor
    · rw [List.infix_cons_iff, not_or]
      refine ⟨fun hstart => ?_, htail.chars⟩
      exact absurd (List.cons_prefix_cons.1 hstart).1 (by simp)
    · intro n hn
      obtain hn | hn := List.mem_cons.1 hn
      · cases hn
        simpa using hbrace
      · exact htail.braces n hn
    · intro n hn
      obtain hn | hn := List.mem_cons.1 hn
      · cases hn
        simpa using fun hopen => h (hopen.trans hname)
      · exact htail.openings n hn
  | case3 c rest hno ih =>
    rw [List.infix_cons_iff, not_or] at h
    have htail := ih h.2
    constructor
    · rw [List.infix_cons_iff, not_or]
      refine ⟨fun hstart => ?_, htail.chars⟩
      obtain ⟨hc, after, hafter⟩ := List.cons_prefix_cons.1 hstart
      obtain ⟨rest', rfl⟩ := head_pieces hafter.symm
      cases hc
      exact h.1 (List.prefix_append ['$', '{'] rest')
    · intro n hn
      exact htail.braces n (List.mem_of_ne_of_mem (by simp) hn)
    · intro n hn
      exact htail.openings n (List.mem_of_ne_of_mem (by simp) hn)

theorem mem_tokenNames {path name : String} :
    name ∈ tokenNames path ↔ ∃ n, .token n ∈ pieces path.toList ∧ String.ofList n = name := by
  rw [tokenNames, List.mem_filterMap]
  constructor
  · rintro ⟨piece, hpiece, hname⟩
    cases piece with
    | char c => cases hname
    | token n => exact ⟨n, hpiece, Option.some.inj hname⟩
  · rintro ⟨n, hn, rfl⟩
    exact ⟨.token n, hn, rfl⟩

end Tokens

end ApiClient.Path
