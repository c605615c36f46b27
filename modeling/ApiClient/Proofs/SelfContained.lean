import ApiClient.Proofs.UnionShape

namespace ApiClient

namespace Typing

/-- The closers that are awaited after a character, innermost first. Brackets in quotes are text,
and outside of them a closer must be the one that is awaited. -/
def await? (s : Scan) (awaited : List Char) (c : Char) : Option (List Char) :=
  if s.quote.isSome then some awaited
  else if isOpener c then (brackets.lookup c).map (· :: awaited)
  else if isCloser c then if awaited.head? = some c then some awaited.tail else none
  else some awaited

def awaitedFrom? (s : Scan) (awaited : List Char) : List Char → Option (List Char)
  | [] => some awaited
  | c :: rest => (await? s awaited c).bind fun awaited => awaitedFrom? (s.step c) awaited rest

theorem awaitedFrom?_append (s : Scan) (awaited cs ds : List Char) :
    awaitedFrom? s awaited (cs ++ ds) =
      (awaitedFrom? s awaited cs).bind fun awaited =>
        awaitedFrom? (cs.foldl Scan.step s) awaited ds := by
  induction cs generalizing s awaited with
  | nil => rfl
  | cons c rest ih =>
    rw [List.cons_append, awaitedFrom?, awaitedFrom?, Option.bind_assoc, List.foldl_cons]
    exact congrArg _ (funext fun awaited => ih (s.step c) awaited)

section Depth

variable {s : Scan} {c : Char} {awaited next cs : List Char}

theorem depth_step_quoted (h : s.quote.isSome = true) (c : Char) :
    (s.step c).depth = s.depth := by
  obtain ⟨depth, quote, escaped⟩ := s
  cases quote with
  | none => cases h
  | some quote =>
    simp only [Scan.step]
    repeat' split
    all_goals rfl

theorem depth_step_bracket (h : s.quote.isSome = false) (c : Char) :
    (s.step c).depth =
      if isOpener c then s.depth + 1 else if isCloser c then s.depth - 1 else s.depth := by
  obtain ⟨depth, quote, escaped⟩ := s
  cases quote with
  | some quote => cases h
  | none =>
    simp only [Scan.step]
    split
    · next hquote => obtain rfl | rfl := hquote <;> rfl
    · repeat' split
      all_goals rfl

theorem depth_step (hdepth : s.depth = awaited.length) (h : await? s awaited c = some next) :
    (s.step c).depth = next.length := by
  rw [await?] at h
  split at h
  · next hquote =>
    cases h
    rw [depth_step_quoted hquote, hdepth]
  · next hquote =>
    rw [depth_step_bracket (Bool.eq_false_iff.2 hquote)]
    split at h
    · next hopener =>
      obtain ⟨closer, -, rfl⟩ := Option.map_eq_some_iff.1 h
      simp [hopener, hdepth]
    · next hopener =>
      rw [if_neg hopener]
      split at h
      · next hcloser =>
        split at h
        · next hhead =>
          cases h
          obtain ⟨outer, rfl⟩ := List.head?_eq_some_iff.1 hhead
          simp [hcloser, hdepth]
        · cases h
      · next hcloser =>
        cases h
        rw [if_neg hcloser, hdepth]

theorem depth_scan (hdepth : s.depth = awaited.length)
    (h : awaitedFrom? s awaited cs = some next) :
    (cs.foldl Scan.step s).depth = next.length := by
  induction cs generalizing s awaited with
  | nil =>
    cases h
    exact hdepth
  | cons c rest ih =>
    obtain ⟨after, hafter, hrest⟩ := Option.bind_eq_some_iff.1 h
    exact ih (depth_step hdepth hafter) hrest

theorem depth_nonneg (h : awaitedFrom? .start [] cs = some next) {before : List Char}
    (hbefore : before <+: cs) : 0 ≤ (before.foldl Scan.step .start).depth := by
  obtain ⟨rest, rfl⟩ := hbefore
  rw [awaitedFrom?_append] at h
  obtain ⟨awaited, hawaited, -⟩ := Option.bind_eq_some_iff.1 h
  rw [depth_scan rfl hawaited]
  exact Int.natCast_nonneg _

end Depth

section Matching

variable {cs : List Char}

theorem awaitedFrom?_quotable {quote : Char} (h : Text.Quotable quote cs) (depth : Int)
    (awaited : List Char) :
    awaitedFrom? ⟨depth, some quote, false⟩ awaited cs = some awaited := by
  induction h with
  | nil => rfl
  | plain hquote hslash _ ih =>
    have hstep : Scan.step ⟨depth, some quote, false⟩ _ = ⟨depth, some quote, false⟩ :=
      (scan_quotable (.plain hquote hslash .nil) depth).1
    rw [awaitedFrom?, hstep]
    exact ih
  | escaped _ ih => exact ih

theorem await?_plain {c : Char} (hc : isPlain c = true) (depth : Int) (awaited : List Char) :
    await? ⟨depth, none, false⟩ awaited c = some awaited := by
  simp only [isPlain, Bool.not_eq_true', Bool.or_eq_false_iff] at hc
  simp [await?, hc]

theorem await?_quote {quote : Char} (hquote : isQuote quote = true) (depth : Int)
    (awaited : List Char) : await? ⟨depth, none, false⟩ awaited quote = some awaited := by
  obtain hquote | hquote := Bool.or_eq_true_iff.1 hquote <;> rw [beq_iff_eq] at hquote <;>
    subst hquote <;> rfl

theorem await?_bracket {opener closer : Char} (hpair : (opener, closer) ∈ brackets) (depth : Int)
    (awaited : List Char) :
    await? ⟨depth, none, false⟩ awaited opener = some (closer :: awaited) ∧
      await? ⟨depth, none, false⟩ (closer :: awaited) closer = some awaited := by
  simp only [brackets, List.mem_cons, List.not_mem_nil, or_false, Prod.mk.injEq] at hpair
  obtain ⟨rfl, rfl⟩ | ⟨rfl, rfl⟩ | ⟨rfl, rfl⟩ | ⟨rfl, rfl⟩ := hpair <;> exact ⟨rfl, rfl⟩

/-- A balanced text awaits nothing that was not awaited before, and closes nothing either. -/
theorem Balanced.awaitedFrom?_eq (h : Balanced cs) (depth : Int) (awaited : List Char) :
    awaitedFrom? ⟨depth, none, false⟩ awaited cs = some awaited := by
  induction h generalizing depth awaited with
  | nil => rfl
  | plain hc _ ih =>
    rw [awaitedFrom?, await?_plain hc, Option.bind_some, step_plain hc, ih]
  | quoted hquote hinside _ ih =>
    obtain ⟨hopen, hclose⟩ := step_quote hquote depth
    rw [awaitedFrom?, await?_quote hquote, Option.bind_some, hopen, awaitedFrom?_append,
      awaitedFrom?_quotable hinside, (scan_quotable hinside depth).1, Option.bind_some,
      awaitedFrom?, hclose]
    exact ih depth awaited
  | nested hpair hinside _ ihinside ih =>
    rw [awaitedFrom?, (await?_bracket hpair depth awaited).1, Option.bind_some,
      (step_bracket hpair depth).1, awaitedFrom?_append, ihinside, hinside.scan, Option.bind_some,
      awaitedFrom?, (await?_bracket hpair (depth + 1) awaited).2, Option.bind_some,
      (step_bracket hpair (depth + 1)).2, Int.add_sub_cancel, ih]

end Matching

section Outside

def Scan.IsSound (s : Scan) : Prop :=
  s.quote = none → s.escaped = false

theorem Scan.IsSound.step {s : Scan} (h : s.IsSound) (c : Char) : (s.step c).IsSound := by
  rw [Scan.step]
  repeat' split
  all_goals simp_all [Scan.IsSound]

theorem isSound_scan (cs : List Char) : (cs.foldl Scan.step .start).IsSound := by
  induction cs using List.reverseRecOn with
  | nil => exact fun _ => rfl
  | append_singleton cs c ih =>
    rw [List.foldl_append]
    exact ih.step c

theorem scan_eq_of_unquoted {cs : List Char}
    (h : (cs.foldl Scan.step .start).quote = none) :
    cs.foldl Scan.step .start = ⟨(cs.foldl Scan.step .start).depth, none, false⟩ := by
  have hescaped := isSound_scan cs h
  generalize cs.foldl Scan.step .start = s at h hescaped
  obtain ⟨depth, quote, escaped⟩ := s
  cases h
  cases hescaped
  rfl

end Outside

/-- A text that can be put anywhere outside of quotes. -/
structure SelfContained (text : String) : Prop where
  depth_nonneg : ∀ before, before <+: text.toList → 0 ≤ (before.foldl Scan.step .start).depth
  matched : awaitedFrom? .start [] text.toList = some []
  closed : text.toList.foldl Scan.step .start = .start
  /-- A larger text is scanned, and its brackets are matched, as if this one were not in it. -/
  spliced : ∀ before after, (before.foldl Scan.step .start).quote = none →
    (before ++ text.toList ++ after).foldl Scan.step .start =
      (before ++ after).foldl Scan.step .start ∧
    awaitedFrom? .start [] (before ++ text.toList ++ after) =
      awaitedFrom? .start [] (before ++ after)

theorem selfContained_of_balanced {text : String} (h : Balanced text.toList) :
    SelfContained text where
  depth_nonneg _ hbefore := depth_nonneg (h.awaitedFrom?_eq 0 []) hbefore
  matched := h.awaitedFrom?_eq 0 []
  closed := h.scan 0
  spliced before after houtside := by
    have hscan : (before ++ text.toList).foldl Scan.step .start =
        before.foldl Scan.step .start := by
      rw [List.foldl_append, scan_eq_of_unquoted houtside, h.scan]
    have hawaited : awaitedFrom? .start [] (before ++ text.toList) =
        awaitedFrom? .start [] before := by
      rw [awaitedFrom?_append, scan_eq_of_unquoted houtside]
      simp only [h.awaitedFrom?_eq, Option.bind_fun_some]
    constructor
    · rw [List.foldl_append, hscan, List.foldl_append]
    · rw [awaitedFrom?_append, hscan, hawaited, awaitedFrom?_append]

variable [Text.Transliteration]

/-- The type of any tree without ready type texts can be put anywhere. The namespace may be any that
has no quotes, brackets or operators in it. -/
theorem expression_selfContained (t : Typing)
    (hplain : t.override = Overrides.none.typeExpression)
    (hscope : t.scope.toList.all isInert = true) (node : Option SchemaNode)
    (h : ∀ n ∈ node, n.LiteralFree) : SelfContained (t.expression node) := by
  apply selfContained_of_balanced
  cases node with
  | none =>
    rw [expression, settle_plain hplain]
    exact isOperand_any.balanced
  | some n =>
    rw [expression]
    exact (isDivided_nodeType hplain hscope (h n rfl)).balanced

end Typing

end ApiClient

namespace ApiClient

/-- Quotes, backslashes and brackets in a key and in values, one of which is read as a schema. -/
def bracketedPair : SchemaNode :=
  .schema { Schema.ofType "object" with
    properties := some [("it's [", .schema { Schema.ofType "array" with
      items := some (.single (.schema { Schema.empty with
        enum := some [.scalar (.string "\\\"\x7b"), .composite (.object [("type", .string "array")])
          (.schema (Schema.ofType "array"))] })) })] }

theorem bracketedPair_literalFree : bracketedPair.LiteralFree := by
  refine .schema (List.forall_mem_singleton.2 (.schema (List.forall_mem_singleton.2 (.schema ?_))))
  exact List.forall_mem_singleton.2 (.schema nofun)

theorem bracketedPair_selfContained :
    (Typing.plain "API").override = Overrides.none.typeExpression ∧
    (Typing.plain "API").scope.toList.all Typing.isInert = true ∧
    bracketedPair.LiteralFree ∧
    (Typing.plain "API").expression (some bracketedPair) =
      "\x7b 'it\\'s ['?: (\"\\\\\\\"\x7b\" | any[])[]; \x7d" ∧
    Typing.SelfContained ((Typing.plain "API").expression (some bracketedPair)) := by
  have hscope : (Typing.plain "API").scope.toList.all Typing.isInert = true := by decide
  have hfree : ∀ n ∈ some bracketedPair, n.LiteralFree :=
    fun n hn => Option.some.inj hn ▸ bracketedPair_literalFree
  exact ⟨rfl, hscope, bracketedPair_literalFree, by decide +kernel,
    Typing.expression_selfContained (Typing.plain "API") rfl hscope (some bracketedPair) hfree⟩

end ApiClient
