namespace ApiClient.Text

/-- The pieces between the occurrences of a non-empty mark, always at least one. -/
def splitAtMark (mark : List Char) : List Char → List (List Char)
  | [] => [[]]
  | c :: rest =>
    if mark.isPrefixOf (c :: rest) then [] :: splitAtMark mark (rest.drop (mark.length - 1))
    else (splitAtMark mark rest).modifyHead (c :: ·)
termination_by cs => cs.length
decreasing_by
  all_goals simp only [List.length_drop, List.length_cons]; omega

def breakAtMark (mark : List Char) : List Char → Option (List Char × List Char)
  | [] => if mark.isEmpty then some ([], []) else none
  | c :: rest =>
    if mark.isPrefixOf (c :: rest) then some ([], (c :: rest).drop mark.length)
    else (breakAtMark mark rest).map fun (before, after) => (c :: before, after)

def replaceMark (mark new : List Char) : List Char → List Char
  | [] => []
  | c :: rest =>
    if mark.isPrefixOf (c :: rest) then new ++ replaceMark mark new (rest.drop (mark.length - 1))
    else c :: replaceMark mark new rest
termination_by cs => cs.length
decreasing_by
  all_goals simp only [List.length_drop, List.length_cons]; omega

theorem length_mem_splitAtMark (mark cs p : List Char) (h : p ∈ splitAtMark mark cs) :
    p.length ≤ cs.length := by
  fun_induction splitAtMark mark cs generalizing p with
  | case1 => simp_all
  | case2 c rest hm ih =>
    obtain rfl | h := List.mem_cons.1 h
    · simp
    · have := ih p h
      simp only [List.length_drop, List.length_cons] at *
      omega
  | case3 c rest hm ih =>
    cases hs : splitAtMark mark rest with
    | nil => simp [hs] at h
    | cons q qs =>
      rw [hs, List.modifyHead_cons] at h
      obtain rfl | h := List.mem_cons.1 h
      · have := ih q (by simp [hs])
        simpa using this
      · have := ih p (by simp [hs, h])
        simp only [List.length_cons]
        omega

theorem length_breakAtMark {mark cs before after : List Char}
    (h : breakAtMark mark cs = some (before, after)) :
    before.length + mark.length + after.length = cs.length := by
  fun_induction breakAtMark mark cs generalizing before with
  | case1 hm => simp_all
  | case2 => simp at h
  | case3 c rest hm =>
    obtain ⟨t, ht⟩ := List.isPrefixOf_iff_prefix.1 hm
    have hl := congrArg List.length ht
    simp only [Option.some.injEq, Prod.mk.injEq] at h
    obtain ⟨rfl, rfl⟩ := h
    simp only [List.length_append, List.length_cons, List.length_nil, List.length_drop] at *
    omega
  | case4 c rest hm ih =>
    obtain ⟨⟨b, a⟩, hb, he⟩ := Option.map_eq_some_iff.1 h
    simp only [Prod.mk.injEq] at he
    obtain ⟨rfl, rfl⟩ := he
    have := ih hb
    simp only [List.length_cons]
    omega

def replaceText (mark new s : String) : String :=
  String.ofList (replaceMark mark.toList new.toList s.toList)

def startsWith (start s : String) : Bool :=
  start.toList.isPrefixOf s.toList

def containsText (mark s : String) : Bool :=
  (breakAtMark mark.toList s.toList).isSome

def afterLast (p : Char → Bool) (cs : List Char) : List Char :=
  ((cs.reverse.takeWhile fun c => !p c)).reverse

end ApiClient.Text
