import ApiClient.Proofs.Pieces
import ApiClient.Proofs.Runs
import Mathlib

namespace ApiClient

namespace NameCounts

/-- The name that a use gets after `i` earlier ones. -/
def numbered (name : String) (i : Nat) : String :=
  if i = 0 then name else name ++ "_" ++ toString (i + 1)

def Counts (used : NameCounts) (earlier : List String) : Prop :=
  ∀ name, used.lookup name = if earlier.count name = 0 then none else some (earlier.count name)

theorem counts_nil : Counts [] [] := by
  intro name
  rfl

theorem lookup_bump (used : NameCounts) (name n : String) :
    (used.bump name).lookup n =
      if n = name then (used.lookup n).map (· + 1) else used.lookup n := by
  induction used with
  | nil => simp [bump]
  | cons entry rest ih =>
    obtain ⟨k, count⟩ := entry
    rw [bump] at ih
    by_cases hk : n = k
    · by_cases hn : k = name <;> simp [bump, hk, hn]
    · have hb : (n == k) = false := beq_false_of_ne hk
      by_cases hn : k = name
      · subst hn
        simp [bump, List.lookup_cons, hb, ih]
      · simp [bump, List.lookup_cons, hb, hn, ih]

theorem take_fst {used : NameCounts} {earlier : List String} (h : Counts used earlier)
    (name : String) : (used.take name).1 = numbered name (earlier.count name) := by
  rw [take, h name, numbered]
  by_cases hc : earlier.count name = 0 <;> simp [hc]

theorem take_snd {used : NameCounts} {earlier : List String} (h : Counts used earlier)
    (name : String) : Counts (used.take name).2 (name :: earlier) := by
  intro n
  by_cases hc : earlier.count name = 0
  · have ht : (used.take name).2 = (name, 1) :: used := by simp [take, h name, hc]
    rw [ht, List.lookup_cons]
    by_cases hn : n = name
    · simp [hn, hc]
    · have hne : name ≠ n := fun he => hn he.symm
      have hb : (n == name) = false := beq_false_of_ne hn
      rw [hb, List.count_cons_of_ne hne]
      exact h n
  · have ht : (used.take name).2 = used.bump name := by simp [take, h name, hc]
    rw [ht, lookup_bump]
    by_cases hn : n = name
    · subst hn
      simp [h n, hc]
    · have hne : name ≠ n := fun he => hn he.symm
      simp [hn, hne, h n]

/-- Names with the numbers of their uses, after `earlier` ones. -/
def uses (earlier : List String) : List String → List (String × Nat)
  | [] => []
  | name :: rest => (name, earlier.count name) :: uses (name :: earlier) rest

theorem mem_uses {earlier names : List String} {name : String} {i : Nat} :
    (name, i) ∈ uses earlier names ↔
      earlier.count name ≤ i ∧ i < earlier.count name + names.count name := by
  induction names generalizing earlier with
  | nil => simp [uses]
  | cons n rest ih =>
    rw [uses, List.mem_cons, ih]
    by_cases hn : n = name
    · subst hn
      simp only [Prod.mk.injEq, true_and, List.count_cons_self]
      omega
    · have hne : name ≠ n := fun he => hn he.symm
      simp only [Prod.mk.injEq, hne, false_and, false_or, List.count_cons_of_ne hn]

theorem nodup_uses (earlier names : List String) : (uses earlier names).Nodup := by
  induction names generalizing earlier with
  | nil => exact List.nodup_nil
  | cons name rest ih =>
    refine List.nodup_cons.2 ⟨fun h => ?_, ih _⟩
    have hle := (mem_uses.1 h).1
    rw [List.count_cons_self] at hle
    omega

theorem mem_uses_nil {names : List String} {name : String} {i : Nat} :
    (name, i) ∈ uses [] names ↔ i < names.count name := by
  rw [mem_uses, List.count_nil]
  omega

theorem eq_of_append_number {a b : String} {m n : Nat}
    (h : a ++ "_" ++ toString m = b ++ "_" ++ toString n) : a = b ∧ m = n := by
  have hl : a.toList ++ '_' :: (toString m).toList = b.toList ++ '_' :: (toString n).toList := by
    simpa using congrArg String.toList h
  obtain ⟨hab, hmn⟩ := Text.eq_of_append_last_mark (Text.notMem_toString (by decide) m)
    (Text.notMem_toString (by decide) n) hl
  exact ⟨String.toList_injective hab, Nat.repr_injective (String.toList_injective hmn)⟩

/-- Two uses with one name are the same, or one of them is a first use of a name that is written
like the name of the other. -/
theorem eq_of_numbered_eq {a b : String} {i j : Nat} (h : numbered a i = numbered b j) :
    (a = b ∧ i = j) ∨ (i = 0 ∧ j ≠ 0 ∧ a = b ++ "_" ++ toString (j + 1)) ∨
      (j = 0 ∧ i ≠ 0 ∧ b = a ++ "_" ++ toString (i + 1)) := by
  rw [numbered, numbered] at h
  by_cases hi : i = 0 <;> by_cases hj : j = 0
  · rw [if_pos hi, if_pos hj] at h
    exact .inl ⟨h, hi.trans hj.symm⟩
  · rw [if_pos hi, if_neg hj] at h
    exact .inr (.inl ⟨hi, hj, h⟩)
  · rw [if_neg hi, if_pos hj] at h
    exact .inr (.inr ⟨hj, hi, h.symm⟩)
  · rw [if_neg hi, if_neg hj] at h
    obtain ⟨hab, hij⟩ := eq_of_append_number h
    exact .inl ⟨hab, Nat.add_right_cancel hij⟩

/-- Numbered names are distinct unless one of them is the plain name of another use. -/
theorem nodup_numbered_iff (names : List String) :
    ((uses [] names).map fun use => numbered use.1 use.2).Nodup ↔
      ∀ name k, 2 ≤ k → k ≤ names.count name → name ++ "_" ++ toString k ∉ names := by
  rw [List.nodup_map_iff_inj_on (nodup_uses [] names)]
  constructor
  · intro inj name k hk hcount hmem
    have hlater : (name, k - 1) ∈ uses [] names := mem_uses_nil.2 (by omega)
    have hplain : (name ++ "_" ++ toString k, 0) ∈ uses [] names :=
      mem_uses_nil.2 (List.count_pos_iff.2 hmem)
    have hsame : numbered name (k - 1) = numbered (name ++ "_" ++ toString k) 0 := by
      rw [numbered, numbered, if_neg (by omega), if_pos rfl, Nat.sub_add_cancel (by omega)]
    have hzero : k - 1 = 0 := congrArg Prod.snd (inj _ hlater _ hplain hsame)
    omega
  · intro apart
    have clash : ∀ a b j, (a, 0) ∈ uses [] names → (b, j) ∈ uses [] names → j ≠ 0 →
        a ≠ b ++ "_" ++ toString (j + 1) := by
      intro a b j ha hb hj he
      rw [mem_uses_nil] at ha hb
      exact apart b (j + 1) (by omega) (by omega) (he ▸ List.count_pos_iff.1 ha)
    rintro ⟨a, i⟩ ha ⟨b, j⟩ hb he
    obtain ⟨rfl, rfl⟩ | ⟨rfl, hj, hab⟩ | ⟨rfl, hi, hba⟩ := eq_of_numbered_eq he
    · rfl
    · exact absurd hab (clash a b j ha hb hj)
    · exact absurd hba (clash b a i hb ha hi)

end NameCounts

variable [Text.Transliteration]

namespace Run

/-- The names that the operations of a tag ask for, in document order. -/
def plainNames (r : Run) (tag : String) : List String :=
  ((r.document.spec.members r.config r.overrides tag).filter fun e => !isSkipped e).map
    r.functionName

theorem functionNames_tagParts {r : Run} {tag : String} {used : NameCounts}
    {names names' : ParamsTypeNames} {es : List Endpoint} {parts : List CallPart}
    {earlier : List String} (h : r.tagParts tag used names es = (.ok parts, names'))
    (hu : NameCounts.Counts used earlier) :
    parts.map (fun part => part.call.functionName) =
      (NameCounts.uses earlier ((es.filter fun e => !isSkipped e).map r.functionName)).map
        fun use => NameCounts.numbered use.1 use.2 := by
  induction es generalizing used names parts earlier with
  | nil =>
    obtain ⟨rfl, -⟩ := tagParts_nil h
    rfl
  | cons e rest ih =>
    obtain ⟨hs, hrest⟩ |
      ⟨hs, shape, description, part, names₁, more, -, -, hpart, hmore, rfl⟩ := tagParts_cons h
    · rw [List.filter_cons_of_neg (by simp [hs])]
      exact ih hrest hu
    · have hname : (used.take (r.functionName e)).1 = part.call.functionName :=
        congrArg (fun built => built.1.call.functionName) hpart
      rw [List.filter_cons_of_pos (by simp [hs]), List.map_cons, List.map_cons, NameCounts.uses,
        List.map_cons, ← hname, NameCounts.take_fst hu, ih hmore (NameCounts.take_snd hu _)]

theorem functionNames_perm {r : Run} {c : Client} (h : r.client = .ok c) {u : ServiceUnit}
    (hu : u ∈ c.services) :
    (u.operations.map Call.functionName).Perm
      ((NameCounts.uses [] (r.plainNames u.tag)).map fun use =>
        NameCounts.numbered use.1 use.2) := by
  obtain ⟨names, names', parts, hparts, hops⟩ := exists_tagParts_of_mem_services h hu
  rw [hops, plainNames, ← functionNames_tagParts hparts NameCounts.counts_nil]
  have hsort : (Text.sortByKey Call.path (parts.map CallPart.call)).Perm
      (parts.map CallPart.call) := Text.sortByKey_perm _
  have hnames := hsort.map Call.functionName
  rwa [List.map_map] at hnames

theorem forall_functionNames {r : Run} {c : Client} (h : r.client = .ok c) {u : ServiceUnit}
    (hu : u ∈ c.services) (P : String → Prop) :
    (∀ call ∈ u.operations, P call.functionName) ↔
      ∀ use ∈ NameCounts.uses [] (r.plainNames u.tag), P (NameCounts.numbered use.1 use.2) := by
  have hperm := functionNames_perm h hu
  rw [← List.forall_mem_map (f := Call.functionName) (P := P),
    ← List.forall_mem_map (f := fun use : String × Nat => NameCounts.numbered use.1 use.2)]
  exact forall_congr' fun name => imp_congr_left hperm.mem_iff

theorem mem_plainNames {r : Run} {tag name : String} :
    name ∈ r.plainNames tag ↔ ∃ e ∈ r.document.spec.members r.config r.overrides tag,
      isSkipped e = false ∧ r.functionName e = name := by
  simp [plainNames, and_assoc]

/-- The functions of a unit have distinct names exactly when no operation of the unit asks for a
name that a later use of another name gets. -/
theorem functionNames_nodup_iff (r : Run) (c : Client) (h : r.client = .ok c) (u : ServiceUnit)
    (hu : u ∈ c.services) :
    (u.operations.map Call.functionName).Nodup ↔
      ∀ name k, 2 ≤ k → k ≤ (r.plainNames u.tag).count name →
        name ++ "_" ++ toString k ∉ r.plainNames u.tag := by
  rw [(functionNames_perm h hu).nodup_iff]
  exact NameCounts.nodup_numbered_iff _

end Run

end ApiClient

namespace ApiClient.Run

def usersTree (third : String) : Json :=
  documentTree [
    ("/a", .object [("get", operationTree "listUsers" ["user"] [])]),
    ("/b", .object [("get", operationTree "listUsers" ["user"] [])]),
    ("/c", .object [("get", operationTree third ["user"] [])])] []

def usersRun : Run :=
  .ofTree { Config.default with isCamelCase := false } (usersTree "listUsers_(3)")
    (by decide +kernel)

theorem usersRun_nodup : ∃ c u, usersRun.client = .ok c ∧ u ∈ c.services ∧
    u.operations.map Call.functionName = ["listUsers", "listUsers_2", "listUsers_3"] ∧
    (∀ name k, 2 ≤ k → k ≤ (usersRun.plainNames u.tag).count name →
      name ++ "_" ++ toString k ∉ usersRun.plainNames u.tag) := by
  obtain ⟨c, hc, hunits⟩ : ∃ c, usersRun.client = .ok c ∧
      c.services.map (fun u => (u.tag, u.operations.map Call.functionName)) =
        [("user", ["listUsers", "listUsers_2", "listUsers_3"])] :=
    exists_ok_of_map (by decide +kernel)
  obtain ⟨u, hu, hnames⟩ := exists_unit_of_map hunits
  have hops := (Prod.mk.inj hnames).2
  refine ⟨c, u, hc, hu, hops, (functionNames_nodup_iff usersRun c hc u hu).1 ?_⟩
  rw [hops]
  decide

/-- An identifier that is written like the second use of another one. -/
def clashingRun : Run :=
  .ofTree { Config.default with isCamelCase := false } (usersTree "listUsers_(2)")
    (by decide +kernel)

theorem not_functionNames_nodup : ¬ ∀ (r : Run) (c : Client), r.overrides = .none →
    r.client = .ok c → ∀ u ∈ c.services, (u.operations.map Call.functionName).Nodup := by
  intro nodup
  obtain ⟨c, hc, hunits⟩ : ∃ c, clashingRun.client = .ok c ∧
      c.services.map (fun u => u.operations.map Call.functionName) =
        [["listUsers", "listUsers_2", "listUsers_2"]] :=
    exists_ok_of_map (by decide +kernel)
  obtain ⟨u, hu, hnames⟩ := exists_unit_of_map hunits
  have hn := nodup clashingRun c rfl hc u hu
  rw [hnames] at hn
  exact absurd hn (by decide)

end ApiClient.Run
