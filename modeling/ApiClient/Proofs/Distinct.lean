import ApiClient.Typing.Expression
import Mathlib.Data.List.Nodup

namespace ApiClient

variable {α β : Type} [DecidableEq α]

@[simp] theorem mem_distinct {a : α} {l : List α} : a ∈ distinct l ↔ a ∈ l := by
  induction l with
  | nil => simp [distinct]
  | cons b l ih =>
    by_cases h : a = b
    · simp [distinct, h]
    · simp [distinct, h, ih]

theorem nodup_distinct (l : List α) : (distinct l).Nodup := by
  induction l with
  | nil => exact List.nodup_nil
  | cons a l ih => exact List.nodup_cons.2 ⟨by simp, ih.filter _⟩

theorem distinct_of_nodup {l : List α} (h : l.Nodup) : distinct l = l := by
  induction l with
  | nil => rfl
  | cons a l ih =>
    obtain ⟨ha, hl⟩ := List.nodup_cons.1 h
    rw [distinct, ih hl, List.filter_eq_self.2]
    intro b hb
    simpa using fun he : b = a => ha (he ▸ hb)

theorem distinct_map [DecidableEq β] {f : α → β} (hf : Function.Injective f) (l : List α) :
    distinct (l.map f) = (distinct l).map f := by
  induction l with
  | nil => rfl
  | cons a l ih =>
    rw [List.map_cons, distinct, distinct, ih, List.map_cons, List.filter_map]
    congr 2
    refine List.filter_congr fun b _ => ?_
    simp [hf.eq_iff]

theorem distinct_append (l m : List α) :
    distinct (l ++ m) = distinct l ++ (distinct m).filter (· ∉ l) := by
  induction l with
  | nil => simp [distinct]
  | cons a l ih =>
    simp only [List.cons_append, distinct, ih, List.filter_append, List.filter_filter]
    congr 2
    refine List.filter_congr fun b _ => ?_
    simp [not_or]

theorem distinct_flatMap_distinct (f : β → List α) (l : List β) :
    distinct (l.flatMap fun b => distinct (f b)) = distinct (l.flatMap f) := by
  induction l with
  | nil => rfl
  | cons b l ih =>
    rw [List.flatMap_cons, List.flatMap_cons, distinct_append, distinct_append, ih,
      distinct_of_nodup (nodup_distinct _)]
    simp

theorem pairwise_idxOf_distinct [BEq α] [LawfulBEq α] (l : List α) :
    (distinct l).Pairwise fun a b => l.idxOf a < l.idxOf b := by
  induction l with
  | nil => exact List.Pairwise.nil
  | cons a l ih =>
    refine List.pairwise_cons.2 ⟨fun b hb => ?_, ?_⟩
    · have hab : b ≠ a := by simpa using (List.mem_filter.1 hb).2
      simp [List.idxOf_cons_ne _ hab.symm]
    · refine (ih.filter _).imp_of_mem fun {b c} hb hc hlt => ?_
      have hba : b ≠ a := by simpa using (List.mem_filter.1 hb).2
      have hca : c ≠ a := by simpa using (List.mem_filter.1 hc).2
      rw [List.idxOf_cons_ne _ hba.symm, List.idxOf_cons_ne _ hca.symm]
      omega

end ApiClient
