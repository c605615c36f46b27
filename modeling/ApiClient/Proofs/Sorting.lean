import ApiClient.Text.Sort
import Mathlib.Data.List.Sort

namespace ApiClient.Text

variable {α : Type} {key : α → String}

theorem insertByKey_eq_orderedInsert (a : α) (l : List α) :
    insertByKey key a l = l.orderedInsert (key · ≤ key ·) a := by
  induction l with
  | nil => rfl
  | cons b l ih =>
    rw [insertByKey, List.orderedInsert_cons, ih]
    by_cases hba : key b < key a
    · rw [if_pos hba, if_neg (String.not_le.2 hba)]
    · rw [if_neg hba, if_pos (String.not_lt.1 hba)]

theorem sortByKey_eq_insertionSort (l : List α) :
    sortByKey key l = l.insertionSort (key · ≤ key ·) := by
  induction l with
  | nil => rfl
  | cons a l ih => rw [sortByKey, insertByKey_eq_orderedInsert, ih, List.insertionSort_cons]

theorem sortByKey_perm (l : List α) : (sortByKey key l).Perm l := by
  rw [sortByKey_eq_insertionSort]
  exact List.perm_insertionSort _ l

theorem sortByKey_pairwise_le (l : List α) : (sortByKey key l).Pairwise (key · ≤ key ·) := by
  have : Std.Total fun a b : α => key a ≤ key b := ⟨fun a b => String.le_total (key a) (key b)⟩
  have : IsTrans α fun a b => key a ≤ key b := ⟨fun _ _ _ => String.le_trans⟩
  rw [sortByKey_eq_insertionSort]
  exact List.pairwise_insertionSort _ l

theorem filter_sortByKey (l : List α) (k : String) :
    (sortByKey key l).filter (fun a => key a = k) = l.filter fun a => key a = k := by
  have hequal : (l.filter fun a => key a = k).Pairwise (key · ≤ key ·) := by
    refine List.pairwise_of_forall_mem_list fun a ha b hb => ?_
    have hak := of_decide_eq_true (List.mem_filter.1 ha).2
    have hbk := of_decide_eq_true (List.mem_filter.1 hb).2
    exact (hak.trans hbk.symm) ▸ String.le_refl (key a)
  have hkept : (l.filter fun a => key a = k).Sublist (sortByKey key l) := by
    rw [sortByKey_eq_insertionSort]
    exact List.sublist_insertionSort hequal List.filter_sublist
  have hsub := hkept.filter fun a => key a = k
  rw [List.filter_filter] at hsub
  simp only [Bool.and_self] at hsub
  exact (hsub.eq_of_length ((sortByKey_perm l).filter _).length_eq.symm).symm

end ApiClient.Text
