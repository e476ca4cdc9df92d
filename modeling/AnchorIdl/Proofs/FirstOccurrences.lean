/-
# First occurrences

A list in which every occurrence of a value after its first one is removed
(`firstOccurrences`).  An entry stays if no smaller index has its value.

`eraseDups` goes through the list and carries what it has kept so far; it keeps the
same entries (`eraseDups_eq_firstOccurrences`).
-/

import Mathlib.Data.List.Basic
import Mathlib.Data.List.Induction

namespace AnchorIdl

variable {α : Type} [BEq α] [LawfulBEq α] {l : List α} {x : α}

/-- The entries of a list whose value stands at no smaller index, in order. -/
def firstOccurrences (l : List α) : List α :=
  (l.zipIdx.filter fun e => l.idxOf e.1 = e.2).map Prod.fst

/-! ### Without duplicates -/

theorem eraseDups_concat_of_mem (h : x ∈ l) : (l ++ [x]).eraseDups = l.eraseDups := by
  rw [List.eraseDups_append, List.removeAll, List.filter_cons_of_neg (by simpa using h)]
  simp

theorem eraseDups_concat_of_not_mem (h : x ∉ l) :
    (l ++ [x]).eraseDups = l.eraseDups ++ [x] := by
  rw [List.eraseDups_append, List.removeAll, List.filter_cons_of_pos (by simpa using h)]
  simp [List.eraseDups_cons]

theorem nodup_eraseDups : (l : List α) → l.eraseDups.Nodup
  | [] => .nil
  | x :: rest => by
    rw [List.eraseDups_cons, List.nodup_cons, List.mem_eraseDups]
    exact ⟨by simp, nodup_eraseDups _⟩
termination_by l => l.length
decreasing_by exact Nat.lt_succ_of_le (List.length_filter_le ..)

/-! ### At the first occurrence -/

/-- What follows a list does not change where the values of its entries stand first. -/
theorem idxOf_append_of_mem_zipIdx {e : α × Nat} (he : e ∈ l.zipIdx) (rest : List α) :
    (l ++ rest).idxOf e.1 = l.idxOf e.1 :=
  List.idxOf_append_of_mem (List.mem_of_getElem? (List.mem_zipIdx_iff_getElem?.1 he))

/-- The last entry of a list is a first occurrence if its value is new. -/
theorem firstOccurrences_concat (l : List α) (x : α) [Decidable (x ∈ l)] :
    firstOccurrences (l ++ [x]) = firstOccurrences l ++ if x ∈ l then [] else [x] := by
  unfold firstOccurrences
  rw [List.zipIdx_append, List.filter_append, List.map_append,
    List.filter_congr fun e he => by rw [idxOf_append_of_mem_zipIdx he]]
  congr 1
  by_cases hx : x ∈ l
  · -- The value of the last entry stands before the end.
    have hlt : l.idxOf x < l.length := List.idxOf_lt_length_iff.2 hx
    have hne : l.idxOf x ≠ l.length := Nat.ne_of_lt hlt
    simp [hx, hne, List.idxOf_append_of_mem hx]
  · simp [hx, List.idxOf_append_of_notMem hx]

/-- **What is left without duplicates are the first occurrences.** -/
theorem eraseDups_eq_firstOccurrences (l : List α) : l.eraseDups = firstOccurrences l := by
  classical
  induction l using List.reverseRecOn with
  | nil => rfl
  | append_singleton l x ih =>
    rw [firstOccurrences_concat]
    by_cases hx : x ∈ l
    · rw [eraseDups_concat_of_mem hx, if_pos hx, List.append_nil, ih]
    · rw [eraseDups_concat_of_not_mem hx, if_neg hx, ih]

end AnchorIdl
