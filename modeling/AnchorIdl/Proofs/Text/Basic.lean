/-
# Texts and strings

A string literal stands for the text of its characters.  Two literals stand for
the same text only if they are the same, so `simp` can tell any two keys, names
or tags of the library apart.
-/

import AnchorIdl.Text.Scan
import AnchorIdl.Text.Utf8
import Mathlib.Logic.Function.Basic

namespace AnchorIdl

theorem CodePoint.ofChar_injective : Function.Injective CodePoint.ofChar := by
  intro a b h
  have hv : a.toNat = b.toNat := congrArg CodePoint.val h
  exact Char.toNat_inj.1 hv

@[simp] theorem CodePoint.ofChar_inj {a b : Char} :
    CodePoint.ofChar a = CodePoint.ofChar b ↔ a = b :=
  CodePoint.ofChar_injective.eq_iff

namespace Text

@[simp] theorem dropStart?_append (start rest : Text) :
    dropStart? start (start ++ rest) = some rest := by
  induction start with
  | nil => rfl
  | cons c start ih => simp [dropStart?, ih]

theorem dropStart?_cons_of_ne {a c : CodePoint} (h : a ≠ c) (start rest : Text) :
    dropStart? (a :: start) (c :: rest) = none :=
  if_neg h

@[simp] theorem ofString_inj {a b : String} : ofString a = ofString b ↔ a = b := by
  unfold ofString
  rw [List.map_inj_right CodePoint.ofChar_injective, String.toList_inj]

/-- What is not the separator stands in one of the pieces. -/
theorem exists_mem_split {separator c : CodePoint} {t : Text} (h : c ∈ t) (hc : c ≠ separator) :
    ∃ piece ∈ split separator t, c ∈ piece := by
  induction t with
  | nil => simp at h
  | cons d t ih =>
    unfold split
    rcases List.mem_cons.1 h with rfl | hmem
    · rw [if_neg hc]
      split <;> exact ⟨_, List.mem_cons_self .., List.mem_cons_self ..⟩
    · obtain ⟨piece, hpiece, hcpiece⟩ := ih hmem
      split
      · exact ⟨piece, List.mem_cons_of_mem _ hpiece, hcpiece⟩
      · split
        · next hnil => simp [hnil] at hpiece
        · next first rest hsplit =>
          rw [hsplit] at hpiece
          rcases List.mem_cons.1 hpiece with rfl | hrest
          · exact ⟨_, List.mem_cons_self .., List.mem_cons_of_mem _ hcpiece⟩
          · exact ⟨piece, List.mem_cons_of_mem _ hrest, hcpiece⟩

theorem split_ne_nil (separator : CodePoint) (t : Text) : split separator t ≠ [] := by
  cases t with
  | nil => simp [split]
  | cons c t =>
    unfold split
    split
    · simp
    · split <;> simp

/-- The pieces of a text are those whose joining gives it back. -/
theorem join_split (separator : CodePoint) (t : Text) :
    join [separator] (split separator t) = t := by
  induction t with
  | nil => rfl
  | cons c t ih =>
    unfold split
    cases h : split separator t with
    | nil => exact absurd h (split_ne_nil separator t)
    | cons piece pieces =>
      rw [h] at ih
      split
      · next hc =>
        subst hc
        rw [join, List.nil_append, ih, List.singleton_append]
        simp
      · cases pieces with
        | nil => exact congrArg (c :: ·) ih
        | cons => exact congrArg (c :: ·) ih

theorem split_of_not_mem {separator : CodePoint} {t : Text} (h : separator ∉ t) :
    split separator t = [t] := by
  induction t with
  | nil => rfl
  | cons c t ih =>
    rw [List.mem_cons, not_or] at h
    rw [split, if_neg (Ne.symm h.1), ih h.2]

theorem split_append {separator : CodePoint} {piece : Text} (h : separator ∉ piece) (t : Text) :
    split separator (piece ++ separator :: t) = piece :: split separator t := by
  induction piece with
  | nil => rw [List.nil_append, split, if_pos rfl]
  | cons c piece ih =>
    rw [List.mem_cons, not_or] at h
    rw [List.cons_append, split, if_neg (Ne.symm h.1), ih h.2]

/-- Pieces without the separator are what a text that they are joined to is split into. -/
theorem split_join {separator : CodePoint} {pieces : List Text} (hne : pieces ≠ [])
    (h : ∀ piece ∈ pieces, separator ∉ piece) :
    split separator (join [separator] pieces) = pieces := by
  induction pieces with
  | nil => exact absurd rfl hne
  | cons piece rest ih =>
    rw [List.forall_mem_cons] at h
    cases rest with
    | nil => exact split_of_not_mem h.1
    | cons next rest =>
      rw [join, List.append_assoc, List.singleton_append, split_append h.1,
        ih (List.cons_ne_nil next rest) h.2]
      simp

/-- What comes after joined pieces belongs to the last of them. -/
theorem join_append (separator last after : Text) (pieces : List Text) :
    join separator (pieces ++ [last]) ++ after = join separator (pieces ++ [last ++ after]) := by
  induction pieces with
  | nil => rfl
  | cons piece rest ih =>
    cases rest with
    | nil => simp [join]
    | cons next rest =>
      rw [List.cons_append] at ih
      simp only [List.cons_append, join, List.append_assoc, ih]

/-! ### Order -/

theorem le_total (t u : Text) : le t u = true ∨ le u t = true := by
  induction t generalizing u with
  | nil => exact .inl (by simp [le])
  | cons a t ih =>
    cases u with
    | nil => exact .inr (by simp [le])
    | cons b u =>
      simp only [le, Bool.or_eq_true, Bool.and_eq_true, decide_eq_true_eq, beq_iff_eq]
      rcases Nat.lt_trichotomy a.val b.val with hlt | heq | hgt
      · exact .inl (.inl hlt)
      · exact (ih u).imp (fun h => .inr ⟨heq, h⟩) fun h => .inr ⟨heq.symm, h⟩
      · exact .inr (.inl hgt)

theorem le_antisymm {t u : Text} (htu : le t u = true) (hut : le u t = true) : t = u := by
  induction t generalizing u with
  | nil =>
    cases u with
    | nil => rfl
    | cons b u => simp [le] at hut
  | cons a t ih =>
    cases u with
    | nil => simp [le] at htu
    | cons b u =>
      simp only [le, Bool.or_eq_true, Bool.and_eq_true, decide_eq_true_eq, beq_iff_eq] at htu hut
      rcases htu with hab | ⟨hab, htu⟩
      · omega
      · rcases hut with hba | ⟨-, hut⟩
        · omega
        · obtain ⟨n, hn⟩ := a
          obtain rfl : n = b.val := hab
          rw [ih htu hut]

theorem le_trans {t u v : Text} (htu : le t u = true) (huv : le u v = true) : le t v = true := by
  induction t generalizing u v with
  | nil => simp [le]
  | cons a t ih =>
    cases u with
    | nil => simp [le] at htu
    | cons b u =>
      cases v with
      | nil => simp [le] at huv
      | cons c v =>
        simp only [le, Bool.or_eq_true, Bool.and_eq_true, decide_eq_true_eq, beq_iff_eq]
          at htu huv ⊢
        rcases htu with hab | ⟨hab, htu⟩ <;> rcases huv with hbc | ⟨hbc, huv⟩
        · exact .inl (by omega)
        · exact .inl (by omega)
        · exact .inl (by omega)
        · exact .inr ⟨by omega, ih htu huv⟩

end Text

/-- A text has octets exactly if it holds no lone surrogate. -/
theorem Utf8.encode_succeeds_iff {t : Text} :
    (∃ bytes, encode t = .ok bytes) ↔ ∀ c ∈ t, c.isSurrogate = false := by
  unfold encode
  by_cases h : encodable t = true
  · rw [if_pos h]
    simpa [encodable] using h
  · rw [if_neg h]
    simpa [encodable] using h

end AnchorIdl
