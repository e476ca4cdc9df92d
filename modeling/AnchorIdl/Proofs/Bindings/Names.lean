/-
# The names that a module assigns to

Three kinds of names stand at the top of a module: helpers, constants, and the
two names that are given, the binding and `__all__`.

| kind | form | kept apart from the binding by |
| --- | --- | --- |
| helper | `_type_` and a number, maybe an underscore | the underscore |
| constant | `INSTRUCTION_` and characters of a name | a number |

Helpers and constants are identifiers and never reserved, whatever the binding
is.  Different numbers give different helpers (`helperName_injective`), and a
constant is taken only if no constant before it and not the binding has the same
name (`Constants.ofNames_sound`): among one more candidate than there are taken
names, one is free, and the least such number is found (`freeNumber_isLeast`).

The binding itself may be any identifier, and nothing keeps it apart from
`__all__`.
-/

import AnchorIdl.Bindings.Names
import AnchorIdl.Bindings.TypeExpr
import AnchorIdl.Proofs.Script.Reading
import Mathlib.Data.List.Nodup
import Mathlib.Data.List.Perm.Subperm
import Mathlib.Order.Bounds.Basic

namespace AnchorIdl
namespace Bindings

open Script (IsName)

/-! ### Identifiers from parts -/

/-- A text of letters, digits and underscores. -/
def IsWord (t : Text) : Prop := ∀ c ∈ t, c.isWord = true

theorem isIdentifierContinue_of_isWord {c : CodePoint} (h : c.isWord = true) :
    c.isIdentifierContinue = true := by
  have hascii : c.val < 0x80 := by
    unfold CodePoint.isWord CodePoint.isLetter CodePoint.isUpper CodePoint.isLower
      CodePoint.isDigit at h
    simp only [Bool.or_eq_true, Bool.and_eq_true, decide_eq_true_eq, beq_iff_eq] at h
    omega
  rw [CodePoint.isIdentifierContinue, if_pos hascii, h]

theorem isIdentifier_append {start t : Text} (hs : start.isIdentifier = true) (ht : IsWord t) :
    (start ++ t).isIdentifier = true := by
  cases start with
  | nil => simp [Text.isIdentifier] at hs
  | cons c start =>
    simp only [Text.isIdentifier, Bool.and_eq_true, List.all_eq_true, List.cons_append] at hs ⊢
    refine ⟨hs.1, List.forall_mem_append.2 ⟨hs.2, fun c hc => ?_⟩⟩
    exact isIdentifierContinue_of_isWord (ht c hc)

/-- What begins like no reserved word is not reserved. -/
theorem isName_append {start t : Text} (hs : start.isIdentifier = true)
    (reserved : ∀ w ∈ Text.reservedWords, ¬ start <+: w) (ht : IsWord t) : IsName (start ++ t) := by
  refine ⟨isIdentifier_append hs ht, ?_⟩
  rw [Text.isReserved, Bool.eq_false_iff]
  intro h
  exact reserved _ (List.contains_iff_mem.1 h) (List.prefix_append start t)

theorem isWord_ofNat (n : Nat) : IsWord (Text.ofNat n) := by
  intro c hc
  simp [CodePoint.isWord, Text.isDigit_of_mem_ofNat hc]

/-! ### Helpers -/

/-- The number of a helper, and the underscore that keeps it apart from the binding. -/
def helperTail (binding : Text) (k : Nat) : Text :=
  if "_type_" ++ Text.ofNat k = binding then Text.ofNat k ++ "_" else Text.ofNat k

theorem helperName_eq (binding : Text) (k : Nat) :
    helperName binding k = "_type_" ++ helperTail binding k := by
  unfold helperName helperTail
  by_cases h : "_type_" ++ Text.ofNat k = binding
  · simp [h, ← List.append_assoc]
  · simp [h]

theorem isWord_helperTail (binding : Text) (k : Nat) : IsWord (helperTail binding k) := by
  unfold helperTail
  split
  · exact List.forall_mem_append.2 ⟨isWord_ofNat k, by decide⟩
  · exact isWord_ofNat k

theorem isName_helperName (binding : Text) (k : Nat) : IsName (helperName binding k) :=
  helperName_eq binding k ▸ isName_append (by decide) (by decide) (isWord_helperTail binding k)

theorem head?_helperName (binding : Text) (k : Nat) :
    (helperName binding k).head? = some (CodePoint.ofChar '_') := by
  rw [helperName_eq]
  rfl

theorem helperName_ne {binding t : Text} (h : ¬ Text.ofString "_type_" <+: t) (k : Nat) :
    helperName binding k ≠ t := by
  rintro rfl
  exact h ⟨_, (helperName_eq binding k).symm⟩

theorem helperName_ne_binding (binding : Text) (k : Nat) : helperName binding k ≠ binding := by
  unfold helperName
  dsimp only
  split
  · next h =>
    intro h'
    have hself : Text.ofString "_" = [] := List.append_right_eq_self.1 (h'.trans h.symm)
    exact absurd hself (by decide)
  · next h => exact h

theorem helperName_injective (binding : Text) : Function.Injective (helperName binding) := by
  intro i j h
  rw [helperName_eq, helperName_eq, List.append_cancel_left_eq] at h
  unfold helperTail at h
  -- No digit is an underscore, so the two numerals end at the same place.
  have hdigits : ∀ i j, Text.ofNat i ≠ Text.ofNat j ++ Text.ofString "_" := by
    intro i j h
    have hmem : CodePoint.ofChar '_' ∈ Text.ofNat i := by
      rw [h]
      exact List.mem_append_right _ (by decide)
    exact absurd (Text.isDigit_of_mem_ofNat hmem) (by decide)
  split at h <;> split at h
  · exact Text.ofNat_injective (List.append_cancel_right h)
  · exact absurd h.symm (hdigits _ _)
  · exact absurd h (hdigits _ _)
  · exact Text.ofNat_injective h

/-! ### Constants -/

theorem isWord_toUpper {c : CodePoint} (h : c.isWord = true) : c.toUpper.isWord = true := by
  unfold CodePoint.toUpper
  split
  · next hl =>
    simp only [CodePoint.isLower, Bool.and_eq_true, decide_eq_true_eq] at hl
    have hu : CodePoint.isUpper ⟨c.val - 0x20, by have := c.val_lt; omega⟩ = true := by
      simp only [CodePoint.isUpper, Bool.and_eq_true, decide_eq_true_eq]
      omega
    simp [CodePoint.isWord, CodePoint.isLetter, hu]
  · exact h

theorem isWord_maskSymbols (t : Text) : IsWord (maskSymbols t) := by
  refine List.forall_mem_map.2 fun c _ => ?_
  split
  · next h => exact h
  · decide

/-- A name of the form that constants have. -/
def IsConstant (t : Text) : Prop := ∃ tail, t = "INSTRUCTION_" ++ tail ∧ IsWord tail

theorem isConstant_constantName (instruction : Text) : IsConstant (constantName instruction) :=
  ⟨_, rfl, List.forall_mem_map.2 fun c hc => isWord_toUpper (isWord_maskSymbols _ c hc)⟩

theorem IsConstant.numbered {base : Text} (h : IsConstant base) (n : Nat) :
    IsConstant (numbered base n) := by
  obtain ⟨tail, rfl, htail⟩ := h
  refine ⟨tail ++ ("_" ++ Text.ofNat n), by simp [Bindings.numbered], ?_⟩
  exact List.forall_mem_append.2 ⟨htail, List.forall_mem_append.2 ⟨by decide, isWord_ofNat n⟩⟩

theorem IsConstant.isName {t : Text} (h : IsConstant t) : IsName t := by
  obtain ⟨tail, rfl, htail⟩ := h
  exact isName_append (by decide) (by decide) htail

/-- What begins with another character is no constant. -/
theorem IsConstant.ne {t u : Text} (h : IsConstant t) (hu : u.head? ≠ some (CodePoint.ofChar 'I')) :
    t ≠ u := by
  rintro rfl
  obtain ⟨tail, rfl, -⟩ := h
  exact hu rfl

theorem numbered_injective (base : Text) : Function.Injective (numbered base) := by
  intro m n h
  exact Text.ofNat_injective (List.append_cancel_left h)

/-- Of one more candidate than there are taken names, one is free. -/
theorem exists_free (taken : List Text) (base : Text) :
    ∃ i < taken.length + 1, numbered base (i + 2) ∉ taken := by
  by_contra h
  push Not at h
  have hall : (List.range (taken.length + 1)).map (fun i => numbered base (i + 2)) ⊆ taken :=
    List.forall_mem_map.2 fun i hi => h i (List.mem_range.1 hi)
  have hnodup : ((List.range (taken.length + 1)).map fun i => numbered base (i + 2)).Nodup :=
    List.nodup_range.map ((numbered_injective base).comp fun _ _ => Nat.add_right_cancel)
  have hlength := (List.subperm_of_subset hnodup hall).length_le
  rw [List.length_map, List.length_range] at hlength
  omega

/-- **The number that is found is the least one** from two on that makes a name not taken. -/
theorem freeNumber_isLeast (taken : List Text) (base : Text) :
    IsLeast {n | 2 ≤ n ∧ numbered base n ∉ taken} (freeNumber taken base) := by
  unfold freeNumber
  dsimp only
  rw [List.find?_map]
  cases hfind : (List.range (taken.length + 1)).find?
      ((fun n => !taken.contains (numbered base n)) ∘ (· + 2)) with
  | none =>
    obtain ⟨i, hi, hfree⟩ := exists_free taken base
    have htaken := List.find?_eq_none.1 hfind i (List.mem_range.2 hi)
    exact absurd hfree (by simpa using htaken)
  | some i =>
    obtain ⟨hfree, -, hbelow⟩ := List.find?_range_eq_some.1 hfind
    refine ⟨⟨Nat.le_add_left 2 i, by simpa using hfree⟩, ?_⟩
    rintro n ⟨htwo, hn⟩
    by_contra hlt
    have hlt : n < i + 2 := Nat.not_le.1 hlt
    have htaken := hbelow (n - 2) (by omega)
    rw [Function.comp_apply, Nat.sub_add_cancel htwo] at htaken
    exact hn (by simpa using htaken)

/-- The number that is found makes a name that is not taken. -/
theorem freeNumber_not_mem (taken : List Text) (base : Text) :
    numbered base (freeNumber taken base) ∉ taken :=
  (freeNumber_isLeast taken base).1.2

namespace Constants

/-- Constants with the names of constants, distinct and none of them the binding. -/
structure Sound (binding : Text) (entries : List (Text × Text)) : Prop where
  distinct : (binding :: entries.map Prod.fst).Nodup
  form : ∀ entry ∈ entries, IsConstant entry.1

theorem Sound.snoc {binding : Text} {entries : List (Text × Text)} (h : Sound binding entries)
    {constant : Text} (hconstant : IsConstant constant)
    (fresh : constant ∉ binding :: entries.map Prod.fst) (instruction : Text) :
    Sound binding (entries ++ [(constant, instruction)]) where
  distinct := by
    rw [List.map_append, ← List.cons_append]
    exact h.distinct.append (List.nodup_singleton _) (by simpa [eq_comm] using fresh)
  form := List.forall_mem_append.2 ⟨h.form, by simpa using hconstant⟩

theorem add_sound {binding : Text} {cs : Constants} (h : Sound binding cs.entries)
    (instruction : Text) : Sound binding (add binding cs instruction).entries := by
  have hbase := isConstant_constantName instruction
  unfold add
  dsimp only
  split
  · exact h
  · split
    · exact h.snoc (hbase.numbered _) (freeNumber_not_mem _ _) _
    · next hfresh => exact h.snoc hbase (by simpa using hfresh) _

/-- **The constants of a module are distinct names,** and none of them is the binding. -/
theorem ofNames_sound (binding : Text) (instructions : List Text) :
    Sound binding (ofNames binding instructions).entries := by
  have hfold : ∀ (instructions : List Text) (cs : Constants), Sound binding cs.entries →
      Sound binding (instructions.foldl (add binding) cs).entries := by
    intro instructions
    induction instructions with
    | nil => exact fun _ h => h
    | cons instruction rest ih => exact fun cs h => ih _ (add_sound h instruction)
  exact hfold instructions {} ⟨List.nodup_singleton _, by simp⟩

theorem mem_add {binding : Text} (cs : Constants) (instruction : Text) :
    instruction ∈ (add binding cs instruction).entries.map Prod.snd := by
  unfold add
  dsimp only
  split
  · next h => simpa using h
  · split <;> simp

theorem entries_subset_add {binding : Text} (cs : Constants) (instruction : Text) :
    cs.entries ⊆ (add binding cs instruction).entries := by
  unfold add
  dsimp only
  split
  · exact List.Subset.refl _
  · split <;> exact List.subset_append_left _ _

/-- Every instruction has a constant. -/
theorem mem_ofNames {binding : Text} {instructions : List Text} {instruction : Text}
    (h : instruction ∈ instructions) :
    ∃ constant, (constant, instruction) ∈ (ofNames binding instructions).entries := by
  have hkeep : ∀ (instructions : List Text) (cs : Constants),
      cs.entries ⊆ (instructions.foldl (add binding) cs).entries := by
    intro instructions
    induction instructions with
    | nil => exact fun _ => List.Subset.refl _
    | cons first rest ih => exact fun cs => List.Subset.trans (entries_subset_add cs first) (ih _)
  have hfold : ∀ (instructions : List Text) (cs : Constants), instruction ∈ instructions →
      ∃ constant, (constant, instruction) ∈ (instructions.foldl (add binding) cs).entries := by
    intro instructions
    induction instructions with
    | nil => simp
    | cons first rest ih =>
      intro cs hmem
      rcases List.mem_cons.1 hmem with rfl | hmem
      · obtain ⟨entry, hentry, rfl⟩ := List.mem_map.1 (@mem_add binding cs instruction)
        exact ⟨entry.1, hkeep rest _ hentry⟩
      · exact ih _ hmem
  exact hfold instructions {} h

end Constants
end Bindings
end AnchorIdl
