/-
# Which constant an instruction gets

The constants of a module are made one after the other, in the order in which the
instruction names occur first.  An instruction keeps the constant of its own name
if neither the binding nor a constant before it has that name, and otherwise gets
the least number from two on that makes it a name not taken (`NamedAfter`).  So a
name like `foo_2` may lose the constant of its own to an earlier `foo`.

`add_stable` is one step: what holds of the constants made so far
(`Constants.Stable`) holds with the next one.  By induction it holds of the
constants of all instruction names (`ofNames_stable`), whatever characters these
have, and `next_constants` says it of what a writer writes and warns of.
-/

import AnchorIdl.Proofs.Bindings.Names
import AnchorIdl.Proofs.Bindings.Printing
import AnchorIdl.Proofs.FirstOccurrences
import Mathlib.Data.List.Induction

namespace AnchorIdl
namespace Bindings

open Script (IsName)

/-- A text of capital letters, digits and underscores. -/
def IsCapitalWord (t : Text) : Prop := ∀ c ∈ t, c.isUpper = true ∨ c.isDigit = true ∨ c.val = 0x5F

/-- The constant for an instruction name when some names are taken. -/
inductive NamedAfter (taken : List Text) (instruction : Text) : Text → Prop
  | own (free : constantName instruction ∉ taken) :
      NamedAfter taken instruction (constantName instruction)
  | numbered {n : Nat} (clash : constantName instruction ∈ taken)
      (least : IsLeast {n | 2 ≤ n ∧ numbered (constantName instruction) n ∉ taken} n) :
      NamedAfter taken instruction (numbered (constantName instruction) n)

/-- The warnings of the constants among some entries that are not those of their own names: each
tells the instruction name and the constant that it got. -/
def renamedWarnings (entries : List (Text × Text)) : List Text :=
  (entries.filter fun entry => entry.1 ≠ constantName entry.2).map fun entry =>
    "Instruction constant for '" ++ entry.2 ++ "' renamed to " ++ entry.1 ++
      " to avoid a name clash"

/-! ### Capitals -/

theorem isCapitalWord_toUpper {t : Text} (h : IsWord t) :
    IsCapitalWord (t.map CodePoint.toUpper) := by
  refine List.forall_mem_map.2 fun c hc => ?_
  have hword := h c hc
  unfold CodePoint.toUpper
  split
  · next hlower =>
    simp only [CodePoint.isLower, Bool.and_eq_true, decide_eq_true_eq] at hlower
    refine .inl ?_
    simp only [CodePoint.isUpper, Bool.and_eq_true, decide_eq_true_eq]
    omega
  · next hlower =>
    simpa [CodePoint.isWord, CodePoint.isLetter, hlower, or_assoc] using hword

theorem constantName_capital (instruction : Text) :
    ∃ tail, constantName instruction = "INSTRUCTION_" ++ tail ∧ IsCapitalWord tail :=
  ⟨_, rfl, isCapitalWord_toUpper (isWord_maskSymbols _)⟩

theorem NamedAfter.capital {taken : List Text} {instruction constant : Text}
    (h : NamedAfter taken instruction constant) :
    ∃ tail, constant = "INSTRUCTION_" ++ tail ∧ IsCapitalWord tail := by
  obtain ⟨tail, htail, hcapital⟩ := constantName_capital instruction
  cases h with
  | own => exact ⟨tail, htail, hcapital⟩
  | @numbered n =>
    refine ⟨tail ++ ("_" ++ Text.ofNat n), by simp [Bindings.numbered, htail], ?_⟩
    have hdigits : IsCapitalWord (Text.ofNat n) := fun c hc =>
      .inr (.inl (Text.isDigit_of_mem_ofNat hc))
    have hunderscore : IsCapitalWord "_" := by
      intro c hc
      obtain rfl := List.mem_singleton.1 hc
      exact .inr (.inr rfl)
    exact List.forall_mem_append.2 ⟨hcapital, List.forall_mem_append.2 ⟨hunderscore, hdigits⟩⟩

theorem IsConstant.isAsciiIdentifier {t : Text} (h : IsConstant t) :
    t.isAsciiIdentifier = true := by
  obtain ⟨tail, rfl, htail⟩ := h
  have hstart : ∀ c ∈ Text.ofString "NSTRUCTION_", c.isWord = true := by decide
  exact List.all_eq_true.2 (List.forall_mem_append.2 ⟨hstart, htail⟩)

/-! ### One constant after the other -/

theorem numbered_ne (base : Text) (n : Nat) : numbered base n ≠ base := by
  unfold numbered
  rw [List.append_assoc, ne_eq, List.append_right_eq_self]
  exact List.cons_ne_nil _ _

namespace Constants

/-- The constants for some instruction names. -/
structure Stable (binding : Text) (names : List Text) (cs : Constants) : Prop where
  order : cs.entries.map Prod.snd = names.eraseDups
  named : ∀ before constant instruction after,
    cs.entries = before ++ (constant, instruction) :: after →
      NamedAfter (binding :: before.map Prod.fst) instruction constant
  warnings : cs.warnings = renamedWarnings cs.entries

section Step

variable {binding instruction constant : Text} {names : List Text} {cs : Constants}

/-- A name that has a constant gets no other one. -/
theorem Stable.repeated (h : Stable binding names cs) (hmem : instruction ∈ names) :
    Stable binding (names ++ [instruction]) cs where
  order := by rw [eraseDups_concat_of_mem hmem, h.order]
  named := h.named
  warnings := h.warnings

/-- A new name gets the constant that is not taken, and a warning if that is not its own. -/
theorem Stable.snoc (h : Stable binding names cs) (hnew : instruction ∉ names)
    (hnamed : NamedAfter (binding :: cs.entries.map Prod.fst) instruction constant) :
    Stable binding (names ++ [instruction])
      ⟨cs.entries ++ [(constant, instruction)],
        cs.warnings ++ renamedWarnings [(constant, instruction)]⟩ where
  order := by
    rw [eraseDups_concat_of_not_mem hnew, List.map_append, h.order]
    rfl
  named := by
    intro before constant' instruction' after heq
    change cs.entries ++ [(constant, instruction)] = _ at heq
    rcases List.eq_nil_or_concat after with rfl | ⟨after', entry, rfl⟩
    · obtain ⟨rfl, hentry⟩ := List.append_inj' heq rfl
      cases hentry
      exact hnamed
    · rw [List.concat_eq_append, ← List.cons_append, ← List.append_assoc] at heq
      exact h.named before constant' instruction' after' (List.append_inj' heq rfl).1
  warnings := by rw [h.warnings, renamedWarnings, renamedWarnings, renamedWarnings,
    List.filter_append, List.map_append]

theorem add_stable (h : Stable binding names cs) (instruction : Text) :
    Stable binding (names ++ [instruction]) (add binding cs instruction) := by
  have hmem : (cs.entries.map Prod.snd).contains instruction = true ↔ instruction ∈ names := by
    rw [h.order, List.contains_iff_mem, List.mem_eraseDups]
  unfold add
  dsimp only
  split
  · next hseen => exact h.repeated (hmem.1 hseen)
  · next hnew =>
    have hnew := fun hin => hnew (hmem.2 hin)
    split
    · next hclash =>
      have hnamed := h.snoc hnew
        (.numbered (List.contains_iff_mem.1 hclash) (freeNumber_isLeast _ _))
      rwa [renamedWarnings, List.filter_cons_of_pos (by simpa using numbered_ne _ _)] at hnamed
    · next hfree =>
      have hnamed := h.snoc hnew (.own fun hin => hfree (List.contains_iff_mem.2 hin))
      rwa [renamedWarnings, List.filter_cons_of_neg (by simp), List.filter_nil, List.map_nil,
        List.append_nil] at hnamed

end Step

theorem ofNames_stable (binding : Text) (names : List Text) :
    Stable binding names (ofNames binding names) := by
  induction names using List.reverseRecOn with
  | nil => exact ⟨rfl, by simp [ofNames], rfl⟩
  | append_singleton names instruction ih =>
    have hstep : ofNames binding (names ++ [instruction]) =
        add binding (ofNames binding names) instruction := by
      rw [ofNames, List.foldl_append]
      rfl
    rw [hstep]
    exact add_stable ih instruction

end Constants
end Bindings

open Bindings
open Script (IsName)

/-- **Each instruction name has one constant,** in the order of the first occurrences.  The
constants are different names of capitals, none of them is the binding, each is the constant of its
own name or else the least free one with a number, and exactly those with a number are warned of. -/
theorem BindingsWriter.next_constants (w : BindingsWriter) :
    w.next.1.constants.map Prod.snd = (w.schema.instructions.map Instruction.name).eraseDups ∧
    (w.binding :: w.next.1.constants.map Prod.fst).Nodup ∧
    (∀ entry ∈ w.next.1.constants, entry.1.isAsciiIdentifier = true ∧ IsName entry.1 ∧
      ∃ tail, entry.1 = "INSTRUCTION_" ++ tail ∧ IsCapitalWord tail) ∧
    (∀ before constant instruction after,
      w.next.1.constants = before ++ (constant, instruction) :: after →
        NamedAfter (w.binding :: before.map Prod.fst) instruction constant) ∧
    ∀ text after, w.write = .ok (text, after) →
      after.warnings = w.warnings ++ renamedWarnings w.next.1.constants := by
  have hsound := Constants.ofNames_sound w.binding (w.schema.instructions.map Instruction.name)
  have hstable := Constants.ofNames_stable w.binding (w.schema.instructions.map Instruction.name)
  refine ⟨hstable.order, hsound.distinct, fun entry hentry => ?_, hstable.named,
    fun text after hwrite => ?_⟩
  · have hconstant := hsound.form entry hentry
    obtain ⟨before, after, hsplit⟩ := List.append_of_mem hentry
    have hnamed := hstable.named before entry.1 entry.2 after hsplit
    exact ⟨hconstant.isAsciiIdentifier, hconstant.isName, hnamed.capital⟩
  · obtain ⟨-, rfl⟩ := write_eq_ok.1 hwrite
    exact congrArg (w.warnings ++ ·) hstable.warnings

/-- A name that looks like one with a number loses its constant to one that got the number. -/
example : (Constants.ofNames "IDL" ["Foo", "foo", "Foo", "foo_2"]).entries =
    ([("INSTRUCTION_FOO", "Foo"), ("INSTRUCTION_FOO_2", "foo"),
      ("INSTRUCTION_FOO_2_2", "foo_2")] : List (Text × Text)) := by
  decide

end AnchorIdl
