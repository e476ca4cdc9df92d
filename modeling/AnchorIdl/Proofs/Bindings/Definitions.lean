/-
# Custom types on lines and on one line

The type of a custom type is written by a function of its own if it is a struct or
an enum.  That function lays the fields or the variants out on lines, where
`lowerType` puts all on one, and it counts the brackets around them by itself.  The
two counts are the same: where the type of a custom type begins, three brackets are
open, and around its fields or variants two more.

So the two ways hoist the same type expressions, in the same order and under the
same names, and record the same calls, from any draft on.  What they write has one
term, and so one text without layout (`lowerTypeDefinition_agrees`).
-/

import AnchorIdl.Proofs.Bindings.Hoisting
import AnchorIdl.Proofs.Bindings.Layout

namespace AnchorIdl
namespace Bindings

open Script

/-- Two expressions that differ in nothing but layout. -/
structure SameCode (e f : Expr) : Prop where
  term : e.term = f.term
  callees : e.callees = f.callees

/-- Code that can be read is left as the same text by squeezing, whatever the layouts are. -/
theorem SameCode.squeeze_render {allowed : Int → Prop} {n : Nat} {e f : Expr} (h : SameCode e f)
    (he : Legible allowed n e) (hf : Legible allowed n f) (level level' : Nat) :
    squeeze (e.render level) = squeeze (f.render level') := by
  rw [he.squeeze_render level, hf.squeeze_render level', h.term]

variable (binding : Text)

/-- Both ways to write the type of a custom type write the same code and leave the same draft. -/
theorem run_lowerDefinition (t : TypeExpr) (draft : Draft) :
    let spread := (lowerDefinition binding t).run draft
    let line := (place binding 3 (lowerType binding t)).run draft
    SameCode spread.1 line.1 ∧ spread.2 = line.2 := by
  have hline : place binding 3 (lowerType binding t) = lowerType binding t 3 :=
    if_pos (by decide)
  cases t with
  | struct fields =>
    rw [hline, lowerType]
    exact ⟨⟨rfl, rfl⟩, rfl⟩
  | enum variants =>
    rw [hline, lowerType]
    exact ⟨⟨rfl, rfl⟩, rfl⟩
  | primitive _ | array _ _ | container _ _ | defined _ _ =>
    exact ⟨⟨rfl, rfl⟩, rfl⟩

/-- **A custom type is written as if its type stood on one line.**  From any draft on, both ways to
write the type leave the same draft: they add the same helpers, under the names for their numbers,
and record the same calls.  Without layout, at whatever levels, both texts are the same. -/
theorem lowerTypeDefinition_agrees (d : TypeDefinition) (draft : Draft) :
    ∃ (spread line : Expr) (after : Draft) (new : List Helper),
      (lowerTypeDefinition binding d).run draft =
        (.spread .typeDefinition
          (("name", .text d.name) :: ("type", spread) :: docsArgument d.docs),
          after.use .typeDefinition) ∧
      (place binding 3 (lowerType binding d.type)).run draft = (line, after) ∧
      (∀ level level', squeeze (spread.render level) = squeeze (line.render level')) ∧
      after.helpers = draft.helpers ++ new ∧
      (∀ k helper, new[k]? = some helper →
        helper.1 = helperName binding (draft.helpers.length + k)) ∧
      spread.callees = line.callees ∧
      ∀ c, c ∈ after.used ↔ c ∈ draft.used ∨ c ∈ line.callees ∨ c ∈ helperCallees new := by
  obtain ⟨hcode, hdraft⟩ := run_lowerDefinition binding d.type draft
  obtain ⟨hline, hhoists⟩ := writes_type binding d.type 3 draft
  have hspread : FitsIn 3 ((lowerDefinition binding d.type).run draft).1 := by
    rw [lowerDefinition_eq]
    exact ((placed_definition d.type).writes_types binding draft).1
  obtain ⟨new, hnew, hused⟩ := hhoists.mem_used
  have hafter : ((writeType binding d.type 3).run draft).2 =
      ((lowerDefinition binding d.type).run draft).2 := hdraft.symm
  rw [hafter] at hnew hused
  refine ⟨((lowerDefinition binding d.type).run draft).1, _, _, new, rfl, Prod.ext rfl hafter, ?_,
    hnew, ?_, hcode.callees, hused⟩
  · -- Three brackets are open where the type begins, whichever way it is written.
    exact hcode.squeeze_render (hspread (maxDepth - 3) (by decide))
      (hline (maxDepth - 3) (by decide))
  · intro k helper hk
    refine (hhoists.entry (Nat.le_add_right _ k) ?_).1
    rw [hafter, hnew, List.getElem?_append_right (Nat.le_add_right ..), Nat.add_sub_cancel_left, hk]

end Bindings
end AnchorIdl
