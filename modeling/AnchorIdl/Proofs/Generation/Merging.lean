/-
# Merging results

What it means that `r` is `b` added to `a` is said by `Merged a b r`:

| of `r` | |
| --- | --- |
| files, warnings | all those of `a`, then all those of `b` |
| keys of artifacts | those of `a` at their positions, then the new ones of `b` |
| value of an artifact | that of `b`, or that of `a` if `b` has none |

There is exactly one such result, and it is `a.merge b` (`merged_iff`), provided
that the artifacts of both are maps: each key is listed once (`Distinct`).  These
are the results that are built from the empty one (`built_iff`).  So merging is
associative, and the empty result changes nothing on either side.

A program keeps its results in objects and adds one of them to another in place,
list by list.  `mergeInto` is that program: it leaves in the one object what
`merge` yields, and all others as they were, also when an object is added to
itself (`run_mergeInto`).
-/

import AnchorIdl.Generation.Result
import AnchorIdl.Proofs.Ordered
import Mathlib.Data.List.Induction
import Mathlib.Logic.Function.Basic

namespace AnchorIdl
namespace GenerationResult

variable {a b c r : GenerationResult}

/-! ### Results whose artifacts are maps -/

/-- Each artifact of a result is listed once. -/
def Distinct (r : GenerationResult) : Prop := r.artifacts.keys.Nodup

instance (r : GenerationResult) : Decidable r.Distinct :=
  inferInstanceAs (Decidable (List.Nodup _))

theorem distinct_empty : Distinct {} := List.nodup_nil

theorem Distinct.merge (h : a.Distinct) (b : GenerationResult) : (a.merge b).Distinct :=
  Ordered.nodup_keys_merge h b.artifacts

/-- A result that is built from the empty one. -/
inductive Built : GenerationResult → Prop
  | empty : Built {}
  | file {r : GenerationResult} (h : Built r) (file : Path) : Built (r.addFile file)
  | artifact {r : GenerationResult} (h : Built r) (key : Text) (value : Json) :
      Built (r.addArtifact key value)
  | warning {r : GenerationResult} (h : Built r) (warning : Text) : Built (r.addWarning warning)
  | merge {a b : GenerationResult} (ha : Built a) (hb : Built b) : Built (a.merge b)

theorem Built.distinct (h : Built r) : r.Distinct := by
  induction h with
  | empty => exact distinct_empty
  | file _ _ ih => exact ih
  | artifact _ key value ih => exact Ordered.nodup_keys_put ih key value
  | warning _ _ ih => exact ih
  | merge _ _ iha _ => exact iha.merge _

/-- A result is built by recording what is in it: files, then artifacts, then warnings. -/
theorem Distinct.built (h : r.Distinct) : Built r := by
  obtain ⟨files, artifacts, warnings⟩ := r
  induction warnings using List.reverseRecOn with
  | append_singleton warnings warning ih => exact .warning (ih h) warning
  | nil =>
    induction artifacts using List.reverseRecOn with
    | append_singleton artifacts entry ih =>
      obtain ⟨key, value⟩ := entry
      have hkeys : Ordered.keys (artifacts ++ [(key, value)]) =
          (Ordered.keys artifacts).concat key := by
        simp [Ordered.keys]
      rw [Distinct, hkeys, List.nodup_concat] at h
      obtain ⟨hkey, hartifacts⟩ := h
      have hput := Built.artifact (ih hartifacts) key value
      rwa [addArtifact, Ordered.put_of_not_mem hkey] at hput
    | nil =>
      induction files using List.reverseRecOn with
      | append_singleton files file ih => exact .file (ih h) file
      | nil => exact .empty

/-- **The results that are built are those whose artifacts are maps.** -/
theorem built_iff : Built r ↔ r.Distinct := ⟨Built.distinct, Distinct.built⟩

/-! ### Merging -/

/-- `r` is the result `b` added to the result `a`. -/
structure Merged (a b r : GenerationResult) : Prop where
  files : r.files = a.files ++ b.files
  warnings : r.warnings = a.warnings ++ b.warnings
  keys : r.artifacts.keys = a.artifacts.keys ++ b.artifacts.keys.filter (· ∉ a.artifacts.keys)
  value : ∀ key, r.artifacts.get? key = (b.artifacts.get? key).or (a.artifacts.get? key)

theorem merged_merge (a : GenerationResult) (hb : b.Distinct) : Merged a b (a.merge b) where
  files := rfl
  warnings := rfl
  keys := by
    -- The two sides decide in different ways, with one result, whether a key is among others.
    convert Ordered.keys_merge hb a.artifacts
    rfl
  value := Ordered.get?_merge hb a.artifacts

/-- **Adding a result to another yields one result,** and that is what merging yields. -/
theorem merged_iff (ha : a.Distinct) (hb : b.Distinct) : Merged a b r ↔ r = a.merge b := by
  constructor
  · intro h
    have hmerge := merged_merge a hb
    have hkeys : (a.merge b).artifacts.keys = r.artifacts.keys := hmerge.keys.trans h.keys.symm
    have hartifacts : (a.merge b).artifacts = r.artifacts :=
      Ordered.eq_of_keys_of_get? (ha.merge b) hkeys fun key =>
        (hmerge.value key).trans (h.value key).symm
    obtain ⟨files, artifacts, warnings⟩ := r
    obtain rfl := h.files
    obtain rfl := h.warnings
    obtain rfl := hartifacts
    rfl
  · rintro rfl
    exact merged_merge a hb

theorem merge_empty (a : GenerationResult) : a.merge {} = a := by
  obtain ⟨files, artifacts, warnings⟩ := a
  simp [merge, Ordered.merge]

theorem empty_merge (ha : a.Distinct) : merge {} a = a := by
  refine ((merged_iff distinct_empty ha).1 ?_).symm
  exact ⟨rfl, rfl, by simp [Ordered.keys], fun key => (Option.or_none).symm⟩

/-- **Merging is associative.** -/
theorem merge_assoc (a : GenerationResult) (hb : b.Distinct) (c : GenerationResult) :
    (a.merge b).merge c = a.merge (b.merge c) := by
  have hartifacts := Ordered.merge_assoc hb a.artifacts c.artifacts
  simp only [merge, List.append_assoc, hartifacts]

/-! ### Objects -/

/-- Results that are built, each in an object of its own, by the numbers of these. -/
abbrev Objects := Nat → GenerationResult

/-- Add the result in the object `source` to that in the object `target`, one list after the
other. -/
def mergeInto (target source : Nat) : StateM Objects Unit := do
  modify fun objects => Function.update objects target
    { objects target with files := (objects target).files ++ (objects source).files }
  modify fun objects => Function.update objects target
    { objects target with
      artifacts := (objects target).artifacts.merge (objects source).artifacts }
  modify fun objects => Function.update objects target
    { objects target with warnings := (objects target).warnings ++ (objects source).warnings }

/-- **Adding in place is merging,** and changes no other object. -/
theorem run_mergeInto (target source : Nat) (objects : Objects) :
    (mergeInto target source).run objects =
      ((), Function.update objects target ((objects target).merge (objects source))) := by
  by_cases h : source = target
  · subst h
    simp only [mergeInto, merge, StateT.run_bind, StateT.run_modify, pure_bind,
      Function.update_self, Function.update_idem]
    rfl
  · simp only [mergeInto, merge, StateT.run_bind, StateT.run_modify, pure_bind,
      Function.update_self, Function.update_idem, Function.update_of_ne h]
    rfl

end GenerationResult
end AnchorIdl
