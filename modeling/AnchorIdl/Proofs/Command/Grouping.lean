/-
# Runs over groups of targets

A run over targets keeps one result and merges that of each target into it.  As
merging is associative (`GenerationResult.merge_assoc`), it may as well keep one
for each of several groups of targets and merge these in the end, in groups
again if need be.  A `Grouping` is such a way to put brackets around targets.
Whatever it is, the run over it does what the run over its targets does, one
after the other, and combines the same result (`Grouping.run_eq`).

`merge_monoid` is the main statement.  The artifacts of the results in it are
maps; those of every result that is built are.
-/

import AnchorIdl.Command.Generate
import AnchorIdl.Files.System
import AnchorIdl.Proofs.Generation.Merging

namespace AnchorIdl

variable {m : Type → Type} [Monad m] [LawfulMonad m] [FileAccess m]

namespace Command

open GenerationResult

/-! ### Runs over targets -/

theorem generateAll_concat (result : GenerationResult) (targets rest : List Target) :
    (generateAll result (targets ++ rest) : Run m Stop GenerationResult) =
      generateAll result targets >>= fun middle => generateAll middle rest := by
  induction targets generalizing result with
  | nil => simp [generateAll]
  | cons target targets ih => simp [generateAll, ih]

/-- What a run starts with is merged into what it combines without it. -/
theorem generateAll_merge (result : GenerationResult) {start : GenerationResult}
    (hstart : start.Distinct) (targets : List Target) :
    (generateAll (result.merge start) targets : Run m Stop GenerationResult) =
      result.merge <$> generateAll start targets := by
  induction targets generalizing start with
  | nil => simp [generateAll]
  | cons target targets ih =>
    have hstep : ∀ next : GenerationResult,
        (generateAll ((result.merge start).merge next) targets : Run m Stop GenerationResult) =
          result.merge <$> generateAll (start.merge next) targets := by
      intro next
      rw [merge_assoc result hstart next, ih (hstart.merge next)]
    simp [generateAll, hstep]

/-! ### Groups -/

/-- Targets, with brackets around groups of them. -/
inductive Grouping
  | none
  | one (target : Target)
  | both (first second : Grouping)

namespace Grouping

/-- The targets in all groups, in order. -/
def targets : Grouping → List Target
  | none => []
  | one target => [target]
  | both first second => first.targets ++ second.targets

/-- Generate the targets of all groups in order.  Each group has a result of its own, and the
results of two groups are merged when both are generated. -/
def run : Grouping → Run m Stop GenerationResult
  | none => return {}
  | one target => generateAll {} [target]
  | both first second => do
    let a ← first.run
    let b ← second.run
    return a.merge b

/-- **Brackets do not matter to a run.** -/
theorem run_eq (g : Grouping) :
    (g.run : Run m Stop GenerationResult) = generateAll {} g.targets := by
  induction g with
  | none => rfl
  | one target => rfl
  | both first second ihfirst ihsecond =>
    have hsecond : ∀ a : GenerationResult, (second.run >>= fun b => return a.merge b :
        Run m Stop GenerationResult) = generateAll a second.targets := by
      intro a
      rw [bind_pure_comp, ihsecond, ← generateAll_merge a distinct_empty, merge_empty]
    rw [targets, generateAll_concat, ← ihfirst]
    exact bind_congr hsecond

end Grouping

/-! ### The monoid of results -/

/-- **Results are a monoid under merging, in which the last artifact wins.**  Merging is
associative, and the empty result changes nothing on either side.  `Merged a b` says what of two
results is in the merged one, and where; no other result is like that.  Merging in place leaves all
other objects as they were, so also the one that is merged into another.  And a run combines the
same result, whatever brackets are put around its targets. -/
theorem merge_monoid {a b : GenerationResult} (ha : a.Distinct) (hb : b.Distinct) :
    (∀ c, (a.merge b).merge c = a.merge (b.merge c)) ∧
    GenerationResult.merge {} a = a ∧ a.merge {} = a ∧
    (∀ r, Merged a b r ↔ r = a.merge b) ∧ (a.merge b).Distinct ∧
    (∀ (objects : Objects) (target source : Nat),
      ((mergeInto target source).run objects).2 target =
        (objects target).merge (objects source) ∧
      ∀ other ≠ target, ((mergeInto target source).run objects).2 other = objects other) ∧
    ∀ g : Grouping, (g.run : Run m Stop GenerationResult) = generateAll {} g.targets := by
  refine ⟨merge_assoc a hb, empty_merge ha, merge_empty a, fun r => merged_iff ha hb, ha.merge b,
    fun objects target source => ⟨?_, fun other hother => ?_⟩, Grouping.run_eq⟩
  · rw [run_mergeInto]
    exact Function.update_self ..
  · rw [run_mergeInto]
    exact Function.update_of_ne hother ..

/-- A result with two artifacts. -/
def gatewaySample : GenerationResult where
  files := [⟨0, ["gateway.py"]⟩]
  artifacts := [("binding", .str "GATEWAY"), ("instructions", .ofTexts ["deposit"])]
  warnings := ["renamed"]

/-- A result with two artifacts, one of them under a key of `gatewaySample`. -/
def vaultSample : GenerationResult where
  files := [⟨0, ["vault.py"]⟩]
  artifacts := [("accounts", .int 2), ("binding", .str "VAULT")]

theorem vaultSample_merge_monoid :
    gatewaySample.Distinct ∧ vaultSample.Distinct ∧
    Merged gatewaySample vaultSample {
      files := [⟨0, ["gateway.py"]⟩, ⟨0, ["vault.py"]⟩]
      artifacts := [("binding", .str "VAULT"), ("instructions", .ofTexts ["deposit"]),
        ("accounts", .int 2)]
      warnings := ["renamed"] } ∧
    (gatewaySample.merge vaultSample).merge gatewaySample =
      gatewaySample.merge (vaultSample.merge gatewaySample) ∧
    ∀ t u : Target, (Grouping.both (.one t) (.both (.one u) (.one t))).run =
      (generateAll {} [t, u, t] : Run (StateM FileSystem) Stop GenerationResult) := by
  have hgateway : gatewaySample.Distinct := by decide
  have hvault : vaultSample.Distinct := by decide
  obtain ⟨hassoc, -, -, hmerged, -, -, hrun⟩ :=
    merge_monoid (m := StateM FileSystem) hgateway hvault
  exact ⟨hgateway, hvault, (hmerged _).2 (by decide), hassoc _, fun t u => hrun _⟩

end Command
end AnchorIdl
