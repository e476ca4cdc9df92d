/-
# What a run leaves bound

A run binds the imported classes and then one name after the other.  Executing
some assignments and then others is executing all of them (`execute_append`),
and a run whose names are distinct only ever adds bindings, so every name still
holds at the end what its own assignment gave it (`run_keeps`).
-/

import AnchorIdl.Proofs.Ordered
import AnchorIdl.Proofs.Script.Evaluation

namespace AnchorIdl
namespace Script

open Bindings (Constructor)

/-! ### Imports -/

theorem class?_name (c : Constructor) : class? c.name = some c := by
  cases c <;> rfl

theorem constructor_name_injective : Function.Injective Constructor.name := by
  intro c d h
  have hc := class?_name c
  rw [h, class?_name] at hc
  exact (Option.some.inj hc).symm

/-- The bindings of imported classes. -/
def imported (classes : List Constructor) : Env :=
  (classes.map fun c => (c.name, .class c)).reverse

theorem imported_cons_append (c : Constructor) (classes : List Constructor) (env : Env) :
    imported (c :: classes) ++ env = imported classes ++ (c.name, .class c) :: env := by
  simp [imported]

theorem importClasses_names (classes : List Constructor) (env : Env) :
    importClasses (classes.map Constructor.name) env = some (imported classes ++ env) := by
  unfold importClasses
  induction classes generalizing env with
  | nil => rfl
  | cons c classes ih =>
    rw [imported_cons_append, List.map_cons, List.foldlM_cons, class?_name]
    exact ih _

theorem get?_imported {classes : List Constructor} {c : Constructor} (h : c ∈ classes) (env : Env) :
    Ordered.get? (imported classes ++ env) c.name = some (.class c) := by
  have hkeep : ∀ (classes : List Constructor) (env : Env), env.get? c.name = some (.class c) →
      Ordered.get? (imported classes ++ env) c.name = some (.class c) := by
    intro classes
    induction classes with
    | nil => exact fun env henv => henv
    | cons d classes ih =>
      intro env henv
      rw [imported_cons_append]
      refine ih _ ?_
      rw [Ordered.get?_cons]
      split
      · next hname => rw [constructor_name_injective hname]
      · exact henv
  induction classes generalizing env with
  | nil => simp at h
  | cons d classes ih =>
    rw [imported_cons_append]
    rcases List.mem_cons.1 h with rfl | h
    · exact hkeep _ _ (by rw [Ordered.get?_cons, if_pos rfl])
    · exact ih h _

theorem get?_imported_of_ne {key : Text} (h : ∀ c : Constructor, c.name ≠ key)
    (classes : List Constructor) (env : Env) :
    Ordered.get? (imported classes ++ env) key = env.get? key := by
  refine Ordered.get?_append_of_not_mem (fun hmem => ?_) env
  obtain ⟨entry, hentry, rfl⟩ := List.mem_map.1 hmem
  obtain ⟨c, -, rfl⟩ := List.mem_map.1 (List.mem_reverse.1 hentry)
  exact h c rfl

/-! ### Assignments -/

theorem execute_append (start rest : List (Text × Term)) (env : Env) :
    execute (start ++ rest) env = (execute start env).bind (execute rest) := by
  induction start generalizing env with
  | nil => rfl
  | cons assignment start ih =>
    obtain ⟨name, t⟩ := assignment
    simp only [List.cons_append, execute]
    cases t.eval env with
    | none => rfl
    | some v => exact ih _

theorem execute_eq_append {assignments : List (Text × Term)} {env final : Env}
    (h : execute assignments env = some final) :
    ∃ added : Env, final = added ++ env ∧
      added.map Prod.fst = (assignments.map Prod.fst).reverse := by
  induction assignments generalizing env with
  | nil => exact ⟨[], (Option.some.inj h).symm, rfl⟩
  | cons assignment rest ih =>
    obtain ⟨name, t⟩ := assignment
    rw [execute] at h
    split at h
    · next v _ =>
      obtain ⟨added, rfl, hadded⟩ := ih h
      exact ⟨added ++ [(name, v)], by simp, by simp [hadded]⟩
    · simp at h

/-- Every name holds, in the end, the value that its assignment gave it. -/
def Keeps (m : Script) (final : Env) : Prop :=
  ∀ start name t rest, m.assignments = start ++ (name, t) :: rest →
    ∃ env v, (importClasses m.imports builtins).bind (execute start) = some env ∧
      t.eval env = some v ∧ final.get? name = some v

/-- **A run keeps what it assigns** if no name is assigned to twice. -/
theorem run_keeps {m : Script} {final : Env} (h : m.run = some final) (distinct : m.targets.Nodup) :
    m.Keeps final := by
  intro start name t rest hassignments
  rw [targets, hassignments, List.map_append, List.map_cons] at distinct
  obtain ⟨classes, hclasses, hrun⟩ := Option.bind_eq_some_iff.1 h
  rw [hassignments, execute_append, Option.bind_eq_some_iff] at hrun
  obtain ⟨env, hstart, hrun⟩ := hrun
  rw [execute] at hrun
  split at hrun
  · next v hv =>
    -- Only later assignments could hide the name, and they are to other names.
    obtain ⟨added, rfl, hadded⟩ := execute_eq_append hrun
    refine ⟨env, v, by rw [hclasses]; exact hstart, hv, ?_⟩
    have hlater : name ∉ added.map Prod.fst := by
      rw [hadded, List.mem_reverse]
      exact (List.nodup_cons.1 (List.nodup_append.1 distinct).2.1).1
    rw [Ordered.get?_append_of_not_mem hlater, Ordered.get?_cons, if_pos rfl]
  · simp at hrun

end Script
end AnchorIdl
