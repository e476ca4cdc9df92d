/-
# Running an emitted module

`Emitted allowed types S m` says what the library makes of a canonical schema
`S`: helpers that denote `types`, an expression that denotes the schema, and
constants with names of their own.  Such a module can be read
(`Emitted.readable`), and running it binds, in order,

1. the imported classes,
2. each helper to its type,
3. the binding to the schema,
4. each constant to the name of its instruction,
5. `__all__` to the list of the exported names

(`Emitted.run`).  No two of these names are the same, unless the binding is
`__all__` (`Emitted.nodup_targets_iff`); then the list takes the place of the
schema.
-/

import AnchorIdl.Proofs.Bindings.Hoisting
import AnchorIdl.Proofs.Bindings.Schema
import AnchorIdl.Proofs.Bindings.Source
import Mathlib.Data.List.Induction

namespace AnchorIdl
namespace Bindings

open Script

variable {binding : Text} {allowed : Int → Prop} {types : List TypeExpr} {env : Env}

/-! ### Helpers -/

/-- The bindings of the helpers for some types, the latest first. -/
def helperEnv (binding : Text) (types : List TypeExpr) : Env :=
  (types.mapIdx fun k t => (helperName binding k, typeValue t)).reverse

theorem helperEnv_snoc (t : TypeExpr) :
    helperEnv binding (types ++ [t]) =
      (helperName binding types.length, typeValue t) :: helperEnv binding types := by
  simp [helperEnv, List.mapIdx_append]

theorem keys_helperEnv (binding : Text) (types : List TypeExpr) :
    (helperEnv binding types).map Prod.fst =
      ((List.range types.length).map (helperName binding)).reverse := by
  induction types using List.reverseRecOn with
  | nil => rfl
  | append_singleton types t ih => simp [helperEnv_snoc, ih, List.range_succ]

theorem get?_helperEnv {k : Nat} {t : TypeExpr} (h : types[k]? = some t) (env : Env) :
    Ordered.get? (helperEnv binding types ++ env) (helperName binding k) = some (typeValue t) := by
  have hdistinct : ((helperEnv binding types).map Prod.fst).Nodup := by
    rw [keys_helperEnv, List.nodup_reverse]
    exact List.nodup_range.map (helperName_injective binding)
  have hmem : (helperName binding k, typeValue t) ∈ helperEnv binding types := by
    obtain ⟨hk, rfl⟩ := List.getElem?_eq_some_iff.1 h
    exact List.mem_reverse.2 (List.mem_mapIdx.2 ⟨k, hk, rfl⟩)
  rw [Ordered.get?_append, Ordered.get?_of_mem hdistinct hmem, Option.some_or]

theorem get?_helperEnv_of_ne {key : Text} (h : ∀ k, helperName binding k ≠ key)
    (types : List TypeExpr) (env : Env) :
    Ordered.get? (helperEnv binding types ++ env) key = env.get? key := by
  refine Ordered.get?_append_of_not_mem (fun hmem => ?_) env
  rw [keys_helperEnv, List.mem_reverse] at hmem
  obtain ⟨k, -, hk⟩ := List.mem_map.1 hmem
  exact h k hk

theorem knows_helperEnv (hbytes : env.get? "bytes" = some .bytesType) :
    Knows binding types (helperEnv binding types ++ env) where
  bytes := by rw [get?_helperEnv_of_ne (helperName_ne (by decide)), hbytes]
  helpers _ _ h := get?_helperEnv h env

theorem Imported.helperEnv {e : Expr} (h : Imported env e) :
    Imported (helperEnv binding types ++ env) e := by
  intro c hc
  have hname : ¬ Text.ofString "_type_" <+: c.name := by
    cases c <;> decide
  rw [get?_helperEnv_of_ne (helperName_ne hname), h c hc]

theorem Helpers.names_eq {helpers : List Helper} (h : Helpers binding allowed helpers types) :
    helpers.map Prod.fst = (List.range types.length).map (helperName binding) := by
  induction h with
  | nil => rfl
  | snoc start _ ih => simp [List.range_succ, ih, start.length_eq]

theorem Helpers.legible {helpers : List Helper} (h : Helpers binding allowed helpers types) :
    ∀ a ∈ helpers, Legible allowed maxBrackets a.2 := by
  induction h with
  | nil => simp
  | snoc _ last ih =>
    exact List.forall_mem_append.2 ⟨ih, by simpa using last.legible maxBrackets (by decide)⟩

/-- Executing the helpers binds each to its type. -/
theorem Helpers.execute {helpers : List Helper} (h : Helpers binding allowed helpers types)
    (hbytes : env.get? "bytes" = some .bytesType)
    (himported : ∀ a ∈ helpers, Imported env a.2) :
    Script.execute (helpers.map fun a => (a.1, a.2.term)) env =
      some (helperEnv binding types ++ env) := by
  induction h with
  | nil => rfl
  | @snoc helpers types e t start last ih =>
    rw [List.forall_mem_append, List.forall_mem_singleton] at himported
    -- The last helper is evaluated where exactly the helpers before it are bound.
    have hlast := last.eval _ (knows_helperEnv hbytes) himported.2.helperEnv
    rw [List.map_append, execute_append, ih himported.1, helperEnv_snoc, start.length_eq]
    simp [Script.execute, hlast]

end Bindings

namespace BindingsModule

open Bindings Script

/-- What the library makes of a schema: a module that holds the schema and the constants of its
instructions, after helpers for some types. -/
structure Emitted (allowed : Int → Prop) (types : List TypeExpr) (S : Schema)
    (m : BindingsModule) : Prop where
  title : ∀ c ∈ m.name, c ≠ '"' ∧ c ≠ '\\'
  binding : IsName m.binding
  helpers : Helpers m.binding allowed m.helpers types
  schema : Denotes m.binding allowed types 0 m.schema (.model (.schema S))
  calls : .schema ∈ m.schema.callees
  used : ∀ c, c ∈ m.draft.used ↔ c ∈ m.schema.callees ∨ c ∈ helperCallees m.helpers
  constants : Constants.Sound m.binding m.constants

variable {allowed : Int → Prop} {types : List TypeExpr} {S : Schema} {m : BindingsModule}

theorem mem_imports {c : Constructor} : c ∈ m.imports ↔ c ∈ m.draft.used := List.mem_mergeSort

theorem Emitted.mem_imports (h : m.Emitted allowed types S) {c : Constructor} :
    c ∈ m.imports ↔ c ∈ m.schema.callees ∨ c ∈ helperCallees m.helpers :=
  BindingsModule.mem_imports.trans (h.used c)

/-! ### Names -/

theorem Emitted.targets_eq (h : m.Emitted allowed types S) :
    m.script.targets = (List.range types.length).map (helperName m.binding) ++
      (m.exports ++ [Text.ofString "__all__"]) := by
  simp [script, Script.targets, assignments, h.helpers.names_eq, exportList, exports,
    Function.comp_def]

theorem Emitted.isName_targets (h : m.Emitted allowed types S) :
    ∀ t ∈ m.script.targets, IsName t := by
  rw [h.targets_eq, exports]
  simp only [List.forall_mem_append, List.forall_mem_cons, List.forall_mem_map]
  refine ⟨fun k _ => isName_helperName _ k, ⟨h.binding, fun c hc => ?_⟩, by decide⟩
  exact (h.constants.form c hc).isName

theorem Emitted.constants_ne_all (h : m.Emitted allowed types S) :
    ∀ c ∈ m.constants.map Prod.fst, c ≠ "__all__" := by
  refine List.forall_mem_map.2 fun c hc => ?_
  exact (h.constants.form c hc).ne (by decide)

theorem Emitted.helper_ne_constants (h : m.Emitted allowed types S) (k : Nat) :
    ∀ c ∈ m.constants.map Prod.fst, helperName m.binding k ≠ c := by
  refine List.forall_mem_map.2 fun c hc => ?_
  exact ((h.constants.form c hc).ne (by rw [head?_helperName]; decide)).symm

/-- The names of a module are distinct, unless the schema is bound to `__all__`. -/
theorem Emitted.nodup_targets_iff (h : m.Emitted allowed types S) :
    m.script.targets.Nodup ↔ m.binding ≠ "__all__" := by
  rw [h.targets_eq]
  constructor
  · intro hnodup hbinding
    have hexports := (List.nodup_append.1 hnodup).2.1
    exact (List.nodup_append.1 hexports).2.2 m.binding (List.mem_cons_self ..) "__all__"
      (List.mem_singleton_self _) hbinding
  · intro hbinding
    have hhelpers : ((List.range types.length).map (helperName m.binding)).Nodup :=
      List.nodup_range.map (helperName_injective m.binding)
    have hall : ∀ t ∈ m.exports, ∀ u ∈ [Text.ofString "__all__"], t ≠ u := by
      simpa [exports] using ⟨hbinding, by simpa using h.constants_ne_all⟩
    have hapart (k : Nat) :
        ∀ t ∈ m.exports ++ [Text.ofString "__all__"], helperName m.binding k ≠ t := by
      simp only [exports, List.forall_mem_append, List.forall_mem_cons]
      exact ⟨⟨helperName_ne_binding _ k, h.helper_ne_constants k⟩, helperName_ne (by decide) k,
        by simp⟩
    refine List.nodup_append.2 ⟨hhelpers, List.nodup_append.2
      ⟨h.constants.distinct, List.nodup_singleton _, hall⟩, ?_⟩
    exact List.forall_mem_map.2 fun k _ => hapart k

theorem isAssignable_iff {t : Text} : isAssignable t = true ↔ IsName t ∧ t ≠ "__debug__" := by
  simp [isAssignable, IsName]

/-- Python lets a module assign to all its names, unless the schema is bound to `__debug__`. -/
theorem Emitted.assignable_iff (h : m.Emitted allowed types S) :
    (∀ t ∈ m.script.targets, isAssignable t = true) ↔ m.binding ≠ "__debug__" := by
  constructor
  · intro hall
    have hmem : m.binding ∈ m.script.targets := by
      simp [h.targets_eq, exports]
    exact (isAssignable_iff.1 (hall _ hmem)).2
  · intro hbinding t ht
    refine isAssignable_iff.2 ⟨h.isName_targets t ht, ?_⟩
    revert t
    simp only [h.targets_eq, exports, List.forall_mem_append, List.forall_mem_cons,
      List.forall_mem_map]
    refine ⟨fun k _ => helperName_ne (by decide) k, ⟨hbinding, fun c hc => ?_⟩, by decide, by simp⟩
    exact (h.constants.form c hc).ne (by decide)

/-! ### Reading -/

/-- **An emitted module can be read.** -/
theorem Emitted.readable (h : m.Emitted allowed types S) : m.Readable allowed where
  title := h.title
  imports := by
    have hmem : Constructor.schema ∈ m.imports := h.mem_imports.2 (.inl h.calls)
    exact List.ne_nil_of_mem hmem
  targets a ha := h.isName_targets a.1 (by
    simpa [script, Script.targets] using List.mem_map_of_mem (f := Prod.fst) ha)
  legible := by
    simp only [assignments, List.forall_mem_append, List.forall_mem_map, List.forall_mem_singleton]
    refine ⟨⟨⟨h.helpers.legible, h.schema.legible _ (by decide)⟩, fun _ _ => .text _ _⟩, ?_⟩
    exact .list .block (List.forall_mem_map.2 fun _ _ => .text _ _)

/-- An emitted module with short integers compiles, unless the schema is bound to `__debug__`. -/
theorem Emitted.compiles (h : m.Emitted (fun n => isShort n = true) types S)
    (hbinding : m.binding ≠ "__debug__") : m.script.compiles = true := by
  have hassignable := h.assignable_iff.2 hbinding
  simp only [Script.targets, script, List.map_map, List.forall_mem_map, Function.comp_def]
    at hassignable
  simp only [Script.compiles, script, List.all_map, List.all_eq_true, Function.comp_def,
    Bool.and_eq_true]
  exact fun a ha => ⟨hassignable a ha, (h.readable.legible a ha).compiles⟩

/-! ### Running -/

/-- The bindings of some constants, the latest first. -/
def constantEnv (constants : List (Text × Text)) : Env :=
  (constants.map fun c => (c.1, .text c.2)).reverse

theorem execute_constants (constants : List (Text × Text)) (env : Env) :
    execute (constants.map fun c => (c.1, .text c.2)) env =
      some (constantEnv constants ++ env) := by
  induction constants generalizing env with
  | nil => rfl
  | cons c constants ih =>
    rw [List.map_cons, execute]
    simp [Term.eval, ih, constantEnv]

/-- What is bound after a module has run, the latest first. -/
def finalEnv (m : BindingsModule) (types : List TypeExpr) (S : Schema) : Env :=
  ("__all__", .list (m.exports.map .text)) :: (constantEnv m.constants ++
    (m.binding, .model (.schema S)) :: (helperEnv m.binding types ++
      (imported m.imports ++ builtins)))

theorem imported_imports {e : Expr} (h : ∀ c ∈ e.callees, c ∈ m.imports) :
    Imported (imported m.imports ++ builtins) e :=
  fun c hc => get?_imported (h c hc) builtins

/-- **An emitted module runs to its end,** and this is what it leaves bound. -/
theorem Emitted.run (h : m.Emitted allowed types S) : m.script.run = some (m.finalEnv types S) := by
  have hbytes : Ordered.get? (imported m.imports ++ builtins) "bytes" = some .bytesType := by
    rw [get?_imported_of_ne]
    · rfl
    · intro c
      cases c <;> decide
  have hhelpers := h.helpers.execute hbytes fun a ha =>
    imported_imports fun c hc =>
      h.mem_imports.2 (.inr (List.mem_flatMap.2 ⟨a, ha, hc⟩))
  have hschema := h.schema.eval _ (knows_helperEnv hbytes)
    (imported_imports fun c hc => h.mem_imports.2 (.inl hc)).helperEnv
  have hexports (env : Env) :
      m.exportList.2.term.eval env = some (.list (m.exports.map .text)) := by
    have hitems : evalItems env (m.exports.map Term.text) = some (m.exports.map .text) :=
      evalItems_map fun _ _ => rfl
    simp [exportList, Expr.term, Term.eval, itemTerms_eq_map, Function.comp_def, hitems]
  unfold Script.run script assignments
  rw [importClasses_names, Option.bind_some, List.map_append, List.map_append, List.map_append,
    execute_append, execute_append, execute_append, hhelpers, List.map_map]
  have hconstants := execute_constants m.constants
  simp only [Option.bind_some, List.map_cons, List.map_nil, execute, hschema, Function.comp_def,
    Expr.term, hconstants, hexports]
  rfl

/-! ### What is bound in the end -/

theorem get?_all (m : BindingsModule) (types : List TypeExpr) (S : Schema) :
    Ordered.get? (m.finalEnv types S) "__all__" = some (.list (m.exports.map .text)) := by
  rw [finalEnv, Ordered.get?_cons, if_pos rfl]

theorem Emitted.get?_binding (h : m.Emitted allowed types S) (hbinding : m.binding ≠ "__all__") :
    Ordered.get? (m.finalEnv types S) m.binding = some (.model (.schema S)) := by
  have hfresh : m.binding ∉ (constantEnv m.constants).map Prod.fst := by
    simpa [constantEnv, Function.comp_def] using (List.nodup_cons.1 h.constants.distinct).1
  rw [finalEnv, Ordered.get?_cons, if_neg hbinding, Ordered.get?_append_of_not_mem hfresh,
    Ordered.get?_cons, if_pos rfl]

theorem Emitted.get?_constant (h : m.Emitted allowed types S) {constant instruction : Text}
    (hmem : (constant, instruction) ∈ m.constants) :
    Ordered.get? (m.finalEnv types S) constant = some (.text instruction) := by
  have hdistinct : ((constantEnv m.constants).map Prod.fst).Nodup := by
    simpa [constantEnv, Function.comp_def] using (List.nodup_cons.1 h.constants.distinct).2
  have hentry : (constant, Value.text instruction) ∈ constantEnv m.constants := by
    simpa [constantEnv] using hmem
  rw [finalEnv, Ordered.get?_cons, if_neg (h.constants_ne_all _ (List.mem_map_of_mem hmem)),
    Ordered.get?_append, Ordered.get?_of_mem hdistinct hentry, Option.some_or]

theorem Emitted.get?_helper (h : m.Emitted allowed types S) {k : Nat} {t : TypeExpr}
    (ht : types[k]? = some t) :
    Ordered.get? (m.finalEnv types S) (helperName m.binding k) = some (typeValue t) := by
  have hfresh : helperName m.binding k ∉ (constantEnv m.constants).map Prod.fst := by
    intro hmem
    simp only [constantEnv, List.map_reverse, List.mem_reverse, List.map_map] at hmem
    exact h.helper_ne_constants k _ hmem rfl
  rw [finalEnv, Ordered.get?_cons, if_neg (helperName_ne (by decide) k),
    Ordered.get?_append_of_not_mem hfresh, Ordered.get?_cons, if_neg (helperName_ne_binding _ k),
    get?_helperEnv ht]

end BindingsModule
end AnchorIdl
