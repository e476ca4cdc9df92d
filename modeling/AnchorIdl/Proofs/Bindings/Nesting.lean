/-
# Nesting and helpers of an emitted module

An emitted module never has more than 105 brackets open, which is far from the
two hundred that Python allows, and it is in order: what it refers to is bound
before.  `WellNested` says all of it of a module:

| | |
| --- | --- |
| `bounded`, `closed` | brackets, counted from the text alone |
| `schema`, `types`, `depth` | each type expression is written where it is told |
| `reads`, `targets`, `named` | the statements, and what they assign to |
| `earlier` | names are bound before they are referred to |
| `once` | each helper is referred to exactly once |
| `unneeded` | helpers are only made where brackets nest too deep |

`Calls` lists all calls of `writeType` in the course of an emission, each with
the brackets around the place where its result goes: a hole of a sketch adds the
brackets of the sketch, and a helper begins anew.

The main statement is `emit_wellNested`.  It holds for every schema, whatever its
types are and wherever it comes from.
-/

import AnchorIdl.Proofs.Bindings.Hoisting
import AnchorIdl.Proofs.Bindings.RoundTrip

namespace AnchorIdl

/-! ### Names in a script -/

namespace Script

mutual

/-- The names that a term refers to, those that it calls included. -/
def Term.names : Term → List Text
  | .name n => [n]
  | .list items => Term.itemNames items
  | .call callee arguments => callee :: Term.argumentNames arguments
  | _ => []

/-- The names that some items refer to. -/
def Term.itemNames : List Term → List Text
  | [] => []
  | t :: rest => t.names ++ Term.itemNames rest

/-- The names that some arguments refer to. -/
def Term.argumentNames : List (Option Text × Term) → List Text
  | [] => []
  | (_, t) :: rest => t.names ++ Term.argumentNames rest

end

/-- The names that a script refers to. -/
def names (script : Script) : List Text := script.assignments.flatMap fun a => a.2.names

end Script

namespace Bindings

open Script

section Names

variable {x : Text}

theorem itemNames_bytes (b : Bytes) :
    Term.itemNames (b.map fun b => .int b.toNat) = [] := by
  induction b with
  | nil => rfl
  | cons b rest ih => exact ih

mutual

/-- Apart from the names of classes, and of `bytes`, a term refers to what its expression does. -/
theorem count_names_term (hclass : ∀ c : Constructor, c.name ≠ x) (hbytes : "bytes" ≠ x) :
    ∀ e : Expr, e.term.names.count x = e.names.count x
  | .text _ | .int _ | .bool _ | .none | .name _ => rfl
  | .bytes b => by
    simp [Expr.term, Term.names, Term.argumentNames, itemNames_bytes, Expr.names, hbytes]
  | .list _ items => count_itemNames_term hclass hbytes items
  | .call _ callee arguments => by
    rw [Expr.term, Term.names, List.count_cons_of_ne (hclass callee), Expr.names,
      count_argumentNames_term hclass hbytes arguments]

theorem count_itemNames_term (hclass : ∀ c : Constructor, c.name ≠ x) (hbytes : "bytes" ≠ x) :
    ∀ items : List Expr,
      (Term.itemNames (itemTerms items)).count x = (Bindings.itemNames items).count x
  | [] => rfl
  | e :: rest => by
    rw [itemTerms, Term.itemNames, Bindings.itemNames, List.count_append, List.count_append,
      count_names_term hclass hbytes e, count_itemNames_term hclass hbytes rest]

theorem count_argumentNames_term (hclass : ∀ c : Constructor, c.name ≠ x) (hbytes : "bytes" ≠ x) :
    ∀ arguments : List (Text × Expr),
      (Term.argumentNames (argumentTerms arguments)).count x =
        (Bindings.argumentNames arguments).count x
  | [] => rfl
  | (_, e) :: rest => by
    rw [argumentTerms, Term.argumentNames, Bindings.argumentNames, List.count_append,
      List.count_append, count_names_term hclass hbytes e,
      count_argumentNames_term hclass hbytes rest]

end

/-- A term refers to a helper as often as its expression does. -/
theorem count_helperName (binding : Text) (k : Nat) (e : Expr) :
    e.term.names.count (helperName binding k) = e.names.count (helperName binding k) := by
  refine count_names_term (fun c => ?_) ?_ e
  · have hname : ¬ Text.ofString "_type_" <+: c.name := by
      cases c <;> decide
    exact (helperName_ne hname k).symm
  · exact (helperName_ne (by decide) k).symm

theorem mem_names_term {binding : Text} {k : Nat} {e : Expr}
    (h : helperName binding k ∈ e.term.names) : helperName binding k ∈ e.names := by
  rw [← List.count_pos_iff] at h ⊢
  rwa [count_helperName] at h

end Names

/-! ### Calls -/

section Calls

variable {binding : Text} {S : Schema} {k : Nat} {t : TypeExpr} {depth : Nat} {draft : Draft}

/-- While a schema is lowered, a type expression is written, with the draft so far, where it is told
that `depth` brackets are open and `k` brackets are around its result. -/
inductive Calls (binding : Text) (S : Schema) : Nat → TypeExpr → Nat → Draft → Prop
  | schema {k : Nat} {t : TypeExpr} {depth : Nat} {draft : Draft}
      (visit : (schemaSketch S).Visits (writeType binding) {} k t depth draft) :
      Calls binding S k t depth draft
  | part {j k : Nat} {t u : TypeExpr} {depth depth' : Nat} {draft draft' : Draft}
      (call : Calls binding S j t depth draft) (hd : depth < maxNesting)
      (visit : (typeSketch depth t).Visits (writeType binding) draft k u depth' draft') :
      Calls binding S (j + k) u depth' draft'
  | hoisted {j : Nat} {t : TypeExpr} {depth : Nat} {draft : Draft}
      (call : Calls binding S j t depth draft) (hd : maxNesting ≤ depth) :
      Calls binding S 0 t 0 draft

/-- What a call writes stands inside `k` brackets of the schema or of a helper, and this is what it
is told; its helpers are kept. -/
structure Standing (binding : Text) (S : Schema) (k : Nat) (t : TypeExpr) (depth : Nat)
    (draft : Draft) : Prop where
  depth_eq : depth = k
  inside : ∃ e ∈ (lowered binding S).1 :: (lowered binding S).2.helpers.map Prod.snd,
    Inside k e ((writeType binding t depth).run draft).1
  kept : ((writeType binding t depth).run draft).2.helpers <+: (lowered binding S).2.helpers

/-- **Every call is told how many brackets are open where its result goes.** -/
theorem Calls.standing (h : Calls binding S k t depth draft) :
    Standing binding S k t depth draft := by
  induction h with
  | schema visit =>
    obtain ⟨depth_eq, inside, -, later⟩ := visit.turn (placed_schema S)
    rw [← lowerSchema_eq] at inside later
    exact ⟨by omega, ⟨_, List.mem_cons_self .., inside⟩, later⟩
  | @part j k t u depth depth' draft draft' _ hd visit ih =>
    obtain ⟨depth_eq, inside, -, later⟩ := visit.turn (placed_type hd t)
    obtain ⟨rfl, ⟨e, he, houter⟩, kept⟩ := ih
    rw [← writeType_of_lt binding t hd] at inside later
    exact ⟨by omega, ⟨e, he, houter.trans inside⟩, later.trans kept⟩
  | @hoisted j t depth draft _ hd ih =>
    have kept := ih.kept
    rw [run_writeType_of_le binding t hd, Draft.helpers_addHelper] at kept
    -- The result of this call is all of the helper that is made of it.
    have hmem := kept.subset (List.mem_append_right _ (List.mem_singleton_self _))
    exact ⟨rfl, ⟨_, List.mem_cons_of_mem _ (List.mem_map_of_mem hmem), .here _⟩,
      (List.prefix_append _ _).trans kept⟩

end Calls

/-! ### When helpers are made -/

section Reaches

variable {binding : Text}

/-- A sketch has a hole for a type expression, or the sketches of its holes have, if no helper is
made. -/
inductive Sketch.Reaches : Sketch → TypeExpr → Nat → Prop
  | here {s : Sketch} {t : TypeExpr} {depth : Nat} (h : s.Has t depth) : Reaches s t depth
  | inside {s : Sketch} {t u : TypeExpr} {depth depth' : Nat} (h : s.Has t depth)
      (h' : (typeSketch depth t).Reaches u depth') : Reaches s u depth'

theorem sequential_kept : Sequential fun start _ _ stop => stop.helpers = start.helpers where
  nothing _ := rfl
  call _ _ := rfl
  both first second := second.trans first

/-- A type expression makes no helper unless brackets nest too deep in it. -/
theorem kept_type (t : TypeExpr) {depth : Nat} (hd : depth < maxNesting)
    (h : ∀ u k, (typeSketch depth t).Reaches u k → k < maxNesting) :
    Writes (fun start _ _ stop => stop.helpers = start.helpers) depth
      (writeType binding t depth) := by
  induction hsize : sizeOf t using Nat.strongRecOn generalizing t depth with
  | ind size ih =>
    subst hsize
    rw [writeType_of_lt binding t hd]
    refine (placed_type hd t).writes sequential_kept fun u k hu => ?_
    exact ih _ (sizeOf_lt_of_has hu) u (h u k (.here hu)) (fun v l hv => h v l (.inside hu hv)) rfl

/-- A hole that makes a helper makes one for the whole. -/
theorem Sketch.Has.grows {s : Sketch} {t : TypeExpr} {depth n : Nat} (h : s.Has t depth)
    (hs : s.Placed n) (hgrows : ∀ draft : Draft,
      draft.helpers.length < ((writeType binding t depth).run draft).2.helpers.length)
    (start : Draft) :
    start.helpers.length < ((s.fill (writeType binding)).run start).2.helpers.length := by
  obtain ⟨k, draft, hvisit⟩ := @Sketch.Has.visits (writeType binding) s t depth h start
  have hturn := hvisit.turn hs
  have hearlier := hturn.earlier.length_le
  have hlater := hturn.later.length_le
  have := hgrows draft
  omega

theorem grows_helper (t : TypeExpr) {depth : Nat} (hd : maxNesting ≤ depth)
    (draft : Draft) :
    draft.helpers.length < ((writeType binding t depth).run draft).2.helpers.length := by
  have hinner := (writes_type binding t 0 draft).2.isPrefix.length_le
  rw [run_writeType_of_le binding t hd, Draft.helpers_addHelper, List.length_append,
    List.length_singleton]
  omega

/-- Where brackets nest too deep, a helper is made. -/
theorem Sketch.Reaches.grows {s : Sketch} {t : TypeExpr} {depth : Nat} (h : s.Reaches t depth)
    (hd : maxNesting ≤ depth) : ∀ {n : Nat}, s.Placed n → ∀ start : Draft,
      start.helpers.length < ((s.fill (writeType binding)).run start).2.helpers.length := by
  induction h with
  | here h => exact fun hs => h.grows hs (grows_helper _ hd)
  | @inside s t u k depth h _ ih =>
    refine fun hs => h.grows hs fun draft => ?_
    by_cases hk : k < maxNesting
    · rw [writeType_of_lt binding t hk]
      exact ih hd (placed_type hk t) draft
    · exact grows_helper t (Nat.not_lt.1 hk) draft

/-- **Helpers are made exactly when a type expression would stand inside too many brackets.** -/
theorem lowered_helpers_eq_nil_iff (S : Schema) :
    (lowered binding S).2.helpers = [] ↔
      ∀ t depth, (schemaSketch S).Reaches t depth → depth < maxNesting := by
  rw [lowered, lowerSchema_eq]
  constructor
  · intro hnil t depth h
    by_contra hd
    have hgrows := @Sketch.Reaches.grows binding _ _ _ h (Nat.not_lt.1 hd) 0 (placed_schema S) {}
    rw [hnil] at hgrows
    exact Nat.lt_irrefl _ hgrows
  · intro h
    refine ((placed_schema S).writes sequential_kept fun t depth ht => ?_) {} |>.2
    exact kept_type t (h t depth (.here ht)) fun u k hu => h u k (.inside ht hu)

end Reaches

/-! ### The module -/

/-- The brackets and the helpers of a module are as they should be. -/
structure WellNested (S : Schema) (binding : Text) (m : BindingsModule) : Prop where
  bounded : ∀ before after, m.render = before ++ after →
    0 ≤ openBrackets before ∧ openBrackets before ≤ 105
  closed : openBrackets m.render = 0
  schema : lowerSchema binding S = (schemaSketch S).fill (writeType binding)
  types : ∀ t depth, lowerType binding t depth = (typeSketch depth t).fill (writeType binding)
  depth : ∀ k t depth draft, Calls binding S k t depth draft → depth = k ∧
    ∃ before after level,
      m.render = before ++ ((writeType binding t depth).run draft).1.render level ++ after ∧
        scan (Region.code, 0) before = (Region.code, (depth : Int))
  reads : Script.read m.render = some m.script
  targets : m.script.targets = (List.range m.helpers.length).map (helperName binding) ++
    binding :: (m.constants.map Prod.fst ++ [Text.ofString "__all__"])
  named : ∀ k, helperName binding k =
    if binding = "_type_" ++ Text.ofNat k then "_type_" ++ Text.ofNat k ++ "_"
    else "_type_" ++ Text.ofNat k
  earlier : ∀ k a, m.script.assignments[k]? = some a → ∀ i, helperName binding i ∈ a.2.names →
    i < k ∧ i < m.helpers.length
  once : ∀ k < m.helpers.length, m.script.names.count (helperName binding k) = 1
  unneeded : m.helpers = [] ↔ ∀ t depth, (schemaSketch S).Reaches t depth → depth < maxNesting

section Module

variable {S : Schema} {name binding : Text}

/-- The assignments after the helpers and the schema. -/
def closing (m : BindingsModule) : List (Text × Expr) :=
  (m.constants.map fun c => (c.1, Expr.text c.2)) ++ [m.exportList]

theorem settled_closing {m : BindingsModule} {a : Text × Expr} (ha : a ∈ closing m) :
    Settled 0 a.2 := by
  rcases List.mem_append.1 ha with ha | ha
  · obtain ⟨c, -, rfl⟩ := List.mem_map.1 ha
    exact .text c.2
  · rw [List.mem_singleton.1 ha]
    exact .list (by decide) (List.forall_mem_map.2 fun t _ => .text t) .block

theorem assignments_moduleFor (S : Schema) (name binding : Text) :
    (moduleFor S name binding).assignments = (lowered binding S).2.helpers ++
      (binding, (lowered binding S).1) :: closing (moduleFor S name binding) := by
  simp only [BindingsModule.assignments, closing, List.append_assoc, List.singleton_append]
  rfl

theorem targets_moduleFor (S : Schema) (name binding : Text) :
    (moduleFor S name binding).assignments.map Prod.fst =
      (List.range (lowered binding S).2.helpers.length).map (helperName binding) ++
        binding :: ((moduleFor S name binding).constants.map Prod.fst ++
          [Text.ofString "__all__"]) := by
  rw [assignments_moduleFor, List.map_append, names_lowered, List.map_cons]
  simp [closing, BindingsModule.exportList, Function.comp_def]

theorem fits_moduleFor (S : Schema) (name binding : Text) :
    ∀ a ∈ (moduleFor S name binding).assignments, FitsIn 0 a.2 := by
  obtain ⟨hfits, hhoists⟩ := hoists_lowered binding S
  rw [assignments_moduleFor, List.forall_mem_append, List.forall_mem_cons]
  refine ⟨fun a ha => ?_, hfits, fun a ha => (settled_closing ha).fits⟩
  obtain ⟨k, hk⟩ := List.getElem?_of_mem ha
  exact (hhoists.entry (Nat.zero_le k) hk).2.1

theorem readable_moduleFor (S : Schema) (hnames : checkNames name binding = .ok ()) :
    (moduleFor S name binding).Readable (fun _ => True) := by
  obtain ⟨hname, hbinding⟩ := checkNames_eq_ok.1 hnames
  have htargets : ∀ t ∈ (moduleFor S name binding).assignments.map Prod.fst, IsName t := by
    rw [targets_moduleFor]
    simp only [List.forall_mem_append, List.forall_mem_cons, List.forall_mem_map]
    have hconstants := Constants.ofNames_sound binding (S.instructions.map Instruction.name)
    exact ⟨fun k _ => isName_helperName binding k, hbinding,
      fun c hc => (hconstants.form c hc).isName, by decide, by simp⟩
  refine ⟨not_quote_of_isModuleName hname, ?_, List.forall_mem_map.1 htargets,
    fun a ha => fits_moduleFor S name binding a ha _ (by decide)⟩
  have hschema : Constructor.schema ∈ (moduleFor S name binding).imports :=
    BindingsModule.mem_imports.2 (mem_used_lowered.2 (.inl schema_mem_callees))
  exact List.ne_nil_of_mem hschema

/-- An assignment refers to helpers that are bound before it. -/
theorem lt_of_mem_names (S : Schema) (name binding : Text) {k i : Nat} {a : Text × Expr}
    (ha : (moduleFor S name binding).assignments[k]? = some a)
    (hi : helperName binding i ∈ a.2.names) : i < k ∧ i < (lowered binding S).2.helpers.length := by
  obtain ⟨-, hhoists⟩ := hoists_lowered binding S
  rw [assignments_moduleFor] at ha
  rcases Nat.lt_or_ge k (lowered binding S).2.helpers.length with hk | hk
  · rw [List.getElem?_append_left hk] at ha
    obtain ⟨j, -, hj, hij⟩ := (hhoists.entry (Nat.zero_le k) ha).2.2 _ hi
    obtain rfl := helperName_injective binding hij
    exact ⟨hj, by omega⟩
  · rw [List.getElem?_append_right hk] at ha
    rcases List.mem_cons.1 (List.mem_of_getElem? ha) with rfl | hclosing
    · obtain ⟨j, -, hj, hij⟩ := hhoists.mem_names hi
      obtain rfl := helperName_injective binding hij
      exact ⟨by omega, hj⟩
    · rw [(settled_closing hclosing).names] at hi
      exact absurd hi List.not_mem_nil

/-- A helper is referred to exactly once. -/
theorem count_names_moduleFor (S : Schema) (name binding : Text) {k : Nat}
    (hk : k < (lowered binding S).2.helpers.length) :
    (moduleFor S name binding).script.names.count (helperName binding k) = 1 := by
  have hterms : (moduleFor S name binding).script.names.count (helperName binding k) =
      ((moduleFor S name binding).assignments.flatMap fun a => a.2.names).count
        (helperName binding k) := by
    simp only [Script.names, BindingsModule.script, List.flatMap_map, List.count_flatMap,
      Function.comp_def, count_helperName]
  have hclosing : (closing (moduleFor S name binding)).flatMap (fun a => a.2.names) = [] :=
    List.flatMap_eq_nil_iff.2 fun a ha => (settled_closing ha).names
  -- All helpers are new, so the schema and the helpers refer to this one as often as it is bound.
  have hcount := (hoists_lowered binding S).2.count (helperName binding k)
  have honce : ((lowered binding S).2.helpers.map Prod.fst).count (helperName binding k) = 1 := by
    rw [names_lowered]
    exact List.count_eq_one_of_mem (List.nodup_range.map (helperName_injective binding))
      (List.mem_map_of_mem (List.mem_range.2 hk))
  have hhelpers : (lowered binding S).2.helpers.flatMap (fun a => a.2.names) =
      helperNames (lowered binding S).2.helpers := rfl
  have hnone : helperNames [] = [] := rfl
  rw [hterms, assignments_moduleFor, List.flatMap_append, List.flatMap_cons, hclosing, hhelpers,
    List.append_nil, List.count_append]
  rw [honce, hnone, List.map_nil, List.count_nil] at hcount
  dsimp only
  omega

/-- **Every module that is emitted is well nested,** for every schema and all accepted names; it is
emitted unless an integer of the schema is too long to be printed. -/
theorem emit_wellNested (S : Schema) (hnames : checkNames name binding = .ok ()) :
    ∃ m : BindingsModule, (emit S name binding).outcome = printed S m.render ∧
      WellNested S binding m := by
  have hreadable := readable_moduleFor S hnames
  have hlegible : ∀ a ∈ (moduleFor S name binding).assignments,
      Legible (fun _ => True) (104 + 1) a.2 :=
    fun a ha => fits_moduleFor S name binding a ha _ (by decide)
  have hbalanced := BindingsModule.balanced_render hreadable.title hreadable.targets hlegible
  refine ⟨moduleFor S name binding, by rw [emit_outcome, hnames]; rfl, ?_⟩
  constructor
  case bounded =>
    intro before after h
    have hbounds := hbalanced.bounded 0 before after h
    exact ⟨hbounds.1, by simpa [openBrackets] using hbounds.2⟩
  case closed => exact congrArg Prod.snd (hbalanced.closed 0)
  case schema => exact lowerSchema_eq binding S
  case types => exact lowerType_eq binding
  case depth =>
    intro k t depth draft h
    obtain ⟨rfl, ⟨e, he, hinside⟩, -⟩ := h.standing
    refine ⟨rfl, ?_⟩
    obtain ⟨a, ha, rfl⟩ : ∃ a ∈ (moduleFor S name binding).assignments, a.2 = e := by
      rw [assignments_moduleFor]
      rcases List.mem_cons.1 he with rfl | he
      · exact ⟨_, List.mem_append_right _ (List.mem_cons_self ..), rfl⟩
      · obtain ⟨a, ha, rfl⟩ := List.mem_map.1 he
        exact ⟨a, List.mem_append_left _ ha, rfl⟩
    obtain ⟨before, after, level, hrender, hopens⟩ :=
      BindingsModule.render_split hreadable.title hreadable.targets hlegible ha hinside
    refine ⟨before, after, level, hrender, ?_⟩
    rw [hopens, Int.zero_add]
  case reads => exact BindingsModule.read_render hreadable
  case targets =>
    have htargets : (moduleFor S name binding).script.targets =
        (moduleFor S name binding).assignments.map Prod.fst := by
      simp [BindingsModule.script, Script.targets, Function.comp_def]
    exact htargets.trans (targets_moduleFor S name binding)
  case named =>
    intro k
    simp only [helperName, eq_comm]
  case earlier =>
    intro k a ha i hi
    rw [BindingsModule.script, List.getElem?_map, Option.map_eq_some_iff] at ha
    obtain ⟨b, hb, rfl⟩ := ha
    exact lt_of_mem_names S name binding hb (mem_names_term hi)
  case once => exact fun k hk => count_names_moduleFor S name binding hk
  case unneeded => exact lowered_helpers_eq_nil_iff S

end Module

/-! ### An instance -/

/-- Vectors inside each other. -/
def vectors : Nat → TypeExpr
  | 0 => .primitive .u8
  | n + 1 => .container .vec (vectors n)

/-- A schema with a type of 250 vectors inside each other. -/
def deepSample : Schema where
  types := [{ name := "Deep", type := vectors 250 }]

theorem reaches_vectors (n j depth : Nat) :
    (typeSketch depth (vectors (n + j + 1))).Reaches (vectors n) (depth + j + 1) := by
  have has (i depth : Nat) : (typeSketch depth (vectors (i + 1))).Has (vectors i) (depth + 1) :=
    .argument (List.mem_singleton_self _) (.hole _ _)
  induction j generalizing depth with
  | zero => exact .here (has n depth)
  | succ j ih =>
    have hsum : depth + (j + 1) + 1 = depth + 1 + j + 1 := by omega
    rw [hsum]
    exact .inside (has (n + j + 1) depth) (ih (depth + 1))

theorem has_definition {S : Schema} {d : TypeDefinition} (hd : d ∈ S.types) {t : TypeExpr}
    {depth : Nat} (h : (definitionSketch d.type).Has t depth) : (schemaSketch S).Has t depth := by
  have hdefinition : (typeDefinitionSketch d).Has t depth :=
    .argument (List.mem_cons_of_mem _ (List.mem_cons_self ..)) h
  refine .argument (a := ("types", .list .block (S.types.map typeDefinitionSketch))) (by simp) ?_
  exact .item (List.mem_map_of_mem hd) hdefinition

theorem deepSample_wellNested :
    ∃ m : BindingsModule, (emit deepSample "gateway" "_type_0").outcome = .ok m.render ∧
      WellNested deepSample "_type_0" m ∧ m.script.targets.head? = some "_type_0_" := by
  have hnames : checkNames "gateway" "_type_0" = .ok () := by decide
  obtain ⟨m, hemit, hm⟩ := emit_wellNested deepSample hnames
  have hhole : (definitionSketch (vectors 250)).Has (vectors 250) 3 := .hole _ _
  have hdeep : (schemaSketch deepSample).Reaches (vectors 150) 103 :=
    .inside (has_definition (List.mem_singleton_self _) hhole) (reaches_vectors 150 99 3)
  have hhelpers : 0 < m.helpers.length := by
    refine List.length_pos_of_ne_nil fun hnil => ?_
    exact absurd (hm.unneeded.1 hnil _ _ hdeep) (by decide)
  refine ⟨m, hemit, hm, ?_⟩
  obtain ⟨n, hn⟩ : ∃ n, m.helpers.length = n + 1 := ⟨_, (Nat.succ_pred_eq_of_pos hhelpers).symm⟩
  rw [hm.targets, hn, List.range_succ_eq_map]
  rfl

end Bindings
end AnchorIdl
