/-
# Where the holes of a sketch stand

A sketch is `Placed` inside `n` open brackets if each of its holes stands where
as many brackets are open as `writeType` is told there, and no bracket of its own
is more than the `maxDepth`th.  The sketches of a schema are placed where they
are used (`placed_schema`), and so is the one of a type expression wherever fewer
than `maxNesting` brackets are open (`placed_type`).  This is where the numbers
that the functions of `Bindings.TypeExpr` and `Bindings.Module` count with are
checked against the brackets that they write.

What stands outside the holes is `Settled`: it fits where it stands, and it names
no helper.  This holds for every schema, canonical or not.
-/

import AnchorIdl.Proofs.Bindings.Denotation
import AnchorIdl.Proofs.Bindings.Sketch

namespace AnchorIdl
namespace Bindings

open Script

/-! ### Names -/

mutual

/-- The names that an expression refers to. -/
def Expr.names : Expr → List Text
  | .name n => [n]
  | .list _ items => itemNames items
  | .call _ _ arguments => argumentNames arguments
  | _ => []

/-- The names that some items refer to. -/
def itemNames : List Expr → List Text
  | [] => []
  | e :: rest => e.names ++ itemNames rest

/-- The names that some arguments refer to. -/
def argumentNames : List (Text × Expr) → List Text
  | [] => []
  | (_, e) :: rest => e.names ++ argumentNames rest

end

theorem itemNames_eq_nil {items : List Expr} (h : ∀ e ∈ items, e.names = []) :
    itemNames items = [] := by
  induction items with
  | nil => rfl
  | cons e rest ih =>
    rw [List.forall_mem_cons] at h
    rw [itemNames, h.1, ih h.2, List.append_nil]

theorem argumentNames_eq_nil {arguments : List (Text × Expr)}
    (h : ∀ a ∈ arguments, a.2.names = []) : argumentNames arguments = [] := by
  induction arguments with
  | nil => rfl
  | cons a rest ih =>
    rw [List.forall_mem_cons] at h
    rw [argumentNames, h.1, ih h.2, List.append_nil]

/-! ### What stands outside the holes -/

variable {depth : Nat}

/-- An expression fits inside `depth` open brackets, whatever its integers are. -/
abbrev FitsIn (depth : Nat) (e : Expr) : Prop := Fits (fun _ => True) depth e

/-- An expression that fits and names nothing. -/
structure Settled (depth : Nat) (e : Expr) : Prop where
  fits : FitsIn depth e
  names : e.names = []

theorem Settled.text (t : Text) : Settled depth (.text t) := ⟨fun n _ => .text n t, rfl⟩

theorem Settled.int (i : Int) : Settled depth (.int i) := ⟨fun n _ => .int n trivial, rfl⟩

theorem Settled.bool (b : Bool) : Settled depth (.bool b) := ⟨fun n _ => .bool n b, rfl⟩

theorem Settled.none : Settled depth .none := ⟨fun n _ => .none n, rfl⟩

theorem Settled.bytes (hd : depth + 2 ≤ maxDepth) (b : Bytes) : Settled depth (.bytes b) :=
  ⟨.bytes hd b, rfl⟩

theorem Settled.list {items : List Expr} (hd : depth + 1 ≤ maxDepth)
    (each : ∀ e ∈ items, Settled (depth + 1) e) (layout : Layout) :
    Settled depth (.list layout items) where
  fits := .list hd (fun e he => (each e he).fits) layout
  names := itemNames_eq_nil fun e he => (each e he).names

theorem Settled.call {callee : Constructor} {arguments : List (Text × Expr)}
    (hd : depth + 1 ≤ maxDepth)
    (keys : (arguments.map Prod.fst).Sublist (parameters callee))
    (each : ∀ a ∈ arguments, Settled (depth + 1) a.2) (layout : Layout) :
    Settled depth (.call layout callee arguments) where
  fits := .call hd keys (fun a ha => (each a ha).fits) layout
  names := argumentNames_eq_nil fun a ha => (each a ha).names

/-! ### What holds no type expression -/

theorem settled_docsArgument (hd : depth + 1 ≤ maxDepth) (docs : List Text) :
    ∀ a ∈ docsArgument docs, Settled depth a.2 := by
  cases docs with
  | nil => simp [docsArgument]
  | cons t docs =>
    refine List.forall_mem_singleton.2 (.list hd ?_ .line)
    exact List.forall_mem_map.2 fun t _ => .text t

theorem sublist_docsArgument (docs : List Text) :
    ((docsArgument docs).map Prod.fst).Sublist ["docs"] := by
  cases docs with
  | nil => exact List.nil_sublist _
  | cons t docs => exact .refl _

theorem settled_seed (hd : depth + 3 ≤ maxDepth) (s : Seed) : Settled depth (seedExpr s) := by
  obtain ⟨kind, value, path, account, text⟩ := s
  cases kind with
  | const =>
    exact .call (by omega) (List.isSublist_iff_sublist.1 rfl) (List.forall_mem_cons.2
      ⟨.text _, List.forall_mem_singleton.2 (.bytes hd _)⟩) .line
  | string =>
    exact .call (by omega) (List.isSublist_iff_sublist.1 rfl) (List.forall_mem_cons.2
      ⟨.text _, List.forall_mem_singleton.2 (.text _)⟩) .line
  | account | arg =>
    cases account with
    | none =>
      exact .call (by omega) (List.isSublist_iff_sublist.1 rfl) (List.forall_mem_cons.2
        ⟨.text _, List.forall_mem_singleton.2 (.text _)⟩) .line
    | some account =>
      exact .call (by omega) (List.isSublist_iff_sublist.1 rfl) (List.forall_mem_cons.2
        ⟨.text _, List.forall_mem_cons.2 ⟨.text _, List.forall_mem_singleton.2 (.text _)⟩⟩) .line

theorem settled_pda (hd : depth + 5 ≤ maxDepth) (p : Pda) : Settled depth (pdaExpr p) := by
  obtain ⟨seeds, program⟩ := p
  have hseeds : Settled (depth + 1) (.list .block (seeds.map seedExpr)) :=
    .list (by omega) (List.forall_mem_map.2 fun s _ => settled_seed (by omega) s) .block
  cases program with
  | none =>
    exact .call (by omega) (List.isSublist_iff_sublist.1 rfl)
      (List.forall_mem_singleton.2 hseeds) .block
  | some seed =>
    exact .call (by omega) (.refl _) (List.forall_mem_cons.2
      ⟨hseeds, List.forall_mem_singleton.2 (settled_seed (by omega) seed)⟩) .block

theorem settled_pdaOrNone (hd : depth + 5 ≤ maxDepth) (p : Option Pda) :
    Settled depth (pdaOrNone p) := by
  cases p with
  | none => exact .none
  | some p => exact settled_pda hd p

theorem settled_textOrNone (t : Option Text) : Settled depth (Expr.textOrNone t) := by
  cases t with
  | none => exact .none
  | some t => exact .text t

theorem settled_accountArguments (hd : depth + 5 ≤ maxDepth) (a : AccountRef) :
    ∀ b ∈ accountArguments a, Settled depth b.2 := by
  simp only [accountArguments, slotArguments, List.forall_mem_append, List.forall_mem_cons]
  refine ⟨⟨⟨⟨.text _, .bool _, .bool _, by simp⟩, ?_⟩, settled_textOrNone _,
    settled_pdaOrNone hd _, by simp⟩, settled_docsArgument (by omega) _⟩
  split
  · exact List.forall_mem_singleton.2 (.bool true)
  · simp

theorem sublist_accountArguments (a : AccountRef) :
    ((accountArguments a).map Prod.fst).Sublist (parameters .accountRef) := by
  have hoptional : ((if a.optional then [("optional", .bool true)] else [] :
      List (Text × Expr)).map Prod.fst).Sublist ["optional"] := by
    split
    · exact .refl _
    · exact List.nil_sublist _
  simp only [accountArguments, slotArguments, List.map_append]
  exact (((List.Sublist.refl _).append hoptional).append (.refl _)).append
    (sublist_docsArgument _)

theorem settled_account (hd : depth + 6 ≤ maxDepth) (a : AccountRef) :
    Settled depth (accountExpr a) :=
  .call (by omega) (sublist_accountArguments a) (settled_accountArguments (by omega) a) .block

theorem settled_accountDefinition (hd : depth + 6 ≤ maxDepth) (a : AccountDefinition) :
    Settled depth (accountDefinitionExpr a) := by
  obtain ⟨slot, discriminator⟩ := a
  refine .call (by omega) ?_
    (List.forall_mem_append.2 ⟨settled_accountArguments (by omega) slot, ?_⟩) .block
  · rw [List.map_append]
    refine (sublist_accountArguments slot).append ?_
    cases discriminator with
    | none => exact List.nil_sublist _
    | some bytes => exact .refl _
  · cases discriminator with
    | none => simp [layoutArgument]
    | some bytes => exact List.forall_mem_singleton.2 (.bytes (by omega) bytes)

theorem settled_metadata (hd : depth + 1 ≤ maxDepth) (m : Metadata) :
    Settled depth (metadataExpr m) := by
  refine .call hd (.refl _) ?_ .block
  simp only [List.forall_mem_cons]
  exact ⟨.text _, .text _, .text _, .text _, by simp⟩

theorem settled_error (hd : depth + 1 ≤ maxDepth) (e : ErrorDefinition) :
    Settled depth (errorExpr e) := by
  refine .call hd (.refl _) ?_ .line
  simp only [List.forall_mem_cons]
  exact ⟨.int _, .text _, .text _, by simp⟩

/-! ### Placed sketches -/

/-- Inside `n` open brackets a sketch fits, and each hole stands where as many brackets are open as
it says. -/
inductive Sketch.Placed : Nat → Sketch → Prop
  | leaf {n : Nat} {e : Expr} (h : Settled n e) : Placed n (.leaf e)
  | hole (n : Nat) (t : TypeExpr) : Placed n (.hole t n)
  | list (layout : Layout) {n : Nat} {items : List Sketch} (hn : n + 1 ≤ maxDepth)
      (each : ∀ s ∈ items, Placed (n + 1) s) : Placed n (.list layout items)
  | call (layout : Layout) {callee : Constructor} {n : Nat} {arguments : List (Text × Sketch)}
      (hn : n + 1 ≤ maxDepth) (keys : (arguments.map Prod.fst).Sublist (parameters callee))
      (each : ∀ a ∈ arguments, Placed (n + 1) a.2) : Placed n (.call layout callee arguments)

theorem keys_leaves (arguments : List (Text × Expr)) :
    (leaves arguments).map Prod.fst = arguments.map Prod.fst := by
  simp [leaves, Function.comp_def]

theorem placed_leaves {arguments : List (Text × Expr)}
    (h : ∀ a ∈ arguments, Settled depth a.2) : ∀ a ∈ leaves arguments, a.2.Placed depth :=
  List.forall_mem_map.2 fun a ha => .leaf (h a ha)

theorem sublist_listSketch (key : Text) (items : List Sketch) :
    ((listSketch key items).map Prod.fst).Sublist [key] := by
  cases items with
  | nil => exact List.nil_sublist _
  | cons s items => exact .refl _

theorem placed_listSketch {key : Text} {items : List Sketch} (hd : depth + 1 ≤ maxDepth)
    (h : ∀ s ∈ items, s.Placed (depth + 1)) :
    ∀ a ∈ listSketch key items, a.2.Placed depth := by
  cases items with
  | nil => simp [listSketch]
  | cons s items => exact List.forall_mem_singleton.2 (.list .line hd h)

theorem placed_holes (types : List TypeExpr) : ∀ s ∈ holes types depth, s.Placed depth :=
  List.forall_mem_map.2 fun t _ => .hole depth t

theorem placed_field (hd : depth + 2 ≤ maxDepth) (f : Field) :
    (fieldSketch depth f).Placed depth := by
  refine .call .line (by omega) ?_ ?_
  · rw [List.map_cons, List.map_cons, keys_leaves]
    exact ((sublist_docsArgument _).cons_cons _).cons_cons _
  · simp only [List.forall_mem_cons]
    exact ⟨.leaf (.text _), .hole _ _, placed_leaves (settled_docsArgument (by omega) _)⟩

theorem placed_fields (hd : depth + 2 ≤ maxDepth) (fields : List Field) :
    ∀ s ∈ fields.map (fieldSketch depth), s.Placed depth :=
  List.forall_mem_map.2 fun f _ => placed_field hd f

theorem placed_variant (hd : depth + 4 ≤ maxDepth) (v : Variant) :
    (variantSketch depth v).Placed depth := by
  refine .call .line (by omega) ?_ ?_
  · rw [List.map_cons, List.map_append]
    exact ((sublist_listSketch _ _).append (sublist_listSketch _ _)).cons_cons _
  · rw [List.forall_mem_cons, List.forall_mem_append]
    exact ⟨.leaf (.text _), placed_listSketch (by omega) (placed_fields (by omega) _),
      placed_listSketch (by omega) (placed_holes _)⟩

theorem placed_variants (hd : depth + 4 ≤ maxDepth) (variants : List Variant) :
    ∀ s ∈ variants.map (variantSketch depth), s.Placed depth :=
  List.forall_mem_map.2 fun v _ => placed_variant hd v

/-- **The sketch for a type expression is placed wherever it is not a helper.** -/
theorem placed_type (hd : depth < maxNesting) (t : TypeExpr) :
    (typeSketch depth t).Placed depth := by
  have hopen := add_le_maxDepth hd
  cases t with
  | primitive p =>
    exact .call .line (by omega) (.refl _) (List.forall_mem_singleton.2 (.leaf (.text _)))
  | array element length =>
    refine .call .line (by omega) (.refl _) ?_
    exact List.forall_mem_cons.2 ⟨.hole _ _, List.forall_mem_singleton.2 (.leaf (.int _))⟩
  | container shape element =>
    refine .call .line (by omega) ?_ (List.forall_mem_singleton.2 (.hole _ _))
    cases shape <;> exact .refl _
  | defined name generics =>
    refine .call .line (by omega) ((sublist_listSketch _ _).cons_cons _) ?_
    exact List.forall_mem_cons.2
      ⟨.leaf (.text _), placed_listSketch (by omega) (placed_holes generics)⟩
  | struct fields =>
    exact .call .line (by omega) (.refl _)
      (List.forall_mem_singleton.2 (.list .line (by omega) (placed_fields (by omega) fields)))
  | enum variants =>
    exact .call .line (by omega) (.refl _)
      (List.forall_mem_singleton.2 (.list .line (by omega) (placed_variants (by omega) variants)))

theorem placed_definition (t : TypeExpr) : (definitionSketch t).Placed 3 := by
  cases t with
  | struct fields =>
    exact .call .block (by decide) (.refl _)
      (List.forall_mem_singleton.2 (.list .block (by decide) (placed_fields (by decide) fields)))
  | enum variants =>
    exact .call .block (by decide) (.refl _) (List.forall_mem_singleton.2
      (.list .block (by decide) (placed_variants (by decide) variants)))
  | primitive _ | array _ _ | container _ _ | defined _ _ => exact .hole 3 _

theorem placed_typeDefinition (t : TypeDefinition) : (typeDefinitionSketch t).Placed 2 := by
  refine .call .block (by decide) ?_ ?_
  · rw [List.map_cons, List.map_cons, keys_leaves]
    exact ((sublist_docsArgument _).cons_cons _).cons_cons _
  · simp only [List.forall_mem_cons]
    exact ⟨.leaf (.text _), placed_definition t.type,
      placed_leaves (settled_docsArgument (by decide) _)⟩

theorem placed_arg (a : Arg) : (argSketch a).Placed 4 :=
  .call .line (by decide) (.refl _)
    (List.forall_mem_cons.2 ⟨.leaf (.text _), List.forall_mem_singleton.2 (.hole 5 _)⟩)

theorem placed_instruction (i : Instruction) : (instructionSketch i).Placed 2 := by
  refine .call .block (by decide) ?_ ?_
  · rw [List.map_append, keys_leaves]
    exact (List.Sublist.refl _).append (sublist_docsArgument _)
  · have haccounts : Settled 3 (.list .block (i.accounts.map accountExpr)) :=
      .list (by decide) (List.forall_mem_map.2 fun a _ => settled_account (by decide) a) .block
    have hargs : (Sketch.list .block (i.args.map argSketch)).Placed 3 :=
      .list .block (by decide) (List.forall_mem_map.2 fun a _ => placed_arg a)
    simp only [List.forall_mem_append, List.forall_mem_cons]
    exact ⟨⟨.leaf (.text _), .leaf (.bytes (by decide) _), .leaf haccounts, hargs, by simp⟩,
      placed_leaves (settled_docsArgument (by decide) _)⟩

/-- **The sketch for a schema is placed where no bracket is open.** -/
theorem placed_schema (S : Schema) : (schemaSketch S).Placed 0 := by
  have haccounts : Settled 1 (.list .block (S.accounts.map accountDefinitionExpr)) :=
    .list (by decide)
      (List.forall_mem_map.2 fun a _ => settled_accountDefinition (by decide) a) .block
  have herrors : Settled 1 (.list .block (S.errors.map errorExpr)) :=
    .list (by decide) (List.forall_mem_map.2 fun e _ => settled_error (by decide) e) .block
  have hinstructions : (Sketch.list .block (S.instructions.map instructionSketch)).Placed 1 :=
    .list .block (by decide) (List.forall_mem_map.2 fun i _ => placed_instruction i)
  have htypes : (Sketch.list .block (S.types.map typeDefinitionSketch)).Placed 1 :=
    .list .block (by decide) (List.forall_mem_map.2 fun t _ => placed_typeDefinition t)
  refine .call .block (by decide) (.refl _) ?_
  simp only [List.forall_mem_cons]
  exact ⟨.leaf (.text _), .leaf (settled_metadata (by decide) _), hinstructions, .leaf haccounts,
    .leaf herrors, htypes, by simp⟩

end Bindings
end AnchorIdl
