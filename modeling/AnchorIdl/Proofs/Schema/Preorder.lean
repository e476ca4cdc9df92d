/-
# The nodes of a type expression in order

A type expression is a tree.  Below a node stand its element, its type arguments,
the types of its fields or those in its variants, in the order in which they are
declared (`children`).  `nodes` lists all nodes, each before those below it.

The walk that collects names never makes this list.  What it collects are the names
of the references among the nodes, each at its first occurrence only
(`definedNames_preorder`).
-/

import AnchorIdl.Proofs.FirstOccurrences
import AnchorIdl.Proofs.Schema.References

namespace AnchorIdl
namespace TypeExpr

/-- The type expressions that stand directly in a type expression, in declared order.  In a
variant the types of the fields come before the types by position. -/
def children : TypeExpr → List TypeExpr
  | .primitive _ => []
  | .array element _ => [element]
  | .container _ element => [element]
  | .defined _ generics => generics
  | .struct fields => fields.map Field.type
  | .enum variants => variants.flatMap fun v => v.fields.map Field.type ++ v.items

theorem sizeOf_lt_of_mem_types {fields : List Field} {child : TypeExpr}
    (h : child ∈ fields.map Field.type) : sizeOf child < sizeOf fields := by
  obtain ⟨⟨name, type, docs⟩, hf, rfl⟩ := List.mem_map.1 h
  have hfield : sizeOf type < sizeOf (Field.mk name type docs) := by
    rw [Field.mk.sizeOf_spec]
    omega
  exact Nat.lt_trans hfield (List.sizeOf_lt_of_mem hf)

theorem sizeOf_lt_of_mem_children {child t : TypeExpr} (h : child ∈ t.children) :
    sizeOf child < sizeOf t := by
  cases t with
  | primitive type => exact absurd h List.not_mem_nil
  | array element length =>
    obtain rfl := List.mem_singleton.1 h
    rw [array.sizeOf_spec]
    omega
  | container shape element =>
    obtain rfl := List.mem_singleton.1 h
    rw [container.sizeOf_spec]
    omega
  | defined name generics =>
    have hgenerics : sizeOf child < sizeOf generics := List.sizeOf_lt_of_mem h
    rw [defined.sizeOf_spec]
    omega
  | struct fields =>
    have hfields : sizeOf child < sizeOf fields := sizeOf_lt_of_mem_types h
    rw [struct.sizeOf_spec]
    omega
  | enum variants =>
    obtain ⟨⟨name, fields, items⟩, hv, hchild⟩ := List.mem_flatMap.1 h
    have hvariant : sizeOf child < sizeOf (Variant.mk name fields items) := by
      rw [Variant.mk.sizeOf_spec]
      rcases List.mem_append.1 hchild with hfield | hitem
      · have hfields : sizeOf child < sizeOf fields := sizeOf_lt_of_mem_types hfield
        omega
      · have hitems : sizeOf child < sizeOf items := List.sizeOf_lt_of_mem hitem
        omega
    have hvariants := List.sizeOf_lt_of_mem hv
    rw [enum.sizeOf_spec]
    omega

/-- The nodes of a type expression in depth-first pre-order. -/
def nodes (t : TypeExpr) : List TypeExpr :=
  t :: t.children.attach.flatMap fun child => nodes child.1
termination_by sizeOf t
decreasing_by exact sizeOf_lt_of_mem_children child.2

theorem nodes_eq (t : TypeExpr) : t.nodes = t :: t.children.flatMap nodes := by
  have hattach : t.children.flatMap nodes = (t.children.attach.map Subtype.val).flatMap nodes := by
    rw [List.attach_map_subtype_val]
  rw [nodes, hattach, List.flatMap_map]

/-- The name that a node refers to. -/
def referenceName? : TypeExpr → Option Text
  | .defined name _ => some name
  | _ => none

/-! ### References among the nodes -/

mutual

theorem references_eq : (t : TypeExpr) → t.references = t.nodes.filterMap referenceName?
  | .primitive _ => by
    rw [nodes_eq]
    rfl
  | .array element _ => by
    rw [references, references_eq element, nodes_eq (.array ..), children, List.flatMap_singleton]
    rfl
  | .container _ element => by
    rw [references, references_eq element, nodes_eq (.container ..), children,
      List.flatMap_singleton]
    rfl
  | .defined name generics => by
    rw [references, typesReferences_eq generics, nodes_eq (.defined ..)]
    rfl
  | .struct fields => by
    rw [references, fieldsReferences_eq fields, nodes_eq (.struct ..)]
    rfl
  | .enum variants => by
    rw [references, variantsReferences_eq variants, nodes_eq (.enum ..)]
    rfl

theorem typesReferences_eq : (types : List TypeExpr) →
    typesReferences types = (types.flatMap nodes).filterMap referenceName?
  | [] => rfl
  | t :: rest => by
    rw [typesReferences, references_eq t, typesReferences_eq rest, List.flatMap_cons,
      List.filterMap_append]

theorem fieldsReferences_eq : (fields : List Field) →
    fieldsReferences fields = ((fields.map Field.type).flatMap nodes).filterMap referenceName?
  | [] => rfl
  | ⟨_, type, _⟩ :: rest => by
    rw [fieldsReferences, references_eq type, fieldsReferences_eq rest, List.map_cons,
      List.flatMap_cons, List.filterMap_append]

theorem variantsReferences_eq : (variants : List Variant) →
    variantsReferences variants =
      ((TypeExpr.enum variants).children.flatMap nodes).filterMap referenceName?
  | [] => rfl
  | ⟨_, fields, items⟩ :: rest => by
    rw [variantsReferences, fieldsReferences_eq fields, typesReferences_eq items,
      variantsReferences_eq rest, children, children, List.flatMap_cons, List.flatMap_append,
      List.flatMap_append, List.filterMap_append, List.filterMap_append]

end

/-- **The collected names are those of the references among the nodes in pre-order, each at its
first occurrence.**  So no name is collected twice, and a name is collected if and only if the type
expression refers to it. -/
theorem definedNames_preorder (t : TypeExpr) :
    t.definedNames = firstOccurrences (t.nodes.filterMap referenceName?) ∧
    t.definedNames.Nodup ∧ ∀ N, N ∈ t.definedNames ↔ t.Refers N := by
  have hnames : t.definedNames = (t.nodes.filterMap referenceName?).eraseDups := by
    rw [definedNames_eq, references_eq]
  refine ⟨?_, ?_, fun N => ?_⟩
  · rw [hnames, eraseDups_eq_firstOccurrences]
  · rw [hnames]
    exact nodup_eraseDups _
  · rw [definedNames_eq, List.mem_eraseDups, mem_references_iff]

/-- The fields of a variant come before its types by position, and a name stays where it is met
first. -/
example : definedNames (.struct
    [⟨"order", .defined "Order" [.defined "Side" []], []⟩,
      ⟨"event", .enum [⟨"Fill", [⟨"by", .defined "User" [], []⟩],
        [.defined "Side" [], .container .vec (.defined "Order" [])]⟩], []⟩]) =
    ["Order", "Side", "User"] := by decide

end TypeExpr
end AnchorIdl
