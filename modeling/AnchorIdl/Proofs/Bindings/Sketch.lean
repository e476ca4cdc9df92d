/-
# Sketches of expressions

Whatever part of a schema an expression is built for, the expressions for the
types in it are written by one function, `writeType`, which is told how many
brackets are open where its result goes.  A *sketch* is an expression with a
hole for each of these results; a hole holds the type expression and the number
of brackets that `writeType` is told.

| part | sketch | holes |
| --- | --- | --- |
| type expression | `typeSketch` | its elements, generics, fields and items |
| field, variant | `fieldSketch`, `variantSketch` | their types |
| instruction | `instructionSketch` | the types of its arguments |
| custom type | `typeDefinitionSketch` | the types in it |
| schema | `schemaSketch` | the types of its instructions and custom types |

Lowering a part is filling the holes of its sketch from left to right
(`lowerType_eq`, `lowerSchema_eq`), so the calls of `writeType` are the holes of
the sketches and no others.  A sketch looks only one type expression deep: its
holes hold type expressions that are part of the one that it is for
(`sizeOf_lt_of_has`).
-/

import AnchorIdl.Proofs.Bindings.Draft

namespace AnchorIdl
namespace Bindings

/-- An expression with holes, each for a type expression and a number of open brackets. -/
inductive Sketch
  | leaf (e : Expr)
  | hole (type : TypeExpr) (depth : Nat)
  | list (layout : Layout) (items : List Sketch)
  | call (layout : Layout) (callee : Constructor) (arguments : List (Text × Sketch))

/-- Write a type expression where `depth` brackets are open. -/
def writeType (binding : Text) (t : TypeExpr) (depth : Nat) : Lowering Expr :=
  place binding depth (lowerType binding t)

section Fill

variable (write : TypeExpr → Nat → Lowering Expr)

mutual

/-- Fill the holes of a sketch, and record the calls outside them. -/
def Sketch.fill : Sketch → Lowering Expr
  | .leaf e => record e
  | .hole t depth => write t depth
  | .list layout items => do
    let es ← fillItems items
    return .list layout es
  | .call layout callee arguments => do
    let es ← fillArguments arguments
    Bindings.call layout callee es

/-- Fill the holes of some items, from left to right. -/
def fillItems : List Sketch → Lowering (List Expr)
  | [] => return []
  | s :: rest => do
    let e ← s.fill
    let es ← fillItems rest
    return e :: es

/-- Fill the holes of some arguments, from left to right. -/
def fillArguments : List (Text × Sketch) → Lowering (List (Text × Expr))
  | [] => return []
  | (key, s) :: rest => do
    let e ← s.fill
    let es ← fillArguments rest
    return (key, e) :: es

end

end Fill

/-- A sketch has a hole for a type expression. -/
inductive Sketch.Has : Sketch → TypeExpr → Nat → Prop
  | hole (t : TypeExpr) (depth : Nat) : Has (.hole t depth) t depth
  | item {layout : Layout} {items : List Sketch} {s : Sketch} {t : TypeExpr} {depth : Nat}
      (mem : s ∈ items) (h : s.Has t depth) : Has (.list layout items) t depth
  | argument {layout : Layout} {callee : Constructor} {arguments : List (Text × Sketch)}
      {a : Text × Sketch} {t : TypeExpr} {depth : Nat} (mem : a ∈ arguments)
      (h : a.2.Has t depth) : Has (.call layout callee arguments) t depth

/-! ### The sketches of a schema -/

/-- Arguments without holes. -/
def leaves (arguments : List (Text × Expr)) : List (Text × Sketch) :=
  arguments.map fun a => (a.1, .leaf a.2)

/-- An argument that holds a list on one line, if the list is not empty. -/
def listSketch (key : Text) : List Sketch → List (Text × Sketch)
  | [] => []
  | items => [(key, .list .line items)]

/-- Holes for some type expressions. -/
def holes (types : List TypeExpr) (depth : Nat) : List Sketch := types.map (.hole · depth)

/-- The sketch for a field inside `depth` open brackets. -/
def fieldSketch (depth : Nat) (f : Field) : Sketch :=
  .call .line .fieldDef
    (("name", .leaf (.text f.name)) :: ("type", .hole f.type (depth + 1)) ::
      leaves (docsArgument f.docs))

/-- The sketch for a variant inside `depth` open brackets. -/
def variantSketch (depth : Nat) (v : Variant) : Sketch :=
  .call .line .enumVariant
    (("name", .leaf (.text v.name)) ::
      (listSketch "fields" (v.fields.map (fieldSketch (depth + 2))) ++
        listSketch "items" (holes v.items (depth + 2))))

/-- The sketch for a type expression inside `depth` open brackets. -/
def typeSketch (depth : Nat) : TypeExpr → Sketch
  | .primitive p => .call .line .primitiveType [("name", .leaf (.text p.name))]
  | .array element length =>
    .call .line .arrayType [("element", .hole element (depth + 1)), ("length", .leaf (.int length))]
  | .container shape element =>
    .call .line (containerConstructor shape) [("element", .hole element (depth + 1))]
  | .defined name generics =>
    .call .line .definedType
      (("name", .leaf (.text name)) :: listSketch "generics" (holes generics (depth + 2)))
  | .struct fields =>
    .call .line .structType [("fields", .list .line (fields.map (fieldSketch (depth + 2))))]
  | .enum variants =>
    .call .line .enumType [("variants", .list .line (variants.map (variantSketch (depth + 2))))]

/-- The sketch for an argument. -/
def argSketch (a : Arg) : Sketch :=
  .call .line .arg [("name", .leaf (.text a.name)), ("type", .hole a.type 5)]

/-- The sketch for an instruction. -/
def instructionSketch (i : Instruction) : Sketch :=
  let start : List (Text × Sketch) :=
    [("name", .leaf (.text i.name)), ("discriminator", .leaf (.bytes i.discriminator)),
      ("accounts", .leaf (.list .block (i.accounts.map accountExpr))),
      ("args", .list .block (i.args.map argSketch))]
  .call .block .instruction (start ++ leaves (docsArgument i.docs))

/-- The sketch for the type of a custom type. -/
def definitionSketch : TypeExpr → Sketch
  | .struct fields =>
    .call .block .structType [("fields", .list .block (fields.map (fieldSketch 5)))]
  | .enum variants =>
    .call .block .enumType [("variants", .list .block (variants.map (variantSketch 5)))]
  | t => .hole t 3

/-- The sketch for a custom type. -/
def typeDefinitionSketch (t : TypeDefinition) : Sketch :=
  .call .block .typeDefinition
    (("name", .leaf (.text t.name)) :: ("type", definitionSketch t.type) ::
      leaves (docsArgument t.docs))

/-- The sketch for a schema. -/
def schemaSketch (s : Schema) : Sketch :=
  .call .block .schema
    [("address", .leaf (.text s.address)), ("metadata", .leaf (metadataExpr s.metadata)),
      ("instructions", .list .block (s.instructions.map instructionSketch)),
      ("accounts", .leaf (.list .block (s.accounts.map accountDefinitionExpr))),
      ("errors", .leaf (.list .block (s.errors.map errorExpr))),
      ("types", .list .block (s.types.map typeDefinitionSketch))]

/-! ### Holes -/

section Has

variable {t : TypeExpr} {depth : Nat}

@[simp] theorem has_leaf (e : Expr) : (Sketch.leaf e).Has t depth ↔ False :=
  ⟨nofun, False.elim⟩

@[simp] theorem has_hole (u : TypeExpr) (k : Nat) :
    (Sketch.hole u k).Has t depth ↔ u = t ∧ k = depth := by
  constructor
  · rintro ⟨⟩
    exact ⟨rfl, rfl⟩
  · rintro ⟨rfl, rfl⟩
    exact .hole u k

@[simp] theorem has_list (layout : Layout) (items : List Sketch) :
    (Sketch.list layout items).Has t depth ↔ ∃ s ∈ items, s.Has t depth := by
  constructor
  · rintro ⟨⟩
    exact ⟨_, ‹_›, ‹_›⟩
  · rintro ⟨s, mem, h⟩
    exact .item mem h

@[simp] theorem has_call (layout : Layout) (callee : Constructor)
    (arguments : List (Text × Sketch)) :
    (Sketch.call layout callee arguments).Has t depth ↔ ∃ a ∈ arguments, a.2.Has t depth := by
  constructor
  · rintro ⟨⟩
    exact ⟨_, ‹_›, ‹_›⟩
  · rintro ⟨a, mem, h⟩
    exact .argument mem h

theorem not_has_leaves {arguments : List (Text × Expr)} {a : Text × Sketch}
    (ha : a ∈ leaves arguments) : ¬ a.2.Has t depth := by
  obtain ⟨b, -, rfl⟩ := List.mem_map.1 ha
  exact nofun

theorem exists_has_listSketch {key : Text} {items : List Sketch} {a : Text × Sketch}
    (ha : a ∈ listSketch key items) (h : a.2.Has t depth) : ∃ s ∈ items, s.Has t depth := by
  cases items with
  | nil => simp [listSketch] at ha
  | cons s rest =>
    rw [List.mem_singleton.1 ha, has_list] at h
    exact h

theorem has_holes {types : List TypeExpr} {k : Nat} (h : ∃ s ∈ holes types k, s.Has t depth) :
    t ∈ types ∧ depth = k := by
  obtain ⟨s, hs, h⟩ := h
  obtain ⟨u, hu, rfl⟩ := List.mem_map.1 hs
  obtain ⟨rfl, rfl⟩ := (has_hole u k).1 h
  exact ⟨hu, rfl⟩

theorem sizeOf_lt_of_has_field {f : Field} {k : Nat} (h : (fieldSketch k f).Has t depth) :
    sizeOf t < sizeOf f := by
  obtain ⟨name, type, docs⟩ := f
  obtain ⟨a, ha, h⟩ := (has_call ..).1 h
  simp only [List.mem_cons] at ha
  rcases ha with rfl | rfl | ha
  · simp at h
  · obtain ⟨rfl, -⟩ := (has_hole ..).1 h
    rw [Field.mk.sizeOf_spec]
    omega
  · exact absurd h (not_has_leaves ha)

theorem sizeOf_lt_of_has_fields {fields : List Field} {k : Nat}
    (h : ∃ s ∈ fields.map (fieldSketch k), s.Has t depth) : sizeOf t < sizeOf fields := by
  obtain ⟨s, hs, h⟩ := h
  obtain ⟨f, hf, rfl⟩ := List.mem_map.1 hs
  have := sizeOf_lt_of_has_field h
  have := List.sizeOf_lt_of_mem hf
  omega

theorem sizeOf_lt_of_has_holes {types : List TypeExpr} {k : Nat}
    (h : ∃ s ∈ holes types k, s.Has t depth) : sizeOf t < sizeOf types :=
  List.sizeOf_lt_of_mem (has_holes h).1

theorem sizeOf_lt_of_has_variant {v : Variant} {k : Nat} (h : (variantSketch k v).Has t depth) :
    sizeOf t < sizeOf v := by
  obtain ⟨name, fields, items⟩ := v
  obtain ⟨a, ha, h⟩ := (has_call ..).1 h
  rw [List.mem_cons, List.mem_append] at ha
  rcases ha with rfl | ha | ha
  · simp at h
  · have : sizeOf t < sizeOf fields := sizeOf_lt_of_has_fields (exists_has_listSketch ha h)
    rw [Variant.mk.sizeOf_spec]
    omega
  · have : sizeOf t < sizeOf items := sizeOf_lt_of_has_holes (exists_has_listSketch ha h)
    rw [Variant.mk.sizeOf_spec]
    omega

/-- **The holes of the sketch for a type expression hold smaller ones.** -/
theorem sizeOf_lt_of_has {u : TypeExpr} {k : Nat} (h : (typeSketch k u).Has t depth) :
    sizeOf t < sizeOf u := by
  cases u with
  | primitive p => simp [typeSketch] at h
  | array element length =>
    obtain ⟨rfl, -⟩ : element = t ∧ k + 1 = depth := by simpa [typeSketch] using h
    rw [TypeExpr.array.sizeOf_spec]
    omega
  | container shape element =>
    obtain ⟨rfl, -⟩ : element = t ∧ k + 1 = depth := by simpa [typeSketch] using h
    rw [TypeExpr.container.sizeOf_spec]
    omega
  | defined name generics =>
    obtain ⟨a, ha, h⟩ := (has_call ..).1 h
    rcases List.mem_cons.1 ha with rfl | ha
    · simp at h
    · have := sizeOf_lt_of_has_holes (exists_has_listSketch ha h)
      rw [TypeExpr.defined.sizeOf_spec]
      omega
  | struct fields =>
    obtain ⟨a, ha, h⟩ := (has_call ..).1 h
    rw [List.mem_singleton.1 ha, has_list] at h
    have := sizeOf_lt_of_has_fields h
    rw [TypeExpr.struct.sizeOf_spec]
    omega
  | enum variants =>
    obtain ⟨a, ha, h⟩ := (has_call ..).1 h
    rw [List.mem_singleton.1 ha, has_list] at h
    obtain ⟨s, hs, h⟩ := h
    obtain ⟨v, hv, rfl⟩ := List.mem_map.1 hs
    have := sizeOf_lt_of_has_variant h
    have := List.sizeOf_lt_of_mem hv
    rw [TypeExpr.enum.sizeOf_spec]
    omega

end Has

/-! ### Filling -/

section Fill

variable {write : TypeExpr → Nat → Lowering Expr}

theorem fillItems_map {α : Type} (f : α → Sketch) (xs : List α) :
    fillItems write (xs.map f) = xs.mapM fun x => (f x).fill write := by
  induction xs with
  | nil => rfl
  | cons x xs ih => rw [List.map_cons, fillItems, ih, List.mapM_cons]

theorem fillItems_append (xs ys : List Sketch) :
    fillItems write (xs ++ ys) = do
      let es ← fillItems write xs
      let fs ← fillItems write ys
      return es ++ fs := by
  induction xs with
  | nil => simp [fillItems]
  | cons s xs ih => simp [fillItems, ih]

theorem fillArguments_append (xs ys : List (Text × Sketch)) :
    fillArguments write (xs ++ ys) = do
      let es ← fillArguments write xs
      let fs ← fillArguments write ys
      return es ++ fs := by
  induction xs with
  | nil => simp [fillArguments]
  | cons a xs ih => simp [fillArguments, ih]

theorem fillArguments_leaves {arguments : List (Text × Expr)}
    (h : ∀ a ∈ arguments, a.2.callees = []) :
    fillArguments write (leaves arguments) = return arguments := by
  induction arguments with
  | nil => rfl
  | cons a rest ih =>
    rw [List.forall_mem_cons] at h
    have hleaves : leaves (a :: rest) = (a.1, .leaf a.2) :: leaves rest := rfl
    simp [hleaves, fillArguments, Sketch.fill, record_of_nil h.1, ih h.2]

theorem fillArguments_docs (docs : List Text) :
    fillArguments write (leaves (docsArgument docs)) = return docsArgument docs :=
  fillArguments_leaves (callees_docsArgument docs)

theorem fillArguments_listSketch (key : Text) (items : List Sketch) :
    fillArguments write (listSketch key items) =
      listArgument key <$> fillItems write items := by
  cases items with
  | nil => simp [listSketch, fillArguments, fillItems, listArgument]
  | cons s rest => simp [listSketch, fillArguments, fillItems, Sketch.fill, listArgument]

end Fill

/-! ### Lowering is filling -/

section Lowering

variable (binding : Text)

theorem lowerTypes_eq (types : List TypeExpr) (depth : Nat) :
    lowerTypes binding types depth = fillItems (writeType binding) (holes types depth) := by
  induction types with
  | nil => rfl
  | cons t rest ih =>
    have hholes : holes (t :: rest) depth = .hole t depth :: holes rest depth := rfl
    rw [lowerTypes, hholes, fillItems, ih, Sketch.fill, writeType]

theorem lowerField_eq (f : Field) (depth : Nat) :
    lowerField binding f depth = (fieldSketch depth f).fill (writeType binding) := by
  obtain ⟨name, type, docs⟩ := f
  simp [lowerField, fieldSketch, Sketch.fill, fillArguments, fillArguments_docs, writeType]

theorem lowerFields_eq (fields : List Field) (depth : Nat) :
    lowerFields binding fields depth =
      fillItems (writeType binding) (fields.map (fieldSketch depth)) := by
  induction fields with
  | nil => rfl
  | cons f rest ih => rw [lowerFields, List.map_cons, fillItems, ih, lowerField_eq]

theorem lowerVariant_eq (v : Variant) (depth : Nat) :
    lowerVariant binding v depth = (variantSketch depth v).fill (writeType binding) := by
  obtain ⟨name, fields, items⟩ := v
  simp [lowerVariant, variantSketch, Sketch.fill, fillArguments, fillArguments_append,
    fillArguments_listSketch, lowerFields_eq, lowerTypes_eq]

theorem lowerVariants_eq (variants : List Variant) (depth : Nat) :
    lowerVariants binding variants depth =
      fillItems (writeType binding) (variants.map (variantSketch depth)) := by
  induction variants with
  | nil => rfl
  | cons v rest ih => rw [lowerVariants, List.map_cons, fillItems, ih, lowerVariant_eq]

/-- **Lowering a type expression fills its sketch.** -/
theorem lowerType_eq (t : TypeExpr) (depth : Nat) :
    lowerType binding t depth = (typeSketch depth t).fill (writeType binding) := by
  cases t with
  | primitive p => simp [lowerType, typeSketch, Sketch.fill, fillArguments]
  | array element length =>
    simp [lowerType, typeSketch, Sketch.fill, fillArguments, writeType]
  | container shape element =>
    simp [lowerType, typeSketch, Sketch.fill, fillArguments, writeType]
  | defined name generics =>
    simp [lowerType, typeSketch, Sketch.fill, fillArguments, fillArguments_listSketch,
      lowerTypes_eq]
  | struct fields => simp [lowerType, typeSketch, Sketch.fill, fillArguments, lowerFields_eq]
  | enum variants => simp [lowerType, typeSketch, Sketch.fill, fillArguments, lowerVariants_eq]

theorem lowerDefinition_eq (t : TypeExpr) :
    lowerDefinition binding t = (definitionSketch t).fill (writeType binding) := by
  cases t with
  | struct fields =>
    simp [lowerDefinition, definitionSketch, Sketch.fill, fillArguments, lowerFields_eq]
  | enum variants =>
    simp [lowerDefinition, definitionSketch, Sketch.fill, fillArguments, lowerVariants_eq]
  | primitive _ | array _ _ | container _ _ | defined _ _ => rfl

theorem lowerArg_eq (a : Arg) :
    lowerArg binding a = (argSketch a).fill (writeType binding) := by
  simp [lowerArg, argSketch, Sketch.fill, fillArguments, writeType]

theorem lowerInstruction_eq (i : Instruction) :
    lowerInstruction binding i = (instructionSketch i).fill (writeType binding) := by
  simp [lowerInstruction, instructionSketch, Sketch.fill, fillArguments, fillArguments_docs,
    fillItems_map, ← lowerArg_eq, mapM_eq_record lowerAccount_eq _ .block]
  rfl

theorem lowerTypeDefinition_eq (t : TypeDefinition) :
    lowerTypeDefinition binding t = (typeDefinitionSketch t).fill (writeType binding) := by
  simp [lowerTypeDefinition, typeDefinitionSketch, Sketch.fill, fillArguments,
    fillArguments_docs, lowerDefinition_eq]

/-- **Lowering a schema fills its sketch.** -/
theorem lowerSchema_eq (s : Schema) :
    lowerSchema binding s = (schemaSketch s).fill (writeType binding) := by
  simp [lowerSchema, schemaSketch, Sketch.fill, fillArguments, fillItems_map,
    ← lowerInstruction_eq, ← lowerTypeDefinition_eq, lowerMetadata_eq,
    mapM_eq_record lowerAccountDefinition_eq _ .block, mapM_eq_record lowerError_eq _ .block]
  rfl

end Lowering

end Bindings
end AnchorIdl
