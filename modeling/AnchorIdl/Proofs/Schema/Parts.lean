/-
# The parts of a schema

A schema is put together from parts, each of which belongs to a class.  They are
listed as they are completed: a part comes after its own parts, and these from
left to right in the order of the fields, so a schema is the last of its parts.
-/

import AnchorIdl.Schema.Model

namespace AnchorIdl

mutual

/-- The parts of a type expression, itself the last. -/
def TypeExpr.parts : TypeExpr → List Model
  | .primitive p => [.typeExpr (.primitive p)]
  | .array element length => element.parts ++ [.typeExpr (.array element length)]
  | .container shape element => element.parts ++ [.typeExpr (.container shape element)]
  | .defined name generics => typesParts generics ++ [.typeExpr (.defined name generics)]
  | .struct fields => fieldsParts fields ++ [.typeExpr (.struct fields)]
  | .enum variants => variantsParts variants ++ [.typeExpr (.enum variants)]

/-- The parts of some type expressions. -/
def typesParts : List TypeExpr → List Model
  | [] => []
  | t :: rest => t.parts ++ typesParts rest

/-- The parts of some fields. -/
def fieldsParts : List Field → List Model
  | [] => []
  | ⟨name, type, docs⟩ :: rest => type.parts ++ [.field ⟨name, type, docs⟩] ++ fieldsParts rest

/-- The parts of some variants. -/
def variantsParts : List Variant → List Model
  | [] => []
  | ⟨name, fields, items⟩ :: rest =>
    fieldsParts fields ++ typesParts items ++ [.variant ⟨name, fields, items⟩] ++
      variantsParts rest

end

/-- The parts of a field. -/
def Field.parts (f : Field) : List Model := f.type.parts ++ [.field f]

/-- The parts of a variant. -/
def Variant.parts (v : Variant) : List Model :=
  v.fields.flatMap Field.parts ++ v.items.flatMap TypeExpr.parts ++ [.variant v]

/-- A seed has no parts but itself. -/
def Seed.parts (s : Seed) : List Model := [.seed s]

/-- The parts of a rule. -/
def Pda.parts (p : Pda) : List Model :=
  p.seeds.flatMap Seed.parts ++ p.program.toList.flatMap Seed.parts ++ [.pda p]

/-- The parts of an account slot. -/
def AccountRef.parts (a : AccountRef) : List Model :=
  a.pda.toList.flatMap Pda.parts ++ [.accountRef a]

/-- The parts of an account layout. -/
def AccountDefinition.parts (a : AccountDefinition) : List Model :=
  a.pda.toList.flatMap Pda.parts ++ [.accountDefinition a]

/-- The parts of an argument. -/
def Arg.parts (a : Arg) : List Model := a.type.parts ++ [.arg a]

/-- The parts of an instruction. -/
def Instruction.parts (x : Instruction) : List Model :=
  x.accounts.flatMap AccountRef.parts ++ x.args.flatMap Arg.parts ++ [.instruction x]

/-- An error has no parts but itself. -/
def ErrorDefinition.parts (e : ErrorDefinition) : List Model := [.errorDefinition e]

/-- The parts of a custom type. -/
def TypeDefinition.parts (d : TypeDefinition) : List Model := d.type.parts ++ [.typeDefinition d]

/-- The parts of a schema. -/
def Schema.parts (S : Schema) : List Model :=
  [.metadata S.metadata] ++ S.instructions.flatMap Instruction.parts ++
    S.accounts.flatMap AccountDefinition.parts ++ S.errors.flatMap ErrorDefinition.parts ++
    S.types.flatMap TypeDefinition.parts ++ [.schema S]

/-! ### Lists of parts -/

theorem flatMap_flatten {α β : Type} (f : α → List β) (groups : List (List α)) :
    groups.flatten.flatMap f = groups.flatMap fun group => group.flatMap f := by
  rw [List.flatten_eq_flatMap, List.flatMap_assoc]
  rfl

@[simp] theorem typesParts_eq (types : List TypeExpr) :
    typesParts types = types.flatMap TypeExpr.parts := by
  induction types with
  | nil => rfl
  | cons t rest ih => rw [typesParts, ih, List.flatMap_cons]

@[simp] theorem fieldsParts_eq (fields : List Field) :
    fieldsParts fields = fields.flatMap Field.parts := by
  induction fields with
  | nil => rfl
  | cons f rest ih =>
    obtain ⟨name, type, docs⟩ := f
    rw [fieldsParts, ih, List.flatMap_cons, Field.parts]

@[simp] theorem variantsParts_eq (variants : List Variant) :
    variantsParts variants = variants.flatMap Variant.parts := by
  induction variants with
  | nil => rfl
  | cons v rest ih =>
    obtain ⟨name, fields, items⟩ := v
    rw [variantsParts, ih, List.flatMap_cons, Variant.parts, fieldsParts_eq, typesParts_eq]

end AnchorIdl
