/-
# The plain form of a schema

Every part of a schema has a plain form: the JSON object of all its fields,
absent ones as null, bytes as lists of numbers, and every type expression with
its tag under `kind`.

Source: the dump form of the classes in `idlforge.core.ir`.
-/

import AnchorIdl.Json.Basic
import AnchorIdl.Schema.Basic

namespace AnchorIdl

namespace TypeExpr

mutual

/-- The plain form of a type expression. -/
def toPlain : TypeExpr → Json
  | .primitive p => .obj [("kind", .str "primitive"), ("name", .str p.name)]
  | .array element length =>
    .obj [("kind", .str "array"), ("element", toPlain element), ("length", .int length)]
  | .container shape element => .obj [("kind", .str shape.tag), ("element", toPlain element)]
  | .defined name generics =>
    .obj [("kind", .str "defined"), ("name", .str name), ("generics", .arr (typesToPlain generics))]
  | .struct fields => .obj [("kind", .str "struct"), ("fields", .arr (fieldsToPlain fields))]
  | .enum variants => .obj [("kind", .str "enum"), ("variants", .arr (variantsToPlain variants))]

/-- The plain forms of type expressions. -/
def typesToPlain : List TypeExpr → List Json
  | [] => []
  | t :: rest => toPlain t :: typesToPlain rest

/-- The plain form of a field. -/
def fieldToPlain : Field → Json
  | ⟨name, type, docs⟩ =>
    .obj [("name", .str name), ("type", toPlain type), ("docs", Json.ofTexts docs)]

/-- The plain forms of fields. -/
def fieldsToPlain : List Field → List Json
  | [] => []
  | f :: rest => fieldToPlain f :: fieldsToPlain rest

/-- The plain form of a variant. -/
def variantToPlain : Variant → Json
  | ⟨name, fields, items⟩ =>
    .obj [("name", .str name), ("fields", .arr (fieldsToPlain fields)),
      ("items", .arr (typesToPlain items))]

/-- The plain forms of variants. -/
def variantsToPlain : List Variant → List Json
  | [] => []
  | v :: rest => variantToPlain v :: variantsToPlain rest

end

end TypeExpr

/-- The plain form of a field. -/
def Field.toPlain (f : Field) : Json := TypeExpr.fieldToPlain f

/-- The plain form of a variant. -/
def Variant.toPlain (v : Variant) : Json := TypeExpr.variantToPlain v

/-- The plain form of a seed. -/
def Seed.toPlain (s : Seed) : Json :=
  .obj [("kind", .str s.kind.name), ("value", .ofOption .ofBytes s.value),
    ("path", .ofOption .str s.path), ("account", .ofOption .str s.account),
    ("text", .ofOption .str s.text)]

/-- The plain form of a rule for an address. -/
def Pda.toPlain (p : Pda) : Json :=
  .obj [("seeds", .arr (p.seeds.map Seed.toPlain)), ("program", .ofOption Seed.toPlain p.program)]

/-- The members of the plain form of an account slot. -/
def AccountRef.plainMembers (a : AccountRef) : Members :=
  [("name", .str a.name), ("writable", .bool a.writable), ("signer", .bool a.signer),
    ("optional", .bool a.optional), ("address", .ofOption .str a.address),
    ("pda", .ofOption Pda.toPlain a.pda), ("docs", .ofTexts a.docs)]

/-- The plain form of an account slot. -/
def AccountRef.toPlain (a : AccountRef) : Json := .obj a.plainMembers

/-- The plain form of an account layout. -/
def AccountDefinition.toPlain (a : AccountDefinition) : Json :=
  let own : Members := [("discriminator", .ofOption .ofBytes a.discriminator)]
  .obj (a.plainMembers ++ own)

/-- The plain form of a program's metadata. -/
def Metadata.toPlain (m : Metadata) : Json :=
  .obj [("name", .str m.name), ("version", .str m.version), ("spec", .str m.spec),
    ("description", .str m.description)]

/-- The plain form of an argument. -/
def Arg.toPlain (a : Arg) : Json := .obj [("name", .str a.name), ("type", a.type.toPlain)]

/-- The plain form of an instruction. -/
def Instruction.toPlain (i : Instruction) : Json :=
  .obj [("name", .str i.name), ("discriminator", .ofBytes i.discriminator),
    ("accounts", .arr (i.accounts.map AccountRef.toPlain)), ("args", .arr (i.args.map Arg.toPlain)),
    ("docs", .ofTexts i.docs)]

/-- The plain form of an error. -/
def ErrorDefinition.toPlain (e : ErrorDefinition) : Json :=
  .obj [("code", .int e.code), ("name", .str e.name), ("msg", .str e.msg)]

/-- The plain form of a custom type. -/
def TypeDefinition.toPlain (t : TypeDefinition) : Json :=
  .obj [("name", .str t.name), ("type", t.type.toPlain), ("docs", .ofTexts t.docs)]

/-- The plain form of a schema. -/
def Schema.toPlain (s : Schema) : Json :=
  .obj [("address", .str s.address), ("metadata", s.metadata.toPlain),
    ("instructions", .arr (s.instructions.map Instruction.toPlain)),
    ("accounts", .arr (s.accounts.map AccountDefinition.toPlain)),
    ("errors", .arr (s.errors.map ErrorDefinition.toPlain)),
    ("types", .arr (s.types.map TypeDefinition.toPlain))]

end AnchorIdl
