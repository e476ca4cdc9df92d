/-
# The integers of a schema

The integers that a schema holds are the lengths of its arrays and the codes of
its errors.  Beside the bytes of its byte strings it holds no other numbers, so
these are all that a bindings module has to write.

Source: the integer fields of `idlforge.core.ir` (`ArrayType.length`,
`ErrorDefinition.code`).
-/

import AnchorIdl.Schema.Basic

namespace AnchorIdl

mutual

/-- The lengths of the arrays in a type expression. -/
def TypeExpr.integers : TypeExpr → List Int
  | .primitive _ => []
  | .array element length => (length : Int) :: element.integers
  | .container _ element => element.integers
  | .defined _ generics => typesIntegers generics
  | .struct fields => fieldsIntegers fields
  | .enum variants => variantsIntegers variants

/-- The lengths of the arrays in some type expressions. -/
def typesIntegers : List TypeExpr → List Int
  | [] => []
  | t :: rest => t.integers ++ typesIntegers rest

/-- The lengths of the arrays in some fields. -/
def fieldsIntegers : List Field → List Int
  | [] => []
  | ⟨_, type, _⟩ :: rest => type.integers ++ fieldsIntegers rest

/-- The lengths of the arrays in some variants. -/
def variantsIntegers : List Variant → List Int
  | [] => []
  | ⟨_, fields, items⟩ :: rest =>
    fieldsIntegers fields ++ typesIntegers items ++ variantsIntegers rest

end

/-- The integers of a schema. -/
def Schema.integers (S : Schema) : List Int :=
  S.instructions.flatMap (fun x => x.args.flatMap fun a => a.type.integers) ++
    S.errors.map ErrorDefinition.code ++ S.types.flatMap fun d => d.type.integers

end AnchorIdl
