/-
# Expressions of a bindings module

A bindings module rebuilds a schema by constructor calls.  Its expressions are
literals, names, lists, and calls whose arguments all have keywords.  A list or
a call is laid out in one of two ways: `line` keeps it on one line, `block`
gives each item or argument a line of its own, indented one step deeper than
the brackets and closed by a comma.  An empty list is `[]` either way.

`render` writes an expression whose first line is indented by `level` steps
already.

Source: `idlforge.codegen.python` (`_call`, `_inline`, `_list`, `_strings`,
`_bytes_literal`).
-/

import AnchorIdl.Schema.Seed

namespace AnchorIdl
namespace Bindings

/-- The constructors that bindings call. -/
inductive Constructor
  | accountDefinition | accountRef | arg | arrayType | cOptionType | definedType | enumType
  | enumVariant | errorDefinition | fieldDef | instruction | metadata | optionType | pdaRule
  | pdaSeed | primitiveType | schema | structType | typeDefinition | vecType
  deriving DecidableEq, Repr

namespace Constructor

/-- The name of a constructor, which is that of its class. -/
def name : Constructor → Text
  | accountDefinition => "AccountDefinition"
  | accountRef => "AccountRef"
  | arg => "Arg"
  | arrayType => "ArrayType"
  | cOptionType => "COptionType"
  | definedType => "DefinedType"
  | enumType => "EnumType"
  | enumVariant => "EnumVariant"
  | errorDefinition => "ErrorDefinition"
  | fieldDef => "FieldDef"
  | instruction => "Instruction"
  | metadata => "Metadata"
  | optionType => "OptionType"
  | pdaRule => "PdaRule"
  | pdaSeed => "PdaSeed"
  | primitiveType => "PrimitiveType"
  | schema => "Schema"
  | structType => "StructType"
  | typeDefinition => "TypeDefinition"
  | vecType => "VecType"

/-- Whether the name of a constructor does not come after that of another. -/
def le (c d : Constructor) : Bool := Text.le c.name d.name

end Constructor

/-- How the inside of brackets is laid out. -/
inductive Layout
  | line
  | block
  deriving DecidableEq, Repr

/-- An expression of a bindings module. -/
inductive Expr
  | text (value : Text)
  | int (value : Int)
  | bytes (value : Bytes)
  | bool (value : Bool)
  | none
  | name (name : Text)
  | list (layout : Layout) (items : List Expr)
  | call (layout : Layout) (callee : Constructor) (arguments : List (Text × Expr))

namespace Expr

instance : Inhabited Expr := ⟨.none⟩

/-- A call on one line. -/
abbrev inline (callee : Constructor) (arguments : List (Text × Expr)) : Expr :=
  .call .line callee arguments

/-- A call with a line for each argument. -/
abbrev spread (callee : Constructor) (arguments : List (Text × Expr)) : Expr :=
  .call .block callee arguments

/-- A list of texts on one line. -/
def texts (values : List Text) : Expr := .list .line (values.map .text)

/-- An optional text. -/
def textOrNone : Option Text → Expr
  | .none => .none
  | some t => .text t

/-- The blanks that indent a line by `level` steps. -/
def indentation (level : Nat) : Text := List.replicate (4 * level) ' '

/-- Some parts between two brackets: on one line with commas between them, or each on its own line
with a comma after it. -/
def enclose (layout : Layout) (level : Nat) (start stop : Text) (parts : List Text) : Text :=
  match layout with
  | .line => start ++ Text.join ", " parts ++ stop
  | .block =>
    let lines : Text := parts.flatMap fun part => indentation (level + 1) ++ part ++ ",\n"
    start ++ "\n" ++ lines ++ indentation level ++ stop

mutual

/-- An expression as it is written. -/
def render (level : Nat) : Expr → Text
  | .text value => Quoted.literal value
  | .int value => Text.ofInt value
  | .bytes value => "bytes(" ++ Seed.displayBytes value ++ ")"
  | .bool true => "True"
  | .bool false => "False"
  | .none => "None"
  | .name n => n
  | .list _ [] => "[]"
  | .list layout (e :: items) =>
    enclose layout level "[" "]" (render (level + 1) e :: renderItems (level + 1) items)
  | .call layout callee arguments =>
    enclose layout level (callee.name ++ "(") ")" (renderArguments (level + 1) arguments)

/-- Items as they are written. -/
def renderItems (level : Nat) : List Expr → List Text
  | [] => []
  | e :: rest => render level e :: renderItems level rest

/-- Arguments as they are written. -/
def renderArguments (level : Nat) : List (Text × Expr) → List Text
  | [] => []
  | (key, e) :: rest => (key ++ "=" ++ render level e) :: renderArguments level rest

end

end Expr
end Bindings
end AnchorIdl
