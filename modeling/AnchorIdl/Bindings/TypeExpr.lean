/-
# Type expressions in a bindings module

A type expression is written as a constructor call on one line.  Brackets may
nest only so deep, so a sub-expression that would stand inside `maxNesting`
open brackets or more becomes a *helper*, a name bound to the sub-expression on
a line of its own before the schema; inside the helper no bracket is open yet.
A helper's own helpers are bound before it.

What is written in the meantime is kept in a *draft*: the helpers so far, and
the constructors that were called so far, whether their calls end up in a
helper or not.  `call` is the only way to write a call.

`place` decides whether an expression becomes a helper; the other functions
build the call at a place where `depth` brackets are open.

Source: `idlforge.codegen.python` (`_type`, `_hoist`, `_field`, `_variant`, the
first half of `_type_definition`; `_used` and `_helpers`).
-/

import AnchorIdl.Bindings.Expr
import AnchorIdl.Schema.Basic

namespace AnchorIdl
namespace Bindings

/-- How many open brackets a type expression may stand inside. -/
def maxNesting : Nat := 100

/-- A name bound to a type expression before the schema. -/
abbrev Helper := Text × Expr

/-- What has been written beside the expression that is being built: the helpers, in order, and the
constructors that were called, each once. -/
structure Draft where
  helpers : List Helper := []
  used : List Constructor := []
  deriving Inhabited

/-- A draft after one more call. -/
def Draft.use (d : Draft) (c : Constructor) : Draft := { d with used := d.used.insert c }

/-- Building an expression, with the draft as state. -/
abbrev Lowering := StateM Draft

/-- Write a call. -/
def call (layout : Layout) (callee : Constructor) (arguments : List (Text × Expr)) :
    Lowering Expr := do
  modify (Draft.use · callee)
  return .call layout callee arguments

/-- The name of the helper with number `k`; an underscore keeps it apart from the binding. -/
def helperName (binding : Text) (k : Nat) : Text :=
  let name := "_type_" ++ Text.ofNat k
  if name = binding then name ++ "_" else name

/-- Bind an expression to the next helper and refer to it. -/
def hoist (binding : Text) (e : Expr) : Lowering Expr := do
  let draft ← get
  let name := helperName binding draft.helpers.length
  set { draft with helpers := draft.helpers ++ [(name, e)] }
  return .name name

/-- Put what `build` makes where `depth` brackets are open, or make it a helper. -/
def place (binding : Text) (depth : Nat) (build : Nat → Lowering Expr) : Lowering Expr := do
  if depth < maxNesting then build depth
  else
    let e ← build 0
    hoist binding e

/-- The constructor of a container. -/
def containerConstructor : Container → Constructor
  | .vec => .vecType
  | .option => .optionType
  | .coption => .cOptionType

/-- The argument that documents a part, if it has documentation. -/
def docsArgument : List Text → List (Text × Expr)
  | [] => []
  | docs => [("docs", .texts docs)]

/-- An argument that holds a list on one line, if the list is not empty. -/
def listArgument (key : Text) : List Expr → List (Text × Expr)
  | [] => []
  | items => [(key, .list .line items)]

mutual

/-- The call for a type expression inside `depth` open brackets. -/
def lowerType (binding : Text) : TypeExpr → (depth : Nat) → Lowering Expr
  | .primitive p, _ => call .line .primitiveType [("name", .text p.name)]
  | .array element length, depth => do
    let e ← place binding (depth + 1) (lowerType binding element)
    call .line .arrayType [("element", e), ("length", .int length)]
  | .container shape element, depth => do
    let e ← place binding (depth + 1) (lowerType binding element)
    call .line (containerConstructor shape) [("element", e)]
  | .defined name generics, depth => do
    let es ← lowerTypes binding generics (depth + 2)
    call .line .definedType (("name", .text name) :: listArgument "generics" es)
  | .struct fields, depth => do
    let es ← lowerFields binding fields (depth + 2)
    call .line .structType [("fields", .list .line es)]
  | .enum variants, depth => do
    let es ← lowerVariants binding variants (depth + 2)
    call .line .enumType [("variants", .list .line es)]

/-- The calls for type expressions, each inside `depth` open brackets. -/
def lowerTypes (binding : Text) : List TypeExpr → (depth : Nat) → Lowering (List Expr)
  | [], _ => return []
  | t :: rest, depth => do
    let e ← place binding depth (lowerType binding t)
    let es ← lowerTypes binding rest depth
    return e :: es

/-- The call for a field inside `depth` open brackets. -/
def lowerField (binding : Text) : Field → (depth : Nat) → Lowering Expr
  | ⟨name, type, docs⟩, depth => do
    let e ← place binding (depth + 1) (lowerType binding type)
    call .line .fieldDef (("name", .text name) :: ("type", e) :: docsArgument docs)

/-- The calls for fields, each inside `depth` open brackets. -/
def lowerFields (binding : Text) : List Field → (depth : Nat) → Lowering (List Expr)
  | [], _ => return []
  | f :: rest, depth => do
    let e ← lowerField binding f depth
    let es ← lowerFields binding rest depth
    return e :: es

/-- The call for a variant inside `depth` open brackets. -/
def lowerVariant (binding : Text) : Variant → (depth : Nat) → Lowering Expr
  | ⟨name, fields, items⟩, depth => do
    let fs ← lowerFields binding fields (depth + 2)
    let ts ← lowerTypes binding items (depth + 2)
    call .line .enumVariant
      (("name", .text name) :: (listArgument "fields" fs ++ listArgument "items" ts))

/-- The calls for variants, each inside `depth` open brackets. -/
def lowerVariants (binding : Text) : List Variant → (depth : Nat) → Lowering (List Expr)
  | [], _ => return []
  | v :: rest, depth => do
    let e ← lowerVariant binding v depth
    let es ← lowerVariants binding rest depth
    return e :: es

end

/-- The type of a custom type: a struct or an enum has a line for each field or variant, any other
type is one line.  The brackets of the schema, of its list of types and of the custom type are
open, and around a field or a variant also those of the type and of its list. -/
def lowerDefinition (binding : Text) : TypeExpr → Lowering Expr
  | .struct fields => do
    let es ← lowerFields binding fields 5
    call .block .structType [("fields", .list .block es)]
  | .enum variants => do
    let es ← lowerVariants binding variants 5
    call .block .enumType [("variants", .list .block es)]
  | t => place binding 3 (lowerType binding t)

end Bindings
end AnchorIdl
