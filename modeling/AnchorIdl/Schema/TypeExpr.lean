/-
# Type expressions

The wire type of an argument, a field or a custom type.  A type expression is

| form | written |
| --- | --- |
| a primitive | `u64`, `pubkey`, … |
| an array of fixed length | `[T; n]` |
| a container of one element type | `Vec<T>`, `Option<T>`, `COption<T>` |
| a reference by name, with type arguments | `Name`, `Name<T, U>` |
| a struct of named fields | `struct { a: T, b: U }` |
| an enum of variants | `enum { A, B(T), C { a: U } }` |

References are never resolved here.  `definedNames` lists the names that an
expression refers to, each once, in the order of their first occurrence from
the outside in and from left to right.

Source: `idlforge.core.ir.types` (the type expressions, `iter_defined_names`).
-/

import AnchorIdl.Text.Basic

namespace AnchorIdl

/-- The primitive types. -/
inductive Primitive
  | bool | u8 | i8 | u16 | i16 | u32 | i32 | f32 | u64 | i64 | f64 | u128 | i128 | u256 | i256
  | bytes | string | pubkey
  deriving DecidableEq, Repr

namespace Primitive

/-- The name of a primitive type. -/
def name : Primitive → Text
  | bool => "bool"
  | u8 => "u8"
  | i8 => "i8"
  | u16 => "u16"
  | i16 => "i16"
  | u32 => "u32"
  | i32 => "i32"
  | f32 => "f32"
  | u64 => "u64"
  | i64 => "i64"
  | f64 => "f64"
  | u128 => "u128"
  | i128 => "i128"
  | u256 => "u256"
  | i256 => "i256"
  | bytes => "bytes"
  | string => "string"
  | pubkey => "pubkey"

/-- All primitive types. -/
def all : List Primitive :=
  [bool, u8, i8, u16, i16, u32, i32, f32, u64, i64, f64, u128, i128, u256, i256, bytes, string,
    pubkey]

/-- The primitive type with a given name. -/
def ofName? (t : Text) : Option Primitive := all.find? fun p => p.name = t

end Primitive

/-- The containers of elements of one type. -/
inductive Container
  | vec
  | option
  | coption
  deriving DecidableEq, Repr

namespace Container

/-- The tag of a container in documents. -/
def tag : Container → Text
  | vec => "vec"
  | option => "option"
  | coption => "coption"

/-- The name of a container in a written type. -/
def title : Container → Text
  | vec => "Vec"
  | option => "Option"
  | coption => "COption"

end Container

mutual

/-- A type expression. -/
inductive TypeExpr where
  | primitive (type : Primitive)
  | array (element : TypeExpr) (length : Nat)
  | container (shape : Container) (element : TypeExpr)
  | defined (name : Text) (generics : List TypeExpr)
  | struct (fields : List Field)
  | enum (variants : List Variant)

/-- A named field of a struct or of a variant. -/
structure Field where
  name : Text
  type : TypeExpr
  docs : List Text

/-- A variant of an enum, with named fields, with types by position, or with neither. -/
structure Variant where
  name : Text
  fields : List Field
  items : List TypeExpr

end

namespace TypeExpr

instance : Inhabited TypeExpr := ⟨.primitive .bool⟩

mutual

/-- Equality of type expressions can be decided. -/
def decideEq : (t u : TypeExpr) → Decidable (t = u)
  | .primitive a, .primitive b =>
    if h : a = b then isTrue (h ▸ rfl) else isFalse (by simpa using h)
  | .array a m, .array b n =>
    if hn : m = n then
      match decideEq a b with
      | isTrue h => isTrue (by rw [h, hn])
      | isFalse h => isFalse (by simp [h])
    else isFalse (by simp [hn])
  | .container c a, .container d b =>
    if hc : c = d then
      match decideEq a b with
      | isTrue h => isTrue (by rw [h, hc])
      | isFalse h => isFalse (by simp [h])
    else isFalse (by simp [hc])
  | .defined n a, .defined m b =>
    if hn : n = m then
      match decideEqTypes a b with
      | isTrue h => isTrue (by rw [h, hn])
      | isFalse h => isFalse (by simp [h])
    else isFalse (by simp [hn])
  | .struct a, .struct b =>
    match decideEqFields a b with
    | isTrue h => isTrue (by rw [h])
    | isFalse h => isFalse (by simpa using h)
  | .enum a, .enum b =>
    match decideEqVariants a b with
    | isTrue h => isTrue (by rw [h])
    | isFalse h => isFalse (by simpa using h)
  | .primitive _, .array .. | .primitive _, .container .. | .primitive _, .defined ..
  | .primitive _, .struct _ | .primitive _, .enum _ | .array .., .primitive _
  | .array .., .container .. | .array .., .defined .. | .array .., .struct _ | .array .., .enum _
  | .container .., .primitive _ | .container .., .array .. | .container .., .defined ..
  | .container .., .struct _ | .container .., .enum _ | .defined .., .primitive _
  | .defined .., .array .. | .defined .., .container .. | .defined .., .struct _
  | .defined .., .enum _ | .struct _, .primitive _ | .struct _, .array .. | .struct _, .container ..
  | .struct _, .defined .. | .struct _, .enum _ | .enum _, .primitive _ | .enum _, .array ..
  | .enum _, .container .. | .enum _, .defined .. | .enum _, .struct _ => isFalse nofun

/-- Equality of lists of type expressions can be decided. -/
def decideEqTypes : (t u : List TypeExpr) → Decidable (t = u)
  | [], [] => isTrue rfl
  | [], _ :: _ | _ :: _, [] => isFalse nofun
  | a :: t, b :: u =>
    match decideEq a b, decideEqTypes t u with
    | isTrue h, isTrue h' => isTrue (by rw [h, h'])
    | isFalse h, _ => isFalse fun e => h (List.cons.inj e).1
    | _, isFalse h => isFalse fun e => h (List.cons.inj e).2

/-- Equality of lists of fields can be decided. -/
def decideEqFields : (t u : List Field) → Decidable (t = u)
  | [], [] => isTrue rfl
  | [], _ :: _ | _ :: _, [] => isFalse nofun
  | ⟨m, a, d⟩ :: t, ⟨n, b, e⟩ :: u =>
    if hn : m = n ∧ d = e then
      match decideEq a b, decideEqFields t u with
      | isTrue h, isTrue h' => isTrue (by rw [h, h', hn.1, hn.2])
      | isFalse h, _ => isFalse (by simp [h])
      | _, isFalse h => isFalse (by simp [h])
    else isFalse fun e => hn (by simp at e; exact ⟨e.1.1, e.1.2.2⟩)

/-- Equality of lists of variants can be decided. -/
def decideEqVariants : (t u : List Variant) → Decidable (t = u)
  | [], [] => isTrue rfl
  | [], _ :: _ | _ :: _, [] => isFalse nofun
  | ⟨m, f, i⟩ :: t, ⟨n, g, j⟩ :: u =>
    if hn : m = n then
      match decideEqFields f g, decideEqTypes i j, decideEqVariants t u with
      | isTrue h, isTrue h', isTrue h'' => isTrue (by rw [h, h', h'', hn])
      | isFalse h, _, _ => isFalse (by simp [h])
      | _, isFalse h, _ => isFalse (by simp [h])
      | _, _, isFalse h => isFalse (by simp [h])
    else isFalse (by simp [hn])

end

instance : DecidableEq TypeExpr := decideEq

mutual

/-- A type expression as it is written. -/
def display : TypeExpr → Text
  | .primitive p => p.name
  | .array element length => "[" ++ display element ++ "; " ++ Text.ofNat length ++ "]"
  | .container shape element => shape.title ++ "<" ++ display element ++ ">"
  | .defined name [] => name
  | .defined name (g :: gs) => name ++ "<" ++ Text.join ", " (display g :: displayTypes gs) ++ ">"
  | .struct fields => "struct \x7b " ++ Text.join ", " (displayFields fields) ++ " \x7d"
  | .enum variants => "enum \x7b " ++ Text.join ", " (displayVariants variants) ++ " \x7d"

/-- Type expressions as they are written. -/
def displayTypes : List TypeExpr → List Text
  | [] => []
  | t :: rest => display t :: displayTypes rest

/-- A field as it is written. -/
def displayField : Field → Text
  | ⟨name, type, _⟩ => name ++ ": " ++ display type

/-- Fields as they are written. -/
def displayFields : List Field → List Text
  | [] => []
  | f :: rest => displayField f :: displayFields rest

/-- A variant as it is written; named fields hide types by position. -/
def displayVariant : Variant → Text
  | ⟨name, f :: fields, _⟩ =>
    name ++ " \x7b " ++ Text.join ", " (displayField f :: displayFields fields) ++ " \x7d"
  | ⟨name, [], t :: items⟩ => name ++ "(" ++ Text.join ", " (display t :: displayTypes items) ++ ")"
  | ⟨name, [], []⟩ => name

/-- Variants as they are written. -/
def displayVariants : List Variant → List Text
  | [] => []
  | v :: rest => displayVariant v :: displayVariants rest

end

mutual

/-- The names seen so far and those that an expression adds to them. -/
def addDefined (seen : List Text) : TypeExpr → List Text
  | .primitive _ => seen
  | .array element _ => addDefined seen element
  | .container _ element => addDefined seen element
  | .defined name generics =>
    addDefinedTypes (if seen.contains name then seen else seen ++ [name]) generics
  | .struct fields => addDefinedFields seen fields
  | .enum variants => addDefinedVariants seen variants

/-- The names seen so far and those that some expressions add to them. -/
def addDefinedTypes (seen : List Text) : List TypeExpr → List Text
  | [] => seen
  | t :: rest => addDefinedTypes (addDefined seen t) rest

/-- The names seen so far and those that some fields add to them. -/
def addDefinedFields (seen : List Text) : List Field → List Text
  | [] => seen
  | ⟨_, type, _⟩ :: rest => addDefinedFields (addDefined seen type) rest

/-- The names seen so far and those that some variants add to them. -/
def addDefinedVariants (seen : List Text) : List Variant → List Text
  | [] => seen
  | ⟨_, fields, items⟩ :: rest =>
    addDefinedVariants (addDefinedTypes (addDefinedFields seen fields) items) rest

end

/-- The names that an expression refers to, each once, in the order of first occurrence. -/
def definedNames (t : TypeExpr) : List Text := addDefined [] t

end TypeExpr

/-- A field as it is written. -/
def Field.display (f : Field) : Text := TypeExpr.displayField f

/-- A variant as it is written. -/
def Variant.display (v : Variant) : Text := TypeExpr.displayVariant v

instance : DecidableEq Field := fun f g =>
  match TypeExpr.decideEqFields [f] [g] with
  | isTrue h => isTrue (List.cons.inj h).1
  | isFalse h => isFalse fun e => h (by rw [e])

instance : DecidableEq Variant := fun v w =>
  match TypeExpr.decideEqVariants [v] [w] with
  | isTrue h => isTrue (List.cons.inj h).1
  | isFalse h => isFalse fun e => h (by rw [e])

end AnchorIdl
