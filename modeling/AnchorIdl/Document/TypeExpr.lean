/-
# Reading type expressions

A type expression in a document is a text or an object:

| form | type |
| --- | --- |
| `"u64"`, … | a primitive; `publicKey` is an older spelling of `pubkey` |
| `{"vec": T}`, `{"option": T}`, `{"coption": T}` | a container |
| `{"array": [T, n]}` | an array |
| `{"defined": "Name"}` | a reference |
| `{"defined": {"name": "Name", "generics": [{"kind": "type", "type": T}, …]}}` | a reference |
| `{"kind": "struct", "fields": […]}` | a struct |
| `{"kind": "enum", "variants": […]}` | an enum |
| `{"kind": "type", "alias": T}` | what `T` is |

An object with a member `kind`, null or not, is read by it and may hold other
members; one without is read by its only member.  The fields of a variant are
all objects with a member `name`, then they are named fields, or none of them
is, then they are types by position.

The recursion ends because a member is smaller than its object.

Source: `idlforge.core.loader` (`_type`, `_array`, `_defined`, `_kind_type`,
`_named_fields`, `_field`, `_variant`).
-/

import AnchorIdl.Document.Member

namespace AnchorIdl
namespace Document

/-- The primitive type with a given name, or its older spelling. -/
def primitive? (t : Text) : Option Primitive :=
  if t = "publicKey" then some .pubkey else Primitive.ofName? t

/-- Whether an item of a variant's fields is an object with a member `name`. -/
def isNamed : Json → Bool
  | .obj members => Members.has members "name"
  | _ => false

mutual

/-- Read the type expression at a place. -/
def readType (place : Place) (raw : Json) : Reading TypeExpr :=
  match raw with
  | .str t =>
    match primitive? t with
    | some p => .ok (.primitive p)
    | none => complain place (.unknownPrimitive t)
  | .obj members =>
    match Ordered.get? members "kind" with
    | some kind => readShape place kind members
    | none =>
      match members with
      | [(key, value)] =>
        if key = "vec" then (readType (place.member "vec") value).map (.container .vec)
        else if key = "option" then
          (readType (place.member "option") value).map (.container .option)
        else if key = "coption" then
          (readType (place.member "coption") value).map (.container .coption)
        else if key = "array" then readArray (place.member "array") value
        else if key = "defined" then readDefined (place.member "defined") value
        else complain place (.unknownShape [key])
      | _ => complain place (.unknownShape (Ordered.keys members))
  | raw => complain place (.notType raw.kind)
termination_by sizeOf raw
decreasing_by all_goals simp; try omega

/-- Read an array at a place: its element and its length. -/
def readArray (place : Place) (raw : Json) : Reading TypeExpr :=
  match raw with
  | .arr [element, length] =>
    match length with
    | .int (.ofNat n) => (readType (place.index 0) element).map (.array · n)
    | length => complain (place.index 1) (.badArrayLength length.kind)
  | _ => complain place .badArray
termination_by sizeOf raw
decreasing_by simp; omega

/-- Read a reference at a place: a name, or an object with a name and type arguments. -/
def readDefined (place : Place) (raw : Json) : Reading TypeExpr :=
  match raw with
  | .str (c :: t) => .ok (.defined (c :: t) [])
  | .obj members => do
    let name ← name place members
    let generics ← sizedItems place members "generics"
    let generics ← each generics fun i ⟨raw, _⟩ =>
      readGeneric ((place.member "generics").index i) raw
    return .defined name generics
  | _ => complain place .unnamedReference
termination_by sizeOf raw
decreasing_by simp; omega

/-- Read a type argument at a place. -/
def readGeneric (place : Place) (raw : Json) : Reading TypeExpr :=
  match raw with
  | .obj members =>
    match Members.find members "type" with
    | some ⟨type, _⟩ =>
      if Ordered.get? members "kind" = some (.str "type") then readType (place.member "type") type
      else complain place .unsupportedGeneric
    | none => complain place .unsupportedGeneric
  | raw => complain place (.notObject raw.kind)
termination_by sizeOf raw
decreasing_by simp; omega

/-- Read the object at a place by its member `kind`. -/
def readShape (place : Place) (kind : Json) (members : Members) : Reading TypeExpr :=
  if kind = .str "struct" then do
    let fields ← sizedItems place members "fields"
    let fields ← each fields fun i ⟨raw, _⟩ =>
      match raw with
      | .obj field => readField ((place.member "fields").index i) field
      | _ => complain ((place.member "fields").index i) .unnamedField
    return .struct fields
  else if kind = .str "enum" then do
    let variants ← sizedItems place members "variants"
    let variants ← each variants fun i ⟨raw, _⟩ =>
      readVariant ((place.member "variants").index i) raw
    return .enum variants
  else if kind = .str "type" then
    match Members.find members "alias" with
    | some ⟨target, _⟩ => readType (place.member "alias") target
    | none => complain (place.member "alias") .noAliasTarget
  else complain (place.member "kind") (.unknownTypeKind kind)
termination_by sizeOf members
decreasing_by all_goals simp_all; try omega

/-- Read the field at a place. -/
def readField (place : Place) (members : Members) : Reading Field := do
  let name ← name place members
  match Members.find members "type" with
  | none => complain (place.member "type") (.noType .field)
  | some ⟨type, _⟩ =>
    let type ← readType (place.member "type") type
    let docs ← docs place members
    return ⟨name, type, docs⟩
termination_by sizeOf members

/-- Read the variant at a place. -/
def readVariant (place : Place) (raw : Json) : Reading Variant :=
  match raw with
  | .obj members => do
    let name ← name place members
    let items ← sizedItems place members "fields"
    if items.all fun x => isNamed x.val then
      let fields ← each items fun i ⟨raw, _⟩ =>
        match raw with
        | .obj field => readField ((place.member "fields").index i) field
        | _ => complain ((place.member "fields").index i) .unnamedField
      return ⟨name, fields, []⟩
    else if items.any fun x => isNamed x.val then complain (place.member "fields") .mixedFields
    else
      let types ← each items fun i ⟨raw, _⟩ => readType ((place.member "fields").index i) raw
      return ⟨name, [], types⟩
  | raw => complain place (.notObject raw.kind)
termination_by sizeOf raw
decreasing_by all_goals simp_all; try omega

end

end Document
end AnchorIdl
