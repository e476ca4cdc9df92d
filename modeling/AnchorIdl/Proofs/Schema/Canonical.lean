/-
# Canonical schemas

The types of the library allow more than a document can say: an entry without a
name, a seed with the payload of two kinds, a variant with named fields and with
types by position.  A schema is canonical if it has nothing of this kind:

| part | canonical |
| --- | --- |
| instruction, slot, layout, argument, error, custom type, field, variant | has a name |
| reference to a type | has a name |
| discriminator | eight bytes |
| rule for an address | at least one seed |
| seed | what its kind needs, and nothing else |
| variant | named fields or types by position, not both |

It is distinct if no two instructions share a name or a discriminator, no two
errors a code and no two custom types a name.
-/

import AnchorIdl.Schema.Basic

namespace AnchorIdl

mutual

/-- A type expression in which everything that has a name has a non-empty one, and no variant has
both named fields and types by position. -/
inductive CanonicalType : TypeExpr → Prop
  | primitive (p : Primitive) : CanonicalType (.primitive p)
  | array {t : TypeExpr} (element : CanonicalType t) (length : Nat) :
      CanonicalType (.array t length)
  | container (shape : Container) {t : TypeExpr} (element : CanonicalType t) :
      CanonicalType (.container shape t)
  | defined {name : Text} {generics : List TypeExpr} (nonempty : name ≠ [])
      (each : ∀ t ∈ generics, CanonicalType t) : CanonicalType (.defined name generics)
  | struct {fields : List Field} (each : ∀ f ∈ fields, CanonicalField f) :
      CanonicalType (.struct fields)
  | enum {variants : List Variant} (each : ∀ v ∈ variants, CanonicalVariant v) :
      CanonicalType (.enum variants)

/-- A field with a name and a canonical type. -/
inductive CanonicalField : Field → Prop
  | mk {name : Text} {t : TypeExpr} (nonempty : name ≠ []) (type : CanonicalType t)
      (docs : List Text) : CanonicalField ⟨name, t, docs⟩

/-- A variant with a name, and with named fields, types by position or neither. -/
inductive CanonicalVariant : Variant → Prop
  | mk {name : Text} {fields : List Field} {items : List TypeExpr} (nonempty : name ≠ [])
      (named : ∀ f ∈ fields, CanonicalField f) (positional : ∀ t ∈ items, CanonicalType t)
      (exclusive : fields = [] ∨ items = []) : CanonicalVariant ⟨name, fields, items⟩

end

/-- A seed with what its kind needs and nothing else. -/
inductive CanonicalSeed : Seed → Prop
  | const (bytes : Bytes) : CanonicalSeed { kind := .const, value := some bytes }
  | string (text : Text) : CanonicalSeed { kind := .string, text := some text }
  | arg {path : Text} (nonempty : path ≠ []) :
      CanonicalSeed { kind := .arg, path := some path }
  | account {path : Text} (nonempty : path ≠ []) (account : Option Text) :
      CanonicalSeed { kind := .account, path := some path, account }

/-- A rule with at least one seed, all of them canonical. -/
structure CanonicalPda (p : Pda) : Prop where
  nonempty : p.seeds ≠ []
  seeds : ∀ s ∈ p.seeds, CanonicalSeed s
  program : ∀ s ∈ p.program, CanonicalSeed s

/-- A slot with a name and a canonical rule, if it has one. -/
structure CanonicalSlot (a : AccountRef) : Prop where
  name : a.name ≠ []
  pda : ∀ p ∈ a.pda, CanonicalPda p

/-- A layout with what a slot has, and a discriminator of eight bytes, if it has one. -/
structure CanonicalLayout (a : AccountDefinition) : Prop where
  slot : CanonicalSlot a.toAccountRef
  discriminator : ∀ bytes ∈ a.discriminator, bytes.length = discriminatorSize

/-- An argument with a name and a canonical type. -/
structure CanonicalArg (a : Arg) : Prop where
  name : a.name ≠ []
  type : CanonicalType a.type

/-- An instruction with a name, a discriminator of eight bytes and canonical parts. -/
structure CanonicalInstruction (x : Instruction) : Prop where
  name : x.name ≠ []
  discriminator : x.discriminator.length = discriminatorSize
  accounts : ∀ a ∈ x.accounts, CanonicalSlot a
  args : ∀ a ∈ x.args, CanonicalArg a

/-- A custom type with a name and a canonical type. -/
structure CanonicalTypeDefinition (d : TypeDefinition) : Prop where
  name : d.name ≠ []
  type : CanonicalType d.type

namespace Schema

/-- A schema all of whose parts are canonical. -/
structure Canonical (S : Schema) : Prop where
  instructions : ∀ x ∈ S.instructions, CanonicalInstruction x
  accounts : ∀ a ∈ S.accounts, CanonicalLayout a
  errors : ∀ e ∈ S.errors, e.name ≠ []
  types : ∀ d ∈ S.types, CanonicalTypeDefinition d

/-- A schema whose instruction names, discriminators, error codes and type names are distinct. -/
structure Distinct (S : Schema) : Prop where
  names : (S.instructions.map Instruction.name).Nodup
  discriminators : (S.instructions.map Instruction.discriminator).Nodup
  codes : (S.errors.map ErrorDefinition.code).Nodup
  types : (S.types.map TypeDefinition.name).Nodup

end Schema
end AnchorIdl
