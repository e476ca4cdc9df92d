/-
# Parts of a schema by class

Each part of a schema belongs to a class with a name: the eight classes of type
expressions, fields and variants, seeds and rules, accounts, and the entries of
a schema.  A part of any class can be read from its plain form and written back
to it, and two parts are equal if they have the same class and the same fields.

Source: `idlforge.core.ir` (its classes by name).
-/

import AnchorIdl.Schema.Check
import AnchorIdl.Schema.Plain

namespace AnchorIdl

/-- A part of a schema. -/
inductive Model
  | typeExpr (t : TypeExpr)
  | field (f : Field)
  | variant (v : Variant)
  | seed (s : Seed)
  | pda (p : Pda)
  | accountRef (a : AccountRef)
  | accountDefinition (a : AccountDefinition)
  | metadata (m : Metadata)
  | arg (a : Arg)
  | instruction (i : Instruction)
  | errorDefinition (e : ErrorDefinition)
  | typeDefinition (t : TypeDefinition)
  | schema (s : Schema)
  deriving DecidableEq

namespace Model

/-- The plain form of a part. -/
def toPlain : Model → Json
  | typeExpr t => t.toPlain
  | field f => f.toPlain
  | variant v => v.toPlain
  | seed s => s.toPlain
  | pda p => p.toPlain
  | accountRef a => a.toPlain
  | accountDefinition a => a.toPlain
  | metadata m => m.toPlain
  | arg a => a.toPlain
  | instruction i => i.toPlain
  | errorDefinition e => e.toPlain
  | typeDefinition t => t.toPlain
  | schema s => s.toPlain

/-- A part as it is written, if its class has a written form. -/
def display? : Model → Option Text
  | typeExpr t => some t.display
  | field f => some f.display
  | variant v => some v.display
  | seed s => some s.display
  | pda p => some p.display
  | _ => none

/-- A reading of plain forms for a class. -/
structure Reader where
  className : Text
  read : Json → Checked Model

/-- The reader of a class from the check of its fields. -/
def reader {α : Type} (className : Text) (make : α → Model)
    (check : Place → Members → Checked α) : Reader :=
  ⟨className, fun raw => make <$> Plain.object check [] raw⟩

/-- The readers of all classes, and of type expressions told by their tag. -/
def readers : List Reader :=
  ⟨"TypeExpression", fun raw => typeExpr <$> Plain.typeExpr [] raw⟩ ::
    (Plain.Tag.all.map fun tag => reader tag.className typeExpr (Plain.typeOfTag tag)) ++
    [⟨"FieldDef", fun raw => field <$> Plain.field [] raw⟩,
      ⟨"EnumVariant", fun raw => variant <$> Plain.variant [] raw⟩,
      reader "PdaSeed" seed Plain.seed, reader "PdaRule" pda Plain.pda,
      reader "AccountRef" accountRef Plain.accountRef,
      reader "AccountDefinition" accountDefinition Plain.accountDefinition,
      reader "Metadata" metadata Plain.metadata, reader "Arg" arg Plain.arg,
      reader "Instruction" instruction Plain.instruction,
      reader "ErrorDefinition" errorDefinition Plain.errorDefinition,
      reader "TypeDefinition" typeDefinition Plain.typeDefinition,
      reader "Schema" schema Plain.schema]

/-- The part of a given class with a given plain form; nothing if there is no such class. -/
def ofPlain? (className : Text) (raw : Json) : Option (Checked Model) :=
  (readers.find? fun r => r.className = className).map fun r => r.read raw

end Model
end AnchorIdl
