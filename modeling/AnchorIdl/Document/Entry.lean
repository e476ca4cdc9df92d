/-
# Reading the entries of a document

A document has four lists of entries, `instructions`, `accounts`, `errors` and
`types`, beside the address and the metadata of its program.  Older documents
keep the name and the version at the top level and the address under
`metadata`; those places are looked at only when the newer ones are empty.

Source: `idlforge.core.loader` (`_metadata`, `_instruction`, `_arg`, `_error`,
`_type_definition`).
-/

import AnchorIdl.Document.Account
import AnchorIdl.Document.TypeExpr

namespace AnchorIdl
namespace Document

/-- Read the type named `type` of the part at a place. -/
def readPartType (place : Place) (part : Typed) (members : Members) : Reading TypeExpr :=
  match members.get? "type" with
  | none => complain (place.member "type") (.noType part)
  | some type => readType (place.member "type") type

/-- Read the argument at a place. -/
def readArg (place : Place) (raw : Json) : Reading Arg := do
  let members ← object place raw
  let name ← name place members
  let type ← readPartType place .argument members
  return { name, type }

/-- Read the instruction at a place. -/
def readInstruction (place : Place) (raw : Json) : Reading Instruction := do
  let members ← object place raw
  let name ← name place members
  let accounts ← items place members "accounts"
  let slots ← each accounts fun i raw => readSlots ((place.member "accounts").index i) raw
  let args ← items place members "args"
  let args ← each args fun i raw => readArg ((place.member "args").index i) raw
  let discriminator ←
    discriminator (place.member "discriminator") (members.given? "discriminator")
  let docs ← docs place members
  return { name, discriminator, accounts := slots.flatten, args, docs }

/-- Read the error at a place. -/
def readError (place : Place) (raw : Json) : Reading ErrorDefinition := do
  let members ← object place raw
  match members.get? "code" with
  | some (.int code) =>
    let name ← name place members
    let msg ← string? place members "msg"
    return { code, name, msg := msg.getD [] }
  | _ => complain (place.member "code") .badErrorCode

/-- Read the custom type at a place. -/
def readTypeDefinition (place : Place) (raw : Json) : Reading TypeDefinition := do
  let members ← object place raw
  let name ← name place members
  let type ← readPartType place .typeDefinition members
  let docs ← docs place members
  return { name, type, docs }

/-- The members under `metadata`; whatever counts as nothing has none. -/
def metadataMembers (document : Members) : Reading Members :=
  match document.get? "metadata" with
  | none => .ok []
  | some raw => if raw.isBlank then .ok [] else object [.member "metadata"] raw

/-- The text named `key` under `metadata`, or the one at the top level if that is empty. -/
def newerOrOlder (document metadata : Members) (key : Text) : Reading Text := do
  let newer ← string? [.member "metadata"] metadata key
  match newer with
  | some (c :: t) => return c :: t
  | _ =>
    let older ← string? [] document key
    return older.getD []

/-- Read the metadata of a document. -/
def readMetadata (document : Members) : Reading Metadata := do
  let members ← metadataMembers document
  let name ← newerOrOlder document members "name"
  let version ← newerOrOlder document members "version"
  let spec ← string? [.member "metadata"] members "spec"
  let description ← string? [.member "metadata"] members "description"
  return { name, version, spec := spec.getD [], description := description.getD [] }

/-- Read the address of a document. -/
def readAddress (document : Members) : Reading Text := do
  match ← string? [] document "address" with
  | some address => return address
  | none =>
    match document.get? "metadata" with
    | some (.obj members) => return (← string? [.member "metadata"] members "address").getD []
    | _ => return []

/-- Read one of the lists of entries. -/
def readSection {α : Type} (document : Members) (key : Text) (read : Place → Json → Reading α) :
    Reading (List α) := do
  let entries ← items [] document key
  each entries fun i raw => read [.member key, .index i] raw

end Document
end AnchorIdl
