/-
# Building a schema by calls of its classes

A reader of a document yields a part of a schema as it is.  The loader does more:
it calls the class of the part with what it has read, and the class checks its
arguments once more (`Script.construct`).  The *builders* here are the readers
with these calls.  They read the same members in the same order, and wherever a
part is complete they call its class:

| part | class | arguments that may be left out |
| --- | --- | --- |
| type expression | one for each form | the generics of a reference by name |
| field | `FieldDef` | |
| variant | `EnumVariant` | the fields, the items |
| seed | `PdaSeed` | what its kind has no use for |
| rule | `PdaRule` | |
| account slot, account layout | `AccountRef`, `AccountDefinition` | the discriminator |
| argument, instruction, error, custom type | one for each | |
| metadata, schema | `Metadata`, `Schema` | |

A building keeps the calls that were made, also if it stops.  It may stop for one
of two reasons: the document is rejected, as by a reader, or a class refuses a
call, for which the loader has no error of its own (`Refusal`).  What is logged
plays no part, so a building has no log.
-/

import AnchorIdl.Document.Load
import AnchorIdl.Proofs.Script.Call

namespace AnchorIdl
namespace Document

open Bindings (Constructor)
open Script

/-- Why the building of a schema stops: the document is rejected, or a class refuses a call. -/
inductive Refusal
  | rejected (rejection : Rejection)
  | invalid (call : Call)

/-- A building of a part of a schema: the calls in order, and what comes of them. -/
structure Building (α : Type) where
  calls : List Call
  outcome : Except Refusal α

namespace Building

variable {α β : Type}

/-- Go on with the part, if there is one, after the calls made for it. -/
def bind (x : Building α) (f : α → Building β) : Building β :=
  match x.outcome with
  | .error e => ⟨x.calls, .error e⟩
  | .ok a => ⟨x.calls ++ (f a).calls, (f a).outcome⟩

instance : Monad Building where
  pure a := ⟨[], .ok a⟩
  bind := bind

/-- Restate the rejection of the document. -/
def mapRejection (f : Rejection → Rejection) (x : Building α) : Building α where
  calls := x.calls
  outcome := x.outcome.mapError fun
    | .rejected rejection => .rejected (f rejection)
    | .invalid call => .invalid call

end Building

/-- Reading calls no class. -/
def reading {α : Type} (r : Reading α) : Building α := ⟨[], r.mapError .rejected⟩

instance : MonadLift Reading Building := ⟨reading⟩

/-- Call a class for a part that is used as `use` says. -/
def call {α : Type} (callee : Constructor) (use : Value → Option α) (arguments : Arguments) :
    Building α :=
  ⟨[⟨callee, arguments⟩],
    match (construct callee arguments).bind fun part => use (.model part) with
    | some part => .ok part
    | none => .error (.invalid ⟨callee, arguments⟩)⟩

/-- Build the items of a list in order from index `i` on. -/
def buildEachFrom {α β : Type} (build : Nat → α → Building β) :
    (i : Nat) → List α → Building (List β)
  | _, [] => return []
  | i, x :: rest => do
    let y ← build i x
    let ys ← buildEachFrom build (i + 1) rest
    return y :: ys

/-- Build the items of a list in order. -/
def buildEach {α β : Type} (items : List α) (build : Nat → α → Building β) : Building (List β) :=
  buildEachFrom build 0 items

/-! ### Arguments -/

/-- A list of parts. -/
def partsValue {α : Type} (part : α → Model) (parts : List α) : Value :=
  .list (parts.map fun a => .model (part a))

/-- A list of texts. -/
def textsValue (texts : List Text) : Value := .list (texts.map .text)

/-- `None`, or a value. -/
def orNone {α : Type} (value : α → Value) : Option α → Value
  | none => .none
  | some a => value a

/-! ### Type expressions -/

/-- Call a class of type expressions. -/
abbrev callType (callee : Constructor) (arguments : Arguments) : Building TypeExpr :=
  call callee Value.typeExpr? arguments

/-- Call the class of a container for its element. -/
def callContainer (callee : Constructor) (element : TypeExpr) : Building TypeExpr :=
  callType callee [("element", .model (.typeExpr element))]

mutual

/-- Build the type expression at a place. -/
def buildType (place : Place) (raw : Json) : Building TypeExpr :=
  match raw with
  | .str t =>
    match primitive? t with
    | some p => callType .primitiveType [("name", .text p.name)]
    | none => reading (complain place (.unknownPrimitive t))
  | .obj members =>
    match Ordered.get? members "kind" with
    | some kind => buildShape place kind members
    | none =>
      match members with
      | [(key, value)] =>
        if key = "vec" then do
          callContainer .vecType (← buildType (place.member "vec") value)
        else if key = "option" then do
          callContainer .optionType (← buildType (place.member "option") value)
        else if key = "coption" then do
          callContainer .cOptionType (← buildType (place.member "coption") value)
        else if key = "array" then buildArray (place.member "array") value
        else if key = "defined" then buildDefined (place.member "defined") value
        else reading (complain place (.unknownShape [key]))
      | _ => reading (complain place (.unknownShape (Ordered.keys members)))
  | raw => reading (complain place (.notType raw.kind))
termination_by sizeOf raw
decreasing_by all_goals simp; try omega

/-- Build an array at a place. -/
def buildArray (place : Place) (raw : Json) : Building TypeExpr :=
  match raw with
  | .arr [element, length] =>
    match length with
    | .int (.ofNat n) => do
      let element ← buildType (place.index 0) element
      callType .arrayType [("element", .model (.typeExpr element)), ("length", .int n)]
    | length => reading (complain (place.index 1) (.badArrayLength length.kind))
  | _ => reading (complain place .badArray)
termination_by sizeOf raw
decreasing_by simp; omega

/-- Build a reference at a place. -/
def buildDefined (place : Place) (raw : Json) : Building TypeExpr :=
  match raw with
  | .str (c :: t) => callType .definedType [("name", .text (c :: t))]
  | .obj members => do
    let name ← name place members
    let generics ← sizedItems place members "generics"
    let generics ← buildEach generics fun i ⟨raw, _⟩ =>
      buildGeneric ((place.member "generics").index i) raw
    callType .definedType [("name", .text name), ("generics", partsValue .typeExpr generics)]
  | _ => reading (complain place .unnamedReference)
termination_by sizeOf raw
decreasing_by simp; omega

/-- Build a type argument at a place. -/
def buildGeneric (place : Place) (raw : Json) : Building TypeExpr :=
  match raw with
  | .obj members =>
    match Members.find members "type" with
    | some ⟨type, _⟩ =>
      if Ordered.get? members "kind" = some (.str "type") then
        buildType (place.member "type") type
      else reading (complain place .unsupportedGeneric)
    | none => reading (complain place .unsupportedGeneric)
  | raw => reading (complain place (.notObject raw.kind))
termination_by sizeOf raw
decreasing_by simp; omega

/-- Build the object at a place by its member `kind`. -/
def buildShape (place : Place) (kind : Json) (members : Members) : Building TypeExpr :=
  if kind = .str "struct" then do
    let fields ← sizedItems place members "fields"
    let fields ← buildEach fields fun i ⟨raw, _⟩ =>
      match raw with
      | .obj field => buildField ((place.member "fields").index i) field
      | _ => reading (complain ((place.member "fields").index i) .unnamedField)
    callType .structType [("fields", partsValue .field fields)]
  else if kind = .str "enum" then do
    let variants ← sizedItems place members "variants"
    let variants ← buildEach variants fun i ⟨raw, _⟩ =>
      buildVariant ((place.member "variants").index i) raw
    callType .enumType [("variants", partsValue .variant variants)]
  else if kind = .str "type" then
    match Members.find members "alias" with
    | some ⟨target, _⟩ => buildType (place.member "alias") target
    | none => reading (complain (place.member "alias") .noAliasTarget)
  else reading (complain (place.member "kind") (.unknownTypeKind kind))
termination_by sizeOf members
decreasing_by all_goals simp_all; try omega

/-- Build the field at a place. -/
def buildField (place : Place) (members : Members) : Building Field := do
  let name ← name place members
  match Members.find members "type" with
  | none => reading (complain (place.member "type") (.noType .field))
  | some ⟨type, _⟩ =>
    let type ← buildType (place.member "type") type
    let docs ← docs place members
    call .fieldDef Value.field?
      [("name", .text name), ("type", .model (.typeExpr type)), ("docs", textsValue docs)]
termination_by sizeOf members

/-- Build the variant at a place; one without fields is called for with its name alone. -/
def buildVariant (place : Place) (raw : Json) : Building Variant :=
  match raw with
  | .obj members => do
    let name ← name place members
    let items ← sizedItems place members "fields"
    if items.isEmpty then call .enumVariant Value.variant? [("name", .text name)]
    else if items.all fun x => isNamed x.val then
      let fields ← buildEach items fun i ⟨raw, _⟩ =>
        match raw with
        | .obj field => buildField ((place.member "fields").index i) field
        | _ => reading (complain ((place.member "fields").index i) .unnamedField)
      call .enumVariant Value.variant? [("name", .text name), ("fields", partsValue .field fields)]
    else if items.any fun x => isNamed x.val then
      reading (complain (place.member "fields") .mixedFields)
    else
      let types ← buildEach items fun i ⟨raw, _⟩ =>
        buildType ((place.member "fields").index i) raw
      call .enumVariant Value.variant? [("name", .text name), ("items", partsValue .typeExpr types)]
  | raw => reading (complain place (.notObject raw.kind))
termination_by sizeOf raw
decreasing_by all_goals simp_all; try omega

end

/-! ### Accounts and seeds -/

/-- Call the class of seeds. -/
def callSeed (kind : SeedKind) (payload : Arguments) : Building Seed :=
  call .pdaSeed Value.seed? (("kind", .text kind.name) :: payload)

/-- Build the seed at a place. -/
def buildSeed (place : Place) (raw : Json) : Building Seed := do
  let members ← object place raw
  let kind := members.get? "kind"
  match kind.bind seedKind? with
  | none => reading (complain (place.member "kind") (.unknownSeedKind (kind.getD .null)))
  | some .const =>
    match members.get? "value" with
    | some (.str t) =>
      match Utf8.encode t with
      | .ok value => callSeed .const [("value", .bytes value)]
      | .error fault => reading (throw (.unencodable fault))
    | raw =>
      let value ← bytes (place.member "value") .constant (raw.getD .null)
      callSeed .const [("value", .bytes value)]
  | some .string =>
    match ← string? place members "value" with
    | none => reading (complain (place.member "value") .noSeedText)
    | some t => callSeed .string [("text", .text t)]
  | some .arg =>
    match ← string? place members "path" with
    | none | some [] => reading (complain (place.member "path") (.noSeedPath .arg))
    | some path => callSeed .arg [("path", .text path), ("account", .none)]
  | some .account =>
    match ← string? place members "path" with
    | none | some [] => reading (complain (place.member "path") (.noSeedPath .account))
    | some path =>
      let account ← string? place members "account"
      callSeed .account [("path", .text path), ("account", orNone .text account)]

/-- Build the rule for a program-derived address at a place. -/
def buildPda (place : Place) (raw : Json) : Building Pda := do
  let members ← object place raw
  let seeds ← items place members "seeds"
  if seeds = [] then reading (complain (place.member "seeds") .noSeeds)
  else
    let seeds ← buildEach seeds fun i seed => buildSeed ((place.member "seeds").index i) seed
    let program ← (members.given? "program").mapM (buildSeed (place.member "program"))
    call .pdaRule Value.pda?
      [("seeds", partsValue .seed seeds), ("program", orNone (.model ∘ .seed) program)]

/-- The fields that account slots and account layouts share, built before the class is called. -/
def buildSlot (place : Place) (members : Members) : Building AccountRef := do
  let name ← name place members
  let writable ← flag place members ["writable", "isMut"]
  let signer ← flag place members ["signer", "isSigner"]
  let optional ← flag place members ["optional", "isOptional"]
  let address ← string? place members "address"
  let pda ← (members.given? "pda").mapM (buildPda (place.member "pda"))
  let docs ← docs place members
  return { name, writable, signer, optional, address, pda, docs }

/-- The arguments for these fields. -/
def slotArguments (a : AccountRef) : Arguments :=
  [("name", .text a.name), ("writable", .bool a.writable), ("signer", .bool a.signer),
    ("optional", .bool a.optional), ("address", orNone .text a.address),
    ("pda", orNone (.model ∘ .pda) a.pda), ("docs", textsValue a.docs)]

/-- Build the account slot at a place. -/
def buildAccount (place : Place) (members : Members) : Building AccountRef := do
  let slot ← buildSlot place members
  call .accountRef Value.accountRef? (slotArguments slot)

/-- Build the account layout at a place; its discriminator is an argument only if it is given. -/
def buildAccountDefinition (place : Place) (raw : Json) : Building AccountDefinition := do
  let members ← object place raw
  let slot ← buildSlot place members
  let value ← reading ((members.given? "discriminator").mapM fun raw =>
    discriminator (place.member "discriminator") (some raw))
  call .accountDefinition Value.accountDefinition?
    (slotArguments slot ++ discriminatorArgument value)

/-- Build the account slots that the item at a place stands for. -/
def buildSlots (place : Place) (raw : Json) : Building (List AccountRef) :=
  match raw with
  | .obj members =>
    if Members.has members "accounts" then do
      let _ ← name place members
      let group ← sizedItems place members "accounts"
      let slots ← buildEach group fun i ⟨raw, _⟩ =>
        buildSlots ((place.member "accounts").index i) raw
      return slots.flatten
    else do return [← buildAccount place members]
  | raw => reading (complain place (.notObject raw.kind))
termination_by sizeOf raw
decreasing_by simp; omega

/-! ### Entries -/

/-- Build the type named `type` of the part at a place. -/
def buildPartType (place : Place) (part : Typed) (members : Members) : Building TypeExpr :=
  match members.get? "type" with
  | none => reading (complain (place.member "type") (.noType part))
  | some type => buildType (place.member "type") type

/-- Build the argument at a place. -/
def buildArg (place : Place) (raw : Json) : Building Arg := do
  let members ← object place raw
  let name ← name place members
  let type ← buildPartType place .argument members
  call .arg Value.arg? [("name", .text name), ("type", .model (.typeExpr type))]

/-- Build the instruction at a place. -/
def buildInstruction (place : Place) (raw : Json) : Building Instruction := do
  let members ← object place raw
  let name ← name place members
  let accounts ← items place members "accounts"
  let slots ← buildEach accounts fun i raw => buildSlots ((place.member "accounts").index i) raw
  let args ← items place members "args"
  let args ← buildEach args fun i raw => buildArg ((place.member "args").index i) raw
  let discriminator ←
    discriminator (place.member "discriminator") (members.given? "discriminator")
  let docs ← docs place members
  call .instruction Value.instruction?
    [("name", .text name), ("discriminator", .bytes discriminator),
      ("accounts", partsValue .accountRef slots.flatten), ("args", partsValue .arg args),
      ("docs", textsValue docs)]

/-- Build the error at a place. -/
def buildError (place : Place) (raw : Json) : Building ErrorDefinition := do
  let members ← object place raw
  match members.get? "code" with
  | some (.int code) =>
    let name ← name place members
    let msg ← string? place members "msg"
    call .errorDefinition Value.errorDefinition?
      [("code", .int code), ("name", .text name), ("msg", .text (msg.getD []))]
  | _ => reading (complain (place.member "code") .badErrorCode)

/-- Build the custom type at a place. -/
def buildTypeDefinition (place : Place) (raw : Json) : Building TypeDefinition := do
  let members ← object place raw
  let name ← name place members
  let type ← buildPartType place .typeDefinition members
  let docs ← docs place members
  call .typeDefinition Value.typeDefinition?
    [("name", .text name), ("type", .model (.typeExpr type)), ("docs", textsValue docs)]

/-- Build the metadata of a document. -/
def buildMetadata (document : Members) : Building Metadata := do
  let members ← metadataMembers document
  let name ← newerOrOlder document members "name"
  let version ← newerOrOlder document members "version"
  let spec ← string? [.member "metadata"] members "spec"
  let description ← string? [.member "metadata"] members "description"
  call .metadata Value.metadata?
    [("name", .text name), ("version", .text version), ("spec", .text (spec.getD [])),
      ("description", .text (description.getD []))]

/-- Build one of the lists of entries. -/
def buildSection {α : Type} (document : Members) (key : Text)
    (build : Place → Json → Building α) : Building (List α) := do
  let entries ← items [] document key
  buildEach entries fun i raw => build [.member key, .index i] raw

/-! ### The document -/

/-- Build the schema of a document. -/
def buildSchema (raw : Json) : Building Schema := do
  let document ← object [] raw
  let metadata ← buildMetadata document
  let address ← readAddress document
  let instructions ← buildSection document "instructions" buildInstruction
  let accounts ← buildSection document "accounts" buildAccountDefinition
  let errors ← buildSection document "errors" buildError
  let types ← buildSection document "types" buildTypeDefinition
  call .schema
    (Value.model? fun
      | .schema s => some s
      | _ => none)
    [("address", .text address), ("metadata", .model (.metadata metadata)),
      ("instructions", partsValue .instruction instructions),
      ("accounts", partsValue .accountDefinition accounts),
      ("errors", partsValue .errorDefinition errors),
      ("types", partsValue .typeDefinition types)]

/-- Load a document by calls of the classes. -/
def build (strict : Bool) (source : Source) : Building Schema := do
  let raw ← source.value?
  let s ← (buildSchema raw).mapRejection Rejection.raised
  reading (reportDuplicates strict s).outcome
  return s

end Document
end AnchorIdl
