/-
# Running a script

A script is evaluated from top to bottom.  The values are those of its literals,
byte strings, the classes that it imports, and the parts of a schema that calls
of the classes yield.

A call of a class checks its arguments as the class does: a field without a
default has to be there, a value has to be of the type of the field, and what a
class asks of its parts besides is checked:

| class | asks |
| --- | --- |
| `Instruction`, `AccountDefinition` | a discriminator of eight bytes |
| `PdaSeed` | what the kind of the seed needs |
| `PdaRule` | at least one seed |
| `ArrayType` | a length that is not negative |

The name of a primitive type and the kind of a seed are given by their texts.

An environment lists every assignment, the latest first, so a name has the value
that it got last.
-/

import AnchorIdl.Bindings.Expr
import AnchorIdl.Proofs.Script.Reader
import AnchorIdl.Schema.Model

namespace AnchorIdl
namespace Script

open Bindings (Constructor)

/-- A value. -/
inductive Value
  | none
  | bool (value : Bool)
  | int (value : Int)
  | text (value : Text)
  | bytes (value : Bytes)
  | list (items : List Value)
  | bytesType
  | class (constructor : Constructor)
  | model (part : Model)

/-- What names are bound to, the latest assignment first. -/
abbrev Env := Ordered Text Value

namespace Value

/-! ### What a value is used as -/

/-- A truth value. -/
def bool? : Value → Option Bool
  | .bool b => some b
  | _ => Option.none

/-- An integer. -/
def int? : Value → Option Int
  | .int n => some n
  | _ => Option.none

/-- An integer that is not negative. -/
def nat? : Value → Option Nat
  | .int (.ofNat n) => some n
  | _ => Option.none

/-- A text. -/
def text? : Value → Option Text
  | .text t => some t
  | _ => Option.none

/-- A byte string. -/
def bytes? : Value → Option Bytes
  | .bytes b => some b
  | _ => Option.none

/-- A byte string of eight bytes. -/
def discriminator? (v : Value) : Option Bytes :=
  v.bytes?.filter fun b => b.length = discriminatorSize

/-- A number below 256. -/
def byte? : Value → Option UInt8
  | .int (.ofNat n) => if n < 256 then some (UInt8.ofNat n) else Option.none
  | _ => Option.none

/-- A primitive type, by its name. -/
def primitive? : Value → Option Primitive
  | .text t => Primitive.ofName? t
  | _ => Option.none

/-- A kind of seed, by its name. -/
def seedKind? : Value → Option SeedKind
  | .text t => SeedKind.ofName? t
  | _ => Option.none

/-- A list whose items are used as `item` says. -/
def list? {α : Type} (item : Value → Option α) : Value → Option (List α)
  | .list items => items.mapM item
  | _ => Option.none

/-- `None`, or a value used as `f` says. -/
def option? {α : Type} (f : Value → Option α) : Value → Option (Option α)
  | .none => some Option.none
  | v => (f v).map some

/-- A part of a schema used as `f` says. -/
def model? {α : Type} (f : Model → Option α) : Value → Option α
  | .model m => f m
  | _ => Option.none

/-- A type expression. -/
def typeExpr? : Value → Option TypeExpr := model? fun
  | .typeExpr t => some t
  | _ => Option.none

/-- A field. -/
def field? : Value → Option Field := model? fun
  | .field f => some f
  | _ => Option.none

/-- A variant. -/
def variant? : Value → Option Variant := model? fun
  | .variant v => some v
  | _ => Option.none

/-- A seed. -/
def seed? : Value → Option Seed := model? fun
  | .seed s => some s
  | _ => Option.none

/-- The rule for an address. -/
def pda? : Value → Option Pda := model? fun
  | .pda p => some p
  | _ => Option.none

/-- An account slot. -/
def accountRef? : Value → Option AccountRef := model? fun
  | .accountRef a => some a
  | _ => Option.none

/-- An account layout. -/
def accountDefinition? : Value → Option AccountDefinition := model? fun
  | .accountDefinition a => some a
  | _ => Option.none

/-- Metadata. -/
def metadata? : Value → Option Metadata := model? fun
  | .metadata m => some m
  | _ => Option.none

/-- An argument. -/
def arg? : Value → Option Arg := model? fun
  | .arg a => some a
  | _ => Option.none

/-- An instruction. -/
def instruction? : Value → Option Instruction := model? fun
  | .instruction i => some i
  | _ => Option.none

/-- An error. -/
def errorDefinition? : Value → Option ErrorDefinition := model? fun
  | .errorDefinition e => some e
  | _ => Option.none

/-- A custom type. -/
def typeDefinition? : Value → Option TypeDefinition := model? fun
  | .typeDefinition t => some t
  | _ => Option.none

end Value

theorem primitive?_name (p : Primitive) : Value.primitive? (.text p.name) = some p := by
  cases p <;> rfl

theorem seedKind?_name (kind : SeedKind) : Value.seedKind? (.text kind.name) = some kind := by
  cases kind <;> rfl

theorem discriminator?_bytes {bytes : Bytes} (h : bytes.length = discriminatorSize) :
    Value.discriminator? (.bytes bytes) = some bytes := by
  change (some bytes).filter (fun b => b.length = discriminatorSize) = some bytes
  simp [Option.filter_some, h]

theorem list?_map {α : Type} {use : Value → Option α} {f : α → Value} {xs : List α}
    (h : ∀ x ∈ xs, use (f x) = some x) : Value.list? use (.list (xs.map f)) = some xs := by
  unfold Value.list?
  induction xs with
  | nil => rfl
  | cons x xs ih =>
    rw [List.forall_mem_cons] at h
    simp only [List.map_cons, List.mapM_cons, h.1, ih h.2]
    rfl

/-! ### Calls -/

/-- The arguments of a call, by their keywords. -/
abbrev Arguments := Ordered Text Value

namespace Arguments

/-- A field that has to be given. -/
def required {α : Type} (arguments : Arguments) (key : Text) (use : Value → Option α) : Option α :=
  (arguments.get? key).bind use

/-- A field that has a default. -/
def defaulted {α : Type} (arguments : Arguments) (key : Text) (default : α)
    (use : Value → Option α) : Option α :=
  match arguments.get? key with
  | none => some default
  | some v => use v

/-- The documentation of a part. -/
def docs (arguments : Arguments) : Option (List Text) :=
  arguments.defaulted "docs" [] (Value.list? Value.text?)

/-- The fields that account slots and account layouts share. -/
def accountRef (arguments : Arguments) : Option AccountRef := do
  let name ← arguments.required "name" Value.text?
  let writable ← arguments.defaulted "writable" false Value.bool?
  let signer ← arguments.defaulted "signer" false Value.bool?
  let optional ← arguments.defaulted "optional" false Value.bool?
  let address ← arguments.defaulted "address" none (Value.option? Value.text?)
  let pda ← arguments.defaulted "pda" none (Value.option? Value.pda?)
  let docs ← arguments.docs
  return { name, writable, signer, optional, address, pda, docs }

end Arguments

/-- A container of an element type. -/
def constructContainer (shape : Container) (arguments : Arguments) : Option Model := do
  let element ← arguments.required "element" Value.typeExpr?
  return .typeExpr (.container shape element)

/-- The part of a schema that a call of a class yields. -/
def construct : Constructor → Arguments → Option Model
  | .primitiveType, arguments => do
    let name ← arguments.required "name" Value.primitive?
    return .typeExpr (.primitive name)
  | .arrayType, arguments => do
    let element ← arguments.required "element" Value.typeExpr?
    let length ← arguments.required "length" Value.nat?
    return .typeExpr (.array element length)
  | .vecType, arguments => constructContainer .vec arguments
  | .optionType, arguments => constructContainer .option arguments
  | .cOptionType, arguments => constructContainer .coption arguments
  | .definedType, arguments => do
    let name ← arguments.required "name" Value.text?
    let generics ← arguments.defaulted "generics" [] (Value.list? Value.typeExpr?)
    return .typeExpr (.defined name generics)
  | .structType, arguments => do
    let fields ← arguments.defaulted "fields" [] (Value.list? Value.field?)
    return .typeExpr (.struct fields)
  | .enumType, arguments => do
    let variants ← arguments.defaulted "variants" [] (Value.list? Value.variant?)
    return .typeExpr (.enum variants)
  | .fieldDef, arguments => do
    let name ← arguments.required "name" Value.text?
    let type ← arguments.required "type" Value.typeExpr?
    let docs ← arguments.docs
    return .field ⟨name, type, docs⟩
  | .enumVariant, arguments => do
    let name ← arguments.required "name" Value.text?
    let fields ← arguments.defaulted "fields" [] (Value.list? Value.field?)
    let items ← arguments.defaulted "items" [] (Value.list? Value.typeExpr?)
    return .variant ⟨name, fields, items⟩
  | .pdaSeed, arguments => do
    let kind ← arguments.required "kind" Value.seedKind?
    let value ← arguments.defaulted "value" none (Value.option? Value.bytes?)
    let path ← arguments.defaulted "path" none (Value.option? Value.text?)
    let account ← arguments.defaulted "account" none (Value.option? Value.text?)
    let text ← arguments.defaulted "text" none (Value.option? Value.text?)
    let seed : Seed := { kind, value, path, account, text }
    if seed.hasPayload then return .seed seed else none
  | .pdaRule, arguments => do
    let seeds ← arguments.required "seeds" (Value.list? Value.seed?)
    let program ← arguments.defaulted "program" none (Value.option? Value.seed?)
    if seeds = [] then none else return .pda { seeds, program }
  | .accountRef, arguments => do
    let slot ← arguments.accountRef
    return .accountRef slot
  | .accountDefinition, arguments => do
    let slot ← arguments.accountRef
    let discriminator ←
      arguments.defaulted "discriminator" none (Value.option? Value.discriminator?)
    return .accountDefinition { slot with discriminator }
  | .metadata, arguments => do
    let name ← arguments.defaulted "name" [] Value.text?
    let version ← arguments.defaulted "version" [] Value.text?
    let spec ← arguments.defaulted "spec" [] Value.text?
    let description ← arguments.defaulted "description" [] Value.text?
    return .metadata { name, version, spec, description }
  | .arg, arguments => do
    let name ← arguments.required "name" Value.text?
    let type ← arguments.required "type" Value.typeExpr?
    return .arg { name, type }
  | .instruction, arguments => do
    let name ← arguments.required "name" Value.text?
    let discriminator ← arguments.required "discriminator" Value.discriminator?
    let accounts ← arguments.defaulted "accounts" [] (Value.list? Value.accountRef?)
    let args ← arguments.defaulted "args" [] (Value.list? Value.arg?)
    let docs ← arguments.docs
    return .instruction { name, discriminator, accounts, args, docs }
  | .errorDefinition, arguments => do
    let code ← arguments.required "code" Value.int?
    let name ← arguments.required "name" Value.text?
    let msg ← arguments.defaulted "msg" [] Value.text?
    return .errorDefinition { code, name, msg }
  | .typeDefinition, arguments => do
    let name ← arguments.required "name" Value.text?
    let type ← arguments.required "type" Value.typeExpr?
    let docs ← arguments.docs
    return .typeDefinition { name, type, docs }
  | .schema, arguments => do
    let address ← arguments.defaulted "address" [] Value.text?
    let metadata ← arguments.defaulted "metadata" {} Value.metadata?
    let instructions ← arguments.defaulted "instructions" [] (Value.list? Value.instruction?)
    let accounts ← arguments.defaulted "accounts" [] (Value.list? Value.accountDefinition?)
    let errors ← arguments.defaulted "errors" [] (Value.list? Value.errorDefinition?)
    let types ← arguments.defaulted "types" [] (Value.list? Value.typeDefinition?)
    return .schema { address, metadata, instructions, accounts, errors, types }

/-- The keywords of a call with their values; an argument by its position has none. -/
def keywords (arguments : List (Option Text × Value)) : Option Arguments :=
  arguments.mapM fun (key, value) => key.map (·, value)

/-- What a call yields: a class takes keywords, and `bytes` one list. -/
def apply : Value → List (Option Text × Value) → Option Value
  | .class c, arguments => ((keywords arguments).bind (construct c)).map .model
  | .bytesType, [(none, v)] => (v.list? Value.byte?).map .bytes
  | _, _ => none

/-! ### Terms and modules -/

mutual

/-- The value of a term. -/
def Term.eval (env : Env) : Term → Option Value
  | .text t => some (.text t)
  | .int n => some (.int n)
  | .bool b => some (.bool b)
  | .none => some .none
  | .name n => env.get? n
  | .list items => (evalItems env items).map .list
  | .call callee arguments =>
    match env.get? callee, evalArguments env arguments with
    | some f, some values => apply f values
    | _, _ => Option.none

/-- The values of some items. -/
def evalItems (env : Env) : List Term → Option (List Value)
  | [] => some []
  | t :: rest =>
    match t.eval env, evalItems env rest with
    | some v, some vs => some (v :: vs)
    | _, _ => none

/-- The values of some arguments, with their keywords. -/
def evalArguments (env : Env) : List (Option Text × Term) → Option (List (Option Text × Value))
  | [] => some []
  | (key, t) :: rest =>
    match t.eval env, evalArguments env rest with
    | some v, some vs => some ((key, v) :: vs)
    | _, _ => none

end

/-- All classes. -/
def classes : List Constructor :=
  [.accountDefinition, .accountRef, .arg, .arrayType, .cOptionType, .definedType, .enumType,
    .enumVariant, .errorDefinition, .fieldDef, .instruction, .metadata, .optionType, .pdaRule,
    .pdaSeed, .primitiveType, .schema, .structType, .typeDefinition, .vecType]

/-- The class with a given name. -/
def class? (name : Text) : Option Constructor := classes.find? fun c => c.name = name

/-- What is bound before a module does anything. -/
def builtins : Env := [("bytes", .bytesType)]

/-- Import classes; there has to be one for each name. -/
def importClasses (names : List Text) (env : Env) : Option Env :=
  names.foldlM (fun env name => (class? name).map fun c => (name, .class c) :: env) env

/-- Evaluate assignments in order. -/
def execute : (assignments : List (Text × Term)) → Env → Option Env
  | [], env => some env
  | (name, t) :: rest, env =>
    match t.eval env with
    | some v => execute rest ((name, v) :: env)
    | none => none

/-- Run a module: what is bound at its end, unless it raises an error. -/
def run (m : Script) : Option Env :=
  (importClasses m.imports builtins).bind (execute m.assignments)

end Script
end AnchorIdl
