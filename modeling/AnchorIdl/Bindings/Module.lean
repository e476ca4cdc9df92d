/-
# Bindings modules

A bindings module is a Python module that rebuilds a schema.  From top to
bottom it holds

1. a text that names the module,
2. the import of the classes whose constructors were called, in ascending order,
3. the helpers of type expressions that nest too deep,
4. the binding of the schema,
5. a constant for the name of each instruction,
6. the list `__all__` of the names it exports: the binding and the constants.

Everything follows from the schema and the two names: entries keep the order of
the schema, and no field is written that has its default, apart from the flags,
the address and the rule of an account.  The classes to import are those in the
draft when the schema has been written.

A schema with an integer too long to be written has no bindings (`printed`).

Source: `idlforge.codegen.python` (`emit`, `PythonRenderer.render`, `_schema`,
`_instruction`, `_account`, `_pda`, `_seed`, `_type_definition`).
-/

import AnchorIdl.Bindings.Names
import AnchorIdl.Bindings.TypeExpr
import AnchorIdl.Failure
import AnchorIdl.Log
import AnchorIdl.Schema.Integers

namespace AnchorIdl
namespace Bindings

/-- The arguments of a seed. -/
def seedArguments (s : Seed) : List (Text × Expr) :=
  let payload : List (Text × Expr) :=
    match s.kind with
    | .const => [("value", .bytes (s.value.getD []))]
    | .string => [("text", .text (s.text.getD []))]
    | .account | .arg =>
      ("path", .text (s.path.getD [])) ::
        match s.account with
        | none => []
        | some account => [("account", .text account)]
  ("kind", .text s.kind.name) :: payload

/-- The call for a seed. -/
def lowerSeed (s : Seed) : Lowering Expr := call .line .pdaSeed (seedArguments s)

/-- The argument for the seed of another program, if there is one. -/
def lowerProgram : Option Seed → Lowering (List (Text × Expr))
  | none => return []
  | some seed => do
    let e ← lowerSeed seed
    return [("program", e)]

/-- The call for the rule of an address. -/
def lowerPda (p : Pda) : Lowering Expr := do
  let seeds ← p.seeds.mapM lowerSeed
  let program ← lowerProgram p.program
  call .block .pdaRule (("seeds", .list .block seeds) :: program)

/-- The call for the rule of an address, or none. -/
def lowerPda? : Option Pda → Lowering Expr
  | none => return .none
  | some p => lowerPda p

/-- The arguments that account slots and account layouts share, given that for the rule. -/
def slotArguments (a : AccountRef) (pda : Expr) : List (Text × Expr) :=
  let start : List (Text × Expr) :=
    [("name", .text a.name), ("writable", .bool a.writable), ("signer", .bool a.signer)]
  let optional : List (Text × Expr) := if a.optional then [("optional", .bool true)] else []
  let address : List (Text × Expr) := [("address", Expr.textOrNone a.address), ("pda", pda)]
  start ++ optional ++ address ++ docsArgument a.docs

/-- The call for an account slot. -/
def lowerAccount (a : AccountRef) : Lowering Expr := do
  let pda ← lowerPda? a.pda
  call .block .accountRef (slotArguments a pda)

/-- The argument for the discriminator of an account layout, if it has one. -/
def layoutArgument : Option Bytes → List (Text × Expr)
  | none => []
  | some bytes => [("discriminator", .bytes bytes)]

/-- The call for an account layout. -/
def lowerAccountDefinition (a : AccountDefinition) : Lowering Expr := do
  let pda ← lowerPda? a.pda
  call .block .accountDefinition
    (slotArguments a.toAccountRef pda ++ layoutArgument a.discriminator)

/-- The call for a program's metadata. -/
def lowerMetadata (m : Metadata) : Lowering Expr :=
  call .block .metadata
    [("name", .text m.name), ("version", .text m.version), ("spec", .text m.spec),
      ("description", .text m.description)]

/-- The call for an error. -/
def lowerError (e : ErrorDefinition) : Lowering Expr :=
  call .line .errorDefinition
    [("code", .int e.code), ("name", .text e.name), ("msg", .text e.msg)]

/-- The call for an argument. -/
def lowerArg (binding : Text) (a : Arg) : Lowering Expr := do
  let type ← place binding 5 (lowerType binding a.type)
  call .line .arg [("name", .text a.name), ("type", type)]

/-- The call for an instruction. -/
def lowerInstruction (binding : Text) (i : Instruction) : Lowering Expr := do
  let accounts ← i.accounts.mapM lowerAccount
  let args ← i.args.mapM (lowerArg binding)
  let start : List (Text × Expr) :=
    [("name", .text i.name), ("discriminator", .bytes i.discriminator),
      ("accounts", .list .block accounts), ("args", .list .block args)]
  call .block .instruction (start ++ docsArgument i.docs)

/-- The call for a custom type. -/
def lowerTypeDefinition (binding : Text) (t : TypeDefinition) : Lowering Expr := do
  let type ← lowerDefinition binding t.type
  call .block .typeDefinition (("name", .text t.name) :: ("type", type) :: docsArgument t.docs)

/-- The call for a schema. -/
def lowerSchema (binding : Text) (s : Schema) : Lowering Expr := do
  let metadata ← lowerMetadata s.metadata
  let instructions ← s.instructions.mapM (lowerInstruction binding)
  let accounts ← s.accounts.mapM lowerAccountDefinition
  let errors ← s.errors.mapM lowerError
  let types ← s.types.mapM (lowerTypeDefinition binding)
  call .block .schema
    [("address", .text s.address), ("metadata", metadata),
      ("instructions", .list .block instructions), ("accounts", .list .block accounts),
      ("errors", .list .block errors), ("types", .list .block types)]

end Bindings

/-- A bindings module. -/
structure BindingsModule where
  name : Text
  draft : Bindings.Draft
  binding : Text
  schema : Bindings.Expr
  constants : List (Text × Text)

namespace BindingsModule
open Bindings

/-- The helpers of a module. -/
abbrev helpers (m : BindingsModule) : List Helper := m.draft.helpers

/-- The constructors whose classes a module imports, in ascending order. -/
def imports (m : BindingsModule) : List Constructor := m.draft.used.mergeSort Constructor.le

/-- The names that a module exports. -/
def exports (m : BindingsModule) : List Text := m.binding :: m.constants.map Prod.fst

/-- An assignment. -/
def assignment (name : Text) (value : Expr) : Text := name ++ " = " ++ value.render 0

/-- Some lines and an empty one, unless there are none. -/
def paragraph (lines : List Text) : List Text := if lines = [] then [] else lines ++ [[]]

/-- The lines that name a module. -/
def title (m : BindingsModule) : List Text :=
  ["\"\"\"", ("IDL bindings: " : Text) ++ m.name ++ ".", [],
    "Generated by idlforge - DO NOT EDIT.", "\"\"\"", []]

/-- The lines that import the classes of a module. -/
def importLines (m : BindingsModule) : List Text :=
  let start : Text := "from idlforge.core.ir import ("
  let stop : List Text := [")", []]
  start :: m.imports.map (fun c => Expr.indentation 1 ++ c.name ++ ",") ++ stop

/-- The lines of a module; a line of an assignment may hold line feeds. -/
def lines (m : BindingsModule) : List Text :=
  m.title ++ m.importLines ++
  paragraph (m.helpers.map fun helper => assignment helper.1 helper.2) ++
  [assignment m.binding m.schema, []] ++
  paragraph (m.constants.map fun constant => assignment constant.1 (.text constant.2)) ++
  [assignment "__all__" (.list .block (m.exports.map .text))]

/-- A module as it is written. -/
def render (m : BindingsModule) : Text := m.lines.flatMap fun line => line ++ "\n"

end BindingsModule

/-- What writes the bindings of one schema: the draft and the warnings of its earlier modules stay
when it writes another. -/
structure BindingsWriter where
  schema : Schema
  name : Text
  binding : Text
  draft : Bindings.Draft := {}
  warnings : List Text := []

namespace Bindings

/-- The text of the module for a schema, unless an integer of the schema is too long to be written:
wherever the first such integer stands, nothing is written then. -/
def printed (s : Schema) (text : Text) : Except Failure Text :=
  if s.integers.all Text.isShort then .ok text else .error .overlong

end Bindings

namespace BindingsWriter

/-- A writer for the bindings of a schema under given names. -/
def make (schema : Schema) (name binding : Text) : Except IdlError BindingsWriter := do
  Bindings.checkNames name binding
  return { schema, name, binding }

/-- The module that a writer writes next, and the warnings of its constants. -/
def next (w : BindingsWriter) : BindingsModule × List Text :=
  let (schema, draft) := (Bindings.lowerSchema w.binding w.schema).run w.draft
  let constants := Bindings.Constants.ofNames w.binding (w.schema.instructions.map Instruction.name)
  (⟨w.name, draft, w.binding, schema, constants.entries⟩, constants.warnings)

/-- Write a module. -/
def write (w : BindingsWriter) : Except Failure (Text × BindingsWriter) := do
  let (m, warnings) := w.next
  let text ← Bindings.printed w.schema m.render
  return (text, { w with draft := m.draft, warnings := w.warnings ++ warnings })

end BindingsWriter

namespace Bindings

/-- The bindings of a schema under given names; each warning is logged. -/
def emit (schema : Schema) (name binding : Text) : Logged Failure Text := do
  let writer ← .lift ((BindingsWriter.make schema name binding).mapError .error)
  let (m, warnings) := writer.next
  let text ← .lift (printed schema m.render)
  .tellAll (warnings.map fun message => ⟨.debug, .bindings, message⟩)
  return text

end Bindings
end AnchorIdl
