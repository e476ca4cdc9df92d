/-
# Looking into documents from the command line

`lookup` writes the discriminator of an instruction as a list of numbers or as
hexadecimal digits.  `inspect` shows what a schema holds: its name, version and
address, its description, and a table for each section that has entries; that of
the instructions is always there.

Source: `idlforge.cli.lookup` (`lookup_command`, `inspect_command`).
-/

import AnchorIdl.Command.Basic
import AnchorIdl.Generation.Files

namespace AnchorIdl

variable {m : Type → Type} [Monad m] [FileAccess m]

/-- Octets as hexadecimal digits. -/
def Text.ofOctetsHex (octets : Bytes) : Text := octets.flatMap fun b => Text.hex 2 b.toNat

/-- Octets as a list of numbers. -/
def Text.ofOctetsList (octets : Bytes) : Text :=
  "[" ++ Text.join ", " (octets.map fun b => Text.ofNat b.toNat) ++ "]"

/-- The ways to write a discriminator, by name. -/
def discriminatorFormat? (name : Text) : Option (Bytes → Text) :=
  if name = "list" then some Text.ofOctetsList
  else if name = "hex" then some Text.ofOctetsHex
  else none

namespace Command

/-- The command `lookup`. -/
def runLookup (idl : Path) (instruction format : Text) : Run m Stop Unit := do
  match discriminatorFormat? format with
  | none => Run.fail ("Unsupported format: " ++ format ++ ". Use 'list' or 'hex'.")
  | some write =>
    let schema ← Run.orExit (Document.loadFile false idl)
    match schema.discriminator? instruction with
    | none =>
      Run.fail ("Instruction '" ++ instruction ++ "' not found in " ++ idl.display)
    | some discriminator => Run.record (.output (write discriminator))

/-- The first line of a summary. -/
def headline (s : Schema) : Text :=
  let name : Text := if s.metadata.name = [] then "(unnamed)" else s.metadata.name
  "[bold]" ++ Markup.escape name ++ "[/bold] v" ++ Markup.escape s.metadata.version ++ "  " ++
    s.address

/-- The table of instructions. -/
def instructionTable (s : Schema) : ConsoleTable where
  title := "Instructions"
  columns := [⟨"Name", .left, true⟩, ⟨"Discriminator", .left, true⟩, ⟨"Accounts", .left, false⟩,
    ⟨"Args", .left, false⟩]
  rows := s.instructions.map fun i =>
    let account (a : AccountRef) : Text :=
      let derived : Text := if a.pda.isSome then " (pda)" else []
      a.name ++ "[" ++ a.flags ++ "]" ++ derived
    let arg (a : Arg) : Text := a.name ++ ": " ++ a.type.display
    [Markup.escape i.name, Text.ofOctetsHex i.discriminator,
      Markup.escape (Text.join ", " (i.accounts.map account)),
      Markup.escape (Text.join ", " (i.args.map arg))]

/-- The table of account definitions. -/
def accountTable (s : Schema) : ConsoleTable where
  title := "Accounts"
  columns := [⟨"Name", .left, false⟩, ⟨"Discriminator", .left, false⟩]
  rows := s.accounts.map fun a =>
    [Markup.escape a.name, Text.ofOctetsHex (a.discriminator.getD [])]

/-- The table of errors. -/
def errorTable (s : Schema) : ConsoleTable where
  title := "Errors"
  columns := [⟨"Code", .right, false⟩, ⟨"Name", .left, true⟩, ⟨"Message", .left, false⟩]
  rows := s.errors.map fun e => [Text.ofInt e.code, Markup.escape e.name, Markup.escape e.msg]

/-- The table of types. -/
def typeTable (s : Schema) : ConsoleTable where
  title := "Types"
  columns := [⟨"Name", .left, false⟩, ⟨"Definition", .left, false⟩]
  rows := s.types.map fun t => [Markup.escape t.name, Markup.escape t.type.display]

/-- What is shown of a schema, in order. -/
def summary (s : Schema) : List Printed :=
  let description : List Printed :=
    if s.metadata.description = [] then [] else [.markup (Markup.escape s.metadata.description)]
  let entriesTable {α : Type} (entries : List α) (table : ConsoleTable) : List Printed :=
    if entries.isEmpty then [] else [.table table]
  [.markup (headline s)] ++ description ++ [.table (instructionTable s)] ++
    entriesTable s.accounts (accountTable s) ++ entriesTable s.errors (errorTable s) ++
    entriesTable s.types (typeTable s)

/-- The command `inspect`. -/
def runInspect (idl : Path) : Run m Stop Unit := do
  let schema ← Run.orExit (Document.loadFile false idl)
  for item in summary schema do
    Run.record (.printed item)

end Command
end AnchorIdl
