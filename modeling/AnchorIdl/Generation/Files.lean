/-
# Generating files

The bindings of a document are rendered before anything is written, so a
failure on the way leaves every file as it was.  The directory of the output is
made if it is missing.

Source: `idlforge.core.pipeline` (`generate_file`), `idlforge.core.loader`
(`load_schema_file`), `idlforge.codegen.base` (`Generator._write_file`),
`idlforge.codegen.python` (`PythonEmitter.generate`).
-/

import AnchorIdl.Generation
import AnchorIdl.Generation.Result
import AnchorIdl.Generation.Target
import AnchorIdl.Run

namespace AnchorIdl

variable {m : Type → Type} [Monad m] [FileAccess m]

/-- Load the document in a file. -/
def Document.loadFile (strict : Bool) (file : Path) : Run m Failure Schema := do
  let octets ← Run.attempt (fun answer => .io "Failed to read IDL" file (some answer))
    (FileAccess.readFile file)
  Run.tell .debug .loader
    ("Read " ++ Text.ofNat octets.length ++ " bytes from " ++ file.display)
  Run.ofLogged ((Document.load strict (.octets octets)).mapError (·.toFailure (some file)))

/-- Write a text to a file, in a directory that is made if it is missing. -/
def writeSource (file : Path) (source : Text) : Run m Failure Unit := do
  let raise (answer : OsFault) : IdlError :=
    .io "Failed to write generated source" file (some answer)
  match Utf8.encode source with
  | .error fault => throw (.unencodable fault)
  | .ok octets =>
    Run.attempt raise (FileAccess.makeDirectories file.parent)
    Run.attempt raise (FileAccess.writeFile file octets)
    Run.tell .debug .writer
      ("Wrote " ++ Text.ofNat source.length ++ " characters to " ++ file.display)

/-- Write the bindings of a schema to a file. -/
def Bindings.emitFile (schema : Schema) (output : Path) (name binding : Text) :
    Run m Failure GenerationResult := do
  let writer ← Run.ofLogged (.lift ((BindingsWriter.make schema name binding).mapError .error))
  let (source, writer) ← Run.ofLogged (.lift writer.write)
  for warning in writer.warnings do
    Run.tell .debug .bindings warning
  writeSource output source
  let instructions := schema.instructions.map Instruction.name
  Run.tell .info .bindings
    ("Generated " ++ name ++ " (" ++ Text.ofNat instructions.length ++ " instructions) at " ++
      output.display)
  return {
    files := [output]
    artifacts := [("binding", .str binding), ("instructions", .ofTexts instructions)]
    warnings := writer.warnings }

/-- Generate the bindings of a target. -/
def Target.generate (t : Target) : Run m Failure GenerationResult := do
  let schema ← Document.loadFile t.strict t.idl
  Bindings.emitFile schema t.output t.module t.binding

end AnchorIdl
