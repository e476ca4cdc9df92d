/-
# The program

Runs a command line over the files of the machine and shows its events where
they belong: output and printed items on the standard output, diagnostics on the
standard error.

Source: `idlforge.cli` (`main`).
-/

import AnchorIdl.Command.Session
import AnchorIdl.Console.Layout

namespace AnchorIdl
namespace Machine

/-- The number and the wording of an error of the machine, if it is about a file. -/
def codeOf? : IO.Error → Option (UInt32 × String)
  | .alreadyExists _ code details | .noFileOrDirectory _ code details
  | .permissionDenied _ code details | .resourceExhausted _ code details
  | .inappropriateType _ code details | .invalidArgument _ code details
  | .noSuchThing _ code details | .otherError code details => some (code, details)
  | _ => none

/-- An error of the machine as a refusal about a path. -/
def answerOf (p : Path) (e : IO.Error) : OsFault :=
  match codeOf? e with
  | some (code, details) => .numbered code.toNat (Text.ofString details) (some p.display)
  | none => .text (Text.ofString e.toString)

/-- The numbers of errors that tell that nothing is where a path leads. -/
def absentCodes : List UInt32 := [2, 9, 20, 40]

/-- Whether an error tells that nothing is where a path leads. -/
def meansAbsent (e : IO.Error) : Bool :=
  (codeOf? e).any fun (code, _) => absentCodes.contains code

/-- Ask the machine about a path. -/
def request {α : Type} (p : Path) (ask : String → IO α) : IO (Except FileFault α) := do
  match p.route with
  | .error fault => return .error (.path fault)
  | .ok _ =>
    try
      return .ok (← ask p.display.toString)
    catch e =>
      return .error (.refused (answerOf p e))

/-- Whether what a path leads to is of a given type. -/
def hasType (p : Path) (type : IO.FS.FileType) : IO (Except OsFault Bool) := do
  if !p.hasRoute then return .ok false
  try
    let here ← IO.currentDir
    return .ok ((← (here / p.display.toString).metadata).type == type)
  catch e =>
    return if meansAbsent e then .ok false else .error (answerOf p e)

instance : FileAccess IO where
  workingDirectory := return Path.ofText (Text.ofString (← IO.currentDir).toString)
  isFile p := hasType p .file
  isDirectory p := return (← hasType p .dir).toOption.getD false
  readFile p := request p fun name => return (← IO.FS.readBinFile name).toList
  writeFile p content := request p fun name => IO.FS.writeBinFile name ⟨content.toArray⟩
  makeDirectory p := request p fun name => IO.FS.createDir name

/-- Show an event. -/
def showEvent (verbose : Bool) (event : Event) : IO Unit := do
  for line in event.outputLine?.toList ++ (event.printed?.map Printed.lines).getD [] do
    IO.println line.toString
  for line in (event.diagnosticLine? verbose).toList do
    IO.eprintln line.toString

end Machine
end AnchorIdl

open AnchorIdl in
/-- Run the command line `arguments`. -/
def main (arguments : List String) : IO UInt32 := do
  let report : CommandReport ← Command.runWords (arguments.map Text.ofString)
  for event in report.transcript do
    Machine.showEvent report.verbose event
  if report.code = 2 then
    IO.eprintln "Usage: [-v] generate [IDL OUTPUT] | lookup IDL INSTRUCTION | inspect IDL"
  for failure in report.failure.toList do
    IO.eprintln failure.message.toString
  return UInt32.ofNat report.code
