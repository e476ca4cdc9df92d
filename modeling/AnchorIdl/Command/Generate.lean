/-
# Generating from the command line

`generate IDL OUTPUT` writes the bindings of one document, with the defaults of
the nearest project file if there is one.  `generate` alone writes those of
every target of the project.  Targets are generated one after the other, each
is reported when it is written, and the warnings of all of them follow at the
end.

Source: `idlforge.cli.generate` (`generate_command`).
-/

import AnchorIdl.Command.Basic
import AnchorIdl.Generation.Files
import AnchorIdl.Project.Files

namespace AnchorIdl

variable {m : Type → Type} [Monad m] [FileAccess m]

namespace Command

/-- The project file that is given, else the nearest one. -/
def projectFile? (given : Option Path) : Run m Stop (Option Path) :=
  match given with
  | some file => return some file
  | none => do
    let start ← Run.ask FileAccess.workingDirectory
    Run.orExit (Project.find? start)

/-- The only target when a document is given. -/
def singleTarget (idl output : Path) (flags : Flags) (project : Option Path) :
    Run m Stop Target := do
  match ← projectFile? project with
  | none => return flags.target {} idl output
  | some file =>
    let project ← Run.orExit (Project.loadFile file)
    return flags.target project.defaults idl output

/-- The targets of a project. -/
def projectTargets (flags : Flags) (project : Option Path) : Run m Stop (List Target) := do
  match ← projectFile? project with
  | none => Run.fail ("No IDL given and no " ++ Project.fileName ++ " found")
  | some file =>
    let project ← Run.orExit (Project.loadFile file)
    if project.targets = [] then Run.fail (file.display ++ " declares no targets")
    else return project.targets.map flags.override

/-- The line that reports a target. -/
def generatedLine (t : Target) : Text :=
  "[green]Generated " ++ Markup.escape t.output.display ++ "[/green] (" ++ t.module ++ "." ++
    t.binding ++ ")"

/-- The line of a warning. -/
def warningLine (warning : Text) : Text := "[yellow]Warning:[/yellow] " ++ Markup.escape warning

/-- Generate targets one after the other, and add their results to `result`. -/
def generateAll : (result : GenerationResult) → List Target → Run m Stop GenerationResult
  | result, [] => return result
  | result, target :: rest => do
    let next ← Run.orExit target.generate
    Run.printMarkup (generatedLine target)
    generateAll (result.merge next) rest

/-- Generate targets and show their warnings. -/
def generateTargets (targets : List Target) : Run m Stop Unit := do
  let result ← generateAll {} targets
  for warning in result.warnings do
    Run.printMarkup (warningLine warning)

/-- The command `generate`. -/
def runGenerate (idl output : Option Path) (flags : Flags) (project : Option Path) :
    Run m Stop Unit := do
  match idl, output with
  | some _, none => Run.fail "OUTPUT is required when IDL is given"
  | some idl, some output => generateTargets [← singleTarget idl output flags project]
  | none, _ => generateTargets (← projectTargets flags project)

end Command
end AnchorIdl
