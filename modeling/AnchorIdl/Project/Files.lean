/-
# Finding and loading project files

A project file is text in UTF-8.  Lines may end in a line feed, a carriage
return or both.  The nearest one is looked for in a directory and the ones above
it.

Source: `idlforge.core.config` (`load_config`, `find_config`).
-/

import AnchorIdl.Failure
import AnchorIdl.Project.Basic
import AnchorIdl.Run
import AnchorIdl.Toml.Reader

namespace AnchorIdl
namespace Project

/-- The name of project files. -/
def fileName : Text := "idlforge.toml"

/-- A text whose lines all end in line feeds. -/
def unifyLineEnds : Text → Text
  | [] => []
  | c :: r =>
    if c = '\r' then
      match r with
      | [] => [CodePoint.ofChar '\n']
      | d :: r => if d = '\n' then d :: unifyLineEnds r else '\n' :: unifyLineEnds (d :: r)
    else c :: unifyLineEnds r

/-- The project that the octets of a file describe. -/
def ofOctets (file : Path) (octets : Bytes) : Except Failure Project := do
  let flawed (flaw : ProjectFlaw) : Failure := .error (.inConfig flaw.message (some file))
  let text ← (Utf8.decode false octets).mapError .undecodable
  let table ← (Toml.read (unifyLineEnds text)).mapError fun
    | .malformed => flawed .noToml
    | .longInteger digits => .longInteger digits
  (ofTable file.parent table).mapError flawed

variable {m : Type → Type} [Monad m] [FileAccess m]

/-- Load a project file. -/
def loadFile (file : Path) : Run m Failure Project := do
  let octets ← Run.attempt (fun answer => .io "Failed to read config" file (some answer))
    (FileAccess.readFile file)
  let project ← Run.ofLogged (.lift (ofOctets file octets))
  Run.tell .debug .config
    ("Loaded config " ++ file.display ++ " with " ++ Text.ofNat project.targets.length ++
      " targets")
  return project

/-- The project file in the first of some directories that has one; a refusal to tell ends the
search. -/
def findIn : List Path → Run m Failure (Option Path)
  | [] => return none
  | directory :: rest => do
    let candidate := directory ++ Path.ofText fileName
    match ← Run.ask (FileAccess.isFile candidate) with
    | .ok true => return some candidate
    | .ok false => findIn rest
    | .error answer => throw (.refused answer)

/-- The nearest project file in a directory or above it. -/
def find? (start : Path) : Run m Failure (Option Path) := findIn start.ancestors

end Project
end AnchorIdl
