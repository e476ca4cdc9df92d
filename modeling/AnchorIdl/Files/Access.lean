/-
# File access

What the library asks of a file system: six requests, of which four may fail.  A
path that cannot be looked up fails by itself; whether it is a file or a
directory has an answer all the same, no.  `FileAccess` leaves open who answers
the requests, the model in `Files.System` or the machine.

`makeDirectories` makes a directory and the ones above it that are missing.  A
path that is occupied is fine if a directory occupies it.

Source: the requests of `idlforge.core.loader` (`load_schema_file`),
`idlforge.core.config` (`load_config`, `find_config`), `idlforge.codegen.base`
(`Generator._write_file`).
-/

import AnchorIdl.Error
import AnchorIdl.Files.Name

namespace AnchorIdl

/-- Why a request about a path is refused. -/
inductive Refusal
  | missing
  | occupied
  | notDirectory
  | isDirectory
  | longName
  deriving DecidableEq, Repr

namespace Refusal

/-- The number of a refusal. -/
def number : Refusal → Int
  | missing => 2
  | occupied => 17
  | notDirectory => 20
  | isDirectory => 21
  | longName => 36

/-- The wording of a refusal. -/
def reason : Refusal → Text
  | missing => "No such file or directory"
  | occupied => "File exists"
  | notDirectory => "Not a directory"
  | isDirectory => "Is a directory"
  | longName => "File name too long"

/-- The answer that refuses a request about a path. -/
def answer (r : Refusal) (p : Path) : OsFault := .numbered r.number r.reason (some p.display)

/-- Whether nothing can be at the path that was asked about. -/
def meansAbsent (r : Refusal) : Bool := r == missing || r == notDirectory

end Refusal

/-- Why a request about a path fails: it is refused, or the path cannot be looked up. -/
inductive FileFault
  | refused (answer : OsFault)
  | path (fault : PathFault)
  deriving DecidableEq, Repr

/-- Whether a request is refused because something on the way is missing. -/
def FileFault.isMissing : FileFault → Bool
  | refused (.numbered number _ _) => number == Refusal.missing.number
  | _ => false

/-- What answers requests about files. -/
class FileAccess (m : Type → Type) where
  workingDirectory : m Path
  isFile : Path → m (Except OsFault Bool)
  isDirectory : Path → m Bool
  readFile : Path → m (Except FileFault Bytes)
  writeFile : Path → Bytes → m (Except FileFault Unit)
  makeDirectory : Path → m (Except FileFault Unit)

namespace FileAccess

variable {m : Type → Type} [Monad m] [FileAccess m]

/-- Accept the refusal to make a directory that is there. -/
def settle (p : Path) (fault : FileFault) : m (Except FileFault Unit) := do
  if fault.isMissing then return .error fault
  else if ← isDirectory p then return .ok ()
  else return .error fault

/-- Make a directory and the missing ones above it. -/
def makeDirectories (p : Path) : m (Except FileFault Unit) := do
  match ← makeDirectory p with
  | .ok () => return .ok ()
  | .error fault =>
    if !fault.isMissing then settle p fault
    else if _h : p.names = [] then return .error fault
    else
      match ← makeDirectories p.parent with
      | .error fault => return .error fault
      | .ok () =>
        match ← makeDirectory p with
        | .ok () => return .ok ()
        | .error fault => settle p fault
termination_by p.names.length
decreasing_by
  have := List.length_pos_iff.2 _h
  simp only [Path.parent, List.length_dropLast]
  omega

end FileAccess
end AnchorIdl
