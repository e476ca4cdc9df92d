/-
# Results of generating

A result lists the files that were written, the artifacts to share with callers
and the warnings for the user.  `merge` adds a second result to a first: files
and warnings after those of the first, artifacts put into its own, so each key
keeps the position of its first insertion and has the value of its last.

Source: `idlforge.codegen.base` (`GeneratorResult`).
-/

import AnchorIdl.Files.Path
import AnchorIdl.Json.Basic

namespace AnchorIdl

/-- What generating has produced. -/
structure GenerationResult where
  files : List Path := []
  artifacts : Members := []
  warnings : List Text := []
  deriving DecidableEq

namespace GenerationResult

/-- Record a file. -/
def addFile (r : GenerationResult) (file : Path) : GenerationResult :=
  { r with files := r.files ++ [file] }

/-- Record an artifact. -/
def addArtifact (r : GenerationResult) (key : Text) (value : Json) : GenerationResult :=
  { r with artifacts := r.artifacts.put key value }

/-- Record a warning. -/
def addWarning (r : GenerationResult) (warning : Text) : GenerationResult :=
  { r with warnings := r.warnings ++ [warning] }

/-- Add a second result. -/
def merge (r other : GenerationResult) : GenerationResult :=
  ⟨r.files ++ other.files, r.artifacts.merge other.artifacts, r.warnings ++ other.warnings⟩

end GenerationResult
end AnchorIdl
