/-
# Paths

A path is a root and the names below it.  The root is empty for a relative
path, one slash, or two: exactly two leading slashes are kept apart from one,
more of them are one.  Empty names and `.` are dropped when a text is read as a
path, `..` is kept.  The empty relative path is written `.`.

The stem of a path is its last name up to the last point, unless that point
begins or ends the name.

Source: the paths of `idlforge.core.config`, `idlforge.core.pipeline` and
`idlforge.codegen.base`.
-/

import AnchorIdl.Text.Basic

namespace AnchorIdl

/-- A path: how many slashes begin it, none, one or two, and its names. -/
structure Path where
  slashes : Nat := 0
  names : List Text := []
  deriving DecidableEq, Repr

namespace Path

/-- The path that a text denotes. -/
def ofText (t : Text) : Path :=
  let slashes := (t.takeWhile fun c : CodePoint => c = '/').length
  ⟨if slashes ≤ 2 then slashes else 1,
    (Text.split '/' t).filter fun name => name ≠ [] ∧ name ≠ "."⟩

/-- Whether a path begins at the root. -/
def isAbsolute (p : Path) : Bool := p.slashes != 0

/-- A path as it is written. -/
def display (p : Path) : Text :=
  let t := List.replicate p.slashes (CodePoint.ofChar '/') ++ Text.join "/" p.names
  if t = [] then "." else t

/-- The path `q` as seen from `p`: `q` itself if it is absolute. -/
def append (p q : Path) : Path :=
  if q.isAbsolute then q else ⟨p.slashes, p.names ++ q.names⟩

instance : Append Path := ⟨append⟩

/-- The path without its last name; a path without names is its own parent. -/
def parent (p : Path) : Path := ⟨p.slashes, p.names.dropLast⟩

/-- The path and the paths above it, nearest first. -/
def ancestors (p : Path) : List Path :=
  (List.range (p.names.length + 1)).map fun i => ⟨p.slashes, p.names.take (p.names.length - i)⟩

/-- The last name, empty if there is none. -/
def name (p : Path) : Text := p.names.getLast?.getD []

/-- The last name without the suffix that its last point begins. -/
def stem (p : Path) : Text :=
  let name := p.name
  let suffix := name.reverse.takeWhile fun c : CodePoint => c ≠ '.'
  let before := name.length - suffix.length - 1
  if suffix = [] ∨ suffix.length = name.length ∨ before = 0 then name else name.take before

end Path
end AnchorIdl
