/-
# Places inside JSON values

A place is the list of steps from the root of a value to a part of it, each a
member of an object or an index of a list.  It is written
`instructions[2].args[0].type`, and the root itself `<root>`; its dotted form
`instructions.2.args.0.type` writes an index like a name.

Source: the paths that `idlforge.core.loader` passes down its readers.
-/

import AnchorIdl.Text.Basic

namespace AnchorIdl

/-- One step from a value into it. -/
inductive Step
  | member (name : Text)
  | index (i : Nat)
  deriving DecidableEq, Repr

/-- The steps from the root of a document to a value. -/
abbrev Place := List Step

namespace Place

/-- The place of a member of the object at `p`. -/
def member (p : Place) (name : Text) : Place := p ++ [.member name]

/-- The place of an item of the list at `p`. -/
def index (p : Place) (i : Nat) : Place := p ++ [.index i]

/-- A step after another one. -/
def displayStep : Step → Text
  | .member name => "." ++ name
  | .index i => "[" ++ Text.ofNat i ++ "]"

/-- A place as it is written. -/
def display : Place → Text
  | [] => "<root>"
  | .member name :: rest => name ++ rest.flatMap displayStep
  | .index i :: rest => (Step.index i :: rest).flatMap displayStep

/-- A place with a point between each two steps. -/
def dotted (p : Place) : Text :=
  Text.join "." (p.map fun
    | .member name => name
    | .index i => Text.ofNat i)

end Place

end AnchorIdl
