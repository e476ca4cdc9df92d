/-
# Targets and flags

A target is a document and the file for its bindings, with the names in it and
whether duplicates are faults.  Flags are what a user sets for one run.  A flag
goes before what a project says, and a name that is empty counts as not set:

| setting | first of |
| --- | --- |
| module | flag, entry, defaults, name of the output file |
| binding | flag, then entry, else defaults |
| strict | flag, entry, defaults |

Only an empty name in a flag, and an empty module anywhere, are passed over; an
empty binding in a project file stays.

Source: `idlforge.core.config` (`TargetConfig`, `GenerateDefaults`),
`idlforge.cli.generate` (`generate_command`), where it chooses between flags and
entries.
-/

import AnchorIdl.Bindings.Names

namespace AnchorIdl

/-- A document and where and how its bindings are written. -/
structure Target where
  idl : Path
  output : Path
  module : Text
  binding : Text
  strict : Bool := false
  deriving DecidableEq, Repr

/-- What applies to every target that does not say otherwise. -/
structure Defaults where
  module : Option Text := none
  binding : Text := "IDL"
  strict : Bool := false
  deriving DecidableEq, Repr

/-- What a user sets for one run. -/
structure Flags where
  module : Option Text := none
  binding : Option Text := none
  strict : Option Bool := none
  deriving DecidableEq, Repr

/-- A name, unless it is empty. -/
def nonEmpty? (name : Option Text) : Option Text := name.filter (· ≠ [])

/-- The first name that is set and not empty, else `last`. -/
def firstName (last : Text) (names : List (Option Text)) : Text :=
  (names.findSome? nonEmpty?).getD last

/-- The target for a document and an output file. -/
def Flags.target (flags : Flags) (defaults : Defaults) (idl output : Path) : Target where
  idl := idl
  output := output
  module := firstName (Bindings.moduleNameFor output) [flags.module, defaults.module]
  binding := firstName defaults.binding [flags.binding]
  strict := flags.strict.getD defaults.strict

/-- A target with what the flags set instead. -/
def Flags.override (flags : Flags) (target : Target) : Target :=
  { target with
    module := firstName target.module [flags.module]
    binding := firstName target.binding [flags.binding]
    strict := flags.strict.getD target.strict }

end AnchorIdl
