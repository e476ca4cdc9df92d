/-
# Project files

A project file is a TOML table with two parts that may be absent: a table
`generate` of defaults and a list `targets` of tables, one for each document.
Paths in it are seen from the directory of the file.

`Project.ofTable` reads the parts in the order of the file's meaning: first the
defaults, then the targets one after the other, and stops at the first flaw.

Source: `idlforge.core.config` (`load_config`, `_table`, `_str`,
`_optional_str`, `_bool`).
-/

import AnchorIdl.Generation.Target
import AnchorIdl.Toml.Value

namespace AnchorIdl

/-- What is wrong with a project file. -/
inductive ProjectFlaw
  | noToml
  | notTable (key : Text)
  | notText (key : Text)
  | notBoolean (key : Text)
  | targetsNoList
  | targetNoTable (index : Nat)
  | targetWithout (index : Nat) (key : Text)
  deriving DecidableEq, Repr

/-- The wording of a flaw. -/
def ProjectFlaw.message : ProjectFlaw → Text
  | noToml => "Invalid TOML"
  | notTable key => "'" ++ key ++ "' must be a table"
  | notText key => "'" ++ key ++ "' must be a string"
  | notBoolean key => "'" ++ key ++ "' must be a boolean"
  | targetsNoList => "'targets' must be an array of tables"
  | targetNoTable index => "targets[" ++ Text.ofNat index ++ "] must be a table"
  | targetWithout index key => "targets[" ++ Text.ofNat index ++ "] requires '" ++ key ++ "'"

/-- What a project file says. -/
structure Project where
  root : Path
  defaults : Defaults := {}
  targets : List Target := []
  deriving DecidableEq, Repr

namespace Project
open Toml

/-- The text of a key, if it has one. -/
def readText? (t : Table) (key : Text) : Except ProjectFlaw (Option Text) :=
  match t.get? key with
  | none => .ok none
  | some (.text value) => .ok (some value)
  | some _ => .error (.notText key)

/-- The truth value of a key, if it has one. -/
def readBoolean? (t : Table) (key : Text) : Except ProjectFlaw (Option Bool) :=
  match t.get? key with
  | none => .ok none
  | some (.boolean value) => .ok (some value)
  | some _ => .error (.notBoolean key)

/-- The defaults. -/
def readDefaults (t : Table) : Except ProjectFlaw Defaults := do
  let generate ← match t.get? "generate" with
    | none => pure []
    | some (.table entries) => pure entries
    | some _ => throw (.notTable "generate")
  let module ← readText? generate "module"
  let binding ← readText? generate "binding"
  let strict ← readBoolean? generate "strict"
  return { module, binding := binding.getD "IDL", strict := strict.getD false }

/-- A path that an entry must have. -/
def readPath (index : Nat) (entry : Table) (key : Text) : Except ProjectFlaw Path :=
  match entry.get? key with
  | some (.text value) => .ok (Path.ofText value)
  | _ => .error (.targetWithout index key)

/-- One target. -/
def readTarget (root : Path) (defaults : Defaults) (index : Nat) :
    Value → Except ProjectFlaw Target
  | .table entry => do
    let idl ← readPath index entry "idl"
    let output ← readPath index entry "output"
    let output := root ++ output
    let module ← readText? entry "module"
    let binding ← readText? entry "binding"
    let strict ← readBoolean? entry "strict"
    return {
      idl := root ++ idl
      output
      module := firstName (Bindings.moduleNameFor output) [module, defaults.module]
      binding := binding.getD defaults.binding
      strict := strict.getD defaults.strict }
  | _ => .error (.targetNoTable index)

/-- The targets from the one at `index` on. -/
def readTargets (root : Path) (defaults : Defaults) :
    (index : Nat) → List Value → Except ProjectFlaw (List Target)
  | _, [] => .ok []
  | index, value :: rest => do
    let target ← readTarget root defaults index value
    return target :: (← readTargets root defaults (index + 1) rest)

/-- The project that a table describes, seen from `root`. -/
def ofTable (root : Path) (t : Table) : Except ProjectFlaw Project := do
  let defaults ← readDefaults t
  let targets ← match t.get? "targets" with
    | none => pure []
    | some (.array values) => readTargets root defaults 0 values
    | some _ => throw .targetsNoList
  return { root, defaults, targets }

end Project
end AnchorIdl
