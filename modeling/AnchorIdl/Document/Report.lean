/-
# What a loaded document is told about

Two things are reported about a schema that was read.

*Duplicates*: instruction names, discriminators, error codes and type names
should differ from each other.  In each of these columns, in this order, every
entry whose value stood there before is a duplicate; it is reported with the
first place of that value.  Strict loading fails at the first of them, lenient
loading warns of each.  Either way the message is written first, which fails for
an error code that is too long.

*Dangling references*: an argument or a custom type may refer to a name that no
custom type and no account layout has.  Each such name is warned of once for
each argument or type.

Source: `idlforge.core.loader` (`_check_duplicates`, `_report_duplicates`,
`_check_references`).
-/

import AnchorIdl.Document.Fault
import AnchorIdl.Log
import AnchorIdl.Schema.Basic

namespace AnchorIdl
namespace Document

/-- The entries from index `i` on whose value stood before, each with the first index of that
value; `seen` holds the values before and their first indices. -/
def repeatsFrom {α : Type} [DecidableEq α] :
    (i : Nat) → (seen : List (α × Nat)) → List α → List (Nat × α × Nat)
  | _, _, [] => []
  | i, seen, x :: rest =>
    match seen.lookup x with
    | some first => (i, x, first) :: repeatsFrom (i + 1) seen rest
    | none => repeatsFrom (i + 1) (seen ++ [(x, i)]) rest

/-- The entries whose value stood before: index, value, first index of the value. -/
def repeats {α : Type} [DecidableEq α] (column : List α) : List (Nat × α × Nat) :=
  repeatsFrom 0 [] column

/-- The duplicates of one column; `place` tells where its entries stand. -/
def columnDuplicates {α : Type} [DecidableEq α] (identity : Identity) (place : Nat → Place)
    (value : α → Json) (column : List α) : List Fault :=
  (repeats column).map fun r =>
    ⟨.duplicate identity (value r.2.1) (place r.2.2), some (place r.1)⟩

/-- The place of a member of an entry of a list. -/
def entryPlace (list key : Text) (i : Nat) : Place :=
  [.member list, .index i, .member key]

/-- All duplicates of a schema, column by column. -/
def duplicates (s : Schema) : List Fault :=
  columnDuplicates .instructionName (entryPlace "instructions" "name") Json.str
      (s.instructions.map Instruction.name) ++
    columnDuplicates .discriminator (entryPlace "instructions" "discriminator") Json.ofBytes
      (s.instructions.map Instruction.discriminator) ++
    columnDuplicates .errorCode (entryPlace "errors" "code") Json.int
      (s.errors.map ErrorDefinition.code) ++
    columnDuplicates .typeName (entryPlace "types" "name") Json.str
      (s.types.map TypeDefinition.name)

/-- The names that references may have. -/
def declaredNames (s : Schema) : List Text :=
  s.types.map TypeDefinition.name ++ s.accounts.map fun a => a.name

/-- The type expressions of a schema's arguments and then of its custom types, with their
places. -/
def expressions (s : Schema) : List (Place × TypeExpr) :=
  (s.instructions.zipIdx.flatMap fun (ix, i) =>
      ix.args.zipIdx.map fun (arg, j) =>
        ([.member "instructions", .index i, .member "args", .index j], arg.type)) ++
    s.types.zipIdx.map fun (t, i) => ([.member "types", .index i], t.type)

/-- The references to undeclared names, with the places of the expressions that hold them. -/
def danglingReferences (s : Schema) : List (Place × Text) :=
  let known := declaredNames s
  (expressions s).flatMap fun (place, type) =>
    (type.definedNames.filter fun name => !known.contains name).map fun name => (place, name)

/-- A warning of the loader. -/
def warn (message : Text) : LogLine := ⟨.warning, .loader, message⟩

/-- The warning of a duplicate whose message is given. -/
def duplicateWarning (f : Fault) (message : Text) : LogLine :=
  warn (f.place.elim [] Place.display ++ ": " ++ message)

/-- Report one duplicate: fail if `strict`, else warn. -/
def reportDuplicate (strict : Bool) (f : Fault) : Logged Rejection Unit :=
  match f.complaint.message with
  | none => .lift (.error .overlong)
  | some message =>
    if strict then .lift (.error (.fault f)) else .tellAll [duplicateWarning f message]

/-- Report some duplicates, each in its turn. -/
def reportEach (strict : Bool) : List Fault → Logged Rejection Unit
  | [] => return ()
  | f :: rest => do
    reportDuplicate strict f
    reportEach strict rest

/-- Report the duplicates of a schema. -/
def reportDuplicates (strict : Bool) (s : Schema) : Logged Rejection Unit :=
  reportEach strict (duplicates s)

/-- The warning of a dangling reference. -/
def referenceWarning (place : Place) (name : Text) : LogLine :=
  warn (place.display ++ ": reference to undeclared type '" ++ name ++ "'")

end Document
end AnchorIdl
