/-
# Names in a bindings module

A module is imported by a dotted name whose parts are ASCII identifiers, and
binds its schema to an identifier; neither may be reserved.  The parts of a
module name are looked at before a line feed that ends it, and tested for
reserved words with it.

Each instruction gets a constant that holds its name.  The constant is
`INSTRUCTION_` and the name in capitals, with an underscore before each capital
letter that follows a small letter or a digit and for each character that is
no letter, digit or underscore.

A module without a name of its own is called after its file.

Source: `idlforge.codegen.python` (`_MODULE_NAME`, `PythonRenderer.__init__`,
`constant_name`, `_constants`), `idlforge.core.config` (`module_name_for`).
-/

import AnchorIdl.Error
import AnchorIdl.Text.Identifier

namespace AnchorIdl
namespace Bindings

/-- The text without a line feed at its end. -/
def withoutLineFeed (t : Text) : Text :=
  if t.getLast? = some (CodePoint.ofChar '\n') then t.dropLast else t

/-- Whether a module may be imported by a name. -/
def isModuleName (t : Text) : Bool :=
  ((withoutLineFeed t).split '.').all Text.isAsciiIdentifier &&
    (t.split '.').all fun part => !Text.isReserved part

/-- Whether a schema may be bound to a name. -/
def isBindingName (t : Text) : Bool := t.isIdentifier && !t.isReserved

/-- Check the name of a module and then that of its binding. -/
def checkNames (moduleName binding : Text) : Except IdlError Unit :=
  if !isModuleName moduleName then
    .error (.emission ("Invalid module name: " ++ Quoted.single moduleName) none)
  else if !isBindingName binding then
    .error (.emission ("Invalid binding name: " ++ Quoted.single binding) none)
  else .ok ()

/-- The name with an underscore before each capital letter that follows a small letter or a
digit; `after` tells whether the text stands after one. -/
def separateWords : (after : Bool) → Text → Text
  | _, [] => []
  | after, c :: rest =>
    let tail := c :: separateWords (c.isLower || c.isDigit) rest
    if after && c.isUpper then '_' :: tail else tail

/-- The name with an underscore for each character that is no letter, digit or underscore. -/
def maskSymbols (t : Text) : Text :=
  t.map fun c : CodePoint => if c.isWord then c else CodePoint.ofChar '_'

/-- The constant that holds an instruction's name, if no other constant has it already. -/
def constantName (instruction : Text) : Text :=
  "INSTRUCTION_" ++ (maskSymbols (separateWords false instruction)).map CodePoint.toUpper

/-- A constant with a number behind it. -/
def numbered (base : Text) (n : Nat) : Text := base ++ "_" ++ Text.ofNat n

/-- The least number from two on that makes a constant none of the taken names.  Of one more
candidate than there are taken names, one is free. -/
def freeNumber (taken : List Text) (base : Text) : Nat :=
  let candidates := (List.range (taken.length + 1)).map (· + 2)
  (candidates.find? fun n => !taken.contains (numbered base n)).getD 2

/-- The constants of a module, each with the instruction name that it holds, and the warnings of
those that were renamed. -/
structure Constants where
  entries : List (Text × Text) := []
  warnings : List Text := []
  deriving DecidableEq, Repr

/-- The warning of a constant that was renamed. -/
def renamedWarning (instruction constant : Text) : Text :=
  "Instruction constant for '" ++ instruction ++ "' renamed to " ++ constant ++
    " to avoid a name clash"

namespace Constants

/-- Add the constant for an instruction name, unless the name has one. -/
def add (binding : Text) (cs : Constants) (instruction : Text) : Constants :=
  if (cs.entries.map Prod.snd).contains instruction then cs
  else
    let taken := binding :: cs.entries.map Prod.fst
    let base := constantName instruction
    if taken.contains base then
      let constant := numbered base (freeNumber taken base)
      ⟨cs.entries ++ [(constant, instruction)],
        cs.warnings ++ [renamedWarning instruction constant]⟩
    else ⟨cs.entries ++ [(base, instruction)], cs.warnings⟩

/-- The constants for some instruction names, in the order of their first occurrence. -/
def ofNames (binding : Text) (instructions : List Text) : Constants :=
  instructions.foldl (add binding) {}

end Constants

/-- The module name for an output file: its stem with an underscore for each symbol, and an
underscore in front of a digit or a reserved word. -/
def moduleNameFor (output : Path) : Text :=
  match maskSymbols output.stem with
  | [] => "_"
  | c :: rest =>
    if c.isDigit || Text.isReserved (c :: rest) then '_' :: c :: rest else c :: rest

end Bindings
end AnchorIdl
