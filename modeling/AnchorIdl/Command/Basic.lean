/-
# Commands

A command stops early in two ways.  An error of the library, or of its own, is
shown as an error line, and the exit code is one.  Any other failure is not
shown; it ends the program.

Source: `idlforge.cli.utils` (`fail`, `load_or_exit`).
-/

import AnchorIdl.Failure
import AnchorIdl.Run

namespace AnchorIdl

/-- How a command stops early. -/
inductive Stop
  | exit (code : Nat)
  | failure (f : Failure)
  deriving DecidableEq, Repr

namespace Run

variable {m : Type → Type} [Monad m] {α : Type}

/-- Show an error and exit. -/
def fail (message : Text) : Run m Stop α := do
  record (.error message)
  throw (.exit 1)

/-- Do something, and exit where the library has an error. -/
def orExit (x : Run m Failure α) : Run m Stop α := do
  match ← outcome x with
  | .ok a => return a
  | .error (.error e) => fail e.display
  | .error f => throw (.failure f)

/-- Show marked-up text. -/
def printMarkup (text : Text) : Run m Stop Unit := record (.printed (.markup text))

end Run
end AnchorIdl
