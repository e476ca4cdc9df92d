/-
# Runs

A run reads and writes files, shows events and may stop before its end.  What it
has shown and changed until then stays.

Source: how the functions of `idlforge.core.pipeline` and `idlforge.cli` go
through files, log lines and errors.
-/

import AnchorIdl.Console.Transcript
import AnchorIdl.Failure

namespace AnchorIdl

/-- A computation over files that shows events and may stop with an `ε`. -/
abbrev Run (m : Type → Type) (ε : Type) := ExceptT ε (StateT Transcript m)

namespace Run

variable {m : Type → Type} [Monad m] {ε δ α : Type}

/-- Show an event. -/
def record (event : Event) : Run m ε Unit := modify fun shown => shown ++ [event]

/-- Log a line. -/
def tell (level : LogLevel) (source : LogSource) (message : Text) : Run m ε Unit :=
  record (.log ⟨level, source, message⟩)

/-- Do what only logs. -/
def ofLogged (x : Logged ε α) : Run m ε α := do
  modify fun shown => shown ++ x.log.map .log
  match x.outcome with
  | .ok a => return a
  | .error e => throw e

/-- Ask the file system. -/
def ask (request : m α) : Run m ε α := ExceptT.lift (StateT.lift request)

/-- Ask the file system, and stop where the request fails; `raise` is the error for a refusal. -/
def attempt (raise : OsFault → IdlError) (request : m (Except FileFault α)) : Run m Failure α := do
  match ← ask request with
  | .ok a => return a
  | .error fault => throw (fault.toFailure raise)

/-- Do something and go on whether or not it stops. -/
def outcome (x : Run m ε α) : Run m δ (Except ε α) := ExceptT.lift x.run

end Run
end AnchorIdl
