/-
# Log lines

Loading, writing and generating leave a log: lines of three levels, each from
one part of the library.  The log is part of every result, also of a failure.

Source: the log lines of `idlforge.core.loader`, `idlforge.core.config`,
`idlforge.codegen.base` and `idlforge.codegen.python`, and `idlforge.cli.utils`
(`configure_logging`).
-/

import AnchorIdl.Text.Basic

namespace AnchorIdl

/-- The levels of log lines. -/
inductive LogLevel
  | debug
  | info
  | warning
  deriving DecidableEq, Repr

/-- The parts of the library that log. -/
inductive LogSource
  | loader
  | config
  | writer
  | bindings
  deriving DecidableEq, Repr

/-- One line of the log. -/
structure LogLine where
  level : LogLevel
  source : LogSource
  message : Text
  deriving DecidableEq, Repr

/-- The name of a level. -/
def LogLevel.name : LogLevel → Text
  | debug => "DEBUG"
  | info => "INFO"
  | warning => "WARNING"

/-- The name of a part. -/
def LogSource.name : LogSource → Text
  | loader => "idlforge.core.loader"
  | config => "idlforge.core.config"
  | writer => "idlforge.codegen.base"
  | bindings => "idlforge.codegen.python"

/-- A log line with its level and its source. -/
def LogLine.display (l : LogLine) : Text :=
  l.level.name ++ " " ++ l.source.name ++ ": " ++ l.message

/-- A computation that logs and may fail; what was logged before the failure stays. -/
structure Logged (ε α : Type) where
  log : List LogLine
  outcome : Except ε α

namespace Logged

variable {ε α β : Type}

/-- Log one line. -/
def tell (level : LogLevel) (source : LogSource) (message : Text) : Logged ε Unit :=
  ⟨[⟨level, source, message⟩], .ok ()⟩

/-- Log some lines. -/
def tellAll (lines : List LogLine) : Logged ε Unit := ⟨lines, .ok ()⟩

/-- A computation that logs nothing. -/
def lift (outcome : Except ε α) : Logged ε α := ⟨[], outcome⟩

/-- Go on with the value, if there is one, after what was logged. -/
def bind (x : Logged ε α) (f : α → Logged ε β) : Logged ε β :=
  match x.outcome with
  | .error e => ⟨x.log, .error e⟩
  | .ok a => ⟨x.log ++ (f a).log, (f a).outcome⟩

instance : Monad (Logged ε) where
  pure a := ⟨[], .ok a⟩
  bind := bind

/-- Restate the error. -/
def mapError {δ : Type} (f : ε → δ) (x : Logged ε α) : Logged δ α :=
  ⟨x.log, x.outcome.mapError f⟩

end Logged
end AnchorIdl
