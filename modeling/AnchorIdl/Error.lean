/-
# Errors

The library has one taxonomy of errors.  Each carries a message and, mostly, a
context: a file, a place inside a document, or both.  `display` puts the
context on a line before the message.

| error | raised for |
| --- | --- |
| `schema` | a document that is no schema, by kind of fault |
| `io` | a file that cannot be read or written |
| `emission` | a module or binding name that cannot be used |
| `config` | a malformed project file |

Source: `idlforge.core.errors` (`IdlForgeError`, `SchemaError`, `IdlIOError`,
`EmissionError`, `ConfigError`, `ErrorContext.format`).
-/

import AnchorIdl.Files.Path
import AnchorIdl.Text.Quoted

namespace AnchorIdl

/-- The kinds of faults in documents. -/
inductive FaultKind
  | invalidDocument
  | missingField
  | malformedDiscriminator
  | unknownTypeShape
  | unknownSeedKind
  | emptySeeds
  | duplicate
  deriving DecidableEq, Repr

namespace FaultKind

/-- The name of a kind of fault. -/
def name : FaultKind → Text
  | invalidDocument => "invalid_document"
  | missingField => "missing_field"
  | malformedDiscriminator => "malformed_discriminator"
  | unknownTypeShape => "unknown_type_shape"
  | unknownSeedKind => "unknown_seed_kind"
  | emptySeeds => "empty_seeds"
  | duplicate => "duplicate"

/-- All kinds of faults. -/
def all : List FaultKind :=
  [invalidDocument, missingField, malformedDiscriminator, unknownTypeShape, unknownSeedKind,
    emptySeeds, duplicate]

/-- The kind of fault with a given name. -/
def ofName? (t : Text) : Option FaultKind := all.find? fun k => k.name = t

/-- The wording for a value, as messages show it, that names no kind of fault. -/
def unknownMessage (value : Text) : Text := value ++ " is not a valid SchemaErrorKind"

end FaultKind

/-- Where something went wrong: a place inside a document, empty if unknown, and a file. -/
structure Context where
  place : Text := []
  file : Option Path := none
  deriving DecidableEq, Repr

/-- A context as it is written. -/
def Context.display (c : Context) : Text :=
  match c.file, c.place with
  | some file, _ :: _ => file.display ++ ": at " ++ c.place
  | none, _ :: _ => "at " ++ c.place
  | some file, [] => file.display
  | none, [] => "None"

/-- What the operating system answers when it refuses a request. -/
inductive OsFault
  | text (reason : Text)
  | numbered (number : Int) (reason : Text) (file : Option Text)
  deriving DecidableEq, Repr

/-- A refusal of the operating system as it is written. -/
def OsFault.display : OsFault → Text
  | text reason => reason
  | numbered number reason file =>
    let head := "[Errno " ++ Text.ofInt number ++ "] " ++ reason
    match file with
    | none => head
    | some file => head ++ ": " ++ Quoted.single file

/-- An error of the library. -/
inductive IdlError
  | general (message : Text) (context : Option Context)
  | schema (kind : FaultKind) (message place : Text) (file : Option Path)
  | io (message : Text) (file : Path) (cause : Option OsFault)
  | emission (message : Text) (context : Option Context)
  | config (message : Text) (context : Option Context)
  deriving DecidableEq, Repr

namespace IdlError

/-- The message of an error without its context. -/
def message : IdlError → Text
  | general message _ | emission message _ | config message _ => message
  | schema kind message _ _ => kind.name ++ ": " ++ message
  | io message _ none => message
  | io message _ (some cause) => message ++ ": " ++ cause.display

/-- The context of an error, if it has one. -/
def context? : IdlError → Option Context
  | general _ context | emission _ context | config _ context => context
  | schema _ _ [] none => none
  | schema _ _ place file => some ⟨place, file⟩
  | io _ file _ => some ⟨[], some file⟩

/-- An error as it is written: its context on a line of its own, then its message. -/
def display (e : IdlError) : Text :=
  match e.context? with
  | none => e.message
  | some context => context.display ++ "\n" ++ e.message

/-- An error in a project file. -/
def inConfig (message : Text) (file : Option Path) : IdlError :=
  .config message (file.map fun f => ⟨[], some f⟩)

end IdlError
end AnchorIdl
