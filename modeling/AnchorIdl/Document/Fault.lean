/-
# Faults of documents

A document that is no schema has a first fault: a complaint about the value at
a place.  A text that is no JSON has no places, so its fault has none.

Each complaint has a kind and a wording; `kind` and `message` are the only
places where these are fixed.  A complaint that shows a value has no wording if
the value holds an integer too long to be written.  Nothing on the way of a
fault looks at its wording, so the reading of a document goes on with the
complaint and the message is written where the fault leaves it (`raised`).

Source: `idlforge.core.errors` (`SchemaErrorKind`, `make_schema_error`), and
each `_error_at` of `idlforge.core.loader`.
-/

import AnchorIdl.Error
import AnchorIdl.Json.Display
import AnchorIdl.Json.Octets
import AnchorIdl.Json.Place
import AnchorIdl.Schema.Seed

namespace AnchorIdl

namespace Document

/-- The parts of a document that have a type of their own. -/
inductive Typed
  | argument
  | field
  | typeDefinition
  deriving DecidableEq, Repr

/-- The word for a part that has a type. -/
def Typed.word : Typed → Text
  | argument => "argument"
  | field => "field"
  | typeDefinition => "type definition"

/-- The columns of a schema whose entries should differ from each other. -/
inductive Identity
  | instructionName
  | discriminator
  | errorCode
  | typeName
  deriving DecidableEq, Repr

/-- The label of a column. -/
def Identity.label : Identity → Text
  | instructionName => "instruction name"
  | discriminator => "discriminator"
  | errorCode => "error code"
  | typeName => "type name"

/-- The lists of bytes in a document. -/
inductive ByteList
  | discriminator
  | constant
  deriving DecidableEq, Repr

/-- What can be wrong with a document. -/
inductive Complaint
  | undecodable (fault : DecodeFault)
  | unreadable (what : Json.Flaw) (line column position : Nat)
  | notObject (got : Json.Kind)
  | notList (got : Json.Kind)
  | notString (got : Json.Kind)
  | notBoolean (got : Json.Kind)
  | docLineNotString
  | noName
  | noDiscriminator
  | discriminatorLength (length : Nat)
  | notBytes (list : ByteList) (got : Json.Kind)
  | badByte (list : ByteList) (got : Json)
  | noSeeds
  | unknownSeedKind (got : Json)
  | noSeedText
  | noSeedPath (kind : SeedKind)
  | noType (part : Typed)
  | noAliasTarget
  | badErrorCode
  | unknownPrimitive (name : Text)
  | notType (got : Json.Kind)
  | unknownShape (keys : List Text)
  | badArray
  | badArrayLength (got : Json.Kind)
  | unnamedReference
  | unsupportedGeneric
  | unknownTypeKind (got : Json)
  | unnamedField
  | mixedFields
  | duplicate (column : Identity) (value : Json) (first : Place)
  deriving DecidableEq

namespace Complaint

/-- The kind of fault for a faulty list of bytes. -/
def bytesKind : ByteList → FaultKind
  | .discriminator => .malformedDiscriminator
  | .constant => .invalidDocument

/-- The kind of a complaint. -/
def kind : Complaint → FaultKind
  | undecodable _ | unreadable .. | notObject _ | notList _ | notString _ | notBoolean _
  | docLineNotString => .invalidDocument
  | noName | noSeedText | noSeedPath _ | noType _ | noAliasTarget | badErrorCode => .missingField
  | noDiscriminator | discriminatorLength _ => .malformedDiscriminator
  | notBytes list _ | badByte list _ => bytesKind list
  | noSeeds => .emptySeeds
  | unknownSeedKind _ => .unknownSeedKind
  | unknownPrimitive _ | notType _ | unknownShape _ | badArray | badArrayLength _
  | unnamedReference | unsupportedGeneric | unknownTypeKind _ | unnamedField
  | mixedFields => .unknownTypeShape
  | duplicate .. => .duplicate

/-- The wording of a complaint, if the value that it shows can be shown. -/
def message : Complaint → Option Text
  | undecodable fault => some ("not valid JSON: " ++ fault.message)
  | unreadable what line column position =>
    some ("not valid JSON: " ++ what.wording ++ ": line " ++ Text.ofNat line ++ " column " ++
      Text.ofNat column ++ " (char " ++ Text.ofNat position ++ ")")
  | notObject got => some ("expected an object, got " ++ got.word)
  | notList got => some ("expected a list, got " ++ got.word)
  | notString got => some ("expected a string, got " ++ got.word)
  | notBoolean got => some ("expected a boolean, got " ++ got.word)
  | docLineNotString => some "doc lines must be strings"
  | noName => some "missing required name"
  | noDiscriminator => some "missing discriminator"
  | discriminatorLength length =>
    some ("discriminator must be 8 bytes, got " ++ Text.ofNat length)
  | notBytes _ got => some ("expected a list of byte values, got " ++ got.word)
  | badByte _ got => got.display.map fun shown => "invalid byte value " ++ shown
  | noSeeds => some "PDA must declare at least one seed"
  | unknownSeedKind got =>
    got.display.map fun shown =>
      "unknown seed kind " ++ shown ++ " (expected one of: " ++
        Text.join ", " (SeedKind.all.map SeedKind.name) ++ ")"
  | noSeedText => some "string seed requires a value"
  | noSeedPath kind => some (kind.name ++ " seed requires a path")
  | noType part => some (part.word ++ " has no type")
  | noAliasTarget => some "type alias has no target"
  | badErrorCode => some "error code must be an integer"
  | unknownPrimitive name => some ("unknown primitive type " ++ Quoted.single name)
  | notType got => some ("expected a type name or object, got " ++ got.word)
  | unknownShape keys =>
    some ("unrecognized type shape with keys " ++
      Quoted.bracketed ((Text.sort keys).map Quoted.single))
  | badArray => some "array must be [element, length]"
  | badArrayLength got =>
    some ("array length must be a non-negative integer, got " ++ got.word)
  | unnamedReference => some "defined type must name a type"
  | unsupportedGeneric => some "only type generic arguments are supported"
  | unknownTypeKind got => got.display.map fun shown => "unknown type kind " ++ shown
  | unnamedField => some "struct fields must be named"
  | mixedFields => some "variant mixes named and positional fields"
  | duplicate column value first =>
    value.display.map fun shown =>
      "duplicate " ++ column.label ++ " " ++ shown ++ " (first declared at " ++
        first.display ++ ")"

end Complaint

/-- A complaint about the value at a place, or about a text without places. -/
structure Fault where
  complaint : Complaint
  place : Option Place
  deriving DecidableEq

namespace Fault

/-- The kind of a fault. -/
def kind (f : Fault) : FaultKind := f.complaint.kind

/-- The error that a fault is in a document from `file`, if its message can be written. -/
def toError? (file : Option Path) (f : Fault) : Option IdlError :=
  f.complaint.message.map fun message =>
    .schema f.kind message (f.place.elim [] Place.display) file

end Fault

/-- Why a document cannot be loaded: it has a fault, a constant seed whose text has no bytes, an
integer with too many digits to be read, or a fault whose message would show one. -/
inductive Rejection
  | fault (f : Fault)
  | unencodable (fault : Utf8.EncodeFault)
  | longInteger (digits : Nat)
  | overlong
  deriving DecidableEq

/-- A rejection as it leaves the reading of a document: the message of a fault is written, and when
that fails the fault is lost. -/
def Rejection.raised : Rejection → Rejection
  | .fault f => if f.complaint.message.isSome then .fault f else .overlong
  | rejection => rejection

end Document
end AnchorIdl
