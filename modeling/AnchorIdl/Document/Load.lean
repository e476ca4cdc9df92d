/-
# Loading a document

A document is a JSON value, a JSON text, or the octets of one.  Loading reads
it into a schema: first the metadata and the address, then the four lists of
entries, then it reports duplicates and dangling references.  The first fault
ends the loading; the log tells how far it came.

Source: `idlforge.core.loader` (`load_schema`, `_SchemaLoader.load`).
-/

import AnchorIdl.Document.Entry
import AnchorIdl.Document.Report

namespace AnchorIdl
namespace Document

/-- A document in one of its three forms. -/
inductive Source
  | value (document : Json)
  | text (text : Text)
  | octets (octets : Bytes)

/-- Log a line of the loader. -/
def note (level : LogLevel) (message : Text) : Logged Rejection Unit :=
  .tell level .loader message

/-- Log how many entries a list has. -/
def noteCount {α : Type} (entries : List α) (what : Text) : Logged Rejection Unit :=
  note .debug ("Loaded " ++ Text.ofNat entries.length ++ " " ++ what)

/-- Read the schema of a document, noting each list of entries. -/
def readSchema (raw : Json) : Logged Rejection Schema := do
  let document ← .lift (object [] raw)
  let metadata ← .lift (readMetadata document)
  let address ← .lift (readAddress document)
  let instructions ← .lift <| readSection document "instructions" readInstruction
  noteCount instructions "instructions"
  let accounts ← .lift <| readSection document "accounts" readAccountDefinition
  noteCount accounts "account definitions"
  let errors ← .lift <| readSection document "errors" readError
  noteCount errors "error definitions"
  let types ← .lift <| readSection document "types" readTypeDefinition
  noteCount types "type definitions"
  return { address, metadata, instructions, accounts, errors, types }

/-- Warn of the dangling references of a schema. -/
def reportReferences (s : Schema) : Logged Rejection Unit :=
  .tellAll ((danglingReferences s).map fun (place, name) => referenceWarning place name)

/-- The line that ends a successful loading. -/
def summary (s : Schema) : Text :=
  "Loaded IDL '" ++ s.name ++ "' v" ++ s.metadata.version ++ ": " ++
    Text.ofNat s.instructions.length ++ " instructions, " ++
    Text.ofNat s.accounts.length ++ " accounts, " ++
    Text.ofNat s.errors.length ++ " errors, " ++ Text.ofNat s.types.length ++ " types"

/-- Load the schema of a JSON value. -/
def loadValue (strict : Bool) (raw : Json) : Logged Rejection Schema := do
  let s ← (readSchema raw).mapError Rejection.raised
  reportDuplicates strict s
  reportReferences s
  note .info (summary s)
  return s

/-- The failure of a document whose text is no JSON. -/
def textRejection : Json.TextFault → Rejection
  | .flaw what line column position => .fault ⟨.unreadable what line column position, none⟩
  | .longInteger digits => .longInteger digits

/-- The JSON value of a document. -/
def Source.value? : Source → Reading Json
  | .value document => .ok document
  | .text t => (Json.ofText t).mapError textRejection
  | .octets bytes =>
    (Json.ofOctets bytes).mapError fun
      | .undecodable fault => .fault ⟨.undecodable fault, none⟩
      | .unreadable fault => textRejection fault

/-- Load a document. -/
def load (strict : Bool) (source : Source) : Logged Rejection Schema := do
  let raw ← .lift source.value?
  loadValue strict raw

end Document
end AnchorIdl
