/-
# Members of a document

The parts that every reader of a document is made of.  Each reads one member
of an object, says what it may be, and complains at the place of the member
otherwise.  Absent and null mean the same to all of them:

| reader | member | absent or null |
| --- | --- | --- |
| `items` | a list | no items |
| `string?` | a text | nothing |
| `name` | a text that is not empty | a complaint |
| `flag` | a boolean under the first of its spellings | false |
| `docs` | a list of texts | no lines |
| `discriminator` | a list of eight numbers below 256 | a complaint |

`each` reads the items of a list in order, each at its own place, and stops at
the first fault.

Source: `idlforge.core.loader` (`_object`, `_list`, `_string`, `_name`, `_flag`,
`_docs`, `_discriminator`, `_bytes`, `_describe`).
-/

import AnchorIdl.Document.Fault
import AnchorIdl.Schema.Basic

namespace AnchorIdl
namespace Document

/-- The outcome of reading a part of a document. -/
abbrev Reading := Except Rejection

/-- A complaint about the value at a place. -/
def complain {α : Type} (place : Place) (complaint : Complaint) : Reading α :=
  .error (.fault ⟨complaint, some place⟩)

/-- Read the items of a list in order from index `i` on. -/
def eachFrom {α β : Type} (read : Nat → α → Reading β) : (i : Nat) → List α → Reading (List β)
  | _, [] => .ok []
  | i, x :: rest => do
    let y ← read i x
    let ys ← eachFrom read (i + 1) rest
    return y :: ys

/-- Read the items of a list in order. -/
def each {α β : Type} (items : List α) (read : Nat → α → Reading β) : Reading (List β) :=
  eachFrom read 0 items

/-- The members of the object at a place. -/
def object (place : Place) : Json → Reading Members
  | .obj members => .ok members
  | raw => complain place (.notObject raw.kind)

/-- The items of the list named `key`, with the proof that each is smaller than the object. -/
def sizedItems (place : Place) (members : Members) (key : Text) :
    Reading (List { x : Json // sizeOf x < sizeOf members }) :=
  match members.find key with
  | none | some ⟨.null, _⟩ => .ok []
  | some ⟨.arr items, h⟩ =>
    .ok (items.attach.map fun ⟨x, hx⟩ => ⟨x, Members.sizeOf_item_lt h hx⟩)
  | some ⟨value, _⟩ => complain (place.member key) (.notList value.kind)

/-- The items of the list named `key`. -/
def items (place : Place) (members : Members) (key : Text) : Reading (List Json) :=
  match members.given? key with
  | none => .ok []
  | some (.arr items) => .ok items
  | some value => complain (place.member key) (.notList value.kind)

/-- The text named `key`. -/
def string? (place : Place) (members : Members) (key : Text) : Reading (Option Text) :=
  match members.given? key with
  | none => .ok none
  | some (.str t) => .ok (some t)
  | some value => complain (place.member key) (.notString value.kind)

/-- The name of the object at a place. -/
def name (place : Place) (members : Members) : Reading Text :=
  match members.get? "name" with
  | some (.str (c :: t)) => .ok (c :: t)
  | _ => complain (place.member "name") .noName

/-- The boolean under the first of some spellings that is given. -/
def flag (place : Place) (members : Members) : (spellings : List Text) → Reading Bool
  | [] => .ok false
  | key :: rest =>
    match members.given? key with
    | none => flag place members rest
    | some (.bool b) => .ok b
    | some value => complain (place.member key) (.notBoolean value.kind)

/-- The lines of documentation of the object at a place. -/
def docs (place : Place) (members : Members) : Reading (List Text) := do
  let lines ← items place members "docs"
  each lines fun i line =>
    match line with
    | .str t => .ok t
    | _ => complain ((place.member "docs").index i) .docLineNotString

/-- A number below 256. -/
def byte? : Json → Option UInt8
  | .int (.ofNat n) => if n < 256 then some (UInt8.ofNat n) else none
  | _ => none

/-- The bytes at a place. -/
def bytes (place : Place) (list : ByteList) : Json → Reading Bytes
  | .arr items =>
    each items fun i item =>
      match byte? item with
      | some b => .ok b
      | none => complain (place.index i) (.badByte list item)
  | raw => complain place (.notBytes list raw.kind)

/-- The discriminator at a place. -/
def discriminator (place : Place) : Option Json → Reading Bytes
  | none => complain place .noDiscriminator
  | some raw => do
    let value ← bytes place .discriminator raw
    if value.length = discriminatorSize then return value
    else complain place (.discriminatorLength value.length)

end Document
end AnchorIdl
