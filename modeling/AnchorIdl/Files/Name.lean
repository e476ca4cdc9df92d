/-
# File names

A file system knows names as octets.  A name is written as the text that its
octets spell in UTF-8; an octet that belongs to no UTF-8 sequence is written as
a *stray*, the low surrogate `DC00` plus its value, so that every name has a
text.  In the other direction a text names a file unless it holds a surrogate
that is no stray.

A path can be looked up if all its names have octets and none of them is zero.
`Path.route` is what is looked up: where the walk begins, the names on the way,
and the length of the written path, which is limited as a whole.

Source: the paths of `idlforge.core.loader`, `idlforge.core.config` and
`idlforge.codegen.base`, where the system takes them.
-/

import AnchorIdl.Files.Path
import AnchorIdl.Text.Utf8

namespace AnchorIdl
namespace FileName

/-- The octet that a stray stands for. -/
def strayOctet? (c : CodePoint) : Option UInt8 :=
  if 0xDC80 ≤ c.val ∧ c.val < 0xDD00 then some (UInt8.ofNat (c.val - 0xDC00)) else none

/-- The stray of an octet. -/
def stray (b : UInt8) : CodePoint :=
  ⟨0xDC00 + b.toNat, by have := b.toNat_lt; omega⟩

/-- Whether a code point has octets in a name. -/
def isNameable (c : CodePoint) : Bool := !c.isSurrogate || (strayOctet? c).isSome

/-- The octets of a nameable code point. -/
def encodeOne (c : CodePoint) : Bytes :=
  match strayOctet? c with
  | some b => [b]
  | none => Utf8.encodeOne c

/-- The octets of a text whose code points are nameable. -/
def octets (t : Text) : Bytes := t.flatMap encodeOne

/-- The octets of a text, or its first run of surrogates from one on that is not nameable. -/
def encode (t : Text) : Except Utf8.EncodeFault Bytes :=
  if t.all isNameable then .ok (octets t)
  else
    let before := t.takeWhile isNameable
    .error ⟨before.length, (t.drop before.length).takeWhile CodePoint.isSurrogate⟩

/-- The text of some octets; the first argument bounds the number of code points. -/
def decodeFrom : (bound : Nat) → Bytes → Text
  | _, [] => []
  | 0, _ :: _ => []
  | bound + 1, b :: rest =>
    match Utf8.head b rest with
    | .point c length => c :: decodeFrom bound ((b :: rest).drop length)
    | .fault .. => stray b :: decodeFrom bound rest

/-- The text of some octets. -/
def decode (name : Bytes) : Text := decodeFrom name.length name

end FileName

/-- Why a path cannot be looked up. -/
inductive PathFault
  | unencodable (fault : Utf8.EncodeFault)
  | holdsNull
  deriving DecidableEq, Repr

/-- A path as it is looked up: from the root or the working directory, along some names.  `length`
counts the octets of the whole path as it is written. -/
structure Route where
  absolute : Bool
  names : List Bytes
  length : Nat
  deriving DecidableEq, Repr

namespace Path

/-- What is looked up for a path. -/
def route (p : Path) : Except PathFault Route := do
  let written ← (FileName.encode p.display).mapError .unencodable
  if written.contains 0 then throw .holdsNull
  return ⟨p.isAbsolute, p.names.map FileName.octets, written.length⟩

/-- Whether a path can be looked up. -/
def hasRoute (p : Path) : Bool := p.route.toBool

end Path
end AnchorIdl
