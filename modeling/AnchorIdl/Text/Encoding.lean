/-
# Octets that are no text

Five encodings can carry a document.  Decoding one of them fails at a run of
octets, for a reason; the wording of the failure names the encoding, the run
and the reason, and the first octet when the run has only one.

Source: `idlforge.core.loader` (`load_schema`), where it is given octets.
-/

import AnchorIdl.Text.Basic

namespace AnchorIdl

/-- An encoding of text in octets. -/
inductive Encoding
  | utf8
  | utf16 (bigEndian : Bool)
  | utf32 (bigEndian : Bool)
  deriving DecidableEq, Repr

namespace Encoding

/-- The name of an encoding in messages. -/
def name : Encoding → Text
  | utf8 => "utf-8"
  | utf16 false => "utf-16-le"
  | utf16 true => "utf-16-be"
  | utf32 false => "utf-32-le"
  | utf32 true => "utf-32-be"

end Encoding

/-- Why some octets are not text. -/
inductive DecodeReason
  | invalidStart
  | invalidContinuation
  | unexpectedEnd
  | truncated
  | outOfRange
  deriving DecidableEq, Repr

/-- The wording of a reason. -/
def DecodeReason.wording : DecodeReason → Text
  | invalidStart => "invalid start byte"
  | invalidContinuation => "invalid continuation byte"
  | unexpectedEnd => "unexpected end of data"
  | truncated => "truncated data"
  | outOfRange => "code point not in range(0x110000)"

/-- A faulty run of octets: its first one, where it stands, and how many there are. -/
structure DecodeFault where
  encoding : Encoding
  octet : UInt8
  start : Nat
  length : Nat
  reason : DecodeReason
  deriving DecidableEq, Repr

/-- The wording of a decoding failure. -/
def DecodeFault.message (f : DecodeFault) : Text :=
  "'" ++ f.encoding.name ++ "' codec can't decode " ++
    (if f.length = 1 then
      "byte 0x" ++ Text.hex 2 f.octet.toNat ++ " in position " ++ Text.ofNat f.start
    else
      "bytes in position " ++ Text.ofNat f.start ++ "-" ++ Text.ofNat (f.start + f.length - 1)) ++
    ": " ++ f.reason.wording

namespace Wide

/-- The number that the octets of a unit spell. -/
def unit (bigEndian : Bool) (octets : Bytes) : Nat :=
  (if bigEndian then octets else octets.reverse).foldl (fun n b => n * 0x100 + b.toNat) 0

/-- The units of `size` octets, and the octets left over at the end. -/
def units (bigEndian : Bool) (size : Nat) (octets : Bytes) : List Nat × Bytes :=
  let count := octets.length / size
  ((List.range count).map fun i => unit bigEndian ((octets.drop (i * size)).take size),
    octets.drop (count * size))

/-- The code points of sixteen-bit units: a high surrogate before a low one makes a pair with it,
and a surrogate without its partner stands for itself. -/
def pairUp : List CodePoint → Text
  | [] => []
  | [c] => [c]
  | c :: d :: rest =>
    if c.isHighSurrogate && d.isLowSurrogate then CodePoint.ofPair c d :: pairUp rest
    else c :: pairUp (d :: rest)

/-- The text of units that are all code points, or the index and value of the first that is none. -/
def points : (index : Nat) → List Nat → Except Nat Text
  | _, [] => .ok []
  | i, n :: rest =>
    match CodePoint.ofNat? n with
    | none => .error i
    | some c => (points (i + 1) rest).map (c :: ·)

/-- Decode units of two or four octets that follow `offset` octets of the input. -/
def decode (encoding : Encoding) (bigEndian : Bool) (size offset : Nat) (octets : Bytes) :
    Except DecodeFault Text :=
  let (whole, left) := units bigEndian size octets
  match points 0 whole with
  | .error i =>
    .error ⟨encoding, (octets.drop (i * size)).headD 0, offset + i * size, size, .outOfRange⟩
  | .ok text =>
    match left with
    | [] => .ok (if size = 2 then pairUp text else text)
    | b :: _ => .error ⟨encoding, b, offset + whole.length * size, left.length, .truncated⟩

end Wide

/-- Decode UTF-16 whose first octet is at position `offset`; lone surrogates pass. -/
def Utf16.decode (bigEndian : Bool) (offset : Nat) (octets : Bytes) : Except DecodeFault Text :=
  Wide.decode (.utf16 bigEndian) bigEndian 2 offset octets

/-- Decode UTF-32 whose first octet is at position `offset`; lone surrogates pass. -/
def Utf32.decode (bigEndian : Bool) (offset : Nat) (octets : Bytes) : Except DecodeFault Text :=
  Wide.decode (.utf32 bigEndian) bigEndian 4 offset octets

end AnchorIdl
