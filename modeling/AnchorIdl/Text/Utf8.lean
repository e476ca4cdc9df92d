/-
# UTF-8

The encoding writes a code point in one to four octets.  It refuses lone
surrogates, so `encode` fails exactly on texts that hold one, and reports where
the first run of them stands.

The decoding reports a fault by the octets it covers and its reason.  Which
octets may follow a leading octet is the table of well-formed sequences:

| leading octet | second octet | further octets |
| --- | --- | --- |
| `00`–`7F` | – | – |
| `C2`–`DF` | `80`–`BF` | – |
| `E0` | `A0`–`BF` | one |
| `E1`–`EC`, `EE`, `EF` | `80`–`BF` | one |
| `ED` | `80`–`9F` | one |
| `F0` | `90`–`BF` | two |
| `F1`–`F3` | `80`–`BF` | two |
| `F4` | `80`–`8F` | two |

A decoder may be asked to let the three-octet form of a surrogate pass, as the
reader of JSON documents does.

Source: `idlforge.core.loader` (`load_schema`, `_seed`),
`idlforge.core.ir.accounts` (`PdaSeed.encode`), `idlforge.codegen.base`
(`Generator._write_file`), wherever they encode or decode.
-/

import AnchorIdl.Text.Encoding

namespace AnchorIdl
namespace Utf8

/-- The octets of a code point that is not a surrogate. -/
def encodeOne (c : CodePoint) : Bytes :=
  let n := c.val
  if n < 0x80 then [UInt8.ofNat n]
  else if n < 0x800 then
    [UInt8.ofNat (0xC0 + n / 0x40), UInt8.ofNat (0x80 + n % 0x40)]
  else if n < 0x10000 then
    [UInt8.ofNat (0xE0 + n / 0x1000), UInt8.ofNat (0x80 + n / 0x40 % 0x40),
      UInt8.ofNat (0x80 + n % 0x40)]
  else
    [UInt8.ofNat (0xF0 + n / 0x40000), UInt8.ofNat (0x80 + n / 0x1000 % 0x40),
      UInt8.ofNat (0x80 + n / 0x40 % 0x40), UInt8.ofNat (0x80 + n % 0x40)]

/-- A text that has no UTF-8 form: its first run of lone surrogates, and where that begins. -/
structure EncodeFault where
  start : Nat
  run : Text
  deriving DecidableEq, Repr

/-- A lone surrogate as it is written where it has no octets. -/
def escapeSurrogate (c : CodePoint) : Text := "\\u" ++ Text.hex 4 c.val

/-- A text with each lone surrogate replaced by its escape. -/
def escapeSurrogates (t : Text) : Text :=
  t.flatMap fun c => if c.isSurrogate then escapeSurrogate c else [c]

/-- A text has a UTF-8 form if it holds no lone surrogate. -/
def encodable (t : Text) : Bool := t.all fun c => !c.isSurrogate

/-- The octets of a text, or its first run of lone surrogates. -/
def encode (t : Text) : Except EncodeFault Bytes :=
  if encodable t then .ok (t.flatMap encodeOne)
  else
    let before := t.takeWhile fun c => !c.isSurrogate
    .error ⟨before.length, (t.drop before.length).takeWhile CodePoint.isSurrogate⟩

/-- An octet that may stand after the leading one. -/
def isContinuation (b : UInt8) : Bool := 0x80 ≤ b && b < 0xC0

/-- How many octets the leading octet announces, and the bounds of the second. -/
def announced? (b : UInt8) : Option (Nat × UInt8 × UInt8) :=
  if b < 0xC2 then none
  else if b < 0xE0 then some (2, 0x80, 0xBF)
  else if b < 0xF0 then
    some (3, if b = 0xE0 then 0xA0 else 0x80, if b = 0xED then 0x9F else 0xBF)
  else if b < 0xF5 then
    some (4, if b = 0xF0 then 0x90 else 0x80, if b = 0xF4 then 0x8F else 0xBF)
  else none

/-- What stands at the head of some octets: a code point and its length, or a faulty run. -/
inductive Head
  | point (c : CodePoint) (length : Nat)
  | fault (length : Nat) (reason : DecodeReason)

/-- The code point with the given octet values; the bounds of the table keep it in range. -/
def assemble (n length : Nat) : Head :=
  match CodePoint.ofNat? n with
  | some c => .point c length
  | none => .fault 1 .invalidStart

/-- The first code point of some octets that begin with `b`. -/
def head (b : UInt8) (rest : Bytes) : Head :=
  if b < 0x80 then assemble b.toNat 1
  else match announced? b with
    | none => .fault 1 .invalidStart
    | some (size, low, high) =>
      match rest with
      | [] => .fault 1 .unexpectedEnd
      | b₁ :: rest =>
        if !(low ≤ b₁ && b₁ ≤ high) then .fault 1 .invalidContinuation
        else if size = 2 then assemble (b.toNat % 0x20 * 0x40 + b₁.toNat % 0x40) 2
        else match rest with
          | [] => .fault 2 .unexpectedEnd
          | b₂ :: rest =>
            if !isContinuation b₂ then .fault 2 .invalidContinuation
            else if size = 3 then
              assemble ((b.toNat % 0x10 * 0x40 + b₁.toNat % 0x40) * 0x40 + b₂.toNat % 0x40) 3
            else match rest with
              | [] => .fault 3 .unexpectedEnd
              | b₃ :: _ =>
                if !isContinuation b₃ then .fault 3 .invalidContinuation
                else
                  assemble (((b.toNat % 8 * 0x40 + b₁.toNat % 0x40) * 0x40 + b₂.toNat % 0x40)
                    * 0x40 + b₃.toNat % 0x40) 4

/-- The surrogate whose three-octet form begins some octets. -/
def surrogate? : Bytes → Option CodePoint
  | b :: b₁ :: b₂ :: _ =>
    if b = 0xED ∧ 0xA0 ≤ b₁ ∧ b₁ < 0xC0 ∧ isContinuation b₂ then
      CodePoint.ofNat? (0xD000 + b₁.toNat % 0x40 * 0x40 + b₂.toNat % 0x40)
    else none
  | _ => none

/-- Decode the octets from position `start` on; `passed` holds the text so far, last first.
The first argument bounds the number of code points. -/
def decodeFrom (surrogatesPass : Bool) :
    Nat → (start : Nat) → Bytes → (passed : Text) → Except DecodeFault Text
  | _, _, [], passed => .ok passed.reverse
  | 0, _, _ :: _, passed => .ok passed.reverse
  | bound + 1, start, b :: rest, passed =>
    match head b rest with
    | .point c length =>
      decodeFrom surrogatesPass bound (start + length) ((b :: rest).drop length) (c :: passed)
    | .fault length reason =>
      match if surrogatesPass then surrogate? (b :: rest) else none with
      | some c => decodeFrom surrogatesPass bound (start + 3) ((b :: rest).drop 3) (c :: passed)
      | none => .error ⟨.utf8, b, start, length, reason⟩

/-- The text of some octets; `surrogatesPass` admits the three-octet form of a surrogate. -/
def decode (surrogatesPass : Bool) (bytes : Bytes) : Except DecodeFault Text :=
  decodeFrom surrogatesPass bytes.length 0 bytes []

end Utf8
end AnchorIdl
