/-
# JSON from octets

A document given as octets is decoded first.  Its encoding is read off its
head:

| head | encoding |
| --- | --- |
| `00 00 FE FF`, `FF FE 00 00` | UTF-32 with a byte order mark |
| `FE FF`, `FF FE` | UTF-16 with a byte order mark |
| `EF BB BF` | UTF-8 with a byte order mark |
| `00 00` … of at least four octets | UTF-32, big-endian |
| `00` … of at least four octets, or of two | UTF-16, big-endian |
| `xx 00 00 00` | UTF-32, little-endian |
| `xx 00` … of at least four octets, or of two | UTF-16, little-endian |
| anything else | UTF-8 |

A byte order mark is dropped.  Lone surrogates pass in every encoding.

Source: `idlforge.core.loader` (`load_schema`), where it is given octets.
-/

import AnchorIdl.Json.Reader
import AnchorIdl.Text.Utf8

namespace AnchorIdl
namespace Json

/-- The text of a document given as octets. -/
def decode (octets : Bytes) : Except DecodeFault Text :=
  match octets with
  | 0x00 :: 0x00 :: 0xFE :: 0xFF :: rest => Utf32.decode true 4 rest
  | 0xFF :: 0xFE :: 0x00 :: 0x00 :: rest => Utf32.decode false 4 rest
  | 0xFE :: 0xFF :: rest => Utf16.decode true 2 rest
  | 0xFF :: 0xFE :: rest => Utf16.decode false 2 rest
  | 0xEF :: 0xBB :: 0xBF :: rest => Utf8.decode true rest
  | 0x00 :: 0x00 :: _ :: _ :: _ => Utf32.decode true 0 octets
  | 0x00 :: _ :: _ :: _ :: _ => Utf16.decode true 0 octets
  | _ :: 0x00 :: 0x00 :: 0x00 :: _ => Utf32.decode false 0 octets
  | _ :: 0x00 :: _ :: _ :: _ => Utf16.decode false 0 octets
  | [0x00, _] => Utf16.decode true 0 octets
  | [_, 0x00] => Utf16.decode false 0 octets
  | _ => Utf8.decode true octets

/-- Why some octets are no JSON value. -/
inductive OctetsFault
  | undecodable (fault : DecodeFault)
  | unreadable (fault : TextFault)
  deriving DecidableEq, Repr

/-- The value that some octets denote. -/
def ofOctets (octets : Bytes) : Except OctetsFault Json := do
  let text ← (decode octets).mapError .undecodable
  (ofDecoded text).mapError .unreadable

end Json
end AnchorIdl
