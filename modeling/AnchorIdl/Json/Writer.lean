/-
# Writing JSON

The compact form of a value in ASCII: members as they stand, `": "` and `", "`
between them, and every character outside `0x20`–`0x7E` as an escape, in two
surrogates above `0xFFFF`.

Source: none; a document that is given as a file is written in this form.
-/

import AnchorIdl.Decimal.Shortest
import AnchorIdl.Json.Basic

namespace AnchorIdl
namespace Json

/-- A character as it stands in a JSON string. -/
def escape (c : CodePoint) : Text :=
  if c = '"' ∨ c = '\\' then ['\\', c]
  else if c = '\n' then "\\n"
  else if c = '\r' then "\\r"
  else if c = '\t' then "\\t"
  else if c = '\x08' then "\\b"
  else if c = '\x0c' then "\\f"
  else if 0x20 ≤ c.val ∧ c.val ≤ 0x7E then [c]
  else if c.val < 0x10000 then "\\u" ++ Text.hex 4 c.val
  else
    let n := c.val - 0x10000
    "\\u" ++ Text.hex 4 (0xD800 + n / 0x400) ++ "\\u" ++ Text.hex 4 (0xDC00 + n % 0x400)

/-- A text as a JSON string. -/
def writeText (t : Text) : Text := "\"" ++ t.flatMap escape ++ "\""

/-- A number that is no integer; the three that JSON lacks are written as words. -/
def writeFloat : Binary64 → Text
  | .nan => "NaN"
  | .infinite negative => if negative then "-Infinity" else "Infinity"
  | x => x.display

mutual

/-- A value as JSON text. -/
def write : Json → Text
  | .null => "null"
  | .bool true => "true"
  | .bool false => "false"
  | .int n => Text.ofInt n
  | .float x => writeFloat x
  | .str t => writeText t
  | .arr items => "[" ++ Text.join ", " (writeItems items) ++ "]"
  | .obj members => "\x7b" ++ Text.join ", " (writeMembers members) ++ "\x7d"

/-- The items of a list as JSON texts. -/
def writeItems : List Json → List Text
  | [] => []
  | v :: rest => write v :: writeItems rest

/-- The members of an object as JSON texts. -/
def writeMembers : List (Text × Json) → List Text
  | [] => []
  | (k, v) :: rest => (writeText k ++ ": " ++ write v) :: writeMembers rest

end

end Json
end AnchorIdl
