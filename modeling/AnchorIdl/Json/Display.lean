/-
# JSON values in messages

A message shows an offending value in full: null, true and false as `None`,
`True` and `False`, an integer by its digits, another number by its shortest
numeral, a text in quotes, a list in brackets and an object in braces with its
members in order.  A value that holds an integer with more digits than can be
written, at whatever depth, cannot be shown.

Source: the values in the messages of `idlforge.core.loader` (`_seed`,
`_kind_type`, `_report_duplicates`, `_bytes`).
-/

import AnchorIdl.Decimal.Shortest
import AnchorIdl.Json.Basic
import AnchorIdl.Text.Quoted

namespace AnchorIdl
namespace Json

mutual

/-- A value as messages show it, if it can be shown. -/
def display : Json → Option Text
  | .null => some "None"
  | .bool true => some "True"
  | .bool false => some "False"
  | .int n => Text.numeral? n
  | .float x => some x.display
  | .str t => some (Quoted.single t)
  | .arr items => do
    let parts ← displayItems items
    return "[" ++ Text.join ", " parts ++ "]"
  | .obj members => do
    let parts ← displayMembers members
    return "\x7b" ++ Text.join ", " parts ++ "\x7d"

/-- The items of a list as messages show them. -/
def displayItems : List Json → Option (List Text)
  | [] => some []
  | v :: rest => do
    let part ← display v
    let parts ← displayItems rest
    return part :: parts

/-- The members of an object as messages show them. -/
def displayMembers : List (Text × Json) → Option (List Text)
  | [] => some []
  | (k, v) :: rest => do
    let part ← display v
    let parts ← displayMembers rest
    return (Quoted.single k ++ ": " ++ part) :: parts

end

end Json
end AnchorIdl
