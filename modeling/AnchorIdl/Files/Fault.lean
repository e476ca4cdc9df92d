/-
# Refusals by their values

An answer of the operating system can be given by the values that it consists
of: a number, a reason, a file, a value of no meaning, and a second file.  How
many of them there are says what is shown:

| values | shown |
| --- | --- |
| none | nothing |
| one | the value |
| two to five | the number, the reason, and the files that are not null |
| more | all values |

The number and the reason may be any values.  The numbers of requests that would
have to wait take no file but a text.  There is no such answer if a value cannot
be shown.

Source: what `idlforge.core.errors` (`IdlIOError`) wraps.
-/

import AnchorIdl.Error
import AnchorIdl.Json.Display

namespace AnchorIdl

/-- A value by itself: a text as it is, any other value as messages show it. -/
def Json.plainDisplay : Json → Option Text
  | .str t => some t
  | v => v.display

namespace OsFault

/-- The numbers of requests that would have to wait. -/
def waitingNumbers : List Int := [11, 114, 115]

/-- Whether a value after a number of waiting counts what was done instead of naming a file. -/
def isCount (number file : Json) : Bool :=
  match number, file with
  | .int n, .int _ | .int n, .bool _ => waitingNumbers.contains n
  | _, _ => false

/-- What is shown of the files, if the first is given. -/
def displayFiles (file : Json) : (others : List Json) → Option Text
  | [] | [_] | _ :: .null :: _ => return ": " ++ (← file.display)
  | _ :: second :: _ => return ": " ++ (← file.display) ++ " -> " ++ (← second.display)

/-- What is shown of a number, a reason and what follows them. -/
def displayValues (number reason : Json) (rest : List Json) : Option Text := do
  let start := "[Errno " ++ (← number.plainDisplay) ++ "] " ++ (← reason.plainDisplay)
  match rest with
  | [] | .null :: _ => return start
  | file :: others =>
    if isCount number file then return start else return start ++ (← displayFiles file others)

/-- The answer that some values make, if they can be shown. -/
def ofValues : List Json → Option OsFault
  | [] => some (.text [])
  | [value] => value.plainDisplay.map .text
  | [.int number, .str reason] =>
    if Text.isShort number then some (.numbered number reason none) else none
  | [.int number, .str reason, .str file] =>
    if Text.isShort number then some (.numbered number reason (some file)) else none
  | number :: reason :: rest =>
    if 3 < rest.length then do
      let parts ← (number :: reason :: rest).mapM Json.display
      return .text ("(" ++ Text.join ", " parts ++ ")")
    else (displayValues number reason rest).map .text

end OsFault
end AnchorIdl
