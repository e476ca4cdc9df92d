/-
# TOML scalars

Strings come in four forms: between quotes with escapes, between apostrophes
without, and each of the two over several lines between three of them, where a
line feed right after the opening is dropped and up to two more quotes may
precede the closing.  Control characters other than the tab may not stand in
them, and line feeds only in the forms over several lines.

Numbers may have single underscores between digits.  Dates must exist in the
calendar.

Source: `idlforge.core.config` (`load_config`), where it reads the text of a
project file.
-/

import AnchorIdl.Text.Scan
import AnchorIdl.Toml.Value

namespace AnchorIdl
namespace Toml

/-- Why a text is no TOML: its form, or an integer with too many digits. -/
inductive Fault
  | malformed
  | longInteger (digits : Nat)
  deriving DecidableEq, Repr

/-- A scanner of a text that finds a value at its head. -/
abbrev Scan (α : Type) (s : Text) := Except Fault (α × Text.Rest s)

/-- Space or tab. -/
def isBlank (c : CodePoint) : Bool := c.val == 0x20 || c.val == 0x09

/-- Space, tab or line feed. -/
def isBlankOrFeed (c : CodePoint) : Bool := isBlank c || c.val == 0x0A

/-- A control character other than the tab. -/
def isControl (c : CodePoint) : Bool := (c.val < 0x20 && c.val != 0x09) || c.val == 0x7F

/-- A character that may not stand in a string. -/
def isIllegal (multiline : Bool) (c : CodePoint) : Bool :=
  isControl c && !(multiline && c.val == 0x0A)

/-- The character that a one-letter escape stands for. -/
def shortEscape? (c : CodePoint) : Option CodePoint :=
  if c = '"' ∨ c = '\\' then some c
  else if c = 'b' then some (CodePoint.ofChar '\x08')
  else if c = 't' then some (CodePoint.ofChar '\t')
  else if c = 'n' then some (CodePoint.ofChar '\n')
  else if c = 'f' then some (CodePoint.ofChar '\x0c')
  else if c = 'r' then some (CodePoint.ofChar '\r')
  else none

/-- The character, no surrogate, whose number the first `width` hexadecimal digits spell. -/
def hexCharacter? (width : Nat) (s : Text) : Option CodePoint := do
  let digits ← (s.take width).mapM CodePoint.hexValue?
  if digits.length = width then
    (CodePoint.ofNat? (digits.foldl (fun n d => n * 16 + d) 0)).filter fun c => !c.isSurrogate
  else none

/-- What follows a backslash at the end of a line: the first character that is no blank on a later
line. -/
def skipLineEnd (s : Text) : Option (Text.Tail s) :=
  match Text.skipWhile isBlank s with
  | ⟨c :: r, h⟩ =>
    if c = '\n' then
      let ⟨q, hq⟩ := Text.skipWhile isBlankOrFeed r
      some ⟨q, by simp at h; omega⟩
    else none
  | _ => none

/-- Whether three of a character begin a text. -/
def beginsWithThree (c : CodePoint) (s : Text) : Bool := s.take 3 = [c, c, c]

/-- The characters after the closing quotes of a string over several lines: up to two more belong to
the string. -/
def extraQuotes (quote : CodePoint) (s : Text) : Text × Text.Tail s :=
  match s with
  | a :: b :: r =>
    if a = quote then
      if b = quote then ([a, b], ⟨r, by simp; omega⟩) else ([a], ⟨b :: r, by simp⟩)
    else ([], .all (a :: b :: r))
  | [a] => if a = quote then ([a], ⟨[], by simp⟩) else ([], .all [a])
  | [] => ([], .all [])

/-- Scan the inside of a string with escapes up to and with its closing; `scanned` holds the
characters so far, last first. -/
def scanEscaped (multiline : Bool) (s scanned : Text) : Scan Text s :=
  match s with
  | [] => .error .malformed
  | c :: r =>
    if c = '"' then
      if !multiline then .ok (scanned.reverse, ⟨r, by simp⟩)
      else if beginsWithThree c (c :: r) then
        let (extra, ⟨q, hq⟩) := extraQuotes c (r.drop 2)
        .ok (scanned.reverse ++ extra, ⟨q, by simp at hq ⊢; omega⟩)
      else do
        let (t, ⟨q, hq⟩) ← scanEscaped multiline r (c :: scanned)
        return (t, ⟨q, by simp; omega⟩)
    else if c = '\\' then
      match r with
      | [] => .error .malformed
      | e :: r =>
        if multiline && isBlankOrFeed e then
          match skipLineEnd (e :: r) with
          | none => .error .malformed
          | some ⟨q, hq⟩ => do
            let (t, ⟨q', hq'⟩) ← scanEscaped multiline q scanned
            return (t, ⟨q', by simp at hq ⊢; omega⟩)
        else if e = 'u' ∨ e = 'U' then
          let width := if e = 'u' then 4 else 8
          match hexCharacter? width r with
          | none => .error .malformed
          | some c => do
            let (t, ⟨q, hq⟩) ← scanEscaped multiline (r.drop width) (c :: scanned)
            return (t, ⟨q, by simp at hq ⊢; omega⟩)
        else
          match shortEscape? e with
          | none => .error .malformed
          | some c => do
            let (t, ⟨q, hq⟩) ← scanEscaped multiline r (c :: scanned)
            return (t, ⟨q, by simp; omega⟩)
    else if isIllegal multiline c then .error .malformed
    else do
      let (t, ⟨q, hq⟩) ← scanEscaped multiline r (c :: scanned)
      return (t, ⟨q, by simp; omega⟩)
termination_by s.length
decreasing_by all_goals simp_wf <;> simp at * <;> omega

/-- Scan the inside of a string without escapes up to and with its closing. -/
def scanVerbatim (multiline : Bool) (s : Text) : Scan Text s :=
  match s with
  | [] => .error .malformed
  | c :: r =>
    if c = '\'' && (!multiline || beginsWithThree c (c :: r)) then
      if multiline then
        let (extra, ⟨q, hq⟩) := extraQuotes c (r.drop 2)
        .ok (extra, ⟨q, by simp at hq ⊢; omega⟩)
      else .ok ([], ⟨r, by simp⟩)
    else if isIllegal multiline c then .error .malformed
    else do
      let (t, ⟨q, hq⟩) ← scanVerbatim multiline r
      return (c :: t, ⟨q, by simp; omega⟩)

/-- The text after the opening of a string over several lines, without a line feed there. -/
def dropFeed (s : Text) : Text.Tail s :=
  match s with
  | [] => .all []
  | c :: r => if c = '\n' then ⟨r, by simp⟩ else .all (c :: r)

/-- Scan a string whose opening quote `quote` stands before `s`. -/
def scanLine (quote : CodePoint) (s : Text) : Scan Text s :=
  if quote = '"' then scanEscaped false s [] else scanVerbatim false s

/-- Scan a string of one of the four forms whose first quote `quote` stands before `s`. -/
def scanString (quote : CodePoint) (s : Text) : Scan Text s :=
  if s.take 2 = [quote, quote] then do
    let ⟨r, hr⟩ := dropFeed (s.drop 2)
    let (t, ⟨q, hq⟩) ← if quote = '"' then scanEscaped true r [] else scanVerbatim true r
    return (t, ⟨q, by simp at hr; omega⟩)
  else scanLine quote s

/-- The digits at the head, with single underscores between them, which are dropped. -/
def digitGroups (isDigit : CodePoint → Bool) : Text → Text × Text
  | [] => ([], [])
  | [c] => if isDigit c then ([c], []) else ([], [c])
  | c :: d :: r =>
    if isDigit c then
      if d = '_' ∧ (r.head?.any isDigit) = true then
        let (ds, rest) := digitGroups isDigit r
        (c :: ds, rest)
      else
        let (ds, rest) := digitGroups isDigit (d :: r)
        (c :: ds, rest)
    else ([], c :: d :: r)

/-- A hexadecimal digit. -/
def isHexDigit (c : CodePoint) : Bool := c.hexValue?.isSome

/-- The base that the letter after a zero names, and its digits. -/
def radix? (c : CodePoint) : Option (Nat × (CodePoint → Bool)) :=
  if c = 'x' then some (16, isHexDigit)
  else if c = 'b' then some (2, fun c => c = CodePoint.ofChar '0' || c = CodePoint.ofChar '1')
  else if c = 'o' then some (8, fun c => 0x30 ≤ c.val && c.val ≤ 0x37)
  else none

/-- The integer at the head that names its base. -/
def radixInteger? (s : Text) : Option (Value × Text) :=
  match s with
  | z :: x :: r =>
    if z = '0' then do
      let (base, isDigit) ← radix? x
      let (digits, rest) := digitGroups isDigit r
      if digits = [] then none
      else
        let n := digits.foldl (fun n d => n * base + d.hexValue?.getD 0) 0
        some (.integer n, rest)
    else none
  | _ => none

/-- The sign at the head, whether it is a minus. -/
def sign (s : Text) : Bool × Text :=
  match s with
  | [] => (false, [])
  | c :: r => if c = '-' then (true, r) else if c = '+' then (false, r) else (false, s)

/-- The digits before the point: a single zero, or digits that begin with none. -/
def wholeDigits (s : Text) : Text × Text :=
  match s with
  | [] => ([], [])
  | c :: r => if c = '0' then ([c], r) else digitGroups CodePoint.isDigit s

/-- The digits after a point. -/
def fractionDigits (s : Text) : Text × Text :=
  match s with
  | [] => ([], [])
  | c :: r =>
    let (digits, rest) := digitGroups CodePoint.isDigit r
    if c = '.' ∧ digits ≠ [] then (digits, rest) else ([], s)

/-- The exponent. -/
def exponent? (s : Text) : Option Int × Text :=
  match s with
  | [] => (none, [])
  | c :: r =>
    let (negative, r) := sign r
    let (digits, rest) := digitGroups CodePoint.isDigit r
    if (c = 'e' ∨ c = 'E') ∧ digits ≠ [] then
      let n := Int.ofNat (Text.digitsValue digits)
      (some (if negative then -n else n), rest)
    else (none, s)

/-- The number at the head, if there is one. -/
def number? (s : Text) : Except Fault (Option (Value × Text)) :=
  match radixInteger? s with
  | some found => .ok (some found)
  | none =>
    let (negative, r) := sign s
    let (whole, r) := wholeDigits r
    if whole = [] then .ok none
    else
      let (fraction, r) := fractionDigits r
      let (exponent, r) := exponent? r
      if fraction = [] ∧ exponent = none then
        if Text.maxDigits < whole.length then .error (.longInteger whole.length)
        else
          let n := Int.ofNat (Text.digitsValue whole)
          .ok (some (.integer (if negative then -n else n), r))
      else
        let power := exponent.getD 0 - Int.ofNat fraction.length
        let digits := Text.digitsValue (whole ++ fraction)
        .ok (some (.float (Binary64.nearest negative digits power), r))

/-- Exactly `width` digits at the head. -/
def fixedDigits? (width : Nat) (s : Text) : Option (Nat × Text) :=
  let digits := s.take width
  if digits.length = width ∧ digits.all CodePoint.isDigit then
    some (Text.digitsValue digits, s.drop width)
  else none

/-- A given character at the head. -/
def character? (c : CodePoint) (s : Text) : Option Text := Text.dropStart? [c] s

/-- The hours and minutes at the head. -/
def hoursMinutes? (s : Text) : Option Text := do
  let (hours, r) ← fixedDigits? 2 s
  let r ← character? ':' r
  let (minutes, r) ← fixedDigits? 2 r
  if hours < 24 ∧ minutes < 60 then some r else none

/-- The time of day at the head. -/
def time? (s : Text) : Option Text := do
  let r ← hoursMinutes? s
  let r ← character? ':' r
  let (seconds, r) ← fixedDigits? 2 r
  if seconds < 60 then
    match r with
    | p :: d :: _ =>
      if p = '.' && d.isDigit then some ((r.drop 1).dropWhile CodePoint.isDigit) else some r
    | _ => some r
  else none

/-- The text after the offset from universal time at the head, if there is one. -/
def skipOffset (s : Text) : Text :=
  match s with
  | [] => []
  | c :: r =>
    if c = 'Z' ∨ c = 'z' then r
    else if c = '+' ∨ c = '-' then (hoursMinutes? r).getD s
    else s

/-- The number of days in a month. -/
def daysIn (year month : Nat) : Nat :=
  if month = 2 then
    if year % 4 = 0 ∧ (year % 100 ≠ 0 ∨ year % 400 = 0) then 29 else 28
  else if month = 4 ∨ month = 6 ∨ month = 9 ∨ month = 11 then 30
  else 31

/-- The date at the head, and whether the calendar has it. -/
def date? (s : Text) : Option (Bool × Text) := do
  let (year, r) ← fixedDigits? 4 s
  let r ← character? '-' r
  let (month, r) ← fixedDigits? 2 r
  let r ← character? '-' r
  let (day, r) ← fixedDigits? 2 r
  if 1 ≤ month ∧ month ≤ 12 ∧ 1 ≤ day ∧ day ≤ 31 then
    some (decide (1 ≤ year ∧ day ≤ daysIn year month), r)
  else none

/-- The text after the time of day that follows a date, if there is one. -/
def skipTime (s : Text) : Text :=
  match s with
  | [] => []
  | c :: r =>
    if c = 'T' ∨ c = 't' ∨ c = ' ' then
      match time? r with
      | some r => skipOffset r
      | none => s
    else s

/-- The date, the time, or both at the head. -/
def moment? (s : Text) : Except Fault (Option (Value × Text)) :=
  let written (r : Text) : Option (Value × Text) :=
    some (.moment (s.take (s.length - r.length)), r)
  match date? s with
  | some (true, r) => .ok (written (skipTime r))
  | some (false, _) => .error .malformed
  | none => .ok ((time? s).bind written)

/-- The words that stand for a value. -/
def words : List (Text × Value) :=
  [("true", .boolean true), ("false", .boolean false)]

/-- The words that stand for a number. -/
def numberWords : List (Text × Value) :=
  [("inf", .float (.infinite false)), ("nan", .float .nan), ("+inf", .float (.infinite false)),
    ("-inf", .float (.infinite true)), ("+nan", .float .nan), ("-nan", .float .nan)]

/-- The word at the head, of some words. -/
def word? (words : List (Text × Value)) (s : Text) : Option (Value × Text) :=
  words.findSome? fun w => (Text.dropStart? w.1 s).map fun r => (w.2, r)

/-- Scan a value that is no string, no list and no table. -/
def scanAtom (s : Text) : Scan Value s := do
  let found ← match word? words s with
    | some found => pure (some found)
    | none =>
      match ← moment? s with
      | some found => pure (some found)
      | none =>
        match ← number? s with
        | some found => pure (some found)
        | none => pure (word? numberWords s)
  match found with
  | none => .error .malformed
  | some (v, r) => if h : r.length < s.length then return (v, ⟨r, h⟩) else .error .malformed

end Toml
end AnchorIdl
