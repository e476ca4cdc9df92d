/-
# Numerals in texts

Where an integer is expected a text may spell it.  Blanks around the numeral do
not count, nor does a plus sign in front.  What is left is a sign, if any, and
digits, with these liberties:

| liberty | for instance |
| --- | --- |
| zeros in front of a numeral without a sign, mixed with underscores | `007`, `0_7` |
| a point with nothing but zeros after it | `7.`, `7.00` |
| single underscores inside | `1_000` |

A numeral with more than `Text.maxDigits` digits is refused for that reason, even if
it takes no liberties.

Source: the checks of the classes in `idlforge.core.ir`, where they take an
integer for its numeral.
-/

import AnchorIdl.Text.Basic

namespace AnchorIdl
namespace Numeral

/-- Why a text is not read as an integer. -/
inductive Flaw
  | malformed
  | long
  deriving DecidableEq, Repr

/-- A blank character: those that Unicode calls white space. -/
def isBlank (c : CodePoint) : Bool :=
  (0x09 ≤ c.val && c.val ≤ 0x0D) || (0x2000 ≤ c.val && c.val ≤ 0x200A) ||
    [0x20, 0x85, 0xA0, 0x1680, 0x2028, 0x2029, 0x202F, 0x205F, 0x3000].contains c.val

/-- A text without the blanks at both ends. -/
def trim (t : Text) : Text :=
  ((t.dropWhile isBlank).reverse.dropWhile isBlank).reverse

/-- The value of a plain numeral: a minus sign, if any, and digits of which the first is not zero,
or a single zero. -/
def readPlain (t : Text) : Except Flaw Int :=
  let (negative, digits) :=
    match t with
    | [] => (false, [])
    | c :: r => if c = '-' then (true, r) else (false, t)
  let isPlain :=
    digits.all CodePoint.isDigit && digits ≠ [] &&
      (digits.head? ≠ some (CodePoint.ofChar '0') || digits.length = 1)
  if !isPlain then .error .malformed
  else if Text.maxDigits < digits.length then .error .long
  else
    let n := Int.ofNat (Text.digitsValue digits)
    .ok (if negative then -n else n)

/-- A text without the plus sign in front; a minus sign may not follow it. -/
def withoutPlus : Text → Option Text
  | [] => some []
  | c :: r =>
    if c ≠ '+' then some (c :: r)
    else if r.head? = some (CodePoint.ofChar '-') then none
    else some r

/-- A text after a zero and more zeros and underscores, of which the last was `last`. -/
def significant (last : CodePoint) : Text → Option Text
  | [] => some [last]
  | c :: r =>
    if c = '0' ∨ c = '_' then significant c r
    else if c.isDigit then some (c :: r)
    else if c = '.' then some (last :: c :: r)
    else none

/-- A text without the zeros in front; it has to begin with a digit or a minus sign. -/
def withoutLeadingZeros : Text → Option Text
  | [] => none
  | c :: r =>
    if c = '0' then significant c r
    else if c.isDigit ∨ c = '-' then some (c :: r)
    else none

/-- A text without its first point and what follows, if those are zeros. -/
def withoutZeroFraction (t : Text) : Text :=
  let fraction := (t.dropWhile fun c : CodePoint => c ≠ '.').drop 1
  if fraction.all fun c : CodePoint => c = '0' then t.takeWhile fun c : CodePoint => c ≠ '.'
  else t

/-- Whether each underscore stands alone between two other characters: `before` tells whether one
may stand at the head. -/
def underscoresInside : (before : Bool) → Text → Bool
  | before, [] => before
  | before, c :: r =>
    if c = '_' then before && underscoresInside false r else underscoresInside true r

/-- A text without its underscores, if they may stand where they do. -/
def withoutUnderscores (t : Text) : Text :=
  if underscoresInside false t then t.filter fun c : CodePoint => c ≠ '_' else t

/-- The plain numeral that a text stands for with its liberties. -/
def plain? (t : Text) : Option Text := do
  let t ← withoutPlus (trim t)
  let t ← withoutLeadingZeros t
  return withoutUnderscores (withoutZeroFraction t)

/-- The integer that a text spells. -/
def read (t : Text) : Except Flaw Int :=
  match readPlain t with
  | .ok n => .ok n
  | .error .long => .error .long
  | .error .malformed =>
    match plain? t with
    | some t => readPlain t
    | none => .error .malformed

end Numeral
end AnchorIdl
