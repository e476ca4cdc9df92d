/-
# The shortest numeral of a floating-point number

A number is shown with the fewest digits that read back to it.  Every real
number between two bounds rounds to the given one: the bounds lie halfway to
its neighbours, and count themselves iff the mantissa is even.  On the grid of
decimals with `n` digits only the two points next to the number can lie between
the bounds if any does, so the first `n` at which one of the two does gives the
digits; of two the nearer is taken, and at a tie the even one.

The point stands among the digits, or after zeros in front of them, from
`0.0001` up to sixteen digits before it; beyond that range the numeral has one
digit before the point and an exponent of at least two digits.

Source: the numbers in the messages of `idlforge.core.loader`.
-/

import AnchorIdl.Decimal.Binary64
import AnchorIdl.Text.Basic

namespace AnchorIdl
namespace Binary64

/-- A positive number as a fraction, and the distance to the next one over the same divisor. -/
def fraction (mantissa : Nat) (exponent : Int) : Nat × Nat × Nat :=
  if 0 ≤ exponent then (mantissa * twoPow exponent.toNat, 1, twoPow exponent.toNat)
  else (mantissa, twoPow (-exponent).toNat, 1)

/-- How many digits the fraction has before the point, or minus the number of zeros after it. -/
def pointPlace (num den : Nat) : Int :=
  if den ≤ num then Int.ofNat (Nat.toDigits 10 (num / den)).length
  else
    match (List.range 400).find? fun j => den ≤ num * tenPow (j + 1) with
    | some j => -Int.ofNat j
    | none => 0

/-- The decimal `c · 10 ^ power` over the divisor `den`, as a fraction's two sides. -/
def onGrid (c den : Nat) (power : Int) : Nat × Nat :=
  if 0 ≤ power then (c * tenPow power.toNat * den, 1) else (c * den, tenPow (-power).toNat)

/-- The point next to the number on the grid `10 ^ power` that rounds to the number. -/
def gridPoint? (mantissa : Nat) (exponent power : Int) : Option Nat :=
  let (num, den, step) := fraction mantissa exponent
  let down := if mantissa = twoPow 52 ∧ leastExponent < exponent then step else 2 * step
  let (value, one) := onGrid 1 den power
  let low := num * one / value
  let inside (c : Nat) : Bool :=
    let (point, one) := onGrid c (4 * den) power
    let lower := (4 * num - down) * one
    let upper := (4 * num + 2 * step) * one
    if mantissa % 2 = 0 then lower ≤ point && point ≤ upper else lower < point && point < upper
  let distance (c : Nat) : Nat :=
    let (point, one) := onGrid c den power
    if point ≤ num * one then num * one - point else point - num * one
  match inside low && low != 0, inside (low + 1) with
  | false, false => none
  | true, false => some low
  | false, true => some (low + 1)
  | true, true =>
    if distance low < distance (low + 1) then some low
    else if distance (low + 1) < distance low then some (low + 1)
    else some (low + low % 2)

/-- The digits without zeros at their end, and how many zeros were cut off. -/
def trimZeros (digits : Text) : Text × Nat :=
  let zeros := (digits.reverse.takeWhile fun c : CodePoint => c = '0').length
  (digits.take (digits.length - zeros), zeros)

/-- The shortest digits of a positive number, and the place of the point relative to their
start. -/
def shortest (mantissa : Nat) (exponent : Int) : Text × Int :=
  let (num, den, _) := fraction mantissa exponent
  let place := pointPlace num den
  let found := (List.range 17).findSome? fun n =>
    let power := place - Int.ofNat (n + 1)
    (gridPoint? mantissa exponent power).map fun c => (c, power)
  match found with
  | none => ("0", 1)
  | some (c, power) =>
    let digits := Text.ofNat c
    ((trimZeros digits).1, Int.ofNat digits.length + power)

/-- Digits laid out with the point at `place`. -/
def layout (digits : Text) (place : Int) : Text :=
  let zeros (n : Int) : Text := List.replicate n.toNat '0'
  if -4 < place ∧ place ≤ 16 then
    if place ≤ 0 then "0." ++ zeros (-place) ++ digits
    else if digits.length ≤ place.toNat then
      digits ++ zeros (place - Int.ofNat digits.length) ++ ".0"
    else digits.take place.toNat ++ "." ++ digits.drop place.toNat
  else
    let exponent := place - 1
    let fraction : Text := if digits.length = 1 then [] else "." ++ digits.drop 1
    let sign : Text := if exponent < 0 then "e-" else "e+"
    let numeral := Text.ofNat exponent.natAbs
    digits.take 1 ++ fraction ++ sign ++ (if numeral.length < 2 then "0" ++ numeral else numeral)

/-- The text of a floating-point number. -/
def display : Binary64 → Text
  | .nan => "nan"
  | .infinite negative => if negative then "-inf" else "inf"
  | .finite negative mantissa exponent =>
    let numeral : Text :=
      if mantissa = 0 then "0.0"
      else
        let (digits, place) := shortest mantissa exponent
        layout digits place
    if negative then "-" ++ numeral else numeral

end Binary64
end AnchorIdl
