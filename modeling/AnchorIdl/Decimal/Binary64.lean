/-
# Binary floating-point numbers

A JSON number with a fraction or an exponent is a 64-bit floating-point number.
The library only tells such a number from zero and shows it, so the type keeps
the number itself and no bit pattern: a finite one is `± mantissa · 2 ^ exponent`
with `mantissa < 2 ^ 53` and `-1074 ≤ exponent ≤ 971`, where the mantissa is at
least `2 ^ 52` unless the exponent is the least one.

`nearest` rounds a decimal to the nearest such number, a tie to the even
mantissa, in exact arithmetic on natural numbers.

Source: the numbers of the documents that `idlforge.core.loader` (`load_schema`)
reads.
-/

namespace AnchorIdl

/-- A 64-bit floating-point number. -/
inductive Binary64
  | finite (negative : Bool) (mantissa : Nat) (exponent : Int)
  | infinite (negative : Bool)
  | nan
  deriving DecidableEq, Repr

namespace Binary64

/-- The least exponent, that of zero and of the numbers nearest to it. -/
def leastExponent : Int := -1074

/-- The greatest exponent. -/
def greatestExponent : Int := 971

/-- Zero or minus zero. -/
def zero (negative : Bool) : Binary64 := .finite negative 0 leastExponent

/-- Whether a number is zero of either sign. -/
def isZero : Binary64 → Bool
  | .finite _ mantissa _ => mantissa == 0
  | _ => false

/-- A power of two. -/
def twoPow (n : Nat) : Nat := Nat.pow 2 n

/-- The integer that a number is, if it has no fraction. -/
def integer? : Binary64 → Option Int
  | .finite negative mantissa exponent =>
    let den := twoPow (-exponent).toNat
    if mantissa % den = 0 then
      let n := Int.ofNat (mantissa / den * twoPow exponent.toNat)
      some (if negative then -n else n)
    else none
  | _ => none

/-- A power of ten. -/
def tenPow (n : Nat) : Nat := Nat.pow 10 n

/-- The quotient rounded to the nearest natural number, a tie to the even one. -/
def roundDiv (num den : Nat) : Nat :=
  let q := num / den
  let r := num % den
  if 2 * r < den then q
  else if den < 2 * r then q + 1
  else q + q % 2

/-- A positive factor `2 ^ e` put on the side of a fraction where its power is natural. -/
def scale (num den : Nat) (e : Int) : Nat × Nat :=
  if 0 ≤ e then (num, den * twoPow e.toNat) else (num * twoPow (-e).toNat, den)

/-- The number nearest to the positive fraction `num / den`. -/
def ofFraction (negative : Bool) (num den : Nat) : Binary64 :=
  let guess : Int := Int.ofNat num.log2 - Int.ofNat den.log2 - 52
  let (n, d) := scale num den guess
  let fitted := if n / d < twoPow 52 then guess - 1 else guess
  let exponent := max fitted leastExponent
  let (n, d) := scale num den exponent
  let mantissa := roundDiv n d
  let (mantissa, exponent) :=
    if mantissa = twoPow 53 then (twoPow 52, exponent + 1) else (mantissa, exponent)
  if greatestExponent < exponent then .infinite negative
  else .finite negative mantissa exponent

/-- The number nearest to `± digits · 10 ^ power`.  Powers far outside the range of the type are
settled before any power of ten is computed. -/
def nearest (negative : Bool) (digits : Nat) (power : Int) : Binary64 :=
  if digits = 0 then zero negative
  else
    let magnitude := power + Int.ofNat (Nat.toDigits 10 digits).length
    if 310 < magnitude then .infinite negative
    else if magnitude < -330 then zero negative
    else if 0 ≤ power then ofFraction negative (digits * tenPow power.toNat) 1
    else ofFraction negative digits (tenPow (-power).toNat)

end Binary64
end AnchorIdl
