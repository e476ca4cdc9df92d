/-
# Text as a list of code points

An IDL document is JSON, and JSON can name any sixteen-bit unit in an escape,
so a document's strings may hold *lone surrogates*: code points `D800` to
`DFFF` that no `Char` can be.  `Text` keeps them.  It is a list of `CodePoint`,
the numbers below `0x110000`, and every string of the library's input and
output is one.  A string literal stands for its `Text` by a coercion.

Beside the type the module holds the few operations that every other module
needs: decimal and hexadecimal numerals, the order by code point, and the line
and column of a position.  An integer of more than `maxDigits` digits has no
numeral: it can neither be read nor written.

Source: the texts of `idlforge.core.ir` and of every function that reads or
writes them.
-/

namespace AnchorIdl

/-- A Unicode code point, surrogates included. -/
structure CodePoint where
  val : Nat
  val_lt : val < 0x110000
  deriving DecidableEq, Repr

namespace CodePoint

/-- The code point of a character. -/
def ofChar (c : Char) : CodePoint :=
  ⟨c.toNat, by
    have h := c.valid
    change c.val.toNat < 1114112
    rcases h with h | h <;> omega⟩

instance : Coe Char CodePoint := ⟨ofChar⟩

/-- The code point with number `n`, when there is one. -/
def ofNat? (n : Nat) : Option CodePoint :=
  if h : n < 0x110000 then some ⟨n, h⟩ else none

/-- Half of a surrogate pair, which stands for no character by itself. -/
def isSurrogate (c : CodePoint) : Bool := 0xD800 ≤ c.val && c.val < 0xE000

/-- The first half of a surrogate pair. -/
def isHighSurrogate (c : CodePoint) : Bool := 0xD800 ≤ c.val && c.val < 0xDC00

/-- The second half of a surrogate pair. -/
def isLowSurrogate (c : CodePoint) : Bool := 0xDC00 ≤ c.val && c.val < 0xE000

/-- The code point that two halves of a pair stand for; only the low ten bits of each count. -/
def ofPair (high low : CodePoint) : CodePoint :=
  ⟨0x10000 + (high.val % 0x400) * 0x400 + low.val % 0x400, by
    have h₁ := Nat.mod_lt high.val (y := 0x400) (by decide)
    have h₂ := Nat.mod_lt low.val (y := 0x400) (by decide)
    omega⟩

/-- The character with this code point; a surrogate has none. -/
def toChar? (c : CodePoint) : Option Char :=
  if h : c.val.isValidChar then some (Char.ofNatAux c.val h) else none

/-- `0` to `9`. -/
def isDigit (c : CodePoint) : Bool := 0x30 ≤ c.val && c.val ≤ 0x39

/-- `A` to `Z`. -/
def isUpper (c : CodePoint) : Bool := 0x41 ≤ c.val && c.val ≤ 0x5A

/-- `a` to `z`. -/
def isLower (c : CodePoint) : Bool := 0x61 ≤ c.val && c.val ≤ 0x7A

/-- `A` to `Z` and `a` to `z`. -/
def isLetter (c : CodePoint) : Bool := c.isUpper || c.isLower

/-- A letter, a digit or the underscore: what an ASCII name may hold. -/
def isWord (c : CodePoint) : Bool := c.isLetter || c.isDigit || c.val == 0x5F

/-- The value of a hexadecimal digit in either case. -/
def hexValue? (c : CodePoint) : Option Nat :=
  if c.isDigit then some (c.val - 0x30)
  else if 0x61 ≤ c.val ∧ c.val ≤ 0x66 then some (c.val - 0x57)
  else if 0x41 ≤ c.val ∧ c.val ≤ 0x46 then some (c.val - 0x37)
  else none

/-- The capital of an ASCII letter; every other code point is itself. -/
def toUpper (c : CodePoint) : CodePoint :=
  if c.isLower then ⟨c.val - 0x20, by have := c.val_lt; omega⟩ else c

end CodePoint

/-- A string of code points. -/
abbrev Text := List CodePoint

namespace Text

/-- The code points of a string. -/
def ofString (s : String) : Text := s.toList.map CodePoint.ofChar

instance : Coe String Text := ⟨ofString⟩

/-- The string of a text, with the replacement character for each lone surrogate. -/
def toString (t : Text) : String :=
  String.ofList (t.map fun c => c.toChar?.getD '\uFFFD')

/-- The decimal numeral of a natural number. -/
def ofNat (n : Nat) : Text := (Nat.toDigits 10 n).map CodePoint.ofChar

/-- The decimal numeral of an integer, with a minus sign below zero. -/
def ofInt : Int → Text
  | .ofNat n => ofNat n
  | .negSucc n => "-" ++ ofNat (n + 1)

/-- The most digits of an integer that is read from a numeral or written as one. -/
def maxDigits : Nat := 4300

/-- Whether an integer has no more than `maxDigits` digits; its sign is none. -/
def isShort (n : Int) : Bool := (ofNat n.natAbs).length ≤ maxDigits

/-- The decimal numeral of an integer that is short enough to be written. -/
def numeral? (n : Int) : Option Text := if isShort n then some (ofInt n) else none

/-- The number that decimal digits spell. -/
def digitsValue (digits : Text) : Nat :=
  digits.foldl (fun n d => 10 * n + (d.val - 0x30)) 0

/-- `n` in lower-case hexadecimal, `width` digits, the highest ones cut off. -/
def hex (width n : Nat) : Text :=
  match width with
  | 0 => []
  | width + 1 => hex width (n / 16) ++ [CodePoint.ofChar (Nat.digitChar (n % 16))]

/-- The parts joined with `separator` between each two. -/
def join (separator : Text) : List Text → Text
  | [] => []
  | [part] => part
  | part :: rest => part ++ separator ++ join separator rest

/-- The pieces between the places where `separator` stands: one more than it has occurrences. -/
def split (separator : CodePoint) : Text → List Text
  | [] => [[]]
  | c :: rest =>
    if c = separator then [] :: split separator rest
    else match split separator rest with
      | [] => [[c]]
      | piece :: pieces => (c :: piece) :: pieces

/-- Whether `t` comes before `u` or equals it, comparing code point by code point. -/
def le : Text → Text → Bool
  | [], _ => true
  | _ :: _, [] => false
  | a :: t, b :: u => a.val < b.val || (a.val == b.val && le t u)

/-- The texts in ascending order. -/
def sort (ts : List Text) : List Text := ts.mergeSort le

/-- The text without `start`, if it begins with it. -/
def dropStart? : (start t : Text) → Option Text
  | [], t => some t
  | _ :: _, [] => none
  | a :: start, b :: t => if a = b then dropStart? start t else none

/-- The line of a position in `t`, counted from one: the line feeds before it, and one more. -/
def line (t : Text) (position : Nat) : Nat :=
  (t.take position).countP (fun c : CodePoint => c = '\n') + 1

/-- The column of a position in `t`, counted from one, after the last line feed before it. -/
def column (t : Text) (position : Nat) : Nat :=
  ((t.take position).reverse.takeWhile fun c : CodePoint => c ≠ '\n').length + 1

end Text

/-- A string of octets. -/
abbrev Bytes := List UInt8

end AnchorIdl
