/-
# Reading JSON

The grammar is that of RFC 8259 with three more words, `NaN`, `Infinity` and
`-Infinity`.  Control characters below `0x20` may not stand in a string, a
lone surrogate escape stands for itself, and two escapes that form a surrogate
pair stand for one character.

Every step consumes at least one code point: a scanner of a text `s` returns
the rest together with the proof that it is shorter than `s`, and the mutual
recursion over values, items and members ends for that reason.  A fault is
recorded by what is left of the text where it occurs, and `ofText` turns that
into a position with its line and column.

An integer of more than `Text.maxDigits` digits is refused by itself, outside the
grammar.

Source: `idlforge.core.loader` (`load_schema`), where it is given a text.
-/

import AnchorIdl.Json.Basic
import AnchorIdl.Text.Scan

namespace AnchorIdl
namespace Json

/-- What a text that is no JSON lacks or holds. -/
inductive Flaw
  | noValue
  | noPropertyName
  | noColon
  | noComma
  | unterminatedString
  | controlCharacter
  | badEscape
  | badUnicodeEscape
  | extraData
  | byteOrderMark
  deriving DecidableEq, Repr

/-- The wording of a flaw. -/
def Flaw.wording : Flaw → Text
  | noValue => "Expecting value"
  | noPropertyName => "Expecting property name enclosed in double quotes"
  | noColon => "Expecting ':' delimiter"
  | noComma => "Expecting ',' delimiter"
  | unterminatedString => "Unterminated string starting at"
  | controlCharacter => "Invalid control character at"
  | badEscape => "Invalid \\escape"
  | badUnicodeEscape => "Invalid \\uXXXX escape"
  | extraData => "Extra data"
  | byteOrderMark => "Unexpected UTF-8 BOM (decode using utf-8-sig)"

/-- Why a scan stops: a flaw, with the text that is left there, or an integer with too many
digits. -/
inductive Stop
  | flaw (what : Flaw) (left : Text)
  | longInteger (digits : Nat)
  deriving DecidableEq, Repr

/-- Space, tab, line feed or carriage return. -/
def isBlankChar (c : CodePoint) : Bool :=
  c.val == 0x20 || c.val == 0x09 || c.val == 0x0A || c.val == 0x0D

/-- The text without the blanks at its head. -/
def skipBlanks (s : Text) : Text.Tail s := Text.skipWhile isBlankChar s

/-- The value of four hexadecimal digits at the head. -/
def hex4? : Text → Option CodePoint
  | a :: b :: c :: d :: _ => do
    let a ← a.hexValue?
    let b ← b.hexValue?
    let c ← c.hexValue?
    let d ← d.hexValue?
    CodePoint.ofNat? (((a * 16 + b) * 16 + c) * 16 + d)
  | _ => none

/-- The character that a one-letter escape stands for. -/
def shortEscape? (c : CodePoint) : Option CodePoint :=
  if c = '"' ∨ c = '\\' ∨ c = '/' then some c
  else if c = 'b' then some (CodePoint.ofChar '\x08')
  else if c = 'f' then some (CodePoint.ofChar '\x0c')
  else if c = 'n' then some (CodePoint.ofChar '\n')
  else if c = 'r' then some (CodePoint.ofChar '\r')
  else if c = 't' then some (CodePoint.ofChar '\t')
  else none

/-- The low surrogate whose escape stands at the head.  Something has to follow the escape, if only
the closing quote. -/
def lowEscape? : Text → Option CodePoint
  | b :: u :: rest =>
    if b = '\\' ∧ u = 'u' ∧ rest.drop 4 ≠ [] then
      (hex4? rest).filter CodePoint.isLowSurrogate
    else none
  | _ => none

/-- Scan the characters of a string up to its closing quote.  `start` is the text from the opening
quote on, `scanned` holds the characters so far, last first. -/
def scanString (start s scanned : Text) : Except Stop (Text × Text.Rest s) :=
  match s with
  | [] => .error (.flaw .unterminatedString start)
  | c :: r =>
    if c = '"' then .ok (scanned.reverse, ⟨r, by simp⟩)
    else if c ≠ '\\' then
      if c.val < 0x20 then .error (.flaw .controlCharacter (c :: r))
      else do
        let (t, ⟨q, hq⟩) ← scanString start r (c :: scanned)
        return (t, ⟨q, by simp; omega⟩)
    else match r with
      | [] => .error (.flaw .unterminatedString start)
      | e :: r =>
        if e ≠ 'u' then
          match shortEscape? e with
          | none => .error (.flaw .badEscape (c :: e :: r))
          | some c => do
            let (t, ⟨q, hq⟩) ← scanString start r (c :: scanned)
            return (t, ⟨q, by simp; omega⟩)
        else match hex4? r, r.drop 4 with
          | some c, d :: r' =>
            match if c.isHighSurrogate then lowEscape? (d :: r') else none with
            | some low => do
              let (t, ⟨q, hq⟩) ← scanString start (r.drop 10) (CodePoint.ofPair c low :: scanned)
              return (t, ⟨q, by simp at hq ⊢; omega⟩)
            | none => do
              let (t, ⟨q, hq⟩) ← scanString start (r.drop 4) (c :: scanned)
              return (t, ⟨q, by simp at hq ⊢; omega⟩)
          | _, _ => .error (.flaw .badUnicodeEscape (e :: r))
termination_by s.length
decreasing_by all_goals simp; try omega

/-- The digits at the head and what follows them. -/
def digits (s : Text) : Text × Text.Tail s :=
  (s.takeWhile CodePoint.isDigit, Text.skipWhile CodePoint.isDigit s)

/-- The digits before the point at the head: a single zero, or digits that begin with none. -/
def wholeDigits? (s : Text) : Option (Text × Text.Rest s) :=
  match s with
  | [] => none
  | c :: r =>
    if c = '0' then some ([c], ⟨r, Text.length_lt_cons c r⟩)
    else if c.isDigit then
      let (ds, ⟨q, h⟩) := digits r
      some (c :: ds, ⟨q, Text.lt_cons_of_le c h⟩)
    else none

/-- The fraction at the head: the digits after a point. -/
def fractionDigits (s : Text) : Text × Text.Tail s :=
  match s with
  | [] => ([], .all _)
  | c :: r =>
    if c ≠ '.' then ([], .all _)
    else
      match digits r with
      | ([], _) => ([], .all _)
      | (d :: ds, ⟨q, h⟩) => (d :: ds, ⟨q, Text.le_cons_of_le c h⟩)

/-- The sign of an exponent at the head: whether it is a minus sign. -/
def exponentSign (s : Text) : Bool × Text.Tail s :=
  match s with
  | [] => (false, .all _)
  | c :: r =>
    if c = '-' ∨ c = '+' then (c = '-', ⟨r, Text.le_cons_of_le c (Nat.le_refl _)⟩)
    else (false, .all _)

/-- The exponent at the head, if there is one. -/
def exponentPart (s : Text) : Option Int × Text.Tail s :=
  match s with
  | [] => (none, .all _)
  | c :: r =>
    if c ≠ 'e' ∧ c ≠ 'E' then (none, .all _)
    else
      let (negative, ⟨q, hq⟩) := exponentSign r
      match digits q with
      | ([], _) => (none, .all _)
      | (d :: ds, ⟨t, ht⟩) =>
        let n := Int.ofNat (Text.digitsValue (d :: ds))
        (some (if negative then -n else n), ⟨t, Text.le_cons_of_le c (Nat.le_trans ht hq)⟩)

/-- Scan the number after its sign; nothing if there is no digit. -/
def scanDigits? (negative : Bool) (s : Text) : Except Stop (Option (Json × Text.Rest s)) :=
  match wholeDigits? s with
  | none => .ok none
  | some (whole, ⟨r, hr⟩) =>
    let (fraction, ⟨q, hq⟩) := fractionDigits r
    let (exponent, ⟨t, ht⟩) := exponentPart q
    let rest : Text.Rest s := ⟨t, Nat.lt_of_le_of_lt (Nat.le_trans ht hq) hr⟩
    if fraction = [] ∧ exponent = none then
      if Text.maxDigits < whole.length then .error (.longInteger whole.length)
      else
        let n := Int.ofNat (Text.digitsValue whole)
        .ok (some (.int (if negative then -n else n), rest))
    else
      let power := exponent.getD 0 - Int.ofNat fraction.length
      let digits := Text.digitsValue (whole ++ fraction)
      .ok (some (.float (Binary64.nearest negative digits power), rest))

/-- Scan a number; nothing if there is none. -/
def scanNumber? (s : Text) : Except Stop (Option (Json × Text.Rest s)) :=
  match s with
  | [] => .ok none
  | c :: r =>
    if c = '-' then do
      match ← scanDigits? true r with
      | some (v, ⟨q, h⟩) => return some (v, ⟨q, Text.lt_cons_of_lt c h⟩)
      | none => return none
    else scanDigits? false (c :: r)

/-- The words that stand for a value: the first letter, the others, and the value. -/
def words : List (Char × String × Json) :=
  [('n', "ull", .null), ('t', "rue", .bool true), ('f', "alse", .bool false),
    ('N', "aN", .float .nan), ('I', "nfinity", .float (.infinite false)),
    ('-', "Infinity", .float (.infinite true))]

/-- Scan a given word; nothing if there is another. -/
def scanWord? (s : Text) (word : Char × String × Json) : Option (Json × Text.Rest s) :=
  match s with
  | [] => none
  | c :: r =>
    if c ≠ word.1 then none
    else
      match h : Text.dropStart? word.2.1 r with
      | none => none
      | some q => some (word.2.2, ⟨q, Text.lt_cons_of_le c (Text.length_le_of_dropStart? h)⟩)

/-- Scan a word or a number. -/
def scanAtom (s : Text) : Except Stop (Json × Text.Rest s) := do
  match words.findSome? (scanWord? s) with
  | some found => return found
  | none =>
    match ← scanNumber? s with
    | some found => return found
    | none => .error (.flaw .noValue s)

mutual

/-- Scan a value. -/
def scanValue (s : Text) : Except Stop (Json × Text.Rest s) :=
  match s with
  | [] => .error (.flaw .noValue [])
  | c :: r =>
    if c = '"' then do
      let (t, ⟨q, hq⟩) ← scanString (c :: r) r []
      return (.str t, ⟨q, by simp; omega⟩)
    else if c = '[' then
      match skipBlanks r with
      | ⟨[], _⟩ => .error (.flaw .noValue [])
      | ⟨d :: q, hq⟩ =>
        if d = ']' then .ok (.arr [], ⟨q, by simp at hq ⊢; omega⟩)
        else do
          let (items, ⟨q, hq'⟩) ← scanItems (d :: q)
          return (.arr items, ⟨q, by simp at hq hq' ⊢; omega⟩)
    else if c = '\x7b' then
      match skipBlanks r with
      | ⟨[], _⟩ => .error (.flaw .noPropertyName [])
      | ⟨d :: q, hq⟩ =>
        if d = '\x7d' then .ok (.obj [], ⟨q, by simp at hq ⊢; omega⟩)
        else do
          let (pairs, ⟨q, hq'⟩) ← scanPairs (d :: q)
          return (.obj (Ordered.ofPairs pairs), ⟨q, by simp at hq hq' ⊢; omega⟩)
    else scanAtom (c :: r)
termination_by (s.length, 1)
decreasing_by all_goals simp_wf; simp at *; omega

/-- Scan the items of a list up to its closing bracket. -/
def scanItems (s : Text) : Except Stop (List Json × Text.Rest s) := do
  let (v, ⟨r, hr⟩) ← scanValue s
  match skipBlanks r with
  | ⟨[], _⟩ => .error (.flaw .noComma [])
  | ⟨d :: q, hq⟩ =>
    if d = ']' then return ([v], ⟨q, by simp at hq; omega⟩)
    else if d ≠ ',' then .error (.flaw .noComma (d :: q))
    else
      let ⟨q', hq'⟩ := skipBlanks q
      let (vs, ⟨t, ht⟩) ← scanItems q'
      return (v :: vs, ⟨t, by simp at hq; omega⟩)
termination_by (s.length, 2)
decreasing_by
  · exact Prod.Lex.right _ (by decide)
  · simp at *; omega

/-- Scan the members of an object up to its closing brace. -/
def scanPairs (s : Text) : Except Stop (List (Text × Json) × Text.Rest s) :=
  match s with
  | [] => .error (.flaw .noPropertyName [])
  | c :: r =>
    if c ≠ '"' then .error (.flaw .noPropertyName (c :: r))
    else do
      let (key, ⟨r₁, h₁⟩) ← scanString (c :: r) r []
      match skipBlanks r₁ with
      | ⟨[], _⟩ => .error (.flaw .noColon [])
      | ⟨d :: r₂, h₂⟩ =>
        if d ≠ ':' then .error (.flaw .noColon (d :: r₂))
        else
          let ⟨r₃, h₃⟩ := skipBlanks r₂
          let (v, ⟨r₄, h₄⟩) ← scanValue r₃
          match skipBlanks r₄ with
          | ⟨[], _⟩ => .error (.flaw .noComma [])
          | ⟨e :: r₅, h₅⟩ =>
            if e = '\x7d' then return ([(key, v)], ⟨r₅, by simp at *; omega⟩)
            else if e ≠ ',' then .error (.flaw .noComma (e :: r₅))
            else
              let ⟨r₆, h₆⟩ := skipBlanks r₅
              let (pairs, ⟨t, ht⟩) ← scanPairs r₆
              return ((key, v) :: pairs, ⟨t, by simp at *; omega⟩)
termination_by (s.length, 0)
decreasing_by all_goals simp_wf; simp at *; omega

end

/-- Scan a whole text: one value between blanks. -/
def scanDocument (s : Text) : Except Stop Json := do
  let (v, r) ← scanValue (skipBlanks s)
  match (skipBlanks r).val with
  | [] => return v
  | r => .error (.flaw .extraData r)

/-- Why a text is no JSON value: a flaw at a position, or an integer with too many digits. -/
inductive TextFault
  | flaw (what : Flaw) (line column position : Nat)
  | longInteger (digits : Nat)
  deriving DecidableEq, Repr

/-- Place a fault in the whole text. -/
def Stop.place (s : Text) : Stop → TextFault
  | .flaw what left =>
    let position := s.length - left.length
    .flaw what (s.line position) (s.column position) position
  | .longInteger digits => .longInteger digits

/-- The value that a decoded text denotes. -/
def ofDecoded (s : Text) : Except TextFault Json :=
  (scanDocument s).mapError (Stop.place s)

/-- The value that a text denotes; a byte order mark may not begin it. -/
def ofText (s : Text) : Except TextFault Json :=
  if s.head? = some ⟨0xFEFF, by decide⟩ then .error (.flaw .byteOrderMark 1 1 0)
  else ofDecoded s

end Json
end AnchorIdl
