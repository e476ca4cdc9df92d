/-
# Reading a script

The bindings of a schema are Python source.  A *script* is a module of the part
of Python that such source keeps to, and this is its reader:

| construct | form |
| --- | --- |
| module | a title, one import, assignments |
| title | a text in triple double quotes, without escapes |
| import | classes of `idlforge.core.ir` in parentheses |
| assignment | a name at the start of a line, `=`, a term |
| term | a text, an integer, a truth value, `None`, a name, a list, a call |
| argument of a call | a term, or a name, `=` and a term |

Inside brackets blanks and line feeds may stand before an item and before a
comma, and a comma may follow the last item.  At most two hundred brackets may
be open at once.  Whatever else Python allows is not read, and whatever is read
means in Python what the script says.  Names are compared as they are written;
only for names outside ASCII does Python compare their normal forms instead.

A *scanner* reads the head of a text and returns what it read with the rest.
`readTerm` recurs on the number of brackets that may still be opened, which is
also what Python counts.
-/

import AnchorIdl.Text.Identifier
import Mathlib.Tactic.SplitIfs

namespace AnchorIdl
namespace Script

/-- A term of a script.  An argument of a call has a keyword or stands by its position. -/
inductive Term
  | text (value : Text)
  | int (value : Int)
  | bool (value : Bool)
  | none
  | name (name : Text)
  | list (items : List Term)
  | call (callee : Text) (arguments : List (Option Text × Term))

/-- What reads the head of a text; the rest comes back. -/
abbrev Scanner (α : Type) := Text → Option (α × Text)

/-- How many brackets may be open at once. -/
def maxBrackets : Nat := 200

/-! ### Literals and names -/

/-- A name: as many characters as may belong to it. -/
def readName : Scanner Text
  | [] => none
  | c :: rest =>
    if c.isIdentifierStart then
      some (c :: rest.takeWhile CodePoint.isIdentifierContinue,
        rest.dropWhile CodePoint.isIdentifierContinue)
    else none

/-- A number: decimal digits, the first of them no zero unless it is the only one. -/
def readNumber : Scanner Nat := fun s =>
  match s.takeWhile CodePoint.isDigit with
  | [] => none
  | d :: digits =>
    if d = '0' ∧ digits ≠ [] then none
    else some (Text.digitsValue (d :: digits), s.dropWhile CodePoint.isDigit)

/-- An integer: a number, maybe with a minus sign before it. -/
def readInt : Scanner Int := fun s =>
  match Text.dropStart? "-" s with
  | some s => (readNumber s).map fun (n, rest) => (-n, rest)
  | none => (readNumber s).map fun (n, rest) => (n, rest)

/-- The number that hexadecimal digits spell. -/
def hexNumber? : Text → Option Nat :=
  List.foldlM (fun n d => d.hexValue?.map fun k => 16 * n + k) 0

/-- The character with a number of `width` hexadecimal digits. -/
def readHex (width : Nat) : Scanner CodePoint := fun s =>
  if s.length < width then none
  else (hexNumber? (s.take width)).bind CodePoint.ofNat? |>.map fun c => (c, s.drop width)

/-- What a backslash escapes. -/
def readEscape : Scanner CodePoint
  | [] => none
  | c :: rest =>
    if c = '\\' ∨ c = '\'' ∨ c = '"' then some (c, rest)
    else if c = 't' then some ('\t', rest)
    else if c = 'n' then some ('\n', rest)
    else if c = 'r' then some ('\r', rest)
    else if c = 'x' then readHex 2 rest
    else if c = 'u' then readHex 4 rest
    else if c = 'U' then readHex 8 rest
    else none

theorem length_le_of_readHex {width : Nat} {s rest : Text} {c : CodePoint}
    (h : readHex width s = some (c, rest)) : rest.length ≤ s.length := by
  unfold readHex at h
  split at h
  · simp at h
  · obtain ⟨_, _, h⟩ := Option.map_eq_some_iff.1 h
    rw [← (Prod.mk.inj h).2, List.length_drop]
    omega

theorem length_lt_of_readEscape {s rest : Text} {c : CodePoint}
    (h : readEscape s = some (c, rest)) :
    rest.length < s.length := by
  cases s with
  | nil => simp [readEscape] at h
  | cons d s =>
    have hchar : ∀ {e : CodePoint}, some (e, s) = some (c, rest) → rest.length ≤ s.length := by
      rintro _ ⟨⟩
      exact Nat.le_refl _
    rw [List.length_cons, Nat.lt_succ_iff]
    rw [readEscape] at h
    split_ifs at h
    · exact hchar h
    · exact hchar h
    · exact hchar h
    · exact hchar h
    · exact length_le_of_readHex h
    · exact length_le_of_readHex h
    · exact length_le_of_readHex h

/-- The characters up to a closing `quote` on the same line. -/
def readBody (quote : CodePoint) (s : Text) : Option (Text × Text) :=
  match s with
  | [] => none
  | c :: rest =>
    if c = quote then some ([], rest)
    else if c = '\n' ∨ c = '\r' then none
    else if c = '\\' then
      match _h : readEscape rest with
      | some (d, after) => (readBody quote after).map fun (t, rest) => (d :: t, rest)
      | none => none
    else (readBody quote rest).map fun (t, rest) => (c :: t, rest)
termination_by s.length
decreasing_by
  · have := length_lt_of_readEscape _h
    simp
    omega
  · simp

/-- A text in single or double quotes; three quotes do not begin one. -/
def readText : Scanner Text
  | [] => none
  | quote :: rest =>
    if ([quote, quote] : Text) <+: rest then none
    else if quote = '"' ∨ quote = '\'' then readBody quote rest
    else none

/-! ### Brackets -/

/-- What may stand between the items inside brackets. -/
def isBlank (c : CodePoint) : Bool := c = ' ' || c = '\n'

/-- The text from the first character on that is not blank. -/
def skip (s : Text) : Text := s.dropWhile isBlank

/-- The items up to a closing bracket, with a comma after each but the last, which may have one. -/
def sequence {α : Type} (item : Scanner α) (stop : CodePoint) (s : Text) :
    Option (List α × Text) :=
  match skip s with
  | [] => none
  | c :: rest =>
    if c = stop then some ([], rest)
    else
      match item (c :: rest) with
      | none => none
      | some (x, after) =>
        match skip after with
        | [] => none
        | d :: more =>
          if d = stop then some ([x], more)
          else if d = ',' ∧ more.length < s.length then
            (sequence item stop more).map fun (xs, rest) => (x :: xs, rest)
          else none
termination_by s.length

/-- A keyword and the `=` after it. -/
def keyword? (s : Text) : Option (Text × Text) := do
  let (key, after) ← readName s
  let rest ← Text.dropStart? "=" after
  if key.isReserved then none else some (key, rest)

/-- An argument of a call. -/
def readArgument (term : Scanner Term) : Scanner (Option Text × Term) := fun s =>
  match keyword? s with
  | some (key, value) => (term value).map fun (t, rest) => ((some key, t), rest)
  | none => (term s).map fun (t, rest) => ((none, t), rest)

/-! ### Terms -/

/-- The term that a reserved word stands for. -/
def constant? (name : Text) : Option Term :=
  if name = "True" then some (.bool true)
  else if name = "False" then some (.bool false)
  else if name = "None" then some .none
  else none

/-- A name or a call, after the name; `inner` reads the terms inside the brackets if any may be
opened. -/
def readNamed (inner : Option (Scanner Term)) (name after : Text) : Option (Term × Text) :=
  match constant? name with
  | some t => some (t, after)
  | none =>
    if name.isReserved then none
    else
      match Text.dropStart? "(" after with
      | none => some (.name name, after)
      | some inside =>
        inner.bind fun term =>
          (sequence (readArgument term) ')' inside).map fun (arguments, rest) =>
            (.call name arguments, rest)

/-- A term; `inner` reads the terms inside its brackets if any may be opened. -/
def readTermWith (inner : Option (Scanner Term)) : Scanner Term
  | [] => none
  | c :: rest =>
    if c = '"' ∨ c = '\'' then (readText (c :: rest)).map fun (t, rest) => (.text t, rest)
    else if c = '-' ∨ c.isDigit then (readInt (c :: rest)).map fun (n, rest) => (.int n, rest)
    else if c = '[' then
      inner.bind fun term =>
        (sequence term ']' rest).map fun (items, rest) => (.list items, rest)
    else (readName (c :: rest)).bind fun (name, after) => readNamed inner name after

/-- A term that opens at most so many brackets at once. -/
def readTerm : (brackets : Nat) → Scanner Term
  | 0 => readTermWith none
  | brackets + 1 => readTermWith (some (readTerm brackets))

/-! ### Modules -/

/-- The text up to three double quotes, without a backslash. -/
def readTitle : Scanner Text
  | [] => none
  | c :: rest =>
    match Text.dropStart? "\"\"\"" (c :: rest) with
    | some after => some ([], after)
    | none =>
      if c = '\\' then none else (readTitle rest).map fun (t, after) => (c :: t, after)

/-- An assignment on a line of its own. -/
def readAssignment : Scanner (Text × Term) := fun s => do
  let (name, after) ← readName s
  if name.isReserved then none
  let value ← Text.dropStart? " = " after
  let (term, after) ← readTerm maxBrackets value
  let rest ← Text.dropStart? "\n" after
  return ((name, term), rest)

/-- Assignments up to the end of the text, with empty lines between them. -/
def readAssignments (s : Text) : Option (List (Text × Term)) :=
  match s with
  | [] => some []
  | c :: rest =>
    if c = '\n' then readAssignments rest
    else
      match readAssignment (c :: rest) with
      | none => none
      | some (assignment, after) =>
        if after.length < (c :: rest).length then (readAssignments after).map (assignment :: ·)
        else none
termination_by s.length
decreasing_by
  · simp
  · assumption

end Script

/-- A module: its title, the classes that it imports, and its assignments in order. -/
structure Script where
  title : Text
  imports : List Text
  assignments : List (Text × Script.Term)

namespace Script

/-- Read a module; it imports at least one class. -/
def read (s : Text) : Option Script := do
  let s ← Text.dropStart? "\"\"\"" s
  let (title, s) ← readTitle s
  let s ← Text.dropStart? "\n\nfrom idlforge.core.ir import (" s
  let (imports, s) ← sequence readName ')' s
  let s ← Text.dropStart? "\n" s
  let assignments ← readAssignments s
  if imports = [] then none else some ⟨title, imports, assignments⟩

/-- The names that a module assigns to, in order. -/
def targets (m : Script) : List Text := m.assignments.map Prod.fst

/-- Whether a name may be assigned to. -/
def isAssignable (t : Text) : Bool := t.isIdentifier && !t.isReserved && t ≠ "__debug__"

/-! ### What Python refuses in a module that can be read -/

/-- How many digits an integer may have. -/
def maxDigits : Nat := 4300

/-- Whether an integer has no more digits than it may. -/
def isShort (n : Int) : Bool := (Text.ofNat n.natAbs).length ≤ maxDigits

mutual

/-- Whether the integers of a term are short and no call has a keyword twice. -/
def Term.compiles : Term → Bool
  | .int n => isShort n
  | .list items => itemsCompile items
  | .call _ arguments =>
    decide (arguments.filterMap Prod.fst).Nodup && argumentsCompile arguments
  | _ => true

/-- Whether all items compile. -/
def itemsCompile : List Term → Bool
  | [] => true
  | t :: rest => t.compiles && itemsCompile rest

/-- Whether all arguments compile. -/
def argumentsCompile : List (Option Text × Term) → Bool
  | [] => true
  | (_, t) :: rest => t.compiles && argumentsCompile rest

end

/-- Whether Python compiles a module: its targets may be assigned to, and its terms compile. -/
def compiles (m : Script) : Bool :=
  m.assignments.all fun assignment => isAssignable assignment.1 && assignment.2.compiles

end Script
end AnchorIdl
