/-
# Quoted text

A quoted text stands between two equal quotes, single or double.  Inside, a
backslash, the quote in use and every character that is not printable are
written as escapes:

| character | escape |
| --- | --- |
| backslash, the quote in use | a backslash before it |
| tab, line feed, carriage return | `\t`, `\n`, `\r` |
| other, below `0x100` | `\x` and two hexadecimal digits |
| other, below `0x10000` | `\u` and four |
| other | `\U` and eight |

`single` prefers the single quote and takes the double one when that saves
escapes, which is how messages show a text.  `literal` prefers the double quote
and takes the single one when the text holds a double quote, which is how the
generated bindings write a text.

Source: `idlforge.codegen.python` (`_quote`), and the quoted values in the
messages of `idlforge.core.loader` and `idlforge.core.config`.
-/

import AnchorIdl.Text.Printable

namespace AnchorIdl
namespace Quoted

/-- The character of a single quote. -/
def singleQuote : CodePoint := '\''

/-- The character of a double quote. -/
def doubleQuote : CodePoint := '"'

/-- A character as it stands between two `quote`s. -/
def escape (quote c : CodePoint) : Text :=
  if c = quote ∨ c = '\\' then ['\\', c]
  else if c = '\t' then "\\t"
  else if c = '\n' then "\\n"
  else if c = '\r' then "\\r"
  else if c.isPrintable then [c]
  else if c.val < 0x100 then "\\x" ++ Text.hex 2 c.val
  else if c.val < 0x10000 then "\\u" ++ Text.hex 4 c.val
  else "\\U" ++ Text.hex 8 c.val

/-- A text between two `quote`s. -/
def within (quote : CodePoint) (t : Text) : Text :=
  quote :: t.flatMap (escape quote) ++ [quote]

/-- A text in single quotes, or in double ones if it holds a single quote and no double one. -/
def single (t : Text) : Text :=
  within (if t.contains singleQuote && !t.contains doubleQuote then doubleQuote
    else singleQuote) t

/-- A text in double quotes, or in single ones if it holds a double quote. -/
def literal (t : Text) : Text :=
  within (if t.contains doubleQuote then singleQuote else doubleQuote) t

/-- The items in brackets, separated by commas. -/
def bracketed (items : List Text) : Text := "[" ++ Text.join ", " items ++ "]"

end Quoted
end AnchorIdl
