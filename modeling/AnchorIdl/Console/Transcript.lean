/-
# Transcripts

What a command shows is a list of events, in order: log lines, error lines,
lines of output, and what is laid out on the console, which is marked-up text
or a table.  Log lines and error lines are diagnostics: unless the command is
verbose, warnings are the only log lines that count, and their level and source
are left out.

Output and error lines are written without the sequences that style a terminal:
an escape character, an opening bracket, some digits, semicolons and question
marks, and a letter.  In diagnostics a lone surrogate is written as its escape,
and a reader of the whole takes a carriage return with a line feed for one line
end.

Source: `idlforge.cli.utils` (`configure_logging`, `fail`), and the lines that
`idlforge.cli` prints.
-/

import AnchorIdl.Console.Markup
import AnchorIdl.Log
import AnchorIdl.Text.Utf8

namespace AnchorIdl

/-- The sides to which the cells of a column are aligned. -/
inductive Align
  | left
  | right
  deriving DecidableEq, Repr

/-- A column of a table; `whole` if its cells are not broken into lines. -/
structure Column where
  header : Text
  align : Align := .left
  whole : Bool := false
  deriving DecidableEq, Repr

/-- A table. -/
structure ConsoleTable where
  title : Text
  columns : List Column
  rows : List (List Text)
  deriving DecidableEq, Repr

/-- What is laid out on the console. -/
inductive Printed
  | markup (text : Text)
  | table (table : ConsoleTable)
  deriving DecidableEq, Repr

/-- The text after the parameters and the letter of a style sequence. -/
def afterStyle? (s : Text) : Option Text :=
  match s.dropWhile fun c : CodePoint => c.isDigit || c = ';' || c = '?' with
  | c :: r => if c.isLetter then some r else none
  | [] => none

/-- A text without style sequences; `skip` characters of one are still to be dropped. -/
def dropStyles : (skip : Nat) → Text → Text
  | _, [] => []
  | skip + 1, _ :: r => dropStyles skip r
  | 0, c :: r =>
    match c.val == 0x1B, Text.dropStart? "[" r with
    | true, some q =>
      match afterStyle? q with
      | some rest => dropStyles (r.length - rest.length) r
      | none => c :: dropStyles 0 r
    | _, _ => c :: dropStyles 0 r

/-- What a command shows. -/
inductive Event
  | log (line : LogLine)
  | error (message : Text)
  | output (line : Text)
  | printed (item : Printed)
  deriving DecidableEq, Repr

namespace Event

/-- What is laid out on the console. -/
def printed? : Event → Option Printed
  | printed item => some item
  | _ => none

/-- A line of output. -/
def outputLine? : Event → Option Text
  | output line => some (dropStyles 0 line)
  | _ => none

/-- A log line as a diagnostic. -/
def logLine? (verbose : Bool) (l : LogLine) : Option Text :=
  if verbose then some l.display else if l.level = .warning then some l.message else none

/-- A line of diagnostics. -/
def diagnosticLine? (verbose : Bool) : Event → Option Text
  | log line => (logLine? verbose line).map Utf8.escapeSurrogates
  | error message => some (Utf8.escapeSurrogates ("Error: " ++ dropStyles 0 message))
  | _ => none

end Event

/-- Lines as they are written, each with its end. -/
def Text.ofLines (lines : List Text) : Text := lines.flatMap fun line => line ++ "\n"

/-- A text with a line feed for each pair of a carriage return and a line feed. -/
def Text.joinLineEnds : Text → Text
  | [] => []
  | [c] => [c]
  | c :: d :: r =>
    if c = '\r' ∧ d = '\n' then d :: joinLineEnds r else c :: joinLineEnds (d :: r)

/-- What a command has shown. -/
abbrev Transcript := List Event

namespace Transcript

/-- What is laid out on the console. -/
def printed (t : Transcript) : List Printed := t.filterMap Event.printed?

/-- The output. -/
def output (t : Transcript) : Text := Text.ofLines (t.filterMap Event.outputLine?)

/-- The diagnostics. -/
def diagnostics (verbose : Bool) (t : Transcript) : Text :=
  (Text.ofLines (t.filterMap (Event.diagnosticLine? verbose))).joinLineEnds

end Transcript
end AnchorIdl
