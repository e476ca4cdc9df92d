/-
# Console markup

In a marked-up text a bracket that opens a tag, `[bold]` or `[/bold]`, is an
instruction and is not shown.  A tag is a bracket, a small letter or one of
`#/@`, and anything up to the next bracket, which must be a closing one.  After
an odd number of backslashes it is shown after all, with half of them.

`pieces` reads a marked-up text: the characters that it shows and its tags, in
order.

`escape` writes a text so that it is shown as it is: every bracket that would
open a tag gets a backslash, after the backslashes in front of it are doubled,
and a single backslash at the end is doubled too, for what may follow.

Source: the markup of the lines that `idlforge.cli.generate` and
`idlforge.cli.lookup` print.
-/

import AnchorIdl.Text.Basic

namespace AnchorIdl
namespace Markup

/-- A character that may stand first in a tag. -/
def isTagStart (c : CodePoint) : Bool := c.isLower || c = '#' || c = '/' || c = '@'

/-- A bracket. -/
def isBracket (c : CodePoint) : Bool := c = '[' || c = ']'

/-- Whether an opening bracket before `s` opens a tag. -/
def opensTag (s : Text) : Bool :=
  match s with
  | [] => false
  | c :: r =>
    isTagStart c && (r.dropWhile fun c => !isBracket c).head? = some (CodePoint.ofChar ']')

/-- A number of backslashes. -/
def backslashes (n : Nat) : Text := List.replicate n (CodePoint.ofChar '\\')

/-- A part of a marked-up text. -/
inductive Piece
  | shown (c : CodePoint)
  | tag (name : Text)
  deriving DecidableEq, Repr

/-- The character that a piece shows, unless it is a tag. -/
def Piece.shown? : Piece → Option CodePoint
  | shown c => some c
  | tag _ => none

/-- The name of a piece that is a tag. -/
def Piece.tag? : Piece → Option Text
  | shown _ => none
  | tag name => some name

/-- The pieces of a text in front of which `pending` backslashes stand, inside the tag whose name so
far is `within`, last character first. -/
def piecesFrom : (pending : Nat) → (within : Option Text) → Text → List Piece
  | pending, _, [] => (backslashes pending).map .shown
  | _, some name, c :: r =>
    if c = ']' then .tag name.reverse :: piecesFrom 0 none r
    else piecesFrom 0 (some (c :: name)) r
  | pending, none, c :: r =>
    if c = '\\' then piecesFrom (pending + 1) none r
    else if c = '[' && opensTag r then
      let halved := (backslashes (pending / 2)).map .shown
      if pending % 2 = 0 then halved ++ piecesFrom 0 (some []) r
      else halved ++ .shown c :: piecesFrom 0 none r
    else (backslashes pending).map .shown ++ .shown c :: piecesFrom 0 none r

/-- The pieces of a marked-up text. -/
def pieces (s : Text) : List Piece := piecesFrom 0 none s

/-- What a marked-up text shows. -/
def shown (s : Text) : Text := (pieces s).filterMap Piece.shown?

/-- The tags of a marked-up text. -/
def tags (s : Text) : List Text := (pieces s).filterMap Piece.tag?

/-- Escape the tags of a text in front of which `pending` backslashes stand. -/
def escapeTags : (pending : Nat) → Text → Text
  | pending, [] => backslashes pending
  | pending, c :: r =>
    if c = '\\' then escapeTags (pending + 1) r
    else if c = '[' && opensTag r then backslashes (2 * pending + 1) ++ c :: escapeTags 0 r
    else backslashes pending ++ c :: escapeTags 0 r

/-- Whether a single backslash ends a text. -/
def endsInBackslash (s : Text) : Bool :=
  match s.reverse with
  | [] => false
  | [c] => c = '\\'
  | c :: d :: _ => c = '\\' && d ≠ '\\'

/-- The markup that shows a text. -/
def escape (s : Text) : Text :=
  let t := escapeTags 0 s
  if endsInBackslash t then t ++ "\\" else t

end Markup
end AnchorIdl
