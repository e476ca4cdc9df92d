/-
# Seeds of program-derived addresses

A program-derived address is computed from the bytes of its seeds, in order.
A constant seed gives its bytes, a string seed the UTF-8 form of its text;
an account or argument seed is a reference whose bytes are known only when an
instruction is built.  `Pda.constantPrefix` is what is known beforehand: the
bytes of the seeds up to the first reference.

Source: `idlforge.core.ir.accounts` (`SeedKind`, `PdaSeed`, `PdaRule`).
-/

import AnchorIdl.Text.Quoted
import AnchorIdl.Text.Utf8

namespace AnchorIdl

/-- The kinds of seeds. -/
inductive SeedKind
  | const
  | account
  | arg
  | string
  deriving DecidableEq, Repr

namespace SeedKind

/-- The name of a kind of seed. -/
def name : SeedKind → Text
  | const => "const"
  | account => "account"
  | arg => "arg"
  | string => "string"

/-- All kinds of seeds. -/
def all : List SeedKind := [const, account, arg, string]

/-- The kind of seed with a given name. -/
def ofName? (t : Text) : Option SeedKind := all.find? fun k => k.name = t

/-- Whether the bytes of such a seed depend on accounts or arguments. -/
def isReference : SeedKind → Bool
  | account | arg => true
  | const | string => false

end SeedKind

/-- One seed: the bytes of a constant, the path of a reference with the type of the account that
owns it, or the text of a string. -/
structure Seed where
  kind : SeedKind
  value : Option Bytes := none
  path : Option Text := none
  account : Option Text := none
  text : Option Text := none
  deriving DecidableEq, Repr

namespace Seed

/-- Whether a seed carries what its kind requires. -/
def hasPayload (s : Seed) : Bool :=
  match s.kind with
  | .const => s.value.isSome
  | .account | .arg => s.path.any fun p => !p.isEmpty
  | .string => s.text.isSome

/-- Whether the bytes of the seed depend on accounts or arguments. -/
def isReference (s : Seed) : Bool := s.kind.isReference

/-- The bytes of the seed; a reference has none yet. -/
def encode (s : Seed) : Except Utf8.EncodeFault (Option Bytes) :=
  match s.kind with
  | .account | .arg => .ok none
  | .const => .ok s.value
  | .string =>
    match s.text with
    | none => .ok none
    | some t => (Utf8.encode t).map some

/-- Bytes as they are written, in brackets. -/
def displayBytes (bytes : Bytes) : Text :=
  Quoted.bracketed (bytes.map fun b => Text.ofNat b.toNat)

/-- A seed as it is written. -/
def display (s : Seed) : Text :=
  match s.kind with
  | .const => "const(" ++ displayBytes (s.value.getD []) ++ ")"
  | .string => "string(" ++ (s.text.map Quoted.single).getD "None" ++ ")"
  | .account | .arg => s.kind.name ++ "(" ++ s.path.getD "None" ++ ")"

end Seed

/-- The rule for a program-derived address: its seeds in order, and the seed that names the
deriving program if that is not the program of the document. -/
structure Pda where
  seeds : List Seed
  program : Option Seed := none
  deriving DecidableEq, Repr

namespace Pda

/-- The bytes of the seeds before the first reference. -/
def prefixBytes : List Seed → Except Utf8.EncodeFault Bytes
  | [] => .ok []
  | s :: rest =>
    if s.isReference then .ok []
    else do
      let head ← s.encode
      let tail ← prefixBytes rest
      return head.getD [] ++ tail

/-- The bytes that the address is derived from as far as they are known statically. -/
def constantPrefix (p : Pda) : Except Utf8.EncodeFault Bytes := prefixBytes p.seeds

/-- A rule as it is written. -/
def display (p : Pda) : Text := Quoted.bracketed (p.seeds.map Seed.display)

end Pda
end AnchorIdl
