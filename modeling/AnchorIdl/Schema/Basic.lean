/-
# Schemas

The typed form of one IDL document: the address of a program, its metadata,
and its instructions, account layouts, errors and custom types, each in the
order of the document.

A look-up takes the first entry in that order.  The discriminator of an
instruction is the tag that begins its wire data; `discriminator` answers eight
zero bytes for a name that no instruction has, and `discriminator?` tells the
two cases apart.

Source: `idlforge.core.ir.schema` (`Schema` and its parts),
`idlforge.core.ir.accounts` (`AccountRef`, `AccountDefinition`),
`idlforge.core.lookup`.
-/

import AnchorIdl.Schema.Seed
import AnchorIdl.Schema.TypeExpr

namespace AnchorIdl

/-- The number of bytes in a discriminator. -/
def discriminatorSize : Nat := 8

/-- One account slot of an instruction. -/
structure AccountRef where
  name : Text
  writable : Bool := false
  signer : Bool := false
  optional : Bool := false
  address : Option Text := none
  pda : Option Pda := none
  docs : List Text := []
  deriving DecidableEq, Repr

/-- Whether the account is written and whether it signs, as two letters. -/
def AccountRef.flags (a : AccountRef) : Text :=
  [if a.writable then 'w' else '-', if a.signer then 's' else '-']

/-- A layout of accounts that the program stores, with the bytes that begin their data. -/
structure AccountDefinition extends AccountRef where
  discriminator : Option Bytes := none
  deriving DecidableEq, Repr

/-- What a document says about its program. -/
structure Metadata where
  name : Text := []
  version : Text := []
  spec : Text := []
  description : Text := []
  deriving DecidableEq, Repr

/-- An argument of an instruction. -/
structure Arg where
  name : Text
  type : TypeExpr
  deriving DecidableEq

/-- An instruction of the program. -/
structure Instruction where
  name : Text
  discriminator : Bytes
  accounts : List AccountRef := []
  args : List Arg := []
  docs : List Text := []
  deriving DecidableEq

/-- The account slot with a given name. -/
def Instruction.account? (i : Instruction) (name : Text) : Option AccountRef :=
  i.accounts.find? fun a => a.name = name

/-- An error code of the program. -/
structure ErrorDefinition where
  code : Int
  name : Text
  msg : Text := []
  deriving DecidableEq, Repr

/-- A custom type of the program. -/
structure TypeDefinition where
  name : Text
  type : TypeExpr
  docs : List Text := []
  deriving DecidableEq

/-- The typed form of an IDL document. -/
structure Schema where
  address : Text := []
  metadata : Metadata := {}
  instructions : List Instruction := []
  accounts : List AccountDefinition := []
  errors : List ErrorDefinition := []
  types : List TypeDefinition := []
  deriving DecidableEq

namespace Schema

/-- The name of the program. -/
def name (s : Schema) : Text := s.metadata.name

/-- The first instruction with a given name. -/
def instruction? (s : Schema) (name : Text) : Option Instruction :=
  s.instructions.find? fun i => i.name = name

/-- The first custom type with a given name. -/
def typeDefinition? (s : Schema) (name : Text) : Option TypeDefinition :=
  s.types.find? fun t => t.name = name

/-- The first error with a given code. -/
def errorByCode? (s : Schema) (code : Int) : Option ErrorDefinition :=
  s.errors.find? fun e => e.code = code

/-- The discriminator of the first instruction with a given name. -/
def discriminator? (s : Schema) (name : Text) : Option Bytes :=
  (s.instruction? name).map Instruction.discriminator

/-- The discriminator that stands for "no such instruction". -/
def zeroDiscriminator : Bytes := List.replicate discriminatorSize 0

/-- The discriminator of the first instruction with a given name, or zeros. -/
def discriminator (s : Schema) (name : Text) : Bytes :=
  (s.discriminator? name).getD zeroDiscriminator

end Schema
end AnchorIdl
