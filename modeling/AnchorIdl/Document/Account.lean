/-
# Reading accounts and seeds

An account slot has a name, three flags, an address, a rule for its address,
and documentation.  The flags have two spellings, `writable`, `signer`,
`optional` and the older `isMut`, `isSigner`, `isOptional`; the first that is
given counts.  The items of an instruction's accounts may be *groups*, objects
with a member `accounts`: a group stands for its own items, in order, so what
is read is the list of slots from left to right at all depths.

A seed is read by its kind.  The value of a constant may be written as a text,
which stands for its UTF-8 bytes.

Source: `idlforge.core.loader` (`_collect_accounts`, `_account`, `_pda`,
`_seed`).
-/

import AnchorIdl.Document.Member

namespace AnchorIdl
namespace Document

/-- The kind of seed that a value names. -/
def seedKind? : Json → Option SeedKind
  | .str t => SeedKind.ofName? t
  | _ => none

/-- Read the seed at a place. -/
def readSeed (place : Place) (raw : Json) : Reading Seed := do
  let members ← object place raw
  let kind := members.get? "kind"
  match kind.bind seedKind? with
  | none => complain (place.member "kind") (.unknownSeedKind (kind.getD .null))
  | some .const =>
    match members.get? "value" with
    | some (.str t) =>
      match Utf8.encode t with
      | .ok value => return { kind := .const, value := some value }
      | .error fault => throw (.unencodable fault)
    | raw =>
      let value ← bytes (place.member "value") .constant (raw.getD .null)
      return { kind := .const, value := some value }
  | some .string =>
    match ← string? place members "value" with
    | none => complain (place.member "value") .noSeedText
    | some t => return { kind := .string, text := some t }
  | some .arg =>
    match ← string? place members "path" with
    | none | some [] => complain (place.member "path") (.noSeedPath .arg)
    | some path => return { kind := .arg, path := some path }
  | some .account =>
    match ← string? place members "path" with
    | none | some [] => complain (place.member "path") (.noSeedPath .account)
    | some path =>
      let account ← string? place members "account"
      return { kind := .account, path := some path, account }

/-- Read the rule for a program-derived address at a place. -/
def readPda (place : Place) (raw : Json) : Reading Pda := do
  let members ← object place raw
  let seeds ← items place members "seeds"
  if seeds = [] then complain (place.member "seeds") .noSeeds
  else
    let seeds ← each seeds fun i seed => readSeed ((place.member "seeds").index i) seed
    let program ← (members.given? "program").mapM (readSeed (place.member "program"))
    return ⟨seeds, program⟩

/-- Read the account slot at a place. -/
def readAccount (place : Place) (members : Members) : Reading AccountRef := do
  let name ← name place members
  let writable ← flag place members ["writable", "isMut"]
  let signer ← flag place members ["signer", "isSigner"]
  let optional ← flag place members ["optional", "isOptional"]
  let address ← string? place members "address"
  let pda ← (members.given? "pda").mapM (readPda (place.member "pda"))
  let docs ← docs place members
  return { name, writable, signer, optional, address, pda, docs }

/-- Read the account layout at a place. -/
def readAccountDefinition (place : Place) (raw : Json) : Reading AccountDefinition := do
  let members ← object place raw
  let account ← readAccount place members
  let discriminator ← (members.given? "discriminator").mapM fun raw =>
    discriminator (place.member "discriminator") (some raw)
  return { account with discriminator }

/-- Read the account slots that the item at a place stands for. -/
def readSlots (place : Place) (raw : Json) : Reading (List AccountRef) :=
  match raw with
  | .obj members =>
    if Members.has members "accounts" then do
      let _ ← name place members
      let group ← sizedItems place members "accounts"
      let slots ← each group fun i ⟨raw, _⟩ => readSlots ((place.member "accounts").index i) raw
      return slots.flatten
    else (readAccount place members).map fun slot => [slot]
  | raw => complain place (.notObject raw.kind)
termination_by sizeOf raw
decreasing_by simp; omega

end Document
end AnchorIdl
