/-
# Positions in a document

What has to stand at a place of a document follows from what stands above it: the
items of `instructions` are instructions, the member `pda` of an account slot is a
rule, the member `value` of a seed is what the kind of the seed asks for.  A
`Role` is such a position, and `Stands` follows a place from one position to
another: each step goes to a part that the role has at that value (`Role.parts`,
`Role.item`).  The member of an optional part is a position only if it is given.

`Faulty` says for each kind of fault which values are faulty in that way at which
position.  It speaks of the value alone and not of how it is read:

| kind | position | faulty value |
| --- | --- | --- |
| malformed discriminator | discriminator | no list, or a list of bytes of the wrong length |
| | byte of one | no integer from 0 to 255 |
| empty seeds | seeds | absent, null or empty |
| unknown seed kind | kind of a seed | not the name of a kind |
| missing field | name | not a text, or empty |
| | type, target of an alias | absent |
| | code of an error | no integer |
| | path of a seed | absent, null or empty |
| | text of a seed | absent or null |
| invalid document | any with a sort of value | a value of another sort |
| | value of a constant, byte of one | no bytes |
| unknown type shape | in a type expression | not of the type language |
-/

import AnchorIdl.Document.Entry
import AnchorIdl.Proofs.Document.Reading
import AnchorIdl.Proofs.Json.Place
import AnchorIdl.Proofs.Text.Basic

namespace AnchorIdl
namespace Document

/-- The positions in a document. -/
inductive Role
  | document
  | metadata
  | instruction
  | slot
  | layout
  | pda
  | seed
  | arg
  | error
  | custom
  | type
  | array
  | reference
  | generic
  | field
  | variant
  | text
  | boolean
  | name
  | code
  | discriminator
  | constant
  | byte (list : ByteList)
  | seeds
  | seedKind
  | seedText
  | seedPath
  | typeKind
  | arrayLength
  | variantFields
  | list (item : Role)
  deriving DecidableEq

/-- Whether a member has to be there; an optional one may be absent or null. -/
inductive Need
  | required
  | optional
  deriving DecidableEq

/-- A member of an object and its position. -/
structure Part where
  key : Text
  role : Role
  need : Need
  deriving DecidableEq

/-- The parts of an account slot. -/
def slotParts : List Part :=
  [⟨"name", .name, .required⟩, ⟨"writable", .boolean, .optional⟩, ⟨"isMut", .boolean, .optional⟩,
    ⟨"signer", .boolean, .optional⟩, ⟨"isSigner", .boolean, .optional⟩,
    ⟨"optional", .boolean, .optional⟩, ⟨"isOptional", .boolean, .optional⟩,
    ⟨"address", .text, .optional⟩, ⟨"pda", .pda, .optional⟩, ⟨"docs", .list .text, .optional⟩]

/-- The parts of a seed beside its kind. -/
def seedParts : SeedKind → List Part
  | .const => [⟨"value", .constant, .required⟩]
  | .string => [⟨"value", .seedText, .required⟩]
  | .arg => [⟨"path", .seedPath, .required⟩]
  | .account => [⟨"path", .seedPath, .required⟩, ⟨"account", .text, .optional⟩]

/-- The parts of a type expression of some kind, beside the kind. -/
def shapeParts (kind : Json) : List Part :=
  if kind = .str "struct" then [⟨"fields", .list .field, .optional⟩]
  else if kind = .str "enum" then [⟨"variants", .list .variant, .optional⟩]
  else if kind = .str "type" then [⟨"alias", .type, .required⟩]
  else []

/-- The parts of a type expression without a kind: it has one of them and nothing else. -/
def wrapperParts : List Part :=
  [⟨"vec", .type, .required⟩, ⟨"option", .type, .required⟩, ⟨"coption", .type, .required⟩,
    ⟨"array", .array, .required⟩, ⟨"defined", .reference, .required⟩]

/-- The parts of an object at a position. -/
def Role.parts : Role → Members → List Part
  | .document, _ =>
    [⟨"metadata", .metadata, .optional⟩, ⟨"name", .text, .optional⟩, ⟨"version", .text, .optional⟩,
      ⟨"address", .text, .optional⟩, ⟨"instructions", .list .instruction, .optional⟩,
      ⟨"accounts", .list .layout, .optional⟩, ⟨"errors", .list .error, .optional⟩,
      ⟨"types", .list .custom, .optional⟩]
  | .metadata, _ =>
    [⟨"name", .text, .optional⟩, ⟨"version", .text, .optional⟩, ⟨"spec", .text, .optional⟩,
      ⟨"description", .text, .optional⟩, ⟨"address", .text, .optional⟩]
  | .instruction, _ =>
    [⟨"name", .name, .required⟩, ⟨"accounts", .list .slot, .optional⟩,
      ⟨"args", .list .arg, .optional⟩, ⟨"discriminator", .discriminator, .required⟩,
      ⟨"docs", .list .text, .optional⟩]
  | .slot, members =>
    if members.has "accounts" then
      [⟨"name", .name, .required⟩, ⟨"accounts", .list .slot, .optional⟩]
    else slotParts
  | .layout, _ => ⟨"discriminator", .discriminator, .optional⟩ :: slotParts
  | .pda, _ => [⟨"seeds", .seeds, .required⟩, ⟨"program", .seed, .optional⟩]
  | .seed, members =>
    ⟨"kind", .seedKind, .required⟩ ::
      (((members.get? "kind").bind seedKind?).map seedParts).getD []
  | .arg, _ => [⟨"name", .name, .required⟩, ⟨"type", .type, .required⟩]
  | .error, _ =>
    [⟨"code", .code, .required⟩, ⟨"name", .name, .required⟩, ⟨"msg", .text, .optional⟩]
  | .custom, _ | .field, _ =>
    [⟨"name", .name, .required⟩, ⟨"type", .type, .required⟩, ⟨"docs", .list .text, .optional⟩]
  | .type, members =>
    match members.get? "kind" with
    | some kind => ⟨"kind", .typeKind, .required⟩ :: shapeParts kind
    | none => wrapperParts.filter fun p => Ordered.keys members = [p.key]
  | .reference, _ => [⟨"name", .name, .required⟩, ⟨"generics", .list .generic, .optional⟩]
  | .generic, members =>
    if members.get? "kind" = some (.str "type") ∧ members.has "type" then
      [⟨"type", .type, .required⟩]
    else []
  | .variant, _ => [⟨"name", .name, .required⟩, ⟨"fields", .variantFields, .optional⟩]
  | _, _ => []

/-- The position of the item with some index in a list at a position. -/
def Role.item : Role → List Json → Nat → Option Role
  | .list item, _, _ => some item
  | .seeds, _, _ => some .seed
  | .discriminator, _, _ => some (.byte .discriminator)
  | .constant, _, _ => some (.byte .constant)
  | .array, [_, _], 0 => some .type
  | .array, [_, _], 1 => some .arrayLength
  | .variantFields, items, _ =>
    if items.all isNamed then some .field else if items.any isNamed then none else some .type
  | _, _, _ => none

/-- From a value at a position, a place leads to a value at a position; absent is `none`. -/
inductive Stands : Role → Option Json → Place → Role → Option Json → Prop
  | here {r : Role} {v : Option Json} : Stands r v [] r v
  | member {r r' : Role} {members : Members} {v : Option Json} {p : Part} {place : Place}
      (hp : p ∈ r.parts members) (given : p.need = .required ∨ (members.given? p.key).isSome)
      (rest : Stands p.role (members.get? p.key) place r' v) :
      Stands r (some (.obj members)) (.member p.key :: place) r' v
  | item {r r' : Role} {list : List Json} {i : Nat} {item : Role} {value : Json} {v : Option Json}
      {place : Place} (hr : r.item list i = some item) (hv : list[i]? = some value)
      (rest : Stands item (some value) place r' v) :
      Stands r (some (.arr list)) (.index i :: place) r' v

/-- The sorts of values that a position takes; where it is none, another rule decides. -/
def Role.sorts : Role → Option (List Json.Kind)
  | .document | .instruction | .slot | .layout | .pda | .seed | .arg | .error | .custom
  | .generic | .variant => some [.object]
  | .text => some [.string]
  | .boolean => some [.boolean]
  | .list _ | .variantFields => some [.list]
  | .seeds => some [.list, .null]
  | .seedText | .seedPath => some [.string, .null]
  | .constant => some [.list, .string]
  | _ => none

/-- The value at a position is faulty in the way that a kind of fault says. -/
inductive Faulty : FaultKind → Role → Option Json → Prop
  | noDiscriminator {v : Option Json} (h : ∀ list, v ≠ some (.arr list)) :
      Faulty .malformedDiscriminator .discriminator v
  | discriminatorLength {bytes : Bytes} (h : bytes.length ≠ discriminatorSize) :
      Faulty .malformedDiscriminator .discriminator (some (.ofBytes bytes))
  | discriminatorByte {v : Json} (h : ∀ b : UInt8, v ≠ .int b.toNat) :
      Faulty .malformedDiscriminator (.byte .discriminator) (some v)
  | noSeeds {v : Option Json} (h : v = none ∨ v = some .null ∨ v = some (.arr [])) :
      Faulty .emptySeeds .seeds v
  | seedKind {v : Option Json} (h : ∀ kind : SeedKind, v ≠ some (.str kind.name)) :
      Faulty .unknownSeedKind .seedKind v
  | noName {v : Option Json} (h : ∀ t ≠ [], v ≠ some (.str t)) : Faulty .missingField .name v
  | noType : Faulty .missingField .type none
  | noCode {v : Option Json} (h : ∀ n, v ≠ some (.int n)) : Faulty .missingField .code v
  | noSeedPath {v : Option Json} (h : v = none ∨ v = some .null ∨ v = some (.str [])) :
      Faulty .missingField .seedPath v
  | noSeedText {v : Option Json} (h : v = none ∨ v = some .null) :
      Faulty .missingField .seedText v
  | wrongSort {r : Role} {v : Json} {sorts : List Json.Kind} (hr : r.sorts = some sorts)
      (h : v.kind ∉ sorts) : Faulty .invalidDocument r (some v)
  | noConstant : Faulty .invalidDocument .constant none
  | constantByte {v : Json} (h : ∀ b : UInt8, v ≠ .int b.toNat) :
      Faulty .invalidDocument (.byte .constant) (some v)
  | metadata {v : Json} (hb : v.isBlank = false) (h : v.kind ≠ .object) :
      Faulty .invalidDocument .metadata (some v)
  | noTypeSort {v : Json} (ht : v.kind ≠ .string) (ho : v.kind ≠ .object) :
      Faulty .unknownTypeShape .type (some v)
  | primitive {t : Text} (h : ∀ p : Primitive, t ≠ p.name) (h' : t ≠ "publicKey") :
      Faulty .unknownTypeShape .type (some (.str t))
  | shape {members : Members} (hk : members.get? "kind" = none)
      (h : ∀ p ∈ wrapperParts, Ordered.keys members ≠ [p.key]) :
      Faulty .unknownTypeShape .type (some (.obj members))
  | typeKind {v : Json} (h : v ∉ [.str "struct", .str "enum", .str "type"]) :
      Faulty .unknownTypeShape .typeKind (some v)
  | array {v : Json} (h : ∀ element length, v ≠ .arr [element, length]) :
      Faulty .unknownTypeShape .array (some v)
  | arrayLength {v : Json} (h : ∀ n : Nat, v ≠ .int n) :
      Faulty .unknownTypeShape .arrayLength (some v)
  | reference {v : Json} (h : ∀ t ≠ [], v ≠ .str t) (ho : v.kind ≠ .object) :
      Faulty .unknownTypeShape .reference (some v)
  | generic {members : Members}
      (h : members.get? "kind" ≠ some (.str "type") ∨ members.get? "type" = none) :
      Faulty .unknownTypeShape .generic (some (.obj members))
  | field {v : Json} (h : v.kind ≠ .object) : Faulty .unknownTypeShape .field (some v)
  | mixedFields {list : List Json} (named : ∃ item ∈ list, isNamed item = true)
      (unnamed : ∃ item ∈ list, isNamed item = false) :
      Faulty .unknownTypeShape .variantFields (some (.arr list))

/-! ### Places of positions -/

/-- **A position is found by following its place.** -/
theorem Stands.at? {r r' : Role} {v v' : Option Json} {place : Place}
    (h : Stands r v place r' v') : ∀ value, v = some value → value.at? place = some v' := by
  induction h with
  | here =>
    rintro value rfl
    rw [Json.at?]
  | @member r r' members v p place hp given rest ih =>
    rintro value hvalue
    obtain rfl := Option.some.inj hvalue
    rw [Json.at?]
    cases hget : Ordered.get? members p.key with
    | some found => exact ih found hget
    | none =>
      -- nothing stands below an absent member
      rw [hget] at rest
      cases rest
      rfl
  | item hr hv rest ih =>
    rintro value hvalue
    obtain rfl := Option.some.inj hvalue
    rw [Json.at?, hv]
    exact ih _ rfl

/-- A name of a document's format: letters only. -/
def isKey (key : Text) : Bool := key ≠ [] && key.all CodePoint.isLetter

/-- The parts of a list have names of letters. -/
def AreKeys (parts : List Part) : Prop := ∀ p ∈ parts, isKey p.key = true

theorem areKeys_slotParts : AreKeys slotParts := List.all_eq_true.1 rfl

theorem areKeys_seedParts (kind : SeedKind) : AreKeys (seedParts kind) := by
  cases kind <;> exact List.all_eq_true.1 rfl

theorem areKeys_shapeParts (kind : Json) : AreKeys (shapeParts kind) := by
  unfold shapeParts
  split_ifs <;> exact List.all_eq_true.1 rfl

theorem areKeys_parts (r : Role) (members : Members) : AreKeys (r.parts members) := by
  cases r with
  | slot =>
    simp only [Role.parts]
    split_ifs
    · exact List.all_eq_true.1 rfl
    · exact areKeys_slotParts
  | layout => exact List.forall_mem_cons.2 ⟨rfl, areKeys_slotParts⟩
  | seed =>
    refine List.forall_mem_cons.2 ⟨rfl, ?_⟩
    cases (members.get? "kind").bind seedKind? with
    | none => exact List.all_eq_true.1 rfl
    | some kind => exact areKeys_seedParts kind
  | type =>
    simp only [Role.parts]
    split
    · exact List.forall_mem_cons.2 ⟨rfl, areKeys_shapeParts _⟩
    · have hwrapper : AreKeys wrapperParts := List.all_eq_true.1 rfl
      exact fun p hp => hwrapper p (List.mem_filter.1 hp).1
  | generic =>
    simp only [Role.parts]
    split_ifs <;> exact List.all_eq_true.1 rfl
  | _ => exact List.all_eq_true.1 rfl

theorem Stands.isPlain {r r' : Role} {v v' : Option Json} {place : Place}
    (h : Stands r v place r' v') : place.IsPlain := by
  induction h with
  | here => exact fun _ h => absurd h (List.not_mem_nil)
  | member hp given rest ih =>
    intro name hname
    rcases List.mem_cons.1 hname with heq | hrest
    · have hkey := areKeys_parts _ _ _ hp
      obtain rfl := Step.member.inj heq
      simpa [isKey] using hkey
    · exact ih name hrest
  | item hr hv rest ih =>
    intro name hname
    rcases List.mem_cons.1 hname with heq | hrest
    · cases heq
    · exact ih name hrest

end Document
end AnchorIdl
