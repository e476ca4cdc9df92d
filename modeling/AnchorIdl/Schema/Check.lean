/-
# Checking plain forms

The plain form of a schema's part can be read back, with defaults for the
fields it lacks.  The reading reports all that is wrong, not only the first
thing: each issue has a type and a location, and the issues come in the order
of the fields.  The tag of a type expression is a step of the location, as in
`vec.element.primitive.name`.

A plain form written by hand may say a boolean, an integer or bytes in another
way, as long as nothing is lost:

| field | also written as |
| --- | --- |
| boolean | `0` or `1`; a word such as `yes`, `off`, `t`, in any case |
| integer | a boolean; a number without a fraction; a numeral in a text |
| bytes | a text, for its UTF-8 form |

A seed without the payload of its kind is an issue of the seed itself, looked
for only if its fields are sound.

Source: the checks of the classes in `idlforge.core.ir`.
-/

import AnchorIdl.Json.Place
import AnchorIdl.Schema.Basic
import AnchorIdl.Json.Basic
import AnchorIdl.Text.Numeral

namespace AnchorIdl

/-- What can be wrong with a plain form. -/
inductive IssueType
  | missing
  | unknownMember
  | noPayload
  | negative
  | noItems
  | bytesTooShort
  | bytesTooLong
  | notText
  | loneSurrogate
  | notInteger
  | fraction
  | notFinite
  | noNumeral
  | longNumeral
  | notBoolean
  | noTruthWord
  | notBytes
  | notList
  | notModel
  | notVariant
  | wrongTag
  | unknownTag
  | noTag
  deriving DecidableEq, Repr

/-- The name of a type of issue. -/
def IssueType.name : IssueType → Text
  | missing => "missing"
  | unknownMember => "enum"
  | noPayload => "value_error"
  | negative => "greater_than_equal"
  | noItems => "too_short"
  | bytesTooShort => "bytes_too_short"
  | bytesTooLong => "bytes_too_long"
  | notText => "string_type"
  | loneSurrogate => "string_unicode"
  | notInteger => "int_type"
  | fraction => "int_from_float"
  | notFinite => "finite_number"
  | noNumeral => "int_parsing"
  | longNumeral => "int_parsing_size"
  | notBoolean => "bool_type"
  | noTruthWord => "bool_parsing"
  | notBytes => "bytes_type"
  | notList => "list_type"
  | notModel => "model_type"
  | notVariant => "model_attributes_type"
  | wrongTag => "literal_error"
  | unknownTag => "union_tag_invalid"
  | noTag => "union_tag_not_found"

/-- Something wrong at a location. -/
structure Issue where
  location : Place
  type : IssueType
  deriving DecidableEq, Repr

/-- A value that was checked, or all that is wrong with its plain form. -/
inductive Checked (α : Type)
  | sound (value : α)
  | faulty (issues : List Issue)

namespace Checked

variable {α β : Type}

/-- One issue. -/
def issue (location : Place) (type : IssueType) : Checked α := .faulty [⟨location, type⟩]

/-- Combine two checks and keep the issues of both. -/
def seq (f : Checked (α → β)) (x : Checked α) : Checked β :=
  match f, x with
  | .sound f, .sound a => .sound (f a)
  | .sound _, .faulty issues => .faulty issues
  | .faulty issues, .sound _ => .faulty issues
  | .faulty issues, .faulty more => .faulty (issues ++ more)

instance : Applicative Checked where
  pure := .sound
  seq f x := seq f (x ())

/-- A further check of a sound value. -/
def guarded (x : Checked α) (test : α → Bool) (location : Place) (type : IssueType) : Checked α :=
  match x with
  | .sound a => if test a then .sound a else issue location type
  | .faulty issues => .faulty issues

/-- Check the items of a list from index `i` on. -/
def eachFrom (check : Nat → α → Checked β) : (i : Nat) → List α → Checked (List β)
  | _, [] => .sound []
  | i, x :: rest => List.cons <$> check i x <*> eachFrom check (i + 1) rest

end Checked

namespace Plain

/-- A check of the value at a location. -/
abbrev Check (α : Type) := Place → Json → Checked α

/-- A text. -/
def text : Check Text
  | _, .str t => .sound t
  | here, _ => .issue here .notText

/-- Whether an integer fits into 64 bits with a sign; the least one does not count. -/
def isWord64 (n : Int) : Bool :=
  -(Int.ofNat (Binary64.twoPow 63)) < n && n < Int.ofNat (Binary64.twoPow 63)

/-- The integer that a number stands for. -/
def wholeNumber (x : Binary64) : Except IssueType Int :=
  match x, x.integer? with
  | .infinite _, _ | .nan, _ => .error .notFinite
  | .finite .., none => .error .fraction
  | .finite .., some n => if isWord64 n then .ok n else .error .noNumeral

/-- The words for true and false, in small letters. -/
def truthWords : List (Text × Bool) :=
  [("true", true), ("t", true), ("yes", true), ("y", true), ("on", true), ("1", true),
    ("false", false), ("f", false), ("no", false), ("n", false), ("off", false), ("0", false)]

/-- The truth value that a word spells, in small or capital letters. -/
def truthValue? (t : Text) : Option Bool :=
  (truthWords.find? fun word => word.1.map CodePoint.toUpper = t.map CodePoint.toUpper).map
    Prod.snd

/-- The truth value that an integer stands for. -/
def bit (n : Int) : Except IssueType Bool :=
  if n = 0 then .ok false
  else if n = 1 then .ok true
  else if isWord64 n then .error .noTruthWord
  else .error .notBoolean

/-- The issue that replaces a value, or the value. -/
def settled {α : Type} (here : Place) : Except IssueType α → Checked α
  | .ok a => .sound a
  | .error type => .issue here type

/-- A boolean. -/
def bool : Check Bool
  | _, .bool b => .sound b
  | here, .int n => settled here (bit n)
  | here, .float x =>
    match wholeNumber x with
    | .ok n => settled here (bit n)
    | .error _ => .issue here .notBoolean
  | here, .str t =>
    if !Utf8.encodable t then .issue here .loneSurrogate
    else settled here ((truthValue? t).elim (.error .noTruthWord) .ok)
  | here, _ => .issue here .notBoolean

/-- The integer that a text spells. -/
def numeral (t : Text) : Except IssueType Int :=
  if !Utf8.encodable t then .error .loneSurrogate
  else
    (Numeral.read t).mapError fun
      | .malformed => .noNumeral
      | .long => .longNumeral

/-- An integer. -/
def int : Check Int
  | _, .int n => .sound n
  | _, .bool b => .sound (if b then 1 else 0)
  | here, .float x => settled here (wholeNumber x)
  | here, .str t => settled here (numeral t)
  | here, _ => .issue here .notInteger

/-- An integer that is not negative. -/
def nat : Check Nat := fun here raw =>
  Int.toNat <$> (int here raw).guarded (fun n => 0 ≤ n) here .negative

/-- A number below 256. -/
def octet? : Json → Option UInt8
  | .int (.ofNat n) => if n < 256 then some (UInt8.ofNat n) else none
  | .bool b => some (if b then 1 else 0)
  | _ => none

/-- A list of numbers below 256. -/
def bytes : Check Bytes
  | here, .arr items =>
    match items.mapM octet? with
    | some bytes => .sound bytes
    | none => .issue here .notBytes
  | here, .str t => settled here ((Utf8.encode t).mapError fun _ => .loneSurrogate)
  | here, _ => .issue here .notBytes

/-- Eight bytes. -/
def discriminator : Check Bytes := fun here raw =>
  ((bytes here raw).guarded (fun b => discriminatorSize ≤ b.length) here .bytesTooShort).guarded
    (fun b => b.length ≤ discriminatorSize) here .bytesTooLong

/-- A value that may be null. -/
def nullable {α : Type} (check : Check α) : Check (Option α)
  | _, .null => .sound none
  | here, raw => some <$> check here raw

/-- A list of values. -/
def list {α : Type} (check : Check α) : Check (List α)
  | here, .arr items => Checked.eachFrom (fun i x => check (here.index i) x) 0 items
  | here, _ => .issue here .notList

/-- The members of an object. -/
def object {α : Type} (check : Place → Members → Checked α) : Check α
  | here, .obj members => check here members
  | here, _ => .issue here .notModel

/-- A field that must be there. -/
def required {α : Type} (check : Check α) (here : Place) (members : Members) (key : Text) :
    Checked α :=
  match members.get? key with
  | some raw => check (here.member key) raw
  | none => .issue (here.member key) .missing

/-- A field that has a default. -/
def defaulted {α : Type} (default : α) (check : Check α) (here : Place) (members : Members)
    (key : Text) : Checked α :=
  match members.get? key with
  | some raw => check (here.member key) raw
  | none => .sound default

/-- A list of a field, its items with the proof that they are smaller than the object. -/
def sizedList {α : Type} (here : Place) (members : Members) (key : Text)
    (check : Place → { x : Json // sizeOf x < sizeOf members } → Checked α) : Checked (List α) :=
  match members.find key with
  | none => .sound []
  | some ⟨.arr items, h⟩ =>
    let items : List { x : Json // sizeOf x < sizeOf members } :=
      items.attach.map fun ⟨x, hx⟩ => ⟨x, Members.sizeOf_item_lt h hx⟩
    Checked.eachFrom (fun i x => check ((here.member key).index i) x) 0 items
  | some _ => .issue (here.member key) .notList

/-- A field that must be there, with the proof that it is smaller than the object. -/
def sizedRequired {α : Type} (here : Place) (members : Members) (key : Text)
    (check : Place → { x : Json // sizeOf x < sizeOf members } → Checked α) : Checked α :=
  match members.find key with
  | some x => check (here.member key) x
  | none => .issue (here.member key) .missing

/-- The name of a primitive type. -/
def primitive : Check Primitive
  | here, raw =>
    match raw with
    | .str t =>
      match Primitive.ofName? t with
      | some p => .sound p
      | none => .issue here .unknownMember
    | _ => .issue here .unknownMember

/-- The tags of type expressions. -/
inductive Tag
  | primitive
  | array
  | container (shape : Container)
  | defined
  | struct
  | enum
  deriving DecidableEq, Repr

namespace Tag

/-- All tags. -/
def all : List Tag :=
  [primitive, array, container .vec, container .option, container .coption, defined, struct, enum]

/-- The name of a tag. -/
def name : Tag → Text
  | primitive => "primitive"
  | array => "array"
  | container shape => shape.tag
  | defined => "defined"
  | struct => "struct"
  | enum => "enum"

/-- The name of the class of type expressions with a tag. -/
def className : Tag → Text
  | primitive => "PrimitiveType"
  | array => "ArrayType"
  | container shape => shape.title ++ "Type"
  | defined => "DefinedType"
  | struct => "StructType"
  | enum => "EnumType"

end Tag

/-- The documentation of a part. -/
def docs (here : Place) (members : Members) : Checked (List Text) :=
  defaulted [] (list text) here members "docs"

mutual

/-- A type expression, told by its tag. -/
def typeExpr (here : Place) (raw : Json) : Checked TypeExpr :=
  match raw with
  | .obj members =>
    match Ordered.get? members "kind" with
    | none => .issue here .noTag
    | some kind =>
      match Tag.all.find? fun tag => Json.str tag.name = kind with
      | none => .issue here .unknownTag
      | some tag => tagged tag (here.member tag.name) members
  | _ => .issue here .notVariant
termination_by sizeOf raw
decreasing_by simp

/-- The fields of a type expression with a given tag. -/
def tagged (tag : Tag) (here : Place) (members : Members) : Checked TypeExpr :=
  match tag with
  | .primitive => .primitive <$> required primitive here members "name"
  | .array =>
    .array <$> sizedRequired here members "element" (fun here ⟨raw, _⟩ => typeExpr here raw) <*>
      required nat here members "length"
  | .container shape =>
    .container shape <$> sizedRequired here members "element" fun here ⟨raw, _⟩ => typeExpr here raw
  | .defined =>
    .defined <$> required text here members "name" <*>
      sizedList here members "generics" fun here ⟨raw, _⟩ => typeExpr here raw
  | .struct => .struct <$> sizedList here members "fields" fun here ⟨raw, _⟩ => field here raw
  | .enum => .enum <$> sizedList here members "variants" fun here ⟨raw, _⟩ => variant here raw
termination_by sizeOf members

/-- A field of a struct or of a variant. -/
def field (here : Place) (raw : Json) : Checked Field :=
  match raw with
  | .obj members =>
    Field.mk <$> required text here members "name" <*>
      sizedRequired here members "type" (fun here ⟨raw, _⟩ => typeExpr here raw) <*>
      docs here members
  | _ => .issue here .notModel
termination_by sizeOf raw
decreasing_by simp; omega

/-- A variant of an enum. -/
def variant (here : Place) (raw : Json) : Checked Variant :=
  match raw with
  | .obj members =>
    Variant.mk <$> required text here members "name" <*>
      sizedList here members "fields" (fun here ⟨raw, _⟩ => field here raw) <*>
      sizedList here members "items" fun here ⟨raw, _⟩ => typeExpr here raw
  | _ => .issue here .notModel
termination_by sizeOf raw
decreasing_by all_goals simp; omega

end

/-- The fields of a type expression whose tag need not be given. -/
def typeOfTag (tag : Tag) (here : Place) (members : Members) : Checked TypeExpr :=
  match members.get? "kind" with
  | none => tagged tag here members
  | some kind =>
    if kind = .str tag.name then tagged tag here members
    else
      match tagged tag here members with
      | .sound _ => .issue (here.member "kind") .wrongTag
      | .faulty issues => .faulty (⟨here.member "kind", .wrongTag⟩ :: issues)

/-- The kind of a seed. -/
def seedKind : Check SeedKind
  | here, raw =>
    match raw with
    | .str t =>
      match SeedKind.ofName? t with
      | some kind => .sound kind
      | none => .issue here .unknownMember
    | _ => .issue here .unknownMember

/-- The fields of a seed. -/
def seed (here : Place) (members : Members) : Checked Seed :=
  (Seed.mk <$> required seedKind here members "kind" <*>
    defaulted none (nullable bytes) here members "value" <*>
    defaulted none (nullable text) here members "path" <*>
    defaulted none (nullable text) here members "account" <*>
    defaulted none (nullable text) here members "text").guarded Seed.hasPayload here .noPayload

/-- The fields of the rule for an address. -/
def pda (here : Place) (members : Members) : Checked Pda :=
  Pda.mk <$>
    ((required (list (object seed)) here members "seeds").guarded (fun seeds => !seeds.isEmpty)
      (here.member "seeds") .noItems) <*>
    defaulted none (nullable (object seed)) here members "program"

/-- The fields of an account slot. -/
def accountRef (here : Place) (members : Members) : Checked AccountRef :=
  AccountRef.mk <$> required text here members "name" <*>
    defaulted false bool here members "writable" <*>
    defaulted false bool here members "signer" <*>
    defaulted false bool here members "optional" <*>
    defaulted none (nullable text) here members "address" <*>
    defaulted none (nullable (object pda)) here members "pda" <*> docs here members

/-- The fields of an account layout. -/
def accountDefinition (here : Place) (members : Members) : Checked AccountDefinition :=
  AccountDefinition.mk <$> accountRef here members <*>
    defaulted none (nullable discriminator) here members "discriminator"

/-- The fields of a program's metadata. -/
def metadata (here : Place) (members : Members) : Checked Metadata :=
  Metadata.mk <$> defaulted [] text here members "name" <*>
    defaulted [] text here members "version" <*> defaulted [] text here members "spec" <*>
    defaulted [] text here members "description"

/-- The fields of an argument. -/
def arg (here : Place) (members : Members) : Checked Arg :=
  Arg.mk <$> required text here members "name" <*> required typeExpr here members "type"

/-- The fields of an instruction. -/
def instruction (here : Place) (members : Members) : Checked Instruction :=
  Instruction.mk <$> required text here members "name" <*>
    required discriminator here members "discriminator" <*>
    defaulted [] (list (object accountRef)) here members "accounts" <*>
    defaulted [] (list (object arg)) here members "args" <*> docs here members

/-- The fields of an error. -/
def errorDefinition (here : Place) (members : Members) : Checked ErrorDefinition :=
  ErrorDefinition.mk <$> required int here members "code" <*> required text here members "name" <*>
    defaulted [] text here members "msg"

/-- The fields of a custom type. -/
def typeDefinition (here : Place) (members : Members) : Checked TypeDefinition :=
  TypeDefinition.mk <$> required text here members "name" <*>
    required typeExpr here members "type" <*> docs here members

/-- The fields of a schema. -/
def schema (here : Place) (members : Members) : Checked Schema :=
  Schema.mk <$> defaulted [] text here members "address" <*>
    defaulted {} (object metadata) here members "metadata" <*>
    defaulted [] (list (object instruction)) here members "instructions" <*>
    defaulted [] (list (object accountDefinition)) here members "accounts" <*>
    defaulted [] (list (object errorDefinition)) here members "errors" <*>
    defaulted [] (list (object typeDefinition)) here members "types"

end Plain

/-- The schema of a plain form. -/
def Schema.ofPlain (raw : Json) : Checked Schema := Plain.object Plain.schema [] raw

end AnchorIdl
