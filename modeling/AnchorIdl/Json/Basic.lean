/-
# JSON values

A document is a JSON value.  Integers are unbounded and are told apart from
numbers with a fraction or an exponent.  An object is the list of its members
in the order of the document; a document that repeats a key gives the member
the position of its first occurrence and the value of its last
(`Ordered.ofPairs`), so the keys of a value that was read are distinct.

Most readers treat a member that is null like one that is absent, which is what
`Members.given?` does.

Source: the values that `idlforge.core.loader` (`load_schema`) is given.
-/

import AnchorIdl.Decimal.Binary64
import AnchorIdl.Ordered
import AnchorIdl.Text.Basic

namespace AnchorIdl

/-- A JSON value. -/
inductive Json
  | null
  | bool (value : Bool)
  | int (value : Int)
  | float (value : Binary64)
  | str (text : Text)
  | arr (items : List Json)
  | obj (members : List (Text × Json))

/-- The members of an object, in order. -/
abbrev Members := Ordered Text Json

namespace Json

instance : Inhabited Json := ⟨.null⟩

mutual

/-- Equality of JSON values can be decided. -/
def decideEq : (v w : Json) → Decidable (v = w)
  | .null, .null => isTrue rfl
  | .bool a, .bool b => if h : a = b then isTrue (h ▸ rfl) else isFalse (by simpa using h)
  | .int a, .int b => if h : a = b then isTrue (h ▸ rfl) else isFalse (by simpa using h)
  | .float a, .float b => if h : a = b then isTrue (h ▸ rfl) else isFalse (by simpa using h)
  | .str a, .str b => if h : a = b then isTrue (h ▸ rfl) else isFalse (by simpa using h)
  | .arr a, .arr b =>
    match decideEqItems a b with
    | isTrue h => isTrue (h ▸ rfl)
    | isFalse h => isFalse (by simpa using h)
  | .obj a, .obj b =>
    match decideEqMembers a b with
    | isTrue h => isTrue (h ▸ rfl)
    | isFalse h => isFalse (by simpa using h)
  | .null, .bool _ | .null, .int _ | .null, .float _ | .null, .str _ | .null, .arr _
  | .null, .obj _ | .bool _, .null | .bool _, .int _ | .bool _, .float _ | .bool _, .str _
  | .bool _, .arr _ | .bool _, .obj _ | .int _, .null | .int _, .bool _ | .int _, .float _
  | .int _, .str _ | .int _, .arr _ | .int _, .obj _ | .float _, .null | .float _, .bool _
  | .float _, .int _ | .float _, .str _ | .float _, .arr _ | .float _, .obj _ | .str _, .null
  | .str _, .bool _ | .str _, .int _ | .str _, .float _ | .str _, .arr _ | .str _, .obj _
  | .arr _, .null | .arr _, .bool _ | .arr _, .int _ | .arr _, .float _ | .arr _, .str _
  | .arr _, .obj _ | .obj _, .null | .obj _, .bool _ | .obj _, .int _ | .obj _, .float _
  | .obj _, .str _ | .obj _, .arr _ => isFalse nofun

/-- Equality of lists of JSON values can be decided. -/
def decideEqItems : (v w : List Json) → Decidable (v = w)
  | [], [] => isTrue rfl
  | [], _ :: _ | _ :: _, [] => isFalse nofun
  | a :: v, b :: w =>
    match decideEq a b, decideEqItems v w with
    | isTrue h, isTrue h' => isTrue (by rw [h, h'])
    | isFalse h, _ => isFalse fun e => h (List.cons.inj e).1
    | _, isFalse h => isFalse fun e => h (List.cons.inj e).2

/-- Equality of members can be decided. -/
def decideEqMembers : (v w : List (Text × Json)) → Decidable (v = w)
  | [], [] => isTrue rfl
  | [], _ :: _ | _ :: _, [] => isFalse nofun
  | (k, a) :: v, (l, b) :: w =>
    if hk : k = l then
      match decideEq a b, decideEqMembers v w with
      | isTrue h, isTrue h' => isTrue (by rw [hk, h, h'])
      | isFalse h, _ => isFalse fun e => h (Prod.mk.inj (List.cons.inj e).1).2
      | _, isFalse h => isFalse fun e => h (List.cons.inj e).2
    else isFalse fun e => hk (Prod.mk.inj (List.cons.inj e).1).1

end

instance : DecidableEq Json := decideEq

/-- The sorts of JSON values that messages tell apart. -/
inductive Kind
  | null
  | boolean
  | number
  | string
  | list
  | object
  deriving DecidableEq, Repr

/-- The sort of a value. -/
def kind : Json → Kind
  | .null => .null
  | .bool _ => .boolean
  | .int _ | .float _ => .number
  | .str _ => .string
  | .arr _ => .list
  | .obj _ => .object

/-- The word for a sort of value. -/
def Kind.word : Kind → Text
  | null => "null"
  | boolean => "boolean"
  | number => "number"
  | string => "string"
  | list => "list"
  | object => "object"

/-- Null, false, zero and everything empty: what an optional object may be instead of absent. -/
def isBlank : Json → Bool
  | .null => true
  | .bool b => !b
  | .int n => n == 0
  | .float x => x.isZero
  | .str t => t.isEmpty
  | .arr items => items.isEmpty
  | .obj members => members.isEmpty

/-- Bytes as a list of numbers. -/
def ofBytes (bytes : Bytes) : Json := .arr (bytes.map fun b => .int b.toNat)

/-- Texts as a list. -/
def ofTexts (texts : List Text) : Json := .arr (texts.map .str)

/-- A value or null. -/
def ofOption {α : Type} (f : α → Json) : Option α → Json
  | none => .null
  | some a => f a

end Json

namespace Members

/-- Whether there is a member named `key`, null or not. -/
def has (members : Members) (key : Text) : Bool := (members.get? key).isSome

/-- The value of the member named `key`, unless it is absent or null. -/
def given? (members : Members) (key : Text) : Option Json :=
  match members.get? key with
  | none | some .null => none
  | some value => some value

/-- An item of a list is smaller than what the list is smaller than. -/
theorem sizeOf_item_lt {items : List Json} {item : Json} {members : Members}
    (h : sizeOf (Json.arr items) < sizeOf members) (hi : item ∈ items) :
    sizeOf item < sizeOf members := by
  have := List.sizeOf_lt_of_mem hi
  simp at h
  omega

/-- The value of a member is smaller than the object. -/
theorem sizeOf_get?_lt {members : Members} {key : Text} {value : Json}
    (h : members.get? key = some value) : sizeOf value < sizeOf members := by
  have hm := List.sizeOf_lt_of_mem (Ordered.mem_of_get? h)
  simp only [Prod.mk.sizeOf_spec] at hm
  omega

/-- A member that is given is one of the list. -/
theorem get?_of_given? {members : Members} {key : Text} {value : Json}
    (h : members.given? key = some value) : members.get? key = some value := by
  unfold given? at h
  split at h <;> simp_all

/-- The value of a member that is given is smaller than the object. -/
theorem sizeOf_given?_lt {members : Members} {key : Text} {value : Json}
    (h : members.given? key = some value) : sizeOf value < sizeOf members :=
  sizeOf_get?_lt (get?_of_given? h)

/-- The value of the member named `key`, with the proof that it is smaller than the object. -/
def find (members : Members) (key : Text) : Option { v : Json // sizeOf v < sizeOf members } :=
  match h : members.get? key with
  | none => none
  | some value => some ⟨value, sizeOf_get?_lt h⟩

/-- Finding a member and getting its value are the same look-up. -/
theorem find_map_val (members : Members) (key : Text) :
    (members.find key).map Subtype.val = members.get? key := by
  unfold find
  split <;> simp_all

end Members
end AnchorIdl
