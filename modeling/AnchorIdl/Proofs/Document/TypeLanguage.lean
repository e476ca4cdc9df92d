/-
# Which values are type expressions

`TypeForm` says what a type expression denotes.  Here is the set of the type
expressions themselves, said without any denotation (`InTypeLanguage`): the least
set that is closed under the forms of the table, where `T` is a member of it.

| form | has to have | may have |
| --- | --- | --- |
| a text | one of the 18 names of primitives, or `publicKey` | – |
| an object with one member | `vec`, `option` or `coption`, a `T` | – |
| | `array`, a list of a `T` and a length from 0 on | – |
| | `defined`, a name, or an object with a name | type arguments in the object |
| an object with a member `kind` | `struct` | fields |
| | `enum` | variants |
| | `type`, and an `alias`, a `T` | – |

An object with a member `kind` may hold whatever other members.  Type arguments,
fields, variants and documentation that may be there are lists, and a null one is
an absent one.

`readType_succeeds_iff` is the main statement: the reader accepts the members of
the set and nothing else, it yields what they denote, and it complains of
whatever else at a place at or below the one where it reads.  That it complains
at all, and does not end with a constant that has no octets, is because no
constant stands in a type expression (`Stands.inType`).
-/

import AnchorIdl.Proofs.Document.Language
import AnchorIdl.Proofs.Document.Rewriting
import AnchorIdl.Proofs.Document.TypeBlame

namespace AnchorIdl
namespace Document

/-! ### The language -/

mutual

/-- A type expression. -/
inductive InTypeLanguage : Json → Prop
  | primitive (p : Primitive) : InTypeLanguage (.str p.name)
  | publicKey : InTypeLanguage (.str "publicKey")
  | container (shape : Container) {raw : Json} (element : InTypeLanguage raw) :
      InTypeLanguage (.obj [(shape.tag, raw)])
  | array {raw : Json} (element : InTypeLanguage raw) (length : Nat) :
      InTypeLanguage (.obj [("array", .arr [raw, .int length])])
  | name {name : Text} (hn : name ≠ []) : InTypeLanguage (.obj [("defined", .str name)])
  | reference {members : Members} {list : List Json} (name : MustHold IsName members "name")
      (hl : ListMember members "generics" list) (each : ∀ item ∈ list, IsTypeArgument item) :
      InTypeLanguage (.obj [("defined", .obj members)])
  | struct {members : Members} {list : List Json}
      (kind : members.get? "kind" = some (.str "struct")) (hl : ListMember members "fields" list)
      (each : ∀ item ∈ list, IsField item) : InTypeLanguage (.obj members)
  | enum {members : Members} {list : List Json}
      (kind : members.get? "kind" = some (.str "enum")) (hl : ListMember members "variants" list)
      (each : ∀ item ∈ list, IsVariant item) : InTypeLanguage (.obj members)
  | alias {members : Members} {raw : Json} (kind : members.get? "kind" = some (.str "type"))
      (ha : members.get? "alias" = some raw) (target : InTypeLanguage raw) :
      InTypeLanguage (.obj members)

/-- A type argument. -/
inductive IsTypeArgument : Json → Prop
  | mk {members : Members} {raw : Json} (kind : members.get? "kind" = some (.str "type"))
      (ht : members.get? "type" = some raw) (type : InTypeLanguage raw) :
      IsTypeArgument (.obj members)

/-- A field. -/
inductive IsField : Json → Prop
  | mk {members : Members} {raw : Json} (name : MustHold IsName members "name")
      (ht : members.get? "type" = some raw) (type : InTypeLanguage raw)
      (docs : MayHold (IsListOf IsText) members "docs") : IsField (.obj members)

/-- A variant: its items are fields, or types none of which is an object with a member `name`. -/
inductive IsVariant : Json → Prop
  | named {members : Members} {list : List Json} (name : MustHold IsName members "name")
      (hl : ListMember members "fields" list) (each : ∀ item ∈ list, IsField item) :
      IsVariant (.obj members)
  | positional {members : Members} {list : List Json} (name : MustHold IsName members "name")
      (hl : ListMember members "fields" list) (unnamed : ∀ item ∈ list, isNamed item = false)
      (each : ∀ item ∈ list, InTypeLanguage item) : IsVariant (.obj members)

end

/-! ### Whatever is in the language denotes something -/

/-- If each item denotes something, the items denote a list. -/
theorem exists_forall₂_of_forall {α : Type} {R : Json → α → Prop} {list : List Json}
    (h : ∀ item ∈ list, ∃ x, R item x) : ∃ xs, List.Forall₂ R list xs :=
  (exists_forall₂_iff fun _ _ => Iff.rfl).2 h

theorem exists_nameMember {members : Members} (h : MustHold IsName members "name") :
    ∃ name, NameMember members name :=
  mustHold_name_iff.1 h

mutual

theorem InTypeLanguage.denotes {raw : Json} : InTypeLanguage raw → ∃ t, TypeForm raw t
  | .primitive p => ⟨_, .primitive p⟩
  | .publicKey => ⟨_, .publicKey⟩
  | .container shape element =>
    have ⟨_, ht⟩ := element.denotes
    ⟨_, .container shape ht⟩
  | .array element length =>
    have ⟨_, ht⟩ := element.denotes
    ⟨_, .array ht length⟩
  | .name hn => ⟨_, .name hn⟩
  | .reference name hl each =>
    have ⟨_, hn⟩ := exists_nameMember name
    have ⟨_, hg⟩ := exists_forall₂_of_forall fun item h => (each item h).denotes
    ⟨_, .reference hn hl (genericForms_of_forall₂ hg)⟩
  | .struct kind hl each =>
    have ⟨_, hf⟩ := exists_forall₂_of_forall fun item h => (each item h).denotes
    ⟨_, .struct kind hl (fieldForms_of_forall₂ hf)⟩
  | .enum kind hl each =>
    have ⟨_, hv⟩ := exists_forall₂_of_forall fun item h => (each item h).denotes
    ⟨_, .enum kind hl (variantForms_of_forall₂ hv)⟩
  | .alias kind ha target =>
    have ⟨_, ht⟩ := target.denotes
    ⟨_, .alias kind ha ht⟩

theorem IsTypeArgument.denotes {raw : Json} : IsTypeArgument raw → ∃ t, GenericForm raw t
  | .mk kind ht type =>
    have ⟨_, h⟩ := type.denotes
    ⟨_, .mk kind ht h⟩

theorem IsField.denotes {raw : Json} : IsField raw → ∃ f, FieldForm raw f
  | .mk name ht type docs =>
    have ⟨_, hn⟩ := exists_nameMember name
    have ⟨_, h⟩ := type.denotes
    have ⟨_, hd⟩ := mayHold_docs_iff.1 docs
    ⟨_, .mk hn ht h hd⟩

theorem IsVariant.denotes {raw : Json} : IsVariant raw → ∃ v, VariantForm raw v
  | .named name hl each =>
    have ⟨_, hn⟩ := exists_nameMember name
    have ⟨_, hf⟩ := exists_forall₂_of_forall fun item h => (each item h).denotes
    ⟨_, .named hn hl (fieldForms_of_forall₂ hf)⟩
  | .positional name hl unnamed each =>
    have ⟨_, hn⟩ := exists_nameMember name
    have ⟨_, ht⟩ := exists_forall₂_of_forall fun item h => (each item h).denotes
    ⟨_, .positional hn hl unnamed (typeForms_of_forall₂ ht)⟩

end

/-! ### Whatever denotes something is in the language -/

mutual

theorem TypeForm.inTypeLanguage {raw : Json} {t : TypeExpr} : TypeForm raw t → InTypeLanguage raw
  | .primitive p => .primitive p
  | .publicKey => .publicKey
  | .container shape element => .container shape element.inTypeLanguage
  | .array element length => .array element.inTypeLanguage length
  | .name hn => .name hn
  | .reference hn hl hg => .reference (mustHold_name_iff.2 ⟨_, hn⟩) hl hg.isTypeArgument
  | .struct kind hl hf => .struct kind hl hf.isField
  | .enum kind hl hv => .enum kind hl hv.isVariant
  | .alias kind ha target => .alias kind ha target.inTypeLanguage

theorem TypeForms.inTypeLanguage {list : List Json} {types : List TypeExpr} :
    TypeForms list types → ∀ item ∈ list, InTypeLanguage item
  | .nil => by simp
  | .cons head tail => List.forall_mem_cons.2 ⟨head.inTypeLanguage, tail.inTypeLanguage⟩

theorem GenericForm.isTypeArgument {raw : Json} {t : TypeExpr} :
    GenericForm raw t → IsTypeArgument raw
  | .mk kind ht type => .mk kind ht type.inTypeLanguage

theorem GenericForms.isTypeArgument {list : List Json} {types : List TypeExpr} :
    GenericForms list types → ∀ item ∈ list, IsTypeArgument item
  | .nil => by simp
  | .cons head tail => List.forall_mem_cons.2 ⟨head.isTypeArgument, tail.isTypeArgument⟩

theorem FieldForm.isField {raw : Json} {f : Field} : FieldForm raw f → IsField raw
  | .mk hn ht type hd =>
    .mk (mustHold_name_iff.2 ⟨_, hn⟩) ht type.inTypeLanguage (mayHold_docs_iff.2 ⟨_, hd⟩)

theorem FieldForms.isField {list : List Json} {fields : List Field} :
    FieldForms list fields → ∀ item ∈ list, IsField item
  | .nil => by simp
  | .cons head tail => List.forall_mem_cons.2 ⟨head.isField, tail.isField⟩

theorem VariantForm.isVariant {raw : Json} {v : Variant} : VariantForm raw v → IsVariant raw
  | .named hn hl hf => .named (mustHold_name_iff.2 ⟨_, hn⟩) hl hf.isField
  | .positional hn hl unnamed ht =>
    .positional (mustHold_name_iff.2 ⟨_, hn⟩) hl unnamed ht.inTypeLanguage

theorem VariantForms.isVariant {list : List Json} {variants : List Variant} :
    VariantForms list variants → ∀ item ∈ list, IsVariant item
  | .nil => by simp
  | .cons head tail => List.forall_mem_cons.2 ⟨head.isVariant, tail.isVariant⟩

end

/-- The members of the language are the values that denote a type. -/
theorem inTypeLanguage_iff {raw : Json} : InTypeLanguage raw ↔ IsType raw :=
  ⟨InTypeLanguage.denotes, fun ⟨_, h⟩ => h.inTypeLanguage⟩

/-! ### Complaints -/

/-- The positions at or below a type expression. -/
def inType : Role → Bool
  | .type | .array | .reference | .generic | .field | .variant | .text | .name | .typeKind
  | .arrayLength | .variantFields => true
  | .list r => inType r
  | _ => false

theorem inType_part {r : Role} {members : Members} (h : inType r = true) :
    ∀ p ∈ r.parts members, inType p.role = true := by
  have hcandidates : ∀ p ∈ r.candidates, inType p.role = true := by
    cases r with
    | type | array | reference | generic | field | variant | text | name | typeKind | arrayLength
    | variantFields => decide
    | list => exact fun p hp => absurd hp List.not_mem_nil
    | _ => cases h
  exact fun p hp => hcandidates p (parts_subset_candidates _ _ p hp)

theorem inType_item {r item : Role} {list : List Json} {i : Nat} (h : inType r = true)
    (hr : r.item list i = some item) : inType item = true := by
  unfold Role.item at hr
  split at hr
  · exact Option.some.inj hr ▸ h
  · cases h
  · cases h
  · cases h
  · exact Option.some.inj hr ▸ rfl
  · exact Option.some.inj hr ▸ rfl
  · split_ifs at hr
    · exact Option.some.inj hr ▸ rfl
    · exact Option.some.inj hr ▸ rfl
  · cases hr

/-- No other position is reached from a type expression. -/
theorem Stands.inType {r r' : Role} {v v' : Option Json} {place : Place}
    (h : Stands r v place r' v') : Document.inType r = true → Document.inType r' = true := by
  induction h with
  | here => exact id
  | member hp _ _ ih => exact fun hr => ih (inType_part hr _ hp)
  | item hr _ _ ih => exact fun h => ih (inType_item h hr)

/-- A value that is no type expression is complained of, at a place at or below its own, unless what
is complained of cannot be shown. -/
theorem readType_complains {place : Place} {raw : Json} (h : ¬ InTypeLanguage raw) :
    (∃ steps c, (readType place raw).mapError Rejection.raised =
      .error (.fault ⟨c, some (place ++ steps)⟩)) ∨
    (readType place raw).mapError Rejection.raised = .error .overlong ∧ ¬ raw.Short := by
  cases hread : readType place raw with
  | ok t => exact absurd (readType_eq_ok_iff.1 hread).inTypeLanguage h
  | error e =>
    cases readType_blames place raw e hread with
    | unencodable hs => exact absurd (hs.inType rfl) (by decide)
    | @fault steps _ _ c hs _ hshown =>
      rcases raised_fault_cases ⟨c, some (place ++ steps)⟩ with hraised | hraised
      · exact .inl ⟨steps, c, congrArg Except.error hraised⟩
      · obtain ⟨-, x, rfl, hlong⟩ := exists_of_raised_overlong hraised hshown
        exact .inr ⟨congrArg Except.error hraised,
          fun hshort => hlong (short_of_at? hshort (hs.at? _ rfl))⟩

/-- **The reader accepts exactly the type expressions,** and it yields what they denote.  Of any
other value it complains, at a place at or below that of the value; only an integer of more digits
than can be written keeps it from saying so. -/
theorem readType_succeeds_iff (place : Place) (raw : Json) :
    ((∃ t, readType place raw = .ok t) ↔ InTypeLanguage raw) ∧
      (∀ t, readType place raw = .ok t ↔ TypeForm raw t) ∧
      (¬ InTypeLanguage raw →
        (∃ steps c, (readType place raw).mapError Rejection.raised =
          .error (.fault ⟨c, some (place ++ steps)⟩)) ∨
        (readType place raw).mapError Rejection.raised = .error .overlong ∧ ¬ raw.Short) := by
  refine ⟨?_, fun _ => readType_eq_ok_iff, readType_complains⟩
  rw [inTypeLanguage_iff]
  exact exists_congr fun _ => readType_eq_ok_iff

end Document
end AnchorIdl
