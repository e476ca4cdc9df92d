/-
# The language of type expressions

`TypeForm raw t` says that the JSON value `raw` is a type expression and that it
denotes the type `t`.  The relation is the least one with the forms that
documents may use:

| form | type |
| --- | --- |
| the name of a primitive, or `publicKey` for `pubkey` | the primitive |
| `{"vec": T}`, `{"option": T}`, `{"coption": T}` | a container |
| `{"array": [T, n]}` | an array |
| `{"defined": "Name"}`, `{"defined": {"name": "Name", "generics": […]}}` | a reference |
| an object whose `kind` is `struct`, `enum` or `type` | a struct, an enum, what `alias` denotes |

It speaks of no place and of no fault.  `readType` accepts exactly the values
that have a type, and yields that type (`readType_eq_ok_iff`); so a value has at
most one type.
-/

import AnchorIdl.Document.TypeExpr
import AnchorIdl.Proofs.Document.Reading
import AnchorIdl.Proofs.Text.Basic

namespace AnchorIdl
namespace Document

mutual

/-- A type expression of a document, with the type that it denotes. -/
inductive TypeForm : Json → TypeExpr → Prop
  | primitive (p : Primitive) : TypeForm (.str p.name) (.primitive p)
  | publicKey : TypeForm (.str "publicKey") (.primitive .pubkey)
  | container (shape : Container) {raw : Json} {t : TypeExpr} (element : TypeForm raw t) :
      TypeForm (.obj [(shape.tag, raw)]) (.container shape t)
  | array {raw : Json} {t : TypeExpr} (element : TypeForm raw t) (length : Nat) :
      TypeForm (.obj [("array", .arr [raw, .int length])]) (.array t length)
  | name {name : Text} (hn : name ≠ []) :
      TypeForm (.obj [("defined", .str name)]) (.defined name [])
  | reference {members : Members} {name : Text} {list : List Json} {generics : List TypeExpr}
      (hn : NameMember members name) (hl : ListMember members "generics" list)
      (hg : GenericForms list generics) :
      TypeForm (.obj [("defined", .obj members)]) (.defined name generics)
  | struct {members : Members} {list : List Json} {fields : List Field}
      (kind : members.get? "kind" = some (.str "struct")) (hl : ListMember members "fields" list)
      (hf : FieldForms list fields) : TypeForm (.obj members) (.struct fields)
  | enum {members : Members} {list : List Json} {variants : List Variant}
      (kind : members.get? "kind" = some (.str "enum")) (hl : ListMember members "variants" list)
      (hv : VariantForms list variants) : TypeForm (.obj members) (.enum variants)
  | alias {members : Members} {raw : Json} {t : TypeExpr}
      (kind : members.get? "kind" = some (.str "type")) (ha : members.get? "alias" = some raw)
      (target : TypeForm raw t) : TypeForm (.obj members) t

/-- Type expressions, item by item. -/
inductive TypeForms : List Json → List TypeExpr → Prop
  | nil : TypeForms [] []
  | cons {raw : Json} {rest : List Json} {t : TypeExpr} {ts : List TypeExpr}
      (head : TypeForm raw t) (tail : TypeForms rest ts) : TypeForms (raw :: rest) (t :: ts)

/-- A type argument: an object of kind `type` with a type. -/
inductive GenericForm : Json → TypeExpr → Prop
  | mk {members : Members} {raw : Json} {t : TypeExpr}
      (kind : members.get? "kind" = some (.str "type")) (ht : members.get? "type" = some raw)
      (type : TypeForm raw t) : GenericForm (.obj members) t

/-- Type arguments, item by item. -/
inductive GenericForms : List Json → List TypeExpr → Prop
  | nil : GenericForms [] []
  | cons {raw : Json} {rest : List Json} {t : TypeExpr} {ts : List TypeExpr}
      (head : GenericForm raw t) (tail : GenericForms rest ts) :
      GenericForms (raw :: rest) (t :: ts)

/-- A field: an object with a name, a type and documentation. -/
inductive FieldForm : Json → Field → Prop
  | mk {members : Members} {name : Text} {raw : Json} {t : TypeExpr} {docs : List Text}
      (hn : NameMember members name) (ht : members.get? "type" = some raw) (type : TypeForm raw t)
      (hd : ListMember members "docs" (docs.map .str)) : FieldForm (.obj members) ⟨name, t, docs⟩

/-- Fields, item by item. -/
inductive FieldForms : List Json → List Field → Prop
  | nil : FieldForms [] []
  | cons {raw : Json} {rest : List Json} {f : Field} {fs : List Field}
      (head : FieldForm raw f) (tail : FieldForms rest fs) : FieldForms (raw :: rest) (f :: fs)

/-- A variant: an object with a name whose fields all have names, or of which none has. -/
inductive VariantForm : Json → Variant → Prop
  | named {members : Members} {name : Text} {list : List Json} {fields : List Field}
      (hn : NameMember members name) (hl : ListMember members "fields" list)
      (hf : FieldForms list fields) : VariantForm (.obj members) ⟨name, fields, []⟩
  | positional {members : Members} {name : Text} {list : List Json} {types : List TypeExpr}
      (hn : NameMember members name) (hl : ListMember members "fields" list)
      (unnamed : ∀ item ∈ list, isNamed item = false) (ht : TypeForms list types) :
      VariantForm (.obj members) ⟨name, [], types⟩

/-- Variants, item by item. -/
inductive VariantForms : List Json → List Variant → Prop
  | nil : VariantForms [] []
  | cons {raw : Json} {rest : List Json} {v : Variant} {vs : List Variant}
      (head : VariantForm raw v) (tail : VariantForms rest vs) :
      VariantForms (raw :: rest) (v :: vs)

end

/-! ### The readers without the sizes of their items -/

/-- Read the field at a place, which has to be an object. -/
def readNamedField (place : Place) : Json → Reading Field
  | .obj field => readField place field
  | _ => complain place .unnamedField

theorem readType_of_kind {members : Members} {kind : Json} (h : members.get? "kind" = some kind)
    (place : Place) : readType place (.obj members) = readShape place kind members := by
  rw [readType.eq_def]
  simp only [h]

theorem readType_single (place : Place) (key : Text) (value : Json)
    (h : Ordered.get? [(key, value)] "kind" = none) :
    readType place (.obj [(key, value)]) =
      if key = "vec" then (readType (place.member "vec") value).map (.container .vec)
      else if key = "option" then (readType (place.member "option") value).map (.container .option)
      else if key = "coption" then
        (readType (place.member "coption") value).map (.container .coption)
      else if key = "array" then readArray (place.member "array") value
      else if key = "defined" then readDefined (place.member "defined") value
      else complain place (.unknownShape [key]) := by
  rw [readType.eq_def]
  simp only [h]

theorem readArray_pair (place : Place) (element : Json) (length : Nat) :
    readArray place (.arr [element, .int length]) =
      (readType (place.index 0) element).map (.array · length) := by
  rw [readArray.eq_def]

theorem readDefined_obj (place : Place) (members : Members) :
    readDefined place (.obj members) = (do
      let name ← name place members
      let list ← items place members "generics"
      let generics ← each list fun i raw => readGeneric ((place.member "generics").index i) raw
      return .defined name generics) := by
  rw [readDefined]
  congr 1
  funext name
  exact bind_sizedItems (fun _ _ => rfl) _

theorem readShape_struct (place : Place) (members : Members) :
    readShape place (.str "struct") members = (do
      let list ← items place members "fields"
      let fields ← each list fun i raw => readNamedField ((place.member "fields").index i) raw
      return .struct fields) := by
  rw [readShape, if_pos rfl]
  exact bind_sizedItems (fun i ⟨x, _⟩ => by cases x <;> rfl) _

theorem readShape_enum (place : Place) (members : Members) :
    readShape place (.str "enum") members = (do
      let list ← items place members "variants"
      let variants ← each list fun i raw =>
        readVariant ((place.member "variants").index i) raw
      return .enum variants) := by
  rw [readShape, if_neg (by decide), if_pos rfl]
  exact bind_sizedItems (fun _ _ => rfl) _

theorem readShape_type (place : Place) (members : Members) :
    readShape place (.str "type") members =
      match members.get? "alias" with
      | some target => readType (place.member "alias") target
      | none => complain (place.member "alias") .noAliasTarget := by
  rw [readShape, if_neg (by decide), if_neg (by decide), if_pos rfl, ← Members.find_map_val]
  cases members.find "alias" <;> rfl

theorem readGeneric_obj (place : Place) (members : Members) :
    readGeneric place (.obj members) =
      match members.get? "type" with
      | some type =>
        if members.get? "kind" = some (.str "type") then readType (place.member "type") type
        else complain place .unsupportedGeneric
      | none => complain place .unsupportedGeneric := by
  rw [readGeneric, ← Members.find_map_val members "type"]
  cases members.find "type" <;> rfl

theorem readField_eq (place : Place) (members : Members) :
    readField place members = (do
      let name ← name place members
      match members.get? "type" with
      | none => complain (place.member "type") (.noType .field)
      | some type =>
        let type ← readType (place.member "type") type
        let docs ← docs place members
        return ⟨name, type, docs⟩) := by
  rw [readField, ← Members.find_map_val]
  cases members.find "type" <;> rfl

theorem readVariant_obj (place : Place) (members : Members) :
    readVariant place (.obj members) = (do
      let name ← name place members
      let list ← items place members "fields"
      if list.all isNamed then
        let fields ← each list fun i raw => readNamedField ((place.member "fields").index i) raw
        return ⟨name, fields, []⟩
      else if list.any isNamed then complain (place.member "fields") .mixedFields
      else
        let types ← each list fun i raw => readType ((place.member "fields").index i) raw
        return ⟨name, [], types⟩) := by
  rw [readVariant, ← sizedItems_map_val]
  congr 1
  funext name
  cases sizedItems place members "fields" with
  | error e => rfl
  | ok xs =>
    change (if xs.all (fun x => isNamed x.val) then _ else _) =
      (if (xs.map Subtype.val).all isNamed then _ else _)
    simp only [List.all_map, List.any_map, each_map]
    congr 3
    funext i item
    obtain ⟨x, _⟩ := item
    cases x <;> rfl

/-! ### Whatever has a form is read -/

theorem primitive?_name (p : Primitive) : primitive? p.name = some p := by
  cases p <;> decide

theorem FieldForm.isNamed {raw : Json} {f : Field} (h : FieldForm raw f) : isNamed raw = true := by
  cases h with
  | mk hn _ _ _ => simp [Document.isNamed, Members.has, hn.1]

theorem FieldForms.isNamed {list : List Json} {fields : List Field} (h : FieldForms list fields) :
    ∀ item ∈ list, isNamed item = true := by
  cases h with
  | nil => simp
  | cons head tail => exact List.forall_mem_cons.2 ⟨head.isNamed, tail.isNamed⟩

mutual

theorem TypeForm.read {raw : Json} {t : TypeExpr} :
    TypeForm raw t → ∀ place, readType place raw = .ok t
  | .primitive p, place => by rw [readType, primitive?_name]
  | .publicKey, place => by rw [readType]; rfl
  | .container shape element, place => by
    cases shape <;> rw [readType_single _ _ _ (by rfl)] <;>
      simp [Container.tag, element.read, Except.map]
  | .array element length, place => by
    rw [readType_single _ _ _ (by rfl)]
    simp [readArray_pair, element.read, Except.map]
  | @TypeForm.name name hn, place => by
    obtain ⟨c, rest, rfl⟩ := List.exists_cons_of_ne_nil hn
    rw [readType_single _ _ _ (by rfl)]
    simp [readDefined]
  | .reference hn hl hg, place => by
    rw [readType_single _ _ _ (by rfl)]
    simp only [Text.ofString_inj, String.reduceEq, if_false, if_true, readDefined_obj, bind_eq_ok,
      name_eq_ok_iff, items_eq_ok_iff, pure_eq_ok]
    exact ⟨_, hn, _, hl, _, hg.read _ 0, rfl⟩
  | .struct kind hl hf, place => by
    rw [readType_of_kind kind, readShape_struct]
    simp only [bind_eq_ok, items_eq_ok_iff, pure_eq_ok]
    exact ⟨_, hl, _, hf.read _ 0, rfl⟩
  | .enum kind hl hv, place => by
    rw [readType_of_kind kind, readShape_enum]
    simp only [bind_eq_ok, items_eq_ok_iff, pure_eq_ok]
    exact ⟨_, hl, _, hv.read _ 0, rfl⟩
  | .alias kind ha target, place => by
    rw [readType_of_kind kind, readShape_type, ha]
    exact target.read _

theorem TypeForms.read {list : List Json} {types : List TypeExpr} :
    TypeForms list types → ∀ (place : Place) i,
      eachFrom (fun i raw => readType (place.index i) raw) i list = .ok types
  | .nil, _, _ => rfl
  | .cons head tail, place, i => by
    simp [eachFrom, bind_eq_ok, head.read, tail.read]

theorem GenericForm.read {raw : Json} {t : TypeExpr} :
    GenericForm raw t → ∀ place, readGeneric place raw = .ok t
  | .mk kind ht type, place => by
    rw [readGeneric_obj, ht]
    simp only [kind, if_true, type.read]

theorem GenericForms.read {list : List Json} {types : List TypeExpr} :
    GenericForms list types → ∀ (place : Place) i,
      eachFrom (fun i raw => readGeneric (place.index i) raw) i list = .ok types
  | .nil, _, _ => rfl
  | .cons head tail, place, i => by
    simp [eachFrom, bind_eq_ok, head.read, tail.read]

theorem FieldForm.read {raw : Json} {f : Field} :
    FieldForm raw f → ∀ place, readNamedField place raw = .ok f
  | .mk hn ht type hd, place => by
    rw [readNamedField, readField_eq]
    simp only [bind_eq_ok, name_eq_ok_iff, ht, docs_eq_ok_iff, pure_eq_ok]
    exact ⟨_, hn, _, type.read _, _, hd, rfl⟩

theorem FieldForms.read {list : List Json} {fields : List Field} :
    FieldForms list fields → ∀ (place : Place) i,
      eachFrom (fun i raw => readNamedField (place.index i) raw) i list = .ok fields
  | .nil, _, _ => rfl
  | .cons head tail, place, i => by
    simp [eachFrom, bind_eq_ok, head.read, tail.read]

theorem VariantForm.read {raw : Json} {v : Variant} :
    VariantForm raw v → ∀ place, readVariant place raw = .ok v
  | .named hn hl hf, place => by
    rw [readVariant_obj]
    simp only [bind_eq_ok, name_eq_ok_iff, items_eq_ok_iff]
    refine ⟨_, hn, _, hl, ?_⟩
    rw [if_pos (List.all_eq_true.2 hf.isNamed)]
    simp only [bind_eq_ok, pure_eq_ok]
    exact ⟨_, hf.read _ 0, rfl⟩
  | .positional hn hl unnamed ht, place => by
    rw [readVariant_obj]
    simp only [bind_eq_ok, name_eq_ok_iff, items_eq_ok_iff]
    refine ⟨_, hn, _, hl, ?_⟩
    have htypes := ht.read (place.member "fields") 0
    cases ht with
    | nil => rfl
    | cons head tail =>
      have hfirst := unnamed _ (List.mem_cons_self ..)
      rw [if_neg (by simp [hfirst]), if_neg (by simpa using unnamed)]
      simp only [bind_eq_ok, pure_eq_ok]
      exact ⟨_, htypes, rfl⟩

theorem VariantForms.read {list : List Json} {variants : List Variant} :
    VariantForms list variants → ∀ (place : Place) i,
      eachFrom (fun i raw => readVariant (place.index i) raw) i list = .ok variants
  | .nil, _, _ => rfl
  | .cons head tail, place, i => by
    simp [eachFrom, bind_eq_ok, head.read, tail.read]

end

/-! ### Whatever is read has a form -/

theorem name_of_primitive? {t : Text} {p : Primitive} (h : primitive? t = some p) :
    t = "publicKey" ∧ p = .pubkey ∨ t = p.name := by
  unfold primitive? at h
  split at h
  · exact .inl ⟨‹_›, (Option.some.inj h).symm⟩
  · have := List.find?_some h
    exact .inr (by simpa using Eq.symm (of_decide_eq_true this))

theorem typeForms_of_forall₂ {list : List Json} {types : List TypeExpr}
    (h : List.Forall₂ TypeForm list types) : TypeForms list types := by
  induction h with
  | nil => exact .nil
  | cons head _ tail => exact .cons head tail

theorem TypeForms.forall₂ {list : List Json} {types : List TypeExpr} :
    TypeForms list types → List.Forall₂ TypeForm list types
  | .nil => .nil
  | .cons head tail => .cons head tail.forall₂

theorem genericForms_of_forall₂ {list : List Json} {types : List TypeExpr}
    (h : List.Forall₂ GenericForm list types) : GenericForms list types := by
  induction h with
  | nil => exact .nil
  | cons head _ tail => exact .cons head tail

theorem GenericForms.forall₂ {list : List Json} {types : List TypeExpr} :
    GenericForms list types → List.Forall₂ GenericForm list types
  | .nil => .nil
  | .cons head tail => .cons head tail.forall₂

theorem fieldForms_of_forall₂ {list : List Json} {fields : List Field}
    (h : List.Forall₂ FieldForm list fields) : FieldForms list fields := by
  induction h with
  | nil => exact .nil
  | cons head _ tail => exact .cons head tail

theorem FieldForms.forall₂ {list : List Json} {fields : List Field} :
    FieldForms list fields → List.Forall₂ FieldForm list fields
  | .nil => .nil
  | .cons head tail => .cons head tail.forall₂

theorem variantForms_of_forall₂ {list : List Json} {variants : List Variant}
    (h : List.Forall₂ VariantForm list variants) : VariantForms list variants := by
  induction h with
  | nil => exact .nil
  | cons head _ tail => exact .cons head tail

theorem VariantForms.forall₂ {list : List Json} {variants : List Variant} :
    VariantForms list variants → List.Forall₂ VariantForm list variants
  | .nil => .nil
  | .cons head tail => .cons head tail.forall₂

mutual

theorem typeForm_of_readType (place : Place) (raw : Json) (t : TypeExpr)
    (h : readType place raw = .ok t) : TypeForm raw t := by
  match raw with
  | .str name =>
    rw [readType.eq_def] at h
    dsimp only at h
    split at h
    · next p hp =>
      obtain rfl := Except.ok.inj h
      obtain ⟨rfl, rfl⟩ | rfl := name_of_primitive? hp
      · exact .publicKey
      · exact .primitive p
    · simp at h
  | .obj members =>
    cases hk : Ordered.get? members "kind" with
    | some kind =>
      rw [readType_of_kind hk] at h
      exact typeForm_of_readShape place members kind t hk h
    | none =>
      match members with
      | [(key, value)] =>
        rw [readType_single _ _ _ hk] at h
        split at h
        · next hkey =>
          obtain ⟨t, ht, rfl⟩ := map_eq_ok.1 h
          exact hkey ▸ .container .vec (typeForm_of_readType _ value t ht)
        split at h
        · next hkey =>
          obtain ⟨t, ht, rfl⟩ := map_eq_ok.1 h
          exact hkey ▸ .container .option (typeForm_of_readType _ value t ht)
        split at h
        · next hkey =>
          obtain ⟨t, ht, rfl⟩ := map_eq_ok.1 h
          exact hkey ▸ .container .coption (typeForm_of_readType _ value t ht)
        split at h
        · next hkey => exact hkey ▸ typeForm_of_readArray _ value t h
        split at h
        · next hkey => exact hkey ▸ typeForm_of_readDefined _ value t h
        · simp at h
      | [] | _ :: _ :: _ =>
        rw [readType.eq_def] at h
        simp [hk] at h
  | .null | .bool _ | .int _ | .float _ | .arr _ =>
    rw [readType.eq_def] at h
    simp at h
termination_by sizeOf raw
decreasing_by all_goals simp; try omega

theorem typeForm_of_readArray (place : Place) (raw : Json) (t : TypeExpr)
    (h : readArray place raw = .ok t) : TypeForm (.obj [("array", raw)]) t := by
  rw [readArray.eq_def] at h
  split at h
  · next element length =>
    split at h
    · next n =>
      obtain ⟨t, ht, rfl⟩ := map_eq_ok.1 h
      exact .array (typeForm_of_readType _ element t ht) n
    · simp at h
  · simp at h
termination_by sizeOf raw
decreasing_by subst_vars; simp; omega

theorem typeForm_of_readDefined (place : Place) (raw : Json) (t : TypeExpr)
    (h : readDefined place raw = .ok t) : TypeForm (.obj [("defined", raw)]) t := by
  match raw with
  | .str (c :: rest) =>
    rw [readDefined] at h
    exact Except.ok.inj h ▸ .name (List.cons_ne_nil c rest)
  | .obj members =>
    simp only [readDefined_obj, bind_eq_ok, name_eq_ok_iff, items_eq_ok_iff, pure_eq_ok] at h
    obtain ⟨name, hn, list, hl, generics, hg, rfl⟩ := h
    exact .reference hn hl (genericForms_of_forall₂ (forall₂_of_eachFrom 0 hg
      fun i x hx t => have := hl.sizeOf_lt hx; genericForm_of_readGeneric _ x t))
  | .null | .bool _ | .int _ | .float _ | .arr _ | .str [] =>
    rw [readDefined.eq_def] at h
    simp at h
termination_by sizeOf raw
decreasing_by simp; omega

theorem genericForm_of_readGeneric (place : Place) (raw : Json) (t : TypeExpr)
    (h : readGeneric place raw = .ok t) : GenericForm raw t := by
  match raw with
  | .obj members =>
    rw [readGeneric_obj] at h
    split at h
    · next type ht =>
      have := Members.sizeOf_get?_lt ht
      split at h
      · next hk => exact .mk hk ht (typeForm_of_readType _ type t h)
      · simp at h
    · simp at h
  | .null | .bool _ | .int _ | .float _ | .arr _ | .str _ =>
    rw [readGeneric.eq_def] at h
    simp at h
termination_by sizeOf raw
decreasing_by simp; omega

theorem typeForm_of_readShape (place : Place) (members : Members) (kind : Json) (t : TypeExpr)
    (hk : members.get? "kind" = some kind) (h : readShape place kind members = .ok t) :
    TypeForm (.obj members) t := by
  by_cases hs : kind = .str "struct"
  · subst hs
    simp only [readShape_struct, bind_eq_ok, items_eq_ok_iff, pure_eq_ok] at h
    obtain ⟨list, hl, fields, hf, rfl⟩ := h
    exact .struct hk hl (fieldForms_of_forall₂ (forall₂_of_eachFrom 0 hf
      fun i x hx f => have := hl.sizeOf_lt hx; fieldForm_of_readNamedField _ x f))
  by_cases he : kind = .str "enum"
  · subst he
    simp only [readShape_enum, bind_eq_ok, items_eq_ok_iff, pure_eq_ok] at h
    obtain ⟨list, hl, variants, hv, rfl⟩ := h
    exact .enum hk hl (variantForms_of_forall₂ (forall₂_of_eachFrom 0 hv
      fun i x hx v => have := hl.sizeOf_lt hx; variantForm_of_readVariant _ x v))
  by_cases ht : kind = .str "type"
  · subst ht
    rw [readShape_type] at h
    split at h
    · next target ha =>
      have := Members.sizeOf_get?_lt ha
      exact .alias hk ha (typeForm_of_readType _ target t h)
    · simp at h
  · rw [readShape, if_neg hs, if_neg he, if_neg ht] at h
    simp at h
termination_by sizeOf members

theorem fieldForm_of_readNamedField (place : Place) (raw : Json) (f : Field)
    (h : readNamedField place raw = .ok f) : FieldForm raw f := by
  match raw with
  | .obj members =>
    simp only [readNamedField, readField_eq, bind_eq_ok, name_eq_ok_iff] at h
    obtain ⟨name, hn, h⟩ := h
    split at h
    · simp at h
    · next type ht =>
      have := Members.sizeOf_get?_lt ht
      simp only [bind_eq_ok, docs_eq_ok_iff, pure_eq_ok] at h
      obtain ⟨t, htype, docs, hd, rfl⟩ := h
      exact .mk hn ht (typeForm_of_readType _ type t htype) hd
  | .null | .bool _ | .int _ | .float _ | .arr _ | .str _ => simp [readNamedField] at h
termination_by sizeOf raw
decreasing_by simp; omega

theorem variantForm_of_readVariant (place : Place) (raw : Json) (v : Variant)
    (h : readVariant place raw = .ok v) : VariantForm raw v := by
  match raw with
  | .obj members =>
    simp only [readVariant_obj, bind_eq_ok, name_eq_ok_iff, items_eq_ok_iff] at h
    obtain ⟨name, hn, list, hl, h⟩ := h
    split at h
    · simp only [bind_eq_ok, pure_eq_ok] at h
      obtain ⟨fields, hf, rfl⟩ := h
      exact .named hn hl (fieldForms_of_forall₂ (forall₂_of_eachFrom 0 hf
        fun i x hx f => have := hl.sizeOf_lt hx; fieldForm_of_readNamedField _ x f))
    split at h
    · simp at h
    · next hany =>
      simp only [bind_eq_ok, pure_eq_ok] at h
      obtain ⟨types, ht, rfl⟩ := h
      exact .positional hn hl (by simpa using hany) (typeForms_of_forall₂ (forall₂_of_eachFrom 0 ht
        fun i x hx t => have := hl.sizeOf_lt hx; typeForm_of_readType _ x t))
  | .null | .bool _ | .int _ | .float _ | .arr _ | .str _ =>
    rw [readVariant.eq_def] at h
    simp at h
termination_by sizeOf raw
decreasing_by all_goals simp; omega

end

/-- **A value is read as a type exactly if it denotes it.** -/
theorem readType_eq_ok_iff {place : Place} {raw : Json} {t : TypeExpr} :
    readType place raw = .ok t ↔ TypeForm raw t :=
  ⟨typeForm_of_readType place raw t, fun h => h.read place⟩

end Document
end AnchorIdl
