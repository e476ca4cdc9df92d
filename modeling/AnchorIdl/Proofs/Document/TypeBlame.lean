/-
# What the reader of type expressions blames

The reader of a type expression and those of its fields, variants and generics
blame what is faulty at or below it (`readType_blames` and its companions).  The
cases are the forms of `TypeForm`; a value of another form is faulty itself.
-/

import AnchorIdl.Proofs.Document.Blame

namespace AnchorIdl
namespace Document

variable {α : Type}

/-- The only member of a type expression without a kind. -/
theorem wrapper_blames {place : Place} {key key' : Text} {value : Json} {r : Role} {x : Reading α}
    (hk : Ordered.get? [(key, value)] "kind" = none) (hkey : key = key')
    (hp : ⟨key', r, .required⟩ ∈ wrapperParts)
    (h : Blames (place.member key') r (some value) x) :
    Blames place .type (some (.obj [(key, value)])) x := by
  subst hkey
  have hpart : ⟨key, r, .required⟩ ∈ Role.type.parts [(key, value)] := by
    simp only [Role.parts, hk]
    exact List.mem_filter.2 ⟨hp, by simp [Ordered.keys]⟩
  exact .required hpart (by simpa [Ordered.get?_cons] using h)

mutual

theorem readType_blames (place : Place) (raw : Json) :
    Blames place .type (some raw) (readType place raw) := by
  match raw with
  | .str t =>
    rw [readType.eq_def]
    dsimp only
    split
    · exact .ok _
    · next hnone =>
      refine .complain (.primitive (fun p hp => ?_) fun hkey => ?_) rfl
      · rw [hp, primitive?_name] at hnone
        cases hnone
      · rw [hkey] at hnone
        cases hnone
  | .obj members =>
    cases hk : Ordered.get? members "kind" with
    | some kind =>
      rw [readType_of_kind hk]
      exact readShape_blames place members kind hk
    | none =>
      match members with
      | [(key, value)] =>
        rw [readType_single _ _ _ hk]
        split
        · next hkey =>
          exact wrapper_blames hk hkey (by decide) (.map (readType_blames _ value))
        split
        · next hkey =>
          exact wrapper_blames hk hkey (by decide) (.map (readType_blames _ value))
        split
        · next hkey =>
          exact wrapper_blames hk hkey (by decide) (.map (readType_blames _ value))
        split
        · next hkey =>
          exact wrapper_blames hk hkey (by decide) (readArray_blames _ value)
        split
        · next hkey =>
          exact wrapper_blames hk hkey (by decide) (readDefined_blames _ value)
        · refine .complain (.shape hk ?_) rfl
          simp [wrapperParts, Ordered.keys, *]
      | [] | _ :: _ :: _ =>
        rw [readType.eq_def]
        simp only [hk]
        exact .complain (.shape hk (by simp [wrapperParts, Ordered.keys])) rfl
  | .null | .bool _ | .int _ | .float _ | .arr _ =>
    rw [readType.eq_def]
    exact .complain (.noTypeSort (by simp [Json.kind]) (by simp [Json.kind])) rfl
termination_by sizeOf raw
decreasing_by all_goals simp; try omega

theorem readArray_blames (place : Place) (raw : Json) :
    Blames place .array (some raw) (readArray place raw) := by
  rw [readArray.eq_def]
  split
  · next element length =>
    split
    · next n => exact .map (.item rfl rfl (readType_blames _ element))
    · next h => exact .item rfl rfl (.complain (.arrayLength fun n hn => h n hn) rfl)
  · next h => exact .complain (.array h) rfl
termination_by sizeOf raw
decreasing_by subst_vars; simp; omega

theorem readDefined_blames (place : Place) (raw : Json) :
    Blames place .reference (some raw) (readDefined place raw) := by
  match raw with
  | .str (c :: rest) =>
    rw [readDefined]
    exact .ok _
  | .obj members =>
    rw [readDefined_obj]
    have hp : ⟨"generics", .list .generic, .optional⟩ ∈ Role.reference.parts members :=
      List.mem_cons_of_mem _ (List.mem_cons_self ..)
    refine .bind (name_blames (List.mem_cons_self ..)) fun _ _ => ?_
    refine .bind (items_blames hp rfl (by decide)) fun list hl => ?_
    rw [items_eq_ok_iff] at hl
    refine .bind (.eachOf hp hl (fun _ => rfl) fun i x hx => ?_) fun _ _ => .ok _
    have := hl.sizeOf_lt hx
    exact readGeneric_blames _ x
  | .null | .bool _ | .int _ | .float _ | .arr _ | .str [] =>
    rw [readDefined.eq_def]
    exact .complain (.reference (by simp; try exact Ne.symm) (by simp [Json.kind])) rfl
termination_by sizeOf raw
decreasing_by simp; omega

theorem readGeneric_blames (place : Place) (raw : Json) :
    Blames place .generic (some raw) (readGeneric place raw) := by
  match raw with
  | .obj members =>
    rw [readGeneric_obj]
    split
    · next type ht =>
      have := Members.sizeOf_get?_lt ht
      split
      · next hk =>
        have hp : ⟨"type", .type, .required⟩ ∈ Role.generic.parts members := by
          simp [Role.parts, hk, Members.has, ht]
        exact .required hp (ht ▸ readType_blames _ type)
      · next hk => exact .complain (.generic (.inl hk)) rfl
    · next ht => exact .complain (.generic (.inr ht)) rfl
  | .null | .bool _ | .int _ | .float _ | .arr _ | .str _ =>
    rw [readGeneric.eq_def]
    exact .complain (.wrongSort rfl (by simp [Json.kind])) rfl
termination_by sizeOf raw
decreasing_by simp; omega

theorem readShape_blames (place : Place) (members : Members) (kind : Json)
    (hk : members.get? "kind" = some kind) :
    Blames place .type (some (.obj members)) (readShape place kind members) := by
  have hparts : Role.type.parts members = ⟨"kind", .typeKind, .required⟩ :: shapeParts kind := by
    simp only [Role.parts, hk]
  by_cases hs : kind = .str "struct"
  · subst hs
    have hp : ⟨"fields", .list .field, .optional⟩ ∈ Role.type.parts members := by
      simp [hparts, shapeParts]
    rw [readShape_struct]
    refine .bind (items_blames hp rfl (by decide)) fun list hl => ?_
    rw [items_eq_ok_iff] at hl
    refine .bind (.eachOf hp hl (fun _ => rfl) fun i x hx => ?_) fun _ _ => .ok _
    have := hl.sizeOf_lt hx
    exact readNamedField_blames _ x
  by_cases he : kind = .str "enum"
  · subst he
    have hp : ⟨"variants", .list .variant, .optional⟩ ∈ Role.type.parts members := by
      simp [hparts, shapeParts]
    rw [readShape_enum]
    refine .bind (items_blames hp rfl (by decide)) fun list hl => ?_
    rw [items_eq_ok_iff] at hl
    refine .bind (.eachOf hp hl (fun _ => rfl) fun i x hx => ?_) fun _ _ => .ok _
    have := hl.sizeOf_lt hx
    exact readVariant_blames _ x
  by_cases ht : kind = .str "type"
  · subst ht
    have hp : ⟨"alias", .type, .required⟩ ∈ Role.type.parts members := by
      simp [hparts, shapeParts]
    rw [readShape_type]
    refine .required hp ?_
    split
    · next target ha =>
      have := Members.sizeOf_get?_lt ha
      exact ha ▸ readType_blames _ target
    · next ha => exact ha ▸ .complain .noType rfl
  · rw [readShape, if_neg hs, if_neg he, if_neg ht]
    have hp : ⟨"kind", .typeKind, .required⟩ ∈ Role.type.parts members := by simp [hparts]
    refine .required hp ?_
    rw [hk]
    exact .complain_shown (.typeKind (by simp [hs, he, ht])) rfl (by decide)
termination_by sizeOf members

theorem readNamedField_blames (place : Place) (raw : Json) :
    Blames place .field (some raw) (readNamedField place raw) := by
  match raw with
  | .obj members =>
    rw [readNamedField, readField_eq]
    have hp : ⟨"type", .type, .required⟩ ∈ Role.field.parts members :=
      List.mem_cons_of_mem _ (List.mem_cons_self ..)
    have hd : ⟨"docs", .list .text, .optional⟩ ∈ Role.field.parts members :=
      List.mem_cons_of_mem _ (List.mem_cons_of_mem _ (List.mem_cons_self ..))
    refine .bind (name_blames (List.mem_cons_self ..)) fun _ _ => ?_
    split
    · next ht => exact .required hp (ht ▸ .complain .noType rfl)
    · next type ht =>
      have := Members.sizeOf_get?_lt ht
      refine .bind (.required hp (ht ▸ readType_blames _ type)) fun _ _ => ?_
      exact .bind (docs_blames hd) fun _ _ => .ok _
  | .null | .bool _ | .int _ | .float _ | .arr _ | .str _ =>
    exact .complain (.field (by simp [Json.kind])) rfl
termination_by sizeOf raw
decreasing_by simp; omega

theorem readVariant_blames (place : Place) (raw : Json) :
    Blames place .variant (some raw) (readVariant place raw) := by
  match raw with
  | .obj members =>
    rw [readVariant_obj]
    have hp : ⟨"fields", .variantFields, .optional⟩ ∈ Role.variant.parts members :=
      List.mem_cons_of_mem _ (List.mem_cons_self ..)
    refine .bind (name_blames (List.mem_cons_self ..)) fun _ _ => ?_
    refine .bind (items_blames hp rfl (by decide)) fun list hl => ?_
    rw [items_eq_ok_iff] at hl
    split
    · next hall =>
      have hitem : ∀ i, Role.variantFields.item list i = some .field := fun _ => if_pos hall
      refine .bind (.eachOf hp hl hitem fun i x hx => ?_) fun _ _ => .ok _
      have := hl.sizeOf_lt hx
      exact readNamedField_blames _ x
    split
    · next hall hany =>
      rcases hl with hgiven | ⟨-, rfl⟩
      · refine .given hp hgiven (.complain (.mixedFields (List.any_eq_true.1 hany) ?_) rfl)
        simpa using hall
      · simp at hany
    · next hall hany =>
      have hitem : ∀ i, Role.variantFields.item list i = some .type := fun _ =>
        (if_neg hall).trans (if_neg hany)
      refine .bind (.eachOf hp hl hitem fun i x hx => ?_) fun _ _ => .ok _
      have := hl.sizeOf_lt hx
      exact readType_blames _ x
  | .null | .bool _ | .int _ | .float _ | .arr _ | .str _ =>
    rw [readVariant.eq_def]
    exact .complain (.wrongSort rfl (by simp [Json.kind])) rfl
termination_by sizeOf raw
decreasing_by all_goals simp; omega

end

end Document
end AnchorIdl
