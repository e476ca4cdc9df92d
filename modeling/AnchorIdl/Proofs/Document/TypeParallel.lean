/-
# Type expressions side by side

The readers of type expressions, and those of fields, variants and type arguments,
go the same way over a rearranged value (`readType_parallel` and its companions).
A type expression is told from another by its kind, by the number of its members
if it has none, and by the name of the only one; an item of a variant's fields
by whether it has a name.  None of these changes when a value is rearranged.
-/

import AnchorIdl.Proofs.Document.Parallel

namespace AnchorIdl
namespace Document

theorem readType_of_length {members : Members} (place : Place) (hk : members.get? "kind" = none)
    (hlength : members.length ≠ 1) :
    readType place (.obj members) = complain place (.unknownShape (Ordered.keys members)) := by
  rw [readType.eq_def]
  simp only [hk]
  rcases members with _ | ⟨_, _ | ⟨_, _⟩⟩
  · rfl
  · exact absurd rfl hlength
  · rfl

theorem readArray_of_length {list : List Json} (place : Place) (hlength : list.length ≠ 2) :
    readArray place (.arr list) = complain place .badArray := by
  rw [readArray.eq_def]
  rcases list with _ | ⟨_, _ | ⟨_, _ | ⟨_, _⟩⟩⟩
  · rfl
  · rfl
  · exact absurd rfl hlength
  · rfl

theorem isNamed_eq {r : Option Role} {v v' : Json} (h : Rearranges r v v') :
    isNamed v = isNamed v' := by
  cases v with
  | obj members =>
    obtain ⟨members', rfl, hmembers⟩ := h.exists_obj
    exact hmembers.has (by decide)
  | arr list =>
    obtain ⟨list', rfl, -⟩ := h.exists_arr
    rfl
  | null | bool | int | float | str =>
    cases h
    rfl

/-- The items of rearranged lists are named alike. -/
theorem map_isNamed_eq {r : Option Role} {list list' : List Json}
    (h : Rearranges r (.arr list) (.arr list')) : list.map isNamed = list'.map isNamed := by
  refine List.ext_getElem (by rw [List.length_map, List.length_map, h.length_eq]) fun i hi hi' => ?_
  rw [List.getElem_map, List.getElem_map]
  exact isNamed_eq (h.item i _ _ (List.getElem?_eq_getElem _) (List.getElem?_eq_getElem _))

section

variable {place place' : Place}

/-- The only member of a type expression without a kind. -/
theorem wrapper_parallel {key key' : Text} {value value' : Json} {s : Role}
    {x y : Reading TypeExpr} (hk : Ordered.get? [(key, value)] "kind" = none) (hkey : key = key')
    (hp : ⟨key', s, .required⟩ ∈ wrapperParts)
    (hvalue : Rearranges (memberRole? (some .type) [(key, value)] key) value value')
    (h : Rearranges (some s) value value' →
      Parallel (place.member key') (place'.member key') Eq x y) :
    Parallel place place' Eq x y := by
  subst hkey
  have hpart : ⟨key, s, .required⟩ ∈ Role.type.parts [(key, value)] := by
    simp only [Role.parts, hk]
    exact List.mem_filter.2 ⟨hp, by simp [Ordered.keys]⟩
  rw [memberRole?_eq_some hpart] at hvalue
  exact (h hvalue).member

end

mutual

theorem readType_parallel (place place' : Place) (raw raw' : Json)
    (h : Rearranges (some .type) raw raw') :
    Parallel place place' Eq (readType place raw) (readType place' raw') := by
  match raw with
  | .str t =>
    cases h
    rw [readType.eq_def, readType.eq_def]
    dsimp only
    split
    · exact .ok rfl
    · exact .complain rfl
  | .obj members =>
    obtain ⟨members', rfl, hmembers⟩ := h.exists_obj
    cases hk : Ordered.get? members "kind" with
    | some kind =>
      obtain ⟨kind', hk', hkind⟩ := hmembers.exists_some (by decide) hk
      rw [readType_of_kind hk, readType_of_kind hk']
      exact readShape_parallel place place' members members' hmembers kind kind' hk hkind
    | none =>
      have hk' := hmembers.eq_none (by decide) hk
      match heq : members with
      | [(key, value)] =>
        obtain ⟨value', hsingle, hvalue⟩ := h.exists_single ⟨rfl, hk⟩
        obtain rfl := Json.obj.inj hsingle
        rw [readType_single _ _ _ hk, readType_single _ _ _ hk']
        split
        · next hkey =>
          exact wrapper_parallel hk hkey (by decide) hvalue fun hvalue =>
            (readType_parallel _ _ value value' hvalue).map fun _ _ => congrArg _
        split
        · next hkey =>
          exact wrapper_parallel hk hkey (by decide) hvalue fun hvalue =>
            (readType_parallel _ _ value value' hvalue).map fun _ _ => congrArg _
        split
        · next hkey =>
          exact wrapper_parallel hk hkey (by decide) hvalue fun hvalue =>
            (readType_parallel _ _ value value' hvalue).map fun _ _ => congrArg _
        split
        · next hkey =>
          exact wrapper_parallel hk hkey (by decide) hvalue fun hvalue =>
            readArray_parallel _ _ value value' hvalue
        split
        · next hkey =>
          exact wrapper_parallel hk hkey (by decide) hvalue fun hvalue =>
            readDefined_parallel _ _ value value' hvalue
        · exact .complain rfl
      | [] | _ :: _ :: _ =>
        -- The number of members is kept, so neither has the form of a wrapper.
        have hlength := h.length_of_closed ⟨rfl, hk⟩
        rw [readType_of_length place hk (by simp),
          readType_of_length place' hk' (by rw [← hlength]; simp)]
        exact .complain rfl
  | .arr list =>
    obtain ⟨list', rfl, -⟩ := h.exists_arr
    rw [readType.eq_def, readType.eq_def]
    exact .complain rfl
  | .null | .bool _ | .int _ | .float _ =>
    cases h
    rw [readType.eq_def, readType.eq_def]
    exact .complain rfl
termination_by sizeOf raw
decreasing_by all_goals (first | (subst heq; simp; omega) | simp)

theorem readArray_parallel (place place' : Place) (raw raw' : Json)
    (h : Rearranges (some .array) raw raw') :
    Parallel place place' Eq (readArray place raw) (readArray place' raw') := by
  match raw with
  | .arr [element, length] =>
    obtain ⟨list', rfl, hlength, items⟩ := h.exists_arr
    obtain ⟨element', length', rfl⟩ := List.length_eq_two.1 hlength.symm
    have helement : Rearranges (some .type) element element' := items 0 _ _ rfl rfl
    have hvalue : Rearranges (some .arrayLength) length length' := items 1 _ _ rfl rfl
    rw [readArray.eq_def, readArray.eq_def]
    dsimp only
    rcases hvalue.eq_or_container with rfl | ⟨_, _, rfl, rfl⟩ | ⟨_, _, rfl, rfl⟩
    · split
      · exact (readType_parallel _ _ element element' helement).index.map fun _ _ ht => by rw [ht]
      · exact .index (.complain rfl)
    · exact .index (.complain rfl)
    · exact .index (.complain rfl)
  | .arr [] | .arr [_] | .arr (_ :: _ :: _ :: _) =>
    obtain ⟨list', rfl, hlength, -⟩ := h.exists_arr
    rw [readArray_of_length place (by simp), readArray_of_length place' (by rw [← hlength]; simp)]
    exact .complain rfl
  | .obj members =>
    obtain ⟨members', rfl, -⟩ := h.exists_obj
    rw [readArray.eq_def, readArray.eq_def]
    exact .complain rfl
  | .null | .bool _ | .int _ | .float _ | .str _ =>
    cases h
    rw [readArray.eq_def, readArray.eq_def]
    exact .complain rfl
termination_by sizeOf raw
decreasing_by simp; omega

theorem readDefined_parallel (place place' : Place) (raw raw' : Json)
    (h : Rearranges (some .reference) raw raw') :
    Parallel place place' Eq (readDefined place raw) (readDefined place' raw') := by
  match raw with
  | .str (c :: rest) =>
    cases h
    rw [readDefined, readDefined]
    exact .ok rfl
  | .obj members =>
    obtain ⟨members', rfl, hmembers⟩ := h.exists_obj
    rw [readDefined_obj, readDefined_obj]
    have hp : ⟨"generics", .list .generic, .optional⟩ ∈ Role.reference.parts members :=
      List.mem_cons_of_mem _ (List.mem_cons_self ..)
    refine .bind (name_parallel hmembers) fun _ _ hname => ?_
    refine .bind (items_parallel hmembers hp) fun list list' ⟨hl, hlist⟩ => ?_
    refine .bind (.eachOf "generics" hlist fun i v v' hv hitem => ?_) fun _ _ hgenerics => .ok ?_
    · have := hl.sizeOf_lt hv
      exact readGeneric_parallel _ _ v v' hitem
    · rw [hname, hgenerics]
  | .arr list =>
    obtain ⟨list', rfl, -⟩ := h.exists_arr
    rw [readDefined.eq_def, readDefined.eq_def]
    exact .complain rfl
  | .null | .bool _ | .int _ | .float _ | .str [] =>
    cases h
    rw [readDefined.eq_def, readDefined.eq_def]
    exact .complain rfl
termination_by sizeOf raw
decreasing_by simp; omega

theorem readGeneric_parallel (place place' : Place) (raw raw' : Json)
    (h : Rearranges (some .generic) raw raw') :
    Parallel place place' Eq (readGeneric place raw) (readGeneric place' raw') := by
  match raw with
  | .obj members =>
    obtain ⟨members', rfl, hmembers⟩ := h.exists_obj
    have hkey : ("kind" : Text) ∈ memberNames := by decide
    have hkind : Ordered.get? members "kind" = some (.str "type") ↔
        Ordered.get? members' "kind" = some (.str "type") :=
      iff_of_eq (hmembers.get?_congr hkey (· = some (.str "type")) (by simp) (by simp))
    rw [readGeneric_obj, readGeneric_obj]
    cases ht : Ordered.get? members "type" with
    | none =>
      rw [hmembers.eq_none (by decide) ht]
      exact .complain rfl
    | some type =>
      obtain ⟨type', ht', htype⟩ := hmembers.exists_some (by decide) ht
      have := Members.sizeOf_get?_lt ht
      rw [ht']
      dsimp only
      by_cases hk : Ordered.get? members "kind" = some (.str "type")
      · have hp : ⟨"type", .type, .required⟩ ∈ Role.generic.parts members := by
          simp [Role.parts, hk, Members.has, ht]
        rw [memberRole?_eq_some hp] at htype
        rw [if_pos hk, if_pos (hkind.1 hk)]
        exact (readType_parallel _ _ type type' htype).member
      · rw [if_neg hk, if_neg (mt hkind.2 hk)]
        exact .complain rfl
  | .arr list =>
    obtain ⟨list', rfl, -⟩ := h.exists_arr
    rw [readGeneric.eq_def, readGeneric.eq_def]
    exact .complain rfl
  | .null | .bool _ | .int _ | .float _ | .str _ =>
    cases h
    rw [readGeneric.eq_def, readGeneric.eq_def]
    exact .complain rfl
termination_by sizeOf raw
decreasing_by simp; omega

theorem readShape_parallel (place place' : Place) (members members' : Members)
    (h : Corresponds (some .type) members members') (kind kind' : Json)
    (hk : members.get? "kind" = some kind) {r : Option Role} (hkind : Rearranges r kind kind') :
    Parallel place place' Eq (readShape place kind members) (readShape place' kind' members') := by
  have hparts : Role.type.parts members = ⟨"kind", .typeKind, .required⟩ :: shapeParts kind := by
    simp only [Role.parts, hk]
  by_cases hs : kind = .str "struct"
  · subst hs
    cases hkind
    have hp : ⟨"fields", .list .field, .optional⟩ ∈ Role.type.parts members := by
      simp [hparts, shapeParts]
    rw [readShape_struct, readShape_struct]
    refine .bind (items_parallel h hp) fun list list' ⟨hl, hlist⟩ => ?_
    refine .bind (.eachOf "fields" hlist fun i v v' hv hitem => ?_) fun _ _ hfields => .ok ?_
    · have := hl.sizeOf_lt hv
      exact readNamedField_parallel _ _ v v' hitem
    · rw [hfields]
  by_cases he : kind = .str "enum"
  · subst he
    cases hkind
    have hp : ⟨"variants", .list .variant, .optional⟩ ∈ Role.type.parts members := by
      simp [hparts, shapeParts]
    rw [readShape_enum, readShape_enum]
    refine .bind (items_parallel h hp) fun list list' ⟨hl, hlist⟩ => ?_
    refine .bind (.eachOf "variants" hlist fun i v v' hv hitem => ?_) fun _ _ hvariants => .ok ?_
    · have := hl.sizeOf_lt hv
      exact readVariant_parallel _ _ v v' hitem
    · rw [hvariants]
  by_cases ht : kind = .str "type"
  · subst ht
    cases hkind
    have hp : ⟨"alias", .type, .required⟩ ∈ Role.type.parts members := by
      simp [hparts, shapeParts]
    rw [readShape_type, readShape_type]
    cases ha : members.get? "alias" with
    | none =>
      rw [h.eq_none (by decide) ha]
      exact .member (.complain rfl)
    | some target =>
      obtain ⟨target', ha', htarget⟩ := h.exists_some (by decide) ha
      rw [memberRole?_eq_some hp] at htarget
      have := Members.sizeOf_get?_lt ha
      rw [ha']
      exact (readType_parallel _ _ target target' htarget).member
  · have hne : ∀ t, kind ≠ .str t → kind' ≠ .str t := by
      rintro t hne rfl
      cases hkind
      exact hne rfl
    rw [readShape, if_neg hs, if_neg he, if_neg ht,
      readShape, if_neg (hne _ hs), if_neg (hne _ he), if_neg (hne _ ht)]
    exact .member (.complain rfl)
termination_by sizeOf members

theorem readNamedField_parallel (place place' : Place) (raw raw' : Json)
    (h : Rearranges (some .field) raw raw') :
    Parallel place place' Eq (readNamedField place raw) (readNamedField place' raw') := by
  match raw with
  | .obj members =>
    obtain ⟨members', rfl, hmembers⟩ := h.exists_obj
    rw [readNamedField, readField_eq, readNamedField, readField_eq]
    have hp : ⟨"type", .type, .required⟩ ∈ Role.field.parts members :=
      List.mem_cons_of_mem _ (List.mem_cons_self ..)
    have hd : ⟨"docs", .list .text, .optional⟩ ∈ Role.field.parts members :=
      List.mem_cons_of_mem _ (List.mem_cons_of_mem _ (List.mem_cons_self ..))
    refine .bind (name_parallel hmembers) fun _ _ hname => ?_
    cases ht : Ordered.get? members "type" with
    | none =>
      rw [hmembers.eq_none (by decide) ht]
      exact .member (.complain rfl)
    | some type =>
      obtain ⟨type', ht', htype⟩ := hmembers.exists_some (by decide) ht
      rw [memberRole?_eq_some hp] at htype
      have := Members.sizeOf_get?_lt ht
      rw [ht']
      refine .bind (readType_parallel _ _ type type' htype).member fun _ _ htype => ?_
      refine .bind (docs_parallel hmembers hd) fun _ _ hdocs => .ok ?_
      rw [hname, htype, hdocs]
  | .arr list =>
    obtain ⟨list', rfl, -⟩ := h.exists_arr
    exact .complain rfl
  | .null | .bool _ | .int _ | .float _ | .str _ =>
    cases h
    exact .complain rfl
termination_by sizeOf raw
decreasing_by simp; omega

theorem readVariant_parallel (place place' : Place) (raw raw' : Json)
    (h : Rearranges (some .variant) raw raw') :
    Parallel place place' Eq (readVariant place raw) (readVariant place' raw') := by
  match raw with
  | .obj members =>
    obtain ⟨members', rfl, hmembers⟩ := h.exists_obj
    rw [readVariant_obj, readVariant_obj]
    have hp : ⟨"fields", .variantFields, .optional⟩ ∈ Role.variant.parts members :=
      List.mem_cons_of_mem _ (List.mem_cons_self ..)
    refine .bind (name_parallel hmembers) fun _ _ hname => ?_
    refine .bind (items_parallel hmembers hp) fun list list' ⟨hl, hlist⟩ => ?_
    -- The names of the items decide at which position the items stand.
    have hall : list.all isNamed = list'.all isNamed := by
      simpa using congrArg (List.all · id) (map_isNamed_eq hlist)
    have hany : list.any isNamed = list'.any isNamed := by
      simpa using congrArg (List.any · id) (map_isNamed_eq hlist)
    rw [← hall, ← hany]
    split
    · next hall =>
      have hitem : ∀ i, itemRole? (some .variantFields) list i = some .field := fun _ => if_pos hall
      refine .bind (.eachOf "fields" hlist fun i v v' hv hrole => ?_) fun _ _ hfields => .ok ?_
      · rw [hitem] at hrole
        have := hl.sizeOf_lt hv
        exact readNamedField_parallel _ _ v v' hrole
      · rw [hname, hfields]
    split
    · exact .member (.complain rfl)
    · next hall hany =>
      have hitem : ∀ i, itemRole? (some .variantFields) list i = some .type := fun _ =>
        (if_neg hall).trans (if_neg hany)
      refine .bind (.eachOf "fields" hlist fun i v v' hv hrole => ?_) fun _ _ htypes => .ok ?_
      · rw [hitem] at hrole
        have := hl.sizeOf_lt hv
        exact readType_parallel _ _ v v' hrole
      · rw [hname, htypes]
  | .arr list =>
    obtain ⟨list', rfl, -⟩ := h.exists_arr
    rw [readVariant.eq_def, readVariant.eq_def]
    exact .complain rfl
  | .null | .bool _ | .int _ | .float _ | .str _ =>
    cases h
    rw [readVariant.eq_def, readVariant.eq_def]
    exact .complain rfl
termination_by sizeOf raw
decreasing_by all_goals simp; omega

end

end Document
end AnchorIdl
