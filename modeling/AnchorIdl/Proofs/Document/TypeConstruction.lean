/-
# Type expressions are built by valid calls

A building of a part agrees with its reading (`Builds`) if three things hold:

- it yields the same part, or stops at the same fault;
- each call on the way, also before a fault, gave its class what it asks for and
  yielded a part;
- if it yields a part, the calls have yielded the parts of that part, in order.

For the last the parts completed before are carried along, whatever they are
(`Completes`), so that agreement goes through sequences, optional parts and lists
(`Builds.bind`, `Completes.mapM`, `Completes.each`).  A reading agrees with itself,
since it calls nothing.  So for each form of a type expression the builder is
followed step by step along its reader, by recursion on the size of the document,
and only the call at the end has to be looked at.
-/

import AnchorIdl.Proofs.Document.Construction
import AnchorIdl.Proofs.Document.TypeForm
import AnchorIdl.Proofs.Schema.Parts

namespace AnchorIdl
namespace Document

open Bindings (Constructor)
open Script

variable {α β : Type} {before : List Model}

/-! ### Steps -/

/-- A building yields what a reading yields, by valid calls only.  If `before` lists the parts that
were completed before, then `made` lists those completed when a part has been built. -/
structure Builds (before : List Model) (made : α → List Model) (b : Building α) (r : Reading α) :
    Prop where
  outcome : b.outcome = r.mapError .rejected
  valid : ∀ c ∈ b.calls, c.Valid
  parts {a : α} (h : r = .ok a) : before.map some ++ b.calls.map Call.part? = (made a).map some

/-- Whatever was completed before, the parts of what is built are completed after it. -/
def Completes (parts : α → List Model) (b : Building α) (r : Reading α) : Prop :=
  ∀ before, Builds before (fun a => before ++ parts a) b r

namespace Builds

variable {b : Building α} {r : Reading α} {p : α → List Model} {q : β → List Model}

/-- A reading completes nothing. -/
theorem reading (r : Reading α) : Builds before (fun _ => before) (reading r) r :=
  ⟨rfl, List.forall_mem_nil _, fun _ => List.append_nil _⟩

/-- After a fault nothing is asked of the parts. -/
theorem error (e : Rejection) : Builds before p (Document.reading (.error e)) (.error e) :=
  ⟨rfl, List.forall_mem_nil _, nofun⟩

theorem pure {a : α} (h : p a = before) : Builds before p (pure a) (.ok a) := by
  refine ⟨rfl, List.forall_mem_nil _, fun ha => ?_⟩
  obtain rfl := Except.ok.inj ha
  rw [h]
  exact List.append_nil _

/-- What is built after a part is read after it. -/
theorem bind {k : α → Building β} {f : α → Reading β} (hb : Builds before p b r)
    (hk : ∀ a, r = .ok a → Builds (p a) q (k a) (f a)) : Builds before q (b >>= k) (r >>= f) := by
  obtain ⟨calls, outcome⟩ := b
  obtain ⟨rfl, hvalid, hparts⟩ := hb
  cases r with
  | error e => exact ⟨rfl, hvalid, nofun⟩
  | ok a =>
    obtain ⟨houtcome, hvalid', hparts'⟩ := hk a rfl
    refine ⟨houtcome, List.forall_mem_append.2 ⟨hvalid, hvalid'⟩, fun {c} hc => ?_⟩
    calc before.map some ++ (calls ++ (k a).calls).map Call.part?
      _ = (before.map some ++ calls.map Call.part?) ++ (k a).calls.map Call.part? := by
        rw [List.map_append, List.append_assoc]
      _ = (p a).map some ++ (k a).calls.map Call.part? := by rw [hparts rfl]
      _ = (q c).map some := hparts' hc

/-- Rejections are restated alike. -/
theorem mapRejection {f : Rejection → Rejection} (hb : Builds before p b r) :
    Builds before p (b.mapRejection f) (r.mapError f) := by
  refine ⟨?_, hb.valid, fun h => hb.parts ?_⟩
  · rw [Building.mapRejection, hb.outcome]
    cases r <;> rfl
  · exact mapError_eq_ok.1 h

/-- A part of a part is built before it. -/
theorem map {k : α → Building β} {f : α → β} (hb : Builds before p b r)
    (hk : ∀ a, Builds (p a) q (k a) (.ok (f a))) : Builds before q (b >>= k) (r.map f) := by
  have hmap : r.map f = r >>= fun a => .ok (f a) := by cases r <;> rfl
  rw [hmap]
  exact hb.bind fun a _ => hk a

/-- A call of a class that yields the part. -/
theorem call {callee : Constructor} {use : Value → Option α} {arguments : Arguments} {a : α}
    (part : Model) (h : construct callee arguments = some part)
    (huse : use (.model part) = some a) (hmade : p a = before ++ [part]) :
    Builds before p (call callee use arguments) (.ok a) := by
  refine ⟨?_, List.forall_mem_singleton.2 ⟨asks_of_construct h, part, h⟩, fun ha => ?_⟩
  · unfold Document.call
    rw [h, Option.bind_some, huse]
    rfl
  · obtain rfl := Except.ok.inj ha
    rw [hmade, List.map_append]
    exact congrArg (before.map some ++ [·]) h

/-- Building the items of a list does not need the proofs of their sizes. -/
theorem sizedItems {place : Place} {members : Members} {key : Text}
    {sized : List { x : Json // sizeOf x < sizeOf members } → Building β}
    {read : List Json → Reading β}
    (h : ∀ xs : List { x : Json // sizeOf x < sizeOf members },
      Builds before q (sized xs) (read (xs.map Subtype.val))) :
    Builds before q (liftM (sizedItems place members key) >>= sized)
      (items place members key >>= read) := by
  rw [← sizedItems_map_val]
  cases Document.sizedItems place members key with
  | error e => exact Builds.error e
  | ok xs => exact (Builds.reading (.ok xs)).bind fun _ heq => Except.ok.inj heq ▸ h xs

end Builds

namespace Completes

variable {parts : β → List Model}

theorem mapM {build : α → Building β} {read : α → Reading β}
    (h : ∀ a, Completes parts (build a) (read a)) (x : Option α) :
    Completes (fun y => y.toList.flatMap parts) (x.mapM build) (x.mapM read) := by
  intro before
  cases x with
  | none => exact .pure (List.append_nil before)
  | some a => exact (h a before).map fun y => .pure (by simp)

theorem eachFrom {build : Nat → α → Building β} {read : Nat → α → Reading β} {xs : List α}
    (i : Nat) (h : ∀ i, ∀ x ∈ xs, Completes parts (build i x) (read i x)) :
    Completes (·.flatMap parts) (buildEachFrom build i xs) (eachFrom read i xs) := by
  intro before
  induction xs generalizing i before with
  | nil => exact .pure (List.append_nil before)
  | cons x xs ih =>
    refine (h i x (List.mem_cons_self ..) before).bind fun y _ => ?_
    exact (ih (i + 1) (fun i x' hx' => h i x' (List.mem_cons_of_mem _ hx')) _).bind
      fun ys _ => .pure (by simp)

theorem each (parts : β → List Model) {build : Nat → α → Building β}
    {read : Nat → α → Reading β} {xs : List α}
    (h : ∀ i, ∀ x ∈ xs, Completes parts (build i x) (read i x)) :
    Completes (·.flatMap parts) (buildEach xs build) (each xs read) :=
  eachFrom 0 h

end Completes

/-! ### Calls -/

theorem list?_partsValue {part : α → Model} {use : Value → Option α}
    (h : ∀ a, use (.model (part a)) = some a) (xs : List α) :
    Value.list? use (partsValue part xs) = some xs :=
  list?_map fun a _ => h a

theorem list?_textsValue (texts : List Text) :
    Value.list? Value.text? (textsValue texts) = some texts :=
  list?_map fun _ _ => rfl

theorem construct_primitive (p : Primitive) :
    construct .primitiveType [("name", .text p.name)] = some (.typeExpr (.primitive p)) := by
  simp [construct, Arguments.required, Ordered.get?_cons, Script.primitive?_name]

theorem construct_reference (name : Text) (generics : List TypeExpr) :
    construct .definedType [("name", .text name), ("generics", partsValue .typeExpr generics)] =
      some (.typeExpr (.defined name generics)) := by
  have hgenerics : Value.list? Value.typeExpr? (partsValue .typeExpr generics) = some generics :=
    list?_partsValue (fun _ => rfl) generics
  simp [construct, Arguments.required, Arguments.defaulted, Ordered.get?_cons, Value.text?,
    hgenerics]

theorem construct_field (name : Text) (type : TypeExpr) (docs : List Text) :
    construct .fieldDef [("name", .text name), ("type", .model (.typeExpr type)),
      ("docs", textsValue docs)] = some (.field ⟨name, type, docs⟩) := by
  simp [construct, Arguments.required, Arguments.docs, Arguments.defaulted, Ordered.get?_cons,
    Value.text?, Value.typeExpr?, Value.model?, list?_textsValue]

theorem construct_namedVariant (name : Text) (fields : List Field) :
    construct .enumVariant [("name", .text name), ("fields", partsValue .field fields)] =
      some (.variant ⟨name, fields, []⟩) := by
  have hfields : Value.list? Value.field? (partsValue .field fields) = some fields :=
    list?_partsValue (fun _ => rfl) fields
  simp [construct, Arguments.required, Arguments.defaulted, Ordered.get?_cons, Value.text?,
    hfields]

theorem construct_positionalVariant (name : Text) (types : List TypeExpr) :
    construct .enumVariant [("name", .text name), ("items", partsValue .typeExpr types)] =
      some (.variant ⟨name, [], types⟩) := by
  have htypes : Value.list? Value.typeExpr? (partsValue .typeExpr types) = some types :=
    list?_partsValue (fun _ => rfl) types
  simp [construct, Arguments.required, Arguments.defaulted, Ordered.get?_cons, Value.text?,
    htypes]

/-- The call for a container completes it after its element. -/
theorem builds_container {callee : Constructor} {shape : Container}
    (h : ∀ arguments, construct callee arguments = constructContainer shape arguments)
    (element : TypeExpr) :
    Builds (before ++ element.parts) (fun t => before ++ t.parts) (callContainer callee element)
      (.ok (.container shape element)) := by
  refine .call (.typeExpr (.container shape element)) ?_ rfl (List.append_assoc ..).symm
  rw [h]
  rfl

/-! ### The builders without the sizes of their items -/

theorem buildType_of_kind {members : Members} {kind : Json} (h : members.get? "kind" = some kind)
    (place : Place) : buildType place (.obj members) = buildShape place kind members := by
  rw [buildType.eq_def]
  simp only [h]

/-! ### Type expressions, fields and variants -/

theorem sizeOf_lt_obj (members : Members) : sizeOf members < sizeOf (Json.obj members) := by
  simp

mutual

theorem builds_type (place : Place) (raw : Json) :
    Completes TypeExpr.parts (buildType place raw) (readType place raw) := by
  intro before
  match raw with
  | .str t =>
    rw [buildType.eq_def, readType.eq_def]
    dsimp only
    cases primitive? t with
    | some p => exact .call _ (construct_primitive p) rfl rfl
    | none => exact .error _
  | .obj members =>
    cases hk : Ordered.get? members "kind" with
    | some kind =>
      rw [buildType_of_kind hk, readType_of_kind hk]
      exact builds_shape place members kind before
    | none =>
      match members with
      | [(key, value)] =>
        rw [readType_single _ _ _ hk, buildType.eq_def]
        simp only [hk]
        split
        · exact (builds_type _ value before).map (builds_container fun _ => rfl)
        split
        · exact (builds_type _ value before).map (builds_container fun _ => rfl)
        split
        · exact (builds_type _ value before).map (builds_container fun _ => rfl)
        split
        · exact builds_array _ value before
        split
        · exact builds_defined _ value before
        · exact .error _
      | [] | _ :: _ :: _ =>
        rw [buildType.eq_def, readType.eq_def]
        simp only [hk]
        exact .error _
  | .null | .bool _ | .int _ | .float _ | .arr _ =>
    rw [buildType.eq_def, readType.eq_def]
    exact .error _
termination_by sizeOf raw
decreasing_by all_goals simp; try omega

theorem builds_array (place : Place) (raw : Json) :
    Completes TypeExpr.parts (buildArray place raw) (readArray place raw) := by
  intro before
  rw [buildArray.eq_def]
  split
  · next element length =>
    split
    · next n =>
      rw [readArray]
      exact (builds_type _ element before).map fun t =>
        .call (.typeExpr (.array t n)) rfl rfl (List.append_assoc ..).symm
    · next h =>
      rw [readArray]
      · exact .error _
      · exact h
  · next h =>
    rw [readArray]
    · exact .error _
    · exact h
termination_by sizeOf raw
decreasing_by subst_vars; simp; omega

theorem builds_defined (place : Place) (raw : Json) :
    Completes TypeExpr.parts (buildDefined place raw) (readDefined place raw) := by
  intro before
  match raw with
  | .str (c :: rest) =>
    rw [buildDefined, readDefined]
    exact .call (.typeExpr (.defined (c :: rest) [])) rfl rfl rfl
  | .obj members =>
    rw [buildDefined, readDefined_obj]
    refine (Builds.reading _).bind fun name _ => ?_
    refine .sizedItems fun xs => ?_
    rw [each_map]
    refine (Completes.each TypeExpr.parts (fun i x _ => ?_) before).bind fun generics _ => ?_
    · obtain ⟨x, hx⟩ := x
      exact builds_generic _ x
    · exact .call _ (construct_reference name generics) rfl (by simp [TypeExpr.parts])
  | .null | .bool _ | .int _ | .float _ | .arr _ | .str [] =>
    rw [buildDefined.eq_def, readDefined.eq_def]
    exact .error _
termination_by sizeOf raw
decreasing_by simp; omega

theorem builds_generic (place : Place) (raw : Json) :
    Completes TypeExpr.parts (buildGeneric place raw) (readGeneric place raw) := by
  intro before
  match raw with
  | .obj members =>
    rw [buildGeneric, readGeneric]
    cases Members.find members "type" with
    | none => exact .error _
    | some found =>
      obtain ⟨type, htype⟩ := found
      dsimp only
      split
      · exact builds_type _ type before
      · exact .error _
  | .null | .bool _ | .int _ | .float _ | .arr _ | .str _ =>
    rw [buildGeneric.eq_def, readGeneric.eq_def]
    exact .error _
termination_by sizeOf raw
decreasing_by simp; omega

theorem builds_shape (place : Place) (members : Members) (kind : Json) :
    Completes TypeExpr.parts (buildShape place kind members) (readShape place kind members) := by
  intro before
  rw [buildShape]
  by_cases hs : kind = .str "struct"
  · subst hs
    rw [if_pos rfl, readShape_struct]
    refine .sizedItems fun xs => ?_
    rw [each_map]
    refine (Completes.each Field.parts (fun i x _ => ?_) before).bind fun fields _ =>
      .call _ (construct_struct fields) rfl (by simp [TypeExpr.parts])
    obtain ⟨x, hx⟩ := x
    cases x with
    | obj field =>
      have hfield := Nat.lt_trans (sizeOf_lt_obj field) hx
      exact builds_field _ field
    | _ => exact fun _ => .error _
  by_cases he : kind = .str "enum"
  · subst he
    rw [if_neg hs, if_pos rfl, readShape_enum]
    refine .sizedItems fun xs => ?_
    rw [each_map]
    refine (Completes.each Variant.parts (fun i x _ => ?_) before).bind fun variants _ =>
      .call _ (construct_enum variants) rfl (by simp [TypeExpr.parts])
    obtain ⟨x, hx⟩ := x
    exact builds_variant _ x
  by_cases ht : kind = .str "type"
  · subst ht
    rw [if_neg hs, if_neg he, if_pos rfl, readShape, if_neg hs, if_neg he, if_pos rfl]
    cases Members.find members "alias" with
    | none => exact .error _
    | some found =>
      obtain ⟨target, htarget⟩ := found
      exact builds_type _ target before
  · rw [if_neg hs, if_neg he, if_neg ht, readShape, if_neg hs, if_neg he, if_neg ht]
    exact .error _
termination_by sizeOf members

theorem builds_field (place : Place) (members : Members) :
    Completes Field.parts (buildField place members) (readField place members) := by
  intro before
  rw [buildField, readField]
  refine (Builds.reading _).bind fun name _ => ?_
  cases Members.find members "type" with
  | none => exact .error _
  | some found =>
    obtain ⟨type, htype⟩ := found
    refine (builds_type _ type before).bind fun t _ => ?_
    exact (Builds.reading _).bind fun docs _ =>
      .call _ (construct_field name t docs) rfl (List.append_assoc ..).symm
termination_by sizeOf members

theorem builds_variant (place : Place) (raw : Json) :
    Completes Variant.parts (buildVariant place raw) (readVariant place raw) := by
  intro before
  match raw with
  | .obj members =>
    rw [buildVariant, readVariant_obj]
    refine (Builds.reading _).bind fun name _ => ?_
    refine .sizedItems fun xs => ?_
    have hall : (xs.map Subtype.val).all isNamed = xs.all fun x => isNamed x.val := List.all_map
    have hany : (xs.map Subtype.val).any isNamed = xs.any fun x => isNamed x.val := List.any_map
    rw [hall, hany, each_map, each_map]
    cases xs with
    | nil =>
      change Builds before _ (call .enumVariant Value.variant? [("name", .text name)])
        (.ok ⟨name, [], []⟩)
      exact .call (.variant ⟨name, [], []⟩) rfl rfl rfl
    | cons first rest =>
      rw [List.isEmpty_cons, if_neg Bool.false_ne_true]
      split
      · refine (Completes.each Field.parts (fun i x _ => ?_) before).bind fun fields _ =>
          .call _ (construct_namedVariant name fields) rfl (by simp [Variant.parts])
        obtain ⟨x, hx⟩ := x
        cases x with
        | obj field =>
          have hfield := Nat.lt_trans (sizeOf_lt_obj field) hx
          exact builds_field _ field
        | _ => exact fun _ => .error _
      split
      · exact .error _
      · refine (Completes.each TypeExpr.parts (fun i x _ => ?_) before).bind fun types _ =>
          .call _ (construct_positionalVariant name types) rfl (by simp [Variant.parts])
        obtain ⟨x, hx⟩ := x
        exact builds_type _ x
  | .null | .bool _ | .int _ | .float _ | .arr _ | .str _ =>
    rw [buildVariant.eq_def, readVariant.eq_def]
    exact .error _
termination_by sizeOf raw
decreasing_by all_goals simp; omega

end

end Document
end AnchorIdl
