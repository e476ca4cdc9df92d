/-
# Type expressions are lowered to expressions that denote them

Lowering a type expression builds an expression and adds helpers for the parts
that nest too deep.  `Helpers` says what the helpers are: the helper with number
`k` denotes the type expression with number `k`, given the helpers before it.
`Lowers x P` says that `x` keeps this so while it adds helpers, and that what it
builds has `P` then and ever after.

What is built denotes the type expression that it was built from, wherever it is
put (`Lowers.place`), so the functions that lower types, fields and variants are
followed case by case (`lowers_type` and its companions).  The numbers of open
brackets add up like this:

| where | open brackets |
| --- | --- |
| a type expression that is no helper | at most 99 |
| a variant of it | two more |
| a field of the variant | two more |
| the documentation of the field | two more, the last for its items |
-/

import AnchorIdl.Proofs.Bindings.Denotation
import AnchorIdl.Proofs.Bindings.Names
import AnchorIdl.Schema.Integers
import AnchorIdl.Proofs.Script.Call
import AnchorIdl.Proofs.Script.Execution

namespace AnchorIdl
namespace Bindings

open Script

variable {binding : Text} {allowed : Int → Prop}

/-! ### Helpers -/

/-- Helpers under their names, each of which denotes a type expression after those before it. -/
inductive Helpers (binding : Text) (allowed : Int → Prop) : List Helper → List TypeExpr → Prop
  | nil : Helpers binding allowed [] []
  | snoc {helpers : List Helper} {types : List TypeExpr} {e : Expr} {t : TypeExpr}
      (start : Helpers binding allowed helpers types)
      (last : Denotes binding allowed types 0 e (.model (.typeExpr t))) :
      Helpers binding allowed (helpers ++ [(helperName binding helpers.length, e)]) (types ++ [t])

theorem Helpers.length_eq {helpers : List Helper} {types : List TypeExpr}
    (h : Helpers binding allowed helpers types) : helpers.length = types.length := by
  induction h with
  | nil => rfl
  | snoc _ _ ih => rw [List.length_append, List.length_append, ih]; rfl

/-- A step that only adds helpers; what it builds has a property from then on. -/
def Lowers (binding : Text) (allowed : Int → Prop) {α : Type} (x : Lowering α)
    (P : List TypeExpr → α → Prop) : Prop :=
  ∀ draft types, Helpers binding allowed draft.helpers types →
    ∃ more, Helpers binding allowed (x.run draft).2.helpers (types ++ more) ∧
      ∀ later, P (types ++ more ++ later) (x.run draft).1

/-- A step that adds no helper. -/
theorem Lowers.still {α : Type} {x : Lowering α} {a : α} {P : List TypeExpr → α → Prop}
    (hrun : ∀ draft, (x.run draft).1 = a ∧ (x.run draft).2.helpers = draft.helpers)
    (h : ∀ types, P types a) : Lowers binding allowed x P := by
  intro draft types hhelpers
  obtain ⟨hbuilt, hkept⟩ := hrun draft
  refine ⟨[], ?_, fun later => ?_⟩
  · rw [hkept, List.append_nil]
    exact hhelpers
  · rw [hbuilt]
    exact h _

theorem Lowers.pure {α : Type} {a : α} {P : List TypeExpr → α → Prop} (h : ∀ types, P types a) :
    Lowers binding allowed (Pure.pure a) P :=
  .still (fun _ => ⟨rfl, rfl⟩) h

theorem Lowers.call {layout : Layout} {callee : Constructor} {arguments : List (Text × Expr)}
    {P : List TypeExpr → Expr → Prop} (h : ∀ types, P types (.call layout callee arguments)) :
    Lowers binding allowed (Bindings.call layout callee arguments) P :=
  .still (fun _ => ⟨rfl, rfl⟩) h

theorem Lowers.record {e : Expr} {P : List TypeExpr → Expr → Prop} (h : ∀ types, P types e) :
    Lowers binding allowed (Bindings.record e) P :=
  .still (fun draft => ⟨rfl, draft.helpers_useAll e.callees⟩) h

theorem Lowers.bind {α β : Type} {x : Lowering α} {f : α → Lowering β}
    {P : List TypeExpr → α → Prop} {Q : List TypeExpr → β → Prop}
    (hx : Lowers binding allowed x P)
    (hf : ∀ a, Lowers binding allowed (f a) fun types b => P types a → Q types b) :
    Lowers binding allowed (x >>= f) Q := by
  intro draft types hhelpers
  obtain ⟨more, hmore, hP⟩ := hx draft types hhelpers
  obtain ⟨rest, hrest, hQ⟩ := hf (x.run draft).1 (x.run draft).2 _ hmore
  refine ⟨more ++ rest, ?_, fun later => ?_⟩
  · rw [← List.append_assoc]
    exact hrest
  · have hbuilt := hP (rest ++ later)
    rw [← List.append_assoc] at hbuilt
    rw [← List.append_assoc]
    exact hQ later hbuilt

theorem Lowers.mapM {α β γ : Type} {f : α → Lowering β} {g : α → γ}
    {R : List TypeExpr → β → γ → Prop} {xs : List α}
    (h : ∀ x ∈ xs, Lowers binding allowed (f x) fun types b => R types b (g x)) :
    Lowers binding allowed (xs.mapM f) fun types bs => List.Forall₂ (R types) bs (xs.map g) := by
  induction xs with
  | nil =>
    rw [List.mapM_nil]
    exact .pure fun _ => .nil
  | cons x xs ih =>
    rw [List.forall_mem_cons] at h
    rw [List.mapM_cons]
    exact .bind h.1 fun b => .bind (ih h.2) fun bs => .pure fun _ tail head => .cons head tail

/-- **A type expression may be put anywhere.**  It stays where it is put, or a helper for it does,
which opens no bracket. -/
theorem Lowers.place {build : Nat → Lowering Expr} {t : TypeExpr}
    (h : ∀ depth < maxNesting, Lowers binding allowed (build depth) fun types e =>
      Denotes binding allowed types depth e (.model (.typeExpr t))) (depth : Nat) :
    Lowers binding allowed (place binding depth build) fun types e =>
      Denotes binding allowed types depth e (.model (.typeExpr t)) := by
  unfold Bindings.place
  split
  · next hdepth => exact h depth hdepth
  · intro draft types hhelpers
    obtain ⟨more, hmore, hbuilt⟩ := h 0 (by decide) draft types hhelpers
    have hnow := hbuilt []
    rw [List.append_nil] at hnow
    -- The helpers of its parts stand before the new helper, which gets the next number.
    refine ⟨more ++ [t], ?_, fun later => ⟨fun env henv _ => ?_, fun n _ => ?_⟩⟩
    · rw [← List.append_assoc]
      exact hmore.snoc hnow
    · refine henv.helpers _ t ?_
      change (types ++ (more ++ [t]) ++ later)[((build 0).run draft).2.helpers.length]? = some t
      rw [hmore.length_eq, ← List.append_assoc, List.append_assoc _ [t]]
      simp
    · exact .name n (isName_helperName _ _)

/-! ### Lists that may be left out -/

/-- The value of an argument that is left out if its list is empty. -/
def listValue (key : Text) : List Value → Arguments
  | [] => []
  | items => [(key, .list items)]

theorem sublist_listValue (key : Text) (vs : List Value) :
    ((listValue key vs).map Prod.fst).Sublist [key] := by
  cases vs with
  | nil => exact List.nil_sublist _
  | cons v vs => exact .refl _

theorem docsArgument_eq (docs : List Text) :
    docsArgument docs = listArgument "docs" (docs.map .text) := by
  cases docs <;> rfl

variable {types : List TypeExpr} {depth : Nat}

theorem given_listArgument (key : Text) {items : List Expr} {vs : List Value}
    (hd : depth + 1 ≤ maxDepth)
    (h : List.Forall₂ (Denotes binding allowed types (depth + 1)) items vs) :
    List.Forall₂ (Given binding allowed types depth) (listArgument key items)
      (listValue key vs) := by
  cases h with
  | nil => exact .nil
  | cons head tail => exact .cons (.of (.list hd (.cons head tail) .line)) .nil

theorem given_docsArgument (hd : depth + 1 ≤ maxDepth) (docs : List Text) :
    List.Forall₂ (Given binding allowed types depth) (docsArgument docs)
      (listValue "docs" (docs.map .text)) := by
  rw [docsArgument_eq]
  refine given_listArgument "docs" hd ?_
  rw [List.forall₂_map_left_iff, List.forall₂_map_right_iff, List.forall₂_same]
  exact fun t _ => .text t

/-! ### What calls yield -/

theorem get?_listValue_of_ne {key other : Text} (h : other ≠ key) (vs : List Value) :
    Ordered.get? (listValue key vs) other = none := by
  cases vs with
  | nil => rfl
  | cons v vs => simp [listValue, Ordered.get?_cons, h]

theorem defaulted_listValue {α : Type} {use : Value → Option α} {f : α → Value} {xs : List α}
    (h : ∀ x ∈ xs, use (f x) = some x) {arguments : Arguments} {key : Text}
    (hget : arguments.get? key = (listValue key (xs.map f)).get? key) :
    arguments.defaulted key [] (Value.list? use) = some xs := by
  unfold Arguments.defaulted
  rw [hget]
  cases xs with
  | nil => rfl
  | cons x xs =>
    have hlist := list?_map h
    simpa [listValue, Ordered.get?_cons] using hlist

/-- Documentation is found behind arguments of other names. -/
theorem docs_append (start : Arguments) (h : start.get? "docs" = none) (docs : List Text) :
    Arguments.docs (start ++ listValue "docs" (docs.map .text)) = some docs := by
  refine defaulted_listValue (f := .text) (fun _ _ => rfl) ?_
  rw [Ordered.get?_append, h, Option.none_or]

/-- The value of a type expression. -/
abbrev typeValue (t : TypeExpr) : Value := .model (.typeExpr t)

/-- The value of a field. -/
abbrev fieldValue (f : Field) : Value := .model (.field f)

/-- The value of a variant. -/
abbrev variantValue (v : Variant) : Value := .model (.variant v)

theorem construct_defined (name : Text) (generics : List TypeExpr) :
    construct .definedType (("name", .text name) :: listValue "generics" (generics.map typeValue)) =
      some (.typeExpr (.defined name generics)) := by
  have hgenerics := @defaulted_listValue _ Value.typeExpr? typeValue generics (fun _ _ => rfl)
    (("name", .text name) :: listValue "generics" (generics.map typeValue)) "generics"
    (by simp [Ordered.get?_cons])
  simp only [construct, hgenerics]
  rfl

theorem construct_field (name : Text) (t : TypeExpr) (docs : List Text) :
    construct .fieldDef
        (("name", .text name) :: ("type", typeValue t) :: listValue "docs" (docs.map .text)) =
      some (.field ⟨name, t, docs⟩) := by
  have hdocs := docs_append [("name", .text name), ("type", typeValue t)] rfl docs
  rw [List.cons_append, List.singleton_append] at hdocs
  simp only [construct, hdocs]
  rfl

theorem construct_variant (name : Text) (fields : List Field) (items : List TypeExpr) :
    construct .enumVariant (("name", .text name) ::
        (listValue "fields" (fields.map fieldValue) ++
          listValue "items" (items.map typeValue))) =
      some (.variant ⟨name, fields, items⟩) := by
  have hfields := @defaulted_listValue _ Value.field? fieldValue fields (fun _ _ => rfl)
    (("name", .text name) :: (listValue "fields" (fields.map fieldValue) ++
          listValue "items" (items.map typeValue))) "fields"
    (by simp [Ordered.get?_cons, Ordered.get?_append, get?_listValue_of_ne])
  have hitems := @defaulted_listValue _ Value.typeExpr? typeValue items (fun _ _ => rfl)
    (("name", .text name) :: (listValue "fields" (fields.map fieldValue) ++
          listValue "items" (items.map typeValue))) "items"
    (by simp [Ordered.get?_cons, Ordered.get?_append, get?_listValue_of_ne])
  simp only [construct, hfields, hitems]
  rfl

/-! ### Types, fields and variants -/

variable (binding) (allowed)

mutual

/-- **The call for a type expression denotes it,** wherever it stands inside fewer than
`maxNesting` brackets. -/
theorem lowers_type : ∀ (t : TypeExpr), (∀ n ∈ t.integers, allowed n) → ∀ depth < maxNesting,
    Lowers binding allowed (lowerType binding t depth) fun types e =>
      Denotes binding allowed types depth e (typeValue t)
  | .primitive p, _, depth, hd => by
    have hopen := add_le_maxDepth hd
    unfold lowerType
    refine .call fun types => .call (by omega) (.cons (.of (.text p.name)) .nil) (.refl _) ?_ .line
    simp [construct, Arguments.required, Ordered.get?_cons, primitive?_name]
  | .array element length, h, depth, hd => by
    have hopen := add_le_maxDepth hd
    unfold lowerType
    have h : allowed length ∧ ∀ n ∈ element.integers, allowed n := by
      simpa [TypeExpr.integers] using h
    refine .bind (.place (lowers_type element h.2) (depth + 1)) fun e => ?_
    refine .call fun types he => .call (by omega)
      (.cons (.of he) (.cons (.of (.int h.1)) .nil)) (.refl _) rfl .line
  | .container shape element, h, depth, hd => by
    have hopen := add_le_maxDepth hd
    unfold lowerType
    refine .bind (.place (lowers_type element h) (depth + 1)) fun e => ?_
    refine .call fun types he => .call (by omega) (.cons (.of he) .nil) ?_ ?_ .line
    · cases shape <;> exact .refl _
    · cases shape <;> rfl
  | .defined name generics, h, depth, hd => by
    have hopen := add_le_maxDepth hd
    unfold lowerType
    refine .bind (lowers_types generics h (depth + 2)) fun es => ?_
    refine .call fun types hes => ?_
    have hgiven : List.Forall₂ (Given binding allowed types (depth + 1))
        (("name", .text name) :: listArgument "generics" es)
        (("name", .text name) :: listValue "generics" (generics.map typeValue)) :=
      .cons (.of (.text name)) (given_listArgument "generics" (by omega) hes)
    refine .call (by omega) hgiven ?_ (construct_defined name generics) .line
    exact (sublist_listValue _ _).cons_cons _
  | .struct fields, h, depth, hd => by
    have hopen := add_le_maxDepth hd
    unfold lowerType
    refine .bind (lowers_fields fields h (depth + 2) (by omega)) fun es => ?_
    exact .call fun types hes => .call (by omega) (.cons (.of (.list (by omega) hes .line)) .nil)
      (.refl _) (construct_struct fields) .line
  | .enum variants, h, depth, hd => by
    have hopen := add_le_maxDepth hd
    unfold lowerType
    refine .bind (lowers_variants variants h (depth + 2) (by omega)) fun es => ?_
    exact .call fun types hes => .call (by omega) (.cons (.of (.list (by omega) hes .line)) .nil)
      (.refl _) (construct_enum variants) .line

theorem lowers_types : ∀ (ts : List TypeExpr), (∀ n ∈ typesIntegers ts, allowed n) → ∀ depth,
    Lowers binding allowed (lowerTypes binding ts depth) fun types es =>
      List.Forall₂ (Denotes binding allowed types depth) es (ts.map typeValue)
  | [], _, _ => .pure fun _ => .nil
  | t :: rest, h, depth => by
    unfold lowerTypes
    rw [typesIntegers, List.forall_mem_append] at h
    refine .bind (.place (lowers_type t h.1) depth) fun e => ?_
    refine .bind (lowers_types rest h.2 depth) fun es => ?_
    exact .pure fun types hes he => .cons he hes

theorem lowers_fields : ∀ (fields : List Field), (∀ n ∈ fieldsIntegers fields, allowed n) →
    ∀ depth, depth + 2 ≤ maxDepth →
      Lowers binding allowed (lowerFields binding fields depth) fun types es =>
        List.Forall₂ (Denotes binding allowed types depth) es (fields.map fieldValue)
  | [], _, _, _ => .pure fun _ => .nil
  | ⟨name, t, docs⟩ :: rest, h, depth, hd => by
    unfold lowerFields lowerField
    rw [fieldsIntegers, List.forall_mem_append] at h
    refine .bind (P := fun types e =>
      Denotes binding allowed types depth e (fieldValue ⟨name, t, docs⟩)) ?_ fun e => ?_
    · refine .bind (.place (lowers_type t h.1) (depth + 1)) fun e => ?_
      refine .call fun types he => ?_
      have hgiven : List.Forall₂ (Given binding allowed types (depth + 1))
          (("name", .text name) :: ("type", e) :: docsArgument docs)
          (("name", .text name) :: ("type", typeValue t) :: listValue "docs" (docs.map .text)) :=
        .cons (.of (.text name)) (.cons (.of he) (given_docsArgument (by omega) docs))
      refine .call (by omega) hgiven ?_ (construct_field name t docs) .line
      exact ((sublist_listValue _ _).cons_cons _).cons_cons _
    · refine .bind (lowers_fields rest h.2 depth hd) fun es => ?_
      exact .pure fun types hes he => .cons he hes

theorem lowers_variants : ∀ (variants : List Variant),
    (∀ n ∈ variantsIntegers variants, allowed n) → ∀ depth, depth + 4 ≤ maxDepth →
      Lowers binding allowed (lowerVariants binding variants depth) fun types es =>
        List.Forall₂ (Denotes binding allowed types depth) es (variants.map variantValue)
  | [], _, _, _ => .pure fun _ => .nil
  | ⟨name, fields, items⟩ :: rest, h, depth, hd => by
    unfold lowerVariants lowerVariant
    rw [variantsIntegers, List.forall_mem_append, List.forall_mem_append] at h
    refine .bind (P := fun types e =>
      Denotes binding allowed types depth e (variantValue ⟨name, fields, items⟩)) ?_ fun e => ?_
    · refine .bind (lowers_fields fields h.1.1 (depth + 2) (by omega)) fun fs => ?_
      refine .bind (lowers_types items h.1.2 (depth + 2)) fun ts => ?_
      refine .call fun types hts hfs => ?_
      have hlists := List.rel_append (given_listArgument "fields" (by omega) hfs)
        (given_listArgument "items" (by omega) hts)
      refine .call (by omega) (.cons (.of (.text name)) hlists) ?_
        (construct_variant name fields items) .line
      rw [List.map_cons, List.map_append]
      exact ((sublist_listValue _ _).append (sublist_listValue _ _)).cons_cons _
    · refine .bind (lowers_variants rest h.2 depth hd) fun es => ?_
      exact .pure fun types hes he => .cons he hes

end

end Bindings
end AnchorIdl
