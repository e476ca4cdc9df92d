/-
# The references in a type expression

A type expression refers to a custom type by a node that holds its name.  The
node may stand anywhere: below arrays and containers, in the type arguments of
another reference, in the fields of a struct, and in the named fields or the
types by position of a variant (`Refers`).  `references` lists the names of these
nodes, a node before what stands in it and everything from left to right, named
fields before types by position.

The walk that collects names carries the list of those seen so far.  What it
adds to that list are the references that are not in it, without the later
copies (`addDefined_eq`), so it collects the references without their later
copies (`definedNames_eq`).
-/

import AnchorIdl.Schema.TypeExpr
import Mathlib.Data.List.Basic

namespace AnchorIdl

/-- A name is that of a reference in a type expression, at any depth. -/
inductive TypeExpr.Refers (N : Text) : TypeExpr → Prop
  | here {generics : List TypeExpr} : Refers N (.defined N generics)
  | generic {name : Text} {generics : List TypeExpr} {t : TypeExpr} (ht : t ∈ generics)
      (h : Refers N t) : Refers N (.defined name generics)
  | element {t : TypeExpr} {length : Nat} (h : Refers N t) : Refers N (.array t length)
  | content {shape : Container} {t : TypeExpr} (h : Refers N t) : Refers N (.container shape t)
  | field {fields : List Field} {f : Field} (hf : f ∈ fields) (h : Refers N f.type) :
      Refers N (.struct fields)
  | namedField {variants : List Variant} {v : Variant} {f : Field} (hv : v ∈ variants)
      (hf : f ∈ v.fields) (h : Refers N f.type) : Refers N (.enum variants)
  | item {variants : List Variant} {v : Variant} {t : TypeExpr} (hv : v ∈ variants)
      (ht : t ∈ v.items) (h : Refers N t) : Refers N (.enum variants)

mutual

/-- The names of the references in a type expression, in the order in which they are met. -/
def TypeExpr.references : TypeExpr → List Text
  | .primitive _ => []
  | .array element _ => element.references
  | .container _ element => element.references
  | .defined name generics => name :: typesReferences generics
  | .struct fields => fieldsReferences fields
  | .enum variants => variantsReferences variants

/-- The names of the references in some type expressions. -/
def typesReferences : List TypeExpr → List Text
  | [] => []
  | t :: rest => t.references ++ typesReferences rest

/-- The names of the references in some fields. -/
def fieldsReferences : List Field → List Text
  | [] => []
  | ⟨_, type, _⟩ :: rest => type.references ++ fieldsReferences rest

/-- The names of the references in some variants. -/
def variantsReferences : List Variant → List Text
  | [] => []
  | ⟨_, fields, items⟩ :: rest =>
    fieldsReferences fields ++ typesReferences items ++ variantsReferences rest

end

theorem mem_typesReferences {N : Text} {types : List TypeExpr} {t : TypeExpr} (ht : t ∈ types)
    (h : N ∈ t.references) : N ∈ typesReferences types := by
  induction ht with
  | head => exact List.mem_append_left _ h
  | tail _ _ ih => exact List.mem_append_right _ ih

theorem mem_fieldsReferences {N : Text} {fields : List Field} {f : Field} (hf : f ∈ fields)
    (h : N ∈ f.type.references) : N ∈ fieldsReferences fields := by
  induction hf with
  | head =>
    obtain ⟨_, _, _⟩ := f
    exact List.mem_append_left _ h
  | tail first _ ih =>
    obtain ⟨_, _, _⟩ := first
    exact List.mem_append_right _ ih

theorem mem_variantsReferences {N : Text} {variants : List Variant} {v : Variant}
    (hv : v ∈ variants) (h : N ∈ fieldsReferences v.fields ++ typesReferences v.items) :
    N ∈ variantsReferences variants := by
  induction hv with
  | head =>
    obtain ⟨_, _, _⟩ := v
    exact List.mem_append_left _ h
  | tail first _ ih =>
    obtain ⟨_, _, _⟩ := first
    exact List.mem_append_right _ ih

namespace TypeExpr

theorem mem_references_of_refers {N : Text} {t : TypeExpr} (h : Refers N t) : N ∈ t.references := by
  induction h with
  | here => exact List.mem_cons_self ..
  | generic ht _ ih => exact List.mem_cons_of_mem _ (mem_typesReferences ht ih)
  | element _ ih => exact ih
  | content _ ih => exact ih
  | field hf _ ih => exact mem_fieldsReferences hf ih
  | namedField hv hf _ ih =>
    exact mem_variantsReferences hv (List.mem_append_left _ (mem_fieldsReferences hf ih))
  | item hv ht _ ih =>
    exact mem_variantsReferences hv (List.mem_append_right _ (mem_typesReferences ht ih))

mutual

theorem refers_of_mem_references {N : Text} : (t : TypeExpr) → N ∈ t.references → Refers N t
  | .array element _, h => .element (refers_of_mem_references element h)
  | .container _ element, h => .content (refers_of_mem_references element h)
  | .defined name generics, h => by
    rcases List.mem_cons.1 h with rfl | h
    · exact .here
    · obtain ⟨t, ht, hN⟩ := exists_of_mem_typesReferences generics h
      exact .generic ht hN
  | .struct fields, h => by
    obtain ⟨f, hf, hN⟩ := exists_of_mem_fieldsReferences fields h
    exact .field hf hN
  | .enum variants, h => by
    obtain ⟨v, hv, ⟨f, hf, hN⟩ | ⟨t, ht, hN⟩⟩ := exists_of_mem_variantsReferences variants h
    · exact .namedField hv hf hN
    · exact .item hv ht hN

theorem exists_of_mem_typesReferences {N : Text} :
    (types : List TypeExpr) → N ∈ typesReferences types → ∃ t ∈ types, Refers N t
  | t :: rest, h => by
    rcases List.mem_append.1 h with h | h
    · exact ⟨t, List.mem_cons_self .., refers_of_mem_references t h⟩
    · obtain ⟨t, ht, hN⟩ := exists_of_mem_typesReferences rest h
      exact ⟨t, List.mem_cons_of_mem _ ht, hN⟩

theorem exists_of_mem_fieldsReferences {N : Text} :
    (fields : List Field) → N ∈ fieldsReferences fields → ∃ f ∈ fields, Refers N f.type
  | ⟨_, type, _⟩ :: rest, h => by
    rcases List.mem_append.1 h with h | h
    · exact ⟨_, List.mem_cons_self .., refers_of_mem_references type h⟩
    · obtain ⟨f, hf, hN⟩ := exists_of_mem_fieldsReferences rest h
      exact ⟨f, List.mem_cons_of_mem _ hf, hN⟩

theorem exists_of_mem_variantsReferences {N : Text} :
    (variants : List Variant) → N ∈ variantsReferences variants →
      ∃ v ∈ variants, (∃ f ∈ v.fields, Refers N f.type) ∨ ∃ t ∈ v.items, Refers N t
  | ⟨_, fields, items⟩ :: rest, h => by
    rcases List.mem_append.1 h with h | h
    · refine ⟨_, List.mem_cons_self .., ?_⟩
      rcases List.mem_append.1 h with h | h
      · exact .inl (exists_of_mem_fieldsReferences fields h)
      · exact .inr (exists_of_mem_typesReferences items h)
    · obtain ⟨v, hv, hN⟩ := exists_of_mem_variantsReferences rest h
      exact ⟨v, List.mem_cons_of_mem _ hv, hN⟩

end

/-- **The references of a type expression are the names that it refers to.** -/
theorem mem_references_iff {N : Text} {t : TypeExpr} : N ∈ t.references ↔ Refers N t :=
  ⟨refers_of_mem_references t, mem_references_of_refers⟩

/-! ### Collecting names -/

/-- The names seen so far and then those of some names that are new. -/
def addNames (seen names : List Text) : List Text :=
  names.foldl (fun seen name => if seen.contains name then seen else seen ++ [name]) seen

theorem addNames_append (seen names more : List Text) :
    addNames seen (names ++ more) = addNames (addNames seen names) more :=
  List.foldl_append ..

mutual

theorem addDefined_eq_addNames (seen : List Text) :
    (t : TypeExpr) → addDefined seen t = addNames seen t.references
  | .primitive _ => rfl
  | .array element _ => addDefined_eq_addNames seen element
  | .container _ element => addDefined_eq_addNames seen element
  | .defined _ generics => addDefinedTypes_eq_addNames _ generics
  | .struct fields => addDefinedFields_eq_addNames seen fields
  | .enum variants => addDefinedVariants_eq_addNames seen variants

theorem addDefinedTypes_eq_addNames (seen : List Text) :
    (types : List TypeExpr) → addDefinedTypes seen types = addNames seen (typesReferences types)
  | [] => rfl
  | t :: rest => by
    rw [addDefinedTypes, typesReferences, addNames_append, addDefined_eq_addNames seen t,
      addDefinedTypes_eq_addNames _ rest]

theorem addDefinedFields_eq_addNames (seen : List Text) :
    (fields : List Field) → addDefinedFields seen fields = addNames seen (fieldsReferences fields)
  | [] => rfl
  | ⟨_, type, _⟩ :: rest => by
    rw [addDefinedFields, fieldsReferences, addNames_append, addDefined_eq_addNames seen type,
      addDefinedFields_eq_addNames _ rest]

theorem addDefinedVariants_eq_addNames (seen : List Text) : (variants : List Variant) →
    addDefinedVariants seen variants = addNames seen (variantsReferences variants)
  | [] => rfl
  | ⟨_, fields, items⟩ :: rest => by
    rw [addDefinedVariants, variantsReferences, addNames_append, addNames_append,
      addDefinedFields_eq_addNames seen fields, addDefinedTypes_eq_addNames _ items,
      addDefinedVariants_eq_addNames _ rest]

end

/-- What is added to the names seen so far: the new ones, without their later copies. -/
theorem addNames_eq (seen names : List Text) :
    addNames seen names = seen ++ (names.filter fun name => !seen.contains name).eraseDups := by
  induction names generalizing seen with
  | nil => simp [addNames]
  | cons name rest ih =>
    have hstep : addNames seen (name :: rest) =
        addNames (if seen.contains name then seen else seen ++ [name]) rest := rfl
    rw [hstep]
    by_cases hseen : seen.contains name = true
    · rw [if_pos hseen, ih, List.filter_cons_of_neg (by simpa using hseen)]
    · have hrest : (rest.filter fun x => !(seen ++ [name]).contains x) =
          (rest.filter fun x => !seen.contains x).filter fun x => !x == name := by
        rw [List.filter_filter]
        refine List.filter_congr fun x _ => ?_
        by_cases hx : x = name <;> simp [hx]
      rw [if_neg hseen, ih, List.filter_cons_of_pos (by simpa using hseen), List.eraseDups_cons,
        hrest, List.append_assoc, List.singleton_append]

/-- **The collected names are the references, each at its first occurrence.** -/
theorem definedNames_eq (t : TypeExpr) : t.definedNames = t.references.eraseDups := by
  rw [definedNames, addDefined_eq_addNames, addNames_eq]
  simp

end TypeExpr
end AnchorIdl
