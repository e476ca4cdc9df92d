/-
# The integers of a loaded schema are those of its document

Loading computes with no number: every array length and every error code of a
loaded schema stands in the document (`integers_of_load`).
-/

import AnchorIdl.Proofs.Document.Form
import AnchorIdl.Proofs.Json.Integers
import AnchorIdl.Schema.Integers

namespace AnchorIdl

namespace Document

theorem append_subset_append {as bs cs ds : List Int} (h : as ⊆ cs) (h' : bs ⊆ ds) :
    as ++ bs ⊆ cs ++ ds :=
  List.append_subset.2 ⟨List.subset_append_of_subset_left _ h,
    List.subset_append_of_subset_right _ h'⟩

theorem integers_of_get? {members : Members} {key : Text} {x : Json}
    (h : members.get? key = some x) : x.integers ⊆ membersIntegers members := by
  induction members with
  | nil => simp at h
  | cons m rest ih =>
    obtain ⟨k, y⟩ := m
    rw [Ordered.get?_cons] at h
    rw [membersIntegers]
    split at h
    · obtain rfl := Option.some.inj h
      exact List.subset_append_left _ _
    · exact List.subset_append_of_subset_right _ (ih h)

theorem ListMember.integers {members : Members} {key : Text} {list : List Json}
    (h : ListMember members key list) : itemsIntegers list ⊆ membersIntegers members := by
  rcases h with h | ⟨_, rfl⟩
  · exact integers_of_get? (given?_eq_some_iff.1 h).1
  · exact List.nil_subset _

mutual

theorem TypeForm.integers {raw : Json} {t : TypeExpr} :
    TypeForm raw t → t.integers ⊆ raw.integers
  | .primitive _ | .publicKey | .name _ => List.nil_subset _
  | .container shape element => by
    have h := element.integers
    simpa [TypeExpr.integers, Json.integers, membersIntegers] using h
  | .array element length => by
    have h := element.integers
    simp only [TypeExpr.integers, Json.integers, membersIntegers, itemsIntegers, List.append_nil]
    exact List.cons_subset.2 ⟨by simp, List.subset_append_of_subset_left _ h⟩
  | .reference _ hl hg => by
    have h := List.Subset.trans hg.integers hl.integers
    simpa [TypeExpr.integers, Json.integers, membersIntegers] using h
  | .struct _ hl hf => List.Subset.trans hf.integers hl.integers
  | .enum _ hl hv => List.Subset.trans hv.integers hl.integers
  | .alias _ ha target => List.Subset.trans target.integers (integers_of_get? ha)

theorem TypeForms.integers {list : List Json} {types : List TypeExpr} :
    TypeForms list types → typesIntegers types ⊆ itemsIntegers list
  | .nil => List.nil_subset _
  | .cons head tail => append_subset_append head.integers tail.integers

theorem GenericForm.integers {raw : Json} {t : TypeExpr} :
    GenericForm raw t → t.integers ⊆ raw.integers
  | .mk _ ht type => List.Subset.trans type.integers (integers_of_get? ht)

theorem GenericForms.integers {list : List Json} {types : List TypeExpr} :
    GenericForms list types → typesIntegers types ⊆ itemsIntegers list
  | .nil => List.nil_subset _
  | .cons head tail => append_subset_append head.integers tail.integers

theorem FieldForm.integers {raw : Json} {f : Field} :
    FieldForm raw f → f.type.integers ⊆ raw.integers
  | .mk _ ht type _ => List.Subset.trans type.integers (integers_of_get? ht)

theorem FieldForms.integers {list : List Json} {fields : List Field} :
    FieldForms list fields → fieldsIntegers fields ⊆ itemsIntegers list
  | .nil => List.nil_subset _
  | @FieldForms.cons _ _ ⟨_, _, _⟩ _ head tail => append_subset_append head.integers tail.integers

theorem VariantForm.integers {raw : Json} {v : Variant} :
    VariantForm raw v → fieldsIntegers v.fields ++ typesIntegers v.items ⊆ raw.integers
  | .named _ hl hf => by
    simpa [typesIntegers, Json.integers] using List.Subset.trans hf.integers hl.integers
  | .positional _ hl _ ht => by
    simpa [fieldsIntegers, Json.integers] using List.Subset.trans ht.integers hl.integers

theorem VariantForms.integers {list : List Json} {variants : List Variant} :
    VariantForms list variants → variantsIntegers variants ⊆ itemsIntegers list
  | .nil => List.nil_subset _
  | @VariantForms.cons _ _ ⟨_, _, _⟩ _ head tail => append_subset_append head.integers tail.integers

end

theorem ArgForm.integers {raw : Json} {a : Arg} (h : ArgForm raw a) :
    a.type.integers ⊆ raw.integers := by
  obtain ⟨_, ht, type⟩ := h
  exact List.Subset.trans type.integers (integers_of_get? ht)

/-- What each entry holds is held by the items that denote the entries. -/
theorem integers_of_forall₂ {α : Type} {R : Json → α → Prop} {f : α → List Int} {list : List Json}
    {xs : List α} (h : List.Forall₂ R list xs) (hR : ∀ raw x, R raw x → f x ⊆ raw.integers) :
    xs.flatMap f ⊆ itemsIntegers list := by
  induction h with
  | nil => exact List.nil_subset _
  | cons head _ ih => exact append_subset_append (hR _ _ head) ih

theorem SectionForm.integers {α : Type} {R : Json → α → Prop} {f : α → List Int}
    {document : Members} {key : Text} {xs : List α} (h : SectionForm R document key xs)
    (hR : ∀ raw x, R raw x → f x ⊆ raw.integers) : xs.flatMap f ⊆ membersIntegers document := by
  obtain ⟨list, hl, hxs⟩ := h
  exact List.Subset.trans (integers_of_forall₂ hxs hR) hl.integers

theorem DocumentForm.integers {document : Members} {S : Schema} (h : DocumentForm document S) :
    S.integers ⊆ (Json.obj document).integers := by
  have hinstructions := h.instructions.integers
    (f := fun x => x.args.flatMap fun a => a.type.integers) fun raw x hx => by
      obtain ⟨_, _, _, hl, each, _, _, _⟩ := hx
      exact List.Subset.trans (integers_of_forall₂ each fun _ _ => ArgForm.integers) hl.integers
  have herrors := h.errors.integers (f := fun e => [e.code]) fun raw e he => by
    obtain ⟨hc, _, _, _⟩ := he
    exact integers_of_get? hc
  have htypes := h.types.integers (f := fun d => d.type.integers) fun raw d hd => by
    obtain ⟨_, ht, type, _⟩ := hd
    exact List.Subset.trans type.integers (integers_of_get? ht)
  rw [← List.map_eq_flatMap] at herrors
  exact List.append_subset.2 ⟨List.append_subset.2 ⟨hinstructions, herrors⟩, htypes⟩

/-- **A loaded schema holds no integer that its document does not hold.** -/
theorem integers_of_load {strict : Bool} {raw : Json} {S : Schema}
    (h : (load strict (.value raw)).outcome = .ok S) : S.integers ⊆ raw.integers := by
  obtain ⟨⟨document, rfl, hS⟩, _⟩ := load_eq_ok_iff.1 h
  exact hS.integers

end Document
end AnchorIdl
