/-
# The schemas that documents load as

Which schemas are there for a user of the loader?  Exactly the canonical ones
(`image_load_iff`), and, with strict loading, those that are distinct besides.
An integer is bounded by what can be read from JSON; and where a value is given
that was never read, by what can be written of it in a report.

*Every loaded schema is canonical*, since every form denotes something canonical
(`TypeForm.canonical`, …, `DocumentForm.canonical`).

*Every canonical schema is loaded* from a document that is written down here
(`documentOf`).  Of the spellings that the format has for one thing it uses the
longest: members are never left out, references are objects, and byte strings
are lists.  The one ambiguity to avoid is that a type by position may not look
like a field, that is, have a member `name` (`isNamed_ofType`).
-/

import AnchorIdl.Proofs.Document.Integers
import AnchorIdl.Proofs.Schema.Canonical

namespace AnchorIdl

/-- A JSON value whose objects have no key twice, as every decoded document, and whose integers are
allowed. -/
inductive Json.Decoded (allowed : Int → Prop) : Json → Prop
  | null : Decoded allowed .null
  | bool (b : Bool) : Decoded allowed (.bool b)
  | int {n : Int} (h : allowed n) : Decoded allowed (.int n)
  | float (x : Binary64) : Decoded allowed (.float x)
  | str (t : Text) : Decoded allowed (.str t)
  | arr {list : List Json} (each : ∀ item ∈ list, Decoded allowed item) :
      Decoded allowed (.arr list)
  | obj {members : List (Text × Json)} (distinct : (members.map Prod.fst).Nodup)
      (each : ∀ m ∈ members, Decoded allowed m.2) : Decoded allowed (.obj members)

namespace Document

/-! ### What has a form is canonical -/

mutual

theorem TypeForm.canonical {raw : Json} {t : TypeExpr} : TypeForm raw t → CanonicalType t
  | .primitive p => .primitive p
  | .publicKey => .primitive .pubkey
  | .container shape element => .container shape element.canonical
  | .array element length => .array element.canonical length
  | .name hn => .defined hn (by simp)
  | .reference hn _ hg => .defined hn.2 hg.canonical
  | .struct _ _ hf => .struct hf.canonical
  | .enum _ _ hv => .enum hv.canonical
  | .alias _ _ target => target.canonical

theorem TypeForms.canonical {list : List Json} {types : List TypeExpr} :
    TypeForms list types → ∀ t ∈ types, CanonicalType t
  | .nil => by simp
  | .cons head tail => List.forall_mem_cons.2 ⟨head.canonical, tail.canonical⟩

theorem GenericForm.canonical {raw : Json} {t : TypeExpr} : GenericForm raw t → CanonicalType t
  | .mk _ _ type => type.canonical

theorem GenericForms.canonical {list : List Json} {types : List TypeExpr} :
    GenericForms list types → ∀ t ∈ types, CanonicalType t
  | .nil => by simp
  | .cons head tail => List.forall_mem_cons.2 ⟨head.canonical, tail.canonical⟩

theorem FieldForm.canonical {raw : Json} {f : Field} : FieldForm raw f → CanonicalField f
  | .mk hn _ type _ => .mk hn.2 type.canonical _

theorem FieldForms.canonical {list : List Json} {fields : List Field} :
    FieldForms list fields → ∀ f ∈ fields, CanonicalField f
  | .nil => by simp
  | .cons head tail => List.forall_mem_cons.2 ⟨head.canonical, tail.canonical⟩

theorem VariantForm.canonical {raw : Json} {v : Variant} : VariantForm raw v → CanonicalVariant v
  | .named hn _ hf => .mk hn.2 hf.canonical (by simp) (.inr rfl)
  | .positional hn _ _ ht => .mk hn.2 (by simp) ht.canonical (.inl rfl)

theorem VariantForms.canonical {list : List Json} {variants : List Variant} :
    VariantForms list variants → ∀ v ∈ variants, CanonicalVariant v
  | .nil => by simp
  | .cons head tail => List.forall_mem_cons.2 ⟨head.canonical, tail.canonical⟩

end

theorem SeedForm.canonical {raw : Json} {s : Seed} (h : SeedForm raw s) : CanonicalSeed s := by
  cases h with
  | constantText | constantBytes => exact .const _
  | string => exact .string _
  | arg _ _ nonempty => exact .arg nonempty
  | account _ _ nonempty _ => exact .account nonempty _

/-- What holds of whatever the items denote holds of every entry. -/
theorem OptionMember.forall {α : Type} {R : Json → α → Prop} {P : α → Prop} {members : Members}
    {key : Text} {x : Option α} (h : OptionMember R members key x)
    (hP : ∀ raw x, R raw x → P x) : ∀ y ∈ x, P y := by
  unfold OptionMember at h
  generalize members.given? key = given at h
  cases h with
  | none => simp
  | some h => simpa using hP _ _ h

theorem PdaForm.canonical {raw : Json} {p : Pda} (h : PdaForm raw p) : CanonicalPda p := by
  obtain ⟨hl, nonempty, hs, hp⟩ := h
  refine ⟨?_, forall_of_forall₂ hs fun _ _ => SeedForm.canonical,
    hp.forall fun _ _ => SeedForm.canonical⟩
  intro hnil
  rw [hnil] at hs
  exact nonempty (List.forall₂_nil_right_iff.1 hs)

theorem SlotForm.canonical {members : Members} {a : AccountRef} (h : SlotForm members a) :
    CanonicalSlot a :=
  ⟨h.name.2, h.pda.forall fun _ _ => PdaForm.canonical⟩

mutual

theorem SlotsForm.canonical {raw : Json} {slots : List AccountRef} :
    SlotsForm raw slots → ∀ a ∈ slots, CanonicalSlot a
  | .slot _ slot => by simpa using slot.canonical
  | .group _ _ _ hs => hs.canonical

theorem SlotsForms.canonical {list : List Json} {slots : List AccountRef} :
    SlotsForms list slots → ∀ a ∈ slots, CanonicalSlot a
  | .nil => by simp
  | .cons head tail => List.forall_mem_append.2 ⟨head.canonical, tail.canonical⟩

end

theorem AccountDefinitionForm.canonical {raw : Json} {a : AccountDefinition}
    (h : AccountDefinitionForm raw a) : CanonicalLayout a := by
  obtain ⟨slot, hd⟩ := h
  exact ⟨slot.canonical, hd.forall fun _ _ => And.right⟩

theorem ArgForm.canonical {raw : Json} {a : Arg} (h : ArgForm raw a) : CanonicalArg a := by
  obtain ⟨hn, _, type⟩ := h
  exact ⟨hn.2, type.canonical⟩

theorem InstructionForm.canonical {raw : Json} {x : Instruction} (h : InstructionForm raw x) :
    CanonicalInstruction x := by
  obtain ⟨hn, _, slots, _, each, _, hd, _⟩ := h
  exact ⟨hn.2, hd.2, slots.canonical, forall_of_forall₂ each fun _ _ => ArgForm.canonical⟩

theorem ErrorForm.canonical {raw : Json} {e : ErrorDefinition} (h : ErrorForm raw e) :
    e.name ≠ [] := by
  obtain ⟨_, hn, _, _⟩ := h
  exact hn.2

theorem TypeDefinitionForm.canonical {raw : Json} {d : TypeDefinition}
    (h : TypeDefinitionForm raw d) : CanonicalTypeDefinition d := by
  obtain ⟨hn, _, type, _⟩ := h
  exact ⟨hn.2, type.canonical⟩

theorem DocumentForm.canonical {document : Members} {S : Schema} (h : DocumentForm document S) :
    S.Canonical := by
  obtain ⟨_, _, ⟨_, _, hi⟩, ⟨_, _, ha⟩, ⟨_, _, he⟩, ⟨_, _, ht⟩⟩ := h
  exact ⟨forall_of_forall₂ hi fun _ _ => InstructionForm.canonical,
    forall_of_forall₂ ha fun _ _ => AccountDefinitionForm.canonical,
    forall_of_forall₂ he fun _ _ => ErrorForm.canonical,
    forall_of_forall₂ ht fun _ _ => TypeDefinitionForm.canonical⟩

/-! ### A document for every canonical schema -/

mutual

/-- A type expression. -/
def ofType : TypeExpr → Json
  | .primitive p => .str p.name
  | .array element length => .obj [("array", .arr [ofType element, .int length])]
  | .container shape element => .obj [(shape.tag, ofType element)]
  | .defined name generics =>
    .obj [("defined", .obj [("name", .str name), ("generics", .arr (ofGenerics generics))])]
  | .struct fields => .obj [("kind", .str "struct"), ("fields", .arr (ofFields fields))]
  | .enum variants => .obj [("kind", .str "enum"), ("variants", .arr (ofVariants variants))]

/-- Type expressions. -/
def ofTypes : List TypeExpr → List Json
  | [] => []
  | t :: rest => ofType t :: ofTypes rest

/-- Type arguments. -/
def ofGenerics : List TypeExpr → List Json
  | [] => []
  | t :: rest => .obj [("kind", .str "type"), ("type", ofType t)] :: ofGenerics rest

/-- Fields. -/
def ofFields : List Field → List Json
  | [] => []
  | ⟨name, type, docs⟩ :: rest =>
    .obj [("name", .str name), ("type", ofType type), ("docs", .ofTexts docs)] :: ofFields rest

/-- Variants; a canonical one has fields or items, so their lists do not get mixed. -/
def ofVariants : List Variant → List Json
  | [] => []
  | ⟨name, fields, items⟩ :: rest =>
    .obj [("name", .str name), ("fields", .arr (ofFields fields ++ ofTypes items))] ::
      ofVariants rest

end

/-- A seed. -/
def ofSeed (s : Seed) : Json :=
  .obj <| ("kind", .str s.kind.name) ::
    match s.kind with
    | .const => [("value", .ofBytes (s.value.getD []))]
    | .string => [("value", .str (s.text.getD []))]
    | .arg => [("path", .str (s.path.getD []))]
    | .account => [("path", .str (s.path.getD [])), ("account", .ofOption .str s.account)]

/-- The rule for an address. -/
def ofPda (p : Pda) : Json :=
  .obj [("seeds", .arr (p.seeds.map ofSeed)), ("program", .ofOption ofSeed p.program)]

/-- The members of a slot, before others. -/
def ofSlot (a : AccountRef) (others : Members) : Members :=
  ("name", .str a.name) :: ("writable", .bool a.writable) :: ("signer", .bool a.signer) ::
    ("optional", .bool a.optional) :: ("address", .ofOption .str a.address) ::
    ("pda", .ofOption ofPda a.pda) :: ("docs", .ofTexts a.docs) :: others

/-- An account layout. -/
def ofLayout (a : AccountDefinition) : Json :=
  .obj (ofSlot a.toAccountRef [("discriminator", .ofOption .ofBytes a.discriminator)])

/-- An argument. -/
def ofArg (a : Arg) : Json := .obj [("name", .str a.name), ("type", ofType a.type)]

/-- An instruction. -/
def ofInstruction (x : Instruction) : Json :=
  .obj [("name", .str x.name), ("discriminator", .ofBytes x.discriminator),
    ("accounts", .arr (x.accounts.map fun a => .obj (ofSlot a []))),
    ("args", .arr (x.args.map ofArg)), ("docs", .ofTexts x.docs)]

/-- An error. -/
def ofError (e : ErrorDefinition) : Json :=
  .obj [("code", .int e.code), ("name", .str e.name), ("msg", .str e.msg)]

/-- A custom type. -/
def ofTypeDefinition (d : TypeDefinition) : Json :=
  .obj [("name", .str d.name), ("type", ofType d.type), ("docs", .ofTexts d.docs)]

/-- What a document says about its program. -/
def ofMetadata (m : Metadata) : Json :=
  .obj [("name", .str m.name), ("version", .str m.version), ("spec", .str m.spec),
    ("description", .str m.description)]

/-- The members of a document that denotes a schema. -/
def documentOf (S : Schema) : Members :=
  [("address", .str S.address), ("metadata", ofMetadata S.metadata),
    ("instructions", .arr (S.instructions.map ofInstruction)),
    ("accounts", .arr (S.accounts.map ofLayout)), ("errors", .arr (S.errors.map ofError)),
    ("types", .arr (S.types.map ofTypeDefinition))]

/-! ### The document denotes the schema -/

theorem listMember_of_get? {members : Members} {key : Text} {list : List Json}
    (h : members.get? key = some (.arr list)) : ListMember members key list :=
  .inl (given?_eq_some_iff.2 ⟨h, by simp⟩)

theorem given?_of_get? {α : Type} {members : Members} {key : Text} {f : α → Json} {x : Option α}
    (h : members.get? key = some (Json.ofOption f x)) (hf : ∀ y, f y ≠ .null) :
    members.given? key = x.map f := by
  cases x with
  | none => exact given?_eq_none_iff.2 (.inr h)
  | some y => exact given?_eq_some_iff.2 ⟨h, hf y⟩

theorem optionMember_of_get? {α : Type} {R : Json → α → Prop} {members : Members} {key : Text}
    {f : α → Json} {x : Option α} (h : members.get? key = some (Json.ofOption f x))
    (hf : ∀ y, f y ≠ .null) (hR : ∀ y ∈ x, R (f y) y) : OptionMember R members key x := by
  unfold OptionMember
  rw [given?_of_get? h hf]
  cases x with
  | none => exact .none
  | some y => exact .some (hR y rfl)

theorem forall₂_map_of_forall {α : Type} {R : Json → α → Prop} {f : α → Json} {xs : List α}
    (h : ∀ x ∈ xs, R (f x) x) : List.Forall₂ R (xs.map f) xs := by
  rw [List.forall₂_map_left_iff, List.forall₂_same]
  exact h

/-- No type expression looks like a field. -/
theorem isNamed_ofType (t : TypeExpr) : isNamed (ofType t) = false := by
  cases t with
  | container shape _ => cases shape <;> rfl
  | _ => rfl

theorem isNamed_ofTypes (types : List TypeExpr) : ∀ item ∈ ofTypes types, isNamed item = false := by
  induction types with
  | nil => simp [ofTypes]
  | cons t rest ih => exact List.forall_mem_cons.2 ⟨isNamed_ofType t, ih⟩

mutual

theorem typeForm_ofType : ∀ (t : TypeExpr), CanonicalType t → TypeForm (ofType t) t
  | .primitive p, _ => .primitive p
  | .array element length, .array helement _ => .array (typeForm_ofType element helement) length
  | .container shape element, .container _ helement =>
    .container shape (typeForm_ofType element helement)
  | .defined _ generics, .defined nonempty each =>
    .reference ⟨rfl, nonempty⟩ (listMember_of_get? rfl) (genericForms_ofGenerics generics each)
  | .struct fields, .struct each =>
    .struct rfl (listMember_of_get? rfl) (fieldForms_ofFields fields each)
  | .enum variants, .enum each =>
    .enum rfl (listMember_of_get? rfl) (variantForms_ofVariants variants each)

theorem typeForms_ofTypes : ∀ (types : List TypeExpr), (∀ t ∈ types, CanonicalType t) →
    TypeForms (ofTypes types) types
  | [], _ => .nil
  | t :: rest, h =>
    have h := List.forall_mem_cons.1 h
    .cons (typeForm_ofType t h.1) (typeForms_ofTypes rest h.2)

theorem genericForms_ofGenerics : ∀ (types : List TypeExpr), (∀ t ∈ types, CanonicalType t) →
    GenericForms (ofGenerics types) types
  | [], _ => .nil
  | t :: rest, h =>
    have h := List.forall_mem_cons.1 h
    .cons (.mk rfl rfl (typeForm_ofType t h.1)) (genericForms_ofGenerics rest h.2)

theorem fieldForms_ofFields : ∀ (fields : List Field), (∀ f ∈ fields, CanonicalField f) →
    FieldForms (ofFields fields) fields
  | [], _ => .nil
  | ⟨_, type, _⟩ :: rest, h =>
    have h := List.forall_mem_cons.1 h
    match h.1 with
    | .mk nonempty htype _ =>
      .cons (.mk ⟨rfl, nonempty⟩ rfl (typeForm_ofType type htype) (listMember_of_get? rfl))
        (fieldForms_ofFields rest h.2)

theorem variantForms_ofVariants : ∀ (variants : List Variant),
    (∀ v ∈ variants, CanonicalVariant v) → VariantForms (ofVariants variants) variants
  | [], _ => .nil
  | ⟨_, fields, []⟩ :: rest, h =>
    have h := List.forall_mem_cons.1 h
    match h.1 with
    | .mk nonempty named _ _ =>
      .cons (.named ⟨rfl, nonempty⟩ (listMember_of_get? (by simp [ofTypes]; rfl))
        (fieldForms_ofFields fields named)) (variantForms_ofVariants rest h.2)
  | ⟨_, [], items⟩ :: rest, h =>
    have h := List.forall_mem_cons.1 h
    match h.1 with
    | .mk nonempty _ positional _ =>
      .cons (.positional ⟨rfl, nonempty⟩ (listMember_of_get? rfl) (isNamed_ofTypes items)
        (typeForms_ofTypes items positional)) (variantForms_ofVariants rest h.2)
  | ⟨_, _ :: _, _ :: _⟩ :: _, h =>
    have h := List.forall_mem_cons.1 h
    match h.1 with
    | .mk _ _ _ exclusive => by simp at exclusive

end

theorem seedForm_ofSeed {s : Seed} (h : CanonicalSeed s) : SeedForm (ofSeed s) s := by
  cases h with
  | const bytes => exact .constantBytes rfl rfl
  | string text => exact .string rfl rfl
  | arg nonempty => exact .arg rfl rfl nonempty
  | account nonempty account => exact .account rfl rfl nonempty (given?_of_get? rfl nofun)

theorem pdaForm_ofPda {p : Pda} (h : CanonicalPda p) : PdaForm (ofPda p) p :=
  .mk rfl (by simpa using h.nonempty)
    (forall₂_map_of_forall fun s hs => seedForm_ofSeed (h.seeds s hs))
    (optionMember_of_get? rfl nofun fun s hs => seedForm_ofSeed (h.program s hs))

theorem slotForm_ofSlot {a : AccountRef} (h : CanonicalSlot a) (others : Members) :
    SlotForm (ofSlot a others) a where
  name := ⟨rfl, h.name⟩
  writable := rfl
  signer := rfl
  optional := rfl
  address := given?_of_get? rfl nofun
  pda := optionMember_of_get? rfl nofun fun p hp => pdaForm_ofPda (h.pda p hp)
  docs := listMember_of_get? rfl

theorem accountDefinitionForm_ofLayout {a : AccountDefinition} (h : CanonicalLayout a) :
    AccountDefinitionForm (ofLayout a) a :=
  .mk (slotForm_ofSlot h.slot _)
    (optionMember_of_get? rfl nofun fun bytes hb => ⟨rfl, h.discriminator bytes hb⟩)

theorem slotsForms_ofSlots : ∀ (slots : List AccountRef), (∀ a ∈ slots, CanonicalSlot a) →
    SlotsForms (slots.map fun a => .obj (ofSlot a [])) slots
  | [], _ => .nil
  | _ :: rest, h =>
    have h := List.forall_mem_cons.1 h
    .cons (.slot rfl (slotForm_ofSlot h.1 [])) (slotsForms_ofSlots rest h.2)

theorem argForm_ofArg {a : Arg} (h : CanonicalArg a) : ArgForm (ofArg a) a :=
  .mk ⟨rfl, h.name⟩ rfl (typeForm_ofType a.type h.type)

theorem instructionForm_ofInstruction {x : Instruction} (h : CanonicalInstruction x) :
    InstructionForm (ofInstruction x) x :=
  .mk ⟨rfl, h.name⟩ (listMember_of_get? rfl) (slotsForms_ofSlots x.accounts h.accounts)
    (listMember_of_get? rfl) (forall₂_map_of_forall fun a ha => argForm_ofArg (h.args a ha)) rfl
    ⟨rfl, h.discriminator⟩ (listMember_of_get? rfl)

theorem errorForm_ofError {e : ErrorDefinition} (h : e.name ≠ []) : ErrorForm (ofError e) e :=
  .mk rfl ⟨rfl, h⟩ (given?_of_get? (x := some e.msg) rfl nofun) rfl

theorem typeDefinitionForm_ofTypeDefinition {d : TypeDefinition} (h : CanonicalTypeDefinition d) :
    TypeDefinitionForm (ofTypeDefinition d) d :=
  .mk ⟨rfl, h.name⟩ rfl (typeForm_ofType d.type h.type) (listMember_of_get? rfl)

theorem textMember_of_get? {members : Members} {key t : Text}
    (h : members.get? key = some (.str t)) : TextMember members key t :=
  ⟨some t, given?_of_get? h nofun, rfl⟩

theorem placedText_of_get? {document metadata : Members} {key t : Text}
    (h : metadata.get? key = some (.str t)) (absent : document.get? key = none) :
    PlacedText document metadata key t := by
  by_cases ht : t = []
  · subst ht
    exact .older (textMember_of_get? h) ⟨none, given?_eq_none_iff.2 (.inl absent), rfl⟩
  · exact .newer (given?_eq_some_iff.2 ⟨h, by simp⟩) ht

theorem documentForm_documentOf {S : Schema} (h : S.Canonical) :
    DocumentForm (documentOf S) S where
  metadata :=
    ⟨_, .given rfl, placedText_of_get? rfl rfl, placedText_of_get? rfl rfl, textMember_of_get? rfl,
      textMember_of_get? rfl⟩
  address := .newer (given?_eq_some_iff.2 ⟨rfl, nofun⟩)
  instructions := ⟨_, listMember_of_get? rfl,
    forall₂_map_of_forall fun x hx => instructionForm_ofInstruction (h.instructions x hx)⟩
  accounts := ⟨_, listMember_of_get? rfl,
    forall₂_map_of_forall fun a ha => accountDefinitionForm_ofLayout (h.accounts a ha)⟩
  errors := ⟨_, listMember_of_get? rfl,
    forall₂_map_of_forall fun e he => errorForm_ofError (h.errors e he)⟩
  types := ⟨_, listMember_of_get? rfl,
    forall₂_map_of_forall fun d hd => typeDefinitionForm_ofTypeDefinition (h.types d hd)⟩

/-! ### The document has no key twice -/

section Decoded

variable {allowed : Int → Prop}

theorem decoded_map {α : Type} {f : α → Json} {xs : List α}
    (h : ∀ x ∈ xs, (f x).Decoded allowed) : Json.Decoded allowed (.arr (xs.map f)) :=
  .arr (List.forall_mem_map.2 h)

theorem decoded_ofTexts (texts : List Text) : Json.Decoded allowed (.ofTexts texts) :=
  decoded_map fun _ _ => .str _

mutual

theorem decoded_ofType : ∀ t : TypeExpr, (∀ n ∈ t.integers, allowed n) →
    (ofType t).Decoded allowed
  | .primitive _, _ => .str _
  | .array element length, h => by
    rw [TypeExpr.integers, List.forall_mem_cons] at h
    exact .obj (by simp)
      (by simpa using .arr (by simpa using ⟨decoded_ofType element h.2, .int h.1⟩))
  | .container _ element, h => .obj (by simp) (by simpa using decoded_ofType element h)
  | .defined _ generics, h =>
    .obj (by simp) (by
      simpa using .obj (by simp) (by simpa using ⟨.str _, .arr (decoded_ofGenerics generics h)⟩))
  | .struct fields, h =>
    .obj (by simp) (by simpa using ⟨.str _, .arr (decoded_ofFields fields h)⟩)
  | .enum variants, h =>
    .obj (by simp) (by simpa using ⟨.str _, .arr (decoded_ofVariants variants h)⟩)

theorem decoded_ofTypes : ∀ (types : List TypeExpr), (∀ n ∈ typesIntegers types, allowed n) →
    ∀ item ∈ ofTypes types, item.Decoded allowed
  | [], _ => by simp [ofTypes]
  | t :: rest, h =>
    have h := List.forall_mem_append.1 h
    List.forall_mem_cons.2 ⟨decoded_ofType t h.1, decoded_ofTypes rest h.2⟩

theorem decoded_ofGenerics : ∀ (types : List TypeExpr), (∀ n ∈ typesIntegers types, allowed n) →
    ∀ item ∈ ofGenerics types, item.Decoded allowed
  | [], _ => by simp [ofGenerics]
  | t :: rest, h =>
    have h := List.forall_mem_append.1 h
    List.forall_mem_cons.2
      ⟨.obj (by simp) (by simpa using ⟨.str _, decoded_ofType t h.1⟩), decoded_ofGenerics rest h.2⟩

theorem decoded_ofFields : ∀ (fields : List Field), (∀ n ∈ fieldsIntegers fields, allowed n) →
    ∀ item ∈ ofFields fields, item.Decoded allowed
  | [], _ => by simp [ofFields]
  | ⟨_, type, docs⟩ :: rest, h =>
    have h := List.forall_mem_append.1 h
    List.forall_mem_cons.2
      ⟨.obj (by simp) (by simpa using ⟨.str _, decoded_ofType type h.1, decoded_ofTexts docs⟩),
        decoded_ofFields rest h.2⟩

theorem decoded_ofVariants : ∀ (variants : List Variant),
    (∀ n ∈ variantsIntegers variants, allowed n) →
      ∀ item ∈ ofVariants variants, item.Decoded allowed
  | [], _ => by simp [ofVariants]
  | ⟨_, fields, items⟩ :: rest, h => by
    rw [variantsIntegers, List.forall_mem_append, List.forall_mem_append] at h
    exact List.forall_mem_cons.2
      ⟨.obj (by simp) (by
        simpa using ⟨.str _, .arr (List.forall_mem_append.2
          ⟨decoded_ofFields fields h.1.1, decoded_ofTypes items h.1.2⟩)⟩),
        decoded_ofVariants rest h.2⟩

end

variable (hbytes : ∀ b : UInt8, allowed b.toNat)
include hbytes

end Decoded

mutual

/-- Only allowed integers stand in a decoded document. -/
theorem integers_of_decoded {allowed : Int → Prop} : ∀ {raw : Json}, raw.Decoded allowed →
    ∀ n ∈ raw.integers, allowed n
  | .null, _ | .bool _, _ | .float _, _ | .str _, _ => by simp [Json.integers]
  | .int n, h => by
    cases h with
    | int h => simpa [Json.integers] using h
  | .arr items, h => by
    cases h with
    | arr each => exact itemsIntegers_of_decoded each
  | .obj members, h => by
    cases h with
    | obj _ each => exact membersIntegers_of_decoded each

theorem itemsIntegers_of_decoded {allowed : Int → Prop} : ∀ {items : List Json},
    (∀ item ∈ items, item.Decoded allowed) → ∀ n ∈ AnchorIdl.itemsIntegers items, allowed n
  | [], _ => by simp [AnchorIdl.itemsIntegers]
  | v :: rest, h => by
    rw [List.forall_mem_cons] at h
    exact List.forall_mem_append.2 ⟨integers_of_decoded h.1, itemsIntegers_of_decoded h.2⟩

theorem membersIntegers_of_decoded {allowed : Int → Prop} : ∀ {members : List (Text × Json)},
    (∀ m ∈ members, m.2.Decoded allowed) → ∀ n ∈ AnchorIdl.membersIntegers members, allowed n
  | [], _ => by simp [AnchorIdl.membersIntegers]
  | (_, v) :: rest, h => by
    rw [List.forall_mem_cons] at h
    exact List.forall_mem_append.2 ⟨integers_of_decoded h.1, membersIntegers_of_decoded h.2⟩

end

/-! ### Loading -/

theorem codesShown_of_integers {S : Schema} (h : ∀ n ∈ S.integers, Text.isShort n = true) :
    S.CodesShown := by
  intro i _ n _ hi _
  refine h n (List.mem_append_left _ (List.mem_append_right _ ?_))
  exact List.mem_of_getElem? hi

theorem canonical_of_load {strict : Bool} {raw : Json} {S : Schema}
    (h : (load strict (.value raw)).outcome = .ok S) : S.Canonical := by
  obtain ⟨⟨document, rfl, hdocument⟩, -⟩ := load_eq_ok_iff.1 h
  exact hdocument.canonical

theorem load_documentOf {S : Schema} (h : S.Canonical) (hshown : S.CodesShown) :
    (load false (.value (.obj (documentOf S)))).outcome = .ok S :=
  load_eq_ok_iff.2 ⟨⟨_, rfl, documentForm_documentOf h⟩, hshown, nofun⟩

end Document
end AnchorIdl
