/-
# What the values at positions denote

A value at a position denotes what the reader of that position reads from it:
a type expression its type, an item of an instruction's accounts the slots that
it stands for, a list what its items denote.  `Role.Denoted` is what a position
denotes and `Role.Denotes` the relation, both by the position; the relation of
an object is that of `TypeForm` and its companions.

An object denotes by its parts (`Alike.denotes_obj`): if two objects have the same
parts and these denote the same in both, then so do the objects.  Whatever else
stands in them, and in which order, does not matter.  A required part that is
null denotes as little as one that is absent, and an optional part that is null
counts as absent (`Part.Denotes`).
-/

import AnchorIdl.Proofs.Document.EntryBlame
import AnchorIdl.Proofs.Document.Form
import AnchorIdl.Proofs.Document.Language

namespace AnchorIdl
namespace Document

/-- What metadata say under their keys: the text named `key` is `t`, or it is not given. -/
def metadataTexts (members : Members) (key : Text) (t : Option Text) : Prop :=
  ⟨key, .text, .optional⟩ ∈ Role.metadata.parts members ∧ members.given? key = t.map .str

/-- What a value at a position denotes. -/
def Role.Denoted : Role → Type
  | .document => Schema
  | .metadata => Text → Option Text → Prop
  | .instruction => Instruction
  | .slot => List AccountRef
  | .layout => AccountDefinition
  | .pda => Pda
  | .seed => Seed
  | .arg => Arg
  | .error => ErrorDefinition
  | .custom => TypeDefinition
  | .type | .array | .reference | .generic => TypeExpr
  | .field => Field
  | .variant => Variant
  | .text | .name | .seedText | .seedPath | .typeKind => Text
  | .boolean => Bool
  | .code => Int
  | .discriminator | .constant => Bytes
  | .byte _ => UInt8
  | .seeds => List Seed
  | .seedKind => SeedKind
  | .arrayLength => Nat
  | .variantFields => List Field × List TypeExpr
  | .list item => List item.Denoted

/-- A value at a position denotes something. -/
def Role.Denotes : (r : Role) → Json → r.Denoted → Prop
  | .document, raw, S => ∃ document, raw = .obj document ∧ DocumentForm document S
  | .metadata, raw, texts => ∃ members : Members,
    (raw.isBlank = true ∧ members = [] ∨ raw = .obj members) ∧ texts = metadataTexts members
  | .instruction, raw, x => InstructionForm raw x
  | .slot, raw, slots => SlotsForm raw slots
  | .layout, raw, a => AccountDefinitionForm raw a
  | .pda, raw, p => PdaForm raw p
  | .seed, raw, s => SeedForm raw s
  | .arg, raw, a => ArgForm raw a
  | .error, raw, e => ErrorForm raw e
  | .custom, raw, d => TypeDefinitionForm raw d
  | .type, raw, t => TypeForm raw t
  | .array, raw, t => TypeForm (.obj [("array", raw)]) t
  | .reference, raw, t => TypeForm (.obj [("defined", raw)]) t
  | .generic, raw, t => GenericForm raw t
  | .field, raw, f => FieldForm raw f
  | .variant, raw, v => VariantForm raw v
  | .text, raw, t | .seedText, raw, t | .typeKind, raw, t => raw = .str t
  | .name, raw, t | .seedPath, raw, t => raw = .str t ∧ t ≠ []
  | .boolean, raw, b => raw = .bool b
  | .code, raw, n => raw = .int n
  | .discriminator, raw, bytes => DiscriminatorForm raw bytes
  | .constant, raw, bytes => raw = .ofBytes bytes ∨ ∃ t, raw = .str t ∧ Utf8.encode t = .ok bytes
  | .byte _, raw, b => raw = .int b.toNat
  | .seeds, raw, xs => ∃ list, raw = .arr list ∧ list ≠ [] ∧ List.Forall₂ SeedForm list xs
  | .seedKind, raw, kind => raw = .str kind.name
  | .arrayLength, raw, n => raw = .int (.ofNat n)
  | .variantFields, raw, (fields, types) => ∃ list, raw = .arr list ∧
    (FieldForms list fields ∧ types = [] ∨
      (∀ item ∈ list, isNamed item = false) ∧ TypeForms list types ∧ fields = [])
  | .list item, raw, xs => ∃ list, raw = .arr list ∧ List.Forall₂ item.Denotes list xs

/-- A part of an object denotes something, or it is optional and not given. -/
def Part.Denotes (p : Part) (members : Members) (x : Option p.role.Denoted) : Prop :=
  match p.need with
  | .required => ∃ raw y, members.get? p.key = some raw ∧ p.role.Denotes raw y ∧ x = some y
  | .optional => OptionMember p.role.Denotes members p.key x

/-- Two objects at a position have the same parts, and these denote the same. -/
structure Alike (r : Role) (members members' : Members) : Prop where
  parts : r.parts members = r.parts members'
  denotes : ∀ p ∈ r.parts members, ∀ x, p.Denotes members x ↔ p.Denotes members' x

theorem given?_congr {members members' : Members} {key : Text}
    (h : members.get? key = members'.get? key) : members.given? key = members'.given? key := by
  unfold Members.given?
  rw [h]

theorem given?_eq_none_of_optionMember {α : Type} {R : Json → α → Prop} {members : Members}
    {key : Text} (h : OptionMember R members key none) : members.given? key = none := by
  unfold OptionMember at h
  cases hgiven : members.given? key with
  | none => rfl
  | some raw => rw [hgiven] at h; cases h

theorem exists_given?_of_optionMember {α : Type} {R : Json → α → Prop} {members : Members}
    {key : Text} {x : α} (h : OptionMember R members key (some x)) :
    ∃ raw, members.given? key = some raw ∧ R raw x := by
  unfold OptionMember at h
  cases hgiven : members.given? key with
  | none => rw [hgiven] at h; cases h
  | some raw =>
    rw [hgiven] at h
    cases h with
    | some hraw => exact ⟨raw, rfl, hraw⟩

theorem optionMember_none {α : Type} {R : Json → α → Prop} {members : Members} {key : Text}
    (h : members.given? key = none) : OptionMember R members key none := by
  rw [OptionMember, h]
  exact .none

theorem optionMember_some {α : Type} {R : Json → α → Prop} {members : Members} {key : Text}
    {raw : Json} {x : α} (h : members.given? key = some raw) (hx : R raw x) :
    OptionMember R members key (some x) := by
  rw [OptionMember, h]
  exact .some hx

namespace Alike

variable {r s : Role} {members members' : Members} {key : Text}

theorem symm (h : Alike r members members') : Alike r members' members := by
  refine ⟨h.parts.symm, fun p hp x => ?_⟩
  rw [← h.parts] at hp
  exact (h.denotes p hp x).symm

/-- What a required part denotes in one object it denotes in the other. -/
theorem required (h : Alike r members members') (hp : ⟨key, s, .required⟩ ∈ r.parts members)
    {raw : Json} {x : s.Denoted} (hget : members.get? key = some raw) (hx : s.Denotes raw x) :
    ∃ raw', members'.get? key = some raw' ∧ s.Denotes raw' x := by
  obtain ⟨raw', y, hget', hy, hxy⟩ := (h.denotes _ hp (some x)).1 ⟨raw, x, hget, hx, rfl⟩
  exact ⟨raw', hget', Option.some.inj hxy ▸ hy⟩

/-- What an optional part denotes in one object it denotes in the other. -/
theorem optional (h : Alike r members members') (hp : ⟨key, s, .optional⟩ ∈ r.parts members)
    {x : Option s.Denoted} (hx : OptionMember s.Denotes members key x) :
    OptionMember s.Denotes members' key x :=
  (h.denotes _ hp x).1 hx

theorem name (h : Alike r members members') (hp : ⟨"name", .name, .required⟩ ∈ r.parts members)
    {t : Text} (hn : NameMember members t) : NameMember members' t := by
  obtain ⟨raw, hget, rfl, hne⟩ := h.required hp (x := t) hn.1 ⟨rfl, hn.2⟩
  exact ⟨hget, hne⟩

theorem optionMember_text_iff {t : Option Text} :
    OptionMember Role.text.Denotes members key t ↔ members.given? key = t.map .str := by
  unfold OptionMember
  cases members.given? key with
  | none =>
    cases t with
    | none => exact ⟨fun _ => rfl, fun _ => .none⟩
    | some t => exact ⟨nofun, nofun⟩
  | some raw =>
    cases t with
    | none => exact ⟨nofun, nofun⟩
    | some t => exact ⟨fun | .some h => congrArg some h, fun h => .some (Option.some.inj h)⟩

theorem text (h : Alike r members members') (hp : ⟨key, .text, .optional⟩ ∈ r.parts members)
    {t : Option Text} (ht : members.given? key = t.map .str) :
    members'.given? key = t.map .str :=
  optionMember_text_iff.1 (h.optional hp (optionMember_text_iff.2 ht))

theorem textMember (h : Alike r members members') (hp : ⟨key, .text, .optional⟩ ∈ r.parts members)
    {t : Text} (ht : TextMember members key t) : TextMember members' key t := by
  obtain ⟨given, hgiven, hgetD⟩ := ht
  exact ⟨given, h.text hp hgiven, hgetD⟩

/-- The items of a list denote the same in both objects, where absent means no items. -/
theorem list (h : Alike r members members') (hp : ⟨key, .list s, .optional⟩ ∈ r.parts members)
    {list : List Json} {xs : List s.Denoted} (hl : ListMember members key list)
    (hxs : List.Forall₂ s.Denotes list xs) :
    ∃ list', ListMember members' key list' ∧ List.Forall₂ s.Denotes list' xs := by
  rcases hl with hgiven | ⟨hgiven, rfl⟩
  · have hx := h.optional hp (optionMember_some hgiven ⟨list, rfl, hxs⟩)
    obtain ⟨raw', hgiven', list', rfl, hxs'⟩ := exists_given?_of_optionMember hx
    exact ⟨list', .inl hgiven', hxs'⟩
  · have hx := h.optional hp (optionMember_none hgiven)
    exact ⟨[], .inr ⟨given?_eq_none_of_optionMember hx, rfl⟩, hxs⟩

theorem docs (h : Alike r members members')
    (hp : ⟨"docs", .list .text, .optional⟩ ∈ r.parts members) {lines : List Text}
    (hl : ListMember members "docs" (lines.map .str)) :
    ListMember members' "docs" (lines.map .str) := by
  have hlines : ∀ list : List Json,
      List.Forall₂ Role.text.Denotes list lines ↔ list = lines.map .str := fun list =>
    forall₂_eq_map_iff
  obtain ⟨list', hl', hlist'⟩ := h.list hp hl ((hlines _).2 rfl)
  rwa [(hlines _).1 hlist'] at hl'

/-- A flag is the same in both objects, since each of its spellings is. -/
theorem flag (h : Alike r members members') {spellings : List Text}
    (hp : ∀ key ∈ spellings, ⟨key, .boolean, .optional⟩ ∈ r.parts members) {b : Bool}
    (hb : FlagMember members spellings b) : FlagMember members' spellings b := by
  unfold FlagMember at hb ⊢
  induction spellings with
  | nil => exact hb
  | cons key rest ih =>
    have hkey := hp key (List.mem_cons_self ..)
    rw [List.findSome?_cons] at hb ⊢
    cases hgiven : members.given? key with
    | none =>
      have hnone : members'.given? key = none := by
        exact given?_eq_none_of_optionMember (h.optional hkey (optionMember_none hgiven))
      rw [hgiven] at hb
      rw [hnone]
      exact ih (fun key hk => hp key (List.mem_cons_of_mem _ hk)) hb
    | some value =>
      rw [hgiven] at hb
      obtain rfl : value = .bool b := hb
      have hx := h.optional hkey (x := some b) (optionMember_some hgiven rfl)
      obtain ⟨value', hgiven', rfl⟩ := exists_given?_of_optionMember hx
      rw [hgiven']
      rfl

end Alike

/-! ### Objects that are alike -/

section Objects

variable {members members' : Members}

theorem Alike.seed (h : Alike .seed members members') {s : Seed}
    (hs : SeedForm (.obj members) s) : SeedForm (.obj members') s := by
  have hkind : ∀ kind : SeedKind, members.get? "kind" = some (.str kind.name) →
      members'.get? "kind" = some (.str kind.name) ∧
        ∀ p ∈ seedParts kind, p ∈ Role.seed.parts members := by
    intro kind hk
    obtain ⟨raw, hget, rfl⟩ := h.required (List.mem_cons_self ..) (x := kind) hk rfl
    exact ⟨hget, seedParts_subset (bind_seedKind?_eq_some_iff.2 hk)⟩
  have hconstant : ∀ {raw : Json} {bytes : Bytes},
      members.get? "kind" = some (.str SeedKind.const.name) → members.get? "value" = some raw →
        Role.constant.Denotes raw bytes →
          SeedForm (.obj members') { kind := .const, value := some bytes } := by
    intro raw bytes kind value hraw
    obtain ⟨hk, hp⟩ := hkind .const kind
    obtain ⟨raw', hget, rfl | ⟨t, rfl, octets⟩⟩ := h.required (hp _ (List.mem_cons_self ..))
      (x := bytes) value hraw
    · exact .constantBytes hk hget
    · exact .constantText hk hget octets
  cases hs with
  | constantText kind value octets => exact hconstant kind value (.inr ⟨_, rfl, octets⟩)
  | constantBytes kind value => exact hconstant kind value (.inl rfl)
  | @string _ t kind value =>
    obtain ⟨hk, hp⟩ := hkind .string kind
    obtain ⟨raw, hget, rfl⟩ := h.required (hp _ (List.mem_cons_self ..)) (x := t) value rfl
    exact .string hk hget
  | @arg _ path kind hpath nonempty =>
    obtain ⟨hk, hp⟩ := hkind .arg kind
    obtain ⟨raw, hget, rfl, _⟩ := h.required (hp _ (List.mem_cons_self ..)) (x := path) hpath
      ⟨rfl, nonempty⟩
    exact .arg hk hget nonempty
  | @account _ path account kind hpath nonempty ha =>
    obtain ⟨hk, hp⟩ := hkind .account kind
    obtain ⟨raw, hget, rfl, _⟩ := h.required (hp _ (List.mem_cons_self ..)) (x := path) hpath
      ⟨rfl, nonempty⟩
    exact .account hk hget nonempty (h.text (hp _ (by simp [seedParts])) ha)

theorem Alike.pda (h : Alike .pda members members') {p : Pda}
    (hp : PdaForm (.obj members) p) : PdaForm (.obj members') p := by
  cases hp with
  | mk hl nonempty hs hprogram =>
    obtain ⟨raw, hget, list, rfl, hne, hseeds⟩ := h.required (List.mem_cons_self ..)
      (x := p.seeds) hl ⟨_, rfl, nonempty, hs⟩
    have hpart : ⟨"program", .seed, .optional⟩ ∈ Role.pda.parts members :=
      List.mem_cons_of_mem _ (List.mem_cons_self ..)
    exact .mk hget hne hseeds (h.optional hpart hprogram)

/-- What the parts of an account slot denote makes the slot, in whatever object they are parts. -/
theorem Alike.slotForm {r : Role} (h : Alike r members members')
    (hp : ∀ p ∈ slotParts, p ∈ r.parts members) {a : AccountRef} (ha : SlotForm members a) :
    SlotForm members' a where
  name := h.name (hp _ (by decide)) ha.name
  writable := h.flag (fun key hkey => hp _ (by revert key; decide)) ha.writable
  signer := h.flag (fun key hkey => hp _ (by revert key; decide)) ha.signer
  optional := h.flag (fun key hkey => hp _ (by revert key; decide)) ha.optional
  address := h.text (hp _ (by decide)) ha.address
  pda := h.optional (hp ⟨"pda", .pda, .optional⟩ (by decide)) ha.pda
  docs := h.docs (hp _ (by decide)) ha.docs

theorem Alike.layout (h : Alike .layout members members') {a : AccountDefinition}
    (ha : AccountDefinitionForm (.obj members) a) : AccountDefinitionForm (.obj members') a := by
  cases ha with
  | mk slot hd =>
    have hslot := h.slotForm (fun p hp => List.mem_cons_of_mem _ hp) slot
    exact .mk hslot (h.optional (List.mem_cons_self ..) hd)

/-- The parts of an item of an instruction's accounts tell whether it is a group. -/
theorem slot_parts_eq_iff :
    Role.slot.parts members = Role.slot.parts members' ↔
      members.has "accounts" = members'.has "accounts" := by
  constructor
  · intro h
    simp only [Role.parts] at h
    cases hm : members.has "accounts" <;> cases hm' : members'.has "accounts" <;>
      simp [hm, hm', slotParts] at h ⊢
  · intro h
    simp only [Role.parts, h]

theorem has_eq_false_iff {key : Text} : members.has key = false ↔ members.get? key = none := by
  simp [Members.has]

theorem Alike.slot (h : Alike .slot members members') {slots : List AccountRef}
    (hs : SlotsForm (.obj members) slots) : SlotsForm (.obj members') slots := by
  have hhas := slot_parts_eq_iff.1 h.parts
  cases hs with
  | @slot _ a single slot =>
    have hnone := has_eq_false_iff.2 single
    have hparts : Role.slot.parts members = slotParts := by simp [Role.parts, hnone]
    have hslot := h.slotForm (fun p hp => hparts ▸ hp) slot
    exact .slot (has_eq_false_iff.1 (hhas ▸ hnone)) hslot
  | @group _ name list _ several hn hl hgroup =>
    have hsome : members.has "accounts" = true :=
      Bool.of_not_eq_false (mt has_eq_false_iff.1 several)
    have hparts : Role.slot.parts members =
        [⟨"name", .name, .required⟩, ⟨"accounts", .list .slot, .optional⟩] := if_pos hsome
    obtain ⟨groups, hgroups, rfl⟩ := hgroup.exists_forall₂
    obtain ⟨list', hl', hgroups'⟩ := h.list (s := .slot) (hparts ▸ by decide) hl hgroups
    have hseveral' : members'.get? "accounts" ≠ none := by
      rw [Ne, ← has_eq_false_iff, ← hhas, hsome]
      decide
    exact .group hseveral' (h.name (hparts ▸ by decide) hn) hl' (slotsForms_of_forall₂ hgroups')

theorem Alike.arg (h : Alike .arg members members') {a : Arg} (ha : ArgForm (.obj members) a) :
    ArgForm (.obj members') a := by
  cases ha with
  | mk hn ht type =>
    obtain ⟨raw', ht', type'⟩ := h.required (s := .type) (by simp [Role.parts]) ht type
    exact .mk (h.name (by simp [Role.parts]) hn) ht' type'

theorem Alike.error (h : Alike .error members members') {e : ErrorDefinition}
    (he : ErrorForm (.obj members) e) : ErrorForm (.obj members') e := by
  cases he with
  | mk hc hn hm message =>
    obtain ⟨raw, hc', rfl⟩ := h.required (s := .code) (x := e.code) (by simp [Role.parts]) hc rfl
    exact .mk hc' (h.name (by simp [Role.parts]) hn) (h.text (by simp [Role.parts]) hm) message

theorem Alike.custom (h : Alike .custom members members') {d : TypeDefinition}
    (hd : TypeDefinitionForm (.obj members) d) : TypeDefinitionForm (.obj members') d := by
  cases hd with
  | mk hn ht type docs =>
    obtain ⟨raw', ht', type'⟩ := h.required (s := .type) (by simp [Role.parts]) ht type
    exact .mk (h.name (by simp [Role.parts]) hn) ht' type' (h.docs (by simp [Role.parts]) docs)

theorem Alike.field (h : Alike .field members members') {f : Field}
    (hf : FieldForm (.obj members) f) : FieldForm (.obj members') f := by
  cases hf with
  | mk hn ht type hd =>
    obtain ⟨raw', ht', type'⟩ := h.required (s := .type) (by simp [Role.parts]) ht type
    exact .mk (h.name (by simp [Role.parts]) hn) ht' type' (h.docs (by simp [Role.parts]) hd)

theorem Alike.instruction (h : Alike .instruction members members') {x : Instruction}
    (hx : InstructionForm (.obj members) x) : InstructionForm (.obj members') x := by
  cases hx with
  | mk hn ha slots hl each hd discriminator docs =>
    obtain ⟨groups, hgroups, hflatten⟩ := slots.exists_forall₂
    obtain ⟨accounts', ha', hgroups'⟩ := h.list (s := .slot) (by simp [Role.parts]) ha hgroups
    obtain ⟨args', hl', each'⟩ := h.list (s := .arg) (by simp [Role.parts]) hl each
    obtain ⟨raw', hd', discriminator'⟩ :=
      h.required (s := .discriminator) (by simp [Role.parts]) hd discriminator
    have slots' := hflatten ▸ slotsForms_of_forall₂ hgroups'
    exact .mk (h.name (by simp [Role.parts]) hn) ha' slots' hl' each' hd' discriminator'
      (h.docs (by simp [Role.parts]) docs)

/-! ### Type expressions that are alike -/

/-- A type expression has a wrapper for a part only if it is that wrapper and nothing else. -/
theorem eq_singleton_of_wrapper {p : Part} (hw : p ∈ wrapperParts)
    (hp : p ∈ Role.type.parts members) : ∃ raw, members = [(p.key, raw)] := by
  simp only [Role.parts] at hp
  split at hp
  · next kind _ =>
    have hkind : ∀ q ∈ wrapperParts, q ≠ ⟨"kind", .typeKind, .required⟩ := by decide
    have hshape : ∀ q ∈ wrapperParts, q ∉ shapeParts kind := by
      unfold shapeParts
      split_ifs <;> decide
    rcases List.mem_cons.1 hp with rfl | hp
    · exact absurd rfl (hkind _ hw)
    · exact absurd hp (hshape _ hw)
  · have hkeys : Ordered.keys members = [p.key] := of_decide_eq_true (List.mem_filter.1 hp).2
    obtain ⟨⟨key, raw⟩, rfl, rfl⟩ := List.map_eq_singleton_iff.1 hkeys
    exact ⟨raw, rfl⟩

theorem wrapper_mem_parts {p : Part} (hw : p ∈ wrapperParts) (raw : Json) :
    p ∈ Role.type.parts [(p.key, raw)] := by
  have hkey : ∀ q ∈ wrapperParts, "kind" ≠ q.key := by decide
  have hkind : Ordered.get? [(p.key, raw)] "kind" = none := by
    rw [Ordered.get?_cons, if_neg (hkey p hw), Ordered.get?_nil]
  simp [Role.parts, hkind, hw, Ordered.keys]

theorem Alike.wrapper {key : Text} {r : Role} {raw : Json}
    (h : Alike .type [(key, raw)] members') (hw : ⟨key, r, .required⟩ ∈ wrapperParts)
    {x : r.Denoted} (hx : r.Denotes raw x) :
    ∃ raw', members' = [(key, raw')] ∧ r.Denotes raw' x := by
  have hp := wrapper_mem_parts hw raw
  obtain ⟨raw', hget, hx'⟩ := h.required hp (by simp [Ordered.get?_cons]) hx
  obtain ⟨found, rfl⟩ := eq_singleton_of_wrapper hw (h.parts ▸ hp)
  obtain rfl : found = raw' := by simpa [Ordered.get?_cons] using hget
  exact ⟨found, rfl, hx'⟩

theorem Alike.shape {kind : String} (h : Alike .type members members')
    (hk : members.get? "kind" = some (.str kind)) :
    members'.get? "kind" = some (.str kind) ∧
      ∀ p ∈ shapeParts (.str kind), p ∈ Role.type.parts members := by
  have hparts : Role.type.parts members =
      ⟨"kind", .typeKind, .required⟩ :: shapeParts (.str kind) := by
    simp [Role.parts, hk]
  have hp : ⟨"kind", .typeKind, .required⟩ ∈ Role.type.parts members :=
    hparts ▸ List.mem_cons_self ..
  obtain ⟨raw, hk', rfl⟩ := h.required hp (x := Text.ofString kind) hk rfl
  exact ⟨hk', fun p hp => hparts ▸ List.mem_cons_of_mem _ hp⟩

theorem TypeForm.of_alike : ∀ {members : Members} {t : TypeExpr},
    TypeForm (.obj members) t → Alike .type members members' → TypeForm (.obj members') t
  | _, _, .container shape element, h => by
    have hw : ⟨shape.tag, .type, .required⟩ ∈ wrapperParts := by cases shape <;> decide
    obtain ⟨raw', rfl, element'⟩ := h.wrapper hw element
    exact .container shape element'
  | _, _, .array element length, h => by
    obtain ⟨raw', rfl, array'⟩ := h.wrapper (r := .array) (by decide) (.array element length)
    exact array'
  | _, _, .name hn, h => by
    obtain ⟨raw', rfl, name'⟩ := h.wrapper (r := .reference) (by decide) (.name hn)
    exact name'
  | _, _, .reference hn hl hg, h => by
    obtain ⟨raw', rfl, reference'⟩ :=
      h.wrapper (r := .reference) (by decide) (.reference hn hl hg)
    exact reference'
  | _, _, .struct kind hl hf, h => by
    obtain ⟨hk, hp⟩ := h.shape kind
    obtain ⟨list', hl', hf'⟩ := h.list (s := .field) (hp _ (by decide)) hl hf.forall₂
    exact .struct hk hl' (fieldForms_of_forall₂ hf')
  | _, _, .enum kind hl hv, h => by
    obtain ⟨hk, hp⟩ := h.shape kind
    obtain ⟨list', hl', hv'⟩ := h.list (s := .variant) (hp _ (by decide)) hl hv.forall₂
    exact .enum hk hl' (variantForms_of_forall₂ hv')
  | _, _, .alias kind ha target, h => by
    obtain ⟨hk, hp⟩ := h.shape kind
    obtain ⟨raw', ha', target'⟩ := h.required (s := .type) (hp _ (by decide)) ha target
    exact .alias hk ha' target'

theorem readGeneric_eq_ok_iff {place : Place} {raw : Json} {t : TypeExpr} :
    readGeneric place raw = .ok t ↔ GenericForm raw t :=
  ⟨genericForm_of_readGeneric place raw t, fun h => h.read place⟩

theorem typeForm_reference_obj_iff {t : TypeExpr} :
    TypeForm (.obj [("defined", .obj members)]) t ↔
      ∃ name list generics, NameMember members name ∧ ListMember members "generics" list ∧
        List.Forall₂ GenericForm list generics ∧ t = .defined name generics := by
  constructor
  · intro ht
    have hread : readType [] (.obj [("defined", .obj members)]) = .ok t := readType_eq_ok_iff.2 ht
    rw [readType_single _ _ _ (by rfl)] at hread
    simp only [Text.ofString_inj, String.reduceEq, if_false, if_true, readDefined_obj, bind_eq_ok,
      name_eq_ok_iff, items_eq_ok_iff, pure_eq_ok,
      each_eq_ok_iff (R := GenericForm) fun _ _ _ _ => readGeneric_eq_ok_iff] at hread
    obtain ⟨name, hn, list, hl, generics, hg, rfl⟩ := hread
    exact ⟨name, list, generics, hn, hl, hg, rfl⟩
  · rintro ⟨name, list, generics, hn, hl, hg, rfl⟩
    exact .reference hn hl (genericForms_of_forall₂ hg)

theorem Alike.reference (h : Alike .reference members members') {t : TypeExpr}
    (ht : TypeForm (.obj [("defined", .obj members)]) t) :
    TypeForm (.obj [("defined", .obj members')]) t := by
  obtain ⟨name, list, generics, hn, hl, hg, rfl⟩ := typeForm_reference_obj_iff.1 ht
  obtain ⟨list', hl', hg'⟩ := h.list (s := .generic) (by simp [Role.parts]) hl hg
  exact .reference (h.name (by simp [Role.parts]) hn) hl' (genericForms_of_forall₂ hg')

theorem Alike.generic (h : Alike .generic members members') {t : TypeExpr}
    (ht : GenericForm (.obj members) t) : GenericForm (.obj members') t := by
  cases ht with
  | @mk _ raw _ kind ht type =>
    have hparts : ∀ m : Members, Role.generic.parts m = [⟨"type", .type, .required⟩] ↔
        m.get? "kind" = some (.str "type") ∧ m.has "type" = true := by
      intro m
      simp only [Role.parts]
      split_ifs with hm
      · exact iff_of_true rfl hm
      · exact iff_of_false nofun hm
    have hp := (hparts members).2 ⟨kind, by simp [Members.has, ht]⟩
    have hp' := (hparts members').1 (h.parts ▸ hp)
    obtain ⟨raw', ht', type'⟩ := h.required (s := .type) (hp ▸ List.mem_cons_self ..) ht type
    exact .mk hp'.1 ht' type'

theorem variantForm_obj_iff {v : Variant} :
    VariantForm (.obj members) v ↔ NameMember members v.name ∧
      ∃ list, ListMember members "fields" list ∧
        (FieldForms list v.fields ∧ v.items = [] ∨
          (∀ item ∈ list, isNamed item = false) ∧ TypeForms list v.items ∧ v.fields = []) := by
  obtain ⟨name, fields, types⟩ := v
  constructor
  · intro hv
    cases hv with
    | named hn hl hf => exact ⟨hn, _, hl, .inl ⟨hf, rfl⟩⟩
    | positional hn hl unnamed ht => exact ⟨hn, _, hl, .inr ⟨unnamed, ht, rfl⟩⟩
  · rintro ⟨hn, list, hl, ⟨hf, rfl⟩ | ⟨unnamed, ht, rfl⟩⟩
    · exact .named hn hl hf
    · exact .positional hn hl unnamed ht

theorem Alike.variant (h : Alike .variant members members') {v : Variant}
    (hv : VariantForm (.obj members) v) : VariantForm (.obj members') v := by
  rw [variantForm_obj_iff] at hv ⊢
  obtain ⟨hn, list, hl, hlist⟩ := hv
  refine ⟨h.name (by simp [Role.parts]) hn, ?_⟩
  have hp : ⟨"fields", .variantFields, .optional⟩ ∈ Role.variant.parts members := by
    simp [Role.parts]
  rcases hl with hgiven | ⟨hgiven, rfl⟩
  · have hx := h.optional hp (x := some (v.fields, v.items))
      (optionMember_some hgiven ⟨list, rfl, hlist⟩)
    obtain ⟨raw', hgiven', list', rfl, hlist'⟩ := exists_given?_of_optionMember hx
    exact ⟨list', .inl hgiven', hlist'⟩
  · have hx := h.optional hp (optionMember_none hgiven)
    exact ⟨[], .inr ⟨given?_eq_none_of_optionMember hx, rfl⟩, hlist⟩

end Objects

/-! ### Metadata and address -/

section Texts

variable {document document' metadata metadata' : Members} {key t : Text}

/-- The members of the metadata, said of the member `metadata` as an optional part. -/
theorem metadataMember_iff_given? :
    MetadataMember document metadata ↔
      document.given? "metadata" = none ∧ metadata = [] ∨
        ∃ raw, document.given? "metadata" = some raw ∧
          (raw.isBlank = true ∧ metadata = [] ∨ raw = .obj metadata) := by
  constructor
  · rintro (h | @⟨raw, h, hblank⟩ | h)
    · exact .inl ⟨given?_eq_none_iff.2 (.inl h), rfl⟩
    · by_cases hnull : raw = .null
      · exact .inl ⟨given?_eq_none_iff.2 (.inr (hnull ▸ h)), rfl⟩
      · exact .inr ⟨raw, given?_eq_some_iff.2 ⟨h, hnull⟩, .inl ⟨hblank, rfl⟩⟩
    · exact .inr ⟨_, given?_eq_some_iff.2 ⟨h, nofun⟩, .inr rfl⟩
  · rintro (⟨h, rfl⟩ | ⟨raw, h, ⟨hblank, rfl⟩ | rfl⟩)
    · rcases given?_eq_none_iff.1 h with habsent | hnull
      · exact .absent habsent
      · exact .blank hnull rfl
    · exact .blank (Members.get?_of_given? h) hblank
    · exact .given (Members.get?_of_given? h)

theorem textMember_iff_of_none (h : document.given? key = none) :
    TextMember document key t ↔ t = [] := by
  constructor
  · rintro ⟨given, hgiven, rfl⟩
    cases given with
    | none => rfl
    | some found => cases h.symm.trans hgiven
  · rintro rfl
    exact ⟨none, h, rfl⟩

theorem textMember_iff_of_given {found : Text} (h : document.given? key = some (.str found)) :
    TextMember document key t ↔ t = found := by
  constructor
  · rintro ⟨given, hgiven, rfl⟩
    cases given with
    | none => cases h.symm.trans hgiven
    | some t => exact (Json.str.inj (Option.some.inj (h.symm.trans hgiven))).symm
  · rintro rfl
    exact ⟨some t, h, rfl⟩

theorem textMember_congr (h : document.given? key = document'.given? key) :
    TextMember document key t ↔ TextMember document' key t := by
  unfold TextMember
  rw [h]

theorem placedText_congr (hd : document.given? key = document'.given? key)
    (hm : metadata.given? key = metadata'.given? key) :
    PlacedText document metadata key t ↔ PlacedText document' metadata' key t := by
  constructor
  · rintro (⟨hnewer, nonempty⟩ | ⟨empty, holder⟩)
    · exact .newer (hm ▸ hnewer) nonempty
    · exact .older ((textMember_congr hm).1 empty) ((textMember_congr hd).1 holder)
  · rintro (⟨hnewer, nonempty⟩ | ⟨empty, holder⟩)
    · exact .newer (hm ▸ hnewer) nonempty
    · exact .older ((textMember_congr hm).2 empty) ((textMember_congr hd).2 holder)

/-- The address, given the members of the metadata: if there are none, they say nothing of it. -/
theorem addressForm_iff_of_member (hm : MetadataMember document metadata) :
    AddressForm document t ↔ document.given? "address" = some (.str t) ∨
      document.given? "address" = none ∧ TextMember metadata "address" t := by
  have hobj : ∀ m, document.get? "metadata" = some (.obj m) → m = metadata := fun m hget =>
    (metadataMember_iff.1 (.given hget)).2.trans (metadataMember_iff.1 hm).2.symm
  have hnone : (∀ m, document.get? "metadata" ≠ some (.obj m)) → metadata = [] := by
    rcases hm with _ | _ | hgiven
    · exact fun _ => rfl
    · exact fun _ => rfl
    · exact fun hno => absurd hgiven (hno metadata)
  constructor
  · rintro (h | ⟨habsent, hget, h⟩ | ⟨habsent, hno⟩)
    · exact .inl h
    · exact .inr ⟨habsent, hobj _ hget ▸ h⟩
    · exact .inr ⟨habsent, hnone hno ▸ (textMember_iff_of_none rfl).2 rfl⟩
  · rintro (h | ⟨habsent, h⟩)
    · exact .newer h
    · by_cases hget : ∃ m, document.get? "metadata" = some (.obj m)
      · obtain ⟨m, hget⟩ := hget
        exact .older habsent hget (hobj m hget ▸ h)
      · have hno := not_exists.1 hget
        rw [hnone hno, textMember_iff_of_none rfl] at h
        exact h ▸ .absent habsent hno

end Texts

section Objects

variable {members members' : Members}

/-! ### Documents that are alike -/

theorem metadataTexts_eq_of_alike (h : Alike .metadata members members') :
    metadataTexts members = metadataTexts members' := by
  funext key t
  exact propext (and_congr_right fun hp => ⟨h.text hp, h.symm.text hp⟩)

variable {metadata metadata' : Members} {key t : Text}

theorem Alike.metadataMember (h : Alike .document members members')
    (hm : MetadataMember members metadata) :
    ∃ metadata', MetadataMember members' metadata' ∧
      metadataTexts metadata = metadataTexts metadata' := by
  simp only [metadataMember_iff_given?] at hm ⊢
  rcases hm with ⟨habsent, rfl⟩ | ⟨raw, hgiven, hraw⟩
  · have hx := h.optional (metadata_mem_parts) (optionMember_none habsent)
    exact ⟨[], .inl ⟨given?_eq_none_of_optionMember hx, rfl⟩, rfl⟩
  · have hx := h.optional (metadata_mem_parts) (x := some (metadataTexts metadata))
      (optionMember_some hgiven ⟨metadata, hraw, rfl⟩)
    obtain ⟨raw', hgiven', metadata', hraw', htexts⟩ := exists_given?_of_optionMember hx
    exact ⟨metadata', .inr ⟨raw', hgiven', hraw'⟩, htexts⟩

theorem TextMember.of_metadataTexts (h : metadataTexts metadata = metadataTexts metadata')
    (hp : ⟨key, .text, .optional⟩ ∈ Role.metadata.parts metadata)
    (ht : TextMember metadata key t) : TextMember metadata' key t := by
  obtain ⟨given, hgiven, hgetD⟩ := ht
  have htexts : metadataTexts metadata key given := ⟨hp, hgiven⟩
  rw [h] at htexts
  exact ⟨given, htexts.2, hgetD⟩

theorem Alike.placedText (h : Alike .document members members')
    (htexts : metadataTexts metadata = metadataTexts metadata')
    (hd : ⟨key, .text, .optional⟩ ∈ Role.document.parts members)
    (hm : ⟨key, .text, .optional⟩ ∈ Role.metadata.parts metadata)
    (ht : PlacedText members metadata key t) : PlacedText members' metadata' key t := by
  cases ht with
  | newer hgiven nonempty =>
    have hnewer : metadataTexts metadata key (some t) := ⟨hm, hgiven⟩
    rw [htexts] at hnewer
    exact .newer hnewer.2 nonempty
  | older empty ht => exact .older (empty.of_metadataTexts htexts hm) (h.textMember hd ht)

theorem Alike.address (h : Alike .document members members')
    (hm : MetadataMember members metadata) (hm' : MetadataMember members' metadata')
    (htexts : metadataTexts metadata = metadataTexts metadata')
    (ht : AddressForm members t) : AddressForm members' t := by
  have hp : ⟨"address", .text, .optional⟩ ∈ Role.document.parts members := by simp [Role.parts]
  rw [addressForm_iff_of_member hm] at ht
  rw [addressForm_iff_of_member hm']
  refine ht.imp (fun hgiven => ?_) fun ⟨habsent, ht⟩ => ⟨?_, ?_⟩
  · exact h.text hp (t := some t) hgiven
  · exact h.text hp (t := none) habsent
  · exact ht.of_metadataTexts htexts (by simp [Role.parts])

theorem Alike.document (h : Alike .document members members') {S : Schema}
    (hS : DocumentForm members S) : DocumentForm members' S := by
  obtain ⟨metadata, hmember, hm⟩ := hS.metadata
  obtain ⟨metadata', hmember', htexts⟩ := h.metadataMember hmember
  exact {
    metadata := ⟨metadata', hmember', {
      name := h.placedText htexts (by simp [Role.parts]) (by simp [Role.parts]) hm.name
      version := h.placedText htexts (by simp [Role.parts]) (by simp [Role.parts]) hm.version
      spec := hm.spec.of_metadataTexts htexts (by simp [Role.parts])
      description := hm.description.of_metadataTexts htexts (by simp [Role.parts]) }⟩
    address := h.address hmember hmember' htexts hS.address
    instructions := by
      obtain ⟨list, hl, hlist⟩ := hS.instructions
      exact h.list (s := .instruction) (by simp [Role.parts]) hl hlist
    accounts := by
      obtain ⟨list, hl, hlist⟩ := hS.accounts
      exact h.list (s := .layout) (by simp [Role.parts]) hl hlist
    errors := by
      obtain ⟨list, hl, hlist⟩ := hS.errors
      exact h.list (s := .error) (by simp [Role.parts]) hl hlist
    types := by
      obtain ⟨list, hl, hlist⟩ := hS.types
      exact h.list (s := .custom) (by simp [Role.parts]) hl hlist }

end Objects

theorem typeForm_array_iff {raw : Json} {t : TypeExpr} :
    TypeForm (.obj [("array", raw)]) t ↔ ∃ element n t', raw = .arr [element, .int (.ofNat n)] ∧
      TypeForm element t' ∧ t = .array t' n := by
  constructor
  · intro ht
    have hread : readType [] (.obj [("array", raw)]) = .ok t := readType_eq_ok_iff.2 ht
    rw [readType_single _ _ _ (by rfl)] at hread
    simp only [Text.ofString_inj, String.reduceEq, if_false, if_true] at hread
    rw [readArray.eq_def] at hread
    split at hread
    · split at hread
      · next element _ n =>
        obtain ⟨t', ht', rfl⟩ := map_eq_ok.1 hread
        exact ⟨element, n, t', rfl, readType_eq_ok_iff.1 ht', rfl⟩
      · simp at hread
    · simp at hread
  · rintro ⟨element, n, t', rfl, ht', rfl⟩
    exact .array ht' n

/-- Metadata are an object, or nothing. -/
theorem denotes_metadata_obj_iff {members : Members} {texts : Text → Option Text → Prop} :
    Role.metadata.Denotes (.obj members) texts ↔ texts = metadataTexts members := by
  constructor
  · rintro ⟨found, ⟨hblank, rfl⟩ | heq, htexts⟩
    · obtain rfl : members = [] := List.isEmpty_iff.1 hblank
      exact htexts
    · exact Json.obj.inj heq ▸ htexts
  · exact fun htexts => ⟨members, .inr rfl, htexts⟩

/-- **Objects that are alike denote the same.** -/
theorem Alike.denotes_obj {r : Role} {members members' : Members} {x : r.Denoted}
    (h : Alike r members members') (hx : r.Denotes (.obj members) x) :
    r.Denotes (.obj members') x := by
  cases r with
  | document =>
    obtain ⟨_, heq, hS⟩ := hx
    obtain rfl := Json.obj.inj heq
    exact ⟨members', rfl, h.document hS⟩
  | metadata =>
    have htexts := (denotes_metadata_obj_iff.1 hx).trans (metadataTexts_eq_of_alike h)
    exact denotes_metadata_obj_iff.2 htexts
  | instruction => exact h.instruction hx
  | slot => exact h.slot hx
  | layout => exact h.layout hx
  | pda => exact h.pda hx
  | seed => exact h.seed hx
  | arg => exact h.arg hx
  | error => exact h.error hx
  | custom => exact h.custom hx
  | type => exact hx.of_alike h
  | reference => exact h.reference hx
  | generic => exact h.generic hx
  | field => exact h.field hx
  | variant => exact h.variant hx
  | array =>
    obtain ⟨_, _, _, heq, _⟩ := typeForm_array_iff.1 hx
    cases heq
  | text | boolean | code | byte | seedText | seedKind | typeKind | arrayLength => cases hx
  | name | seedPath | discriminator => cases hx.1
  | constant => rcases hx with heq | ⟨_, heq, _⟩ <;> cases heq
  | seeds | variantFields | list => obtain ⟨_, heq, _⟩ := hx; cases heq

end Document
end AnchorIdl
