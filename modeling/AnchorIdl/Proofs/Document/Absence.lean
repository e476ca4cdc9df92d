/-
# Null and absent members

Outside type expressions a null member counts as an absent one, with one
exception.  An item of an instruction's accounts is a group as soon as it has a
member `accounts`, null or not.  So if that member is null, the item is a group
without items, and its slot is lost.

Dropping a null member keeps how a document loads, in either mode, exactly if the
member is not the null `accounts` of an item in a document that loads
(`load_without_null`).  If it is, the document without it has that slot more, if
it loads at all.
-/

import AnchorIdl.Proofs.Document.Rewriting

namespace AnchorIdl
namespace Document

/-- The positions of the objects that are no type expressions and no parts of one. -/
def entryRoles : List Role :=
  [.document, .metadata, .instruction, .slot, .layout, .pda, .seed, .arg, .error, .custom]

/-- A null member of an object that is no type expression is dropped. -/
inductive DropsNull : Role → Json → Json → Prop
  | mk {r : Role} {members : Members} {key : Text} (hr : r ∈ entryRoles)
      (hnull : members.get? key = some .null) :
      DropsNull r (.obj members) (.obj (members.erase key))

/-- The null member that makes an item a group is dropped. -/
inductive DropsAccounts : Role → Json → Json → Prop
  | mk {members : Members} (hnull : members.get? "accounts" = some .null) :
      DropsAccounts .slot (.obj members) (.obj (members.erase ("accounts" : Text)))

/-! ### Members that count as absent -/

section Dropped

variable {r : Role} {members : Members} {key : Text}

/-- The positions of the required parts of objects that are no type expressions. -/
def requiredRoles : List Role :=
  [.name, .discriminator, .code, .type, .seeds, .constant, .seedText, .seedPath, .seedKind]

theorem not_denotes_null : ∀ r ∈ requiredRoles, ∀ x, ¬ r.Denotes .null x := by
  intro r hr x hx
  cases r with
  | name | seedPath => cases hx.1
  | code | seedText | seedKind => cases hx
  | type => cases hx
  | discriminator => cases hx.1
  | seeds => obtain ⟨_, heq, _⟩ := hx; cases heq
  | constant => rcases hx with heq | ⟨_, heq, _⟩ <;> cases heq
  | _ => simp [requiredRoles] at hr

theorem role_mem_requiredRoles (hr : r ∈ entryRoles) :
    ∀ p ∈ r.parts members, p.need = .required → p.role ∈ requiredRoles := by
  have hcandidates : ∀ r ∈ entryRoles, ∀ p ∈ r.candidates,
      p.need = .required → p.role ∈ requiredRoles := by
    decide
  exact fun p hp => hcandidates r hr p (parts_subset_candidates _ _ p hp)

theorem parts_erase (hr : r ∈ entryRoles) (hnull : members.get? key = some .null)
    (hkey : r = .slot → key ≠ "accounts") : r.parts members = r.parts (members.erase key) := by
  cases r with
  | slot =>
    refine slot_parts_eq_iff.2 ?_
    rw [Members.has, Members.has, Ordered.get?_erase, if_neg (hkey rfl).symm]
  | seed =>
    simp only [Role.parts, Ordered.get?_erase]
    split_ifs with hkind
    · rw [hkind, hnull]
      rfl
    · rfl
  | document | metadata | instruction | layout | pda | arg | error | custom => rfl
  | _ => simp [entryRoles] at hr

theorem alike_erase (hr : r ∈ entryRoles) (hnull : members.get? key = some .null)
    (hkey : r = .slot → key ≠ "accounts") : Alike r members (members.erase key) := by
  refine ⟨parts_erase hr hnull hkey, fun p hp x => ?_⟩
  by_cases hpkey : p.key = key
  · have herase : (members.erase key).get? p.key = none := by
      rw [Ordered.get?_erase, if_pos hpkey]
    rw [← hpkey] at hnull
    unfold Part.Denotes
    cases hneed : p.need with
    | required =>
      have hrole := not_denotes_null _ (role_mem_requiredRoles hr p hp hneed)
      constructor
      · rintro ⟨raw, y, hget, hy, -⟩
        obtain rfl := Option.some.inj (hnull.symm.trans hget)
        exact absurd hy (hrole y)
      · rintro ⟨raw, y, hget, -⟩
        cases herase.symm.trans hget
    | optional =>
      unfold OptionMember
      rw [given?_eq_none_iff.2 (.inl herase), given?_eq_none_iff.2 (.inr hnull)]
  · exact denotes_congr (by rw [Ordered.get?_erase, if_neg hpkey]) x

end Dropped

/-- A null member may be dropped, unless it makes an item a group. -/
theorem DropsNull.same_or {r : Role} {v v' : Json} (h : DropsNull r v v') :
    DropsAccounts r v v' ∨ r.Same v v' := by
  cases h with
  | @mk members key hr hnull =>
    by_cases hgroup : r = .slot ∧ key = "accounts"
    · obtain ⟨rfl, rfl⟩ := hgroup
      exact .inl (.mk hnull)
    · have hentry : ∀ r ∈ entryRoles, r ≠ .field ∧ r ≠ .type := by decide
      have halike := alike_erase hr hnull fun hslot hkey => hgroup ⟨hslot, hkey⟩
      refine .inr (same_obj halike fun htype => ?_)
      rcases htype with rfl | rfl
      · exact absurd rfl (hentry _ hr).1
      · exact absurd rfl (hentry _ hr).2

/-! ### Slots that are lost -/

/-- A list has one item more than another. -/
def MoreByOne {α : Type} (xs xs' : List α) : Prop :=
  ∃ before x after, xs = before ++ after ∧ xs' = before ++ x :: after

/-- Two lists differ in one item, and as `R` says. -/
def DifferInOne {α : Type} (R : α → α → Prop) (xs xs' : List α) : Prop :=
  ∃ before x x' after, xs = before ++ x :: after ∧ xs' = before ++ x' :: after ∧ R x x'

/-- An instruction is another one with a slot more. -/
def GainsSlot (x x' : Instruction) : Prop :=
  ∃ accounts, MoreByOne x.accounts accounts ∧ x' = { x with accounts }

/-- A schema is another one in which one instruction has a slot more. -/
def SlotGained (S S' : Schema) : Prop :=
  ∃ instructions, DifferInOne GainsSlot S.instructions instructions ∧ S' = { S with instructions }

/-- What the values around an item with the null member denote, without and with its slot. -/
def Gained : (r : Role) → r.Denoted → r.Denoted → Prop
  | .document => SlotGained
  | .instruction => GainsSlot
  | .slot => MoreByOne
  | .list r => DifferInOne (Gained r)
  | _ => fun _ _ => False

/-- The positions that have no slot at or below them. -/
def slotless : Role → Bool
  | .document | .instruction | .slot => false
  | .list r => slotless r
  | _ => true

theorem slotless_part {r : Role} {members : Members} (h : slotless r = true) :
    ∀ p ∈ r.parts members, slotless p.role = true := by
  have hcandidates : ∀ p ∈ r.candidates, slotless p.role = true := by
    cases r with
    | document | instruction | slot => cases h
    | _ => simp only [Role.candidates, Role.parts]; decide
  exact fun p hp => hcandidates p (parts_subset_candidates _ _ p hp)

theorem slotless_item {r item : Role} {list : List Json} {i : Nat} (h : slotless r = true)
    (hr : r.item list i = some item) : slotless item = true := by
  unfold Role.item at hr
  split at hr
  · exact Option.some.inj hr ▸ h
  · exact Option.some.inj hr ▸ rfl
  · exact Option.some.inj hr ▸ rfl
  · exact Option.some.inj hr ▸ rfl
  · exact Option.some.inj hr ▸ rfl
  · exact Option.some.inj hr ▸ rfl
  · split_ifs at hr
    · exact Option.some.inj hr ▸ rfl
    · exact Option.some.inj hr ▸ rfl
  · cases hr

theorem slotless_eq_false_of_within {r : Role} {v v' : Json} (h : Within DropsAccounts r v v') :
    slotless r = false := by
  induction h with
  | here h => cases h; rfl
  | member hp _ _ ih =>
    refine Bool.of_not_eq_true fun hr => ?_
    rw [slotless_part hr _ hp] at ih
    cases ih
  | item hr _ _ ih =>
    refine Bool.of_not_eq_true fun h => ?_
    rw [slotless_item h hr] at ih
    cases ih

/-- The list around an item with the null member is a list, without it and with it. -/
theorem exists_arr_of_within {r : Role} {v v' : Json} (h : Within DropsAccounts (.list r) v v') :
    ∃ list list', v = .arr list ∧ v' = .arr list' := by
  cases h with
  | here h => cases h
  | member hp => cases hp
  | item => exact ⟨_, _, rfl, rfl⟩

theorem moreByOne_flatten {α : Type} {groups groups' : List (List α)}
    (h : DifferInOne MoreByOne groups groups') : MoreByOne groups.flatten groups'.flatten := by
  obtain ⟨before, _, _, after, rfl, rfl, left, x, right, rfl, rfl⟩ := h
  exact ⟨before.flatten ++ left, x, right ++ after.flatten, by simp, by simp⟩

/-- What a list denotes differs in one item from what it denotes with that item replaced. -/
theorem exists_forall₂_of_set {α β : Type} {R : α → β → Prop} {list : List α} {i : Nat} {v v' : α}
    (hv : list[i]? = some v) {ys' : List β} (h : List.Forall₂ R (list.set i v') ys') :
    ∃ before y' after, ys' = before ++ y' :: after ∧ R v' y' ∧
      ∀ y, R v y → List.Forall₂ R list (before ++ y :: after) := by
  induction list generalizing i ys' with
  | nil => cases hv
  | cons x rest ih =>
    cases i with
    | zero =>
      obtain rfl := Option.some.inj hv
      cases h with
      | cons head tail => exact ⟨[], _, _, rfl, head, fun y hy => .cons hy tail⟩
    | succ i =>
      cases h with
      | cons head tail =>
        obtain ⟨before, y', after, rfl, hy', hlist⟩ := ih hv tail
        exact ⟨_ :: before, y', after, rfl, hy', fun y hy => .cons head (hlist y hy)⟩

section Replaced

variable {members : Members} {key : Text} {v v' : Json}

theorem gained_here (hnull : members.get? "accounts" = some .null) {slots' : List AccountRef}
    (h : SlotsForm (.obj (members.erase ("accounts" : Text))) slots') :
    ∃ slots, SlotsForm (.obj members) slots ∧ MoreByOne slots slots' := by
  have herase : (members.erase ("accounts" : Text)).get? "accounts" = none := by
    rw [Ordered.get?_erase, if_pos rfl]
  have hname : (members.erase ("accounts" : Text)).get? "name" = members.get? "name" := by
    rw [Ordered.get?_erase, if_neg (by decide)]
  cases h with
  | @slot _ a _ slot =>
    have hn : NameMember members a.name := ⟨hname ▸ slot.name.1, slot.name.2⟩
    have hl : ListMember members "accounts" [] := .inr ⟨given?_eq_none_iff.2 (.inr hnull), rfl⟩
    exact ⟨[], .group (by simp [hnull]) hn hl .nil, [], a, [], rfl, rfl⟩
  | group several => exact absurd herase several

/-- The slots of a list in which one is gained. -/
theorem gained_slots (hv : members.get? "accounts" = some v)
    (hlist : Within DropsAccounts (.list .slot) v v')
    (ih : ∀ xs', (Role.list .slot).Denotes v' xs' →
      ∃ xs, (Role.list .slot).Denotes v xs ∧ DifferInOne MoreByOne xs xs')
    {list' : List Json} {slots' : List AccountRef}
    (hl : ListMember (members.put ("accounts" : Text) v') "accounts" list')
    (hs : SlotsForms list' slots') :
    ∃ list slots, ListMember members "accounts" list ∧ SlotsForms list slots ∧
      MoreByOne slots slots' := by
  obtain ⟨list, _, rfl, rfl⟩ := exists_arr_of_within hlist
  obtain rfl := listMember_put_iff.1 hl
  obtain ⟨groups', hgroups', rfl⟩ := hs.exists_forall₂
  obtain ⟨groups, ⟨_, heq, hgroups⟩, hgained⟩ := ih groups' ⟨_, rfl, hgroups'⟩
  obtain rfl := Json.arr.inj heq
  exact ⟨list, groups.flatten, .inl (given?_eq_some_iff.2 ⟨hv, by simp⟩),
    slotsForms_of_forall₂ hgroups, moreByOne_flatten hgained⟩

theorem gained_group (hv : members.get? "accounts" = some v)
    (hlist : Within DropsAccounts (.list .slot) v v')
    (ih : ∀ xs', (Role.list .slot).Denotes v' xs' →
      ∃ xs, (Role.list .slot).Denotes v xs ∧ DifferInOne MoreByOne xs xs')
    {slots' : List AccountRef} (h : SlotsForm (.obj (members.put ("accounts" : Text) v')) slots') :
    ∃ slots, SlotsForm (.obj members) slots ∧ MoreByOne slots slots' := by
  cases h with
  | slot single => simp [Ordered.get?_put] at single
  | group several hn hl hs =>
    obtain ⟨list, slots, hl', hs', hmore⟩ := gained_slots hv hlist ih hl hs
    have hn' := (nameMember_put_of_ne (by decide)).1 hn
    exact ⟨slots, .group (by simp [hv]) hn' hl' hs', hmore⟩

theorem gained_instruction (hv : members.get? "accounts" = some v)
    (hlist : Within DropsAccounts (.list .slot) v v')
    (ih : ∀ xs', (Role.list .slot).Denotes v' xs' →
      ∃ xs, (Role.list .slot).Denotes v xs ∧ DifferInOne MoreByOne xs xs')
    {x' : Instruction} (h : InstructionForm (.obj (members.put ("accounts" : Text) v')) x') :
    ∃ x, InstructionForm (.obj members) x ∧ GainsSlot x x' := by
  cases h with
  | mk hn ha slots hl each hd discriminator docs =>
    obtain ⟨list, accounts, ha', slots', hmore⟩ := gained_slots hv hlist ih ha slots
    refine ⟨{ x' with accounts }, ?_, x'.accounts, hmore, rfl⟩
    have hn' := (nameMember_put_of_ne (by decide)).1 hn
    have hl' := (listMember_put_of_ne (by decide)).1 hl
    have hd' := (get?_put_of_ne (by decide)).symm.trans hd
    exact .mk hn' ha' slots' hl' each hd' discriminator ((listMember_put_of_ne (by decide)).1 docs)

theorem gained_document (hv : members.get? "instructions" = some v)
    (hlist : Within DropsAccounts (.list .instruction) v v')
    (ih : ∀ xs', (Role.list .instruction).Denotes v' xs' →
      ∃ xs, (Role.list .instruction).Denotes v xs ∧ DifferInOne GainsSlot xs xs')
    {S' : Schema} (h : DocumentForm (members.put ("instructions" : Text) v') S') :
    ∃ S, DocumentForm members S ∧ SlotGained S S' := by
  have hgiven : ∀ key : Text, key ≠ "instructions" →
      Members.given? (members.put ("instructions" : Text) v') key = members.given? key :=
    fun key hkey => given?_congr (get?_put_of_ne hkey)
  have hsection : ∀ {α : Type} {R : Json → α → Prop} {entries : List α} (key : Text),
      key ≠ "instructions" → SectionForm R (members.put ("instructions" : Text) v') key entries →
        SectionForm R members key entries :=
    fun key hkey ⟨list, hl, hentries⟩ => ⟨list, (listMember_put_of_ne hkey).1 hl, hentries⟩
  obtain ⟨list, _, rfl, rfl⟩ := exists_arr_of_within hlist
  obtain ⟨list', hl, hentries⟩ := h.instructions
  obtain rfl := listMember_put_iff.1 hl
  obtain ⟨instructions, ⟨_, heq, hinstructions⟩, hdiffer⟩ := ih S'.instructions ⟨_, rfl, hentries⟩
  obtain rfl := Json.arr.inj heq
  obtain ⟨metadata, hmember, hm⟩ := h.metadata
  have hmember' : MetadataMember members metadata := by
    rwa [metadataMember_iff_given?, hgiven _ (by decide), ← metadataMember_iff_given?] at hmember
  refine ⟨{ S' with instructions }, ?_, S'.instructions, hdiffer, rfl⟩
  exact {
    metadata := ⟨metadata, hmember', {
      name := (placedText_congr (hgiven _ (by decide)) rfl).1 hm.name
      version := (placedText_congr (hgiven _ (by decide)) rfl).1 hm.version
      spec := hm.spec
      description := hm.description }⟩
    address := by
      have haddress := h.address
      rw [addressForm_iff_of_member hmember, hgiven _ (by decide)] at haddress
      exact (addressForm_iff_of_member hmember').2 haddress
    instructions := ⟨list, .inl (given?_eq_some_iff.2 ⟨hv, by simp⟩), hinstructions⟩
    accounts := hsection _ (by decide) h.accounts
    errors := hsection _ (by decide) h.errors
    types := hsection _ (by decide) h.types }

end Replaced

/-- The parts at or below which a slot can stand. -/
theorem part_of_slotless_eq_false {r : Role} {members : Members} {p : Part}
    (hp : p ∈ r.parts members) (h : slotless p.role = false) :
    r = .document ∧ p = ⟨"instructions", .list .instruction, .optional⟩ ∨
      (r = .instruction ∨ r = .slot) ∧ p = ⟨"accounts", .list .slot, .optional⟩ := by
  have hr : slotless r = false := Bool.of_not_eq_true fun hr => by
    rw [slotless_part hr p hp] at h
    cases h
  have hcandidates : ∀ r ∈ [Role.document, .instruction, .slot], ∀ p ∈ r.candidates,
      slotless p.role = false →
        r = .document ∧ p = ⟨"instructions", .list .instruction, .optional⟩ ∨
          (r = .instruction ∨ r = .slot) ∧ p = ⟨"accounts", .list .slot, .optional⟩ := by
    decide
  cases r with
  | document | instruction | slot =>
    exact hcandidates _ (by decide) p (parts_subset_candidates _ _ p hp) h
  | list => cases hp
  | _ => cases hr

theorem gained_of_within {r : Role} {v v' : Json} (h : Within DropsAccounts r v v') :
    ∀ x', r.Denotes v' x' → ∃ x, r.Denotes v x ∧ Gained r x x' := by
  induction h with
  | here h =>
    cases h with
    | mk hnull => exact fun slots' hs => gained_here hnull hs
  | @member r members p v v' hp hv h ih =>
    rcases part_of_slotless_eq_false hp (slotless_eq_false_of_within h) with
      ⟨rfl, rfl⟩ | ⟨rfl | rfl, rfl⟩
    · rintro S' ⟨_, heq, hS'⟩
      obtain rfl := Json.obj.inj heq
      obtain ⟨S, hS, hgained⟩ := gained_document hv h ih hS'
      exact ⟨S, ⟨members, rfl, hS⟩, hgained⟩
    · exact fun x' hx' => gained_instruction hv h ih hx'
    · exact fun slots' hs => gained_group hv h ih hs
  | @item r item list i v v' hr hv h ih =>
    have hitem := slotless_eq_false_of_within h
    cases r with
    | list r =>
      obtain rfl := Option.some.inj hr
      rintro xs' ⟨_, heq, hxs'⟩
      obtain rfl := Json.arr.inj heq
      obtain ⟨before, x', after, rfl, hx', hlist⟩ := exists_forall₂_of_set hv hxs'
      obtain ⟨x, hx, hgained⟩ := ih x' hx'
      exact ⟨before ++ x :: after, ⟨list, rfl, hlist x hx⟩, before, x, x', after, rfl, rfl, hgained⟩
    | document | instruction | slot => cases hr
    | _ => simp [slotless_item (r := _) rfl hr] at hitem

theorem SlotGained.duplicates_eq {S S' : Schema} (h : SlotGained S S') :
    duplicates S = duplicates S' := by
  obtain ⟨_, ⟨before, x, _, after, hx, rfl, accounts, -, rfl⟩, rfl⟩ := h
  simp [duplicates, hx]

/-- **An item whose `accounts` are null loses its slot.**  Whenever the document without that
member loads, in either mode, the document with it loads to the schema with that slot less. -/
theorem load_dropsAccounts {D D' : Json} (h : Within DropsAccounts .document D D') {strict : Bool}
    {S' : Schema} (hS' : (load strict (.value D')).outcome = .ok S') :
    ∃ S, (load strict (.value D)).outcome = .ok S ∧ SlotGained S S' := by
  obtain ⟨hdocument, hreport⟩ := load_eq_ok_iff.1 hS'
  obtain ⟨S, hS, hgained⟩ := gained_of_within h S' hdocument
  have hsame : reportDuplicates strict S = reportDuplicates strict S' :=
    congrArg (reportEach strict) (SlotGained.duplicates_eq hgained)
  refine ⟨S, load_eq_ok_iff.2 ⟨hS, reportDuplicates_eq_ok_iff.1 ?_⟩, hgained⟩
  rw [hsame]
  exact reportDuplicates_eq_ok_iff.2 hreport

/-- If the document with that member cannot be read, then nor can the one without. -/
theorem readSchema_dropsAccounts {D D' : Json} (h : Within DropsAccounts .document D D')
    (hnone : ∀ S, (Source.value D).readSchema.outcome ≠ .ok S) :
    ∀ S', (Source.value D').readSchema.outcome ≠ .ok S' := by
  intro S' hS'
  obtain ⟨document, hdocument, hform⟩ := Source.readSchema_eq_ok_iff.1 hS'
  obtain ⟨S, ⟨document', rfl, hS⟩, -⟩ := gained_of_within h S'
    ⟨document, Except.ok.inj hdocument, hform⟩
  exact hnone S (Source.readSchema_eq_ok_iff.2 ⟨document', rfl, hS⟩)

theorem SlotGained.ne {S S' : Schema} (h : SlotGained S S') : S ≠ S' := by
  rintro rfl
  obtain ⟨_, ⟨before, x, _, after, hx, rfl, accounts, hmore, rfl⟩, hS⟩ := h
  have hinstructions : S.instructions = before ++ { x with accounts } :: after :=
    congrArg Schema.instructions hS
  rw [hx] at hinstructions
  have haccounts : x = { x with accounts } :=
    (List.cons.inj (List.append_cancel_left hinstructions)).1
  obtain ⟨left, a, right, hleft, hright⟩ := hmore
  have hlength : x.accounts.length = accounts.length :=
    congrArg (fun x : Instruction => x.accounts.length) haccounts
  rw [hleft, hright] at hlength
  simp at hlength

/-- Without the null `accounts` of an item a document loads alike exactly if it does not load with
it, and is then warned of the same. -/
theorem loadAlike_dropsAccounts_iff {D D' : Json} (h : Within DropsAccounts .document D D') :
    LoadAlike D D' ↔ (∀ S, (load false (.value D)).outcome ≠ .ok S) ∧
      warnings (load false (.value D)).log = warnings (load false (.value D')).log := by
  constructor
  · intro halike
    refine ⟨fun S hS => ?_, halike.warnings false⟩
    obtain ⟨S₀, hS₀, hgained⟩ := load_dropsAccounts h ((halike.schema false S).1 hS)
    exact hgained.ne (Except.ok.inj (hS₀.symm.trans hS))
  · rintro ⟨hlenient, hwarnings⟩
    -- neither loads: what loads without the member loads with it
    have hnone : ∀ strict S, (load strict (.value D)).outcome ≠ .ok S := by
      intro strict S hS
      obtain ⟨hread, hshown, -⟩ := load_eq_ok_iff.1 hS
      exact hlenient S (load_eq_ok_iff.2 ⟨hread, hshown, nofun⟩)
    have hnone' : ∀ strict S, (load strict (.value D')).outcome ≠ .ok S := by
      intro strict S hS
      obtain ⟨S₀, hS₀, -⟩ := load_dropsAccounts h hS
      exact hnone strict S₀ hS₀
    refine ⟨fun strict S => iff_of_false (hnone strict S) (hnone' strict S), fun strict => ?_⟩
    cases strict with
    | false => exact hwarnings
    | true =>
      have herror : ∀ D : Json, (∀ S, (load true (.value D)).outcome ≠ .ok S) →
          warnings (load true (.value D)).log = [] := by
        intro D hD
        cases hload : (load true (.value D)).outcome with
        | ok S => exact absurd hload (hD S)
        | error e => exact warnings_of_strict_error hload
      rw [herror D (hnone true), herror D' (hnone' true)]

/-- **A null member outside type expressions counts as absent, except one.**  Without it the
document loads alike exactly if it is not the null `accounts` of an item, or nothing loads with it.
If it is, the document without it loads only to a schema that has a slot more.  A document with
integers that are too long may fail after some warnings, and these have to be the same too. -/
theorem load_without_null {D D' : Json} (h : Within (OrUnread DropsNull) .document D D') :
    (D.Short → (LoadAlike D D' ↔
      (Within DropsAccounts .document D D' → ∀ S, (load false (.value D)).outcome ≠ .ok S))) ∧
    (LoadAlike D D' ↔ (Within DropsAccounts .document D D' →
      (∀ S, (load false (.value D)).outcome ≠ .ok S) ∧
        warnings (load false (.value D)).log = warnings (load false (.value D')).log)) ∧
    (Within DropsAccounts .document D D' → ∀ strict S',
      (load strict (.value D')).outcome = .ok S' →
        ∃ S, (load strict (.value D)).outcome = .ok S ∧ SlotGained S S') := by
  have hrule : ∀ r v v', OrUnread DropsNull r v v' → DropsAccounts r v v' ∨ r.Same v v' := by
    rintro r v v' (hnull | hunread)
    · exact hnull.same_or
    · exact .inr hunread.same
  have halike : LoadAlike D D' ↔ (Within DropsAccounts .document D D' →
      (∀ S, (load false (.value D)).outcome ≠ .ok S) ∧
        warnings (load false (.value D)).log = warnings (load false (.value D')).log) := by
    refine ⟨fun halike haccounts => (loadAlike_dropsAccounts_iff haccounts).1 halike,
      fun hexcept => ?_⟩
    rcases h.or hrule with haccounts | hsame
    · exact (loadAlike_dropsAccounts_iff haccounts).2 (hexcept haccounts)
    · exact .of_same (hsame.same fun _ _ _ h => h)
  refine ⟨fun hshort => ?_, halike, fun haccounts _ _ => load_dropsAccounts haccounts⟩
  rw [halike]
  refine forall_congr' fun haccounts => and_iff_left_of_imp fun hlenient => ?_
  -- without integers that are too long, what does not load is not read
  have hnone : ∀ S, (Source.value D).readSchema.outcome ≠ .ok S := by
    intro S hS
    have hshown : S.CodesShown := (Source.short_value.2 hshort).codesShown hS
    exact hlenient S (load_eq_ok_iff_readSchema.2 ⟨hS, hshown, nofun⟩)
  rw [warnings_of_not_read hnone, warnings_of_not_read (readSchema_dropsAccounts haccounts hnone)]

/-- A document with one item of accounts, which has the members given. -/
def itemSample (members : Members) : Json :=
  .obj [("instructions", .arr [.obj [("name", .str "i"),
    ("discriminator", .ofBytes [1, 2, 3, 4, 5, 6, 7, 8]), ("accounts", .arr [.obj members])]])]

/-- The schema with those slots. -/
def itemSchema (accounts : List AccountRef) : Schema where
  instructions := [{ name := "i", discriminator := [1, 2, 3, 4, 5, 6, 7, 8], accounts }]

theorem within_itemSample {rule : Role → Json → Json → Prop} {members members' : Members}
    (h : rule .slot (.obj members) (.obj members')) :
    Within rule .document (itemSample members) (itemSample members') :=
  .member (p := ⟨"instructions", .list .instruction, .optional⟩) (by simp [Role.parts]) rfl
    (.item (i := 0) rfl rfl (.member (p := ⟨"accounts", .list .slot, .optional⟩)
      (by simp [Role.parts]) rfl (.item (i := 0) rfl rfl (.here h))))

/-- Dropping the null flag of an item changes nothing, dropping its null `accounts` does. -/
theorem itemSample_without_null :
    LoadAlike (itemSample [("name", .str "a"), ("isMut", .null)])
      (itemSample [("name", .str "a")]) ∧
    ¬ LoadAlike (itemSample [("name", .str "a"), ("accounts", .null)])
      (itemSample [("name", .str "a")]) ∧
    (load true (.value (itemSample [("name", .str "a"), ("accounts", .null)]))).outcome =
      .ok (itemSchema []) ∧
    (load true (.value (itemSample [("name", .str "a")]))).outcome =
      .ok (itemSchema [{ name := "a" }]) := by
  have hflag : Within (OrUnread DropsNull) .document
      (itemSample [("name", .str "a"), ("isMut", .null)]) (itemSample [("name", .str "a")]) :=
    within_itemSample (.inl (@DropsNull.mk _ _ "isMut" (by decide) rfl))
  have hnull : Within (OrUnread DropsNull) .document
      (itemSample [("name", .str "a"), ("accounts", .null)]) (itemSample [("name", .str "a")]) :=
    within_itemSample (.inl (@DropsNull.mk _ _ "accounts" (by decide) rfl))
  have haccounts : Within DropsAccounts .document
      (itemSample [("name", .str "a"), ("accounts", .null)]) (itemSample [("name", .str "a")]) :=
    within_itemSample (.mk rfl)
  have hload : ∀ strict, (load strict (.value (itemSample [("name", .str "a")]))).outcome =
      .ok (itemSchema [{ name := "a" }]) := by
    decide +kernel
  have hloadFlag :
      (load true (.value (itemSample [("name", .str "a"), ("isMut", .null)]))).outcome =
        .ok (itemSchema [{ name := "a" }]) := by
    decide +kernel
  have hloadNull : ∀ strict,
      (load strict (.value (itemSample [("name", .str "a"), ("accounts", .null)]))).outcome =
        .ok (itemSchema []) := by
    decide +kernel
  have hshort : (itemSample [("name", .str "a"), ("isMut", .null)]).Short := by
    unfold Json.Short
    decide
  refine ⟨((load_without_null hflag).1 hshort).2 fun hgroup => ?_, fun halike => ?_, hloadNull true,
    hload true⟩
  · obtain ⟨S, hS, hgained⟩ := (load_without_null hflag).2.2 hgroup _ _ (hload true)
    exact absurd (Except.ok.inj (hS.symm.trans hloadFlag)) hgained.ne
  · exact ((load_without_null hnull).2.1.1 halike haccounts).1 _ (hloadNull false)

end Document
end AnchorIdl
