/-
# Groups of accounts

The accounts of an instruction are a tree: an item with a member `accounts` is a
group, whatever else it has, and any other item is a leaf.  `leaves` lists the
leaves of an item from left to right and at every depth.

The slots of an instruction are its leaves, read one by one (`Flattens`): none is
lost, none stands twice, and groups do not change their order.  So groups may be
made and dissolved at will (`Gathers`): at whatever depth this is done, the
document loads alike (`load_flattens`).
-/

import AnchorIdl.Proofs.Document.Rewriting

namespace AnchorIdl
namespace Document

/-! ### Leaves -/

/-- The items at or below an item that are no groups, from left to right. -/
def leaves (raw : Json) : List Json :=
  match raw with
  | .obj members =>
    match Members.find members "accounts" with
    | some ⟨.arr list, h⟩ =>
      list.attach.flatMap fun ⟨item, hi⟩ =>
        have := Members.sizeOf_item_lt h hi
        leaves item
    | some _ => []
    | none => [.obj members]
  | raw => [raw]
termination_by sizeOf raw
decreasing_by simp; omega

theorem leaves_obj (members : Members) :
    leaves (.obj members) =
      match members.get? "accounts" with
      | some (.arr list) => list.flatMap leaves
      | some _ => []
      | none => [.obj members] := by
  rw [leaves, ← Members.find_map_val]
  cases members.find "accounts" with
  | none => rfl
  | some value =>
    obtain ⟨value, h⟩ := value
    cases value with
    | arr list =>
      change list.attach.flatMap (fun item => leaves item.val) = list.flatMap leaves
      rw [List.flatMap_def, List.attach_map_val, List.flatMap_def]
    | _ => rfl

theorem leaves_slot {members : Members} (single : members.get? "accounts" = none) :
    leaves (.obj members) = [.obj members] := by
  rw [leaves_obj, single]

theorem leaves_group {members : Members} {list : List Json}
    (several : members.get? "accounts" ≠ none) (hl : ListMember members "accounts" list) :
    leaves (.obj members) = list.flatMap leaves := by
  rw [leaves_obj]
  rcases hl with hgiven | ⟨habsent, rfl⟩
  · rw [Members.get?_of_given? hgiven]
  · rw [(given?_eq_none_iff.1 habsent).resolve_left several]
    rfl

/-- A slot is what an item is read as. -/
def IsSlotOf (raw : Json) (a : AccountRef) : Prop :=
  ∃ members, raw = .obj members ∧ SlotForm members a

mutual

theorem SlotsForm.leaves {raw : Json} {slots : List AccountRef} :
    SlotsForm raw slots → List.Forall₂ IsSlotOf (leaves raw) slots
  | .slot single slot => by
    rw [leaves_slot single]
    exact .cons ⟨_, rfl, slot⟩ .nil
  | .group several _ hl hs => by
    rw [leaves_group several hl]
    exact hs.leaves

theorem SlotsForms.leaves {list : List Json} {slots : List AccountRef} :
    SlotsForms list slots → List.Forall₂ IsSlotOf (list.flatMap Document.leaves) slots
  | .nil => .nil
  | .cons head tail => by
    rw [List.flatMap_cons]
    exact List.rel_append head.leaves tail.leaves

end

/-- The slots of an instruction are the leaves of its accounts, one for one and in their order. -/
inductive Flattens : Json → Instruction → Prop
  | mk {members : Members} {accounts : List Json} {x : Instruction}
      (ha : ListMember members "accounts" accounts)
      (slots : List.Forall₂ IsSlotOf (accounts.flatMap leaves) x.accounts) :
      Flattens (.obj members) x

theorem InstructionForm.flattens {raw : Json} {x : Instruction} :
    InstructionForm raw x → Flattens raw x
  | .mk _ ha slots _ _ _ _ _ => .mk ha slots.leaves

/-! ### Making and dissolving groups -/

/-- A run of items, maybe empty, is gathered into a group. -/
inductive Gathers : List Json → List Json → Prop
  | mk {before run after : List Json} {group : Members} {name : Text} (hn : NameMember group name)
      (hl : group.get? "accounts" = some (.arr run)) :
      Gathers (before ++ run ++ after) (before ++ .obj group :: after)

/-- In the accounts of an instruction, or of a group, a run is gathered or a group dissolved. -/
inductive Regroups : Role → Json → Json → Prop
  | mk {r : Role} {members : Members} {list list' : List Json} (hr : r = .instruction ∨ r = .slot)
      (hl : members.get? "accounts" = some (.arr list))
      (h : Gathers list list' ∨ Gathers list' list) :
      Regroups r (.obj members) (.obj (members.put "accounts" (.arr list')))

theorem slotsForms_nil_iff {slots : List AccountRef} : SlotsForms [] slots ↔ slots = [] :=
  ⟨fun h => by cases h; rfl, fun h => h ▸ .nil⟩

theorem slotsForms_cons_iff {raw : Json} {rest : List Json} {slots : List AccountRef} :
    SlotsForms (raw :: rest) slots ↔
      ∃ first more, SlotsForm raw first ∧ SlotsForms rest more ∧ slots = first ++ more := by
  constructor
  · rintro ⟨⟩
    exact ⟨_, _, ‹_›, ‹_›, rfl⟩
  · rintro ⟨first, more, hfirst, hmore, rfl⟩
    exact .cons hfirst hmore

theorem slotsForms_append_iff {xs ys : List Json} {slots : List AccountRef} :
    SlotsForms (xs ++ ys) slots ↔
      ∃ first more, SlotsForms xs first ∧ SlotsForms ys more ∧ slots = first ++ more := by
  induction xs generalizing slots with
  | nil => simp [slotsForms_nil_iff]
  | cons x xs ih =>
    simp only [List.cons_append, slotsForms_cons_iff, ih]
    constructor
    · rintro ⟨first, _, hfirst, ⟨second, third, hsecond, hthird, rfl⟩, rfl⟩
      exact ⟨first ++ second, third, ⟨first, second, hfirst, hsecond, rfl⟩, hthird, by simp⟩
    · rintro ⟨_, third, ⟨first, second, hfirst, hsecond, rfl⟩, hthird, rfl⟩
      exact ⟨first, second ++ third, hfirst, ⟨second, third, hsecond, hthird, rfl⟩, by simp⟩

/-- A group stands for the slots of its items, if it has a name. -/
theorem slotsForm_group_iff {group : Members} {run : List Json} {slots : List AccountRef}
    (hl : group.get? "accounts" = some (.arr run)) :
    SlotsForm (.obj group) slots ↔ (∃ name, NameMember group name) ∧ SlotsForms run slots := by
  constructor
  · rintro (⟨single, -⟩ | ⟨-, hn, hrun, hs⟩)
    · cases hl.symm.trans single
    · obtain rfl := (listMember_iff_of_get? hl).1 hrun
      exact ⟨⟨_, hn⟩, hs⟩
  · rintro ⟨⟨name, hn⟩, hs⟩
    exact .group (by simp [hl]) hn ((listMember_iff_of_get? hl).2 rfl) hs

/-- **Gathering items keeps their slots.** -/
theorem Gathers.slotsForms_iff {list list' : List Json} (h : Gathers list list')
    (slots : List AccountRef) : SlotsForms list slots ↔ SlotsForms list' slots := by
  obtain @⟨before, run, after, group, name, hn, hl⟩ := h
  have hgroup : ∀ slots, SlotsForm (.obj group) slots ↔ SlotsForms run slots :=
    fun slots => (slotsForm_group_iff hl).trans (and_iff_right ⟨name, hn⟩)
  rw [List.append_assoc]
  simp only [slotsForms_append_iff, slotsForms_cons_iff, hgroup]

section Members

variable {members members' : Members} {list list' : List Json}
  (hother : ∀ key : Text, key ≠ "accounts" → members.get? key = members'.get? key)
  (hl : members.get? "accounts" = some (.arr list))
  (hl' : members'.get? "accounts" = some (.arr list'))
  (h : ∀ slots, SlotsForms list slots ↔ SlotsForms list' slots)

include hother hl hl' h

/-- A group does not change with the accounts, if these stand for the same slots. -/
theorem slotsForm_congr (slots : List AccountRef) :
    SlotsForm (.obj members) slots ↔ SlotsForm (.obj members') slots := by
  simp only [slotsForm_group_iff hl, slotsForm_group_iff hl', NameMember,
    hother "name" (by decide), h]

theorem instructionForm_of_accounts {x : Instruction} :
    InstructionForm (.obj members) x → InstructionForm (.obj members') x
  | .mk hn ha slots hargs each hd discriminator docs => by
    obtain rfl := (listMember_iff_of_get? hl).1 ha
    have hlist : ∀ key : Text, key ≠ "accounts" → ∀ list : List Json,
        ListMember members key list → ListMember members' key list := fun key hkey list => by
      unfold ListMember
      rw [given?_congr (hother key hkey)]
      exact id
    exact .mk ⟨hother "name" (by decide) ▸ hn.1, hn.2⟩ ((listMember_iff_of_get? hl').2 rfl)
      ((h _).1 slots) (hlist _ (by decide) _ hargs) each
      ((hother "discriminator" (by decide)).symm.trans hd) discriminator
      (hlist _ (by decide) _ docs)

end Members

/-- **Regrouping accounts changes neither an instruction nor a group.** -/
theorem Regroups.same {r : Role} {v v' : Json} (h : Regroups r v v') : r.Same v v' := by
  cases h with | @mk members list list' hr hl hgathers =>
  have hslots : ∀ slots, SlotsForms list slots ↔ SlotsForms list' slots := fun slots => by
    rcases hgathers with hgathers | hgathers
    · exact hgathers.slotsForms_iff slots
    · exact (hgathers.slotsForms_iff slots).symm
  have hother : ∀ key : Text, key ≠ "accounts" →
      members.get? key = (members.put ("accounts" : Text) (.arr list')).get? key :=
    fun key hkey => (get?_put_of_ne hkey).symm
  have hl' : (members.put ("accounts" : Text) (.arr list')).get? "accounts" =
      some (.arr list') := by
    rw [Ordered.get?_put, if_pos rfl]
  rcases hr with rfl | rfl
  · exact {
      denotes := fun x => ⟨instructionForm_of_accounts hother hl hl' hslots,
        instructionForm_of_accounts (fun key hkey => (hother key hkey).symm) hl' hl
          fun slots => (hslots slots).symm⟩
      null := iff_of_false nofun nofun
      named := nofun }
  · exact {
      denotes := slotsForm_congr hother hl hl' hslots
      null := iff_of_false nofun nofun
      named := nofun }

/-- The instructions of a document that loads have the leaves of their accounts as slots. -/
theorem forall₂_flattens_of_load {strict : Bool} {D : Json} {S : Schema}
    (h : (load strict (.value D)).outcome = .ok S) :
    ∃ document list, D = .obj document ∧ ListMember document "instructions" list ∧
      List.Forall₂ Flattens list S.instructions := by
  obtain ⟨⟨document, rfl, hS⟩, -⟩ := load_eq_ok_iff.1 h
  obtain ⟨list, hl, hinstructions⟩ := hS.instructions
  exact ⟨document, list, rfl, hl, hinstructions.imp fun _ _ => InstructionForm.flattens⟩

/-- **Groups of accounts flatten.**  The slots of every instruction that loads are the leaves of its
accounts, one for one and from left to right; so a document loads alike after groups have been made
and dissolved in the accounts of its instructions, however often and at whatever depths. -/
theorem load_flattens :
    (∀ strict D S, (load strict (.value D)).outcome = .ok S →
      ∃ document list, D = .obj document ∧ ListMember document "instructions" list ∧
        List.Forall₂ Flattens list S.instructions) ∧
    ∀ D D', Relation.ReflTransGen (Within (OrUnread Regroups) .document) D D' → LoadAlike D D' :=
  ⟨fun _ _ _ => forall₂_flattens_of_load, fun _ _ => .of_rewrites fun _ _ _ => Regroups.same⟩

/-- A document with one instruction, which has the accounts given. -/
def accountsSample (accounts : List Json) : Json :=
  .obj [("instructions", .arr [.obj [("name", .str "i"),
    ("discriminator", .ofBytes [1, 2, 3, 4, 5, 6, 7, 8]), ("accounts", .arr accounts)]])]

/-- An account with a name only. -/
def slotSample (name : Text) : Json := .obj [("name", .str name)]

/-- A group of accounts. -/
def groupSample (name : Text) (run : List Json) : Json :=
  .obj [("name", .str name), ("accounts", .arr run)]

/-- The schema with those slots. -/
def accountsSchema (accounts : List AccountRef) : Schema where
  instructions := [{ name := "i", discriminator := [1, 2, 3, 4, 5, 6, 7, 8], accounts }]

theorem within_accountsSample (before run after : List Json) (name : Text) (hn : name ≠ []) :
    Within (OrUnread Regroups) .document (accountsSample (before ++ run ++ after))
      (accountsSample (before ++ groupSample name run :: after)) :=
  .member (p := ⟨"instructions", .list .instruction, .optional⟩) (by simp [Role.parts]) rfl
    (.item (i := 0) rfl rfl (.here (.inl (.mk (.inl rfl) rfl (.inl (.mk ⟨rfl, hn⟩ rfl))))))

/-- Three accounts in two groups, one in the other, are the slots that they are without groups. -/
theorem accountsSample_flattens :
    (load true (.value (accountsSample [slotSample "a",
      groupSample "g" [slotSample "b", groupSample "h" [slotSample "c"]]]))).outcome =
        .ok (accountsSchema [{ name := "a" }, { name := "b" }, { name := "c" }]) := by
  have hinner := within_accountsSample [slotSample "a", slotSample "b"] [slotSample "c"] [] "h"
    (by decide)
  have houter := within_accountsSample [slotSample "a"]
    [slotSample "b", groupSample "h" [slotSample "c"]] [] "g" (by decide)
  have hload : (load true (.value (accountsSample
      [slotSample "a", slotSample "b", slotSample "c"]))).outcome =
        .ok (accountsSchema [{ name := "a" }, { name := "b" }, { name := "c" }]) := by
    decide +kernel
  exact ((load_flattens.2 _ _ (.tail (.single hinner) houter)).schema true _).1 hload

end Document
end AnchorIdl
