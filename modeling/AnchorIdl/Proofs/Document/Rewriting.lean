/-
# Rewriting below a document

A rule rewrites values at positions; `Within rule` rewrites one value at some
depth, below members and items that are positions.  What stands under a member
that is no position is not read, so it may be replaced by anything (`Unread`).
Two values are the same at a position (`Role.Same`) if they denote the same there
and nothing around them can tell them apart, not even whether they are null or, in
a list of fields, named.

The main lemma is that a rule that keeps values the same may be applied at any
depth (`Within.same`).  A document and one that is the same load alike, in either
mode: to equal schemas and with equal warnings, or neither (`LoadAlike`).
-/

import AnchorIdl.Proofs.Document.Denotation
import AnchorIdl.Proofs.Document.References
import Mathlib.Logic.Relation

namespace AnchorIdl
namespace Document

/-- One value at or below a position is rewritten by a rule. -/
inductive Within (rule : Role → Json → Json → Prop) : Role → Json → Json → Prop
  | here {r : Role} {v v' : Json} (h : rule r v v') : Within rule r v v'
  | member {r : Role} {members : Members} {p : Part} {v v' : Json} (hp : p ∈ r.parts members)
      (hv : members.get? p.key = some v) (h : Within rule p.role v v') :
      Within rule r (.obj members) (.obj (members.put p.key v'))
  | item {r item : Role} {list : List Json} {i : Nat} {v v' : Json}
      (hr : r.item list i = some item) (hv : list[i]? = some v) (h : Within rule item v v') :
      Within rule r (.arr list) (.arr (list.set i v'))

/-- The value of a member that is not read is replaced. -/
inductive Unread : Role → Json → Json → Prop
  | mk {r : Role} {members : Members} {key : Text} {v v' : Json}
      (hp : ∀ p ∈ r.parts members, p.key ≠ key) (hkind : r = .generic → key ≠ "kind")
      (hv : members.get? key = some v) : Unread r (.obj members) (.obj (members.put key v'))

/-- A value is rewritten by a rule, or the value of a member of it that is not read is replaced. -/
def OrUnread (rule : Role → Json → Json → Prop) (r : Role) (v v' : Json) : Prop :=
  rule r v v' ∨ Unread r v v'

/-- Two values denote the same at a position, and nothing around them can tell them apart. -/
structure Role.Same (r : Role) (v v' : Json) : Prop where
  denotes : ∀ x, r.Denotes v x ↔ r.Denotes v' x
  null : v = .null ↔ v' = .null
  named : r = .field ∨ r = .type → isNamed v = isNamed v'

theorem Role.Same.symm {r : Role} {v v' : Json} (h : r.Same v v') : r.Same v' v where
  denotes := fun x => (h.denotes x).symm
  null := h.null.symm
  named := fun hr => (h.named hr).symm

/-! ### Members -/

/-- The parts that objects at a position may have. -/
def Role.candidates : Role → List Part
  | .slot => ⟨"accounts", .list .slot, .optional⟩ :: slotParts
  | .seed => ⟨"kind", .seedKind, .required⟩ ::
    [SeedKind.const, .string, .arg, .account].flatMap seedParts
  | .type => ⟨"kind", .typeKind, .required⟩ :: (["struct", "enum", "type"].flatMap
    fun kind => shapeParts (.str (Text.ofString kind))) ++ wrapperParts
  | .generic => [⟨"type", .type, .required⟩]
  | r => r.parts []

theorem parts_subset_candidates (r : Role) (members : Members) :
    ∀ p ∈ r.parts members, p ∈ r.candidates := by
  cases r with
  | slot =>
    simp only [Role.parts]
    split_ifs <;> decide
  | seed =>
    simp only [Role.parts]
    cases (members.get? "kind").bind seedKind? with
    | none => decide
    | some kind => cases kind <;> decide
  | type =>
    simp only [Role.parts]
    split
    · unfold shapeParts
      split_ifs <;> decide
    · have hwrapper : ∀ p ∈ wrapperParts, p ∈ Role.type.candidates := by decide
      exact fun p hp => hwrapper p (List.mem_filter.1 hp).1
  | generic =>
    simp only [Role.parts]
    split_ifs <;> decide
  | _ => exact fun _ hp => hp

/-- The parts of an object have different names. -/
theorem nodup_parts (r : Role) (members : Members) : ((r.parts members).map Part.key).Nodup := by
  cases r with
  | slot =>
    simp only [Role.parts]
    split_ifs <;> decide
  | seed =>
    simp only [Role.parts]
    cases (members.get? "kind").bind seedKind? with
    | none => decide
    | some kind => cases kind <;> decide
  | type =>
    simp only [Role.parts]
    split
    · unfold shapeParts
      split_ifs <;> decide
    · have hwrapper : (wrapperParts.map Part.key).Nodup := by decide
      exact hwrapper.sublist (List.filter_sublist.map _)
  | generic =>
    simp only [Role.parts]
    split_ifs <;> decide
  | _ => simp only [Role.parts]; decide

theorem part_eq_of_key_eq {r : Role} {members : Members} {p q : Part} (hp : p ∈ r.parts members)
    (hq : q ∈ r.parts members) (h : q.key = p.key) : q = p :=
  List.inj_on_of_nodup_map (nodup_parts r members) hq hp h

section Put

variable {r : Role} {members : Members} {p : Part} {key : Text} {v v' : Json}

theorem has_put (hv : members.get? key = some v) (other : Text) :
    Members.has (members.put key v') other = members.has other := by
  simp only [Members.has, Ordered.get?_put]
  split_ifs with h
  · simp [h, hv]
  · rfl

theorem keys_put_of_get? (hv : members.get? key = some v) :
    Ordered.keys (members.put key v') = Ordered.keys members := by
  have hmem : key ∈ Ordered.keys members := List.mem_map.2 ⟨_, Ordered.mem_of_get? hv, rfl⟩
  rw [Ordered.keys_put, if_pos hmem]

theorem listMember_iff_of_get? {list list' : List Json}
    (h : members.get? key = some (.arr list)) : ListMember members key list' ↔ list = list' := by
  unfold ListMember
  rw [given?_eq_some_iff.2 ⟨h, by simp⟩]
  simp

/-- The items of a member that has been replaced by a list. -/
theorem listMember_put_iff {list list' : List Json} :
    ListMember (members.put key (.arr list')) key list ↔ list = list' := by
  have hget : (members.put key (.arr list')).get? key = some (.arr list') := by
    rw [Ordered.get?_put, if_pos rfl]
  exact (listMember_iff_of_get? hget).trans eq_comm

theorem get?_put_of_ne {other : Text} (h : other ≠ key) :
    (members.put key v').get? other = members.get? other := by
  rw [Ordered.get?_put, if_neg h]

theorem listMember_put_of_ne {other : Text} (h : other ≠ key) {list : List Json} :
    ListMember (members.put key v') other list ↔ ListMember members other list := by
  unfold ListMember
  rw [given?_congr (get?_put_of_ne h)]

theorem nameMember_put_of_ne (h : "name" ≠ key) {t : Text} :
    NameMember (members.put key v') t ↔ NameMember members t := by
  unfold NameMember
  rw [get?_put_of_ne h]

theorem seedKind?_eq_of_same (h : Role.seedKind.Same v v') : seedKind? v = seedKind? v' := by
  refine Option.ext fun kind => ?_
  rw [seedKind?_eq_some_iff, seedKind?_eq_some_iff]
  exact h.denotes kind

theorem shapeParts_eq_of_same (h : Role.typeKind.Same v v') : shapeParts v = shapeParts v' := by
  have hkind : ∀ t : Text, v = .str t ↔ v' = .str t := h.denotes
  simp only [shapeParts, hkind]

/-- A part that has been replaced leaves the parts as they were. -/
theorem parts_put (hp : p ∈ r.parts members) (hv : members.get? p.key = some v)
    (h : p.role.Same v v') : r.parts (members.put p.key v') = r.parts members := by
  cases r with
  | slot =>
    simp only [Role.parts]
    rw [has_put hv]
  | seed =>
    simp only [Role.parts, Ordered.get?_put]
    split_ifs with hkey
    · obtain rfl := part_eq_of_key_eq hp (List.mem_cons_self ..) hkey
      simp only [hv, Option.bind_some, seedKind?_eq_of_same h]
    · rfl
  | type =>
    simp only [Role.parts, Ordered.get?_put, keys_put_of_get? hv]
    split_ifs with hkey
    · have hmem : ⟨"kind", .typeKind, .required⟩ ∈ Role.type.parts members := by
        simp [Role.parts, hkey, hv]
      obtain rfl := part_eq_of_key_eq hp hmem hkey
      simp only [hv, shapeParts_eq_of_same h]
    · rfl
  | generic =>
    have hkey : p.key = "type" := by
      simp only [Role.parts] at hp
      split_ifs at hp
      · rw [List.mem_singleton.1 hp]
      · cases hp
    have hkind : (members.put p.key v').get? "kind" = members.get? "kind" := by
      rw [Ordered.get?_put, hkey, if_neg (by decide)]
    simp only [Role.parts]
    rw [hkind, has_put hv]
  | _ => rfl

theorem denotes_of_same {members' : Members} (hv : members.get? p.key = some v)
    (hv' : members'.get? p.key = some v') (h : p.role.Same v v') {x : Option p.role.Denoted}
    (hx : p.Denotes members x) : p.Denotes members' x := by
  unfold Part.Denotes at hx ⊢
  cases hneed : p.need with
  | required =>
    rw [hneed] at hx
    obtain ⟨raw, y, hraw, hy, rfl⟩ := hx
    obtain rfl := Option.some.inj (hv.symm.trans hraw)
    exact ⟨v', y, hv', (h.denotes y).1 hy, rfl⟩
  | optional =>
    rw [hneed] at hx
    cases x with
    | none =>
      have hnull : v = .null := by
        rcases given?_eq_none_iff.1 (given?_eq_none_of_optionMember hx) with habsent | hnull
        · cases hv.symm.trans habsent
        · exact Option.some.inj (hv.symm.trans hnull)
      exact optionMember_none (given?_eq_none_iff.2 (.inr (h.null.1 hnull ▸ hv')))
    | some y =>
      obtain ⟨raw, hgiven, hy⟩ := exists_given?_of_optionMember hx
      obtain ⟨hraw, hne⟩ := given?_eq_some_iff.1 hgiven
      obtain rfl := Option.some.inj (hv.symm.trans hraw)
      have hgiven' := given?_eq_some_iff.2 ⟨hv', fun hnull => hne (h.null.2 hnull)⟩
      exact optionMember_some hgiven' ((h.denotes y).1 hy)

/-- What a part denotes depends on its value only. -/
theorem denotes_congr {members' : Members} (h : members.get? p.key = members'.get? p.key)
    (x : Option p.role.Denoted) : p.Denotes members x ↔ p.Denotes members' x := by
  unfold Part.Denotes OptionMember Members.given?
  rw [h]

theorem alike_put (hp : p ∈ r.parts members) (hv : members.get? p.key = some v)
    (h : p.role.Same v v') : Alike r members (members.put p.key v') := by
  refine ⟨(parts_put hp hv h).symm, fun q hq x => ?_⟩
  by_cases hkey : q.key = p.key
  · obtain rfl := part_eq_of_key_eq hp hq hkey
    have hv' : (members.put q.key v').get? q.key = some v' := by
      rw [Ordered.get?_put, if_pos rfl]
    exact ⟨denotes_of_same hv hv' h, denotes_of_same hv' hv h.symm⟩
  · exact denotes_congr (by rw [Ordered.get?_put, if_neg hkey]) x

theorem alike_put_unread (hp : ∀ p ∈ r.parts members, p.key ≠ key)
    (hkind : r = .generic → key ≠ "kind") (hv : members.get? key = some v) :
    Alike r members (members.put key v') := by
  refine ⟨?_, fun q hq => denotes_congr (by rw [Ordered.get?_put, if_neg (hp q hq)])⟩
  cases r with
  | slot =>
    simp only [Role.parts]
    rw [has_put hv]
  | seed =>
    have hkey : "kind" ≠ key := hp _ (List.mem_cons_self ..)
    simp only [Role.parts, Ordered.get?_put, if_neg hkey]
  | type =>
    have hkey : "kind" ≠ key := by
      rintro rfl
      exact hp ⟨"kind", .typeKind, .required⟩ (by simp [Role.parts, hv]) rfl
    simp only [Role.parts, Ordered.get?_put, if_neg hkey, keys_put_of_get? hv]
  | generic =>
    simp only [Role.parts]
    rw [has_put hv, Ordered.get?_put, if_neg (hkind rfl).symm]
  | _ => rfl

/-- An object whose parts are the same is the same. -/
theorem same_obj {members' : Members} (h : Alike r members members')
    (hnamed : r = .field ∨ r = .type → members.has "name" = members'.has "name") :
    r.Same (.obj members) (.obj members') where
  denotes := fun _ => ⟨h.denotes_obj, h.symm.denotes_obj⟩
  null := iff_of_false nofun nofun
  named := hnamed

theorem Unread.same (h : Unread r v v') : r.Same v v' := by
  cases h with
  | mk hp hkind hv => exact same_obj (alike_put_unread hp hkind hv) fun _ => (has_put hv _).symm

end Put

/-! ### Items -/

section Set

variable {α β : Type} {list : List α} {i : Nat} {v v' : α}

/-- Lists that differ in one item are related to the same lists if that item is. -/
theorem forall₂_set_iff {R : α → β → Prop} (hv : list[i]? = some v) (h : ∀ y, R v y ↔ R v' y)
    {ys : List β} : List.Forall₂ R list ys ↔ List.Forall₂ R (list.set i v') ys := by
  induction list generalizing i ys with
  | nil => cases hv
  | cons x rest ih =>
    cases i with
    | zero =>
      obtain rfl := Option.some.inj hv
      cases ys with
      | nil => exact iff_of_false nofun nofun
      | cons y ys => simp only [List.set_cons_zero, List.forall₂_cons, h]
    | succ i =>
      cases ys with
      | nil => exact iff_of_false nofun nofun
      | cons y ys => simp only [List.set_cons_succ, List.forall₂_cons, ih hv]

theorem map_set_of_eq {f : α → β} (hv : list[i]? = some v) (h : f v = f v') :
    (list.set i v').map f = list.map f := by
  obtain ⟨hi, rfl⟩ := List.getElem?_eq_some_iff.1 hv
  have hi' : i < (list.map f).length := by rwa [List.length_map]
  rw [List.map_set, ← h, ← List.getElem_map f (h := hi'), List.set_getElem_self]

end Set

section Item

variable {list : List Json} {i : Nat} {v v' : Json}

theorem denotes_arr_iff {r : Role} {xs : List r.Denoted} :
    (Role.list r).Denotes (.arr list) xs ↔ List.Forall₂ r.Denotes list xs :=
  ⟨fun ⟨_, heq, h⟩ => Json.arr.inj heq ▸ h, fun h => ⟨list, rfl, h⟩⟩

theorem denotes_seeds_iff {xs : List Seed} :
    Role.seeds.Denotes (.arr list) xs ↔ list ≠ [] ∧ List.Forall₂ SeedForm list xs :=
  ⟨fun ⟨_, heq, h⟩ => Json.arr.inj heq ▸ h, fun h => ⟨list, rfl, h⟩⟩

theorem ofBytes_set_iff {kind : ByteList} (hv : list[i]? = some v) (h : (Role.byte kind).Same v v')
    (bytes : Bytes) :
    Json.arr list = .ofBytes bytes ↔ Json.arr (list.set i v') = .ofBytes bytes := by
  have hbytes : ∀ list : List Json, Json.arr list = .ofBytes bytes ↔
      List.Forall₂ (fun raw (b : UInt8) => raw = .int b.toNat) list bytes := fun list => by
    rw [forall₂_eq_map_iff, Json.ofBytes, Json.arr.injEq]
  rw [hbytes, hbytes]
  exact forall₂_set_iff hv h.denotes

theorem denotes_pair_iff {element length : Json} {t : TypeExpr} :
    Role.array.Denotes (.arr [element, length]) t ↔ ∃ t' n, Role.type.Denotes element t' ∧
      Role.arrayLength.Denotes length n ∧ t = .array t' n := by
  refine typeForm_array_iff.trans ⟨?_, ?_⟩
  · rintro ⟨_, n, t', heq, ht', rfl⟩
    cases heq
    exact ⟨t', n, ht', rfl, rfl⟩
  · rintro ⟨t', n, ht', rfl, rfl⟩
    exact ⟨element, n, t', rfl, ht', rfl⟩

theorem pair_set_iff {item : Role} (hr : Role.array.item list i = some item)
    (hv : list[i]? = some v) (h : item.Same v v') (t : TypeExpr) :
    Role.array.Denotes (.arr list) t ↔ Role.array.Denotes (.arr (list.set i v')) t := by
  match list, i, hr with
  | [element, length], 0, rfl =>
    obtain rfl := Option.some.inj hv
    simp only [List.set_cons_zero, denotes_pair_iff, h.denotes]
  | [element, length], 1, rfl =>
    obtain rfl := Option.some.inj hv
    simp only [List.set_cons_succ, List.set_cons_zero, denotes_pair_iff, h.denotes]

theorem denotes_variantFields_iff {fields : List Field} {types : List TypeExpr} :
    Role.variantFields.Denotes (.arr list) (fields, types) ↔
      List.Forall₂ FieldForm list fields ∧ types = [] ∨
        (∀ item ∈ list, isNamed item = false) ∧ List.Forall₂ TypeForm list types ∧ fields = [] := by
  constructor
  · rintro ⟨_, heq, h⟩
    obtain rfl := Json.arr.inj heq
    exact h.imp (.imp_left FieldForms.forall₂) (.imp_right (.imp_left TypeForms.forall₂))
  · intro h
    exact ⟨list, rfl, h.imp (.imp_left fieldForms_of_forall₂)
      (.imp_right (.imp_left typeForms_of_forall₂))⟩

/-- Whether the fields of a variant are named does not change, so they stay fields, or types. -/
theorem variantFields_set_iff {item : Role} (hr : Role.variantFields.item list i = some item)
    (hv : list[i]? = some v) (h : item.Same v v') (x : List Field × List TypeExpr) :
    Role.variantFields.Denotes (.arr list) x ↔
      Role.variantFields.Denotes (.arr (list.set i v')) x := by
  obtain ⟨fields, types⟩ := x
  have hitem : item = .field ∨ item = .type := by
    simp only [Role.item] at hr
    split_ifs at hr
    · exact .inl (Option.some.inj hr).symm
    · exact .inr (Option.some.inj hr).symm
  have hnamed := h.named hitem
  have hmap : ∀ l : List Json,
      (∀ item ∈ l, isNamed item = false) ↔ ∀ named ∈ l.map isNamed, named = false :=
    fun l => by simp
  have hunnamed : (∀ item ∈ list, isNamed item = false) ↔
      ∀ item ∈ list.set i v', isNamed item = false := by
    rw [hmap, hmap, map_set_of_eq hv hnamed]
  have hmem : v ∈ list := List.mem_of_getElem? hv
  have hmem' : v' ∈ list.set i v' := List.mem_set (List.getElem?_eq_some_iff.1 hv).1 _
  rw [denotes_variantFields_iff, denotes_variantFields_iff]
  simp only [Role.item] at hr
  split_ifs at hr with hall hany
  · -- all are named, so none of the two lists is one of types
    obtain rfl := Option.some.inj hr
    have htypes : ¬ ∀ item ∈ list, isNamed item = false := fun hnone => by
      simpa [hnone v hmem] using List.all_eq_true.1 hall v hmem
    refine or_congr (and_congr_left fun _ => forall₂_set_iff hv h.denotes) (iff_of_false ?_ ?_)
    · exact fun hnone => htypes hnone.1
    · exact fun hnone => htypes (hunnamed.2 hnone.1)
  · -- none is named, so none of the two lists is one of fields
    obtain rfl := Option.some.inj hr
    have hnone : ∀ item ∈ list, isNamed item = false := by simpa using hany
    have hfields : ∀ l : List Json, (∃ item ∈ l, isNamed item = false) →
        ¬ List.Forall₂ FieldForm l fields := fun l ⟨item, hitem, hitem'⟩ hl => by
      simpa [hitem'] using (fieldForms_of_forall₂ hl).isNamed item hitem
    refine or_congr (iff_of_false ?_ ?_) ?_
    · exact fun hforms => hfields list ⟨v, hmem, hnone v hmem⟩ hforms.1
    · exact fun hforms => hfields _ ⟨v', hmem', hnamed ▸ hnone v hmem⟩ hforms.1
    · exact and_congr hunnamed (and_congr_left fun _ => forall₂_set_iff hv h.denotes)

/-- A list is the same after an item has been replaced by one that is the same. -/
theorem same_arr {r item : Role} (hr : r.item list i = some item) (hv : list[i]? = some v)
    (h : item.Same v v') : r.Same (.arr list) (.arr (list.set i v')) := by
  refine ⟨fun x => ?_, by simp, fun _ => rfl⟩
  cases r with
  | list r =>
    obtain rfl := Option.some.inj hr
    exact denotes_arr_iff.trans ((forall₂_set_iff hv h.denotes).trans denotes_arr_iff.symm)
  | seeds =>
    obtain rfl := Option.some.inj hr
    have hnil : list ≠ [] ↔ list.set i v' ≠ [] := by simp
    have heach : List.Forall₂ SeedForm list x ↔ List.Forall₂ SeedForm (list.set i v') x :=
      forall₂_set_iff hv h.denotes
    exact denotes_seeds_iff.trans ((and_congr hnil heach).trans denotes_seeds_iff.symm)
  | discriminator =>
    obtain rfl := Option.some.inj hr
    exact and_congr_left fun _ => ofBytes_set_iff hv h x
  | constant =>
    obtain rfl := Option.some.inj hr
    have htext : ∀ list : List Json,
        ¬ ∃ t, Json.arr list = .str t ∧ Utf8.encode t = .ok x := by simp
    exact or_congr (ofBytes_set_iff hv h x) (iff_of_false (htext _) (htext _))
  | array => exact pair_set_iff hr hv h x
  | variantFields => exact variantFields_set_iff hr hv h x
  | _ => cases hr

end Item

/-- A rewriting by one of two rules is one by the first, or one by the second. -/
theorem Within.or {rule first second : Role → Json → Json → Prop}
    (hrule : ∀ r v v', rule r v v' → first r v v' ∨ second r v v') {r : Role} {v v' : Json}
    (h : Within rule r v v') : Within first r v v' ∨ Within second r v v' := by
  induction h with
  | here h => exact (hrule _ _ _ h).imp .here .here
  | member hp hv _ ih => exact ih.imp (.member hp hv) (.member hp hv)
  | item hr hv _ ih => exact ih.imp (.item hr hv) (.item hr hv)

/-- **A rule that keeps values the same keeps them so at any depth.** -/
theorem Within.same {rule : Role → Json → Json → Prop}
    (hrule : ∀ r v v', rule r v v' → r.Same v v') {r : Role} {v v' : Json}
    (h : Within rule r v v') : r.Same v v' := by
  induction h with
  | here h => exact hrule _ _ _ h
  | member hp hv _ ih => exact same_obj (alike_put hp hv ih) fun _ => (has_put hv _).symm
  | item hr hv _ ih => exact same_arr hr hv ih

/-! ### Documents that are the same -/

/-- The warnings among the lines of a log. -/
def warnings (log : List LogLine) : List LogLine := log.filter fun l => l.level = .warning

/-- Two documents load to equal schemas with equal warnings, or neither loads; in either mode. -/
structure LoadAlike (D D' : Json) : Prop where
  schema : ∀ strict S,
    (load strict (.value D)).outcome = .ok S ↔ (load strict (.value D')).outcome = .ok S
  warnings : ∀ strict,
    warnings (load strict (.value D)).log = warnings (load strict (.value D')).log

theorem warnings_append (log more : List LogLine) :
    warnings (log ++ more) = warnings log ++ warnings more :=
  List.filter_append ..

theorem warnings_readSchema_log (source : Source) : warnings source.readSchema.log = [] := by
  refine List.filter_eq_nil_iff.2 fun l hl => ?_
  simp [source.readSchema_log l hl]

/-- What a document is warned of depends only on the schema that it is read to, if it is. -/
theorem load_warnings_eq {source source' : Source}
    (h : ∀ S, source.readSchema.outcome = .ok S ↔ source'.readSchema.outcome = .ok S)
    (strict : Bool) : warnings (load strict source).log = warnings (load strict source').log := by
  rw [load_eq, load_eq]
  cases hread : source.readSchema.outcome with
  | ok S =>
    rw [Logged.bind_of_ok hread, Logged.bind_of_ok ((h S).1 hread), warnings_append,
      warnings_append, warnings_readSchema_log, warnings_readSchema_log]
  | error e =>
    cases hread' : source'.readSchema.outcome with
    | ok S => cases hread.symm.trans ((h S).2 hread')
    | error e' =>
      rw [Logged.bind_of_error hread, Logged.bind_of_error hread', warnings_readSchema_log,
        warnings_readSchema_log]

/-- What cannot be read is warned of nothing. -/
theorem warnings_of_not_read {source : Source} (h : ∀ S, source.readSchema.outcome ≠ .ok S)
    (strict : Bool) : warnings (load strict source).log = [] := by
  cases hread : source.readSchema.outcome with
  | ok S => exact absurd hread (h S)
  | error e => rw [load_eq, Logged.bind_of_error hread, warnings_readSchema_log]

/-- Strict loading that fails warns of nothing. -/
theorem warnings_of_strict_error {source : Source} {e : Rejection}
    (h : (load true source).outcome = .error e) : warnings (load true source).log = [] := by
  cases hread : source.readSchema.outcome with
  | error e => rw [load_eq, Logged.bind_of_error hread, warnings_readSchema_log]
  | ok S =>
    rw [load_outcome_of_ok hread, reportDuplicates_strict] at h
    rw [load_eq, Logged.bind_of_ok hread, warnings_append, warnings_readSchema_log,
      reportDuplicates_strict]
    cases hhead : (duplicates S).head? with
    | none =>
      rw [hhead] at h
      cases h
    | some f => rfl

namespace LoadAlike

variable {D D' D'' : Json}

/-- Documents that are read to the same schema, or not at all, load alike. -/
theorem of_reads (h : ∀ S, (∃ document, D = .obj document ∧ DocumentForm document S) ↔
    ∃ document, D' = .obj document ∧ DocumentForm document S) : LoadAlike D D' := by
  refine ⟨fun strict S => ?_, load_warnings_eq fun S => ?_⟩
  · rw [load_eq_ok_iff, load_eq_ok_iff, h S]
  · rw [Source.readSchema_eq_ok_iff, Source.readSchema_eq_ok_iff]
    simpa only [Source.value?, Except.ok.injEq] using h S

theorem of_same (h : Role.document.Same D D') : LoadAlike D D' := of_reads h.denotes

theorem refl (D : Json) : LoadAlike D D := ⟨fun _ _ => Iff.rfl, fun _ => rfl⟩

theorem trans (h : LoadAlike D D') (h' : LoadAlike D' D'') : LoadAlike D D'' :=
  ⟨fun strict S => (h.schema strict S).trans (h'.schema strict S),
    fun strict => (h.warnings strict).trans (h'.warnings strict)⟩

/-- **A rule that keeps values the same keeps how a document loads,** however often it is applied
at whatever depths, and whatever happens to values that are not read. -/
theorem of_rewrites {rule : Role → Json → Json → Prop}
    (hrule : ∀ r v v', rule r v v' → r.Same v v')
    (h : Relation.ReflTransGen (Within (OrUnread rule) .document) D D') : LoadAlike D D' := by
  have hsame : ∀ r v v', OrUnread rule r v v' → r.Same v v' := by
    rintro r v v' (hv | hv)
    · exact hrule r v v' hv
    · exact hv.same
  induction h with
  | refl => exact .refl D
  | tail _ hstep ih => exact ih.trans (.of_same (hstep.same hsame))

end LoadAlike

end Document
end AnchorIdl
