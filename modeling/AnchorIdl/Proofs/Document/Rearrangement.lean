/-
# Documents in another order and with more members

The order of the members of an object does not matter to its readers, nor do
members that no reader asks for.  `Rearranges r v v'` says that `v'` is the value
`v` of the position `r` with the members of its objects, at any depth, put into
another order, and with members inserted whose names are read nowhere
(`memberNames`).  Into a type expression without a kind nothing is inserted, for
there the number of members counts (`IsClosed`).

Below members that are no position there is no position either, so `r` may be
none.  What a rearranged value still has in common with the first one is all that
readers look at: a list has as many items, an object has the same members as far
as their names are read (`Corresponds`), and any other value is the same.
-/

import AnchorIdl.Proofs.Document.Rewriting
import AnchorIdl.Proofs.Ordered

namespace AnchorIdl
namespace Document

/-! ### Names and positions -/

/-- The names of the members that are read somewhere in a document. -/
def memberNames : List Text :=
  ["metadata", "name", "version", "spec", "description", "address", "instructions", "accounts",
    "errors", "types", "args", "discriminator", "docs", "writable", "isMut", "signer", "isSigner",
    "optional", "isOptional", "pda", "seeds", "program", "kind", "value", "path", "account", "code",
    "msg", "type", "generics", "fields", "variants", "alias", "vec", "option", "coption", "array",
    "defined"]

/-- They are the names of the parts that objects may have, position by position. -/
theorem mem_memberNames_iff {key : Text} :
    key ∈ memberNames ↔ ∃ r : Role, ∃ p ∈ r.candidates, p.key = key := by
  constructor
  · have hroles : ∀ key ∈ memberNames, ∃ r ∈ [Role.document, .metadata, .instruction, .slot,
        .layout, .pda, .seed, .error, .custom, .type, .reference, .variant],
        ∃ p ∈ r.candidates, p.key = key := by
      decide
    exact fun hkey => (hroles key hkey).imp fun _ h => h.2
  · rintro ⟨r, p, hp, rfl⟩
    revert p
    cases r with
    | byte _ | list _ => exact nofun
    | _ => decide

/-- The position of the member named `key` of an object at a position, if it is one. -/
def memberRole? : Option Role → Members → Text → Option Role
  | none, _, _ => none
  | some r, members, key => ((r.parts members).find? fun p => p.key = key).map Part.role

/-- The position of an item of a list at a position, if it is one. -/
def itemRole? : Option Role → List Json → Nat → Option Role
  | none, _, _ => none
  | some r, list, i => r.item list i

theorem memberRole?_eq_some {r : Role} {members : Members} {p : Part}
    (hp : p ∈ r.parts members) : memberRole? (some r) members p.key = some p.role := by
  have hfind : (r.parts members).find? (fun q => q.key = p.key) = some p := by
    cases hq : (r.parts members).find? fun q => q.key = p.key with
    | none =>
      have hne := List.find?_eq_none.1 hq p hp
      simp at hne
    | some q =>
      have hkey : q.key = p.key := by simpa using List.find?_some hq
      rw [part_eq_of_key_eq hp (List.mem_of_find?_eq_some hq) hkey]
  rw [memberRole?, hfind, Option.map_some]

/-- A type expression without a kind: it is read by its only member, so there may be no other. -/
def IsClosed (r : Option Role) (members : Members) : Prop :=
  r = some .type ∧ members.get? "kind" = none

instance (r : Option Role) (members : Members) : Decidable (IsClosed r members) :=
  inferInstanceAs (Decidable (_ ∧ _))

/-! ### Rearranged values -/

/-- The second value is the first one with the members of its objects in another order, and with
members inserted whose names are not read, except into type expressions without a kind. -/
inductive Rearranges : Option Role → Json → Json → Prop
  | same (r : Option Role) (v : Json) : Rearranges r v v
  | list {r : Option Role} {list list' : List Json} (length : list.length = list'.length)
      (items : ∀ i v v', list[i]? = some v → list'[i]? = some v' →
        Rearranges (itemRole? r list i) v v') : Rearranges r (.arr list) (.arr list')
  | object {r : Option Role} {members kept inserted members' : Members}
      (keys : Ordered.keys members = Ordered.keys kept)
      (values : ∀ key v v', members.get? key = some v → kept.get? key = some v' →
        Rearranges (memberRole? r members key) v v')
      (unread : ∀ key ∈ Ordered.keys inserted, key ∉ memberNames)
      (closed : IsClosed r members → inserted = [])
      (order : (kept ++ inserted).Perm members')
      (distinct : (Ordered.keys members').Nodup) : Rearranges r (.obj members) (.obj members')

/-- Two objects at a position have the same members as far as they are read. -/
def Corresponds (r : Option Role) (members members' : Members) : Prop :=
  ∀ key ∈ memberNames,
    Option.Rel (Rearranges (memberRole? r members key)) (members.get? key) (members'.get? key)

theorem Corresponds.refl (r : Option Role) (members : Members) : Corresponds r members members := by
  intro key _
  cases members.get? key with
  | none => exact .none
  | some v => exact .some (.same _ v)

section Corresponds

variable {r : Option Role} {members members' : Members} {key : Text}

theorem Corresponds.exists_some {v : Json} (h : Corresponds r members members')
    (hkey : key ∈ memberNames) (hv : members.get? key = some v) :
    ∃ v', members'.get? key = some v' ∧ Rearranges (memberRole? r members key) v v' := by
  have hrel := h key hkey
  rw [hv] at hrel
  generalize members'.get? key = x' at hrel
  cases hrel with
  | some hv' => exact ⟨_, rfl, hv'⟩

theorem Corresponds.eq_none (h : Corresponds r members members') (hkey : key ∈ memberNames)
    (hnone : members.get? key = none) : members'.get? key = none := by
  have hrel := h key hkey
  rw [hnone] at hrel
  generalize members'.get? key = x' at hrel
  cases hrel
  rfl

theorem Corresponds.has (h : Corresponds r members members') (hkey : key ∈ memberNames) :
    members.has key = members'.has key := by
  unfold Members.has
  cases hv : members.get? key with
  | none => rw [h.eq_none hkey hv]
  | some v =>
    obtain ⟨v', hv', -⟩ := h.exists_some hkey hv
    rw [hv']
    rfl

end Corresponds

section Object

variable {r : Option Role} {members kept inserted members' : Members} {key : Text}

theorem get?_of_inserted (unread : ∀ key ∈ Ordered.keys inserted, key ∉ memberNames)
    (order : (kept ++ inserted).Perm members') (distinct : (Ordered.keys members').Nodup)
    (hkey : key ∈ memberNames) : members'.get? key = kept.get? key := by
  have hinserted : inserted.get? key = none := by
    rw [Ordered.get?_eq_none_iff]
    exact fun hmem => unread key hmem hkey
  rw [← Ordered.get?_of_perm order ((order.map Prod.fst).nodup_iff.2 distinct),
    Ordered.get?_append, hinserted, Option.or_none]

theorem rel_get? (keys : Ordered.keys members = Ordered.keys kept)
    (values : ∀ key v v', members.get? key = some v → kept.get? key = some v' →
      Rearranges (memberRole? r members key) v v') (key : Text) :
    Option.Rel (Rearranges (memberRole? r members key)) (members.get? key) (kept.get? key) := by
  have hkeys : members.map Prod.fst = kept.map Prod.fst := keys
  have hnone : members.get? key = none ↔ kept.get? key = none := by
    rw [Ordered.get?_eq_none_iff, Ordered.get?_eq_none_iff, hkeys]
  cases hv : members.get? key with
  | none =>
    rw [hnone.1 hv]
    exact .none
  | some v =>
    cases hv' : kept.get? key with
    | none => cases (hnone.2 hv').symm.trans hv
    | some v' => exact .some (values key v v' hv hv')

end Object

namespace Rearranges

section Values

variable {role : Text → Option Role} {members kept : Members}

theorem values_nil (key : Text) (v v' : Json) (h : Ordered.get? [] key = some v) :
    Ordered.get? [] key = some v' → Rearranges (role key) v v' := by
  cases h

theorem values_cons {key : Text} {v v' : Json} (first : Rearranges (role key) v v')
    (rest : ∀ key w w', members.get? key = some w → kept.get? key = some w' →
      Rearranges (role key) w w') (other : Text) (w w' : Json)
    (h : Ordered.get? ((key, v) :: members) other = some w)
    (h' : Ordered.get? ((key, v') :: kept) other = some w') : Rearranges (role other) w w' := by
  rw [Ordered.get?_cons] at h h'
  split at h
  · next heq =>
    rw [if_pos heq] at h'
    cases h
    cases h'
    exact heq ▸ first
  · next hne =>
    rw [if_neg hne] at h'
    exact rest other w w' h h'

end Values

variable {r : Option Role} {v v' : Json} {members members' : Members} {list list' : List Json}

/-- A list with one item. -/
theorem singleton (h : Rearranges (itemRole? r [v] 0) v v') :
    Rearranges r (.arr [v]) (.arr [v']) := by
  refine .list rfl fun i w w' hw hw' => ?_
  cases i with
  | zero =>
    cases hw
    cases hw'
    exact h
  | succ i => cases hw

/-- An object is rearranged to one with the same members as far as they are read. -/
theorem exists_obj (h : Rearranges r (.obj members) v') :
    ∃ members', v' = .obj members' ∧ Corresponds r members members' := by
  cases h with
  | same => exact ⟨members, rfl, .refl r members⟩
  | object keys values unread closed order distinct =>
    refine ⟨_, rfl, fun key hkey => ?_⟩
    rw [get?_of_inserted unread order distinct hkey]
    exact rel_get? keys values key

/-- The only member of a type expression without a kind stays its only member. -/
theorem exists_single {key : Text} {value : Json} (h : Rearranges r (.obj [(key, value)]) v')
    (hclosed : IsClosed r [(key, value)]) :
    ∃ value', v' = .obj [(key, value')] ∧
      Rearranges (memberRole? r [(key, value)] key) value value' := by
  cases h with
  | same => exact ⟨value, rfl, .same _ value⟩
  | @object _ _ kept _ _ keys values _ closed order =>
    obtain ⟨⟨key', value'⟩, rfl⟩ : ∃ m, kept = [m] := by
      have hlength := congrArg List.length keys
      simp only [Ordered.keys, List.length_map, List.length_singleton] at hlength
      exact List.length_eq_one_iff.1 hlength.symm
    obtain rfl : key = key' := (List.cons.inj keys).1
    rw [closed hclosed, List.append_nil, List.singleton_perm] at order
    exact ⟨value', by rw [order], values key value value' (by simp [Ordered.get?_cons])
      (by simp [Ordered.get?_cons])⟩

/-- A type expression without a kind keeps the number of its members. -/
theorem length_of_closed (h : Rearranges r (.obj members) (.obj members'))
    (hclosed : IsClosed r members) : members.length = members'.length := by
  cases h with
  | same => rfl
  | @object _ _ kept _ _ keys _ _ closed order =>
    have hlength := congrArg List.length keys
    simp only [Ordered.keys, List.length_map] at hlength
    rw [closed hclosed, List.append_nil] at order
    rw [hlength, order.length_eq]

/-- A list is rearranged to one with as many items, item by item. -/
theorem exists_arr (h : Rearranges r (.arr list) v') :
    ∃ list', v' = .arr list' ∧ list.length = list'.length ∧
      ∀ i v v', list[i]? = some v → list'[i]? = some v' → Rearranges (itemRole? r list i) v v' := by
  cases h with
  | same =>
    refine ⟨list, rfl, rfl, fun i v v' hv hv' => ?_⟩
    obtain rfl := Option.some.inj (hv.symm.trans hv')
    exact .same _ v
  | list length items => exact ⟨_, rfl, length, items⟩

theorem corresponds (h : Rearranges r (.obj members) (.obj members')) :
    Corresponds r members members' := by
  obtain ⟨_, heq, hmembers⟩ := h.exists_obj
  exact Json.obj.inj heq ▸ hmembers

theorem length_eq (h : Rearranges r (.arr list) (.arr list')) : list.length = list'.length := by
  obtain ⟨_, heq, hlength, -⟩ := h.exists_arr
  exact Json.arr.inj heq ▸ hlength

theorem item (h : Rearranges r (.arr list) (.arr list')) (i : Nat) (v v' : Json)
    (hv : list[i]? = some v) (hv' : list'[i]? = some v') :
    Rearranges (itemRole? r list i) v v' := by
  obtain ⟨_, heq, -, items⟩ := h.exists_arr
  obtain rfl := Json.arr.inj heq
  exact items i v v' hv hv'

/-- Any other value stays what it is. -/
theorem eq_or_container (h : Rearranges r v v') :
    v = v' ∨ (∃ list list', v = .arr list ∧ v' = .arr list') ∨
      ∃ members members', v = .obj members ∧ v' = .obj members' := by
  cases h with
  | same => exact .inl rfl
  | list => exact .inr (.inl ⟨_, _, rfl, rfl⟩)
  | object => exact .inr (.inr ⟨_, _, rfl, rfl⟩)

end Rearranges

end Document
end AnchorIdl
