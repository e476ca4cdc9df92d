/-
# Two readings side by side

A reader of a value and the same reader of a rearranged value, maybe at another
place, go the same way: either both read the same, or both stop at a fault of the
same kind, as far below the one place as below the other.  `Parallel place place'
R x y` says this of two readings, where `R` is how the values that they read are
related.

What is read of one member after the other, or of one item after the other, is
parallel if each of these readings is (`Parallel.bind`, `Parallel.each`), and what
is parallel below a member or an item is so below the object or the list
(`Parallel.member`, `Parallel.index`).  With these the readers of single members
are gone through here.
-/

import AnchorIdl.Proofs.Document.Rearrangement

namespace AnchorIdl
namespace Document

variable {α β γ δ : Type} {place place' : Place}

/-- Two rejections are of one kind, and what they reject stands as far below the one place as below
the other. -/
inductive Moved (place place' : Place) : Rejection → Rejection → Prop
  | fault {c c' : Complaint} (kind : c.kind = c'.kind) (steps : Place) :
      Moved place place' (.fault ⟨c, some (place ++ steps)⟩) (.fault ⟨c', some (place' ++ steps)⟩)
  | unencodable (fault : Utf8.EncodeFault) :
      Moved place place' (.unencodable fault) (.unencodable fault)

/-- Two readings both succeed, with related values, or are both rejected, for the same reason. -/
inductive Parallel (place place' : Place) (R : α → β → Prop) : Reading α → Reading β → Prop
  | ok {a : α} {b : β} (h : R a b) : Parallel place place' R (.ok a) (.ok b)
  | error {e e' : Rejection} (h : Moved place place' e e') :
      Parallel place place' R (.error e) (.error e')

/-! ### Sequences, members and items -/

namespace Parallel

variable {R : α → β → Prop} {S : γ → δ → Prop}

theorem complain {c c' : Complaint} (kind : c.kind = c'.kind) :
    Parallel place place' R (complain place c) (complain place' c') := by
  have hmoved : Moved place place' (.fault ⟨c, some (place ++ [])⟩)
      (.fault ⟨c', some (place' ++ [])⟩) := .fault kind []
  rw [List.append_nil, List.append_nil] at hmoved
  exact .error hmoved

theorem bind {x : Reading α} {y : Reading β} {f : α → Reading γ} {g : β → Reading δ}
    (h : Parallel place place' R x y) (hf : ∀ a b, R a b → Parallel place place' S (f a) (g b)) :
    Parallel place place' S (x >>= f) (y >>= g) := by
  cases h with
  | ok h => exact hf _ _ h
  | error h => exact .error h

theorem map {x : Reading α} {y : Reading β} {f : α → γ} {g : β → δ}
    (h : Parallel place place' R x y) (hf : ∀ a b, R a b → S (f a) (g b)) :
    Parallel place place' S (x.map f) (y.map g) := by
  cases h with
  | ok h => exact .ok (hf _ _ h)
  | error h => exact .error h

/-- What is moved below two places is moved below places above them. -/
theorem below {x : Reading α} {y : Reading β} {steps : Place}
    (h : Parallel (place ++ steps) (place' ++ steps) R x y) : Parallel place place' R x y := by
  cases h with
  | ok h => exact .ok h
  | error h =>
    cases h with
    | fault kind more =>
      rw [List.append_assoc, List.append_assoc]
      exact .error (.fault kind (steps ++ more))
    | unencodable fault => exact .error (.unencodable fault)

theorem member {x : Reading α} {y : Reading β} {key : Text}
    (h : Parallel (place.member key) (place'.member key) R x y) : Parallel place place' R x y :=
  h.below

theorem index {x : Reading α} {y : Reading β} {i : Nat}
    (h : Parallel (place.index i) (place'.index i) R x y) : Parallel place place' R x y :=
  h.below

theorem eachFrom {list list' : List Json} {read read' : Nat → Json → Reading α} (i : Nat)
    (length : list.length = list'.length)
    (h : ∀ j v v', list[j]? = some v → list'[j]? = some v' →
      Parallel place place' Eq (read (i + j) v) (read' (i + j) v')) :
    Parallel place place' Eq (eachFrom read i list) (eachFrom read' i list') := by
  induction list generalizing i list' with
  | nil =>
    obtain rfl := List.length_eq_zero_iff.1 length.symm
    exact .ok rfl
  | cons v rest ih =>
    obtain ⟨v', rest', rfl⟩ := List.exists_cons_of_length_eq_add_one length.symm
    refine bind (h 0 v v' rfl rfl) fun x x' hx => ?_
    have hrest := ih (i + 1) (Nat.succ.inj length) fun j v v' hv hv' => by
      rw [Nat.add_assoc, Nat.add_comm 1]
      exact h (j + 1) v v' hv hv'
    refine bind hrest fun xs xs' hxs => .ok ?_
    rw [hx, hxs]

/-- Two lists are read in parallel if their items are. -/
theorem each {r : Option Role} {list list' : List Json} {read read' : Nat → Json → Reading α}
    (h : Rearranges r (.arr list) (.arr list'))
    (hread : ∀ i v v', v ∈ list → Rearranges (itemRole? r list i) v v' →
      Parallel (place.index i) (place'.index i) Eq (read i v) (read' i v')) :
    Parallel place place' Eq (each list read) (each list' read') := by
  refine eachFrom 0 h.length_eq fun i v v' hv hv' => ?_
  rw [Nat.zero_add]
  exact (hread i v v' (List.mem_of_getElem? hv) (h.item i v v' hv hv')).index

theorem eachOf (key : Text) {r : Option Role} {list list' : List Json}
    {read read' : Nat → Json → Reading α} (h : Rearranges r (.arr list) (.arr list'))
    (hread : ∀ i v v', v ∈ list → Rearranges (itemRole? r list i) v v' →
      Parallel ((place.member key).index i) ((place'.member key).index i) Eq (read i v)
        (read' i v')) :
    Parallel place place' Eq (Document.each list read) (Document.each list' read') :=
  (each h hread).member

end Parallel

/-! ### Single members -/

section Members

variable {r : Option Role} {members members' : Members} {key : Text}

/-- A value that readers look at is the same in both objects, or a list or an object in both. -/
theorem Corresponds.get?_cases (h : Corresponds r members members') (hkey : key ∈ memberNames) :
    members.get? key = members'.get? key ∨
      (∃ list list', members.get? key = some (.arr list) ∧ members'.get? key = some (.arr list') ∧
        Rearranges (memberRole? r members key) (.arr list) (.arr list')) ∨
      ∃ o o', members.get? key = some (.obj o) ∧ members'.get? key = some (.obj o') ∧
        Rearranges (memberRole? r members key) (.obj o) (.obj o') := by
  have hrel := h key hkey
  generalize members.get? key = x, members'.get? key = x' at hrel
  cases hrel with
  | none => exact .inl rfl
  | some hv =>
    rcases hv.eq_or_container with rfl | ⟨_, _, rfl, rfl⟩ | ⟨_, _, rfl, rfl⟩
    · exact .inl rfl
    · exact .inr (.inl ⟨_, _, rfl, rfl, hv⟩)
    · exact .inr (.inr ⟨_, _, rfl, rfl, hv⟩)

/-- What does not look into lists and objects finds the same in both objects. -/
theorem Corresponds.get?_congr (h : Corresponds r members members') (hkey : key ∈ memberNames)
    (f : Option Json → α) (list : ∀ list list', f (some (.arr list)) = f (some (.arr list')))
    (object : ∀ o o', f (some (.obj o)) = f (some (.obj o'))) :
    f (members.get? key) = f (members'.get? key) := by
  rcases h.get?_cases hkey with hget | ⟨l, l', h₁, h₂, -⟩ | ⟨o, o', h₁, h₂, -⟩
  · rw [hget]
  · rw [h₁, h₂, list l l']
  · rw [h₁, h₂, object o o']

theorem given?_of_arr {list : List Json} (h : members.get? key = some (.arr list)) :
    members.given? key = some (.arr list) :=
  given?_eq_some_iff.2 ⟨h, by simp⟩

theorem given?_of_obj {o : Members} (h : members.get? key = some (.obj o)) :
    members.given? key = some (.obj o) :=
  given?_eq_some_iff.2 ⟨h, by simp⟩

/-- So it is with values that count as absent if they are null. -/
theorem Corresponds.given?_cases (h : Corresponds r members members') (hkey : key ∈ memberNames) :
    members.given? key = members'.given? key ∨
      (∃ list list', members.given? key = some (.arr list) ∧
        members'.given? key = some (.arr list') ∧
        Rearranges (memberRole? r members key) (.arr list) (.arr list')) ∨
      ∃ o o', members.given? key = some (.obj o) ∧ members'.given? key = some (.obj o') ∧
        Rearranges (memberRole? r members key) (.obj o) (.obj o') := by
  rcases h.get?_cases hkey with hget | ⟨_, _, h₁, h₂, hlist⟩ | ⟨_, _, h₁, h₂, hobject⟩
  · exact .inl (given?_congr hget)
  · exact .inr (.inl ⟨_, _, given?_of_arr h₁, given?_of_arr h₂, hlist⟩)
  · exact .inr (.inr ⟨_, _, given?_of_obj h₁, given?_of_obj h₂, hobject⟩)

theorem mem_memberNames_of_part {r s : Role} {need : Need} (hp : ⟨key, s, need⟩ ∈ r.parts members) :
    key ∈ memberNames :=
  mem_memberNames_iff.2 ⟨r, _, parts_subset_candidates r members _ hp, rfl⟩

/-- A part of an object is rearranged at its position. -/
theorem Corresponds.get? {r s : Role} {need : Need} (h : Corresponds (some r) members members')
    (hp : ⟨key, s, need⟩ ∈ r.parts members) :
    Option.Rel (Rearranges (some s)) (members.get? key) (members'.get? key) := by
  have hrel := h key (mem_memberNames_of_part hp)
  rwa [memberRole?_eq_some hp] at hrel

theorem Corresponds.given? {r s : Role} {need : Need} (h : Corresponds (some r) members members')
    (hp : ⟨key, s, need⟩ ∈ r.parts members) :
    Option.Rel (Rearranges (some s)) (members.given? key) (members'.given? key) := by
  rcases h.given?_cases (mem_memberNames_of_part hp) with
    hgiven | ⟨_, _, h₁, h₂, hlist⟩ | ⟨_, _, h₁, h₂, hobject⟩
  · rw [← hgiven]
    cases members.given? key with
    | none => exact .none
    | some v => exact .some (.same _ v)
  · rw [h₁, h₂]
    exact .some (memberRole?_eq_some hp ▸ hlist)
  · rw [h₁, h₂]
    exact .some (memberRole?_eq_some hp ▸ hobject)

theorem name_parallel (h : Corresponds r members members') :
    Parallel place place' Eq (name place members) (name place' members') := by
  unfold name
  have hkey : Text.ofString "name" ∈ memberNames := by decide
  rcases h.get?_cases hkey with hget | ⟨_, _, h₁, h₂, -⟩ | ⟨_, _, h₁, h₂, -⟩
  · rw [← hget]
    split
    · exact .ok rfl
    · exact .member (.complain rfl)
  · rw [h₁, h₂]
    exact .member (.complain rfl)
  · rw [h₁, h₂]
    exact .member (.complain rfl)

theorem string?_parallel (h : Corresponds r members members') (hkey : key ∈ memberNames) :
    Parallel place place' Eq (string? place members key) (string? place' members' key) := by
  unfold string?
  rcases h.given?_cases hkey with hgiven | ⟨_, _, h₁, h₂, -⟩ | ⟨_, _, h₁, h₂, -⟩
  · rw [← hgiven]
    split
    · exact .ok rfl
    · exact .ok rfl
    · exact .member (.complain rfl)
  · rw [h₁, h₂]
    exact .member (.complain rfl)
  · rw [h₁, h₂]
    exact .member (.complain rfl)

theorem flag_parallel (h : Corresponds r members members') {spellings : List Text}
    (hkeys : ∀ key ∈ spellings, key ∈ memberNames) :
    Parallel place place' Eq (flag place members spellings) (flag place' members' spellings) := by
  induction spellings with
  | nil => exact .ok rfl
  | cons key rest ih =>
    have hrest := ih fun key hk => hkeys key (List.mem_cons_of_mem _ hk)
    unfold flag
    rcases h.given?_cases (hkeys key List.mem_cons_self) with
      hgiven | ⟨_, _, h₁, h₂, -⟩ | ⟨_, _, h₁, h₂, -⟩
    · rw [← hgiven]
      split
      · exact hrest
      · exact .ok rfl
      · exact .member (.complain rfl)
    · rw [h₁, h₂]
      exact .member (.complain rfl)
    · rw [h₁, h₂]
      exact .member (.complain rfl)

/-- The items of a part are those of a rearranged list. -/
theorem items_parallel {r s : Role} {need : Need} (h : Corresponds (some r) members members')
    (hp : ⟨key, s, need⟩ ∈ r.parts members) :
    Parallel place place'
      (fun list list' => ListMember members key list ∧
        Rearranges (some s) (.arr list) (.arr list'))
      (items place members key) (items place' members' key) := by
  have hkey := mem_memberNames_of_part hp
  unfold items
  rcases h.given?_cases hkey with hgiven | ⟨_, _, h₁, h₂, hlist⟩ | ⟨_, _, h₁, h₂, -⟩
  · rw [← hgiven]
    split
    · next hnone => exact .ok ⟨.inr ⟨hnone, rfl⟩, .same _ _⟩
    · next hsome => exact .ok ⟨.inl hsome, .same _ _⟩
    · exact .member (.complain rfl)
  · rw [h₁, h₂]
    rw [memberRole?_eq_some hp] at hlist
    exact .ok ⟨.inl h₁, hlist⟩
  · rw [h₁, h₂]
    exact .member (.complain rfl)

theorem docs_parallel {r : Role} (h : Corresponds (some r) members members')
    (hp : ⟨"docs", .list .text, .optional⟩ ∈ r.parts members) :
    Parallel place place' Eq (docs place members) (docs place' members') := by
  refine .bind (items_parallel h hp) fun list list' ⟨_, hlist⟩ => ?_
  refine .eachOf "docs" hlist fun i line line' _ hline => ?_
  rcases hline.eq_or_container with rfl | ⟨_, _, rfl, rfl⟩ | ⟨_, _, rfl, rfl⟩
  · split
    · exact .ok rfl
    · exact .complain rfl
  · exact .complain rfl
  · exact .complain rfl

/-- The value of a part that may be absent is read in parallel if it is wherever it is given. -/
theorem mapM_given?_parallel {r s : Role} {read read' : Json → Reading α}
    (h : Corresponds (some r) members members') (hp : ⟨key, s, .optional⟩ ∈ r.parts members)
    (hread : ∀ v v', Rearranges (some s) v v' →
      Parallel (place.member key) (place'.member key) Eq (read v) (read' v')) :
    Parallel place place' Eq ((members.given? key).mapM read)
      ((members'.given? key).mapM read') := by
  have hrel := h.given? hp
  generalize members.given? key = x, members'.given? key = x' at hrel
  cases hrel with
  | none => exact .ok rfl
  | some hv => exact (hread _ _ hv).member.map fun _ _ => congrArg some

/-- An object is rearranged to an object. -/
theorem object_parallel {raw raw' : Json} (h : Rearranges r raw raw') :
    Parallel place place' (Corresponds r) (object place raw) (object place' raw') := by
  cases raw with
  | obj members =>
    obtain ⟨members', rfl, hmembers⟩ := h.exists_obj
    exact .ok hmembers
  | arr list =>
    obtain ⟨list', rfl, -⟩ := h.exists_arr
    exact .complain rfl
  | null | bool | int | float | str =>
    cases h
    exact .complain rfl

/-! ### Bytes -/

theorem bytes_parallel {raw raw' : Json} (h : Rearranges r raw raw') (list : ByteList) :
    Parallel place place' Eq (bytes place list raw) (bytes place' list raw') := by
  cases raw with
  | arr items =>
    obtain ⟨items', rfl, -⟩ := h.exists_arr
    refine .each h fun i v v' _ hv => ?_
    rcases hv.eq_or_container with rfl | ⟨_, _, rfl, rfl⟩ | ⟨_, _, rfl, rfl⟩
    · split
      · exact .ok rfl
      · exact .complain rfl
    · exact .complain rfl
    · exact .complain rfl
  | obj members =>
    obtain ⟨members', rfl, -⟩ := h.exists_obj
    exact .complain rfl
  | null | bool | int | float | str =>
    cases h
    exact .complain rfl

/-- A discriminator that may be absent. -/
theorem discriminator_parallel {raw raw' : Option Json} (h : Option.Rel (Rearranges r) raw raw') :
    Parallel place place' Eq (discriminator place raw) (discriminator place' raw') := by
  cases h with
  | none => exact .complain rfl
  | some h =>
    refine .bind (bytes_parallel h .discriminator) fun value value' hvalue => ?_
    obtain rfl := hvalue
    split
    · exact .ok rfl
    · exact .complain rfl

end Members
end Document
end AnchorIdl
