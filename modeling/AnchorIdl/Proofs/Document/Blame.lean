/-
# What a rejection blames

A reader stops at the first value that it does not take.  Here is what that value
is: a reading of a value at a position *blames* its parts if each of its
rejections names the place of a value at or below the position and that value is
faulty there in the way the complaint says (`Blames`).  The one rejection without
a place is that of a constant seed whose text has no octets.

Blame is passed on by sequences (`Blames.bind`), from the members of an object
(`Blames.required`, `Blames.given`) and from the items of a list
(`Blames.each`); with these the readers of single members are gone through here,
and no later reader needs to be opened down to its rejections.
-/

import AnchorIdl.Proofs.Document.Form
import AnchorIdl.Proofs.Document.Position

namespace AnchorIdl
namespace Document

variable {α β : Type}

/-- The positions of values that a message may show. -/
def shownRoles : List Role := [.byte .discriminator, .byte .constant, .seedKind, .typeKind]

/-- A rejection of the value at a position is justified, if the position stands at a place. -/
inductive Justified (place : Place) (r : Role) (v : Option Json) : Rejection → Prop
  | fault {steps : Place} {r' : Role} {v' : Option Json} {c : Complaint}
      (hs : Stands r v steps r' v') (hf : Faulty c.kind r' v')
      (hshown : ∀ x ∈ c.shown?, r' ∈ shownRoles ∧ x = v'.getD .null) :
      Justified place r v (.fault ⟨c, some (place ++ steps)⟩)
  | unencodable {steps : Place} {t : Text} {fault : Utf8.EncodeFault}
      (hs : Stands r v steps .constant (some (.str t))) (ht : Utf8.encode t = .error fault) :
      Justified place r v (.unencodable fault)

/-- A reading rejects the value at a position only for what is faulty at or below it. -/
def Blames (place : Place) (r : Role) (v : Option Json) (x : Reading α) : Prop :=
  ∀ e, x = .error e → Justified place r v e

section Combinators

variable {place : Place} {r r' : Role} {v : Option Json} {members : Members} {key : Text}

theorem Blames.ok (a : α) : Blames place r v (.ok a) := nofun

theorem Blames.complain {c : Complaint} (h : Faulty c.kind r v) (hc : c.shown? = none) :
    Blames place r v (complain place c : Reading α) := by
  intro e he
  obtain rfl := Except.error.inj he
  have hplace : Justified place r v (.fault ⟨c, some (place ++ [])⟩) :=
    .fault .here h (by simp [hc])
  rwa [List.append_nil] at hplace

/-- The value at a position may be shown; nothing is shown as null. -/
theorem Blames.complain_shown {c : Complaint} (h : Faulty c.kind r v)
    (hc : c.shown? = some (v.getD .null)) (hr : r ∈ shownRoles) :
    Blames place r v (Document.complain place c : Reading α) := by
  intro e he
  obtain rfl := Except.error.inj he
  have hplace : Justified place r v (.fault ⟨c, some (place ++ [])⟩) :=
    .fault .here h (by simp [hc, hr])
  rwa [List.append_nil] at hplace

theorem Blames.bind {x : Reading α} {f : α → Reading β} (hx : Blames place r v x)
    (hf : ∀ a, x = .ok a → Blames place r v (f a)) : Blames place r v (x >>= f) := by
  intro e he
  cases x with
  | error e' =>
    obtain rfl : e' = e := Except.error.inj he
    exact hx e' rfl
  | ok a => exact hf a rfl e he

theorem Blames.map {x : Reading α} {f : α → β} (hx : Blames place r v x) :
    Blames place r v (x.map f) := by
  intro e he
  cases x with
  | error e' =>
    obtain rfl : e' = e := Except.error.inj he
    exact hx e' rfl
  | ok a => cases he

theorem Justified.member {p : Part} {e : Rejection} (hp : p ∈ r.parts members)
    (given : p.need = .required ∨ (members.given? p.key).isSome)
    (h : Justified (place.member p.key) p.role (members.get? p.key) e) :
    Justified place r (some (.obj members)) e := by
  cases h with
  | unencodable hs ht => exact .unencodable (.member hp given hs) ht
  | @fault steps _ _ _ hs hf hshown =>
    have hplace : place.member p.key ++ steps = place ++ .member p.key :: steps := by
      simp [Place.member]
    rw [hplace]
    exact .fault (.member hp given hs) hf hshown

theorem Justified.item {items : List Json} {i : Nat} {value : Json} {e : Rejection}
    (hr : r.item items i = some r') (hv : items[i]? = some value)
    (h : Justified (place.index i) r' (some value) e) :
    Justified place r (some (.arr items)) e := by
  cases h with
  | unencodable hs ht => exact .unencodable (.item hr hv hs) ht
  | @fault steps _ _ _ hs hf hshown =>
    have hplace : place.index i ++ steps = place ++ .index i :: steps := by simp [Place.index]
    rw [hplace]
    exact .fault (.item hr hv hs) hf hshown

theorem Blames.required {x : Reading α} (hp : ⟨key, r', .required⟩ ∈ r.parts members)
    (h : Blames (place.member key) r' (members.get? key) x) :
    Blames place r (some (.obj members)) x :=
  fun e he => .member hp (.inl rfl) (h e he)

theorem Blames.given {x : Reading α} {value : Json} {need : Need}
    (hp : ⟨key, r', need⟩ ∈ r.parts members) (hv : members.given? key = some value)
    (h : Blames (place.member key) r' (some value) x) :
    Blames place r (some (.obj members)) x := by
  refine fun e he => .member hp (.inr (by simp [hv])) ?_
  rw [Members.get?_of_given? hv]
  exact h e he

theorem Blames.item {x : Reading α} {items : List Json} {i : Nat} {value : Json}
    (hr : r.item items i = some r') (hv : items[i]? = some value)
    (h : Blames (place.index i) r' (some value) x) : Blames place r (some (.arr items)) x :=
  fun e he => .item hr hv (h e he)

/-- A list is rejected for the first item that is. -/
theorem exists_of_eachFrom_error {read : Nat → α → Reading β} {xs : List α} {e : Rejection}
    {i : Nat} (h : eachFrom read i xs = .error e) :
    ∃ j x, xs[j]? = some x ∧ read (i + j) x = .error e := by
  induction xs generalizing i with
  | nil => simp [eachFrom] at h
  | cons x xs ih =>
    cases hx : read i x with
    | error e' =>
      simp only [eachFrom, hx] at h
      obtain rfl : e' = e := Except.error.inj h
      exact ⟨0, x, rfl, hx⟩
    | ok y =>
      cases hxs : eachFrom read (i + 1) xs with
      | ok ys =>
        simp only [eachFrom, hx, hxs] at h
        cases h
      | error e' =>
        simp only [eachFrom, hx, hxs] at h
        obtain rfl : e' = e := Except.error.inj h
        obtain ⟨j, x', hj, hread⟩ := ih hxs
        exact ⟨j + 1, x', hj, by rwa [Nat.add_right_comm] at hread⟩

theorem Blames.each {items : List Json} {read : Nat → Json → Reading β}
    (hr : ∀ i, r.item items i = some r')
    (h : ∀ i, ∀ raw ∈ items, Blames (place.index i) r' (some raw) (read i raw)) :
    Blames place r (some (.arr items)) (each items read) := by
  intro e he
  obtain ⟨i, raw, hraw, hread⟩ := exists_of_eachFrom_error he
  rw [Nat.zero_add] at hread
  exact .item (hr i) hraw (h i raw (List.mem_of_getElem? hraw) e hread)

/-- The items of a member that may be absent or null. -/
theorem Blames.eachOf {items : List Json} {item : Role} {read : Nat → Json → Reading β}
    {need : Need} (hp : ⟨key, r', need⟩ ∈ r.parts members) (hl : ListMember members key items)
    (hr : ∀ i, r'.item items i = some item)
    (h : ∀ i, ∀ raw ∈ items, Blames ((place.member key).index i) item (some raw) (read i raw)) :
    Blames place r (some (.obj members)) (Document.each items read) := by
  rcases hl with hgiven | ⟨-, rfl⟩
  · exact .given hp hgiven (.each hr h)
  · exact .ok _

end Combinators

/-! ### Single members -/

section Members

variable {place : Place} {r r' : Role} {members : Members} {key : Text}

theorem object_blames {raw : Json} (hr : r.sorts = some [.object]) :
    Blames place r (some raw) (object place raw) := by
  unfold object
  split
  · exact .ok _
  · next h => exact .complain (.wrongSort hr (by cases raw <;> simp_all [Json.kind])) rfl

theorem items_blames {need : Need} {sorts : List Json.Kind}
    (hp : ⟨key, r', need⟩ ∈ r.parts members) (hr : r'.sorts = some sorts)
    (hs : ∀ k ∈ sorts, k = .list ∨ k = .null) :
    Blames place r (some (.obj members)) (items place members key) := by
  unfold items
  split
  · exact .ok _
  · exact .ok _
  · next value h hgiven =>
    refine .given hp hgiven (.complain (.wrongSort hr fun hk => ?_) rfl)
    have hnull := (given?_eq_some_iff.1 hgiven).2
    rcases hs _ hk with hk | hk <;> cases value <;> simp_all [Json.kind]

theorem string?_blames {need : Need} {sorts : List Json.Kind}
    (hp : ⟨key, r', need⟩ ∈ r.parts members) (hr : r'.sorts = some sorts)
    (hs : ∀ k ∈ sorts, k = .string ∨ k = .null) :
    Blames place r (some (.obj members)) (string? place members key) := by
  unfold string?
  split
  · exact .ok _
  · exact .ok _
  · next value h hgiven =>
    refine .given hp hgiven (.complain (.wrongSort hr fun hk => ?_) rfl)
    have hnull := (given?_eq_some_iff.1 hgiven).2
    rcases hs _ hk with hk | hk <;> cases value <;> simp_all [Json.kind]

theorem name_blames (hp : ⟨"name", .name, .required⟩ ∈ r.parts members) :
    Blames place r (some (.obj members)) (name place members) := by
  unfold name
  split
  · exact .ok _
  · next h =>
    refine .required hp (.complain (.noName fun t ht hname => ?_) rfl)
    obtain ⟨c, rest, rfl⟩ := List.exists_cons_of_ne_nil ht
    exact h c rest hname

theorem flag_blames {spellings : List Text}
    (hp : ∀ key ∈ spellings, ⟨key, .boolean, .optional⟩ ∈ r.parts members) :
    Blames place r (some (.obj members)) (flag place members spellings) := by
  induction spellings with
  | nil => exact .ok _
  | cons key rest ih =>
    unfold flag
    split
    · exact ih fun key' hkey => hp key' (List.mem_cons_of_mem _ hkey)
    · exact .ok _
    · next value h hgiven =>
      refine .given (hp key (List.mem_cons_self ..)) hgiven (.complain (.wrongSort rfl ?_) rfl)
      cases value <;> simp_all [Json.kind]

theorem docs_blames (hp : ⟨"docs", .list .text, .optional⟩ ∈ r.parts members) :
    Blames place r (some (.obj members)) (docs place members) := by
  refine .bind (items_blames hp rfl (by decide)) fun lines hl => ?_
  refine .eachOf hp (items_eq_ok_iff.1 hl) (fun _ => rfl) fun i line _ => ?_
  split
  · exact .ok _
  · next h => exact .complain (.wrongSort rfl (by cases line <;> simp_all [Json.kind])) rfl

theorem mapM_given?_blames {read : Json → Reading α} (hp : ⟨key, r', .optional⟩ ∈ r.parts members)
    (h : ∀ raw, Blames (place.member key) r' (some raw) (read raw)) :
    Blames place r (some (.obj members)) ((members.given? key).mapM read) := by
  cases hgiven : members.given? key with
  | none => exact .ok _
  | some raw => exact .given hp hgiven (.map (h raw))

end Members

end Document
end AnchorIdl
