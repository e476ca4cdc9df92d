/-
# When a reading succeeds

A reading either yields a value or stops at a fault, so what a reader accepts
can be said without its faults: a sequence of readings succeeds when each of
them does, and `each` succeeds when it reads every item (`each_eq_ok_iff`).

The readers of nested parts go through `sizedItems`, which keeps the proof that
an item is smaller than its object.  `bind_sizedItems` takes that proof away, so
everything below speaks of `items`.
-/

import AnchorIdl.Document.Member
import Mathlib.Data.List.Forall2

namespace AnchorIdl
namespace Document

variable {ε α β γ : Type}

theorem bind_eq_ok {x : Except ε α} {f : α → Except ε β} {b : β} :
    (x >>= f) = .ok b ↔ ∃ a, x = .ok a ∧ f a = .ok b := by
  cases x <;> simp [bind, Except.bind]

theorem bind_eq_error {x : Except ε α} {f : α → Except ε β} {e : ε} :
    (x >>= f) = .error e ↔ x = .error e ∨ ∃ a, x = .ok a ∧ f a = .error e := by
  cases x <;> simp [bind, Except.bind]

theorem map_eq_ok {x : Reading α} {f : α → β} {b : β} :
    x.map f = .ok b ↔ ∃ a, x = .ok a ∧ f a = b := by
  cases x <;> simp [Except.map]

theorem mapError_eq_ok {δ : Type} {x : Except ε α} {f : ε → δ} {a : α} :
    x.mapError f = .ok a ↔ x = .ok a := by
  cases x with
  | error e => exact iff_of_false nofun nofun
  | ok b =>
    change Except.ok b = Except.ok a ↔ _
    rw [Except.ok.injEq, Except.ok.injEq]

theorem mapError_eq_error {δ : Type} {x : Except ε α} {f : ε → δ} {e : δ} :
    x.mapError f = .error e ↔ ∃ e', x = .error e' ∧ f e' = e := by
  cases x <;> simp [Except.mapError]

@[simp] theorem pure_eq_ok {a b : α} : (pure a : Except ε α) = .ok b ↔ a = b := by
  simp [pure, Except.pure]

@[simp] theorem complain_ne_ok (place : Place) (complaint : Complaint) (a : α) :
    complain place complaint ≠ .ok a := by
  simp [complain]

/-! ### Lists -/

theorem forall₂_of_eachFrom {R : α → β → Prop} {read : Nat → α → Reading β} {xs : List α}
    {ys : List β} (i : Nat) (h : eachFrom read i xs = .ok ys)
    (hR : ∀ i, ∀ x ∈ xs, ∀ y, read i x = .ok y → R x y) : List.Forall₂ R xs ys := by
  induction xs generalizing i ys with
  | nil =>
    obtain rfl : [] = ys := by simpa [eachFrom] using h
    exact .nil
  | cons x xs ih =>
    simp only [eachFrom, bind_eq_ok, pure_eq_ok] at h
    obtain ⟨y, hy, ys', hys, rfl⟩ := h
    exact .cons (hR i x (List.mem_cons_self ..) y hy)
      (ih (i + 1) hys fun i x' hx' => hR i x' (List.mem_cons_of_mem _ hx'))

theorem eachFrom_of_forall₂ {R : α → β → Prop} {read : Nat → α → Reading β} {xs : List α}
    {ys : List β} (i : Nat) (h : List.Forall₂ R xs ys)
    (hR : ∀ i, ∀ x ∈ xs, ∀ y, R x y → read i x = .ok y) : eachFrom read i xs = .ok ys := by
  induction h generalizing i with
  | nil => rfl
  | @cons x y xs ys hxy _ ih =>
    have hx := hR i x (List.mem_cons_self ..) y hxy
    have hxs := ih (i + 1) fun i x' hx' => hR i x' (List.mem_cons_of_mem _ hx')
    simp [eachFrom, bind_eq_ok, hx, hxs]

theorem forall₂_eq_map_iff {f : β → α} {xs : List α} {ys : List β} :
    List.Forall₂ (fun x y => x = f y) xs ys ↔ xs = ys.map f := by
  rw [← List.forall₂_map_right_iff (R := Eq), List.forall₂_eq_eq_eq]

/-- What the related values have in common, whatever they are related to. -/
theorem forall_of_forall₂ {R : α → β → Prop} {P : β → Prop} {xs : List α} {ys : List β}
    (h : List.Forall₂ R xs ys) (hP : ∀ x y, R x y → P y) : ∀ y ∈ ys, P y := by
  induction h with
  | nil => simp
  | cons head _ ih => exact List.forall_mem_cons.2 ⟨hP _ _ head, ih⟩

/-- **Reading a list reads each item:** the values stand in the order of the items. -/
theorem each_eq_ok_iff {R : α → β → Prop} {read : Nat → α → Reading β} {xs : List α} {ys : List β}
    (h : ∀ i, ∀ x ∈ xs, ∀ y, read i x = .ok y ↔ R x y) :
    each xs read = .ok ys ↔ List.Forall₂ R xs ys :=
  ⟨fun hys => forall₂_of_eachFrom 0 hys fun i x hx y => (h i x hx y).1,
    fun hys => eachFrom_of_forall₂ 0 hys fun i x hx y => (h i x hx y).2⟩

theorem eachFrom_map (f : γ → α) (read : Nat → α → Reading β) (i : Nat) (xs : List γ) :
    eachFrom read i (xs.map f) = eachFrom (fun i x => read i (f x)) i xs := by
  induction xs generalizing i with
  | nil => rfl
  | cons x xs ih => simp [eachFrom, ih]

theorem each_map (f : γ → α) (read : Nat → α → Reading β) (xs : List γ) :
    each (xs.map f) read = each xs fun i x => read i (f x) :=
  eachFrom_map f read 0 xs

/-- What comes after a list is read from the length of the list on. -/
theorem eachFrom_append (read : Nat → α → Reading β) (i : Nat) (xs ys : List α) :
    eachFrom read i (xs ++ ys) = (do
      let start ← eachFrom read i xs
      let rest ← eachFrom read (i + xs.length) ys
      return start ++ rest) := by
  induction xs generalizing i with
  | nil =>
    change eachFrom read i ys = eachFrom read i ys >>= fun rest => pure rest
    cases eachFrom read i ys <;> rfl
  | cons x xs ih =>
    have hlength : i + (x :: xs).length = i + 1 + xs.length := by
      rw [List.length_cons]
      omega
    rw [List.cons_append, eachFrom, ih, eachFrom, hlength]
    cases read i x with
    | error e => rfl
    | ok y =>
      cases eachFrom read (i + 1) xs with
      | error e => rfl
      | ok start => cases eachFrom read (i + 1 + xs.length) ys <;> rfl

/-! ### Members -/

/-- The items with the proofs of their sizes are the items. -/
theorem sizedItems_map_val (place : Place) (members : Members) (key : Text) :
    (sizedItems place members key).map (List.map Subtype.val) = items place members key := by
  unfold sizedItems items Members.given?
  have hf := Members.find_map_val members key
  cases h : members.find key with
  | none => simp [← hf, h, Except.map]
  | some value =>
    obtain ⟨value, hv⟩ := value
    cases value <;> simp [← hf, h, Except.map, complain, List.map_map, Function.comp_def]

/-- Reading the items of a list does not need the proofs of their sizes. -/
theorem bind_sizedItems {place : Place} {members : Members} {key : Text}
    {sized : Nat → { x : Json // sizeOf x < sizeOf members } → Reading α}
    {read : Nat → Json → Reading α} (h : ∀ i x, sized i x = read i x.val)
    (f : List α → Reading β) :
    (sizedItems place members key >>= fun xs => each xs sized >>= f) =
      (items place members key >>= fun xs => each xs read >>= f) := by
  obtain rfl : sized = fun i x => read i x.val := funext fun i => funext fun x => h i x
  rw [← sizedItems_map_val]
  cases sizedItems place members key with
  | error e => rfl
  | ok xs =>
    change (each xs _ >>= f) = (each (xs.map Subtype.val) read >>= f)
    rw [each_map]

theorem given?_eq_some_iff {members : Members} {key : Text} {value : Json} :
    members.given? key = some value ↔ members.get? key = some value ∧ value ≠ .null := by
  unfold Members.given?
  cases members.get? key with
  | none => simp
  | some found =>
    cases found with
    | null =>
      simp only [reduceCtorEq, Option.some.injEq, false_iff, not_and, not_not]
      exact Eq.symm
    | _ => exact ⟨fun h => ⟨h, Option.some.inj h ▸ by simp⟩, And.left⟩

theorem given?_eq_none_iff {members : Members} {key : Text} :
    members.given? key = none ↔ members.get? key = none ∨ members.get? key = some .null := by
  unfold Members.given?
  split <;> simp_all

/-- The list named `key`, where absent and null mean no items. -/
def ListMember (members : Members) (key : Text) (list : List Json) : Prop :=
  members.given? key = some (.arr list) ∨ members.given? key = none ∧ list = []

theorem items_eq_ok_iff {place : Place} {members : Members} {key : Text} {list : List Json} :
    items place members key = .ok list ↔ ListMember members key list := by
  unfold items ListMember
  cases h : members.given? key with
  | none => simp [eq_comm]
  | some value => cases value <;> simp

/-- The items of a list are smaller than the object that holds it. -/
theorem ListMember.sizeOf_lt {members : Members} {key : Text} {list : List Json} {item : Json}
    (h : ListMember members key list) (hi : item ∈ list) : sizeOf item < sizeOf members := by
  rcases h with h | ⟨_, rfl⟩
  · exact Members.sizeOf_item_lt (Members.sizeOf_given?_lt h) hi
  · simp at hi

/-- The name of an object: a text that is not empty. -/
def NameMember (members : Members) (name : Text) : Prop :=
  members.get? "name" = some (.str name) ∧ name ≠ []

theorem name_eq_ok_iff {place : Place} {members : Members} {t : Text} :
    name place members = .ok t ↔ NameMember members t := by
  unfold name NameMember
  split
  · next c rest h => simp only [h, Except.ok.injEq, Option.some.injEq, Json.str.injEq]; grind
  · next h =>
    simp only [complain_ne_ok, false_iff, not_and, not_not]
    intro ht
    cases t with
    | nil => rfl
    | cons c rest => exact absurd ht (h c rest)

theorem string?_eq_ok_iff {place : Place} {members : Members} {key : Text} {t : Option Text} :
    string? place members key = .ok t ↔ members.given? key = t.map .str := by
  unfold string?
  cases h : members.given? key with
  | none => cases t <;> simp
  | some value => cases value <;> cases t <;> simp

theorem docs_eq_ok_iff {place : Place} {members : Members} {lines : List Text} :
    docs place members = .ok lines ↔ ListMember members "docs" (lines.map .str) := by
  simp only [docs, bind_eq_ok, items_eq_ok_iff]
  refine (exists_congr fun list => and_congr_right fun _ =>
    (each_eq_ok_iff (R := fun line t => line = Json.str t) ?_).trans forall₂_eq_map_iff).trans ?_
  · intro i line _ t
    cases line <;> simp
  · simp

end Document
end AnchorIdl
