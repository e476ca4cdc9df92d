/-
# The integers of a JSON value

A value is *short* if none of its integers, at any depth, has more digits than
can be written.  Short values are exactly those that messages can show
(`isSome_display`), and every value that is read from a text or from octets is
short (`short_of_ofText`, `short_of_ofOctets`): an integer with too many digits
is refused where it is read.  So a value that is not short has never been JSON
text.
-/

import AnchorIdl.Json.Display
import AnchorIdl.Json.Octets
import AnchorIdl.Proofs.Document.Reading
import AnchorIdl.Proofs.Ordered
import AnchorIdl.Proofs.Text.Numeral

namespace AnchorIdl

open Document (bind_eq_ok mapError_eq_ok)

mutual

/-- The integers of a JSON value, at every depth. -/
def Json.integers : Json → List Int
  | .int n => [n]
  | .arr items => itemsIntegers items
  | .obj members => membersIntegers members
  | _ => []

/-- The integers of some items. -/
def itemsIntegers : List Json → List Int
  | [] => []
  | x :: rest => x.integers ++ itemsIntegers rest

/-- The integers of some members. -/
def membersIntegers : List (Text × Json) → List Int
  | [] => []
  | (_, x) :: rest => x.integers ++ membersIntegers rest

end

namespace Json

/-- No integer of a value has more digits than can be written. -/
def Short (raw : Json) : Prop := ∀ n ∈ raw.integers, Text.isShort n = true

theorem short_int {n : Int} : (Json.int n).Short ↔ Text.isShort n = true :=
  List.forall_mem_singleton

theorem short_arr {items : List Json} : (Json.arr items).Short ↔ ∀ v ∈ items, v.Short := by
  unfold Short
  rw [integers]
  induction items with
  | nil => simp [itemsIntegers]
  | cons v rest ih => rw [itemsIntegers, List.forall_mem_append, List.forall_mem_cons, ih]

theorem short_obj {members : Members} :
    (Json.obj members).Short ↔ ∀ m ∈ members, m.2.Short := by
  unfold Short
  rw [integers]
  induction members with
  | nil => simp [membersIntegers]
  | cons m rest ih => rw [membersIntegers, List.forall_mem_append, List.forall_mem_cons, ih]

/-! ### Showing -/

theorem isSome_numeral? (n : Int) : (Text.numeral? n).isSome = Text.isShort n := by
  unfold Text.numeral?
  split <;> simp_all

mutual

theorem isSome_display_eq : ∀ v : Json, v.display.isSome = v.integers.all Text.isShort
  | .null | .float _ | .str _ => rfl
  | .bool b => by cases b <;> rfl
  | .int n => by simp [display, integers, isSome_numeral?]
  | .arr items => by
    have h := isSome_displayItems_eq items
    rw [display, integers, ← h]
    cases displayItems items <;> rfl
  | .obj members => by
    have h := isSome_displayMembers_eq members
    rw [display, integers, ← h]
    cases displayMembers members <;> rfl

theorem isSome_displayItems_eq : ∀ items : List Json,
    (displayItems items).isSome = (itemsIntegers items).all Text.isShort
  | [] => rfl
  | v :: rest => by
    have hv := isSome_display_eq v
    have hrest := isSome_displayItems_eq rest
    rw [displayItems, itemsIntegers, List.all_append, ← hv, ← hrest]
    cases display v <;> cases displayItems rest <;> rfl

theorem isSome_displayMembers_eq : ∀ members : List (Text × Json),
    (displayMembers members).isSome = (membersIntegers members).all Text.isShort
  | [] => rfl
  | (_, v) :: rest => by
    have hv := isSome_display_eq v
    have hrest := isSome_displayMembers_eq rest
    rw [displayMembers, membersIntegers, List.all_append, ← hv, ← hrest]
    cases display v <;> cases displayMembers rest <;> rfl

end

/-- **Messages can show exactly the short values.** -/
theorem isSome_display {v : Json} : v.display.isSome = true ↔ v.Short := by
  rw [isSome_display_eq, List.all_eq_true]
  rfl

/-! ### Reading -/

theorem isDigit_of_wholeDigits? {s whole : Text} {r : Text.Rest s}
    (h : wholeDigits? s = some (whole, r)) : ∀ d ∈ whole, d.isDigit = true := by
  cases s with
  | nil => simp [wholeDigits?] at h
  | cons c q =>
    rw [wholeDigits?] at h
    split at h
    · next hzero =>
      obtain ⟨rfl, -⟩ := Prod.mk.inj (Option.some.inj h)
      exact List.forall_mem_singleton.2 (hzero ▸ by decide)
    · split at h
      · next hdigit =>
        obtain ⟨rfl, -⟩ := Prod.mk.inj (Option.some.inj h)
        exact List.forall_mem_cons.2 ⟨hdigit, fun d hd => List.all_eq_true.1
          (List.all_takeWhile (l := q)) d hd⟩
      · cases h

theorem short_of_scanDigits? {negative : Bool} {s : Text} {v : Json} {r : Text.Rest s}
    (h : scanDigits? negative s = .ok (some (v, r))) : v.Short := by
  unfold scanDigits? at h
  split at h
  · cases h
  · next whole q hq hwhole =>
    dsimp only at h
    split at h
    · split at h
      · cases h
      · next hlength =>
        have hdigits := isDigit_of_wholeDigits? hwhole
        obtain ⟨rfl, -⟩ := Prod.mk.inj (Option.some.inj (Except.ok.inj h))
        refine short_int.2 (Text.isShort_digitsValue hdigits (Nat.not_lt.1 hlength) ?_)
        cases negative <;> simp
    · obtain ⟨rfl, -⟩ := Prod.mk.inj (Option.some.inj (Except.ok.inj h))
      exact fun n hn => absurd hn List.not_mem_nil

theorem short_of_scanNumber? {s : Text} {v : Json} {r : Text.Rest s}
    (h : scanNumber? s = .ok (some (v, r))) : v.Short := by
  cases s with
  | nil => cases h
  | cons c q =>
    rw [scanNumber?] at h
    split at h
    · obtain ⟨found, hfound, h⟩ := bind_eq_ok.1 h
      cases found with
      | none => cases h
      | some found =>
        obtain ⟨w, q, hq⟩ := found
        cases h
        exact short_of_scanDigits? hfound
    · exact short_of_scanDigits? h

theorem short_of_scanAtom {s : Text} {v : Json} {r : Text.Rest s}
    (h : scanAtom s = .ok (v, r)) : v.Short := by
  unfold scanAtom at h
  split at h
  · next found hfound =>
    cases h
    obtain ⟨word, hword, hscan⟩ := List.exists_of_findSome?_eq_some hfound
    have hvalue : v = word.2.2 := by
      cases s with
      | nil => cases hscan
      | cons c q =>
        rw [scanWord?] at hscan
        split at hscan
        · cases hscan
        · split at hscan
          · cases hscan
          · exact (Prod.mk.inj (Option.some.inj hscan)).1.symm
    have hwords : ∀ word ∈ words, word.2.2.integers = [] := by decide
    intro n hn
    rw [hvalue, hwords word hword] at hn
    exact absurd hn List.not_mem_nil
  · obtain ⟨found, hfound, h⟩ := bind_eq_ok.1 h
    cases found with
    | none => cases h
    | some found =>
      cases h
      exact short_of_scanNumber? hfound

/-- What is scanned from a text is short. -/
structure ScansShort (s : Text) : Prop where
  value : ∀ {v r}, scanValue s = .ok (v, r) → v.Short
  items : ∀ {vs r}, scanItems s = .ok (vs, r) → ∀ v ∈ vs, v.Short
  pairs : ∀ {ps r}, scanPairs s = .ok (ps, r) → ∀ p ∈ ps, p.2.Short

theorem short_of_scanValue {s : Text} (ih : ∀ q : Text, q.length < s.length → ScansShort q)
    {v : Json} {r : Text.Rest s} (h : scanValue s = .ok (v, r)) : v.Short := by
  cases s with
  | nil => rw [scanValue] at h; cases h
  | cons c q =>
    rw [scanValue] at h
    split at h
    · -- a text
      obtain ⟨⟨t, q', hq'⟩, -, h⟩ := bind_eq_ok.1 h
      cases h
      exact fun n hn => absurd hn List.not_mem_nil
    · split at h
      · -- a list
        split at h
        · cases h
        · next d q' hq' heq =>
          split at h
          · cases h
            exact fun n hn => absurd hn List.not_mem_nil
          · obtain ⟨⟨vs, q'', hq''⟩, hitems, h⟩ := bind_eq_ok.1 h
            cases h
            have hlt : (d :: q').length < (c :: q).length := Nat.lt_succ_of_le hq'
            exact short_arr.2 ((ih _ hlt).items hitems)
      · split at h
        · -- an object
          split at h
          · cases h
          · next d q' hq' heq =>
            split at h
            · cases h
              exact fun n hn => absurd hn List.not_mem_nil
            · obtain ⟨⟨ps, q'', hq''⟩, hpairs, h⟩ := bind_eq_ok.1 h
              cases h
              have hlt : (d :: q').length < (c :: q).length := Nat.lt_succ_of_le hq'
              exact short_obj.2 (Ordered.forall_merge (by simp) ((ih _ hlt).pairs hpairs))
        · exact short_of_scanAtom h

theorem short_of_scanItems {s : Text} (hvalue : ∀ {v r}, scanValue s = .ok (v, r) → v.Short)
    (ih : ∀ q : Text, q.length < s.length → ScansShort q) {vs : List Json} {r : Text.Rest s}
    (h : scanItems s = .ok (vs, r)) : ∀ v ∈ vs, v.Short := by
  rw [scanItems] at h
  obtain ⟨⟨v, q, hq⟩, hv, h⟩ := bind_eq_ok.1 h
  have hshort := hvalue hv
  dsimp only at h
  split at h
  · cases h
  · next d q' hq' heq =>
    split at h
    · cases h
      exact List.forall_mem_singleton.2 hshort
    · split at h
      · cases h
      · obtain ⟨⟨vs', q'', hq''⟩, hitems, h⟩ := bind_eq_ok.1 h
        cases h
        have htail := (skipBlanks q').property
        have hlt : (skipBlanks q').val.length < s.length := by
          rw [List.length_cons] at hq'
          omega
        exact List.forall_mem_cons.2 ⟨hshort, (ih _ hlt).items hitems⟩

theorem short_of_scanPairs {s : Text} (ih : ∀ q : Text, q.length < s.length → ScansShort q)
    {ps : List (Text × Json)} {r : Text.Rest s} (h : scanPairs s = .ok (ps, r)) :
    ∀ p ∈ ps, p.2.Short := by
  cases s with
  | nil => rw [scanPairs] at h; cases h
  | cons c q =>
    rw [scanPairs] at h
    split at h
    · cases h
    · obtain ⟨⟨key, r₁, h₁⟩, -, h⟩ := bind_eq_ok.1 h
      dsimp only at h
      split at h
      · cases h
      · next d r₂ h₂ _ =>
        split at h
        · cases h
        · have h₃ := (skipBlanks r₂).property
          obtain ⟨⟨v, r₄, h₄⟩, hv, h⟩ := bind_eq_ok.1 h
          dsimp only at h
          rw [List.length_cons] at h₂
          have hlt : (skipBlanks r₂).val.length < (c :: q).length := by
            rw [List.length_cons]
            omega
          have hshort := (ih _ hlt).value hv
          split at h
          · cases h
          · next e r₅ h₅ _ =>
            split at h
            · cases h
              exact List.forall_mem_singleton.2 hshort
            · split at h
              · cases h
              · obtain ⟨⟨ps', t, ht⟩, hpairs, h⟩ := bind_eq_ok.1 h
                cases h
                have h₆ := (skipBlanks r₅).property
                have hlt' : (skipBlanks r₅).val.length < (c :: q).length := by
                  rw [List.length_cons] at h₅ ⊢
                  omega
                exact List.forall_mem_cons.2 ⟨hshort, (ih _ hlt').pairs hpairs⟩

/-- By induction on the length: a scanner calls the others on shorter texts only, apart from that of
items, which begins with a value of the same text. -/
theorem scansShort (s : Text) : ScansShort s := by
  induction hlength : s.length using Nat.strongRecOn generalizing s with
  | ind length ih =>
    subst hlength
    have ih : ∀ q : Text, q.length < s.length → ScansShort q := fun q hq => ih _ hq q rfl
    have hvalue {v r} (h : scanValue s = .ok (v, r)) : v.Short := short_of_scanValue ih h
    exact ⟨hvalue, short_of_scanItems hvalue ih, short_of_scanPairs ih⟩

theorem short_of_ofDecoded {s : Text} {v : Json} (h : ofDecoded s = .ok v) : v.Short := by
  rw [ofDecoded, mapError_eq_ok, scanDocument] at h
  obtain ⟨⟨w, r⟩, hscan, h⟩ := bind_eq_ok.1 h
  dsimp only at h
  split at h
  · cases h
    exact (scansShort _).value hscan
  · cases h

/-- **A value that is read from a text is short.** -/
theorem short_of_ofText {s : Text} {v : Json} (h : ofText s = .ok v) : v.Short := by
  unfold ofText at h
  split at h
  · cases h
  · exact short_of_ofDecoded h

/-- **A value that is read from octets is short.** -/
theorem short_of_ofOctets {octets : Bytes} {v : Json} (h : ofOctets octets = .ok v) :
    v.Short := by
  obtain ⟨text, -, h⟩ := bind_eq_ok.1 h
  exact short_of_ofDecoded (mapError_eq_ok.1 h)

end Json
end AnchorIdl
