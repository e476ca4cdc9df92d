/-
# What cannot be shown of a document

An error message may show a value of the document, and that fails for a value
with an integer that has more digits than can be written.  Then loading fails
for that reason and no longer for the error (`Rejection.raised`).

What is shown is always a part of the document: a faulty byte, seed kind or type
kind at the place of the error, or an error code that stands twice.  So the
failure tells that one of these is too long (`load_error_overlong`), and a
document without integers that are too long never meets it
(`load_ne_overlong`).  A document in the form of a text or of octets is one of
those (`Source.short_text`, `Source.short_octets`).
-/

import AnchorIdl.Proofs.Document.Duplicates
import AnchorIdl.Proofs.Document.EntryBlame

namespace AnchorIdl
namespace Document

variable {S : Schema} {document : Members}

/-! ### Entries at their places -/

/-- The entry of a schema with some index was read from the item with that index. -/
theorem SectionForm.getElem? {α : Type} {R : Json → α → Prop} {key : Text} {entries : List α}
    (h : SectionForm R document key entries) {i : Nat} {x : α} (hx : entries[i]? = some x) :
    ∃ items raw, document.get? key = some (.arr items) ∧ items[i]? = some raw ∧ R raw x := by
  obtain ⟨items, hl, hforms⟩ := h
  obtain ⟨hi, rfl⟩ := List.getElem?_eq_some_iff.1 hx
  have hi' : i < items.length := by rwa [hforms.length_eq]
  rcases hl with hgiven | ⟨-, rfl⟩
  · exact ⟨items, items[i], Members.get?_of_given? hgiven, List.getElem?_eq_getElem hi',
      (List.forall₂_iff_get.1 hforms).2 i hi' hi⟩
  · simp at hi'

/-- The member of an entry of a list, found by following its place. -/
theorem at?_entryPlace_iff {list key : Text} {i : Nat} {value : Json} :
    (Json.obj document).at? (entryPlace list key i) = some (some value) ↔
      ∃ items, ∃ members : Members, document.get? list = some (.arr items) ∧
        items[i]? = some (.obj members) ∧ members.get? key = some value := by
  have hmember : ∀ raw : Json, raw.at? [.member key] = some (some value) ↔
      ∃ members : Members, raw = .obj members ∧ members.get? key = some value := by
    intro raw
    cases raw with
    | obj members => cases h : Ordered.get? members key <;> simp [Json.at?, h]
    | null | bool _ | int _ | float _ | str _ | arr _ => simp [Json.at?]
  have hindex : ∀ raw : Json, raw.at? [.index i, .member key] = some (some value) ↔
      ∃ items, ∃ members : Members, raw = .arr items ∧ items[i]? = some (.obj members) ∧
        members.get? key = some value := by
    intro raw
    cases raw with
    | arr items => simp [Json.at?, Option.bind_eq_some_iff, hmember]
    | null | bool _ | int _ | float _ | str _ | obj _ => simp [Json.at?]
  cases h : Ordered.get? document list with
  | none => simp [entryPlace, Json.at?, h]
  | some raw => simp [entryPlace, Json.at?, h, hindex]

/-- **The entries of a column stand at its places.** -/
theorem DocumentForm.at?_place (h : DocumentForm document S) {c : Identity} {x : Json} {i : Nat}
    (hx : (c.column S)[i]? = some x) : (Json.obj document).at? (c.place i) = some (some x) := by
  cases c with
  | instructionName =>
    rw [Identity.column, List.getElem?_map, Option.map_eq_some_iff] at hx
    obtain ⟨entry, hentry, rfl⟩ := hx
    obtain ⟨items, raw, hlist, hitem, hform⟩ := h.instructions.getElem? hentry
    cases hform with
    | mk hn => exact at?_entryPlace_iff.2 ⟨_, _, hlist, hitem, hn.1⟩
  | discriminator =>
    rw [Identity.column, List.getElem?_map, Option.map_eq_some_iff] at hx
    obtain ⟨entry, hentry, rfl⟩ := hx
    obtain ⟨items, raw, hlist, hitem, hform⟩ := h.instructions.getElem? hentry
    cases hform with
    | mk _ _ _ _ _ hd hdiscriminator =>
      exact at?_entryPlace_iff.2
        ⟨_, _, hlist, hitem, hd.trans (congrArg some hdiscriminator.1)⟩
  | errorCode =>
    rw [Identity.column, List.getElem?_map, Option.map_eq_some_iff] at hx
    obtain ⟨entry, hentry, rfl⟩ := hx
    obtain ⟨items, raw, hlist, hitem, hform⟩ := h.errors.getElem? hentry
    cases hform with
    | mk hc => exact at?_entryPlace_iff.2 ⟨_, _, hlist, hitem, hc⟩
  | typeName =>
    rw [Identity.column, List.getElem?_map, Option.map_eq_some_iff] at hx
    obtain ⟨entry, hentry, rfl⟩ := hx
    obtain ⟨items, raw, hlist, hitem, hform⟩ := h.types.getElem? hentry
    cases hform with
    | mk hn => exact at?_entryPlace_iff.2 ⟨_, _, hlist, hitem, hn.1⟩

/-- An error code of a document is that of the entry with its index. -/
theorem DocumentForm.getElem?_code (h : DocumentForm document S) {i : Nat} {n : Int}
    (hn : (Json.obj document).at? (Identity.errorCode.place i) = some (some (.int n))) :
    (S.errors.map ErrorDefinition.code)[i]? = some n := by
  obtain ⟨items, members, hlist, hitem, hcode⟩ := at?_entryPlace_iff.1 hn
  have hgiven : document.given? "errors" = some (.arr items) :=
    given?_eq_some_iff.2 ⟨hlist, by simp⟩
  obtain ⟨items', hl, hforms⟩ := h.errors
  obtain rfl : items' = items := by
    rcases hl with hl | ⟨hnone, -⟩
    · simpa [hgiven] using hl.symm
    · simp [hgiven] at hnone
  obtain ⟨hi, hraw⟩ := List.getElem?_eq_some_iff.1 hitem
  have hi' : i < S.errors.length := by rwa [← hforms.length_eq]
  have hform : ErrorForm items'[i] S.errors[i] := (List.forall₂_iff_get.1 hforms).2 i hi hi'
  rw [List.getElem?_map, List.getElem?_eq_getElem hi', Option.map_some]
  rw [hraw] at hform
  cases hform with
  | mk hc =>
    rw [hcode] at hc
    simpa using hc.symm

/-- No code of two errors of a document has more digits than can be written. -/
def CodesShown (document : Members) : Prop :=
  ∀ (i j : Nat) (n : Int), i < j →
    (Json.obj document).at? (Identity.errorCode.place i) = some (some (.int n)) →
    (Json.obj document).at? (Identity.errorCode.place j) = some (some (.int n)) →
    Text.isShort n = true

/-- The codes that stand twice in a schema are those that stand twice in its document. -/
theorem DocumentForm.codesShown_iff (h : DocumentForm document S) :
    S.CodesShown ↔ CodesShown document := by
  have hcode : ∀ (i : Nat) (n : Int), (S.errors.map ErrorDefinition.code)[i]? = some n ↔
      (Json.obj document).at? (Identity.errorCode.place i) = some (some (.int n)) := by
    refine fun i n => ⟨fun hn => h.at?_place ?_, h.getElem?_code⟩
    rw [List.getElem?_map, Option.map_eq_some_iff] at hn
    obtain ⟨e, he, rfl⟩ := hn
    rw [Identity.column, List.getElem?_map, he, Option.map_some]
  simp only [Schema.CodesShown, CodesShown, hcode]

/-! ### Parts of a value -/

/-- What stands in a value without integers that are too long has none either. -/
theorem short_of_at? {raw value : Json} {place : Place} (h : raw.Short)
    (hat : raw.at? place = some (some value)) : value.Short := by
  induction place generalizing raw with
  | nil =>
    rw [Json.at?] at hat
    obtain rfl := Option.some.inj (Option.some.inj hat)
    exact h
  | cons step rest ih =>
    cases step with
    | member key =>
      cases raw with
      | obj members =>
        rw [Json.at?] at hat
        cases hget : Ordered.get? members key with
        | none =>
          rw [hget] at hat
          split_ifs at hat
          cases hat
        | some found =>
          rw [hget] at hat
          exact ih (Json.short_obj.1 h _ (Ordered.mem_of_get? hget)) hat
      | null | bool _ | int _ | float _ | str _ | arr _ => simp [Json.at?] at hat
    | index i =>
      cases raw with
      | arr items =>
        rw [Json.at?, Option.bind_eq_some_iff] at hat
        obtain ⟨found, hfound, hrest⟩ := hat
        exact ih (Json.short_arr.1 h _ (List.mem_of_getElem? hfound)) hrest
      | null | bool _ | int _ | float _ | str _ | obj _ => simp [Json.at?] at hat

/-! ### Failures to show -/

/-- A document has something to be reported that cannot be shown: a faulty value of which a message
shows an integer that has more digits than can be written, or such a code of two errors. -/
inductive Unshowable (document : Members) : Prop
  | faulty {place : Place} {r : Role} {value : Json} {kind : FaultKind}
      (position : Stands .document (some (.obj document)) place r (some value))
      (shown : r ∈ shownRoles) (fault : Faulty kind r (some value)) (long : ¬ value.Short)
  | doubled (codes : ¬ CodesShown document)

/-- What cannot be shown is a part of the document. -/
theorem Unshowable.not_short (h : Unshowable document) : ¬ (Json.obj document).Short := by
  intro hshort
  cases h with
  | faulty position _ _ long => exact long (short_of_at? hshort (position.at? _ rfl))
  | doubled codes => exact codes fun i _ n _ hn _ => Json.short_int.1 (short_of_at? hshort hn)

/-- A complaint about a value at a position cannot be shown only if it shows the value, and this has
an integer that is too long. -/
theorem exists_of_raised_overlong {c : Complaint} {place : Place} {r : Role} {value : Option Json}
    (h : (Rejection.fault ⟨c, some place⟩).raised = .overlong)
    (hshown : ∀ x ∈ c.shown?, r ∈ shownRoles ∧ x = value.getD .null) :
    r ∈ shownRoles ∧ ∃ x, value = some x ∧ ¬ x.Short := by
  have hmessage : ¬ ∀ x ∈ c.shown?, x.Short := by
    rw [← isSome_message_iff]
    intro hsome
    rw [Rejection.raised, if_pos hsome] at h
    cases h
  push Not at hmessage
  obtain ⟨x, hx, hlong⟩ := hmessage
  obtain ⟨hr, rfl⟩ := hshown x hx
  cases value with
  | none => exact absurd (by simp [Json.Short, Json.integers]) hlong
  | some value => exact ⟨hr, value, rfl, hlong⟩

/-- A fault that cannot be shown is that of a value with an integer that is too long. -/
theorem unshowable_of_error {e : Rejection} (h : (readSchema (.obj document)).outcome = .error e)
    (he : e.raised = .overlong) : Unshowable document := by
  cases readSchema_blames e h with
  | unencodable hs ht => cases he
  | fault hs hf hshown =>
    obtain ⟨hr, x, rfl, hlong⟩ := exists_of_raised_overlong he hshown
    exact .faulty hs hr hf hlong

theorem textRejection_cases (e : Json.TextFault) :
    (∃ f, textRejection e = .fault f ∧ f.complaint.message.isSome = true) ∨
      ∃ digits, textRejection e = .longInteger digits := by
  cases e with
  | flaw => exact .inl ⟨_, rfl, rfl⟩
  | longInteger digits => exact .inr ⟨digits, rfl⟩

/-- What is no JSON has a fault that can be told, or an integer of too many digits. -/
theorem Source.value?_error_cases {source : Source} {e : Rejection} (h : source.value? = .error e) :
    (∃ f, e = .fault f ∧ f.complaint.message.isSome = true) ∨
      ∃ digits, e = .longInteger digits := by
  cases source with
  | value document => cases h
  | text t =>
    simp only [Source.value?] at h
    cases ht : Json.ofText t with
    | ok raw => simp [ht, Except.mapError] at h
    | error e' =>
      simp only [ht, Except.mapError, Except.error.injEq] at h
      exact h ▸ textRejection_cases e'
  | octets octets =>
    simp only [Source.value?] at h
    cases ho : Json.ofOctets octets with
    | ok raw => simp [ho, Except.mapError] at h
    | error e' =>
      simp only [ho, Except.mapError, Except.error.injEq] at h
      cases e' with
      | undecodable fault => exact .inl ⟨_, h.symm, rfl⟩
      | unreadable fault => exact h ▸ textRejection_cases fault

/-- What is no object is complained of as such. -/
theorem readSchema_error_cases {raw : Json} {e : Rejection}
    (h : (readSchema raw).outcome = .error e) :
    e = .fault ⟨.notObject raw.kind, some []⟩ ∨ ∃ document, raw = .obj document := by
  cases raw with
  | obj document => exact .inr ⟨document, rfl⟩
  | null | bool _ | int _ | float _ | str _ | arr _ => exact .inl (Except.error.inj h).symm

/-- **Loading fails to show something** only if the document has something that cannot be shown. -/
theorem load_error_overlong {strict : Bool} {source : Source}
    (h : (load strict source).outcome = .error .overlong) :
    ∃ document, source.value? = .ok (.obj document) ∧ Unshowable document := by
  rcases load_error_cases h with hread | ⟨S, hread, ⟨-, hcodes⟩ | ⟨-, c, x, i, -, hfault, -⟩⟩
  · rcases Logged.bind_outcome_eq_error.1 hread with hvalue | ⟨raw, hvalue, hschema⟩
    · rcases Source.value?_error_cases hvalue with ⟨f, hf, -⟩ | ⟨digits, hdigits⟩
      · cases hf
      · cases hdigits
    · obtain ⟨e, he, hraised⟩ := mapError_eq_error.1 hschema
      rcases readSchema_error_cases he with rfl | ⟨document, rfl⟩
      · cases hraised
      · exact ⟨document, hvalue, unshowable_of_error he hraised⟩
  · obtain ⟨document, hvalue, hform⟩ := Source.readSchema_eq_ok_iff.1 hread
    exact ⟨document, hvalue, .doubled fun hshown => hcodes (hform.codesShown_iff.2 hshown)⟩
  · cases hfault

/-- A document without integers that are too long can be shown. -/
theorem load_ne_overlong {strict : Bool} {source : Source} (h : source.Short) :
    (load strict source).outcome ≠ .error .overlong := by
  intro hload
  obtain ⟨document, hvalue, hunshowable⟩ := load_error_overlong hload
  exact hunshowable.not_short (h _ hvalue)

end Document
end AnchorIdl
