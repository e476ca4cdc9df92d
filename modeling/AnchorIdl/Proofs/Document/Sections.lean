/-
# Sections, entry by entry

A document has four sections of entries.  With a section replaced, it is read as
before up to that section (`Section.load_put`), so what counts is how the section
itself is read.  Its entries are read in order, each at its own place and without
regard to the others: a list after another one is read as it is by itself, only at
places with larger indices (`Section.readFrom_cases`).
-/

import AnchorIdl.Proofs.Document.EntryParallel
import AnchorIdl.Proofs.Document.Overlong

namespace AnchorIdl
namespace Document

/-- The lists of entries of a document. -/
inductive Section
  | instructions
  | accounts
  | errors
  | types
  deriving DecidableEq

namespace Section

/-- What the entries of a section are. -/
abbrev Entry : Section → Type
  | instructions => Instruction
  | accounts => AccountDefinition
  | errors => ErrorDefinition
  | types => TypeDefinition

/-- The member that a section is. -/
def key : Section → Text
  | instructions => "instructions"
  | accounts => "accounts"
  | errors => "errors"
  | types => "types"

/-- How an entry of a section is read. -/
def read : (s : Section) → Place → Json → Reading s.Entry
  | instructions => readInstruction
  | accounts => readAccountDefinition
  | errors => readError
  | types => readTypeDefinition

/-- Read a section of a document. -/
def readAll (s : Section) (document : Members) : Reading (List s.Entry) :=
  readSection document s.key s.read

/-- The entries of a section of a schema. -/
def entries : (s : Section) → Schema → List s.Entry
  | instructions, S => S.instructions
  | accounts, S => S.accounts
  | errors, S => S.errors
  | types, S => S.types

/-- A schema with other entries in a section. -/
def replace : (s : Section) → Schema → List s.Entry → Schema
  | instructions, S, entries => { S with instructions := entries }
  | accounts, S, entries => { S with accounts := entries }
  | errors, S, entries => { S with errors := entries }
  | types, S, entries => { S with types := entries }

/-- A document with another list as a section. -/
def put (s : Section) (document : Members) (list : List Json) : Members :=
  Ordered.put s.key (.arr list) document

/-- Where an entry of a section stands. -/
def place (s : Section) (i : Nat) : Place := [.member s.key, .index i]

/-- Read entries of a section, the first of which has the index `i`. -/
def readFrom (s : Section) (i : Nat) (list : List Json) : Reading (List s.Entry) :=
  eachFrom (fun i raw => s.read (s.place i) raw) i list

variable {s : Section}

/-! ### Replaced entries -/

@[simp] theorem entries_replace (S : Schema) (entries : List s.Entry) :
    s.entries (s.replace S entries) = entries := by
  cases s <;> rfl

@[simp] theorem replace_entries (S : Schema) : s.replace S (s.entries S) = S := by
  cases s <;> rfl

theorem entries_replace_of_ne {other : Section} (h : other ≠ s) (S : Schema)
    (entries : List s.Entry) : other.entries (s.replace S entries) = other.entries S := by
  cases s <;> cases other <;> first | rfl | exact absurd rfl h

@[simp] theorem address_replace (S : Schema) (entries : List s.Entry) :
    (s.replace S entries).address = S.address := by
  cases s <;> rfl

@[simp] theorem metadata_replace (S : Schema) (entries : List s.Entry) :
    (s.replace S entries).metadata = S.metadata := by
  cases s <;> rfl

/-! ### Replaced sections -/

section Put

variable {document : Members} {list : List Json} {key : Text}

theorem get?_put_of_ne (h : key ≠ s.key) : (s.put document list).get? key = document.get? key := by
  rw [put, Ordered.get?_put, if_neg h]

theorem string?_put {place : Place} (h : key ≠ s.key) :
    string? place (s.put document list) key = string? place document key := by
  rw [string?, given?_congr (get?_put_of_ne h), string?]

theorem newerOrOlder_put {metadata : Members} (h : key ≠ s.key) :
    newerOrOlder (s.put document list) metadata key = newerOrOlder document metadata key := by
  rw [newerOrOlder, string?_put h, newerOrOlder]

theorem readMetadata_put : readMetadata (s.put document list) = readMetadata document := by
  have hmetadata : metadataMembers (s.put document list) = metadataMembers document := by
    rw [metadataMembers, get?_put_of_ne (by cases s <;> decide), metadataMembers]
  have hname : ("name" : Text) ≠ s.key := by cases s <;> decide
  have hversion : ("version" : Text) ≠ s.key := by cases s <;> decide
  simp only [readMetadata, hmetadata, newerOrOlder_put hname, newerOrOlder_put hversion]

theorem readAddress_put : readAddress (s.put document list) = readAddress document := by
  have haddress : ("address" : Text) ≠ s.key := by cases s <;> decide
  have hmetadata : ("metadata" : Text) ≠ s.key := by cases s <;> decide
  simp only [readAddress, string?_put haddress, get?_put_of_ne hmetadata]

theorem readAll_put_of_ne {other : Section} (h : other ≠ s) :
    other.readAll (s.put document list) = other.readAll document := by
  have hkey : other.key ≠ s.key := by
    cases s <;> cases other <;> first | exact absurd rfl h | decide
  rw [readAll, readSection, items, given?_congr (get?_put_of_ne hkey), readAll, readSection, items]

theorem readAll_put : s.readAll (s.put document list) = s.readFrom 0 list := by
  have hgiven : (s.put document list).given? s.key = some (.arr list) :=
    given?_of_arr (by rw [put, Ordered.get?_put, if_pos rfl])
  rw [readAll, readSection, items, hgiven]
  rfl

theorem readSchema_outcome :
    (readSchema (.obj document)).outcome = (do
      let metadata ← readMetadata document
      let address ← readAddress document
      let instructions ← Section.instructions.readAll document
      let accounts ← Section.accounts.readAll document
      let errors ← Section.errors.readAll document
      let types ← Section.types.readAll document
      return ⟨address, metadata, instructions, accounts, errors, types⟩) := by
  simp only [readSchema, Logged.bind_outcome]
  rfl

/-- **With a section replaced, a document that loads is read as that section is,** and the rest of
its schema stays. -/
theorem readSchema_put {A : List Json} {S : Schema}
    (h : (readSchema (.obj (s.put document A))).outcome = .ok S) :
    (readSchema (.obj (s.put document list))).outcome =
      (s.readFrom 0 list).map (s.replace S) := by
  rw [readSchema_outcome, readMetadata_put, readAddress_put] at h ⊢
  simp only [bind_eq_ok, pure_eq_ok] at h
  obtain ⟨metadata, hm, address, ha, instructions, hi, accounts, hacc, errors, he, types, ht,
    rfl⟩ := h
  rw [hm, ha]
  -- The sections before and after the replaced one are those that have been read.
  cases s with
  | instructions =>
    simp (disch := decide) only [readAll_put_of_ne] at hacc he ht ⊢
    rw [readAll_put, hacc, he, ht]
    cases Section.instructions.readFrom 0 list <;> rfl
  | accounts =>
    simp (disch := decide) only [readAll_put_of_ne] at hi he ht ⊢
    rw [readAll_put, hi, he, ht]
    cases Section.accounts.readFrom 0 list <;> rfl
  | errors =>
    simp (disch := decide) only [readAll_put_of_ne] at hi hacc ht ⊢
    rw [readAll_put, hi, hacc, ht]
    cases Section.errors.readFrom 0 list <;> rfl
  | types =>
    simp (disch := decide) only [readAll_put_of_ne] at hi hacc he ⊢
    rw [readAll_put, hi, hacc, he]
    cases Section.types.readFrom 0 list <;> rfl

end Put

/-! ### Lists of entries -/

theorem read_parallel (place place' : Place) (raw : Json) :
    Parallel place place' Eq (s.read place raw) (s.read place' raw) := by
  cases s with
  | instructions => exact readInstruction_parallel (.same _ raw)
  | accounts => exact readAccountDefinition_parallel (.same _ raw)
  | errors => exact readError_parallel (.same _ raw)
  | types => exact readTypeDefinition_parallel (.same _ raw)

/-- Entries with other indices are read the same, or rejected for the same one. -/
theorem readFrom_cases (i i' : Nat) (list : List Json) :
    (∃ entries, s.readFrom i list = .ok entries ∧ s.readFrom i' list = .ok entries) ∨
      ∃ j < list.length, ∃ e e', Moved (s.place (i + j)) (s.place (i' + j)) e e' ∧
        s.readFrom i list = .error e ∧ s.readFrom i' list = .error e' := by
  induction list generalizing i i' with
  | nil => exact .inl ⟨[], rfl, rfl⟩
  | cons raw rest ih =>
    -- Reading an entry depends on its place only in the place that it blames.
    have hraw := s.read_parallel (s.place i) (s.place i') raw
    simp only [readFrom, eachFrom]
    generalize s.read (s.place i) raw = x, s.read (s.place i') raw = x' at hraw
    cases hraw with
    | @error e e' he => exact .inr ⟨0, Nat.zero_lt_succ _, e, e', he, rfl, rfl⟩
    | @ok entry _ heq =>
      obtain rfl := heq
      rcases ih (i + 1) (i' + 1) with ⟨entries, h, h'⟩ | ⟨j, hj, e, e', he, h, h'⟩
      · rw [readFrom] at h h'
        rw [h, h']
        exact .inl ⟨entry :: entries, rfl, rfl⟩
      · rw [readFrom] at h h'
        rw [h, h']
        rw [Nat.add_right_comm, Nat.add_right_comm i'] at he
        exact .inr ⟨j + 1, Nat.succ_lt_succ hj, e, e', he, rfl, rfl⟩

theorem readFrom_append (i : Nat) (A B : List Json) :
    s.readFrom i (A ++ B) = (do
      let start ← s.readFrom i A
      let rest ← s.readFrom (i + A.length) B
      return start ++ rest) :=
  eachFrom_append ..

/-- The index of the first entry does not matter to what is read. -/
theorem readFrom_eq_ok_iff (i i' : Nat) {list : List Json} {entries : List s.Entry} :
    s.readFrom i list = .ok entries ↔ s.readFrom i' list = .ok entries := by
  rcases s.readFrom_cases i i' list with ⟨_, h, h'⟩ | ⟨_, _, _, _, _, h, h'⟩ <;> simp [h, h']

theorem readFrom_append_eq_ok_iff {A B : List Json} {entries : List s.Entry} :
    s.readFrom 0 (A ++ B) = .ok entries ↔
      ∃ start rest, s.readFrom 0 A = .ok start ∧ s.readFrom 0 B = .ok rest ∧
        entries = start ++ rest := by
  simp only [readFrom_append, bind_eq_ok, pure_eq_ok, readFrom_eq_ok_iff (0 + A.length) 0]
  constructor
  · rintro ⟨start, hstart, rest, hrest, rfl⟩
    exact ⟨start, rest, hstart, hrest, rfl⟩
  · rintro ⟨start, rest, hstart, hrest, rfl⟩
    exact ⟨start, hstart, rest, hrest, rfl⟩

/-! ### Reading -/

/-- What comes of reading a document with another list as a section. -/
def readWith (s : Section) (document : Members) (list : List Json) : Reading Schema :=
  (readSchema (.obj (s.put document list))).outcome

theorem readWith_eq_ok_iff {document : Members} {A list : List Json} {S S' : Schema}
    (h : s.readWith document A = .ok S) :
    s.readWith document list = .ok S' ↔
      ∃ entries, s.readFrom 0 list = .ok entries ∧ s.replace S entries = S' := by
  have hput : s.readWith document list = (s.readFrom 0 list).map (s.replace S) := readSchema_put h
  rw [hput, map_eq_ok]

/-- Two lists one after the other are read exactly if each is. -/
theorem exists_readWith_append_iff {document : Members} {A B : List Json} :
    (∃ S, s.readWith document (A ++ B) = .ok S) ↔
      (∃ S, s.readWith document A = .ok S) ∧ ∃ S, s.readWith document B = .ok S := by
  constructor
  · rintro ⟨S, h⟩
    obtain ⟨entries, hentries, -⟩ := (readWith_eq_ok_iff h).1 h
    obtain ⟨start, rest, hstart, hrest, -⟩ := readFrom_append_eq_ok_iff.1 hentries
    exact ⟨⟨_, (readWith_eq_ok_iff h).2 ⟨start, hstart, rfl⟩⟩,
      _, (readWith_eq_ok_iff h).2 ⟨rest, hrest, rfl⟩⟩
  · rintro ⟨⟨S, h⟩, _, h'⟩
    obtain ⟨start, hstart, -⟩ := (readWith_eq_ok_iff h).1 h
    obtain ⟨rest, hrest, -⟩ := (readWith_eq_ok_iff h).1 h'
    have happend := readFrom_append_eq_ok_iff.2 ⟨start, rest, hstart, hrest, rfl⟩
    exact ⟨_, (readWith_eq_ok_iff h).2 ⟨_, happend, rfl⟩⟩

/-- Their entries stand one after the other, and the rest of the schema is the same. -/
theorem readWith_append_eq {document : Members} {A B : List Json} {S SA SB : Schema}
    (h : s.readWith document (A ++ B) = .ok S) (hA : s.readWith document A = .ok SA)
    (hB : s.readWith document B = .ok SB) :
    S = s.replace SA (s.entries SA ++ s.entries SB) ∧ SB = s.replace SA (s.entries SB) := by
  obtain ⟨entries, hentries, rfl⟩ := (readWith_eq_ok_iff hA).1 h
  obtain ⟨start, hstart, hSA⟩ := (readWith_eq_ok_iff hA).1 hA
  obtain ⟨rest, hrest, rfl⟩ := (readWith_eq_ok_iff hA).1 hB
  obtain ⟨start', rest', hstart', hrest', rfl⟩ := readFrom_append_eq_ok_iff.1 hentries
  obtain rfl := Except.ok.inj (hstart.symm.trans hstart')
  obtain rfl := Except.ok.inj (hrest.symm.trans hrest')
  have hentries : s.entries SA = start := by rw [← hSA, entries_replace]
  rw [entries_replace, hentries]
  exact ⟨rfl, rfl⟩

/-- A list that is rejected after one that is read is rejected for the same reason, as many entries
further on. -/
theorem readWith_append_of_error {document : Members} {A B : List Json} {S : Schema}
    {e : Rejection} (h : s.readWith document A = .ok S) (he : s.readWith document B = .error e) :
    ∃ j < B.length, ∃ e', Moved (s.place j) (s.place (A.length + j)) e e' ∧
      s.readWith document (A ++ B) = .error e' := by
  have hput : ∀ list, s.readWith document list = (s.readFrom 0 list).map (s.replace S) :=
    fun _ => readSchema_put h
  obtain ⟨start, hstart, -⟩ := (readWith_eq_ok_iff h).1 h
  rw [hput] at he
  rcases s.readFrom_cases 0 (0 + A.length) B with ⟨_, hB, _⟩ | ⟨j, hj, eB, e', hmoved, hB, hB'⟩
  · rw [hB] at he
    cases he
  · rw [hB] at he
    obtain rfl : eB = e := Except.error.inj he
    rw [Nat.zero_add, Nat.zero_add] at hmoved
    refine ⟨j, hj, e', hmoved, ?_⟩
    rw [hput, readFrom_append, hstart, hB']
    rfl

/-! ### Loading -/

/-- What comes of loading a document with another list as a section, if duplicates are allowed. -/
def loadWith (s : Section) (document : Members) (list : List Json) : Reading Schema :=
  (load false (.value (.obj (s.put document list)))).outcome

theorem readSchema_eq_readWith (document : Members) (list : List Json) :
    (Source.value (.obj (s.put document list))).readSchema.outcome =
      (s.readWith document list).mapError Rejection.raised :=
  rfl

theorem loadWith_eq_ok_iff {document : Members} {list : List Json} {S : Schema} :
    s.loadWith document list = .ok S ↔ s.readWith document list = .ok S ∧ S.CodesShown := by
  rw [loadWith, load_eq_ok_iff_readSchema, readSchema_eq_readWith, mapError_eq_ok]
  simp

theorem codesShown_of_readWith {document : Members} {list : List Json} {S : Schema}
    (h : s.readWith document list = .ok S) :
    S.CodesShown ↔ CodesShown (s.put document list) := by
  obtain ⟨document', heq, hform⟩ := readSchema_eq_ok_iff.1 h
  obtain rfl := Json.obj.inj heq
  exact hform.codesShown_iff

/-- The errors of a document with a shorter list as a section. -/
theorem errors_replace_sublist (S : Schema) {entries more : List s.Entry}
    (h : List.Sublist entries more) :
    List.Sublist (s.replace S entries).errors (s.replace S more).errors := by
  cases s with
  | errors => exact h
  | instructions | accounts | types => exact List.Sublist.refl _

/-- Two lists one after the other load exactly if each does, and no code that is too long stands in
both. -/
theorem exists_loadWith_append_iff {document : Members} {A B : List Json} :
    (∃ S, s.loadWith document (A ++ B) = .ok S) ↔ (∃ S, s.loadWith document A = .ok S) ∧
      (∃ S, s.loadWith document B = .ok S) ∧ CodesShown (s.put document (A ++ B)) := by
  simp only [loadWith_eq_ok_iff]
  constructor
  · rintro ⟨S, hread, hshown⟩
    obtain ⟨⟨SA, hA⟩, SB, hB⟩ := exists_readWith_append_iff.1 ⟨S, hread⟩
    obtain ⟨hS, hSB⟩ := readWith_append_eq hread hA hB
    have hstart := errors_replace_sublist SA
      (List.sublist_append_left (s.entries SA) (s.entries SB))
    have hrest := errors_replace_sublist SA
      (List.sublist_append_right (s.entries SA) (s.entries SB))
    rw [← hS, replace_entries] at hstart
    rw [← hS, ← hSB] at hrest
    exact ⟨⟨SA, hA, codesShown_of_sublist hshown hstart⟩,
      ⟨SB, hB, codesShown_of_sublist hshown hrest⟩, (codesShown_of_readWith hread).1 hshown⟩
  · rintro ⟨⟨SA, hA, -⟩, ⟨SB, hB, -⟩, hcodes⟩
    obtain ⟨S, hread⟩ := exists_readWith_append_iff.2 ⟨⟨SA, hA⟩, SB, hB⟩
    exact ⟨S, hread, (codesShown_of_readWith hread).2 hcodes⟩

/-- A document has no integer that is too long, if it has none with more in a section. -/
theorem short_put {document : Members} {list more : List Json}
    (h : (Json.obj (s.put document more)).Short) (hsub : ∀ v ∈ list, v ∈ more) :
    (Json.obj (s.put document list)).Short := by
  rw [Json.short_obj] at h ⊢
  have hmore : (Json.arr more).Short := h (s.key, .arr more) (Ordered.mem_of_get? (by
    rw [put, Ordered.get?_put, if_pos rfl]))
  have hlist : (Json.arr list).Short := Json.short_arr.2 fun v hv =>
    Json.short_arr.1 hmore v (hsub v hv)
  rw [put, ← Ordered.put_put s.key (.arr list) (.arr more) document]
  exact Ordered.forall_put hlist h

/-- A list that is rejected after one that loads is rejected for the same reason, as many entries
further on, if neither rejection is for something that cannot be shown. -/
theorem loadWith_append_of_error {document : Members} {A B : List Json} {S : Schema}
    {e : Rejection} (h : s.loadWith document A = .ok S) (he : s.loadWith document B = .error e) :
    (∃ fault, e = .unencodable fault ∧ s.loadWith document (A ++ B) = .error e) ∨
    (∃ c c' : Complaint, ∃ j < B.length, ∃ rest, c.kind = c'.kind ∧
      e = .fault ⟨c, some (s.place j ++ rest)⟩ ∧
      s.loadWith document (A ++ B) =
        .error (.fault ⟨c', some (s.place (A.length + j) ++ rest)⟩)) ∨
    e = .overlong ∨ s.loadWith document (A ++ B) = .error .overlong := by
  rcases load_error_cases he with hread | ⟨S, -, ⟨rfl, -⟩ | ⟨hstrict, -⟩⟩
  · rw [readSchema_eq_readWith] at hread
    obtain ⟨eB, heB, rfl⟩ := mapError_eq_error.1 hread
    obtain ⟨j, hj, e', hmoved, he'⟩ :=
      readWith_append_of_error (loadWith_eq_ok_iff.1 h).1 heB
    have happend : s.loadWith document (A ++ B) = .error e'.raised :=
      load_of_error (by rw [readSchema_eq_readWith, he']; rfl) false
    rw [happend]
    cases hmoved with
    | unencodable fault => exact .inl ⟨fault, rfl, rfl⟩
    | @fault c c' kind rest =>
      rcases raised_fault_cases ⟨c, some (s.place j ++ rest)⟩ with hc | hc
      · rcases raised_fault_cases ⟨c', some (s.place (A.length + j) ++ rest)⟩ with hc' | hc'
        · exact .inr (.inl ⟨c, c', j, hj, rest, kind, hc, congrArg _ hc'⟩)
        · exact .inr (.inr (.inr (congrArg _ hc')))
      · exact .inr (.inr (.inl hc))
  · exact .inr (.inr (.inl rfl))
  · cases hstrict

/-- **Each section loads entry by entry.**  Two lists one after the other load exactly if each does,
to their entries one after the other; and a list that is rejected after one that loads is rejected
for the same reason, as many entries further on.  Only a document with an integer of more digits
than can be written may end otherwise: by itself a code that is too long is no duplicate, and a
fault may fail to be shown. -/
theorem loadWith_append (s : Section) (document : Members) (A B : List Json) :
    ((Json.obj (s.put document (A ++ B))).Short → ((∃ S, s.loadWith document (A ++ B) = .ok S) ↔
      (∃ S, s.loadWith document A = .ok S) ∧ ∃ S, s.loadWith document B = .ok S)) ∧
    ((∃ S, s.loadWith document (A ++ B) = .ok S) ↔ (∃ S, s.loadWith document A = .ok S) ∧
      (∃ S, s.loadWith document B = .ok S) ∧ CodesShown (s.put document (A ++ B))) ∧
    (∀ S SA SB, s.loadWith document (A ++ B) = .ok S → s.loadWith document A = .ok SA →
      s.loadWith document B = .ok SB →
        s.entries S = s.entries SA ++ s.entries SB ∧ S.address = SA.address ∧
        S.metadata = SA.metadata ∧ ∀ other ≠ s, other.entries S = other.entries SA) ∧
    ∀ SA e, s.loadWith document A = .ok SA → s.loadWith document B = .error e →
      (∃ fault, e = .unencodable fault ∧ s.loadWith document (A ++ B) = .error e) ∨
      (∃ c c' : Complaint, ∃ j < B.length, ∃ rest, c.kind = c'.kind ∧
        e = .fault ⟨c, some (s.place j ++ rest)⟩ ∧
        s.loadWith document (A ++ B) =
          .error (.fault ⟨c', some (s.place (A.length + j) ++ rest)⟩)) ∨
      (e = .overlong ∨ s.loadWith document (A ++ B) = .error .overlong) ∧
        ¬ (Json.obj (s.put document (A ++ B))).Short := by
  have hshown : (Json.obj (s.put document (A ++ B))).Short →
      CodesShown (s.put document (A ++ B)) := fun hshort => by
    by_contra hcodes
    exact (Unshowable.doubled hcodes).not_short hshort
  refine ⟨fun hshort => ?_, exists_loadWith_append_iff, fun S SA SB h hA hB => ?_,
    fun SA e hA he => ?_⟩
  · rw [exists_loadWith_append_iff]
    exact and_congr_right fun _ => and_iff_left (hshown hshort)
  · rw [loadWith_eq_ok_iff] at h hA hB
    obtain ⟨rfl, -⟩ := readWith_append_eq h.1 hA.1 hB.1
    exact ⟨entries_replace .., address_replace .., metadata_replace ..,
      fun other hother => entries_replace_of_ne hother ..⟩
  · refine (loadWith_append_of_error hA he).imp_right (Or.imp_right fun hlong => ⟨hlong, ?_⟩)
    intro hshort
    rcases hlong with rfl | hlong
    · exact load_ne_overlong
        (Source.short_value.2 (short_put hshort fun v hv => List.mem_append_right A hv)) he
    · exact load_ne_overlong (Source.short_value.2 hshort) hlong

/-- An error with a name. -/
def errorSample (code : Int) : Json := .obj [("code", .int code), ("name", .str "Overflow")]

/-- After one error, an error without a name is found one entry further on. -/
theorem errorSample_append :
    errors.loadWith [] [errorSample 6000] =
      .ok { metadata := {}, errors := [⟨6000, "Overflow", []⟩] } ∧
    errors.loadWith [] [errorSample 6001, .obj [("code", .int 6002)]] =
      .error (.fault ⟨.noName, some [.member "errors", .index 1, .member "name"]⟩) ∧
    ∃ c : Complaint, c.kind = .missingField ∧
      errors.loadWith [] [errorSample 6000, errorSample 6001, .obj [("code", .int 6002)]] =
        .error (.fault ⟨c, some [.member "errors", .index 2, .member "name"]⟩) := by
  have hA : errors.loadWith [] [errorSample 6000] =
      .ok { metadata := {}, errors := [⟨6000, "Overflow", []⟩] } := by decide +kernel
  have hB : errors.loadWith [] [errorSample 6001, .obj [("code", .int 6002)]] =
      .error (.fault ⟨.noName, some [.member "errors", .index 1, .member "name"]⟩) := by
    decide +kernel
  refine ⟨hA, hB, ?_⟩
  have hshort : (Json.obj (errors.put []
      [errorSample 6000, errorSample 6001, .obj [("code", .int 6002)]])).Short := by
    unfold Json.Short
    decide
  obtain ⟨_, he, -⟩ | ⟨c, c', j, -, rest, kind, he, h⟩ | ⟨-, hlong⟩ :=
    (loadWith_append _ _ _ _).2.2.2 _ _ hA hB
  · cases he
  · cases he
    exact ⟨c', kind.symm, h⟩
  · exact absurd hshort hlong

end Section

end Document
end AnchorIdl
