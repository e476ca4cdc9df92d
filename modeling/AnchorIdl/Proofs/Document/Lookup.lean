/-
# Looking up discriminators

Loading keeps the instructions of a document in order, each with its own name
and bytes.  So a look-up in the schema is a look-up in the document: it answers
the bytes that the first instruction with the name lists there, and nothing
exactly if no instruction has the name (`LooksUp`).

Strict loading leaves no name and no bytes to two instructions.  Then the first
instruction with a name is the only one, and a look-up tells the instructions
of a document apart (`TellsApart`).
-/

import AnchorIdl.Proofs.Document.Duplicates
import Mathlib.Data.List.Forall2

namespace AnchorIdl
namespace Document

/-- The instructions of a document, as it writes them. -/
def rawInstructions (raw : Json) : List Json :=
  match raw.get? "instructions" with
  | some (.arr list) => list
  | _ => []

/-- The first instruction of a document with a given name, as it writes it. -/
def firstNamed? (raw : Json) (name : Text) : Option Json :=
  (rawInstructions raw).find? fun x => x.get? "name" = some (.str name)

/-- What a name leads to in a schema is what it leads to in the document. -/
structure LooksUp (raw : Json) (S : Schema) (name : Text) : Prop where
  found (bytes : Bytes) : S.discriminator? name = some bytes ↔
    ∃ x, firstNamed? raw name = some x ∧ x.get? "discriminator" = some (.ofBytes bytes)
  missing : S.discriminator? name = none ↔
    ∀ x ∈ rawInstructions raw, x.get? "name" ≠ some (.str name)
  value (bytes : Bytes) (h : S.discriminator? name = some bytes) : S.discriminator name = bytes
  zero : S.discriminator name = Schema.zeroDiscriminator ↔
    (∀ x ∈ rawInstructions raw, x.get? "name" ≠ some (.str name)) ∨
      ∃ x, firstNamed? raw name = some x ∧
        x.get? "discriminator" = some (.ofBytes Schema.zeroDiscriminator)

/-- Every instruction of a document is found with its own bytes, and no bytes are found under two
names. -/
structure TellsApart (raw : Json) (S : Schema) : Prop where
  own : ∀ x ∈ rawInstructions raw, ∃ name bytes, x.get? "name" = some (.str name) ∧
    x.get? "discriminator" = some (.ofBytes bytes) ∧ S.discriminator? name = some bytes
  apart {name name' : Text} {bytes : Bytes} (h : S.discriminator? name = some bytes)
    (h' : S.discriminator? name' = some bytes) : name = name'

/-! ### Instructions side by side -/

/-- An instruction as a document writes it, and as a schema has it. -/
structure SameTag (raw : Json) (x : Instruction) : Prop where
  name : raw.get? "name" = some (.str x.name)
  discriminator : raw.get? "discriminator" = some (.ofBytes x.discriminator)

theorem InstructionForm.sameTag {raw : Json} {x : Instruction} (h : InstructionForm raw x) :
    SameTag raw x := by
  cases h with
  | mk hn _ _ _ _ hd discriminator _ => exact ⟨hn.1, discriminator.1 ▸ hd⟩

theorem SameTag.name_iff {raw : Json} {x : Instruction} (h : SameTag raw x) (name : Text) :
    raw.get? "name" = some (.str name) ↔ x.name = name := by
  rw [h.name, Option.some.injEq, Json.str.injEq]

theorem rawInstructions_of_listMember {document : Members} {list : List Json}
    (h : ListMember document "instructions" list) : rawInstructions (.obj document) = list := by
  have hget : Json.get? (.obj document) "instructions" = document.get? "instructions" := rfl
  unfold rawInstructions
  rcases h with h | ⟨h, rfl⟩
  · rw [hget, (given?_eq_some_iff.1 h).1]
  · rcases given?_eq_none_iff.1 h with h | h <;> rw [hget, h]

/-- **Loading keeps the instructions in order.** -/
theorem forall₂_sameTag {strict : Bool} {raw : Json} {S : Schema}
    (h : (load strict (.value raw)).outcome = .ok S) :
    List.Forall₂ SameTag (rawInstructions raw) S.instructions := by
  obtain ⟨⟨document, rfl, hdocument⟩, -⟩ := load_eq_ok_iff.1 h
  obtain ⟨list, hlist, hentries⟩ := hdocument.instructions
  rw [rawInstructions_of_listMember hlist]
  exact hentries.imp fun _ _ => InstructionForm.sameTag

theorem exists_mem_of_forall₂ {list : List Json} {instructions : List Instruction} {raw : Json}
    (h : List.Forall₂ SameTag list instructions) (hraw : raw ∈ list) :
    ∃ x ∈ instructions, SameTag raw x := by
  induction h with
  | nil => cases hraw
  | @cons first x _ _ head _ ih =>
    rcases List.mem_cons.1 hraw with rfl | hraw
    · exact ⟨x, List.mem_cons_self, head⟩
    · obtain ⟨y, hy, hsame⟩ := ih hraw
      exact ⟨y, List.mem_cons_of_mem x hy, hsame⟩

/-- The first instructions with a name stand side by side. -/
theorem rel_find? {list : List Json} {instructions : List Instruction}
    (h : List.Forall₂ SameTag list instructions) (name : Text) :
    Option.Rel SameTag (list.find? fun x => x.get? "name" = some (.str name))
      (instructions.find? fun x => x.name = name) := by
  induction h with
  | nil => exact .none
  | @cons raw x list instructions head _ ih =>
    by_cases hname : x.name = name
    · have hraw := (head.name_iff name).2 hname
      rw [List.find?_cons_of_pos (by simpa using hraw),
        List.find?_cons_of_pos (by simpa using hname)]
      exact .some head
    · have hraw := mt (head.name_iff name).1 hname
      rw [List.find?_cons_of_neg (by simpa using hraw),
        List.find?_cons_of_neg (by simpa using hname)]
      exact ih

/-! ### Looking up -/

variable {raw : Json} {S : Schema}

theorem looksUp_of_forall₂ (h : List.Forall₂ SameTag (rawInstructions raw) S.instructions)
    (name : Text) : LooksUp raw S name := by
  have hrel : Option.Rel SameTag (firstNamed? raw name) (S.instruction? name) := rel_find? h name
  have found : ∀ bytes, S.discriminator? name = some bytes ↔
      ∃ x, firstNamed? raw name = some x ∧ x.get? "discriminator" = some (.ofBytes bytes) := by
    intro bytes
    unfold Schema.discriminator?
    generalize firstNamed? raw name = first, S.instruction? name = found at hrel
    cases hrel with
    | none => simp
    | some hx => simp [hx.discriminator, ofBytes_injective.eq_iff]
  have missing : S.discriminator? name = none ↔
      ∀ x ∈ rawInstructions raw, x.get? "name" ≠ some (.str name) := by
    have hfirst : firstNamed? raw name = none ↔
        ∀ x ∈ rawInstructions raw, x.get? "name" ≠ some (.str name) := by
      simp [firstNamed?]
    rw [← hfirst]
    unfold Schema.discriminator?
    generalize firstNamed? raw name = first, S.instruction? name = found at hrel
    cases hrel <;> simp
  refine ⟨found, missing, fun bytes hbytes => ?_, ?_⟩
  · rw [Schema.discriminator, hbytes, Option.getD_some]
  · rw [← missing, ← found, Schema.discriminator]
    cases S.discriminator? name <;> simp

theorem tellsApart_of_forall₂ (h : List.Forall₂ SameTag (rawInstructions raw) S.instructions)
    (hdistinct : S.Distinct) : TellsApart raw S := by
  have hown : ∀ x ∈ S.instructions, S.instruction? x.name = some x := by
    intro x hx
    cases hfirst : S.instruction? x.name with
    | none =>
      have hne := List.find?_eq_none.1 hfirst x hx
      simp at hne
    | some y =>
      have hname : y.name = x.name := by simpa using List.find?_some hfirst
      have hy : y ∈ S.instructions := List.mem_of_find?_eq_some hfirst
      rw [List.inj_on_of_nodup_map hdistinct.names hy hx hname]
  constructor
  · intro raw hraw
    obtain ⟨x, hx, hsame⟩ := exists_mem_of_forall₂ h hraw
    refine ⟨x.name, x.discriminator, hsame.name, hsame.discriminator, ?_⟩
    rw [Schema.discriminator?, hown x hx, Option.map_some]
  · intro name name' bytes h h'
    obtain ⟨x, hx, hbytes⟩ := Option.map_eq_some_iff.1 h
    obtain ⟨y, hy, hbytes'⟩ := Option.map_eq_some_iff.1 h'
    have hxy := List.inj_on_of_nodup_map hdistinct.discriminators (List.mem_of_find?_eq_some hx)
      (List.mem_of_find?_eq_some hy) (hbytes.trans hbytes'.symm)
    have hname : x.name = name := by simpa using List.find?_some hx
    have hname' : y.name = name' := by simpa using List.find?_some hy
    rw [← hname, ← hname', hxy]

end Document
end AnchorIdl
