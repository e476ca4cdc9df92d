/-
# Entries side by side

The readers of seeds, accounts, instructions, errors and custom types go the same
way over a rearranged entry, and so do those of the parts of a document.  The
metadata count as given or not by whether they have a member at all; a member that
is not read makes them given, but then they are read as if they were not
(`metadataMembers_parallel`).
-/

import AnchorIdl.Proofs.Document.EntryBlame
import AnchorIdl.Proofs.Document.TypeParallel

namespace AnchorIdl
namespace Document

variable {α : Type} {place place' : Place} {raw raw' : Json} {members members' : Members}

/-! ### Seeds and rules -/

theorem seedKind?_eq {r : Option Role} (h : Corresponds r members members') :
    (members.get? "kind").bind seedKind? = (members'.get? "kind").bind seedKind? := by
  have hkey : ("kind" : Text) ∈ memberNames := by decide
  exact h.get?_congr hkey (·.bind seedKind?) (fun _ _ => rfl) fun _ _ => rfl

/-- The value of a constant that is no text. -/
theorem constant_parallel {r : Option Role} {v v' : Json} (h : Rearranges r v v') :
    Parallel place place' Eq
      (do let value ← bytes (place.member "value") .constant v
          return ({ kind := .const, value := some value } : Seed))
      (do let value ← bytes (place'.member "value") .constant v'
          return ({ kind := .const, value := some value } : Seed)) := by
  refine .bind (bytes_parallel h .constant).member fun _ _ hbytes => .ok ?_
  rw [hbytes]

theorem readSeed_parallel (h : Rearranges (some .seed) raw raw') :
    Parallel place place' Eq (readSeed place raw) (readSeed place' raw') := by
  refine .bind (object_parallel h) fun members members' hmembers => ?_
  dsimp only
  rw [← seedKind?_eq hmembers]
  split
  · exact .member (.complain rfl)
  · have hkey : ("value" : Text) ∈ memberNames := by decide
    rcases hmembers.get?_cases hkey with hget | ⟨_, _, h₁, h₂, hv⟩ | ⟨_, _, h₁, h₂, hv⟩
    · rw [← hget]
      split
      · split
        · exact .ok rfl
        · exact .error (.unencodable _)
      · exact constant_parallel (.same none _)
    · rw [h₁, h₂]
      exact constant_parallel hv
    · rw [h₁, h₂]
      exact constant_parallel hv
  · refine .bind (string?_parallel hmembers (by decide)) fun text text' htext => ?_
    obtain rfl := htext
    split
    · exact .member (.complain rfl)
    · exact .ok rfl
  · refine .bind (string?_parallel hmembers (by decide)) fun path path' hpath => ?_
    obtain rfl := hpath
    split
    · exact .member (.complain rfl)
    · exact .member (.complain rfl)
    · exact .ok rfl
  · refine .bind (string?_parallel hmembers (by decide)) fun path path' hpath => ?_
    obtain rfl := hpath
    split
    · exact .member (.complain rfl)
    · exact .member (.complain rfl)
    · refine .bind (string?_parallel hmembers (by decide)) fun account account' haccount => .ok ?_
      rw [haccount]

theorem readPda_parallel (h : Rearranges (some .pda) raw raw') :
    Parallel place place' Eq (readPda place raw) (readPda place' raw') := by
  refine .bind (object_parallel h) fun members members' hmembers => ?_
  have hp : ⟨"seeds", .seeds, .required⟩ ∈ Role.pda.parts members := List.mem_cons_self ..
  refine .bind (items_parallel hmembers hp) fun seeds seeds' ⟨_, hseeds⟩ => ?_
  have hnil : seeds = [] ↔ seeds' = [] := by
    rw [← List.length_eq_zero_iff, hseeds.length_eq, List.length_eq_zero_iff]
  by_cases hn : seeds = []
  · rw [if_pos hn, if_pos (hnil.1 hn)]
    exact .member (.complain rfl)
  · rw [if_neg hn, if_neg (mt hnil.2 hn)]
    have hprogram : ⟨"program", .seed, .optional⟩ ∈ Role.pda.parts members :=
      List.mem_cons_of_mem _ (List.mem_cons_self ..)
    refine .bind (.eachOf "seeds" hseeds fun _ _ _ _ hseed => readSeed_parallel hseed)
      fun _ _ hread => ?_
    refine .bind (mapM_given?_parallel hmembers hprogram fun _ _ hseed => readSeed_parallel hseed)
      fun _ _ hprogram => .ok ?_
    rw [hread, hprogram]

/-! ### Accounts -/

theorem readAccount_parallel {r : Role} (h : Corresponds (some r) members members')
    (hp : ∀ p ∈ slotParts, p ∈ r.parts members) :
    Parallel place place' Eq (readAccount place members) (readAccount place' members') := by
  refine .bind (name_parallel h) fun _ _ hname => ?_
  refine .bind (flag_parallel h (by decide)) fun _ _ hwritable => ?_
  refine .bind (flag_parallel h (by decide)) fun _ _ hsigner => ?_
  refine .bind (flag_parallel h (by decide)) fun _ _ hoptional => ?_
  refine .bind (string?_parallel h (by decide)) fun _ _ haddress => ?_
  refine .bind (mapM_given?_parallel h (hp ⟨"pda", .pda, .optional⟩ (by decide))
    fun _ _ hpda => readPda_parallel hpda) fun _ _ hpda => ?_
  refine .bind (docs_parallel h (hp _ (by decide))) fun _ _ hdocs => .ok ?_
  rw [hname, hwritable, hsigner, hoptional, haddress, hpda, hdocs]

theorem readAccountDefinition_parallel (h : Rearranges (some .layout) raw raw') :
    Parallel place place' Eq (readAccountDefinition place raw)
      (readAccountDefinition place' raw') := by
  refine .bind (object_parallel h) fun members members' hmembers => ?_
  refine .bind (readAccount_parallel hmembers fun p hp => List.mem_cons_of_mem _ hp)
    fun _ _ haccount => ?_
  have hp : ⟨"discriminator", .discriminator, .optional⟩ ∈ Role.layout.parts members :=
    List.mem_cons_self ..
  refine .bind (mapM_given?_parallel hmembers hp
    fun _ _ hvalue => discriminator_parallel (.some hvalue)) fun _ _ hdiscriminator => .ok ?_
  rw [haccount, hdiscriminator]

theorem readSlots_parallel (place place' : Place) (raw raw' : Json)
    (h : Rearranges (some .slot) raw raw') :
    Parallel place place' Eq (readSlots place raw) (readSlots place' raw') := by
  match raw with
  | .obj members =>
    obtain ⟨members', rfl, hmembers⟩ := h.exists_obj
    rw [readSlots_obj, readSlots_obj, ← hmembers.has (by decide)]
    split
    · next hgroup =>
      have hp : ⟨"accounts", .list .slot, .optional⟩ ∈ Role.slot.parts members := by
        rw [Role.parts, if_pos hgroup]
        decide
      refine .bind (name_parallel hmembers) fun _ _ _ => ?_
      refine .bind (items_parallel hmembers hp) fun group group' ⟨hl, hlist⟩ => ?_
      refine .bind (.eachOf "accounts" hlist fun i v v' hv hitem => ?_) fun _ _ hslots => .ok ?_
      · have := hl.sizeOf_lt hv
        exact readSlots_parallel _ _ v v' hitem
      · rw [hslots]
    · next hslot =>
      have hparts : Role.slot.parts members = slotParts := if_neg hslot
      exact (readAccount_parallel hmembers fun p hp => hparts ▸ hp).map fun _ _ haccount => by
        rw [haccount]
  | .arr list =>
    obtain ⟨list', rfl, -⟩ := h.exists_arr
    rw [readSlots.eq_def, readSlots.eq_def]
    exact .complain rfl
  | .null | .bool _ | .int _ | .float _ | .str _ =>
    cases h
    rw [readSlots.eq_def, readSlots.eq_def]
    exact .complain rfl
termination_by sizeOf raw
decreasing_by simp; omega

/-! ### Entries -/

theorem readPartType_parallel {part : Typed} {r : Role} (h : Corresponds (some r) members members')
    (hp : ⟨"type", .type, .required⟩ ∈ r.parts members) :
    Parallel place place' Eq (readPartType place part members)
      (readPartType place' part members') := by
  have hrel := h.get? hp
  unfold readPartType
  generalize members.get? "type" = x, members'.get? "type" = x' at hrel
  cases hrel with
  | none => exact .member (.complain rfl)
  | some htype => exact (readType_parallel _ _ _ _ htype).member

theorem readArg_parallel (h : Rearranges (some .arg) raw raw') :
    Parallel place place' Eq (readArg place raw) (readArg place' raw') := by
  refine .bind (object_parallel h) fun members members' hmembers => ?_
  refine .bind (name_parallel hmembers) fun _ _ hname => ?_
  refine .bind (readPartType_parallel hmembers (by simp [Role.parts])) fun _ _ htype => .ok ?_
  rw [hname, htype]

theorem readInstruction_parallel (h : Rearranges (some .instruction) raw raw') :
    Parallel place place' Eq (readInstruction place raw) (readInstruction place' raw') := by
  refine .bind (object_parallel h) fun members members' hmembers => ?_
  have haccounts : ⟨"accounts", .list .slot, .optional⟩ ∈ Role.instruction.parts members := by
    simp [Role.parts]
  have hargs : ⟨"args", .list .arg, .optional⟩ ∈ Role.instruction.parts members := by
    simp [Role.parts]
  have hdiscriminator : ⟨"discriminator", .discriminator, .required⟩ ∈
      Role.instruction.parts members := by
    simp [Role.parts]
  refine .bind (name_parallel hmembers) fun _ _ hname => ?_
  refine .bind (items_parallel hmembers haccounts) fun accounts accounts' ⟨_, hlist⟩ => ?_
  refine .bind (.eachOf "accounts" hlist fun _ v v' _ hslot => readSlots_parallel _ _ v v' hslot)
    fun _ _ hslots => ?_
  refine .bind (items_parallel hmembers hargs) fun args args' ⟨_, hlist⟩ => ?_
  refine .bind (.eachOf "args" hlist fun _ _ _ _ harg => readArg_parallel harg) fun _ _ hread => ?_
  refine .bind (discriminator_parallel (hmembers.given? hdiscriminator)).member fun _ _ hbytes => ?_
  refine .bind (docs_parallel hmembers (by simp [Role.parts])) fun _ _ hdocs => .ok ?_
  rw [hname, hslots, hread, hbytes, hdocs]

theorem readError_parallel (h : Rearranges (some .error) raw raw') :
    Parallel place place' Eq (readError place raw) (readError place' raw') := by
  refine .bind (object_parallel h) fun members members' hmembers => ?_
  have hkey : ("code" : Text) ∈ memberNames := by decide
  rcases hmembers.get?_cases hkey with hget | ⟨_, _, h₁, h₂, -⟩ | ⟨_, _, h₁, h₂, -⟩
  · rw [← hget]
    split
    · refine .bind (name_parallel hmembers) fun _ _ hname => ?_
      refine .bind (string?_parallel hmembers (by decide)) fun _ _ hmsg => .ok ?_
      rw [hname, hmsg]
    · exact .member (.complain rfl)
  · rw [h₁, h₂]
    exact .member (.complain rfl)
  · rw [h₁, h₂]
    exact .member (.complain rfl)

theorem readTypeDefinition_parallel (h : Rearranges (some .custom) raw raw') :
    Parallel place place' Eq (readTypeDefinition place raw) (readTypeDefinition place' raw') := by
  refine .bind (object_parallel h) fun members members' hmembers => ?_
  refine .bind (name_parallel hmembers) fun _ _ hname => ?_
  refine .bind (readPartType_parallel hmembers (by simp [Role.parts])) fun _ _ htype => ?_
  refine .bind (docs_parallel hmembers (by simp [Role.parts])) fun _ _ hdocs => .ok ?_
  rw [hname, htype, hdocs]

/-! ### The document -/

section Document

variable {document document' metadata metadata' : Members}

/-- The metadata of a rearranged document have the same members as far as they are read. -/
theorem metadataMembers_parallel (h : Corresponds (some .document) document document') :
    Parallel [] [] (Corresponds (memberRole? (some .document) document "metadata"))
      (metadataMembers document) (metadataMembers document') := by
  have hkey : ("metadata" : Text) ∈ memberNames := by decide
  rcases h.get?_cases hkey with hget | ⟨list, list', h₁, h₂, hlist⟩ | ⟨_, _, h₁, h₂, hobject⟩
  · unfold metadataMembers
    rw [← hget]
    split
    · exact .ok (.refl _ _)
    split
    · exact .ok (.refl _ _)
    · exact (object_parallel (.same _ _)).below
  · have hblank : (Json.arr list).isBlank = (Json.arr list').isBlank := by
      rw [Bool.eq_iff_iff]
      simp only [Json.isBlank, List.isEmpty_iff_length_eq_zero, hlist.length_eq]
    unfold metadataMembers
    rw [h₁, h₂]
    dsimp only
    rw [← hblank]
    split
    · exact .ok (.refl _ _)
    · exact (object_parallel hlist).below
  · -- An object counts with its members, also if it has none and is blank.
    rw [metadataMembers_eq_ok_iff.2 (.given h₁), metadataMembers_eq_ok_iff.2 (.given h₂)]
    exact .ok hobject.corresponds

theorem newerOrOlder_parallel {r s : Option Role} {key : Text}
    (h : Corresponds r document document') (hm : Corresponds s metadata metadata')
    (hkey : key ∈ memberNames) :
    Parallel [] [] Eq (newerOrOlder document metadata key)
      (newerOrOlder document' metadata' key) := by
  refine .bind (string?_parallel hm hkey).below fun newer newer' hnewer => ?_
  obtain rfl := hnewer
  split
  · exact .ok rfl
  · refine .bind (string?_parallel h hkey) fun _ _ holder => .ok ?_
    rw [holder]

theorem readMetadata_parallel (h : Corresponds (some .document) document document') :
    Parallel [] [] Eq (readMetadata document) (readMetadata document') := by
  refine .bind (metadataMembers_parallel h) fun metadata metadata' hm => ?_
  refine .bind (newerOrOlder_parallel h hm (by decide)) fun _ _ hname => ?_
  refine .bind (newerOrOlder_parallel h hm (by decide)) fun _ _ hversion => ?_
  refine .bind (string?_parallel hm (by decide)).below fun _ _ hspec => ?_
  refine .bind (string?_parallel hm (by decide)).below fun _ _ hdescription => .ok ?_
  rw [hname, hversion, hspec, hdescription]

theorem readAddress_parallel (h : Corresponds (some .document) document document') :
    Parallel [] [] Eq (readAddress document) (readAddress document') := by
  refine .bind (string?_parallel h (by decide)) fun newer newer' hnewer => ?_
  obtain rfl := hnewer
  split
  · exact .ok rfl
  have hkey : ("metadata" : Text) ∈ memberNames := by decide
  rcases h.get?_cases hkey with hget | ⟨_, _, h₁, h₂, -⟩ | ⟨members, members', h₁, h₂, hobject⟩
  · rw [← hget]
    split
    · refine .bind (string?_parallel (.refl none _) (by decide)).below fun _ _ holder => .ok ?_
      rw [holder]
    · exact .ok rfl
  · rw [h₁, h₂]
    exact .ok rfl
  · rw [h₁, h₂]
    refine .bind (string?_parallel hobject.corresponds (by decide)).below fun _ _ holder => .ok ?_
    rw [holder]

theorem readSection_parallel {r : Role} {key : Text} {read : Place → Json → Reading α}
    (h : Corresponds (some .document) document document')
    (hp : ⟨key, .list r, .optional⟩ ∈ Role.document.parts document)
    (hread : ∀ place v v', Rearranges (some r) v v' →
      Parallel place place Eq (read place v) (read place v')) :
    Parallel [] [] Eq (readSection document key read) (readSection document' key read) := by
  refine .bind (items_parallel h hp) fun entries entries' ⟨_, hlist⟩ => ?_
  exact .eachOf key hlist fun i v v' _ hentry => hread _ v v' hentry

end Document

end Document
end AnchorIdl
