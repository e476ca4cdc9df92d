/-
# What the readers of a document blame

Each reader of an entry, from bytes and seeds up to accounts, instructions, errors
and custom types, blames what is faulty at or below the entry; so does the reader
of the whole document (`readSchema_blames`).  The document is gone through section
by section, and notes on its sections reject nothing.
-/

import AnchorIdl.Proofs.Document.TypeBlame

namespace AnchorIdl
namespace Document

variable {α β : Type}

/-! ### Bytes -/

/-- The position of a list of bytes. -/
def bytesRole : ByteList → Role
  | .discriminator => .discriminator
  | .constant => .constant

theorem ne_int_of_byte? {raw : Json} (h : byte? raw = none) (b : UInt8) : raw ≠ .int b.toNat := by
  intro hraw
  rw [byte?_eq_some_iff.2 hraw] at h
  cases h

theorem bytes_blames {place : Place} (list : ByteList) {raw : Json} {items : List Json}
    (hraw : raw = .arr items) :
    Blames place (bytesRole list) (some raw) (bytes place list raw) := by
  subst hraw
  have hitem : ∀ i, (bytesRole list).item items i = some (.byte list) := by
    cases list <;> exact fun _ => rfl
  refine .each hitem fun i item _ => ?_
  split
  · exact .ok _
  · next hbyte =>
    cases list
    · exact .complain_shown (.discriminatorByte (ne_int_of_byte? hbyte)) rfl (by decide)
    · exact .complain_shown (.constantByte (ne_int_of_byte? hbyte)) rfl (by decide)

theorem discriminator_blames {place : Place} (raw : Option Json) :
    Blames place .discriminator raw (discriminator place raw) := by
  cases raw with
  | none => exact .complain (.noDiscriminator nofun) rfl
  | some raw =>
    by_cases hraw : ∃ items, raw = .arr items
    · obtain ⟨items, hitems⟩ := hraw
      refine .bind (bytes_blames .discriminator hitems) fun value hvalue => ?_
      split
      · exact .ok _
      · next hlength =>
        rw [bytes_eq_ok_iff.1 hvalue]
        exact .complain (.discriminatorLength hlength) rfl
    · have hlist : ∀ list, raw ≠ .arr list := fun list h => hraw ⟨list, h⟩
      have hbytes : bytes place .discriminator raw =
          complain place (.notBytes .discriminator raw.kind) := by
        cases raw <;> first | rfl | exact absurd rfl (hlist _)
      refine .bind ?_ fun value hvalue => by rw [hbytes] at hvalue; cases hvalue
      rw [hbytes]
      exact .complain (.noDiscriminator fun list h => hlist list (Option.some.inj h)) rfl

/-- A discriminator that has to be there. -/
theorem discriminatorMember_blames {place : Place} {members : Members} {key : Text} :
    Blames place .discriminator (members.get? key) (discriminator place (members.given? key)) := by
  cases hgiven : members.given? key with
  | some raw =>
    rw [Members.get?_of_given? hgiven]
    exact discriminator_blames (some raw)
  | none =>
    refine .complain (.noDiscriminator fun list hlist => ?_) rfl
    rcases given?_eq_none_iff.1 hgiven with hnone | hnull
    · simp [hnone] at hlist
    · simp [hnull] at hlist

/-! ### Seeds and rules -/

theorem seedParts_subset {members : Members} {kind : SeedKind}
    (hk : (members.get? "kind").bind seedKind? = some kind) :
    ∀ p ∈ seedParts kind, p ∈ Role.seed.parts members := by
  intro p hp
  refine List.mem_cons_of_mem _ ?_
  rw [hk]
  exact hp

theorem noSeedPath_of_string? {place : Place} {members : Members} {path : Option Text}
    (h : string? place members "path" = .ok path) (hpath : path = none ∨ path = some []) :
    Faulty .missingField .seedPath (members.get? "path") := by
  rw [string?_eq_ok_iff] at h
  rcases hpath with rfl | rfl
  · exact .noSeedPath ((given?_eq_none_iff.1 h).imp_right .inl)
  · exact .noSeedPath (.inr (.inr (Members.get?_of_given? h)))

/-- The value of a constant that is no text. -/
theorem constant_blames {place : Place} {value : Option Json} (h : ∀ t, value ≠ some (.str t)) :
    Blames place .constant value (bytes place .constant (value.getD .null)) := by
  match value with
  | some (.arr items) => exact bytes_blames .constant rfl
  | some (.str t) => exact absurd rfl (h t)
  | none => exact .complain .noConstant rfl
  | some .null | some (.bool _) | some (.int _) | some (.float _) | some (.obj _) =>
    exact .complain (.wrongSort rfl (by simp [Json.kind])) rfl

theorem readSeed_blames (place : Place) (raw : Json) :
    Blames place .seed (some raw) (readSeed place raw) := by
  refine .bind (object_blames rfl) fun members hmembers => ?_
  obtain rfl := object_eq_ok_iff.1 hmembers
  dsimp only
  split
  · next hk =>
    refine .required (List.mem_cons_self ..)
      (.complain_shown (.seedKind fun kind hkind => ?_) rfl (by decide))
    rw [hkind] at hk
    simp [seedKind?_eq_some_iff.2 rfl] at hk
  · next hk =>
    have hp : ⟨"value", .constant, .required⟩ ∈ Role.seed.parts members :=
      seedParts_subset hk _ (List.mem_cons_self ..)
    refine .required hp ?_
    split
    · next t ht =>
      rw [ht]
      split
      · exact .ok _
      · next fault hfault =>
        intro e he
        obtain rfl := Except.error.inj he
        exact .unencodable .here hfault
    · next htext => exact .bind (constant_blames htext) fun _ _ => .ok _
  · next hk =>
    have hp : ⟨"value", .seedText, .required⟩ ∈ Role.seed.parts members :=
      seedParts_subset hk _ (List.mem_cons_self ..)
    refine .bind (string?_blames hp rfl (by decide)) fun text htext => ?_
    split
    · rw [string?_eq_ok_iff] at htext
      exact .required hp (.complain (.noSeedText (given?_eq_none_iff.1 htext)) rfl)
    · exact .ok _
  · next hk =>
    have hp : ⟨"path", .seedPath, .required⟩ ∈ Role.seed.parts members :=
      seedParts_subset hk _ (List.mem_cons_self ..)
    refine .bind (string?_blames hp rfl (by decide)) fun path hpath => ?_
    split
    · exact .required hp (.complain (noSeedPath_of_string? hpath (.inl rfl)) rfl)
    · exact .required hp (.complain (noSeedPath_of_string? hpath (.inr rfl)) rfl)
    · exact .ok _
  · next hk =>
    have hp : ⟨"path", .seedPath, .required⟩ ∈ Role.seed.parts members :=
      seedParts_subset hk _ (List.mem_cons_self ..)
    have ha : ⟨"account", .text, .optional⟩ ∈ Role.seed.parts members :=
      seedParts_subset hk _ (List.mem_cons_of_mem _ (List.mem_cons_self ..))
    refine .bind (string?_blames hp rfl (by decide)) fun path hpath => ?_
    split
    · exact .required hp (.complain (noSeedPath_of_string? hpath (.inl rfl)) rfl)
    · exact .required hp (.complain (noSeedPath_of_string? hpath (.inr rfl)) rfl)
    · exact .bind (string?_blames ha rfl (by decide)) fun _ _ => .ok _

theorem readPda_blames (place : Place) (raw : Json) :
    Blames place .pda (some raw) (readPda place raw) := by
  refine .bind (object_blames rfl) fun members hmembers => ?_
  obtain rfl := object_eq_ok_iff.1 hmembers
  have hp : ⟨"seeds", .seeds, .required⟩ ∈ Role.pda.parts members := List.mem_cons_self ..
  refine .bind (items_blames hp rfl (by decide)) fun seeds hseeds => ?_
  rw [items_eq_ok_iff] at hseeds
  split
  · next hnil =>
    subst hnil
    refine .required hp (.complain (.noSeeds ?_) rfl)
    rcases hseeds with hgiven | ⟨hnone, -⟩
    · exact .inr (.inr (Members.get?_of_given? hgiven))
    · exact (given?_eq_none_iff.1 hnone).imp_right .inl
  · refine .bind (.eachOf hp hseeds (fun _ => rfl) fun i seed _ => readSeed_blames _ seed) ?_
    intro _ _
    have hprogram : ⟨"program", .seed, .optional⟩ ∈ Role.pda.parts members :=
      List.mem_cons_of_mem _ (List.mem_cons_self ..)
    exact .bind (mapM_given?_blames hprogram fun raw => readSeed_blames _ raw) fun _ _ => .ok _

/-! ### Accounts -/

theorem readAccount_blames {r : Role} {members : Members} (place : Place)
    (hp : ∀ p ∈ slotParts, p ∈ r.parts members) :
    Blames place r (some (.obj members)) (readAccount place members) := by
  refine .bind (name_blames (hp _ (by decide))) fun _ _ => ?_
  refine .bind (flag_blames fun key hkey => hp _ (by revert key; decide)) fun _ _ => ?_
  refine .bind (flag_blames fun key hkey => hp _ (by revert key; decide)) fun _ _ => ?_
  refine .bind (flag_blames fun key hkey => hp _ (by revert key; decide)) fun _ _ => ?_
  refine .bind (string?_blames (hp ⟨"address", .text, .optional⟩ (by decide)) rfl (by decide))
    fun _ _ => ?_
  refine .bind (mapM_given?_blames (hp ⟨"pda", .pda, .optional⟩ (by decide))
    fun raw => readPda_blames _ raw) fun _ _ => ?_
  exact .bind (docs_blames (hp _ (by decide))) fun _ _ => .ok _

theorem readAccountDefinition_blames (place : Place) (raw : Json) :
    Blames place .layout (some raw) (readAccountDefinition place raw) := by
  refine .bind (object_blames rfl) fun members hmembers => ?_
  obtain rfl := object_eq_ok_iff.1 hmembers
  refine .bind (readAccount_blames place fun p hp => List.mem_cons_of_mem _ hp) fun _ _ => ?_
  have hp : ⟨"discriminator", .discriminator, .optional⟩ ∈ Role.layout.parts members :=
    List.mem_cons_self ..
  exact .bind (mapM_given?_blames hp fun raw => discriminator_blames _) fun _ _ => .ok _

theorem readSlots_blames (place : Place) (raw : Json) :
    Blames place .slot (some raw) (readSlots place raw) := by
  cases raw with
  | obj members =>
    rw [readSlots_obj]
    split
    · next hgroup =>
      have hparts : Role.slot.parts members =
          [⟨"name", .name, .required⟩, ⟨"accounts", .list .slot, .optional⟩] := if_pos hgroup
      have hp : ⟨"accounts", .list .slot, .optional⟩ ∈ Role.slot.parts members := by
        rw [hparts]
        decide
      refine .bind (name_blames (by rw [hparts]; decide)) fun _ _ => ?_
      refine .bind (items_blames hp rfl (by decide)) fun group hl => ?_
      rw [items_eq_ok_iff] at hl
      refine .bind (.eachOf hp hl (fun _ => rfl) fun i item hitem => ?_) fun _ _ => .ok _
      have := hl.sizeOf_lt hitem
      exact readSlots_blames _ item
    · next hslot =>
      have hparts : Role.slot.parts members = slotParts := if_neg hslot
      exact .map (readAccount_blames place fun p hp => hparts ▸ hp)
  | null | bool _ | int _ | float _ | arr _ | str _ =>
    rw [readSlots.eq_def]
    exact .complain (.wrongSort rfl (by simp [Json.kind])) rfl
termination_by sizeOf raw
decreasing_by simp; omega

/-! ### Entries -/

theorem readPartType_blames {place : Place} {part : Typed} {r : Role} {members : Members}
    (hp : ⟨"type", .type, .required⟩ ∈ r.parts members) :
    Blames place r (some (.obj members)) (readPartType place part members) := by
  refine .required hp ?_
  unfold readPartType
  split
  · next ht => exact ht ▸ .complain .noType rfl
  · next type ht => exact ht ▸ readType_blames _ type

theorem readArg_blames (place : Place) (raw : Json) :
    Blames place .arg (some raw) (readArg place raw) := by
  refine .bind (object_blames rfl) fun members hmembers => ?_
  obtain rfl := object_eq_ok_iff.1 hmembers
  refine .bind (name_blames (List.mem_cons_self ..)) fun _ _ => ?_
  exact .bind (readPartType_blames (List.mem_cons_of_mem _ (List.mem_cons_self ..)))
    fun _ _ => .ok _

theorem readInstruction_blames (place : Place) (raw : Json) :
    Blames place .instruction (some raw) (readInstruction place raw) := by
  refine .bind (object_blames rfl) fun members hmembers => ?_
  obtain rfl := object_eq_ok_iff.1 hmembers
  have haccounts : ⟨"accounts", .list .slot, .optional⟩ ∈ Role.instruction.parts members := by
    simp [Role.parts]
  have hargs : ⟨"args", .list .arg, .optional⟩ ∈ Role.instruction.parts members := by
    simp [Role.parts]
  have hdiscriminator : ⟨"discriminator", .discriminator, .required⟩ ∈
      Role.instruction.parts members := by
    simp [Role.parts]
  refine .bind (name_blames (List.mem_cons_self ..)) fun _ _ => ?_
  refine .bind (items_blames haccounts rfl (by decide)) fun accounts hl => ?_
  refine .bind (.eachOf haccounts (items_eq_ok_iff.1 hl) (fun _ => rfl)
    fun _ raw _ => readSlots_blames _ raw) fun _ _ => ?_
  refine .bind (items_blames hargs rfl (by decide)) fun args hl => ?_
  refine .bind (.eachOf hargs (items_eq_ok_iff.1 hl) (fun _ => rfl)
    fun _ raw _ => readArg_blames _ raw) fun _ _ => ?_
  refine .bind (.required hdiscriminator discriminatorMember_blames) fun _ _ => ?_
  exact .bind (docs_blames (by simp [Role.parts])) fun _ _ => .ok _

theorem readError_blames (place : Place) (raw : Json) :
    Blames place .error (some raw) (readError place raw) := by
  refine .bind (object_blames rfl) fun members hmembers => ?_
  obtain rfl := object_eq_ok_iff.1 hmembers
  have hname : ⟨"name", .name, .required⟩ ∈ Role.error.parts members := by simp [Role.parts]
  have hmsg : ⟨"msg", .text, .optional⟩ ∈ Role.error.parts members := by simp [Role.parts]
  split
  · refine .bind (name_blames hname) fun _ _ => ?_
    exact .bind (string?_blames hmsg rfl (by decide)) fun _ _ => .ok _
  · next h =>
    exact .required (List.mem_cons_self ..) (.complain (.noCode fun n hn => h n hn) rfl)

theorem readTypeDefinition_blames (place : Place) (raw : Json) :
    Blames place .custom (some raw) (readTypeDefinition place raw) := by
  refine .bind (object_blames rfl) fun members hmembers => ?_
  obtain rfl := object_eq_ok_iff.1 hmembers
  refine .bind (name_blames (List.mem_cons_self ..)) fun _ _ => ?_
  refine .bind (readPartType_blames (List.mem_cons_of_mem _ (List.mem_cons_self ..)))
    fun _ _ => ?_
  exact .bind (docs_blames (by simp [Role.parts])) fun _ _ => .ok _

/-! ### The document -/

section Document

variable {document members : Members}

/-- What is read of a document blames what stands in it. -/
def DocumentBlames (document : Members) (x : Reading α) : Prop :=
  Blames [] .document (some (.obj document)) x

theorem metadata_mem_parts : ⟨"metadata", .metadata, .optional⟩ ∈ Role.document.parts document :=
  List.mem_cons_self ..

theorem metadataMembers_blames : DocumentBlames document (metadataMembers document) := by
  unfold metadataMembers
  split
  · exact .ok _
  · next raw hraw =>
    split
    · exact .ok _
    · next hblank =>
      have hgiven : document.given? "metadata" = some raw :=
        given?_eq_some_iff.2 ⟨hraw, by rintro rfl; exact hblank rfl⟩
      refine .given metadata_mem_parts hgiven ?_
      unfold object
      split
      · exact .ok _
      · next h =>
        have hkind : raw.kind ≠ .object := by cases raw <;> simp_all [Json.kind]
        exact .complain (.metadata (by simpa using hblank) hkind) rfl

/-- The members of the metadata are those of the member `metadata`, unless there are none. -/
theorem given?_metadata (h : metadataMembers document = .ok members) :
    members = [] ∨ document.given? "metadata" = some (.obj members) := by
  rcases metadataMembers_eq_ok_iff.1 h with _ | ⟨_, _⟩ | hmetadata
  · exact .inl rfl
  · exact .inl rfl
  · exact .inr (given?_eq_some_iff.2 ⟨hmetadata, by simp⟩)

theorem metadataText_blames {key : Text}
    (h : members = [] ∨ document.given? "metadata" = some (.obj members))
    (hp : ⟨key, .text, .optional⟩ ∈ Role.metadata.parts members) :
    DocumentBlames document (string? [.member "metadata"] members key) := by
  rcases h with rfl | hgiven
  · exact .ok _
  · exact .given metadata_mem_parts hgiven (string?_blames hp rfl (by decide))

theorem newerOrOlder_blames {key : Text}
    (h : members = [] ∨ document.given? "metadata" = some (.obj members))
    (hm : ⟨key, .text, .optional⟩ ∈ Role.metadata.parts members)
    (hd : ⟨key, .text, .optional⟩ ∈ Role.document.parts document) :
    DocumentBlames document (newerOrOlder document members key) := by
  refine .bind (metadataText_blames h hm) fun newer _ => ?_
  split
  · exact .ok _
  · exact .bind (string?_blames hd rfl (by decide)) fun _ _ => .ok _

theorem readMetadata_blames : DocumentBlames document (readMetadata document) := by
  refine .bind metadataMembers_blames fun members hmembers => ?_
  have h := given?_metadata hmembers
  refine .bind (newerOrOlder_blames h (by simp [Role.parts]) (by simp [Role.parts])) fun _ _ => ?_
  refine .bind (newerOrOlder_blames h (by simp [Role.parts]) (by simp [Role.parts])) fun _ _ => ?_
  refine .bind (metadataText_blames h (by simp [Role.parts])) fun _ _ => ?_
  exact .bind (metadataText_blames h (by simp [Role.parts])) fun _ _ => .ok _

theorem readAddress_blames : DocumentBlames document (readAddress document) := by
  have hp : ⟨"address", .text, .optional⟩ ∈ Role.document.parts document := by simp [Role.parts]
  refine .bind (string?_blames hp rfl (by decide)) fun newer _ => ?_
  split
  · exact .ok _
  · split
    · next members hmetadata =>
      have hgiven : document.given? "metadata" = some (.obj members) :=
        given?_eq_some_iff.2 ⟨hmetadata, by simp⟩
      exact .bind (metadataText_blames (.inr hgiven) (by simp [Role.parts])) fun _ _ => .ok _
    · exact .ok _

theorem readSection_blames {r : Role} {key : Text} {read : Place → Json → Reading α}
    (hp : ⟨key, .list r, .optional⟩ ∈ Role.document.parts document)
    (h : ∀ place raw, Blames place r (some raw) (read place raw)) :
    DocumentBlames document (readSection document key read) := by
  refine .bind (items_blames hp rfl (by decide)) fun entries hl => ?_
  exact .eachOf hp (items_eq_ok_iff.1 hl) (fun _ => rfl) fun i raw _ => h _ raw

theorem DocumentBlames.bind_logged {x : Logged Rejection α} {f : α → Logged Rejection β}
    (hx : DocumentBlames document x.outcome)
    (hf : ∀ a, x.outcome = .ok a → DocumentBlames document (f a).outcome) :
    DocumentBlames document (x >>= f).outcome := by
  intro e he
  rcases Logged.bind_outcome_eq_error.1 he with herror | ⟨a, ha, herror⟩
  · exact hx e herror
  · exact hf a ha e herror

theorem noteCount_blames (entries : List α) (what : Text) :
    DocumentBlames document (noteCount entries what).outcome :=
  .ok ()

/-- **Reading a document rejects it only for what is faulty in it.** -/
theorem readSchema_blames : DocumentBlames document (readSchema (.obj document)).outcome := by
  refine .bind_logged (.ok document) fun document' hdocument => ?_
  obtain rfl : document = document' := Except.ok.inj hdocument
  refine .bind_logged readMetadata_blames fun _ _ => ?_
  refine .bind_logged readAddress_blames fun _ _ => ?_
  refine .bind_logged (readSection_blames (r := .instruction) (by simp [Role.parts])
    readInstruction_blames) fun _ _ => ?_
  refine .bind_logged (noteCount_blames _ _) fun _ _ => ?_
  refine .bind_logged (readSection_blames (r := .layout) (by simp [Role.parts])
    readAccountDefinition_blames) fun _ _ => ?_
  refine .bind_logged (noteCount_blames _ _) fun _ _ => ?_
  refine .bind_logged (readSection_blames (r := .error) (by simp [Role.parts])
    readError_blames) fun _ _ => ?_
  refine .bind_logged (noteCount_blames _ _) fun _ _ => ?_
  refine .bind_logged (readSection_blames (r := .custom) (by simp [Role.parts])
    readTypeDefinition_blames) fun _ _ => ?_
  exact .bind_logged (noteCount_blames _ _) fun _ _ => .ok _

end Document

end Document
end AnchorIdl
