/-
# Older spellings

Documents of older versions spell some things differently:

| older | newer |
| --- | --- |
| `isMut`, `isSigner`, `isOptional` of an account | `writable`, `signer`, `optional` |
| the type `publicKey` | `pubkey` |
| the reference `{"defined": "Name"}` | `{"defined": {"name": "Name"}}` |
| the text of a constant seed | the list of its UTF-8 bytes |
| `name` and `version` of the document | those under `metadata` |
| `address` under `metadata` | that of the document |

`Modernises` is the table as a rule on positions, with the conditions under which
the newer spelling says the same: it must not be there already.  A document loads
alike however many of its older spellings are modernised, at whatever depths
(`load_modernised`).
-/

import AnchorIdl.Proofs.Document.Rewriting

namespace AnchorIdl
namespace Document

/-- The flags of an account, older and newer. -/
def flagSpellings : List (Text × Text) :=
  [("isMut", "writable"), ("isSigner", "signer"), ("isOptional", "optional")]

/-- The members with one of them renamed. -/
def rename (old new : Text) (members : Members) : Members :=
  members.map fun (key, value) => (if key = old then new else key, value)

/-- A document with the text named `key` under its metadata, and no longer beside them. -/
def textMoved (document metadata : Members) (key t : Text) : Members :=
  (document.erase key).put ("metadata" : Text) (.obj (metadata.put key (.str t)))

/-- A document with its address beside the metadata, and no longer under them. -/
def addressMoved (document metadata : Members) (t : Text) : Members :=
  (document.put ("metadata" : Text) (.obj (metadata.erase ("address" : Text)))).put
    ("address" : Text) (.str t)

/-- An older spelling at a position is replaced by the newer one. -/
inductive Modernises : Role → Json → Json → Prop
  | flag {r : Role} {members : Members} {old new : Text} (hr : r = .slot ∨ r = .layout)
      (hflag : (old, new) ∈ flagSpellings) (absent : members.get? new = none) :
      Modernises r (.obj members) (.obj (rename old new members))
  | publicKey : Modernises .type (.str "publicKey") (.str "pubkey")
  | reference {name : Text} (nonempty : name ≠ []) :
      Modernises .reference (.str name) (.obj [("name", .str name)])
  | constant {t : Text} {bytes : Bytes} (octets : Utf8.encode t = .ok bytes) :
      Modernises .constant (.str t) (.ofBytes bytes)
  | text {document metadata : Members} {key t : Text} (hkey : key = "name" ∨ key = "version")
      (ht : document.get? key = some (.str t)) (nonempty : t ≠ [])
      (hm : MetadataMember document metadata) (empty : TextMember metadata key []) :
      Modernises .document (.obj document) (.obj (textMoved document metadata key t))
  | address {document metadata : Members} {t : Text}
      (hm : document.get? "metadata" = some (.obj metadata))
      (ht : metadata.get? "address" = some (.str t)) (absent : document.given? "address" = none) :
      Modernises .document (.obj document) (.obj (addressMoved document metadata t))

/-! ### Flags -/

section Flags

variable {members : Members} {old new : Text}

theorem get?_rename (absent : members.get? new = none) (key : Text) :
    (rename old new members).get? key =
      if key = new then members.get? old else if key = old then none else members.get? key := by
  induction members with
  | nil => simp [rename]
  | cons entry rest ih =>
    obtain ⟨k, v⟩ := entry
    have hk : new ≠ k ∧ Ordered.get? rest new = none := by
      rw [Ordered.get?_cons] at absent
      split_ifs at absent with hk
      exact ⟨hk, absent⟩
    have hrename : rename old new ((k, v) :: rest) =
        (if k = old then new else k, v) :: rename old new rest := rfl
    rw [hrename, Ordered.get?_cons, ih hk.2, Ordered.get?_cons, Ordered.get?_cons]
    by_cases hold : k = old
    · subst hold
      by_cases hnew : key = new
      · simp [hnew]
      · by_cases hkey : key = k <;> simp [hnew, hkey, Ne.symm hk.1]
    · by_cases hnew : key = new
      · subst hnew
        simp [hold, hk.1, Ne.symm hold]
      · by_cases hkey : key = old
        · subst hkey
          simp [hold, hnew, Ne.symm hold]
        · simp [hold, hnew, hkey]

theorem get?_rename_of_ne (absent : members.get? new = none) {key : Text} (hold : key ≠ old)
    (hnew : key ≠ new) : (rename old new members).get? key = members.get? key := by
  rw [get?_rename absent, if_neg hnew, if_neg hold]

/-- Different flags have different spellings. -/
theorem flagSpellings_disjoint : ∀ p ∈ flagSpellings, ∀ q ∈ flagSpellings,
    p = q ∨ p.1 ≠ q.1 ∧ p.1 ≠ q.2 ∧ p.2 ≠ q.1 ∧ p.2 ≠ q.2 := by
  decide

/-- The first given spelling of each flag stays when one of the flags is renamed. -/
theorem findSome?_rename (hflag : (old, new) ∈ flagSpellings) (absent : members.get? new = none)
    {older newer : Text} (h : (older, newer) ∈ flagSpellings) :
    [newer, older].findSome? (rename old new members).given? =
      [newer, older].findSome? members.given? := by
  rcases flagSpellings_disjoint _ h _ hflag with heq | ⟨hoo, hon, hno, hnn⟩
  · obtain ⟨rfl, rfl⟩ := Prod.mk.inj heq
    have hne : ∀ p ∈ flagSpellings, p.1 ≠ p.2 := by decide
    have hnew : (rename older newer members).given? newer = members.given? older := by
      unfold Members.given?
      rw [get?_rename absent, if_pos rfl]
    have hold : (rename older newer members).given? older = none := by
      unfold Members.given?
      rw [get?_rename absent, if_neg (hne _ h), if_pos rfl]
    have hnone : members.given? newer = none := given?_eq_none_iff.2 (.inl absent)
    simp only [List.findSome?_cons, List.findSome?_nil, hnew, hold, hnone]
  · simp only [List.findSome?_cons, List.findSome?_nil,
      given?_congr (get?_rename_of_ne absent hoo hon),
      given?_congr (get?_rename_of_ne absent hno hnn)]

/-- A slot depends on its members by name and on the first given spelling of its flags. -/
theorem SlotForm.of_lookups {members' : Members} {a : AccountRef}
    (hget : ∀ key : String, key ∈ ["name", "address", "pda", "docs"] →
      members.get? key = members'.get? key)
    (hflag : ∀ older newer, (older, newer) ∈ flagSpellings →
      [newer, older].findSome? members.given? = [newer, older].findSome? members'.given?)
    (h : SlotForm members a) : SlotForm members' a where
  name := ⟨hget "name" (by decide) ▸ h.name.1, h.name.2⟩
  writable := by
    unfold FlagMember
    rw [← hflag "isMut" "writable" (by decide)]
    exact h.writable
  signer := by
    unfold FlagMember
    rw [← hflag "isSigner" "signer" (by decide)]
    exact h.signer
  optional := by
    unfold FlagMember
    rw [← hflag "isOptional" "optional" (by decide)]
    exact h.optional
  address := given?_congr (hget "address" (by decide)) ▸ h.address
  pda := by
    unfold OptionMember
    rw [← given?_congr (hget "pda" (by decide))]
    exact h.pda
  docs := by
    unfold ListMember
    rw [← given?_congr (hget "docs" (by decide))]
    exact h.docs

/-- No other member has the name of a flag. -/
theorem get?_rename_other (hflag : (old, new) ∈ flagSpellings) (absent : members.get? new = none)
    (key : String) (hkey : key ∈ ["name", "address", "pda", "docs", "accounts", "discriminator"]) :
    (rename old new members).get? key = members.get? key := by
  have hne : ∀ p ∈ flagSpellings,
      ∀ key ∈ ["name", "address", "pda", "docs", "accounts", "discriminator"].map Text.ofString,
        key ≠ p.1 ∧ key ≠ p.2 := by
    decide
  obtain ⟨hold, hnew⟩ := hne _ hflag _ (List.mem_map_of_mem hkey)
  exact get?_rename_of_ne absent hold hnew

theorem slotForm_rename_iff (hflag : (old, new) ∈ flagSpellings)
    (absent : members.get? new = none) {a : AccountRef} :
    SlotForm members a ↔ SlotForm (rename old new members) a := by
  have hget : ∀ key : String, key ∈ ["name", "address", "pda", "docs"] →
      (rename old new members).get? key = members.get? key := fun key hkey =>
    get?_rename_other hflag absent key (by revert key; decide)
  constructor
  · exact .of_lookups (fun key hkey => (hget key hkey).symm)
      fun _ _ h => (findSome?_rename hflag absent h).symm
  · exact .of_lookups hget fun _ _ h => findSome?_rename hflag absent h

theorem AccountDefinitionForm.of_lookups {members' : Members} {a : AccountDefinition}
    (hd : members.get? "discriminator" = members'.get? "discriminator")
    (hslot : ∀ a, SlotForm members a → SlotForm members' a)
    (h : AccountDefinitionForm (.obj members) a) : AccountDefinitionForm (.obj members') a := by
  cases h with
  | mk slot hdiscriminator =>
    unfold OptionMember at hdiscriminator
    rw [given?_congr hd] at hdiscriminator
    exact .mk (hslot _ slot) hdiscriminator

theorem SlotsForm.of_lookups {members' : Members} {slots : List AccountRef}
    (hname : members.get? "name" = members'.get? "name")
    (haccounts : members.get? "accounts" = members'.get? "accounts")
    (hslot : ∀ a, SlotForm members a → SlotForm members' a)
    (h : SlotsForm (.obj members) slots) : SlotsForm (.obj members') slots := by
  cases h with
  | slot single slot => exact .slot (haccounts ▸ single) (hslot _ slot)
  | group several hn hl hs =>
    unfold ListMember at hl
    rw [given?_congr haccounts] at hl
    exact .group (haccounts ▸ several) ⟨hname ▸ hn.1, hn.2⟩ hl hs

/-- An account layout and an item of an instruction's accounts are the same with a flag renamed. -/
theorem same_rename {r : Role} (hr : r = .slot ∨ r = .layout) (hflag : (old, new) ∈ flagSpellings)
    (absent : members.get? new = none) : r.Same (.obj members) (.obj (rename old new members)) := by
  have hslot := fun a => slotForm_rename_iff hflag absent (a := a)
  have hname := get?_rename_other hflag absent "name" (by decide)
  have haccounts := get?_rename_other hflag absent "accounts" (by decide)
  have hdiscriminator := get?_rename_other hflag absent "discriminator" (by decide)
  refine ⟨fun x => ?_, iff_of_false nofun nofun, fun h => by rcases hr with rfl | rfl <;> simp at h⟩
  rcases hr with rfl | rfl
  · exact ⟨.of_lookups hname.symm haccounts.symm fun a => (hslot a).1,
      .of_lookups hname haccounts fun a => (hslot a).2⟩
  · exact ⟨.of_lookups hdiscriminator.symm fun a => (hslot a).1,
      .of_lookups hdiscriminator fun a => (hslot a).2⟩

end Flags

/-! ### Types, references and constants -/

/-- A value denotes one type, so two that denote the same one denote the same types. -/
theorem typeForm_iff_of_denote {raw raw' : Json} {t : TypeExpr} (h : TypeForm raw t)
    (h' : TypeForm raw' t) (x : TypeExpr) : TypeForm raw x ↔ TypeForm raw' x := by
  have hunique : ∀ {raw x}, TypeForm raw t → TypeForm raw x → x = t := fun h hx =>
    Except.ok.inj ((hx.read []).symm.trans (h.read []))
  exact ⟨fun hx => hunique h hx ▸ h', fun hx => hunique h' hx ▸ h⟩

theorem same_publicKey : Role.type.Same (.str "publicKey") (.str "pubkey") where
  denotes := typeForm_iff_of_denote .publicKey (.primitive .pubkey)
  null := iff_of_false nofun nofun
  named := fun _ => rfl

theorem same_reference {name : Text} (nonempty : name ≠ []) :
    Role.reference.Same (.str name) (.obj [("name", .str name)]) where
  denotes := typeForm_iff_of_denote (.name nonempty)
    (.reference ⟨rfl, nonempty⟩ (.inr ⟨rfl, rfl⟩) .nil)
  null := by simp
  named := by simp

theorem same_constant {t : Text} {bytes : Bytes} (octets : Utf8.encode t = .ok bytes) :
    Role.constant.Same (.str t) (.ofBytes bytes) := by
  refine ⟨fun x => ?_, by simp [Json.ofBytes], by simp⟩
  constructor
  · rintro (heq | ⟨_, heq, hx⟩)
    · cases heq
    · obtain rfl := Json.str.inj heq
      exact .inl (congrArg _ (Except.ok.inj (octets.symm.trans hx)))
  · rintro (heq | ⟨_, heq, _⟩)
    · exact .inr ⟨t, rfl, ofBytes_injective heq ▸ octets⟩
    · cases heq

/-! ### Metadata and address -/

section Moved

variable {document document' metadata metadata' : Members} {key t : Text}

/-- The names of the sections of a document. -/
def sections : List Text := ["instructions", "accounts", "errors", "types"]

/-- A text that the metadata do not have is that of the document. -/
theorem placedText_of_empty (empty : TextMember metadata key [])
    (ht : document.given? key = some (.str t)) {x : Text} :
    PlacedText document metadata key x ↔ x = t := by
  constructor
  · rintro (⟨hnewer, nonempty⟩ | ⟨-, holder⟩)
    · exact absurd ((textMember_iff_of_given hnewer).1 empty).symm nonempty
    · exact (textMember_iff_of_given ht).1 holder
  · rintro rfl
    exact .older empty ((textMember_iff_of_given ht).2 rfl)

theorem placedText_of_given (ht : metadata.given? key = some (.str t)) (nonempty : t ≠ [])
    {x : Text} : PlacedText document metadata key x ↔ x = t := by
  constructor
  · rintro (⟨hnewer, -⟩ | ⟨empty, -⟩)
    · exact Json.str.inj (Option.some.inj (hnewer.symm.trans ht))
    · exact absurd ((textMember_iff_of_given ht).1 empty).symm nonempty
  · rintro rfl
    exact .newer ht nonempty

/-- Two documents say the same: where their metadata, their address and their sections are looked
up, they find the same. -/
structure Agree (document metadata document' metadata' : Members) : Prop where
  member : MetadataMember document metadata
  member' : MetadataMember document' metadata'
  placed : ∀ key : String, key = "name" ∨ key = "version" →
    ∀ x, PlacedText document metadata key x ↔ PlacedText document' metadata' key x
  texts : ∀ key : String, key = "spec" ∨ key = "description" →
    metadata.given? key = metadata'.given? key
  address : ∀ t, AddressForm document t ↔ AddressForm document' t
  sections : ∀ key ∈ sections, document.get? key = document'.get? key

theorem Agree.symm (h : Agree document metadata document' metadata') :
    Agree document' metadata' document metadata where
  member := h.member'
  member' := h.member
  placed := fun key hkey x => (h.placed key hkey x).symm
  texts := fun key hkey => (h.texts key hkey).symm
  address := fun t => (h.address t).symm
  sections := fun key hkey => (h.sections key hkey).symm

theorem Agree.documentForm (h : Agree document metadata document' metadata') {S : Schema}
    (hS : DocumentForm document S) : DocumentForm document' S := by
  have hsection : ∀ {α : Type} {R : Json → α → Prop} {entries : List α}, ∀ key ∈ Document.sections,
      SectionForm R document key entries → SectionForm R document' key entries := by
    rintro α R entries key hkey ⟨list, hl, hlist⟩
    unfold ListMember at hl
    rw [given?_congr (h.sections key hkey)] at hl
    exact ⟨list, hl, hlist⟩
  obtain ⟨found, hfound, hform⟩ := hS.metadata
  obtain rfl : found = metadata :=
    (metadataMember_iff.1 hfound).2.trans (metadataMember_iff.1 h.member).2.symm
  have hform' : MetadataForm document' metadata' S.metadata := {
    name := (h.placed "name" (.inl rfl) _).1 hform.name
    version := (h.placed "version" (.inr rfl) _).1 hform.version
    spec := (textMember_congr (h.texts "spec" (.inl rfl))).1 hform.spec
    description := (textMember_congr (h.texts "description" (.inr rfl))).1 hform.description }
  exact {
    metadata := ⟨metadata', h.member', hform'⟩
    address := (h.address _).1 hS.address
    instructions := hsection "instructions" (by decide) hS.instructions
    accounts := hsection "accounts" (by decide) hS.accounts
    errors := hsection "errors" (by decide) hS.errors
    types := hsection "types" (by decide) hS.types }

theorem Agree.same (h : Agree document metadata document' metadata') :
    Role.document.Same (.obj document) (.obj document') where
  denotes := fun S => by
    have hdirection : ∀ {d m d' m'}, Agree d m d' m' → Role.document.Denotes (.obj d) S →
        Role.document.Denotes (.obj d') S := by
      rintro d m d' m' h ⟨_, heq, hS⟩
      obtain rfl := Json.obj.inj heq
      exact ⟨d', rfl, h.documentForm hS⟩
    exact ⟨hdirection h, hdirection h.symm⟩
  null := iff_of_false nofun nofun
  named := nofun

theorem agree_textMoved (hkey : key = "name" ∨ key = "version")
    (ht : document.get? key = some (.str t)) (nonempty : t ≠ [])
    (hm : MetadataMember document metadata) (empty : TextMember metadata key []) :
    Agree document metadata (textMoved document metadata key t) (metadata.put key (.str t)) := by
  have hput : (metadata.put key (.str t)).get? key = some (.str t) := by
    rw [Ordered.get?_put, if_pos rfl]
  have hmetadata : ∀ k : Text, k ≠ key →
      metadata.get? k = (metadata.put key (.str t)).get? k := by
    intro k hk
    rw [Ordered.get?_put, if_neg hk]
  have hdocument : ∀ k : Text, k ≠ "metadata" → k ≠ key →
      document.get? k = (textMoved document metadata key t).get? k := by
    intro k hk hkk
    rw [textMoved, Ordered.get?_put, if_neg hk, Ordered.get?_erase, if_neg hkk]
  have hmember : MetadataMember (textMoved document metadata key t) (metadata.put key (.str t)) :=
    .given (by rw [textMoved, Ordered.get?_put, if_pos rfl])
  refine ⟨hm, hmember, ?_, ?_, ?_, ?_⟩
  · intro k hk x
    by_cases hkk : Text.ofString k = key
    · rw [hkk, placedText_of_empty empty (given?_eq_some_iff.2 ⟨ht, by simp⟩),
        placedText_of_given (given?_eq_some_iff.2 ⟨hput, by simp⟩) nonempty]
    · have hne : Text.ofString k ≠ "metadata" := by rcases hk with rfl | rfl <;> decide
      exact placedText_congr (given?_congr (hdocument _ hne hkk)) (given?_congr (hmetadata _ hkk))
  · intro k hk
    have hne : Text.ofString k ≠ key := by
      rcases hk with rfl | rfl <;> rcases hkey with rfl | rfl <;> decide
    exact given?_congr (hmetadata _ hne)
  · intro x
    have hne : Text.ofString "address" ≠ key := by rcases hkey with rfl | rfl <;> decide
    rw [addressForm_iff_of_member hm, addressForm_iff_of_member hmember,
      given?_congr (hdocument "address" (by decide) hne),
      textMember_congr (given?_congr (hmetadata "address" hne))]
  · have hsections : ∀ k ∈ sections, k ≠ "metadata" ∧ k ≠ "name" ∧ k ≠ "version" := by decide
    intro k hk
    obtain ⟨hm, hn, hv⟩ := hsections k hk
    exact hdocument k hm (by rcases hkey with rfl | rfl <;> assumption)

theorem agree_addressMoved (hm : document.get? "metadata" = some (.obj metadata))
    (ht : metadata.get? "address" = some (.str t)) (absent : document.given? "address" = none) :
    Agree document metadata (addressMoved document metadata t)
      (metadata.erase ("address" : Text)) := by
  have hmetadata : ∀ k : Text, k ≠ "address" →
      metadata.get? k = (metadata.erase ("address" : Text)).get? k := by
    intro k hk
    rw [Ordered.get?_erase, if_neg hk]
  have hdocument : ∀ k : Text, k ≠ "metadata" → k ≠ "address" →
      document.get? k = (addressMoved document metadata t).get? k := by
    intro k hk hkk
    rw [addressMoved, Ordered.get?_put, if_neg hkk, Ordered.get?_put, if_neg hk]
  have haddress : (addressMoved document metadata t).given? "address" = some (.str t) :=
    given?_eq_some_iff.2 ⟨by rw [addressMoved, Ordered.get?_put, if_pos rfl], by simp⟩
  have hmember : MetadataMember (addressMoved document metadata t)
      (metadata.erase ("address" : Text)) := by
    refine .given ?_
    rw [addressMoved, Ordered.get?_put, if_neg (by decide), Ordered.get?_put, if_pos rfl]
  refine ⟨.given hm, hmember, ?_, ?_, ?_, ?_⟩
  · intro k hk x
    have hne : Text.ofString k ≠ "metadata" ∧ Text.ofString k ≠ "address" := by
      rcases hk with rfl | rfl <;> decide
    exact placedText_congr (given?_congr (hdocument _ hne.1 hne.2))
      (given?_congr (hmetadata _ hne.2))
  · intro k hk
    have hne : Text.ofString k ≠ "address" := by rcases hk with rfl | rfl <;> decide
    exact given?_congr (hmetadata _ hne)
  · intro x
    rw [addressForm_iff_of_member (.given hm), addressForm_iff_of_member hmember, absent, haddress,
      textMember_iff_of_given (given?_eq_some_iff.2 ⟨ht, by simp⟩)]
    simp [eq_comm]
  · have hsections : ∀ k ∈ sections, k ≠ "metadata" ∧ k ≠ "address" := by decide
    intro k hk
    exact hdocument k (hsections k hk).1 (hsections k hk).2

end Moved

theorem Modernises.same {r : Role} {v v' : Json} (h : Modernises r v v') : r.Same v v' := by
  cases h with
  | flag hr hflag absent => exact same_rename hr hflag absent
  | publicKey => exact same_publicKey
  | reference nonempty => exact same_reference nonempty
  | constant octets => exact same_constant octets
  | text hkey ht nonempty hm empty => exact (agree_textMoved hkey ht nonempty hm empty).same
  | address hm ht absent => exact (agree_addressMoved hm ht absent).same

/-- **A document and the same one with any of its older spellings modernised load alike:** to equal
schemas with equal warnings, or neither loads, in either mode. -/
theorem load_modernised {D D' : Json}
    (h : Relation.ReflTransGen (Within (OrUnread Modernises) .document) D D') : LoadAlike D D' :=
  .of_rewrites (fun _ _ _ => Modernises.same) h

/-- A document with a flag in a group, a type and a name in older spelling. -/
def olderSample : Json :=
  .obj [("name", .str "vault"), ("instructions", .arr [.obj [("name", .str "send"),
    ("discriminator", .ofBytes [1, 2, 3, 4, 5, 6, 7, 8]),
    ("accounts", .arr [.obj [("name", .str "parties"), ("accounts", .arr [
      .obj [("name", .str "sender"), ("isMut", .bool true)]])]]),
    ("args", .arr [.obj [("name", .str "to"), ("type", .str "publicKey")]])]])]

/-- The same document in newer spelling. -/
def newerSample : Json :=
  .obj [("instructions", .arr [.obj [("name", .str "send"),
    ("discriminator", .ofBytes [1, 2, 3, 4, 5, 6, 7, 8]),
    ("accounts", .arr [.obj [("name", .str "parties"), ("accounts", .arr [
      .obj [("name", .str "sender"), ("writable", .bool true)]])]]),
    ("args", .arr [.obj [("name", .str "to"), ("type", .str "pubkey")]])]]),
    ("metadata", .obj [("name", .str "vault")])]

/-- The schema that both load to. -/
def olderSampleSchema : Schema where
  metadata := { name := "vault" }
  instructions := [{
    name := "send"
    discriminator := [1, 2, 3, 4, 5, 6, 7, 8]
    accounts := [{ name := "sender", writable := true }]
    args := [⟨"to", .primitive .pubkey⟩] }]

theorem olderSample_loads_alike :
    Relation.ReflTransGen (Within (OrUnread Modernises) .document) olderSample newerSample ∧
    LoadAlike olderSample newerSample ∧
    (load true (.value olderSample)).outcome = .ok olderSampleSchema := by
  have hsteps :
      Relation.ReflTransGen (Within (OrUnread Modernises) .document) olderSample newerSample := by
    refine .head (.member (p := ⟨"instructions", .list .instruction, .optional⟩) (by decide) rfl
      (.item (i := 0) rfl rfl (.member (p := ⟨"accounts", .list .slot, .optional⟩) (by decide) rfl
        (.item (i := 0) rfl rfl (.member (p := ⟨"accounts", .list .slot, .optional⟩) (by decide) rfl
          (.item (i := 0) rfl rfl (.here (.inl (@Modernises.flag _ _ "isMut" "writable" (.inl rfl)
            (by decide) rfl))))))))) ?_
    refine .head (.member (p := ⟨"instructions", .list .instruction, .optional⟩) (by decide) rfl
      (.item (i := 0) rfl rfl (.member (p := ⟨"args", .list .arg, .optional⟩) (by decide) rfl
        (.item (i := 0) rfl rfl (.member (p := ⟨"type", .type, .required⟩) (by decide) rfl
          (.here (.inl .publicKey))))))) ?_
    exact .single (.here (.inl (@Modernises.text _ [] "name" "vault" (.inl rfl) rfl (by decide)
      (.absent rfl) ⟨none, rfl, rfl⟩)))
  exact ⟨hsteps, load_modernised hsteps, by decide +kernel⟩

end Document
end AnchorIdl
