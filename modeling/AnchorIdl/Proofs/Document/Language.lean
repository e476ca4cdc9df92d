/-
# The language of documents

Which JSON values are documents, said without the readers: part by part, what
its members may be.  Absent and null mean the same except where a member has to
be there (`MustHold`).

| part | has to have | may have |
| --- | --- | --- |
| seed | a kind, and what that kind needs | – |
| rule for an address | seeds, at least one | a program |
| account slot | a name | flags, an address, a rule, documentation |
| group of slots | a name, a member `accounts` | items |
| instruction | a name, a discriminator | accounts, arguments, documentation |
| argument | a name, a type | – |
| account layout | a name | what a slot may have, a discriminator |
| error | a code, a name | a message |
| custom type | a name, a type | documentation |

The name, the version and the address of the program have two places, and the
older one counts only where the newer one says nothing (`IsDocument`).  The main
statement, `load_succeeds_iff`, is that lenient loading accepts exactly this
language, save for values that no text has: a code of two errors may not have
more digits than can be written (`CodesShown`).
-/

import AnchorIdl.Proofs.Document.Overlong

namespace AnchorIdl
namespace Document

/-! ### The parts of a document -/

/-- The member named `key` is absent, null, or satisfies `P`. -/
def MayHold (P : Json → Prop) (members : Members) (key : Text) : Prop :=
  ∀ value, members.given? key = some value → P value

/-- There is a member named `key`, and it satisfies `P`. -/
def MustHold (P : Json → Prop) (members : Members) (key : Text) : Prop :=
  ∃ value, members.get? key = some value ∧ P value

/-- A text. -/
def IsText : Json → Prop
  | .str _ => True
  | _ => False

/-- A text that is not empty. -/
def IsName : Json → Prop
  | .str t => t ≠ []
  | _ => False

/-- A boolean. -/
def IsBoolean : Json → Prop
  | .bool _ => True
  | _ => False

/-- An integer; no boolean and no number with a fraction or an exponent is one. -/
def IsInteger : Json → Prop
  | .int _ => True
  | _ => False

/-- An integer from 0 to 255. -/
def IsByte : Json → Prop
  | .int n => 0 ≤ n ∧ n ≤ 255
  | _ => False

/-- A list of values that satisfy `P`. -/
def IsListOf (P : Json → Prop) : Json → Prop
  | .arr list => ∀ item ∈ list, P item
  | _ => False

/-- A list of eight bytes. -/
def IsDiscriminator : Json → Prop
  | .arr list => list.length = 8 ∧ ∀ item ∈ list, IsByte item
  | _ => False

/-- A type expression. -/
def IsType (raw : Json) : Prop := ∃ t, TypeForm raw t

/-- The first of some spellings that is given, if any, is a boolean. -/
def HasFlag (members : Members) (spellings : List Text) : Prop :=
  ∀ value, spellings.findSome? members.given? = some value → IsBoolean value

/-- A seed, by its kind. -/
inductive IsSeed : Json → Prop
  | constantText {members : Members} {t : Text}
      (kind : members.get? "kind" = some (.str "const"))
      (value : members.get? "value" = some (.str t)) (encodable : ∀ c ∈ t, c.isSurrogate = false) :
      IsSeed (.obj members)
  | constantBytes {members : Members} (kind : members.get? "kind" = some (.str "const"))
      (value : MustHold (IsListOf IsByte) members "value") : IsSeed (.obj members)
  | string {members : Members} (kind : members.get? "kind" = some (.str "string"))
      (value : MustHold IsText members "value") : IsSeed (.obj members)
  | arg {members : Members} (kind : members.get? "kind" = some (.str "arg"))
      (path : MustHold IsName members "path") : IsSeed (.obj members)
  | account {members : Members} (kind : members.get? "kind" = some (.str "account"))
      (path : MustHold IsName members "path") (account : MayHold IsText members "account") :
      IsSeed (.obj members)

/-- The rule for a program-derived address. -/
inductive IsPda : Json → Prop
  | mk {members : Members} {list : List Json} (seeds : members.get? "seeds" = some (.arr list))
      (nonempty : list ≠ []) (each : ∀ item ∈ list, IsSeed item)
      (program : MayHold IsSeed members "program") : IsPda (.obj members)

/-- The members of an account slot. -/
structure IsSlot (members : Members) : Prop where
  name : MustHold IsName members "name"
  writable : HasFlag members ["writable", "isMut"]
  signer : HasFlag members ["signer", "isSigner"]
  optional : HasFlag members ["optional", "isOptional"]
  address : MayHold IsText members "address"
  pda : MayHold IsPda members "pda"
  docs : MayHold (IsListOf IsText) members "docs"

/-- An item of an instruction's accounts: a slot, or a group of items. -/
inductive IsAccountItem : Json → Prop
  | slot {members : Members} (single : members.get? "accounts" = none) (slot : IsSlot members) :
      IsAccountItem (.obj members)
  | group {members : Members} {list : List Json} (several : members.get? "accounts" ≠ none)
      (name : MustHold IsName members "name") (hl : ListMember members "accounts" list)
      (each : ∀ item ∈ list, IsAccountItem item) : IsAccountItem (.obj members)

/-- An argument of an instruction. -/
inductive IsArg : Json → Prop
  | mk {members : Members} (name : MustHold IsName members "name")
      (type : MustHold IsType members "type") : IsArg (.obj members)

/-- An instruction. -/
inductive IsInstruction : Json → Prop
  | mk {members : Members} (name : MustHold IsName members "name")
      (discriminator : MustHold IsDiscriminator members "discriminator")
      (accounts : MayHold (IsListOf IsAccountItem) members "accounts")
      (args : MayHold (IsListOf IsArg) members "args")
      (docs : MayHold (IsListOf IsText) members "docs") : IsInstruction (.obj members)

/-- An account layout. -/
inductive IsAccountDefinition : Json → Prop
  | mk {members : Members} (slot : IsSlot members)
      (discriminator : MayHold IsDiscriminator members "discriminator") :
      IsAccountDefinition (.obj members)

/-- An error. -/
inductive IsError : Json → Prop
  | mk {members : Members} (code : MustHold IsInteger members "code")
      (name : MustHold IsName members "name") (msg : MayHold IsText members "msg") :
      IsError (.obj members)

/-- A custom type. -/
inductive IsTypeDefinition : Json → Prop
  | mk {members : Members} (name : MustHold IsName members "name")
      (type : MustHold IsType members "type") (docs : MayHold (IsListOf IsText) members "docs") :
      IsTypeDefinition (.obj members)

/-- The members under `metadata`; none if it is no object. -/
def metadataOf (document : Members) : Members :=
  match document.get? "metadata" with
  | some (.obj members) => members
  | _ => []

/-- The members of a document. -/
structure IsDocument (document : Members) : Prop where
  metadata : ∀ value, document.get? "metadata" = some value →
    value.isBlank = true ∨ ∃ members, value = .obj members
  metadataTexts : ∀ key : String, key ∈ ["name", "version", "spec", "description"] →
    MayHold IsText (metadataOf document) key
  name : ¬ MustHold IsName (metadataOf document) "name" → MayHold IsText document "name"
  version : ¬ MustHold IsName (metadataOf document) "version" → MayHold IsText document "version"
  address : MayHold IsText document "address"
  olderAddress : document.given? "address" = none → MayHold IsText (metadataOf document) "address"
  instructions : MayHold (IsListOf IsInstruction) document "instructions"
  accounts : MayHold (IsListOf IsAccountDefinition) document "accounts"
  errors : MayHold (IsListOf IsError) document "errors"
  types : MayHold (IsListOf IsTypeDefinition) document "types"

/-! ### Members that denote something -/

theorem exists_forall₂_iff {α : Type} {R : Json → α → Prop} {P : Json → Prop} {list : List Json}
    (h : ∀ item ∈ list, P item ↔ ∃ x, R item x) :
    (∃ xs, List.Forall₂ R list xs) ↔ ∀ item ∈ list, P item := by
  induction list with
  | nil => exact ⟨fun _ => by simp, fun _ => ⟨[], .nil⟩⟩
  | cons item rest ih =>
    rw [List.forall_mem_cons] at h ⊢
    rw [← ih h.2, h.1]
    constructor
    · rintro ⟨_, h⟩
      cases h with
      | cons head tail => exact ⟨⟨_, head⟩, _, tail⟩
    · rintro ⟨⟨x, head⟩, xs, tail⟩
      exact ⟨x :: xs, .cons head tail⟩

theorem mayHold_listOf_iff {P : Json → Prop} {members : Members} {key : Text} :
    MayHold (IsListOf P) members key ↔
      ∃ list, ListMember members key list ∧ ∀ item ∈ list, P item := by
  unfold MayHold ListMember
  cases members.given? key with
  | none => simp
  | some value => cases value <;> simp [IsListOf]

theorem mayHold_list_iff {α : Type} {R : Json → α → Prop} {P : Json → Prop} {members : Members}
    {key : Text} (h : ∀ raw, P raw ↔ ∃ x, R raw x) :
    MayHold (IsListOf P) members key ↔
      ∃ xs, ∃ list, ListMember members key list ∧ List.Forall₂ R list xs := by
  rw [mayHold_listOf_iff, exists_comm]
  refine exists_congr fun list => ?_
  rw [exists_and_left, exists_forall₂_iff fun raw _ => h raw]

theorem mayHold_option_iff {α : Type} {R : Json → α → Prop} {P : Json → Prop} {members : Members}
    {key : Text} (h : ∀ raw, P raw ↔ ∃ x, R raw x) :
    MayHold P members key ↔ ∃ x, OptionMember R members key x := by
  unfold MayHold OptionMember
  cases members.given? key with
  | none => exact ⟨fun _ => ⟨none, .none⟩, fun _ _ => nofun⟩
  | some raw =>
    constructor
    · intro hP
      obtain ⟨x, hx⟩ := (h raw).1 (hP raw rfl)
      exact ⟨some x, .some hx⟩
    · rintro ⟨_, ⟨hx⟩⟩ value hv
      exact Option.some.inj hv ▸ (h raw).2 ⟨_, hx⟩

theorem isText_iff {raw : Json} : IsText raw ↔ ∃ t, raw = .str t := by
  cases raw <;> simp [IsText]

theorem isName_iff {raw : Json} : IsName raw ↔ ∃ t, raw = .str t ∧ t ≠ [] := by
  cases raw <;> simp [IsName]

theorem mayHold_text_iff {members : Members} {key : Text} :
    MayHold IsText members key ↔ ∃ t : Option Text, members.given? key = t.map .str := by
  unfold MayHold
  cases members.given? key with
  | none => exact ⟨fun _ => ⟨none, rfl⟩, fun _ _ => nofun⟩
  | some raw => simp [isText_iff, Option.exists, eq_comm]

theorem mayHold_text_iff_textMember {members : Members} {key : Text} :
    MayHold IsText members key ↔ ∃ t, TextMember members key t := by
  rw [mayHold_text_iff]
  exact ⟨fun ⟨given, h⟩ => ⟨_, given, h, rfl⟩, fun ⟨_, given, h, _⟩ => ⟨given, h⟩⟩

theorem mustHold_name_iff {members : Members} {key : Text} :
    MustHold IsName members key ↔ ∃ t, members.get? key = some (.str t) ∧ t ≠ [] := by
  simp only [MustHold, isName_iff]
  constructor
  · rintro ⟨_, h, t, rfl, nonempty⟩
    exact ⟨t, h, nonempty⟩
  · rintro ⟨t, h, nonempty⟩
    exact ⟨_, h, t, rfl, nonempty⟩

theorem mayHold_docs_iff {members : Members} :
    MayHold (IsListOf IsText) members "docs" ↔
      ∃ lines : List Text, ListMember members "docs" (lines.map .str) := by
  rw [mayHold_list_iff fun _ => isText_iff]
  simp [forall₂_eq_map_iff]

theorem hasFlag_iff {members : Members} {spellings : List Text} :
    HasFlag members spellings ↔ ∃ b, FlagMember members spellings b := by
  unfold HasFlag FlagMember
  cases spellings.findSome? members.given? with
  | none => simp
  | some value => cases value <;> simp [IsBoolean]

theorem isByte_iff {raw : Json} : IsByte raw ↔ ∃ b : UInt8, raw = .int b.toNat := by
  cases raw with
  | int n =>
    simp only [IsByte, Json.int.injEq]
    constructor
    · rintro ⟨h0, h255⟩
      have hn : n.toNat < 256 := by omega
      exact ⟨UInt8.ofNat n.toNat, by rw [UInt8.toNat_ofNat_of_lt' hn]; omega⟩
    · rintro ⟨b, rfl⟩
      have hb := b.toNat_lt
      omega
  | _ => simp [IsByte]

theorem isListOf_byte_iff {raw : Json} : IsListOf IsByte raw ↔ ∃ bytes, raw = .ofBytes bytes := by
  cases raw with
  | arr list =>
    simp only [IsListOf, Json.ofBytes, Json.arr.injEq]
    rw [← exists_forall₂_iff fun _ _ => isByte_iff]
    exact exists_congr fun bytes => forall₂_eq_map_iff
  | _ => simp [IsListOf, Json.ofBytes]

theorem isDiscriminator_iff {raw : Json} :
    IsDiscriminator raw ↔ ∃ bytes, DiscriminatorForm raw bytes := by
  cases raw with
  | arr list =>
    have hbytes : (∀ item ∈ list, IsByte item) ↔ ∃ bytes, Json.arr list = .ofBytes bytes :=
      @isListOf_byte_iff (.arr list)
    simp only [IsDiscriminator, hbytes, DiscriminatorForm]
    constructor
    · rintro ⟨hlength, bytes, h⟩
      refine ⟨bytes, h, ?_⟩
      rw [Json.arr.inj h, List.length_map] at hlength
      exact hlength
    · rintro ⟨bytes, h, hlength⟩
      refine ⟨?_, bytes, h⟩
      rw [Json.arr.inj h, List.length_map]
      exact hlength
  | _ => simp [IsDiscriminator, DiscriminatorForm, Json.ofBytes]

/-! ### Parts that denote something -/

theorem isSeed_iff {raw : Json} : IsSeed raw ↔ ∃ s, SeedForm raw s := by
  constructor
  · rintro (⟨kind, value, encodable⟩ | ⟨kind, _, value, hbytes⟩ | ⟨kind, _, value, htext⟩ |
      ⟨kind, hpath⟩ | ⟨kind, hpath, haccount⟩)
    · obtain ⟨bytes, octets⟩ := Utf8.encode_succeeds_iff.2 encodable
      exact ⟨_, .constantText kind value octets⟩
    · obtain ⟨bytes, rfl⟩ := isListOf_byte_iff.1 hbytes
      exact ⟨_, .constantBytes kind value⟩
    · obtain ⟨t, rfl⟩ := isText_iff.1 htext
      exact ⟨_, .string kind value⟩
    · obtain ⟨path, hp, nonempty⟩ := mustHold_name_iff.1 hpath
      exact ⟨_, .arg kind hp nonempty⟩
    · obtain ⟨path, hp, nonempty⟩ := mustHold_name_iff.1 hpath
      obtain ⟨account, ha⟩ := mayHold_text_iff.1 haccount
      exact ⟨_, .account kind hp nonempty ha⟩
  · rintro ⟨_, ⟨kind, value, octets⟩ | ⟨kind, value⟩ | ⟨kind, value⟩ | ⟨kind, hp, nonempty⟩ |
      ⟨kind, hp, nonempty, ha⟩⟩
    · exact .constantText kind value (Utf8.encode_succeeds_iff.1 ⟨_, octets⟩)
    · exact .constantBytes kind ⟨_, value, isListOf_byte_iff.2 ⟨_, rfl⟩⟩
    · exact .string kind ⟨_, value, trivial⟩
    · exact .arg kind (mustHold_name_iff.2 ⟨_, hp, nonempty⟩)
    · exact .account kind (mustHold_name_iff.2 ⟨_, hp, nonempty⟩) (mayHold_text_iff.2 ⟨_, ha⟩)

theorem isPda_iff {raw : Json} : IsPda raw ↔ ∃ p, PdaForm raw p := by
  constructor
  · rintro ⟨hl, nonempty, each, program⟩
    obtain ⟨seeds, hs⟩ := (exists_forall₂_iff fun _ _ => isSeed_iff).2 each
    obtain ⟨program, hp⟩ := (mayHold_option_iff fun _ => isSeed_iff).1 program
    exact ⟨⟨seeds, program⟩, .mk hl nonempty hs hp⟩
  · rintro ⟨p, hl, nonempty, hs, hp⟩
    exact .mk hl nonempty ((exists_forall₂_iff fun _ _ => isSeed_iff).1 ⟨_, hs⟩)
      ((mayHold_option_iff fun _ => isSeed_iff).2 ⟨_, hp⟩)

theorem isSlot_iff {members : Members} : IsSlot members ↔ ∃ a, SlotForm members a := by
  constructor
  · intro h
    obtain ⟨name, hname⟩ := mustHold_name_iff.1 h.name
    obtain ⟨writable, hwritable⟩ := hasFlag_iff.1 h.writable
    obtain ⟨signer, hsigner⟩ := hasFlag_iff.1 h.signer
    obtain ⟨optional, hoptional⟩ := hasFlag_iff.1 h.optional
    obtain ⟨address, haddress⟩ := mayHold_text_iff.1 h.address
    obtain ⟨pda, hpda⟩ := (mayHold_option_iff fun _ => isPda_iff).1 h.pda
    obtain ⟨docs, hdocs⟩ := mayHold_docs_iff.1 h.docs
    exact ⟨{ name, writable, signer, optional, address, pda, docs },
      hname, hwritable, hsigner, hoptional, haddress, hpda, hdocs⟩
  · rintro ⟨a, h⟩
    exact {
      name := mustHold_name_iff.2 ⟨_, h.name⟩
      writable := hasFlag_iff.2 ⟨_, h.writable⟩
      signer := hasFlag_iff.2 ⟨_, h.signer⟩
      optional := hasFlag_iff.2 ⟨_, h.optional⟩
      address := mayHold_text_iff.2 ⟨_, h.address⟩
      pda := (mayHold_option_iff fun _ => isPda_iff).2 ⟨_, h.pda⟩
      docs := mayHold_docs_iff.2 ⟨_, h.docs⟩ }

theorem slotsForms_of_forall {list : List Json} (h : ∀ item ∈ list, ∃ slots, SlotsForm item slots) :
    ∃ slots, SlotsForms list slots := by
  obtain ⟨groups, hgroups⟩ := (exists_forall₂_iff fun _ _ => Iff.rfl).2 h
  exact ⟨_, slotsForms_of_forall₂ hgroups⟩

theorem slotsForm_of_isAccountItem {raw : Json} (h : IsAccountItem raw) :
    ∃ slots, SlotsForm raw slots := by
  induction h with
  | slot single slot =>
    obtain ⟨a, ha⟩ := isSlot_iff.1 slot
    exact ⟨[a], .slot single ha⟩
  | group several name hl _ ih =>
    obtain ⟨name, hn⟩ := mustHold_name_iff.1 name
    obtain ⟨slots, hs⟩ := slotsForms_of_forall ih
    exact ⟨slots, .group several hn hl hs⟩

mutual

theorem SlotsForm.isAccountItem {raw : Json} {slots : List AccountRef} :
    SlotsForm raw slots → IsAccountItem raw
  | .slot single slot => .slot single (isSlot_iff.2 ⟨_, slot⟩)
  | .group several hn hl hs =>
    .group several (mustHold_name_iff.2 ⟨_, hn⟩) hl hs.isAccountItem

theorem SlotsForms.isAccountItem {list : List Json} {slots : List AccountRef} :
    SlotsForms list slots → ∀ item ∈ list, IsAccountItem item
  | .nil => by simp
  | .cons head tail => List.forall_mem_cons.2 ⟨head.isAccountItem, tail.isAccountItem⟩

end

theorem isAccountItem_iff {raw : Json} : IsAccountItem raw ↔ ∃ slots, SlotsForm raw slots :=
  ⟨slotsForm_of_isAccountItem, fun ⟨_, h⟩ => h.isAccountItem⟩

theorem isArg_iff {raw : Json} : IsArg raw ↔ ∃ a, ArgForm raw a := by
  constructor
  · rintro ⟨hname, type, ht, t, htype⟩
    obtain ⟨name, hn⟩ := mustHold_name_iff.1 hname
    exact ⟨⟨name, t⟩, .mk hn ht htype⟩
  · rintro ⟨a, hn, ht, htype⟩
    exact .mk (mustHold_name_iff.2 ⟨_, hn⟩) ⟨_, ht, _, htype⟩

theorem isInstruction_iff {raw : Json} : IsInstruction raw ↔ ∃ x, InstructionForm raw x := by
  constructor
  · rintro ⟨hname, ⟨raw, hd, hdisc⟩, haccounts, hargs, hdocs⟩
    obtain ⟨name, hn⟩ := mustHold_name_iff.1 hname
    obtain ⟨bytes, hbytes⟩ := isDiscriminator_iff.1 hdisc
    obtain ⟨items, hi, hitems⟩ := mayHold_listOf_iff.1 haccounts
    obtain ⟨accounts, ha⟩ := slotsForms_of_forall fun item h => isAccountItem_iff.1 (hitems item h)
    obtain ⟨args, list, hl, heach⟩ := (mayHold_list_iff fun _ => isArg_iff).1 hargs
    obtain ⟨docs, hdocs⟩ := mayHold_docs_iff.1 hdocs
    exact ⟨{ name, discriminator := bytes, accounts, args, docs },
      .mk hn hi ha hl heach hd hbytes hdocs⟩
  · rintro ⟨x, hn, hi, ha, hl, heach, hd, hbytes, hdocs⟩
    exact .mk (mustHold_name_iff.2 ⟨_, hn⟩) ⟨_, hd, isDiscriminator_iff.2 ⟨_, hbytes⟩⟩
      (mayHold_listOf_iff.2 ⟨_, hi, ha.isAccountItem⟩)
      ((mayHold_list_iff fun _ => isArg_iff).2 ⟨_, _, hl, heach⟩) (mayHold_docs_iff.2 ⟨_, hdocs⟩)

theorem isAccountDefinition_iff {raw : Json} :
    IsAccountDefinition raw ↔ ∃ a, AccountDefinitionForm raw a := by
  constructor
  · rintro ⟨slot, hdisc⟩
    obtain ⟨a, ha⟩ := isSlot_iff.1 slot
    obtain ⟨discriminator, hd⟩ := (mayHold_option_iff fun _ => isDiscriminator_iff).1 hdisc
    exact ⟨⟨a, discriminator⟩, .mk ha hd⟩
  · rintro ⟨a, ha, hd⟩
    exact .mk (isSlot_iff.2 ⟨_, ha⟩) ((mayHold_option_iff fun _ => isDiscriminator_iff).2 ⟨_, hd⟩)

theorem isError_iff {raw : Json} : IsError raw ↔ ∃ e, ErrorForm raw e := by
  constructor
  · rintro ⟨⟨value, hc, hcode⟩, hname, hmsg⟩
    obtain ⟨name, hn⟩ := mustHold_name_iff.1 hname
    obtain ⟨msg, hm⟩ := mayHold_text_iff.1 hmsg
    cases value with
    | int code => exact ⟨⟨code, name, msg.getD []⟩, .mk hc hn hm rfl⟩
    | _ => exact absurd hcode id
  · rintro ⟨e, hc, hn, hm, _⟩
    exact .mk ⟨_, hc, trivial⟩ (mustHold_name_iff.2 ⟨_, hn⟩) (mayHold_text_iff.2 ⟨_, hm⟩)

theorem isTypeDefinition_iff {raw : Json} :
    IsTypeDefinition raw ↔ ∃ d, TypeDefinitionForm raw d := by
  constructor
  · rintro ⟨hname, ⟨type, ht, t, htype⟩, hdocs⟩
    obtain ⟨name, hn⟩ := mustHold_name_iff.1 hname
    obtain ⟨docs, hd⟩ := mayHold_docs_iff.1 hdocs
    exact ⟨⟨name, t, docs⟩, .mk hn ht htype hd⟩
  · rintro ⟨d, hn, ht, htype, hd⟩
    exact .mk (mustHold_name_iff.2 ⟨_, hn⟩) ⟨_, ht, _, htype⟩ (mayHold_docs_iff.2 ⟨_, hd⟩)

/-! ### Metadata, address and sections -/

theorem metadataMember_iff {document metadata : Members} :
    MetadataMember document metadata ↔
      (∀ value, document.get? "metadata" = some value →
        value.isBlank = true ∨ ∃ members, value = .obj members) ∧
      metadata = metadataOf document := by
  constructor
  · rintro (h | ⟨h, hblank⟩ | h)
    · simp [metadataOf, h]
    · refine ⟨fun value hv => .inl ?_, ?_⟩
      · rwa [Option.some.inj (hv.symm.trans h)]
      · unfold metadataOf
        split
        · next members hm =>
          obtain rfl := Option.some.inj (h.symm.trans hm)
          cases members with
          | nil => rfl
          | cons _ _ => simp [Json.isBlank] at hblank
        · rfl
    · simp [metadataOf, h]
  · rintro ⟨h, rfl⟩
    unfold metadataOf
    split
    · next members hm => exact .given hm
    · next hm =>
      cases hget : document.get? "metadata" with
      | none => exact .absent hget
      | some value =>
        obtain hblank | ⟨members, rfl⟩ := h value hget
        · exact .blank hget hblank
        · exact absurd hget (hm members)

theorem placedText_iff {document metadata : Members} {key : Text} :
    (∃ t, PlacedText document metadata key t) ↔ MayHold IsText metadata key ∧
      (¬ MustHold IsName metadata key → MayHold IsText document key) := by
  constructor
  · rintro ⟨t, ⟨hn, nonempty⟩ | ⟨hempty, h⟩⟩
    · refine ⟨mayHold_text_iff.2 ⟨some t, hn⟩, fun hnot => absurd ?_ hnot⟩
      exact mustHold_name_iff.2 ⟨t, (given?_eq_some_iff.1 hn).1, nonempty⟩
    · exact ⟨mayHold_text_iff_textMember.2 ⟨_, hempty⟩,
        fun _ => mayHold_text_iff_textMember.2 ⟨_, h⟩⟩
  · rintro ⟨hmeta, hdoc⟩
    by_cases hname : MustHold IsName metadata key
    · obtain ⟨t, h, nonempty⟩ := mustHold_name_iff.1 hname
      exact ⟨t, .newer (given?_eq_some_iff.2 ⟨h, by simp⟩) nonempty⟩
    · obtain ⟨given, hgiven⟩ := mayHold_text_iff.1 hmeta
      obtain ⟨t, h⟩ := mayHold_text_iff_textMember.1 (hdoc hname)
      refine ⟨t, .older ⟨given, hgiven, ?_⟩ h⟩
      cases given with
      | none => rfl
      | some newer =>
        by_contra hne
        exact hname (mustHold_name_iff.2 ⟨newer, (given?_eq_some_iff.1 hgiven).1, hne⟩)

theorem addressForm_iff {document : Members} :
    (∃ t, AddressForm document t) ↔ MayHold IsText document "address" ∧
      (document.given? "address" = none → MayHold IsText (metadataOf document) "address") := by
  constructor
  · rintro ⟨t, h | ⟨habsent, hm, h⟩ | ⟨habsent, hm⟩⟩
    · exact ⟨mayHold_text_iff.2 ⟨some t, h⟩, fun habsent => by simp [habsent] at h⟩
    · refine ⟨mayHold_text_iff.2 ⟨none, habsent⟩, fun _ => ?_⟩
      simp only [metadataOf, hm]
      exact mayHold_text_iff_textMember.2 ⟨t, h⟩
    · refine ⟨mayHold_text_iff.2 ⟨none, habsent⟩, fun _ => ?_⟩
      unfold metadataOf
      split
      · next members h => exact absurd h (hm members)
      · exact fun _ => nofun
  · rintro ⟨hdoc, hmeta⟩
    obtain ⟨given, hgiven⟩ := mayHold_text_iff.1 hdoc
    cases given with
    | some t => exact ⟨t, .newer hgiven⟩
    | none =>
      have holder := hmeta hgiven
      unfold metadataOf at holder
      split at holder
      · next members hm =>
        obtain ⟨t, h⟩ := mayHold_text_iff_textMember.1 holder
        exact ⟨t, .older hgiven hm h⟩
      · next hm => exact ⟨[], .absent hgiven hm⟩

theorem isDocument_iff {document : Members} :
    IsDocument document ↔ ∃ S, DocumentForm document S := by
  constructor
  · intro h
    have htexts : ∀ key : String, key ∈ ["name", "version", "spec", "description"] →
        ∃ t, TextMember (metadataOf document) key t :=
      fun key hkey => mayHold_text_iff_textMember.1 (h.metadataTexts key hkey)
    obtain ⟨name, hname⟩ := placedText_iff.2 ⟨h.metadataTexts "name" (by simp), h.name⟩
    obtain ⟨version, hversion⟩ := placedText_iff.2 ⟨h.metadataTexts "version" (by simp), h.version⟩
    obtain ⟨spec, hspec⟩ := htexts "spec" (by simp)
    obtain ⟨description, hdescription⟩ := htexts "description" (by simp)
    obtain ⟨address, haddress⟩ := addressForm_iff.2 ⟨h.address, h.olderAddress⟩
    obtain ⟨instructions, hi⟩ := (mayHold_list_iff fun _ => isInstruction_iff).1 h.instructions
    obtain ⟨accounts, ha⟩ := (mayHold_list_iff fun _ => isAccountDefinition_iff).1 h.accounts
    obtain ⟨errors, he⟩ := (mayHold_list_iff fun _ => isError_iff).1 h.errors
    obtain ⟨types, ht⟩ := (mayHold_list_iff fun _ => isTypeDefinition_iff).1 h.types
    have hmetadata := metadataMember_iff.2 ⟨h.metadata, rfl⟩
    exact ⟨⟨address, ⟨name, version, spec, description⟩, instructions, accounts, errors, types⟩,
      ⟨_, hmetadata, hname, hversion, hspec, hdescription⟩, haddress, hi, ha, he, ht⟩
  · rintro ⟨S, h⟩
    obtain ⟨metadata, hmember, hm⟩ := h.metadata
    obtain ⟨hmetadata, rfl⟩ := metadataMember_iff.1 hmember
    obtain ⟨hname, holderName⟩ := placedText_iff.1 ⟨_, hm.name⟩
    obtain ⟨hversion, holderVersion⟩ := placedText_iff.1 ⟨_, hm.version⟩
    obtain ⟨haddress, holderAddress⟩ := addressForm_iff.1 ⟨_, h.address⟩
    refine {
      metadata := hmetadata
      metadataTexts := ?_
      name := holderName
      version := holderVersion
      address := haddress
      olderAddress := holderAddress
      instructions := (mayHold_list_iff fun _ => isInstruction_iff).2 ⟨_, h.instructions⟩
      accounts := (mayHold_list_iff fun _ => isAccountDefinition_iff).2 ⟨_, h.accounts⟩
      errors := (mayHold_list_iff fun _ => isError_iff).2 ⟨_, h.errors⟩
      types := (mayHold_list_iff fun _ => isTypeDefinition_iff).2 ⟨_, h.types⟩ }
    simp only [List.mem_cons, List.not_mem_nil, or_false]
    rintro key (rfl | rfl | rfl | rfl)
    · exact hname
    · exact hversion
    · exact mayHold_text_iff_textMember.2 ⟨_, hm.spec⟩
    · exact mayHold_text_iff_textMember.2 ⟨_, hm.description⟩

theorem load_lenient_succeeds_iff {raw : Json} :
    (∃ S, (load false (.value raw)).outcome = .ok S) ↔
      ∃ document, raw = .obj document ∧ IsDocument document ∧ CodesShown document := by
  simp only [load_eq_ok_iff, isDocument_iff, reduceCtorEq, false_implies, and_true]
  constructor
  · rintro ⟨S, ⟨document, rfl, h⟩, hshown⟩
    exact ⟨document, rfl, ⟨S, h⟩, h.codesShown_iff.1 hshown⟩
  · rintro ⟨document, rfl, ⟨S, h⟩, hshown⟩
    exact ⟨S, ⟨document, rfl, h⟩, h.codesShown_iff.2 hshown⟩

/-- **Lenient loading accepts exactly the language of documents.**  What JSON is decoded to has no
integer with more digits than can be written, and then nothing else is asked for; of other values
no such integer may be the code of two errors. -/
theorem load_succeeds_iff {raw : Json} :
    (raw.Short → ((∃ S, (load false (.value raw)).outcome = .ok S) ↔
      ∃ document, raw = .obj document ∧ IsDocument document)) ∧
    ((∃ S, (load false (.value raw)).outcome = .ok S) ↔
      ∃ document, raw = .obj document ∧ IsDocument document ∧ CodesShown document) := by
  refine ⟨fun hshort => ?_, load_lenient_succeeds_iff⟩
  rw [load_lenient_succeeds_iff]
  refine exists_congr fun document => and_congr_right ?_
  rintro rfl
  refine and_iff_left_of_imp fun _ => ?_
  by_contra hcodes
  exact (Unshowable.doubled hcodes).not_short hshort

end Document
end AnchorIdl
