/-
# What the parts of a document denote

`TypeForm` says which JSON values are type expressions and what they denote.
Here is the same for every other part: `SeedForm raw s` says that the value `raw`
is a seed of a document and denotes `s`, and so on up to `DocumentForm`.  A
relation speaks of members and values only; each reader yields exactly what its
relation says (`readSeed_eq_ok_iff`, …, `load_eq_ok_iff`), at whatever place the
part stands.

A group of account slots denotes the slots of its items from left to right, so
an item denotes a list of slots (`SlotsForm`).
-/

import AnchorIdl.Document.Load
import AnchorIdl.Proofs.Document.Copies
import AnchorIdl.Proofs.Document.TypeForm
import Mathlib.Data.Option.Basic

namespace AnchorIdl
namespace Document

/-! ### Members -/

/-- The part named `key`, if it is given, denotes `x`. -/
def OptionMember {α : Type} (R : Json → α → Prop) (members : Members) (key : Text)
    (x : Option α) : Prop :=
  Option.Rel R (members.given? key) x

theorem mapM_given?_eq_ok_iff {α : Type} {R : Json → α → Prop} {members : Members} {key : Text}
    {read : Json → Reading α} {x : Option α} (h : ∀ raw y, read raw = .ok y ↔ R raw y) :
    (members.given? key).mapM read = .ok x ↔ OptionMember R members key x := by
  unfold OptionMember
  cases members.given? key with
  | none => cases x <;> simp
  | some raw =>
    cases x with
    | none => simp [Functor.map, map_eq_ok]
    | some y => simp [Functor.map, map_eq_ok, h]

/-- The boolean under the first of some spellings that is given, false if none is. -/
def FlagMember (members : Members) (spellings : List Text) (b : Bool) : Prop :=
  (spellings.findSome? members.given?).getD (.bool false) = .bool b

theorem flag_eq_ok_iff {place : Place} {members : Members} {spellings : List Text} {b : Bool} :
    flag place members spellings = .ok b ↔ FlagMember members spellings b := by
  unfold FlagMember
  induction spellings with
  | nil => simp [flag]
  | cons key rest ih =>
    rw [flag, List.findSome?_cons]
    cases h : members.given? key with
    | none => exact ih
    | some value => cases value <;> simp

theorem byte?_eq_some_iff {raw : Json} {b : UInt8} : byte? raw = some b ↔ raw = .int b.toNat := by
  have hb := b.toNat_lt
  unfold byte?
  split
  · next n =>
    rw [Json.int.injEq, Int.ofNat_eq_natCast, Int.natCast_inj]
    by_cases hn : n < 256
    · rw [if_pos hn, Option.some.injEq, ← UInt8.toNat_inj, UInt8.toNat_ofNat_of_lt' hn]
    · simp only [if_neg hn, reduceCtorEq, false_iff]
      omega
  · next h =>
    simp only [reduceCtorEq, false_iff]
    rintro rfl
    exact h _ rfl

theorem bytes_eq_ok_iff {place : Place} {list : ByteList} {raw : Json} {bs : Bytes} :
    bytes place list raw = .ok bs ↔ raw = .ofBytes bs := by
  unfold bytes Json.ofBytes
  cases raw with
  | arr items =>
    rw [each_eq_ok_iff (R := fun item b => item = Json.int b.toNat), forall₂_eq_map_iff,
      Json.arr.injEq]
    intro i item _ b
    rw [← byte?_eq_some_iff]
    cases byte? item <;> simp
  | _ => simp

/-- A discriminator: a list of eight bytes. -/
def DiscriminatorForm (raw : Json) (bytes : Bytes) : Prop :=
  raw = .ofBytes bytes ∧ bytes.length = discriminatorSize

theorem discriminator_eq_ok_iff {place : Place} {raw : Option Json} {bs : Bytes} :
    discriminator place raw = .ok bs ↔ ∃ value, raw = some value ∧ DiscriminatorForm value bs := by
  cases raw with
  | none => simp [discriminator]
  | some value =>
    simp only [discriminator, bind_eq_ok, bytes_eq_ok_iff, Option.some.injEq, exists_eq_left',
      DiscriminatorForm]
    constructor
    · rintro ⟨bs', rfl, h⟩
      split at h
      · next hl => exact pure_eq_ok.1 h ▸ ⟨rfl, hl⟩
      · simp at h
    · rintro ⟨rfl, hl⟩
      exact ⟨bs, rfl, by rw [if_pos hl, pure_eq_ok]⟩

/-! ### Seeds and rules -/

/-- A seed, by its kind. -/
inductive SeedForm : Json → Seed → Prop
  | constantText {members : Members} {t : Text} {bytes : Bytes}
      (kind : members.get? "kind" = some (.str "const"))
      (value : members.get? "value" = some (.str t)) (octets : Utf8.encode t = .ok bytes) :
      SeedForm (.obj members) { kind := .const, value := some bytes }
  | constantBytes {members : Members} {bytes : Bytes}
      (kind : members.get? "kind" = some (.str "const"))
      (value : members.get? "value" = some (.ofBytes bytes)) :
      SeedForm (.obj members) { kind := .const, value := some bytes }
  | string {members : Members} {t : Text} (kind : members.get? "kind" = some (.str "string"))
      (value : members.get? "value" = some (.str t)) :
      SeedForm (.obj members) { kind := .string, text := some t }
  | arg {members : Members} {path : Text} (kind : members.get? "kind" = some (.str "arg"))
      (hp : members.get? "path" = some (.str path)) (nonempty : path ≠ []) :
      SeedForm (.obj members) { kind := .arg, path := some path }
  | account {members : Members} {path : Text} {account : Option Text}
      (kind : members.get? "kind" = some (.str "account"))
      (hp : members.get? "path" = some (.str path)) (nonempty : path ≠ [])
      (ha : members.given? "account" = account.map .str) :
      SeedForm (.obj members) { kind := .account, path := some path, account }

theorem object_eq_ok_iff {place : Place} {raw : Json} {members : Members} :
    object place raw = .ok members ↔ raw = .obj members := by
  cases raw <;> simp [object]

theorem seedKind?_eq_some_iff {raw : Json} {kind : SeedKind} :
    seedKind? raw = some kind ↔ raw = .str kind.name := by
  unfold seedKind? SeedKind.ofName?
  split
  · next t =>
    constructor
    · intro h
      have hname : kind.name = t := by simpa using List.find?_some h
      rw [hname]
    · intro h
      obtain rfl := Json.str.inj h
      cases kind <;> decide
  · next h =>
    simp only [reduceCtorEq, false_iff]
    rintro rfl
    exact h _ rfl

theorem bind_seedKind?_eq_some_iff {raw : Option Json} {kind : SeedKind} :
    raw.bind seedKind? = some kind ↔ raw = some (.str kind.name) := by
  simp [Option.bind_eq_some_iff, seedKind?_eq_some_iff]

theorem path_eq_ok_iff {place : Place} {members : Members} {t : Text} :
    string? place members "path" = .ok (some t) ↔ members.get? "path" = some (.str t) := by
  simp [string?_eq_ok_iff, given?_eq_some_iff]

theorem seedForm_of_readSeed {place : Place} {raw : Json} {s : Seed}
    (h : readSeed place raw = .ok s) : SeedForm raw s := by
  simp only [readSeed, bind_eq_ok, object_eq_ok_iff] at h
  obtain ⟨members, rfl, h⟩ := h
  split at h
  · simp at h
  · next hk =>
    have kind := bind_seedKind?_eq_some_iff.1 hk
    split at h
    · next t hv =>
      split at h
      · next bytes ho => exact pure_eq_ok.1 h ▸ .constantText kind hv ho
      · simp at h
    · next hv =>
      simp only [bind_eq_ok, bytes_eq_ok_iff, pure_eq_ok] at h
      obtain ⟨bytes, hb, rfl⟩ := h
      cases hget : members.get? "value" with
      | none => simp [hget, Json.ofBytes] at hb
      | some value => exact .constantBytes kind (by simpa [hget] using hb)
  · next hk =>
    have kind := bind_seedKind?_eq_some_iff.1 hk
    simp only [bind_eq_ok] at h
    obtain ⟨text, ht, h⟩ := h
    cases text with
    | none => simp at h
    | some t =>
      have hv := (given?_eq_some_iff.1 (string?_eq_ok_iff.1 ht)).1
      exact pure_eq_ok.1 h ▸ .string kind hv
  · next hk =>
    have kind := bind_seedKind?_eq_some_iff.1 hk
    simp only [bind_eq_ok] at h
    obtain ⟨path, hp, h⟩ := h
    rcases path with _ | _ | ⟨c, rest⟩
    · simp at h
    · simp at h
    · exact pure_eq_ok.1 h ▸ .arg kind (path_eq_ok_iff.1 hp) (List.cons_ne_nil c rest)
  · next hk =>
    have kind := bind_seedKind?_eq_some_iff.1 hk
    simp only [bind_eq_ok] at h
    obtain ⟨path, hp, h⟩ := h
    rcases path with _ | _ | ⟨c, rest⟩
    · simp at h
    · simp at h
    · simp only [bind_eq_ok, pure_eq_ok] at h
      obtain ⟨account, ha, rfl⟩ := h
      exact .account kind (path_eq_ok_iff.1 hp) (List.cons_ne_nil c rest) (string?_eq_ok_iff.1 ha)

theorem SeedForm.read {raw : Json} {s : Seed} (h : SeedForm raw s) (place : Place) :
    readSeed place raw = .ok s := by
  cases h with
  | @constantText members t bytes kind value octets =>
    have hk : (members.get? "kind").bind seedKind? = some .const :=
      bind_seedKind?_eq_some_iff.2 kind
    simp [readSeed, object, bind_eq_ok, hk, value, octets]
  | @constantBytes members bytes kind value =>
    have hk : (members.get? "kind").bind seedKind? = some .const :=
      bind_seedKind?_eq_some_iff.2 kind
    have hb : Document.bytes (place.member "value") .constant (.ofBytes bytes) = .ok bytes :=
      bytes_eq_ok_iff.2 rfl
    simp only [readSeed, bind_eq_ok, object_eq_ok_iff, Json.obj.injEq, exists_eq_left', hk, value]
    change (Document.bytes (place.member "value") .constant (.ofBytes bytes) >>= _) = _
    rw [hb]
    rfl
  | @string members t kind value =>
    have hk : (members.get? "kind").bind seedKind? = some .string :=
      bind_seedKind?_eq_some_iff.2 kind
    have ht : string? place members "value" = .ok (some t) :=
      string?_eq_ok_iff.2 (given?_eq_some_iff.2 ⟨value, by simp⟩)
    simp [readSeed, object, bind_eq_ok, hk, ht]
  | @arg members path kind hp nonempty =>
    have hk : (members.get? "kind").bind seedKind? = some .arg :=
      bind_seedKind?_eq_some_iff.2 kind
    obtain ⟨c, rest, rfl⟩ := List.exists_cons_of_ne_nil nonempty
    have hpath : string? place members "path" = .ok (some (c :: rest)) := path_eq_ok_iff.2 hp
    simp [readSeed, object, bind_eq_ok, hk, hpath]
  | @account members path account kind hp nonempty ha =>
    have hk : (members.get? "kind").bind seedKind? = some .account :=
      bind_seedKind?_eq_some_iff.2 kind
    obtain ⟨c, rest, rfl⟩ := List.exists_cons_of_ne_nil nonempty
    have hpath : string? place members "path" = .ok (some (c :: rest)) := path_eq_ok_iff.2 hp
    have haccount : string? place members "account" = .ok account := string?_eq_ok_iff.2 ha
    simp [readSeed, object, bind_eq_ok, hk, hpath, haccount]

theorem readSeed_eq_ok_iff {place : Place} {raw : Json} {s : Seed} :
    readSeed place raw = .ok s ↔ SeedForm raw s :=
  ⟨seedForm_of_readSeed, fun h => h.read place⟩

/-- The rule for an address: at least one seed, and maybe a program. -/
inductive PdaForm : Json → Pda → Prop
  | mk {members : Members} {list : List Json} {p : Pda}
      (hl : members.get? "seeds" = some (.arr list)) (nonempty : list ≠ [])
      (hs : List.Forall₂ SeedForm list p.seeds)
      (hp : OptionMember SeedForm members "program" p.program) : PdaForm (.obj members) p

theorem readPda_eq_ok_iff {place : Place} {raw : Json} {p : Pda} :
    readPda place raw = .ok p ↔ PdaForm raw p := by
  have hseeds : ∀ (list : List Json) seeds,
      each list (fun i seed => readSeed ((place.member "seeds").index i) seed) = .ok seeds ↔
        List.Forall₂ SeedForm list seeds :=
    fun list seeds => each_eq_ok_iff fun _ _ _ _ => readSeed_eq_ok_iff
  have hprogram : ∀ (members : Members) program,
      (members.given? "program").mapM (readSeed (place.member "program")) = .ok program ↔
        OptionMember SeedForm members "program" program :=
    fun members program => mapM_given?_eq_ok_iff fun _ _ => readSeed_eq_ok_iff
  simp only [readPda, bind_eq_ok, object_eq_ok_iff, items_eq_ok_iff]
  constructor
  · rintro ⟨members, rfl, list, hl, h⟩
    split at h
    · simp at h
    · next hne =>
      simp only [bind_eq_ok, hseeds, hprogram, pure_eq_ok] at h
      obtain ⟨seeds, hs, program, hp, rfl⟩ := h
      obtain hl | ⟨_, rfl⟩ := hl
      · exact .mk (given?_eq_some_iff.1 hl).1 hne hs hp
      · exact absurd rfl hne
  · rintro ⟨hl, nonempty, hs, hp⟩
    refine ⟨_, rfl, _, .inl (given?_eq_some_iff.2 ⟨hl, by simp⟩), ?_⟩
    rw [if_neg nonempty]
    simp only [bind_eq_ok, hseeds, hprogram, pure_eq_ok]
    exact ⟨_, hs, _, hp, rfl⟩

/-! ### Accounts -/

/-- The members of an account slot. -/
structure SlotForm (members : Members) (a : AccountRef) : Prop where
  name : NameMember members a.name
  writable : FlagMember members ["writable", "isMut"] a.writable
  signer : FlagMember members ["signer", "isSigner"] a.signer
  optional : FlagMember members ["optional", "isOptional"] a.optional
  address : members.given? "address" = a.address.map .str
  pda : OptionMember PdaForm members "pda" a.pda
  docs : ListMember members "docs" (a.docs.map .str)

theorem readAccount_eq_ok_iff {place : Place} {members : Members} {a : AccountRef} :
    readAccount place members = .ok a ↔ SlotForm members a := by
  have hpda : ∀ p, (members.given? "pda").mapM (readPda (place.member "pda")) = .ok p ↔
      OptionMember PdaForm members "pda" p :=
    fun p => mapM_given?_eq_ok_iff fun _ _ => readPda_eq_ok_iff
  simp only [readAccount, bind_eq_ok, name_eq_ok_iff, flag_eq_ok_iff, string?_eq_ok_iff, hpda,
    docs_eq_ok_iff, pure_eq_ok]
  constructor
  · rintro ⟨name, hn, writable, hw, signer, hs, optional, ho, address, ha, pda, hp, docs, hd, rfl⟩
    exact ⟨hn, hw, hs, ho, ha, hp, hd⟩
  · intro h
    exact ⟨_, h.name, _, h.writable, _, h.signer, _, h.optional, _, h.address, _, h.pda, _, h.docs,
      rfl⟩

/-- An account layout: what a slot has, and maybe a discriminator. -/
inductive AccountDefinitionForm : Json → AccountDefinition → Prop
  | mk {members : Members} {a : AccountDefinition} (slot : SlotForm members a.toAccountRef)
      (hd : OptionMember DiscriminatorForm members "discriminator" a.discriminator) :
      AccountDefinitionForm (.obj members) a

theorem readAccountDefinition_eq_ok_iff {place : Place} {raw : Json} {a : AccountDefinition} :
    readAccountDefinition place raw = .ok a ↔ AccountDefinitionForm raw a := by
  have hdisc : ∀ (members : Members) d, ((members.given? "discriminator").mapM fun raw =>
      discriminator (place.member "discriminator") (some raw)) = .ok d ↔
      OptionMember DiscriminatorForm members "discriminator" d :=
    fun members d => mapM_given?_eq_ok_iff fun _ _ => by simp [discriminator_eq_ok_iff]
  simp only [readAccountDefinition, bind_eq_ok, object_eq_ok_iff, readAccount_eq_ok_iff, hdisc,
    pure_eq_ok]
  constructor
  · rintro ⟨members, rfl, a, ha, d, hd, rfl⟩
    exact ⟨ha, hd⟩
  · rintro ⟨ha, hd⟩
    exact ⟨_, rfl, _, ha, _, hd, rfl⟩

mutual

/-- An item of an instruction's accounts, with the slots that it stands for. -/
inductive SlotsForm : Json → List AccountRef → Prop
  | slot {members : Members} {a : AccountRef} (single : members.get? "accounts" = none)
      (slot : SlotForm members a) : SlotsForm (.obj members) [a]
  | group {members : Members} {name : Text} {list : List Json} {slots : List AccountRef}
      (several : members.get? "accounts" ≠ none) (hn : NameMember members name)
      (hl : ListMember members "accounts" list) (hs : SlotsForms list slots) :
      SlotsForm (.obj members) slots

/-- Items, with the slots that they stand for from left to right. -/
inductive SlotsForms : List Json → List AccountRef → Prop
  | nil : SlotsForms [] []
  | cons {raw : Json} {rest : List Json} {slots more : List AccountRef}
      (head : SlotsForm raw slots) (tail : SlotsForms rest more) :
      SlotsForms (raw :: rest) (slots ++ more)

end

theorem readSlots_obj (place : Place) (members : Members) :
    readSlots place (.obj members) =
      if Members.has members "accounts" then do
        let _ ← name place members
        let group ← items place members "accounts"
        let slots ← each group fun i raw => readSlots ((place.member "accounts").index i) raw
        return slots.flatten
      else (readAccount place members).map fun slot => [slot] := by
  rw [readSlots]
  congr 2
  funext name
  exact bind_sizedItems (fun _ _ => rfl) _

mutual

theorem SlotsForm.read {raw : Json} {slots : List AccountRef} :
    SlotsForm raw slots → ∀ place, readSlots place raw = .ok slots
  | .slot single slot, place => by
    rw [readSlots_obj, if_neg (by simp [Members.has, single]), map_eq_ok]
    exact ⟨_, readAccount_eq_ok_iff.2 slot, rfl⟩
  | .group several hn hl hs, place => by
    rw [readSlots_obj, if_pos (by simpa [Members.has, Option.isSome_iff_ne_none] using several)]
    simp only [bind_eq_ok, name_eq_ok_iff, items_eq_ok_iff, pure_eq_ok]
    obtain ⟨slots, hread, rfl⟩ := hs.read (place.member "accounts") 0
    exact ⟨_, hn, _, hl, _, hread, rfl⟩

theorem SlotsForms.read {list : List Json} {slots : List AccountRef} :
    SlotsForms list slots → ∀ (place : Place) i, ∃ groups,
      eachFrom (fun i raw => readSlots (place.index i) raw) i list = .ok groups ∧
        groups.flatten = slots
  | .nil, _, _ => ⟨[], rfl, rfl⟩
  | .cons head tail, place, i => by
    obtain ⟨groups, hread, rfl⟩ := tail.read place (i + 1)
    exact ⟨_ :: groups, by simp [eachFrom, bind_eq_ok, head.read, hread], rfl⟩

end

theorem slotsForms_of_forall₂ {list : List Json} {groups : List (List AccountRef)}
    (h : List.Forall₂ SlotsForm list groups) : SlotsForms list groups.flatten := by
  induction h with
  | nil => exact .nil
  | cons head _ tail => exact .cons head tail

theorem SlotsForms.exists_forall₂ {list : List Json} {slots : List AccountRef} :
    SlotsForms list slots → ∃ groups, List.Forall₂ SlotsForm list groups ∧ groups.flatten = slots
  | .nil => ⟨[], .nil, rfl⟩
  | .cons head tail => by
    obtain ⟨groups, hgroups, rfl⟩ := tail.exists_forall₂
    exact ⟨_ :: groups, .cons head hgroups, rfl⟩

theorem slotsForm_of_readSlots (place : Place) (raw : Json) (slots : List AccountRef)
    (h : readSlots place raw = .ok slots) : SlotsForm raw slots := by
  match raw with
  | .obj members =>
    rw [readSlots_obj] at h
    split at h
    · next several =>
      simp only [bind_eq_ok, name_eq_ok_iff, items_eq_ok_iff, pure_eq_ok] at h
      obtain ⟨name, hn, list, hl, groups, hg, rfl⟩ := h
      exact .group (Option.isSome_iff_ne_none.1 several) hn hl
        (slotsForms_of_forall₂ (forall₂_of_eachFrom 0 hg
          fun i x hx slots => have := hl.sizeOf_lt hx; slotsForm_of_readSlots _ x slots))
    · next single =>
      obtain ⟨a, ha, rfl⟩ := map_eq_ok.1 h
      exact .slot (by simpa [Members.has] using single) (readAccount_eq_ok_iff.1 ha)
  | .null | .bool _ | .int _ | .float _ | .arr _ | .str _ =>
    rw [readSlots.eq_def] at h
    simp at h
termination_by sizeOf raw
decreasing_by simp; omega

theorem readSlots_eq_ok_iff {place : Place} {raw : Json} {slots : List AccountRef} :
    readSlots place raw = .ok slots ↔ SlotsForm raw slots :=
  ⟨slotsForm_of_readSlots place raw slots, fun h => h.read place⟩

/-! ### Entries -/

/-- An argument: a name and a type. -/
inductive ArgForm : Json → Arg → Prop
  | mk {members : Members} {raw : Json} {a : Arg} (hn : NameMember members a.name)
      (ht : members.get? "type" = some raw) (type : TypeForm raw a.type) :
      ArgForm (.obj members) a

theorem readPartType_eq_ok_iff {place : Place} {part : Typed} {members : Members} {t : TypeExpr} :
    readPartType place part members = .ok t ↔
      ∃ raw, members.get? "type" = some raw ∧ TypeForm raw t := by
  unfold readPartType
  cases members.get? "type" <;> simp [readType_eq_ok_iff]

theorem readArg_eq_ok_iff {place : Place} {raw : Json} {a : Arg} :
    readArg place raw = .ok a ↔ ArgForm raw a := by
  simp only [readArg, bind_eq_ok, object_eq_ok_iff, name_eq_ok_iff, readPartType_eq_ok_iff,
    pure_eq_ok]
  constructor
  · rintro ⟨members, rfl, name, hn, t, ⟨raw, ht, type⟩, rfl⟩
    exact .mk hn ht type
  · rintro ⟨hn, ht, type⟩
    exact ⟨_, rfl, _, hn, _, ⟨_, ht, type⟩, rfl⟩

/-- An instruction: a name, a discriminator, accounts, arguments and documentation. -/
inductive InstructionForm : Json → Instruction → Prop
  | mk {members : Members} {accounts args : List Json} {raw : Json} {x : Instruction}
      (hn : NameMember members x.name)
      (ha : ListMember members "accounts" accounts) (slots : SlotsForms accounts x.accounts)
      (hl : ListMember members "args" args) (each : List.Forall₂ ArgForm args x.args)
      (hd : members.get? "discriminator" = some raw)
      (discriminator : DiscriminatorForm raw x.discriminator)
      (docs : ListMember members "docs" (x.docs.map .str)) : InstructionForm (.obj members) x

theorem each_readSlots_eq_ok_iff {place : Place} {list : List Json} {slots : List AccountRef} :
    (∃ groups, each list (fun i raw => readSlots (place.index i) raw) = .ok groups ∧
      groups.flatten = slots) ↔ SlotsForms list slots := by
  constructor
  · rintro ⟨groups, hg, rfl⟩
    exact slotsForms_of_forall₂
      ((each_eq_ok_iff (R := SlotsForm) fun _ _ _ _ => readSlots_eq_ok_iff).1 hg)
  · exact fun h => h.read place 0

theorem readInstruction_eq_ok_iff {place : Place} {raw : Json} {x : Instruction} :
    readInstruction place raw = .ok x ↔ InstructionForm raw x := by
  have hargs : ∀ (list : List Json) args,
      each list (fun i raw => readArg ((place.member "args").index i) raw) = .ok args ↔
        List.Forall₂ ArgForm list args :=
    fun list args => each_eq_ok_iff fun _ _ _ _ => readArg_eq_ok_iff
  simp only [readInstruction, bind_eq_ok, object_eq_ok_iff, name_eq_ok_iff, items_eq_ok_iff, hargs,
    discriminator_eq_ok_iff, docs_eq_ok_iff, pure_eq_ok]
  constructor
  · rintro ⟨members, rfl, name, hn, accounts, ha, groups, hg, args, hl, args', hargs, bytes,
      ⟨raw, hd, hbytes⟩, docs, hdocs, rfl⟩
    exact .mk hn ha (each_readSlots_eq_ok_iff.1 ⟨groups, hg, rfl⟩) hl hargs
      (given?_eq_some_iff.1 hd).1 hbytes hdocs
  · rintro ⟨hn, ha, slots, hl, each, hd, hdisc, hdocs⟩
    obtain ⟨groups, hg, hslots⟩ := each_readSlots_eq_ok_iff.2 slots
    refine ⟨_, rfl, _, hn, _, ha, groups, hg, _, hl, _, each, _,
      ⟨_, given?_eq_some_iff.2 ⟨hd, ?_⟩, hdisc⟩, _, hdocs, by rw [hslots]⟩
    rw [hdisc.1]
    simp [Json.ofBytes]

/-- An error: a code, a name, and a message, which is empty unless it is given. -/
inductive ErrorForm : Json → ErrorDefinition → Prop
  | mk {members : Members} {msg : Option Text} {e : ErrorDefinition}
      (hc : members.get? "code" = some (.int e.code)) (hn : NameMember members e.name)
      (hm : members.given? "msg" = msg.map .str) (message : msg.getD [] = e.msg) :
      ErrorForm (.obj members) e

theorem readError_eq_ok_iff {place : Place} {raw : Json} {e : ErrorDefinition} :
    readError place raw = .ok e ↔ ErrorForm raw e := by
  simp only [readError, bind_eq_ok, object_eq_ok_iff]
  constructor
  · rintro ⟨members, rfl, h⟩
    split at h
    · next code hc =>
      simp only [bind_eq_ok, name_eq_ok_iff, string?_eq_ok_iff, pure_eq_ok] at h
      obtain ⟨name, hn, msg, hm, rfl⟩ := h
      exact .mk hc hn hm rfl
    · simp at h
  · rintro ⟨hc, hn, hm, message⟩
    refine ⟨_, rfl, ?_⟩
    simp only [hc, bind_eq_ok, name_eq_ok_iff, string?_eq_ok_iff, pure_eq_ok]
    exact ⟨_, hn, _, hm, by rw [message]⟩

/-- A custom type: a name, a type and documentation. -/
inductive TypeDefinitionForm : Json → TypeDefinition → Prop
  | mk {members : Members} {raw : Json} {d : TypeDefinition} (hn : NameMember members d.name)
      (ht : members.get? "type" = some raw) (type : TypeForm raw d.type)
      (docs : ListMember members "docs" (d.docs.map .str)) : TypeDefinitionForm (.obj members) d

theorem readTypeDefinition_eq_ok_iff {place : Place} {raw : Json} {d : TypeDefinition} :
    readTypeDefinition place raw = .ok d ↔ TypeDefinitionForm raw d := by
  simp only [readTypeDefinition, bind_eq_ok, object_eq_ok_iff, name_eq_ok_iff,
    readPartType_eq_ok_iff, docs_eq_ok_iff, pure_eq_ok]
  constructor
  · rintro ⟨members, rfl, name, hn, t, ⟨raw, ht, type⟩, docs, hd, rfl⟩
    exact .mk hn ht type hd
  · rintro ⟨hn, ht, type, docs⟩
    exact ⟨_, rfl, _, hn, _, ⟨_, ht, type⟩, _, docs, rfl⟩

/-! ### Documents -/

/-- The text named `key`, empty unless it is given. -/
def TextMember (members : Members) (key t : Text) : Prop :=
  ∃ given : Option Text, members.given? key = given.map .str ∧ given.getD [] = t

/-- The members of the metadata: none if the member is absent or counts as nothing. -/
inductive MetadataMember (document : Members) : Members → Prop
  | absent (h : document.get? "metadata" = none) : MetadataMember document []
  | blank {raw : Json} (h : document.get? "metadata" = some raw) (blank : raw.isBlank = true) :
      MetadataMember document []
  | given {members : Members} (h : document.get? "metadata" = some (.obj members)) :
      MetadataMember document members

theorem metadataMembers_eq_ok_iff {document members : Members} :
    metadataMembers document = .ok members ↔ MetadataMember document members := by
  unfold metadataMembers
  constructor
  · intro h
    split at h
    · next hm => exact Except.ok.inj h ▸ .absent hm
    · next raw hm =>
      split at h
      · next hb => exact Except.ok.inj h ▸ .blank hm hb
      · exact .given (by rwa [object_eq_ok_iff.1 h] at hm)
  · rintro (hm | ⟨hm, hb⟩ | hm)
    · rw [hm]
    · rw [hm]
      exact if_pos hb
    · rw [hm]
      cases members with
      | nil => rfl
      | cons _ _ => rfl

/-- The text named `key` under the metadata, or at the top level if it is empty there. -/
inductive PlacedText (document metadata : Members) (key : Text) : Text → Prop
  | newer {t : Text} (h : metadata.given? key = some (.str t)) (nonempty : t ≠ []) :
      PlacedText document metadata key t
  | older {t : Text} (empty : TextMember metadata key []) (h : TextMember document key t) :
      PlacedText document metadata key t

theorem newerOrOlder_eq_ok_iff {document metadata : Members} {key t : Text} :
    newerOrOlder document metadata key = .ok t ↔ PlacedText document metadata key t := by
  simp only [newerOrOlder, bind_eq_ok, string?_eq_ok_iff]
  constructor
  · rintro ⟨newer, hn, h⟩
    match newer with
    | some (c :: rest) => exact pure_eq_ok.1 h ▸ .newer hn (List.cons_ne_nil c rest)
    | none | some [] =>
      simp only [bind_eq_ok, string?_eq_ok_iff, pure_eq_ok] at h
      exact .older ⟨_, hn, rfl⟩ h
  · rintro (⟨hn, nonempty⟩ | ⟨⟨newer, hn, hempty⟩, h⟩)
    · obtain ⟨c, rest, rfl⟩ := List.exists_cons_of_ne_nil nonempty
      exact ⟨some (c :: rest), hn, rfl⟩
    · refine ⟨newer, hn, ?_⟩
      match newer with
      | none | some [] =>
        simp only [bind_eq_ok, string?_eq_ok_iff, pure_eq_ok]
        exact h

/-- The metadata of a document, given the members of its metadata. -/
structure MetadataForm (document metadata : Members) (m : Metadata) : Prop where
  name : PlacedText document metadata "name" m.name
  version : PlacedText document metadata "version" m.version
  spec : TextMember metadata "spec" m.spec
  description : TextMember metadata "description" m.description

theorem readMetadata_eq_ok_iff {document : Members} {m : Metadata} :
    readMetadata document = .ok m ↔
      ∃ metadata, MetadataMember document metadata ∧ MetadataForm document metadata m := by
  simp only [readMetadata, bind_eq_ok, metadataMembers_eq_ok_iff, newerOrOlder_eq_ok_iff,
    string?_eq_ok_iff, pure_eq_ok]
  constructor
  · rintro ⟨metadata, hm, name, hn, version, hv, spec, hs, description, hd, rfl⟩
    exact ⟨metadata, hm, hn, hv, ⟨_, hs, rfl⟩, ⟨_, hd, rfl⟩⟩
  · rintro ⟨metadata, hm, hn, hv, ⟨spec, hs, hspec⟩, ⟨description, hd, hdescription⟩⟩
    exact ⟨_, hm, _, hn, _, hv, _, hs, _, hd, by rw [hspec, hdescription]⟩

/-- The address of a document: at the top level, or else under the metadata. -/
inductive AddressForm (document : Members) : Text → Prop
  | newer {t : Text} (h : document.given? "address" = some (.str t)) : AddressForm document t
  | older {metadata : Members} {t : Text} (absent : document.given? "address" = none)
      (hm : document.get? "metadata" = some (.obj metadata))
      (h : TextMember metadata "address" t) : AddressForm document t
  | absent (absent : document.given? "address" = none)
      (hm : ∀ metadata, document.get? "metadata" ≠ some (.obj metadata)) : AddressForm document []

theorem readAddress_eq_ok_iff {document : Members} {t : Text} :
    readAddress document = .ok t ↔ AddressForm document t := by
  simp only [readAddress, bind_eq_ok, string?_eq_ok_iff]
  constructor
  · rintro ⟨newer, hn, h⟩
    cases newer with
    | some address => exact pure_eq_ok.1 h ▸ .newer hn
    | none =>
      dsimp only at h
      split at h
      · next metadata hm =>
        simp only [bind_eq_ok, string?_eq_ok_iff, pure_eq_ok] at h
        exact .older hn hm h
      · next hm => exact pure_eq_ok.1 h ▸ .absent hn hm
  · rintro (hn | ⟨hn, hm, h⟩ | ⟨hn, hm⟩)
    · exact ⟨some t, hn, rfl⟩
    · refine ⟨none, hn, ?_⟩
      simp only [hm, bind_eq_ok, string?_eq_ok_iff, pure_eq_ok]
      exact h
    · refine ⟨none, hn, ?_⟩
      dsimp only
      split
      · next metadata h => exact absurd h (hm metadata)
      · rfl

/-- The entries of one list of a document. -/
def SectionForm {α : Type} (R : Json → α → Prop) (document : Members) (key : Text)
    (entries : List α) : Prop :=
  ∃ list, ListMember document key list ∧ List.Forall₂ R list entries

theorem readSection_eq_ok_iff {α : Type} {R : Json → α → Prop} {document : Members} {key : Text}
    {read : Place → Json → Reading α} {entries : List α}
    (h : ∀ place raw x, read place raw = .ok x ↔ R raw x) :
    readSection document key read = .ok entries ↔ SectionForm R document key entries := by
  simp only [readSection, bind_eq_ok, items_eq_ok_iff, SectionForm]
  exact exists_congr fun list => and_congr_right fun _ => each_eq_ok_iff fun _ _ _ _ => h ..

/-- The members of a document, with the schema that it denotes. -/
structure DocumentForm (document : Members) (S : Schema) : Prop where
  metadata : ∃ members, MetadataMember document members ∧ MetadataForm document members S.metadata
  address : AddressForm document S.address
  instructions : SectionForm InstructionForm document "instructions" S.instructions
  accounts : SectionForm AccountDefinitionForm document "accounts" S.accounts
  errors : SectionForm ErrorForm document "errors" S.errors
  types : SectionForm TypeDefinitionForm document "types" S.types

theorem readSchema_eq_ok_iff {raw : Json} {S : Schema} :
    (readSchema raw).outcome = .ok S ↔
      ∃ document, raw = .obj document ∧ DocumentForm document S := by
  have hinstructions : ∀ (document : Members) entries,
      readSection document "instructions" readInstruction = .ok entries ↔
        SectionForm InstructionForm document "instructions" entries :=
    fun _ _ => readSection_eq_ok_iff fun _ _ _ => readInstruction_eq_ok_iff
  have haccounts : ∀ (document : Members) entries,
      readSection document "accounts" readAccountDefinition = .ok entries ↔
        SectionForm AccountDefinitionForm document "accounts" entries :=
    fun _ _ => readSection_eq_ok_iff fun _ _ _ => readAccountDefinition_eq_ok_iff
  have herrors : ∀ (document : Members) entries,
      readSection document "errors" readError = .ok entries ↔
        SectionForm ErrorForm document "errors" entries :=
    fun _ _ => readSection_eq_ok_iff fun _ _ _ => readError_eq_ok_iff
  have htypes : ∀ (document : Members) entries,
      readSection document "types" readTypeDefinition = .ok entries ↔
        SectionForm TypeDefinitionForm document "types" entries :=
    fun _ _ => readSection_eq_ok_iff fun _ _ _ => readTypeDefinition_eq_ok_iff
  simp only [readSchema, noteCount, note, Logged.bind_outcome_eq_ok, Logged.lift_outcome,
    Logged.tell_outcome, Logged.pure_outcome, object_eq_ok_iff, readMetadata_eq_ok_iff,
    readAddress_eq_ok_iff, hinstructions, haccounts, herrors, htypes]
  constructor
  · rintro ⟨document, rfl, metadata, hm, address, ha, instructions, hi, _, -, accounts, hacc,
      _, -, errors, he, _, -, types, ht, _, -, h⟩
    obtain rfl := Except.ok.inj h
    exact ⟨document, rfl, hm, ha, hi, hacc, he, ht⟩
  · rintro ⟨document, rfl, hm, ha, hi, hacc, he, ht⟩
    exact ⟨document, rfl, _, hm, _, ha, _, hi, (), trivial, _, hacc, (), trivial, _, he, (),
      trivial, _, ht, (), trivial, rfl⟩

/-- A source loads as its value does. -/
theorem load_source_eq_ok_iff {strict : Bool} {source : Source} {S : Schema} :
    (load strict source).outcome = .ok S ↔
      ∃ raw, source.value? = .ok raw ∧ (load strict (.value raw)).outcome = .ok S :=
  Logged.bind_outcome_eq_ok

/-- **A document loads as a schema exactly if it denotes it** and its copies can be reported: strict
loading asks besides that there are none. -/
theorem load_eq_ok_iff {strict : Bool} {raw : Json} {S : Schema} :
    (load strict (.value raw)).outcome = .ok S ↔
      (∃ document, raw = .obj document ∧ DocumentForm document S) ∧ S.CodesShown ∧
        (strict = true → S.Distinct) := by
  simp only [load, Source.value?, loadValue, reportReferences, note, Logged.bind_outcome_eq_ok,
    Logged.mapError, mapError_eq_ok, Logged.lift_outcome, Logged.tell_outcome,
    Logged.tellAll_outcome, Logged.pure_outcome, Except.ok.injEq, exists_eq_left',
    readSchema_eq_ok_iff, ← reportDuplicates_eq_ok_iff]
  constructor
  · rintro ⟨S, hS, _, hd, _, -, _, -, rfl⟩
    exact ⟨hS, hd⟩
  · rintro ⟨hS, hd⟩
    exact ⟨S, hS, (), hd, (), trivial, (), trivial, rfl⟩

end Document
end AnchorIdl
