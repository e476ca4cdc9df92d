/-
# Which seeds of a loaded schema have bytes

The seeds of a loaded schema are canonical, so each has what its kind needs.  A
constant has its bytes, which loading has made of a text if it was written as
one, and a reference has none yet.  A string keeps its text, and the bytes of
the text are only made when they are asked for.  Both make them by UTF-8, which
refuses a lone surrogate:

| a lone surrogate in | reading the seed | encoding the seed |
| --- | --- | --- |
| the text of a constant | is refused | |
| the text of a string | succeeds | is refused |

So the seeds of a loaded schema have bytes but for the strings that hold a lone
surrogate, and the constant prefix of a rule is known unless there is one before
the first reference (`load_encodes_iff`).
-/

import AnchorIdl.Proofs.Document.Image
import AnchorIdl.Proofs.Json.Place
import AnchorIdl.Proofs.Schema.Derivation

namespace AnchorIdl

/-! ### Seeds and rules of a schema -/

/-- The text of a string seed holds a lone surrogate. -/
def Seed.HoldsSurrogate (s : Seed) : Prop :=
  s.kind = .string ∧ ∃ t, s.text = some t ∧ ∃ c ∈ t, c.isSurrogate = true

/-- A seed can be encoded: to bytes, or to nothing yet if it is a reference. -/
inductive Seed.Encodes (s : Seed) : Prop
  | bytes {bytes : Bytes} (own : s.isReference = false) (h : s.encode = .ok (some bytes))
  | reference (given : s.isReference = true) (h : s.encode = .ok none)

/-- The seeds of a rule, and that of its program. -/
def Pda.allSeeds (p : Pda) : List Seed := p.seeds ++ p.program.toList

/-- The rules of a schema: those of the slots of its instructions, and of its account layouts. -/
def Schema.rules (S : Schema) : List Pda :=
  (S.instructions.flatMap Instruction.accounts ++
    S.accounts.map AccountDefinition.toAccountRef).filterMap AccountRef.pda

/-- All seeds of a schema can be encoded, and all constant prefixes are known. -/
structure Schema.Encodes (S : Schema) : Prop where
  seeds : ∀ p ∈ S.rules, ∀ s ∈ p.allSeeds, s.Encodes
  prefixes : ∀ p ∈ S.rules, ∃ bytes, p.constantPrefix = .ok bytes

theorem CanonicalPda.allSeeds {p : Pda} (h : CanonicalPda p) : ∀ s ∈ p.allSeeds, CanonicalSeed s :=
  List.forall_mem_append.2 ⟨h.seeds, fun s hs => h.program s (Option.mem_toList.1 hs)⟩

theorem Schema.Canonical.rules {S : Schema} (h : S.Canonical) : ∀ p ∈ S.rules, CanonicalPda p := by
  intro p hp
  obtain ⟨slot, hslot, hpda⟩ := List.mem_filterMap.1 hp
  rcases List.mem_append.1 hslot with hslot | hslot
  · obtain ⟨x, hx, hslot⟩ := List.mem_flatMap.1 hslot
    exact ((h.instructions x hx).accounts slot hslot).pda p hpda
  · obtain ⟨layout, hlayout, rfl⟩ := List.mem_map.1 hslot
    exact (h.accounts layout hlayout).slot.pda p hpda

/-! ### Encoding -/

/-- What a canonical seed is encoded to, if anything, is right for its kind. -/
theorem CanonicalSeed.encodes_iff_encode {s : Seed} (h : CanonicalSeed s) :
    s.Encodes ↔ ∃ own, s.encode = .ok own := by
  constructor
  · rintro (⟨-, hs⟩ | ⟨-, hs⟩)
    · exact ⟨_, hs⟩
    · exact ⟨_, hs⟩
  · rintro ⟨own, hs⟩
    cases h with
    | const bytes => exact .bytes rfl rfl
    | arg | account => exact .reference rfl rfl
    | string t =>
      simp only [Seed.encode] at hs
      cases hencode : Utf8.encode t with
      | ok bytes => exact .bytes rfl (by simp only [Seed.encode, hencode]; rfl)
      | error fault =>
        rw [hencode] at hs
        cases hs

/-- **A canonical seed can be encoded unless it is a string that holds a lone surrogate.** -/
theorem CanonicalSeed.encodes_iff {s : Seed} (h : CanonicalSeed s) :
    s.Encodes ↔ ¬ s.HoldsSurrogate := by
  rw [h.encodes_iff_encode]
  cases h with
  | const bytes => exact iff_of_true ⟨_, rfl⟩ fun hs => nomatch hs.1
  | arg | account => exact iff_of_true ⟨_, rfl⟩ fun hs => nomatch hs.1
  | string t =>
    have hencode : (∃ own, Seed.encode { kind := .string, text := some t } = .ok own) ↔
        ∃ bytes, Utf8.encode t = .ok bytes := by
      simp only [Seed.encode]
      cases Utf8.encode t <;> simp [Except.map]
    rw [hencode, Utf8.encode_succeeds_iff]
    simp [Seed.HoldsSurrogate]

namespace Pda

theorem prefixBytes_cons_of_reference {s : Seed} (h : s.isReference = true) (rest : List Seed) :
    prefixBytes (s :: rest) = .ok [] :=
  if_pos h

/-- A seed that is no reference and the seeds after it have a prefix if both can be encoded. -/
theorem prefixBytes_cons_iff {s : Seed} (h : s.isReference = false) (rest : List Seed) :
    (∃ bytes, prefixBytes (s :: rest) = .ok bytes) ↔
      (∃ own, s.encode = .ok own) ∧ ∃ bytes, prefixBytes rest = .ok bytes := by
  rw [prefixBytes, if_neg (by simp [h])]
  cases s.encode <;> cases prefixBytes rest <;> simp [bind, Except.bind, pure, Except.pure]

/-- **The constant prefix is known unless a string before the first reference holds a lone
surrogate.** -/
theorem prefixBytes_succeeds_iff {seeds : List Seed} (h : ∀ s ∈ seeds, CanonicalSeed s) :
    (∃ bytes, prefixBytes seeds = .ok bytes) ↔
      ∀ s ∈ seeds.takeWhile (fun s => !s.isReference), ¬ s.HoldsSurrogate := by
  induction seeds with
  | nil => simp [prefixBytes]
  | cons s rest ih =>
    rw [List.forall_mem_cons] at h
    cases hreference : s.isReference with
    | true => simp [prefixBytes_cons_of_reference hreference, hreference]
    | false =>
      rw [prefixBytes_cons_iff hreference, ih h.2, ← h.1.encodes_iff_encode, h.1.encodes_iff]
      simp [hreference]

end Pda

namespace Document

/-! ### Reading -/

/-- The text of a constant is read exactly if it has bytes. -/
theorem readSeed_const_iff {place : Place} {raw : Json} {t : Text}
    (hkind : raw.get? "kind" = some (.str "const")) (hvalue : raw.get? "value" = some (.str t)) :
    (∃ s, readSeed place raw = .ok s) ↔ ∀ c ∈ t, c.isSurrogate = false := by
  rw [← Utf8.encode_succeeds_iff]
  constructor
  · rintro ⟨s, hs⟩
    cases readSeed_eq_ok_iff.1 hs with
    | constantText _ value octets =>
      obtain rfl := Json.str.inj (Option.some.inj (value.symm.trans hvalue))
      exact ⟨_, octets⟩
    | constantBytes _ value => cases value.symm.trans hvalue
    | string kind | arg kind | account kind => simp [Json.get?, kind] at hkind
  · rintro ⟨bytes, hbytes⟩
    cases raw with
    | obj members => exact ⟨_, readSeed_eq_ok_iff.2 (.constantText hkind hvalue hbytes)⟩
    | _ => cases hkind

/-- The text of a string is read whatever it holds. -/
theorem readSeed_string {raw : Json} {t : Text} (hkind : raw.get? "kind" = some (.str "string"))
    (hvalue : raw.get? "value" = some (.str t)) (place : Place) :
    readSeed place raw = .ok { kind := .string, text := some t } := by
  cases raw with
  | obj members => exact readSeed_eq_ok_iff.2 (.string hkind hvalue)
  | _ => cases hkind

/-- **The seeds of a loaded schema can be encoded, each by itself and in the constant prefixes,
unless a string holds a lone surrogate**; a text that holds one is refused on reading a constant
and kept on reading a string. -/
theorem load_encodes_iff {strict : Bool} {source : Source} {S : Schema}
    (h : (load strict source).outcome = .ok S) :
    (S.Encodes ↔ ∀ p ∈ S.rules, ∀ s ∈ p.allSeeds, ¬ s.HoldsSurrogate) ∧
    (∀ p ∈ S.rules, (∀ s ∈ p.allSeeds, s.Encodes ↔ ¬ s.HoldsSurrogate) ∧
      ((∃ bytes, p.constantPrefix = .ok bytes) ↔
        ∀ s ∈ p.seeds.takeWhile (fun s => !s.isReference), ¬ s.HoldsSurrogate)) ∧
    ∀ (place : Place) (raw : Json) (t : Text), raw.get? "value" = some (.str t) →
      (raw.get? "kind" = some (.str "const") →
        ((∃ s, readSeed place raw = .ok s) ↔ ∀ c ∈ t, c.isSurrogate = false)) ∧
      (raw.get? "kind" = some (.str "string") →
        readSeed place raw = .ok { kind := .string, text := some t }) := by
  obtain ⟨raw, -, hload⟩ := load_source_eq_ok_iff.1 h
  have hrules := (canonical_of_load hload).rules
  have heach : ∀ p ∈ S.rules, (∀ s ∈ p.allSeeds, s.Encodes ↔ ¬ s.HoldsSurrogate) ∧
      ((∃ bytes, p.constantPrefix = .ok bytes) ↔
        ∀ s ∈ p.seeds.takeWhile (fun s => !s.isReference), ¬ s.HoldsSurrogate) :=
    fun p hp => ⟨fun s hs => ((hrules p hp).allSeeds s hs).encodes_iff,
      Pda.prefixBytes_succeeds_iff (hrules p hp).seeds⟩
  refine ⟨?_, heach, fun place raw t hvalue => ⟨fun hkind => readSeed_const_iff hkind hvalue,
    fun hkind => readSeed_string hkind hvalue place⟩⟩
  constructor
  · exact fun hS p hp s hs => ((heach p hp).1 s hs).1 (hS.seeds p hp s hs)
  · intro hnone
    refine ⟨fun p hp s hs => ((heach p hp).1 s hs).2 (hnone p hp s hs), fun p hp => ?_⟩
    refine (heach p hp).2.2 fun s hs => hnone p hp s (List.mem_append_left _ ?_)
    exact (List.takeWhile_prefix _).subset hs

/-- Half of a surrogate pair as the text of a seed. -/
def loneSeed : Seed := { kind := .string, text := some [⟨0xD800, by decide⟩] }

/-- A schema whose only rule has the seed. -/
def loneSchema : Schema where
  accounts := [{ name := "vault", pda := some { seeds := [loneSeed] } }]

/-- The document of the schema. -/
def loneSample : Json :=
  .obj [("accounts", .arr [.obj [("name", .str "vault"), ("pda", .obj [("seeds",
    .arr [.obj [("kind", .str "string"), ("value", .str [⟨0xD800, by decide⟩])]])])]])]

theorem loneSample_not_encodes :
    (load true (.value loneSample)).outcome = .ok loneSchema ∧ ¬ loneSchema.Encodes := by
  have h : (load true (.value loneSample)).outcome = .ok loneSchema := by decide +kernel
  refine ⟨h, fun hS => ?_⟩
  have hnone := (load_encodes_iff h).1.1 hS { seeds := [loneSeed] } (by decide) loneSeed (by decide)
  exact hnone ⟨rfl, _, rfl, _, List.mem_singleton_self _, by decide⟩

end Document
end AnchorIdl
