/-
# The bytes of seeds survive loading

What a seed contributes to an address can be read off its members: a list of
bytes contributes these, a text its UTF-8 form, whether it is written as a
constant or as a string, and an account or an argument is a reference
(`Contributes`).  The rule that is read from an object has one seed for each of
its seeds, in order, and each contributes just that (`readPda_seedBytes`); so
does the constant prefix, up to the first reference.

A text with a lone surrogate has no UTF-8 form.  As a constant it is rejected; a
string may hold one, and has no bytes then.
-/

import AnchorIdl.Proofs.Document.Form
import AnchorIdl.Proofs.Json.Place
import AnchorIdl.Proofs.Schema.Derivation
import AnchorIdl.Proofs.Text.Utf8

namespace AnchorIdl
namespace Document

/-- What a seed of a document contributes to an address; a reference contributes nothing yet. -/
inductive Contributes (raw : Json) : Option Bytes → Prop
  | bytes {bytes : Bytes} (kind : raw.get? "kind" = some (.str "const"))
      (value : raw.get? "value" = some (.ofBytes bytes)) : Contributes raw (some bytes)
  | text {s : String}
      (kind : raw.get? "kind" = some (.str "const") ∨ raw.get? "kind" = some (.str "string"))
      (value : raw.get? "value" = some (.str (Text.ofString s))) :
      Contributes raw (some s.toUTF8.data.toList)
  | reference
      (kind : raw.get? "kind" = some (.str "account") ∨ raw.get? "kind" = some (.str "arg")) :
      Contributes raw none

/-- The text of a seed, if it has one, holds no lone surrogate. -/
def HasStringText (raw : Json) : Prop :=
  ∀ t, raw.get? "value" = some (.str t) → ∀ c ∈ t, c.isSurrogate = false

theorem SeedForm.contributes {raw : Json} {s : Seed} (h : SeedForm raw s)
    (htext : HasStringText raw) :
    ∃ bytes, Contributes raw bytes ∧ Pda.SeedContributes s bytes := by
  cases h with
  | @constantText members t bytes kind value octets =>
    obtain ⟨s, rfl⟩ : ∃ s, Text.ofString s = t := ⟨_, Text.ofString_toString (htext t value)⟩
    rw [Utf8.encode_ofString] at octets
    obtain rfl := Except.ok.inj octets
    exact ⟨_, .text (.inl kind) value, rfl, iff_of_false nofun nofun⟩
  | constantBytes kind value => exact ⟨_, .bytes kind value, rfl, iff_of_false nofun nofun⟩
  | @string members t kind value =>
    obtain ⟨s, rfl⟩ : ∃ s, Text.ofString s = t := ⟨_, Text.ofString_toString (htext t value)⟩
    refine ⟨_, .text (.inr kind) value, ?_, iff_of_false nofun nofun⟩
    simp only [Seed.encode, Utf8.encode_ofString]
    rfl
  | arg kind => exact ⟨_, .reference (.inr kind), rfl, iff_of_true rfl rfl⟩
  | account kind => exact ⟨_, .reference (.inl kind), rfl, iff_of_true rfl rfl⟩

theorem exists_contributions {list : List Json} {seeds : List Seed}
    (h : List.Forall₂ SeedForm list seeds) (htexts : ∀ raw ∈ list, HasStringText raw) :
    ∃ contributions, List.Forall₂ Contributes list contributions ∧
      List.Forall₂ Pda.SeedContributes seeds contributions := by
  induction h with
  | nil => exact ⟨[], .nil, .nil⟩
  | @cons raw s list seeds hs _ ih =>
    obtain ⟨htext, hrest⟩ := List.forall_mem_cons.1 htexts
    obtain ⟨bytes, hraw, hseed⟩ := hs.contributes htext
    obtain ⟨more, hlist, hseeds⟩ := ih hrest
    exact ⟨bytes :: more, .cons hraw hlist, .cons hseed hseeds⟩

/-- Seeds encode to what they contribute. -/
theorem map_encode_eq {seeds : List Seed} {contributions : List (Option Bytes)}
    (h : List.Forall₂ Pda.SeedContributes seeds contributions) :
    seeds.map Seed.encode = contributions.map .ok := by
  induction h with
  | nil => rfl
  | cons hs _ ih => rw [List.map_cons, List.map_cons, hs.encode, ih]

/-- A text contributes the same as a constant and as a string. -/
theorem encode_eq_of_text {place place' : Place} {raw raw' : Json} {t : Text} {s s' : Seed}
    (h : readSeed place raw = .ok s) (hkind : raw.get? "kind" = some (.str "const"))
    (hvalue : raw.get? "value" = some (.str t)) (h' : readSeed place' raw' = .ok s')
    (hkind' : raw'.get? "kind" = some (.str "string"))
    (hvalue' : raw'.get? "value" = some (.str t)) : s.encode = s'.encode := by
  have htext : s.kind = .const ∧ ∃ bytes, Utf8.encode t = .ok bytes ∧ s.value = some bytes := by
    cases readSeed_eq_ok_iff.1 h with
    | constantText kind value octets =>
      obtain rfl := Json.str.inj (Option.some.inj (value.symm.trans hvalue))
      exact ⟨rfl, _, octets, rfl⟩
    | constantBytes kind value => cases value.symm.trans hvalue
    | string kind | arg kind | account kind => simp [Json.get?, kind] at hkind
  have htext' : s'.kind = .string ∧ s'.text = some t := by
    cases readSeed_eq_ok_iff.1 h' with
    | string kind value =>
      obtain rfl := Json.str.inj (Option.some.inj (value.symm.trans hvalue'))
      exact ⟨rfl, rfl⟩
    | constantText kind | constantBytes kind | arg kind | account kind =>
      simp [Json.get?, kind] at hkind'
  obtain ⟨hs, bytes, hbytes, hvalue⟩ := htext
  simp only [Seed.encode, hs, htext', hbytes, hvalue]
  rfl

/-- **The bytes of seeds survive loading.**  A rule that is read has one seed for each seed of its
object, in order, each of which encodes to what that one contributes.  Its constant prefix is what
is known of the address before the references are given: the bytes from which the address is derived
begin with it, they are it if there is no reference, and nothing from the first reference on has to
do with it.  A text contributes the same bytes as a constant and as a string. -/
theorem readPda_seedBytes {place : Place} {raw : Json} {list : List Json} {p : Pda}
    (h : readPda place raw = .ok p) (hlist : raw.get? "seeds" = some (.arr list))
    (htexts : ∀ seed ∈ list, HasStringText seed) :
    ∃ contributions, List.Forall₂ Contributes list contributions ∧
      p.seeds.map Seed.encode = contributions.map .ok ∧
      p.constantPrefix = .ok (knownBytes contributions) ∧
      (∀ given, knownBytes contributions <+: derivationBytes given contributions ∧
        (none ∉ contributions → knownBytes contributions = derivationBytes given contributions)) ∧
      (∀ q : Pda, (q.seeds.takeWhile fun s => !s.isReference) =
          (p.seeds.takeWhile fun s => !s.isReference) → q.constantPrefix = p.constantPrefix) ∧
      ∀ {place place' : Place} {raw raw' : Json} {t : Text} {s s' : Seed},
        readSeed place raw = .ok s → raw.get? "kind" = some (.str "const") →
        raw.get? "value" = some (.str t) → readSeed place' raw' = .ok s' →
        raw'.get? "kind" = some (.str "string") → raw'.get? "value" = some (.str t) →
        s.encode = s'.encode := by
  cases readPda_eq_ok_iff.1 h with
  | mk hl _ hs _ =>
    obtain rfl := Json.arr.inj (Option.some.inj (hl.symm.trans hlist))
    obtain ⟨contributions, hraw, hseeds⟩ := exists_contributions hs htexts
    refine ⟨contributions, hraw, map_encode_eq hseeds, Pda.prefixBytes_eq hseeds,
      fun given => ⟨knownBytes_isPrefix given contributions, fun hnone =>
        knownBytes_eq hnone given⟩, fun q hq => ?_, encode_eq_of_text⟩
    calc q.constantPrefix
      _ = Pda.prefixBytes (q.seeds.takeWhile fun s => !s.isReference) :=
        (Pda.prefixBytes_takeWhile q.seeds).symm
      _ = Pda.prefixBytes (p.seeds.takeWhile fun s => !s.isReference) := by rw [hq]
      _ = p.constantPrefix := Pda.prefixBytes_takeWhile p.seeds

/-- Seeds of all kinds of contributions: bytes, a text as a string, a reference, a text as a
constant. -/
def seedsSample : List Json :=
  [.obj [("kind", .str "const"), ("value", .ofBytes [1, 2])],
    .obj [("kind", .str "string"), ("value", .str "é")],
    .obj [("kind", .str "arg"), ("path", .str "user")],
    .obj [("kind", .str "const"), ("value", .str "vault")]]

theorem seedsSample_seedBytes :
    ∃ p contributions, readPda [] (.obj [("seeds", .arr seedsSample)]) = .ok p ∧
      (∀ seed ∈ seedsSample, HasStringText seed) ∧
      List.Forall₂ Contributes seedsSample contributions ∧
      p.seeds.map Seed.encode = contributions.map .ok ∧
      p.constantPrefix = .ok (knownBytes contributions) ∧
      p.constantPrefix = .ok [1, 2, 0xC3, 0xA9] := by
  have hread : readPda [] (.obj [("seeds", .arr seedsSample)]) = .ok
      ⟨[{ kind := .const, value := some [1, 2] }, { kind := .string, text := some "é" },
        { kind := .arg, path := some "user" },
        { kind := .const, value := some [0x76, 0x61, 0x75, 0x6C, 0x74] }], none⟩ := by
    decide +kernel
  have htexts : ∀ seed ∈ seedsSample, HasStringText seed := by
    simp only [seedsSample, List.forall_mem_cons]
    refine ⟨nofun, fun t ht => ?_, nofun, fun t ht => ?_, nofun⟩
    · obtain rfl := Json.str.inj (Option.some.inj ht)
      decide
    · obtain rfl := Json.str.inj (Option.some.inj ht)
      decide
  obtain ⟨contributions, hraw, hencode, hprefix, -⟩ := readPda_seedBytes hread rfl htexts
  exact ⟨_, contributions, hread, htexts, hraw, hencode, hprefix, by decide +kernel⟩

end Document
end AnchorIdl
