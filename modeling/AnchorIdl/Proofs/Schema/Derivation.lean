/-
# What an address is derived from

The address of a rule is derived from the bytes of its seeds, one after the
other.  What each seed contributes is its own bytes, or nothing yet if it is a
reference; the bytes of the references are given when an instruction is built.

So the bytes before the first reference are known beforehand (`knownBytes`).
Whatever the references will be, the address is derived from bytes that begin
with these (`knownBytes_isPrefix`), and from no others if there is no reference
(`knownBytes_eq`).  They are what `constantPrefix` computes (`prefixBytes_eq`),
and it looks no further than the first reference (`prefixBytes_takeWhile`).
-/

import AnchorIdl.Schema.Basic
import Mathlib.Data.List.Forall2
import Mathlib.Data.List.TakeWhile

namespace AnchorIdl

/-- The bytes that an address is derived from, if the reference with index `i` has the bytes
`given i`. -/
def derivationBytes (given : Nat → Bytes) (contributions : List (Option Bytes)) : Bytes :=
  contributions.zipIdx.flatMap fun (bytes, i) => bytes.getD (given i)

/-- The bytes before the first reference. -/
def knownBytes (contributions : List (Option Bytes)) : Bytes :=
  (contributions.takeWhile Option.isSome).flatMap fun bytes => bytes.getD []

/-- What is given does not matter where there is no reference. -/
theorem flatMap_zipIdx_of_isSome {contributions : List (Option Bytes)}
    (h : ∀ bytes ∈ contributions, bytes.isSome = true) (given : Nat → Bytes) (i : Nat) :
    ((contributions.zipIdx i).flatMap fun (bytes, i) => bytes.getD (given i)) =
      contributions.flatMap fun bytes => bytes.getD [] := by
  induction contributions generalizing i with
  | nil => rfl
  | cons bytes rest ih =>
    obtain ⟨own, rfl⟩ := Option.isSome_iff_exists.1 (h bytes List.mem_cons_self)
    have hrest := ih (fun bytes hb => h bytes (List.mem_cons_of_mem _ hb)) (i + 1)
    rw [List.zipIdx_cons, List.flatMap_cons, List.flatMap_cons, hrest]
    rfl

/-- **Whatever the references are, what is known comes first.** -/
theorem knownBytes_isPrefix (given : Nat → Bytes) (contributions : List (Option Bytes)) :
    knownBytes contributions <+: derivationBytes given contributions := by
  have hsplit := List.takeWhile_append_dropWhile (p := Option.isSome) (l := contributions)
  have hknown : ∀ bytes ∈ contributions.takeWhile Option.isSome, bytes.isSome = true :=
    fun bytes hb => List.mem_takeWhile_imp hb
  unfold derivationBytes knownBytes
  rw [← flatMap_zipIdx_of_isSome hknown given 0]
  conv => rhs; rw [← hsplit, List.zipIdx_append, List.flatMap_append]
  exact List.prefix_append ..

/-- Without references all is known. -/
theorem knownBytes_eq {contributions : List (Option Bytes)} (h : none ∉ contributions)
    (given : Nat → Bytes) : knownBytes contributions = derivationBytes given contributions := by
  have hall : ∀ bytes ∈ contributions, bytes.isSome = true := fun bytes hb =>
    Option.isSome_iff_ne_none.2 fun hnone => h (hnone ▸ hb)
  unfold derivationBytes knownBytes
  rw [flatMap_zipIdx_of_isSome hall, List.takeWhile_eq_self_iff.2 hall]

namespace Pda

/-- A seed contributes its bytes, or nothing yet exactly if it is a reference. -/
structure SeedContributes (s : Seed) (bytes : Option Bytes) : Prop where
  encode : s.encode = .ok bytes
  reference : s.isReference = true ↔ bytes = none

/-- **The constant prefix is what is known.** -/
theorem prefixBytes_eq {seeds : List Seed} {contributions : List (Option Bytes)}
    (h : List.Forall₂ SeedContributes seeds contributions) :
    prefixBytes seeds = .ok (knownBytes contributions) := by
  induction h with
  | nil => rfl
  | @cons s bytes seeds contributions hs _ ih =>
    cases bytes with
    | none =>
      rw [prefixBytes, if_pos (hs.reference.2 rfl)]
      rfl
    | some own =>
      have hown : ¬ s.isReference = true := fun hr => nomatch hs.reference.1 hr
      rw [prefixBytes, if_neg hown, hs.encode, ih]
      rfl

/-- What stands from the first reference on does not matter. -/
theorem prefixBytes_takeWhile (seeds : List Seed) :
    prefixBytes (seeds.takeWhile fun s => !s.isReference) = prefixBytes seeds := by
  induction seeds with
  | nil => rfl
  | cons s rest ih =>
    by_cases hr : s.isReference = true
    · simp [prefixBytes, hr]
    · simp [prefixBytes, hr, ih]

end Pda
end AnchorIdl
