/-
# When bindings can be printed

Everything in a schema can be written but an integer of more digits than fit.
Emitting looks at the names first and then writes the whole schema, so it ends in
one of three ways (`emit_cases`):

| names | integers of the schema | emitting |
| --- | --- | --- |
| refused | any | fails with the error of the names |
| accepted | one too long | fails, and nothing is written |
| accepted | none too long | writes the module |

A document that was read from a text or from octets has no integer that is too
long, so its schema can be printed (`printed_of_load`).
-/

import AnchorIdl.Generation
import AnchorIdl.Proofs.Document.Duplicates
import AnchorIdl.Proofs.Log

namespace AnchorIdl
namespace Bindings

variable {S : Schema} {name binding text : Text}

/-! ### Printing -/

theorem printed_eq_ok {t : Text} :
    printed S t = .ok text ↔ (∀ n ∈ S.integers, Text.isShort n = true) ∧ t = text := by
  unfold printed
  split
  · next hall => simpa using fun _ => List.all_eq_true.1 hall
  · next hall => simpa using fun h => absurd (List.all_eq_true.2 h) hall

theorem printed_eq_error {t : Text} {f : Failure} :
    printed S t = .error f ↔ (∃ n ∈ S.integers, Text.isShort n = false) ∧ f = .overlong := by
  unfold printed
  split
  · next hall =>
    refine ⟨nofun, ?_⟩
    rintro ⟨⟨n, hn, hlong⟩, -⟩
    rw [List.all_eq_true.1 hall n hn] at hlong
    cases hlong
  · next hall =>
    have hlong : ∃ n ∈ S.integers, Text.isShort n = false := by simpa using hall
    exact ⟨fun h => ⟨hlong, (Except.error.inj h).symm⟩, fun h => h.2 ▸ rfl⟩

theorem printed_of_short (h : ∀ n ∈ S.integers, Text.isShort n = true) (t : Text) :
    printed S t = .ok t :=
  printed_eq_ok.2 ⟨h, rfl⟩

/-- What a document without integers that are too long is loaded as has none either. -/
theorem short_of_load {strict : Bool} {source : Document.Source} (hshort : source.Short)
    (hload : (Document.load strict source).outcome = .ok S) :
    ∀ n ∈ S.integers, Text.isShort n = true := by
  obtain ⟨document, hvalue, hform⟩ :=
    Document.Source.readSchema_eq_ok_iff.1 (Document.load_eq_ok_iff_readSchema.1 hload).1
  exact fun n hn => hshort _ hvalue n (hform.integers hn)

theorem printed_of_load {strict : Bool} {source : Document.Source} (hshort : source.Short)
    (hload : (Document.load strict source).outcome = .ok S) (t : Text) :
    printed S t = .ok t :=
  printed_of_short (short_of_load hshort hload) t

/-! ### Emitting -/

/-- The module that is emitted for a schema. -/
abbrev moduleFor (S : Schema) (name binding : Text) : BindingsModule :=
  (BindingsWriter.next { schema := S, name, binding }).1

/-- Emitting looks at the names and then prints the module. -/
theorem emit_outcome (S : Schema) (name binding : Text) :
    (emit S name binding).outcome =
      (checkNames name binding).mapError .error >>= fun _ =>
        printed S (moduleFor S name binding).render := by
  have hlogged (x : Except Failure Text) (lines : List LogLine) :
      (Logged.lift x >>= fun text => Logged.tellAll lines >>= fun _ => pure text).outcome = x := by
    cases x <;> rfl
  unfold emit BindingsWriter.make
  cases checkNames name binding with
  | error e => rfl
  | ok _ => exact hlogged _ _

/-- **Emitting ends in one of three ways.** -/
theorem emit_cases (S : Schema) (name binding : Text) :
    (∃ e, checkNames name binding = .error e ∧
      (emit S name binding).outcome = .error (.error e)) ∨
    (checkNames name binding = .ok () ∧ (∃ n ∈ S.integers, Text.isShort n = false) ∧
      (emit S name binding).outcome = .error .overlong) ∨
    (checkNames name binding = .ok () ∧ (∀ n ∈ S.integers, Text.isShort n = true) ∧
      (emit S name binding).outcome = .ok (moduleFor S name binding).render) := by
  rw [emit_outcome]
  cases hnames : checkNames name binding with
  | error e => exact .inl ⟨e, rfl, rfl⟩
  | ok _ =>
    change _ ∨ (_ ∧ _ ∧ printed S _ = _) ∨ (_ ∧ _ ∧ printed S _ = _)
    cases hprinted : printed S (moduleFor S name binding).render with
    | error f =>
      obtain ⟨hlong, rfl⟩ := printed_eq_error.1 hprinted
      exact .inr (.inl ⟨rfl, hlong, rfl⟩)
    | ok text =>
      obtain ⟨hshort, rfl⟩ := printed_eq_ok.1 hprinted
      exact .inr (.inr ⟨rfl, hshort, rfl⟩)

end Bindings

/-! ### Generating -/

section Generating

variable {strict : Bool} {source : Document.Source} {schema : Schema}

/-- Generating from a document that is loaded is emitting its schema. -/
theorem generate_of_loaded (hload : (Document.load strict source).outcome = .ok schema)
    (name binding : Text) :
    (generate strict source name binding).outcome =
      (Bindings.emit schema name binding).outcome := by
  have hload' : ((Document.load strict source).mapError
      (Document.Rejection.toFailure none)).outcome = .ok schema := by
    rw [Logged.mapError, hload]
    rfl
  unfold generate
  rw [Logged.bind_of_ok hload']

theorem generate_of_rejected {rejection : Document.Rejection}
    (hload : (Document.load strict source).outcome = .error rejection) (name binding : Text) :
    (generate strict source name binding).outcome = .error (rejection.toFailure none) := by
  have hload' : ((Document.load strict source).mapError
      (Document.Rejection.toFailure none)).outcome = .error (rejection.toFailure none) := by
    rw [Logged.mapError, hload]
    rfl
  unfold generate
  rw [Logged.bind_of_error hload']

end Generating

theorem BindingsWriter.make_eq_ok {schema : Schema} {name binding : Text} {w : BindingsWriter} :
    make schema name binding = .ok w ↔
      Bindings.checkNames name binding = .ok () ∧ w = { schema, name, binding } := by
  unfold make
  cases Bindings.checkNames name binding with
  | error e => exact ⟨nofun, fun h => nomatch h.1⟩
  | ok _ => exact ⟨fun h => ⟨rfl, (Except.ok.inj h).symm⟩, fun h => h.2 ▸ rfl⟩

/-- What a writer writes, if it can be printed, and what the writer is from then on. -/
theorem BindingsWriter.write_eq_ok {w after : BindingsWriter} {text : Text} :
    w.write = .ok (text, after) ↔ Bindings.printed w.schema w.next.1.render = .ok text ∧
      after = { w with draft := w.next.1.draft, warnings := w.warnings ++ w.next.2 } := by
  unfold BindingsWriter.write
  cases hprinted : Bindings.printed w.schema w.next.1.render with
  | error f => simp [Bind.bind, Except.bind, hprinted]
  | ok t =>
    simp only [Bind.bind, Except.bind, hprinted, pure, Except.pure, Except.ok.injEq, Prod.mk.injEq]
    exact and_congr_right fun _ => eq_comm

/-- The writer for a document without integers that are too long can write its module. -/
theorem BindingsWriter.exists_write {schema : Schema} {name binding : Text} {w : BindingsWriter}
    {strict : Bool} {source : Document.Source} (hmake : make schema name binding = .ok w)
    (hshort : source.Short) (hload : (Document.load strict source).outcome = .ok schema) :
    ∃ text after, w.write = .ok (text, after) := by
  obtain ⟨-, rfl⟩ := make_eq_ok.1 hmake
  exact ⟨_, _, write_eq_ok.2 ⟨Bindings.printed_of_load hshort hload _, rfl⟩⟩

end AnchorIdl
