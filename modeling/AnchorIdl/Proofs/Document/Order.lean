/-
# The order of members and members that are not read

Loading a rearranged document ends as loading the document does, and leaves the
same log (`load_rearranged`).  Reading goes through the sections of both documents
side by side and notes the same after each (`readSchema_inStep`).  Everything after
the reading depends on the schema alone, which is the same.

A fault may show a value of the document, members that are not read included.  So
the ends agree only if that does not fail, as it never does for what has no
integer of more digits than can be written.
-/

import AnchorIdl.Proofs.Document.EntryParallel
import AnchorIdl.Proofs.Document.Overlong

namespace AnchorIdl
namespace Document

variable {α β γ δ : Type}

/-! ### Reading -/

/-- Two logged computations log the same and end in parallel. -/
structure InStep (R : α → β → Prop) (x : Logged Rejection α) (y : Logged Rejection β) : Prop where
  log : x.log = y.log
  outcome : Parallel [] [] R x.outcome y.outcome

namespace InStep

variable {R : α → β → Prop} {S : γ → δ → Prop}

theorem lift {x : Reading α} {y : Reading β} (h : Parallel [] [] R x y) :
    InStep R (.lift x) (.lift y) :=
  ⟨rfl, h⟩

theorem bind {x : Logged Rejection α} {y : Logged Rejection β} {f : α → Logged Rejection γ}
    {g : β → Logged Rejection δ} (h : InStep R x y) (hf : ∀ a b, R a b → InStep S (f a) (g b)) :
    InStep S (x >>= f) (y >>= g) := by
  obtain ⟨hlog, houtcome⟩ := h
  generalize hx : x.outcome = o, hy : y.outcome = o' at houtcome
  cases houtcome with
  | error he =>
    rw [Logged.bind_of_error hx, Logged.bind_of_error hy]
    exact ⟨hlog, .error he⟩
  | ok hab =>
    have hrest := hf _ _ hab
    rw [Logged.bind_of_ok hx, Logged.bind_of_ok hy]
    exact ⟨by rw [hlog, hrest.log], hrest.outcome⟩

/-- A section is read and counted in step. -/
theorem section_bind {x y : Reading (List α)} {what : Text} {f g : List α → Logged Rejection γ}
    (h : Parallel [] [] Eq x y) (hf : ∀ entries, InStep Eq (f entries) (g entries)) :
    InStep Eq (do let entries ← .lift x; noteCount entries what; f entries)
      (do let entries ← .lift y; noteCount entries what; g entries) := by
  refine .bind (.lift h) fun entries entries' hentries => ?_
  obtain rfl := hentries
  exact .bind (R := Eq) ⟨rfl, .ok rfl⟩ fun _ _ _ => hf entries

end InStep

/-- **A rearranged document is read in step with the document.** -/
theorem readSchema_inStep {D D' : Json} (h : Rearranges (some .document) D D') :
    InStep Eq (readSchema D) (readSchema D') := by
  refine .bind (.lift (object_parallel h)) fun document document' hdocument => ?_
  refine .bind (.lift (readMetadata_parallel hdocument)) fun metadata _ hmetadata => ?_
  refine .bind (.lift (readAddress_parallel hdocument)) fun address _ haddress => ?_
  obtain rfl := hmetadata
  obtain rfl := haddress
  refine .section_bind (readSection_parallel (r := .instruction) hdocument (by simp [Role.parts])
    fun _ _ _ => readInstruction_parallel) fun _ => ?_
  refine .section_bind (readSection_parallel (r := .layout) hdocument (by simp [Role.parts])
    fun _ _ _ => readAccountDefinition_parallel) fun _ => ?_
  refine .section_bind (readSection_parallel (r := .error) hdocument (by simp [Role.parts])
    fun _ _ _ => readError_parallel) fun _ => ?_
  refine .section_bind (readSection_parallel (r := .custom) hdocument (by simp [Role.parts])
    fun _ _ _ => readTypeDefinition_parallel) fun _ => ?_
  exact ⟨rfl, .ok rfl⟩

/-! ### Loading -/

/-- Two ends of loading: equal schemas, faults of the same kind at the same place, or the same
rejection for another reason. -/
inductive SameEnd : Reading Schema → Reading Schema → Prop
  | schema (S : Schema) : SameEnd (.ok S) (.ok S)
  | fault {f f' : Fault} (kind : f.kind = f'.kind) (place : f.place = f'.place) :
      SameEnd (.error (.fault f)) (.error (.fault f'))
  | other {e : Rejection} (h : ∀ f, e ≠ .fault f) : SameEnd (.error e) (.error e)

theorem SameEnd.refl (x : Reading Schema) : SameEnd x x := by
  match x with
  | .ok S => exact .schema S
  | .error (.fault f) => exact .fault rfl rfl
  | .error (.unencodable _) | .error (.longInteger _) | .error .overlong => exact .other nofun

/-- Rejections of one kind are raised alike, unless one of them cannot be shown. -/
theorem Moved.sameEnd {place : Place} {e e' : Rejection} (h : Moved place place e e')
    (he : e.raised ≠ .overlong) (he' : e'.raised ≠ .overlong) :
    SameEnd (.error e.raised) (.error e'.raised) := by
  cases h with
  | @fault c c' kind steps =>
    rw [(raised_fault_cases _).resolve_right he, (raised_fault_cases _).resolve_right he']
    exact .fault kind rfl
  | unencodable fault => exact .other nofun

theorem load_rearranged_of_ne {D D' : Json} (h : Rearranges (some .document) D D')
    (strict : Bool) : (load strict (.value D)).log = (load strict (.value D')).log ∧
      ((load strict (.value D)).outcome ≠ .error .overlong →
        (load strict (.value D')).outcome ≠ .error .overlong →
        SameEnd (load strict (.value D)).outcome (load strict (.value D')).outcome) := by
  obtain ⟨hlog, houtcome⟩ := readSchema_inStep h
  have hraised : ∀ D : Json, (Source.value D).readSchema.outcome =
      (readSchema D).outcome.mapError Rejection.raised := fun _ => rfl
  generalize hx : (readSchema D).outcome = x, hy : (readSchema D').outcome = y at houtcome
  cases houtcome with
  | @error e e' he =>
    have hD : (Source.value D).readSchema.outcome = .error e.raised := by rw [hraised, hx]; rfl
    have hD' : (Source.value D').readSchema.outcome = .error e'.raised := by rw [hraised, hy]; rfl
    rw [load_eq, load_eq, Logged.bind_of_error hD, Logged.bind_of_error hD']
    exact ⟨hlog, fun hne hne' => he.sameEnd (fun heq => hne (congrArg _ heq))
      fun heq => hne' (congrArg _ heq)⟩
  | @ok S S' hS =>
    obtain rfl := hS
    have hD : (Source.value D).readSchema.outcome = .ok S := by rw [hraised, hx]; rfl
    have hD' : (Source.value D').readSchema.outcome = .ok S := by rw [hraised, hy]; rfl
    rw [load_eq, load_eq, Logged.bind_of_ok hD, Logged.bind_of_ok hD']
    exact ⟨congrArg (· ++ _) hlog, fun _ _ => .refl _⟩

/-- **The order of members and members that are not read do not matter.**  A rearranged document
leaves the same log in either mode.  It loads to an equal schema, or is rejected with a fault of the
same kind at the same place, or for the same other reason, if neither document has an integer of
more digits than can be written, or else if what is said of a fault can be shown for both. -/
theorem load_rearranged {D D' : Json} (h : Rearranges (some .document) D D') (strict : Bool) :
    (load strict (.value D)).log = (load strict (.value D')).log ∧
      (D.Short → D'.Short →
        SameEnd (load strict (.value D)).outcome (load strict (.value D')).outcome) ∧
      ((load strict (.value D)).outcome ≠ .error .overlong →
        (load strict (.value D')).outcome ≠ .error .overlong →
        SameEnd (load strict (.value D)).outcome (load strict (.value D')).outcome) := by
  obtain ⟨hlog, hend⟩ := load_rearranged_of_ne h strict
  refine ⟨hlog, fun hD hD' => hend ?_ ?_, hend⟩
  · exact load_ne_overlong (Source.short_value.2 hD)
  · exact load_ne_overlong (Source.short_value.2 hD')

/-- A document with a custom type. -/
def orderSample : Json :=
  .obj [("name", .str "vault"), ("types", .arr [.obj [("name", .str "Pair"),
    ("type", .obj [("kind", .str "struct"), ("fields", .arr [
      .obj [("name", .str "left"), ("type", .obj [("option", .str "u8")])]])])]])]

/-- The same document with more members, and the members of each object in reverse. -/
def reversedSample : Json :=
  .obj [("note", .null), ("types", .arr [.obj [("type", .obj [("size", .int 2), ("fields", .arr [
      .obj [("hint", .arr []), ("type", .obj [("option", .str "u8")]), ("name", .str "left")]]),
    ("kind", .str "struct")]), ("name", .str "Pair")]]), ("name", .str "vault")]

/-- The schema that both load to. -/
def orderSampleSchema : Schema where
  metadata := { name := "vault" }
  types := [⟨"Pair", .struct [⟨"left", .container .option (.primitive .u8), []⟩], []⟩]

theorem orderSample_rearranged :
    Rearranges (some .document) orderSample reversedSample ∧
    (load true (.value orderSample)).log = (load true (.value reversedSample)).log ∧
    SameEnd (load true (.value orderSample)).outcome (load true (.value reversedSample)).outcome ∧
    (load true (.value reversedSample)).outcome = .ok orderSampleSchema := by
  have hfield : Rearranges (some .field) _ _ :=
    @Rearranges.object _ [("name", .str "left"), ("type", .obj [("option", .str "u8")])] _
      [("hint", .arr [])] _ (by rfl)
      (.values_cons (.same _ _) (.values_cons (.same _ _) .values_nil))
      (by decide) (by decide) (List.reverse_perm _).symm (by decide)
  have hfields : Rearranges (some (.list .field)) _ _ := .singleton hfield
  have hshape : Rearranges (some .type) _ _ :=
    @Rearranges.object _ [("kind", .str "struct"), ("fields", _)] _ [("size", .int 2)] _ (by rfl)
      (.values_cons (.same _ _) (.values_cons hfields .values_nil))
      (by decide) (by decide) (List.reverse_perm _).symm (by decide)
  have hcustom : Rearranges (some .custom) _ _ :=
    @Rearranges.object _ [("name", .str "Pair"), ("type", _)] _ [] _ (by rfl)
      (.values_cons (.same _ _) (.values_cons hshape .values_nil))
      (by decide) (by decide) (List.reverse_perm _).symm (by decide)
  have htypes : Rearranges (some (.list .custom)) _ _ := .singleton hcustom
  have hdocument : Rearranges (some .document) orderSample reversedSample :=
    @Rearranges.object _ [("name", .str "vault"), ("types", _)] _ [("note", .null)] _ (by rfl)
      (.values_cons (.same _ _) (.values_cons htypes .values_nil))
      (by decide) (by decide) (List.reverse_perm _).symm (by decide)
  have hload := load_rearranged hdocument true
  have hshort : orderSample.Short ∧ reversedSample.Short := by
    unfold Json.Short
    decide
  exact ⟨hdocument, hload.1, hload.2.1 hshort.1 hshort.2, by decide +kernel⟩

end Document
end AnchorIdl
