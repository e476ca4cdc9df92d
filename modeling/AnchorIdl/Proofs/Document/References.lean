/-
# Warnings of dangling references

A loaded document is warned of the references in it that nothing declares.  The
types of its arguments come first, instruction by instruction, then its custom
types, each at its place.  In one type every name that it refers to at any depth
and that neither a custom type nor an account layout has is warned of once, in
the order in which the names are first met (`undeclared`).

Every other line of the log is told apart from these: notes on the progress are
no warnings, and behind the place of a duplicate it says so.  The reference
warnings among the lines of a log are the ones listed here, word for word and in
this order (`load_referenceWarnings`), strictly and leniently.
-/

import AnchorIdl.Proofs.Document.Duplicates
import AnchorIdl.Proofs.FirstOccurrences
import AnchorIdl.Proofs.Schema.References

namespace AnchorIdl
namespace Document

/-! ### What a schema should be warned of -/

/-- A custom type or an account layout has a name. -/
def Declared (S : Schema) (name : Text) : Prop :=
  (∃ d ∈ S.types, d.name = name) ∨ ∃ a ∈ S.accounts, a.name = name

instance (S : Schema) (name : Text) : Decidable (Declared S name) :=
  inferInstanceAs (Decidable (_ ∨ _))

/-- The names that a type refers to and that are not declared, each once, as they are met. -/
def undeclared (S : Schema) (t : TypeExpr) : List Text :=
  t.references.eraseDups.filter fun name => ¬ Declared S name

/-- The line for a name that nothing declares, behind the text of a place. -/
def referenceLine (path name : Text) : LogLine where
  level := .warning
  source := .loader
  message := path ++ ": reference to undeclared type '" ++ name ++ "'"

/-- Where the argument `j` of the instruction `i` stands, as it is written. -/
def argPath (i j : Nat) : Text :=
  "instructions[" ++ Text.ofNat i ++ "].args[" ++ Text.ofNat j ++ "]"

/-- Where the custom type `i` stands, as it is written. -/
def typePath (i : Nat) : Text := "types[" ++ Text.ofNat i ++ "]"

/-- The lines for the references in a type that stands at a place. -/
def linesAt (S : Schema) (path : Text) (t : TypeExpr) : List LogLine :=
  (undeclared S t).map (referenceLine path)

/-- The lines for the references in a schema: those of its arguments, then those of its custom
types. -/
def referenceLines (S : Schema) : List LogLine :=
  (S.instructions.zipIdx.flatMap fun (x, i) =>
    x.args.zipIdx.flatMap fun (a, j) => linesAt S (argPath i j) a.type) ++
  S.types.zipIdx.flatMap fun (d, i) => linesAt S (typePath i) d.type

/-- Every name that a type of a schema refers to is declared. -/
structure Resolved (S : Schema) : Prop where
  args : ∀ x ∈ S.instructions, ∀ a ∈ x.args, ∀ N, a.type.Refers N → Declared S N
  types : ∀ d ∈ S.types, ∀ N, d.type.Refers N → Declared S N

/-! ### What is warned of -/

theorem mem_declaredNames_iff {S : Schema} {name : Text} :
    name ∈ declaredNames S ↔ Declared S name := by
  simp [declaredNames, Declared]

theorem mem_undeclared_iff {S : Schema} {t : TypeExpr} {N : Text} :
    N ∈ undeclared S t ↔ t.Refers N ∧ ¬ Declared S N := by
  rw [undeclared, List.mem_filter, List.mem_eraseDups, TypeExpr.mem_references_iff,
    decide_eq_true_iff]

theorem nodup_undeclared (S : Schema) (t : TypeExpr) : (undeclared S t).Nodup :=
  (nodup_eraseDups _).filter _

/-- The names that a type is reported for are the undeclared ones. -/
theorem filter_definedNames_eq (S : Schema) (t : TypeExpr) :
    (t.definedNames.filter fun name => !(declaredNames S).contains name) = undeclared S t := by
  rw [TypeExpr.definedNames_eq, undeclared]
  refine List.filter_congr fun name _ => ?_
  by_cases h : Declared S name <;> simp [h, mem_declaredNames_iff]

theorem display_argPlace (i j : Nat) : (argPlace i j).display = argPath i j := by
  simp [argPlace, argPath, Place.display, Place.displayStep, Text.ofString]

theorem display_typePlace (i : Nat) : (typePlace i).display = typePath i := by
  simp [typePlace, typePath, Place.display, Place.displayStep, Text.ofString]

theorem referenceWarning_eq (place : Place) (name : Text) :
    referenceWarning place name = referenceLine place.display name :=
  rfl

/-- **The dangling references of a schema are reported by its reference lines.** -/
theorem map_danglingReferences_eq (S : Schema) :
    (danglingReferences S).map (fun r => referenceWarning r.1 r.2) = referenceLines S := by
  have hexpression : ∀ e : Place × TypeExpr,
      ((e.2.definedNames.filter fun name => !(declaredNames S).contains name).map fun name =>
        (e.1, name)).map (fun r => referenceWarning r.1 r.2) = linesAt S e.1.display e.2 := by
    intro e
    rw [filter_definedNames_eq, List.map_map]
    exact List.map_congr_left fun name _ => referenceWarning_eq e.1 name
  calc (danglingReferences S).map (fun r => referenceWarning r.1 r.2)
    _ = (expressions S).flatMap fun e => linesAt S e.1.display e.2 := by
      rw [danglingReferences, List.map_flatMap]
      exact List.flatMap_congr fun e _ => hexpression e
    _ = referenceLines S := by
      rw [expressions, List.flatMap_append, List.flatMap_assoc, List.flatMap_map]
      simp only [List.flatMap_map]
      simp only [referenceLines, ← display_argPlace, ← display_typePlace]
      rfl

/-- What holds of every entry with its index holds of every entry. -/
theorem forall_mem_zipIdx_iff {α : Type} {P : α → Prop} {l : List α} :
    (∀ e ∈ l.zipIdx, P e.1) ↔ ∀ x ∈ l, P x := by
  rw [← List.forall_mem_map, List.zipIdx_map_fst]

theorem referenceLines_eq_nil_iff {S : Schema} : referenceLines S = [] ↔ Resolved S := by
  have hlines : ∀ path t, linesAt S path t = [] ↔ ∀ N, t.Refers N → Declared S N := by
    intro path t
    rw [linesAt, List.map_eq_nil_iff, List.eq_nil_iff_forall_not_mem]
    simp only [mem_undeclared_iff, not_and, not_not]
  have htypes := forall_mem_zipIdx_iff (P := fun d : TypeDefinition =>
    ∀ N, d.type.Refers N → Declared S N) (l := S.types)
  have hargs := fun x : Instruction => forall_mem_zipIdx_iff (P := fun a : Arg =>
    ∀ N, a.type.Refers N → Declared S N) (l := x.args)
  have hinstructions := forall_mem_zipIdx_iff (P := fun x : Instruction =>
    ∀ a ∈ x.args, ∀ N, a.type.Refers N → Declared S N) (l := S.instructions)
  simp only [referenceLines, List.append_eq_nil_iff, List.flatMap_eq_nil_iff, hlines, hargs,
    hinstructions, htypes]
  exact ⟨fun h => ⟨h.1, h.2⟩, fun h => ⟨h.args, h.types⟩⟩

/-! ### The lines of a log -/

/-- The line for a copy does not warn of a reference. -/
theorem not_warnsOf_reference {S : Schema} {l : LogLine} (h : l ∈ copyLines S) :
    ¬ l.warnsOf "reference to undeclared type '" = true := by
  obtain ⟨c, -, hl⟩ := List.mem_flatMap.1 h
  obtain ⟨e, -, rfl⟩ := List.mem_map.1 hl
  obtain ⟨rest, hline⟩ := warnsOf_copyLine (S := S) c e
  rw [hline]
  simp [Text.ofString]

theorem filter_referenceLines (S : Schema) :
    (referenceLines S).filter (LogLine.warnsOf "reference to undeclared type '") =
      referenceLines S := by
  rw [← map_danglingReferences_eq, List.filter_eq_self, List.forall_mem_map]
  intro r hr
  rw [warnsOf_referenceWarning (isPlain_of_mem_danglingReferences hr)]
  exact List.prefix_append _ _

/-- **The reference warnings of a loading are the dangling references.**  They are logged in the
order of the arguments and then of the custom types, each with its place; in each type every name
that it refers to at some depth and that is not declared is named once, as the names are first met.
None is logged exactly if every name that is referred to is declared. -/
theorem load_referenceWarnings {strict : Bool} {source : Source} {S : Schema}
    (h : (load strict source).outcome = .ok S) :
    (load strict source).log.filter (LogLine.warnsOf "reference to undeclared type '") =
      referenceLines S ∧
    (∀ t N, N ∈ undeclared S t ↔ t.Refers N ∧ ¬ Declared S N) ∧
    (∀ t, (undeclared S t).Nodup) ∧
    ((∀ l ∈ (load strict source).log, l.warnsOf "reference to undeclared type '" = false) ↔
      Resolved S) := by
  have hnotes : source.readSchema.log.filter
      (LogLine.warnsOf "reference to undeclared type '") = [] := by
    rw [List.filter_eq_nil_iff]
    intro l hl
    simp [LogLine.warnsOf, source.readSchema_log l hl]
  have hcopies : (copyLines S).filter (LogLine.warnsOf "reference to undeclared type '") = [] :=
    List.filter_eq_nil_iff.2 fun l hl => not_warnsOf_reference hl
  have hlog : (load strict source).log.filter
      (LogLine.warnsOf "reference to undeclared type '") = referenceLines S := by
    rw [load_log_of_ok h, map_danglingReferences_eq, List.filter_append, List.filter_append,
      List.filter_append, hnotes, hcopies, filter_referenceLines, filter_info, List.append_nil]
    rfl
  refine ⟨hlog, fun t N => mem_undeclared_iff, nodup_undeclared S, ?_⟩
  rw [← referenceLines_eq_nil_iff, ← hlog, List.filter_eq_nil_iff]
  simp only [Bool.not_eq_true]

/-- A document whose references stand below a type argument, a named field and a type by position;
two of the four names are declared. -/
def referringSample : Json :=
  let reference (name : Text) : Json := .obj [("defined", .str name)]
  .obj [
    ("instructions", .arr [.obj [("name", .str "send"),
      ("discriminator", .ofBytes [1, 2, 3, 4, 5, 6, 7, 8]),
      ("args", .arr [.obj [("name", .str "boxes"), ("type", .obj [("vec", .obj [("defined", .obj
        [("name", .str "Box"), ("generics", .arr [.obj [("kind", .str "type"),
          ("type", reference "Inner")]])])])])]])]]),
    ("accounts", .arr [.obj [("name", .str "Vault")]]),
    ("types", .arr [.obj [("name", .str "Box"), ("type", .obj [("kind", .str "enum"),
      ("variants", .arr [
        .obj [("name", .str "Held"), ("fields", .arr [.obj [("name", .str "vault"),
          ("type", reference "Vault")], .obj [("name", .str "owner"),
          ("type", reference "Owner")]])],
        .obj [("name", .str "Sent"), ("fields", .arr [reference "Inner",
          .obj [("option", reference "Owner")]])]])])]])]

/-- The schema of that document. -/
def referringSchema : Schema where
  instructions := [{
    name := "send"
    discriminator := [1, 2, 3, 4, 5, 6, 7, 8]
    args := [⟨"boxes", .container .vec (.defined "Box" [.defined "Inner" []])⟩] }]
  accounts := [{ name := "Vault" }]
  types := [{
    name := "Box"
    type := .enum [
      ⟨"Held", [⟨"vault", .defined "Vault" [], []⟩, ⟨"owner", .defined "Owner" [], []⟩], []⟩,
      ⟨"Sent", [], [.defined "Inner" [], .container .option (.defined "Owner" [])]⟩] }]

theorem referringSample_referenceWarnings :
    (load true (.value referringSample)).outcome = .ok referringSchema ∧
    (load true (.value referringSample)).log.filter
      (LogLine.warnsOf "reference to undeclared type '") = referenceLines referringSchema ∧
    referenceLines referringSchema = [referenceLine "instructions[0].args[0]" "Inner",
      referenceLine "types[0]" "Owner", referenceLine "types[0]" "Inner"] := by
  have h : (load true (.value referringSample)).outcome = .ok referringSchema := by decide +kernel
  exact ⟨h, (load_referenceWarnings h).1, by decide +kernel⟩

end Document
end AnchorIdl
