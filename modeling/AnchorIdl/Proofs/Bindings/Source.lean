/-
# Modules are read back

The text of a bindings module is read as its title, its imports and its
assignments (`BindingsModule.script`).  The one condition is that it is
`Readable`: its name holds neither a quote nor a backslash, it imports a class,
and what it assigns to are names whose expressions are legible.  The main
statement is `read_render`.
-/

import AnchorIdl.Bindings.Module
import AnchorIdl.Proofs.Bindings.Term

namespace AnchorIdl
namespace BindingsModule

open Bindings Script

/-- The assignment of the exported names. -/
def exportList (m : BindingsModule) : Text × Expr :=
  ("__all__", .list .block (m.exports.map .text))

/-- What a module assigns, in order: the helpers, the schema, the constants and the exports. -/
def assignments (m : BindingsModule) : List (Text × Expr) :=
  m.helpers ++ [(m.binding, m.schema)] ++ (m.constants.map fun c => (c.1, Expr.text c.2)) ++
    [m.exportList]

/-- The text between the quotes of the title. -/
def titleText (m : BindingsModule) : Text :=
  "\nIDL bindings: " ++ m.name ++ ".\n\nGenerated by idlforge - DO NOT EDIT.\n"

/-- The script that a module is written as. -/
def script (m : BindingsModule) : Script where
  title := m.titleText
  imports := m.imports.map Constructor.name
  assignments := m.assignments.map fun a => (a.1, a.2.term)

/-- A module whose text can be read. -/
structure Readable (allowed : Int → Prop) (m : BindingsModule) : Prop where
  title : ∀ c ∈ m.name, c ≠ '"' ∧ c ≠ '\\'
  imports : m.imports ≠ []
  targets : ∀ a ∈ m.assignments, IsName a.1
  legible : ∀ a ∈ m.assignments, Legible allowed maxBrackets a.2

/-! ### Assignments -/

/-- Lines with a line feed after each. -/
def unlines (lines : List Text) : Text := lines.flatMap fun line => line ++ "\n"

/-- Lines that hold assignments, some of them empty. -/
inductive Spelled : List Text → List (Text × Expr) → Prop
  | nil : Spelled [] []
  | blank {lines : List Text} {as : List (Text × Expr)} (tail : Spelled lines as) :
      Spelled ([] :: lines) as
  | assignment {lines : List Text} {as : List (Text × Expr)} (a : Text × Expr)
      (tail : Spelled lines as) : Spelled (assignment a.1 a.2 :: lines) (a :: as)

theorem Spelled.append {lines more : List Text} {as bs : List (Text × Expr)}
    (h : Spelled lines as) (h' : Spelled more bs) : Spelled (lines ++ more) (as ++ bs) := by
  induction h with
  | nil => exact h'
  | blank _ ih => exact .blank ih
  | assignment a _ ih => exact .assignment a ih

theorem spelled_map (as : List (Text × Expr)) :
    Spelled (as.map fun a => assignment a.1 a.2) as := by
  induction as with
  | nil => exact .nil
  | cons a as ih => exact .assignment a ih

theorem spelled_paragraph (as : List (Text × Expr)) :
    Spelled (paragraph (as.map fun a => assignment a.1 a.2)) as := by
  cases as with
  | nil => exact .nil
  | cons a as =>
    have h := (spelled_map (a :: as)).append (.blank .nil)
    rwa [List.append_nil] at h

theorem readAssignment_assignment {allowed : Int → Prop} {name : Text} {e : Expr}
    (hname : IsName name) (he : Legible allowed maxBrackets e) (rest : Text) :
    readAssignment (assignment name e ++ "\n" ++ rest) = some ((name, e.term), rest) := by
  have htext : assignment name e ++ "\n" ++ rest =
      name ++ (Text.ofString " = " ++ (e.render 0 ++ (Text.ofString "\n" ++ rest))) := by
    simp [assignment]
  have hblank : ∀ c ∈ (Text.ofString " = " ++
      (e.render 0 ++ (Text.ofString "\n" ++ rest))).head?, c.isIdentifierContinue = false := by
    rintro c ⟨⟩
    decide
  have hend : Stops (Text.ofString "\n" ++ rest) := by
    rintro c ⟨⟩
    exact .inr (.inr (.inr rfl))
  rw [htext, readAssignment, readName_append hname.1 hblank]
  simp [hname.2, (he.reads 0).read _ hend]

theorem readAssignments_unlines {allowed : Int → Prop} {lines : List Text}
    {as : List (Text × Expr)} (h : Spelled lines as) (targets : ∀ a ∈ as, IsName a.1)
    (legible : ∀ a ∈ as, Legible allowed maxBrackets a.2) :
    readAssignments (unlines lines) = some (as.map fun a => (a.1, a.2.term)) := by
  induction h with
  | nil => rw [unlines, List.flatMap_nil, readAssignments]; rfl
  | @blank lines as _ ih =>
    change readAssignments (CodePoint.ofChar '\n' :: unlines lines) = _
    rw [readAssignments, if_pos rfl, ih targets legible]
  | @assignment lines as a _ ih =>
    rw [List.forall_mem_cons] at targets legible
    have hread := readAssignment_assignment targets.1 legible.1 (unlines lines)
    have hrest := ih targets.2 legible.2
    obtain ⟨c, name, hc⟩ := begins_append targets.1.1 (Text.ofString " = " ++ a.2.render 0)
    obtain ⟨hname, hblank, _⟩ := hc
    have htext : assignment a.1 a.2 = c :: name := by
      rw [← hname, assignment, List.append_assoc]
    have hfeed : c ≠ CodePoint.ofChar '\n' := by
      rintro rfl
      exact absurd hblank (by decide)
    have hunlines : unlines (assignment a.1 a.2 :: lines) =
        c :: (name ++ Text.ofString "\n" ++ unlines lines) := by
      simp [unlines, htext]
    rw [htext, List.cons_append, List.cons_append] at hread
    rw [hunlines, readAssignments, if_neg hfeed, hread]
    have hshort : (unlines lines).length <
        (c :: (name ++ Text.ofString "\n" ++ unlines lines)).length := by
      simp
      omega
    simp only [if_pos hshort, hrest, Option.map_some, List.map_cons]

/-! ### Modules -/

theorem readTitle_append {t : Text} (ht : ∀ c ∈ t, c ≠ '"' ∧ c ≠ '\\') (rest : Text) :
    readTitle (t ++ ("\"\"\"" ++ rest)) = some (t, rest) := by
  induction t with
  | nil =>
    change readTitle (CodePoint.ofChar '"' :: _) = _
    rw [readTitle]
    rfl
  | cons c t ih =>
    rw [List.forall_mem_cons] at ht
    have hquote : Text.dropStart? "\"\"\"" (c :: (t ++ ("\"\"\"" ++ rest))) = none :=
      Text.dropStart?_cons_of_ne (Ne.symm ht.1.1) _ _
    rw [List.cons_append, readTitle, hquote]
    simp only [if_neg ht.1.2, ih ht.2, Option.map_some]

/-- The lines after the import. -/
def body (m : BindingsModule) : List Text :=
  paragraph (m.helpers.map fun helper => assignment helper.1 helper.2) ++
    [assignment m.binding m.schema, []] ++
    paragraph (m.constants.map fun constant => assignment constant.1 (.text constant.2)) ++
    [assignment "__all__" (.list .block (m.exports.map .text))]

theorem spelled_body (m : BindingsModule) : Spelled m.body m.assignments := by
  have hconstants := spelled_paragraph (m.constants.map fun c => (c.1, Expr.text c.2))
  rw [List.map_map] at hconstants
  have hbinding : Spelled [assignment m.binding m.schema, []] [(m.binding, m.schema)] :=
    .assignment (m.binding, m.schema) (.blank .nil)
  have hexports : Spelled [assignment "__all__" (.list .block (m.exports.map .text))]
      [m.exportList] :=
    .assignment m.exportList .nil
  exact (((spelled_paragraph m.helpers).append hbinding).append hconstants).append hexports

theorem reads_import (c : Constructor) : Reads readName c.name c.name where
  begins := List.append_nil c.name ▸ begins_append (isName_constructor c).1 []
  read _ hr := readName_append (isName_constructor c).1 hr.isIdentifierContinue

theorem unlines_append (lines more : List Text) :
    unlines (lines ++ more) = unlines lines ++ unlines more :=
  List.flatMap_append

theorem unlines_imports (m : BindingsModule) (rest : Text) :
    unlines m.importLines ++ rest =
      Text.ofString "from idlforge.core.ir import (" ++
        (CodePoint.ofChar '\n' :: ((m.imports.map Constructor.name).flatMap (partLine 0) ++
          Expr.indentation 0 ++ CodePoint.ofChar ')' :: (Text.ofString "\n" ++
            (CodePoint.ofChar '\n' :: rest)))) := by
  have hfeed : Text.ofString "\n" = [CodePoint.ofChar '\n'] := rfl
  have hstop : Text.ofString ")" = [CodePoint.ofChar ')'] := rfl
  have hcomma : Text.ofString "," ++ Text.ofString "\n" = Text.ofString ",\n" := rfl
  have hline : (fun c : Constructor =>
      Expr.indentation 1 ++ (c.name ++ (Text.ofString "," ++ Text.ofString "\n"))) =
      fun c => partLine 0 c.name := by
    funext c
    simp [partLine, hcomma]
  have hindent : Expr.indentation 0 = [] := rfl
  simp only [importLines, unlines, List.flatMap_append, List.flatMap_cons, List.flatMap_nil,
    List.flatMap_map, List.append_assoc, List.cons_append, List.nil_append, hline, hindent]
  simp [hfeed, hstop]

theorem unlines_title (m : BindingsModule) (rest : Text) :
    unlines m.title ++ rest =
      Text.ofString "\"\"\"" ++ (m.titleText ++ (Text.ofString "\"\"\"" ++
        (Text.ofString "\n\n" ++ rest))) := by
  have hfirst : Text.ofString "\nIDL bindings: " =
      Text.ofString "\n" ++ Text.ofString "IDL bindings: " := rfl
  have hlast : Text.ofString ".\n\nGenerated by idlforge - DO NOT EDIT.\n" =
      Text.ofString "." ++ Text.ofString "\n" ++ Text.ofString "\n" ++
        Text.ofString "Generated by idlforge - DO NOT EDIT." ++ Text.ofString "\n" := rfl
  have hblank : Text.ofString "\n\n" = Text.ofString "\n" ++ Text.ofString "\n" := rfl
  simp [title, titleText, unlines, hfirst, hlast, hblank]

theorem titleText_plain {m : BindingsModule} (h : ∀ c ∈ m.name, c ≠ '"' ∧ c ≠ '\\') :
    ∀ c ∈ m.titleText, c ≠ '"' ∧ c ≠ '\\' := by
  have hstart : ∀ c ∈ Text.ofString "\nIDL bindings: ", c ≠ '"' ∧ c ≠ '\\' := by decide
  have hend : ∀ c ∈ Text.ofString ".\n\nGenerated by idlforge - DO NOT EDIT.\n",
      c ≠ '"' ∧ c ≠ '\\' := by decide
  unfold titleText
  rw [List.forall_mem_append, List.forall_mem_append]
  exact ⟨⟨hstart, h⟩, hend⟩

/-- **A readable module is read back from its text.** -/
theorem read_render {allowed : Int → Prop} {m : BindingsModule} (h : m.Readable allowed) :
    Script.read m.render = some m.script := by
  have himports : List.Forall₂ (Reads readName) (m.imports.map Constructor.name)
      (m.imports.map Constructor.name) := by
    rw [List.forall₂_same]
    exact List.forall_mem_map.2 fun c _ => reads_import c
  have hassignments : readAssignments (CodePoint.ofChar '\n' :: unlines m.body) =
      some (m.assignments.map fun a => (a.1, a.2.term)) :=
    readAssignments_unlines (.blank m.spelled_body) h.targets h.legible
  have hstart : Text.ofString "\n\nfrom idlforge.core.ir import (" =
      Text.ofString "\n\n" ++ Text.ofString "from idlforge.core.ir import (" := rfl
  have hlines : m.lines = m.title ++ (m.importLines ++ m.body) := by
    simp [lines, body]
  have hne : m.imports.map Constructor.name ≠ [] := by simpa using h.imports
  change Script.read (unlines m.lines) = _
  rw [hlines, unlines_append, unlines_append, unlines_title, unlines_imports, Script.read]
  simp only [Text.dropStart?_append, Option.bind_eq_bind, Option.bind_some,
    readTitle_append (titleText_plain h.title)]
  rw [hstart, ← List.append_assoc (Text.ofString "\n\n"), Text.dropStart?_append]
  simp only [Option.bind_some, (body_lines 0 himports).read (.inl rfl), Text.dropStart?_append,
    hassignments, if_neg hne]
  rfl

end BindingsModule
end AnchorIdl
