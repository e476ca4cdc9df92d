/-
# Expressions without layout

Squeezing takes from an expression as it is written its layout and nothing else:
what is left is its term, written without layout (`Legible.squeeze_render`).  A term
does not say how brackets are laid out, so expressions with one term are squeezed to
one text, at all levels of indentation.
-/

import AnchorIdl.Proofs.Bindings.Brackets
import AnchorIdl.Proofs.Script.Squeeze

namespace AnchorIdl
namespace Bindings

open Script

/-! ### Between brackets -/

section Layouts

variable {part compact : Text} {parts compacts : List Text} {stop : CodePoint}

theorem isSpace_of_mem_indentation {level : Nat} :
    ∀ c ∈ Expr.indentation level, isSpace c = true := by
  intro c hc
  obtain rfl := List.eq_of_mem_replicate hc
  decide

theorem isSpace_of_mem_newline (level : Nat) :
    ∀ c ∈ CodePoint.ofChar '\n' :: Expr.indentation level, isSpace c = true :=
  List.forall_mem_cons.2 ⟨by decide, isSpace_of_mem_indentation⟩

/-- Parts on one line. -/
theorem part_join (head : CodePart part compact) (tail : List.Forall₂ CodePart parts compacts) :
    CodePart (Text.join ", " (part :: parts)) (Text.join "," (compact :: compacts)) := by
  induction tail generalizing part compact with
  | nil => exact head
  | @cons next nextCompact parts compacts hnext _ ih =>
    have hblank : ∀ c ∈ [CodePoint.ofChar ' '], isSpace c = true := by decide
    have hjoin := head.append ((ih hnext).after_comma hblank)
    have hcomma : Text.ofString ", " = [CodePoint.ofChar ',', CodePoint.ofChar ' '] := rfl
    have hcompact : Text.ofString "," = [CodePoint.ofChar ','] := rfl
    simpa [Text.join, hcomma, hcompact] using hjoin

/-- Parts on lines of their own, from the first one to the closing bracket. -/
theorem part_lines (hsolid : isSolid stop = true) (hclosing : isClosing stop = true)
    (head : CodePart part compact) (tail : List.Forall₂ CodePart parts compacts) (level : Nat) :
    CodePart (part ++ ",\n" ++ parts.flatMap (partLine level) ++ Expr.indentation level ++ [stop])
      (Text.join "," (compact :: compacts) ++ [stop]) := by
  have hend : Text.ofString ",\n" = [CodePoint.ofChar ',', CodePoint.ofChar '\n'] := rfl
  induction tail generalizing part compact with
  | nil =>
    have hlast := head.append
      (leaves_last_comma (isSpace_of_mem_newline level) hsolid hclosing)
    simpa [Text.join, hend] using hlast
  | @cons next nextCompact parts compacts hnext _ ih =>
    have hlines := head.append ((ih hnext).after_comma (isSpace_of_mem_newline (level + 1)))
    have hcompact : Text.ofString "," = [CodePoint.ofChar ','] := rfl
    simpa [Text.join, partLine, hend, hcompact] using hlines

/-- **In either layout the parts are left with commas between them.** -/
theorem leaves_inside (hsolid : isSolid stop = true) (hclosing : isClosing stop = true)
    (h : List.Forall₂ CodePart parts compacts) (layout : Layout) (level : Nat) :
    Leaves .code (inside layout level parts ++ [stop]) (Text.join "," compacts ++ [stop]) := by
  have hstop : Leaves .code [stop] [stop] := leaves_solid (List.forall_mem_singleton.2 hsolid)
  cases layout with
  | line =>
    cases h with
    | nil => exact hstop
    | cons head tail => exact (part_join head tail).leaves.append hstop
  | block =>
    have hfeed : Text.ofString "\n" = [CodePoint.ofChar '\n'] := rfl
    cases h with
    | nil =>
      have hnone := (leaves_spaces (isSpace_of_mem_newline level)).append hstop
      simpa [inside, hfeed, Text.join] using hnone
    | cons head tail =>
      have hlines := (leaves_spaces (isSpace_of_mem_newline (level + 1))).append
        (part_lines hsolid hclosing head tail level).leaves
      simpa [inside, partLine, hfeed] using hlines

theorem leaves_bracketed {start : CodePoint} (hstart : isSolid start = true)
    (hsolid : isSolid stop = true) (hclosing : isClosing stop = true)
    (h : List.Forall₂ CodePart parts compacts) (layout : Layout) (level : Nat) :
    Leaves .code (start :: inside layout level parts ++ [stop])
      (start :: Text.join "," compacts ++ [stop]) := by
  have hopen : Leaves .code [start] [start] := leaves_solid (List.forall_mem_singleton.2 hstart)
  exact hopen.append (leaves_inside hsolid hclosing h layout level)

end Layouts

/-! ### Expressions -/

theorem compactItems_eq_map (ts : List Term) : compactItems ts = ts.map Term.compact := by
  induction ts with
  | nil => rfl
  | cons t rest ih => rw [compactItems, ih, List.map_cons]

theorem compactArguments_eq_map (arguments : List (Text × Expr)) :
    compactArguments (argumentTerms arguments) =
      arguments.map fun a => (a.1 ++ "=" ++ a.2.term.compact : Text) := by
  induction arguments with
  | nil => rfl
  | cons a rest ih => rw [argumentTerms, compactArguments, ih, List.map_cons]

theorem part_bytes (b : Bytes) :
    CodePart ("bytes(" ++ Seed.displayBytes b ++ ")") (Expr.bytes b).term.compact := by
  have hcallee : CodePart (Text.ofString "bytes(") (Text.ofString "bytes(") :=
    part_solid (by decide) (by decide)
  have hclose : Leaves .code (Text.ofString ")") (Text.ofString ")") := leaves_solid (by decide)
  have hitems : List.Forall₂ CodePart (b.map fun b => Text.ofNat b.toNat)
      (compactItems (b.map fun b => .int b.toNat)) := by
    rw [compactItems_eq_map, List.forall₂_map_left_iff, List.forall₂_map_right_iff,
      List.forall₂_map_right_iff, List.forall₂_same]
    exact fun b _ => part_ofNat b.toNat
  have hlist := @leaves_bracketed _ _ ']' '[' (by decide) (by decide) (by decide) hitems .line 0
  have hcall := (hcallee.append hlist).append hclose
  exact hcall

variable {allowed : Int → Prop} {n : Nat}

/-- **An expression is left as its term,** whatever its layouts are and at which level it is. -/
theorem Legible.part {e : Expr} (h : Legible allowed n e) :
    ∀ level, CodePart (e.render level) e.term.compact := by
  induction h with
  | text n t => exact fun _ => part_literal t
  | @int n i _ => exact fun _ => part_ofInt i
  | bytes n b => exact fun _ => part_bytes b
  | bool n b =>
    cases b with
    | true => exact fun _ => part_solid (by decide) (by decide)
    | false => exact fun _ => part_solid (by decide) (by decide)
  | none n => exact fun _ => part_solid (by decide) (by decide)
  | name n ht => exact fun _ => part_name ht
  | @list layout n items _ ih =>
    intro level
    have hitems : List.Forall₂ CodePart (items.map (Expr.render (level + 1)))
        (compactItems (itemTerms items)) := by
      rw [compactItems_eq_map, itemTerms_eq_map, List.forall₂_map_left_iff,
        List.forall₂_map_right_iff, List.forall₂_map_right_iff, List.forall₂_same]
      exact fun e he => ih e he (level + 1)
    obtain ⟨layout', hrender⟩ := render_list layout items level
    rw [hrender]
    refine .of_cons (by decide) (by decide) ?_
    exact leaves_bracketed (by decide) (by decide) (by decide) hitems layout' level
  | @call layout callee n arguments keys _ _ ih =>
    intro level
    have harguments : List.Forall₂ CodePart (arguments.map (argumentText (level + 1)))
        (compactArguments (argumentTerms arguments)) := by
      rw [compactArguments_eq_map, List.forall₂_map_left_iff, List.forall₂_map_right_iff,
        List.forall₂_same]
      intro a ha
      have hequals : Leaves .code (Text.ofString "=") (Text.ofString "=") :=
        leaves_solid (by decide)
      exact ((part_name (keys a ha)).append hequals).append (ih a ha (level + 1)).leaves
    have hparens :=
      @leaves_bracketed _ _ ')' '(' (by decide) (by decide) (by decide) harguments layout level
    rw [render_call, Expr.term, Term.compact, List.append_assoc, List.append_assoc]
    exact (part_name (isName_constructor callee)).append hparens

theorem Legible.squeeze_render {e : Expr} (h : Legible allowed n e) (level : Nat) :
    squeeze (e.render level) = e.term.compact :=
  (h.part level).leaves.squeeze

/-- Commas that are no last ones stay, and so does every character of a text. -/
example : squeeze ((Expr.spread .fieldDef
    [("name", .text "a, ]"), ("docs", .list .block [.text "b", .text "c"])]).render 1) =
    "FieldDef(name=\"a, ]\",docs=[\"b\",\"c\"])" := by decide

end Bindings
end AnchorIdl
