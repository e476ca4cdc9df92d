/-
# Expressions are read back

An expression of a bindings module is written in one of two layouts, at any
level of indentation, and read back as the same term (`Legible.reads`).  What
that needs of the expression is `Legible`: its names are names, and it opens no
more brackets than may be opened.  `Legible` also carries what compiling the
term needs: no call has a keyword twice, and its integers are of a kind that is
`allowed`.
-/

import AnchorIdl.Bindings.Expr
import AnchorIdl.Proofs.Script.Reading
import AnchorIdl.Proofs.Text.Numeral
import Mathlib.Data.List.Forall2

namespace AnchorIdl
namespace Bindings

open Script

mutual

/-- The term that an expression is written as. -/
def Expr.term : Expr → Term
  | .text t => .text t
  | .int n => .int n
  | .bytes b => .call "bytes" [(none, .list (b.map fun b => .int b.toNat))]
  | .bool b => .bool b
  | .none => .none
  | .name n => .name n
  | .list _ items => .list (itemTerms items)
  | .call _ callee arguments => .call callee.name (argumentTerms arguments)

/-- The terms of some items. -/
def itemTerms : List Expr → List Term
  | [] => []
  | e :: rest => e.term :: itemTerms rest

/-- The terms of some arguments, with their keywords. -/
def argumentTerms : List (Text × Expr) → List (Option Text × Term)
  | [] => []
  | (key, e) :: rest => (some key, e.term) :: argumentTerms rest

end

/-- An expression that can be read where `brackets` brackets may still be opened. -/
inductive Legible (allowed : Int → Prop) : (brackets : Nat) → Expr → Prop
  | text (n : Nat) (t : Text) : Legible allowed n (.text t)
  | int (n : Nat) {i : Int} (h : allowed i) : Legible allowed n (.int i)
  | bytes (n : Nat) (b : Bytes) : Legible allowed (n + 2) (.bytes b)
  | bool (n : Nat) (b : Bool) : Legible allowed n (.bool b)
  | none (n : Nat) : Legible allowed n .none
  | name (n : Nat) {t : Text} (h : IsName t) : Legible allowed n (.name t)
  | list (layout : Layout) {n : Nat} {items : List Expr} (each : ∀ e ∈ items, Legible allowed n e) :
      Legible allowed (n + 1) (.list layout items)
  | call (layout : Layout) (callee : Constructor) {n : Nat} {arguments : List (Text × Expr)}
      (keys : ∀ a ∈ arguments, IsName a.1) (distinct : (arguments.map Prod.fst).Nodup)
      (each : ∀ a ∈ arguments, Legible allowed n a.2) :
      Legible allowed (n + 1) (.call layout callee arguments)

theorem itemTerms_eq_map (items : List Expr) : itemTerms items = items.map Expr.term := by
  induction items with
  | nil => rfl
  | cons e rest ih => rw [itemTerms, ih, List.map_cons]

theorem argumentTerms_eq_map (arguments : List (Text × Expr)) :
    argumentTerms arguments = arguments.map fun a => (some a.1, a.2.term) := by
  induction arguments with
  | nil => rfl
  | cons a rest ih => rw [argumentTerms, ih, List.map_cons]

theorem renderItems_eq_map (level : Nat) (items : List Expr) :
    Expr.renderItems level items = items.map (Expr.render level) := by
  induction items with
  | nil => rfl
  | cons e rest ih => rw [Expr.renderItems, ih, List.map_cons]

theorem renderArguments_eq_map (level : Nat) (arguments : List (Text × Expr)) :
    Expr.renderArguments level arguments =
      arguments.map fun a => (a.1 ++ "=" ++ a.2.render level : Text) := by
  induction arguments with
  | nil => rfl
  | cons a rest ih => rw [Expr.renderArguments, ih, List.map_cons]

/-! ### Layouts -/

theorem isBlank_of_mem_indentation {level : Nat} :
    ∀ c ∈ Expr.indentation level, isBlank c = true := by
  intro c hc
  obtain rfl := List.eq_of_mem_replicate hc
  decide

variable {α : Type} {item : Scanner α} {stop : CodePoint} {rest : Text}

theorem body_join {parts : List Text} {xs : List α} (h : List.Forall₂ (Reads item) parts xs) :
    Body item stop rest (Text.join ", " parts ++ stop :: rest) xs := by
  have hempty : ∀ c ∈ ([] : Text), isBlank c = true := by simp
  induction h with
  | nil => exact .stop hempty
  | @cons part x parts xs head tail ih =>
    cases tail with
    | nil => exact .last hempty head
    | @cons next y parts xs _ _ =>
      have hcomma : Text.join ", " (part :: next :: parts) ++ stop :: rest =
          part ++ CodePoint.ofChar ',' :: ([CodePoint.ofChar ' '] ++
            (Text.join ", " (next :: parts) ++ stop :: rest)) := by
        simp only [Text.join, List.append_assoc]
        rfl
      rw [hcomma]
      exact .cons hempty head (ih.append (by decide))

/-- A part on a line of its own, with a comma after it. -/
def partLine (level : Nat) (part : Text) : Text := Expr.indentation (level + 1) ++ part ++ ",\n"

theorem body_lines (level : Nat) {parts : List Text} {xs : List α}
    (h : List.Forall₂ (Reads item) parts xs) :
    Body item stop rest (CodePoint.ofChar '\n' ::
      (parts.flatMap (partLine level) ++ Expr.indentation level ++ stop :: rest)) xs := by
  have hblank : ∀ level, ∀ c ∈ CodePoint.ofChar '\n' :: Expr.indentation level,
      isBlank c = true :=
    fun level => List.forall_mem_cons.2 ⟨by decide, isBlank_of_mem_indentation⟩
  induction h with
  | nil => exact .stop (hblank level)
  | @cons part x parts xs head tail ih =>
    have hline : CodePoint.ofChar '\n' :: ((part :: parts).flatMap (partLine level) ++
          Expr.indentation level ++ stop :: rest) =
        (CodePoint.ofChar '\n' :: Expr.indentation (level + 1)) ++
          (part ++ CodePoint.ofChar ',' :: CodePoint.ofChar '\n' ::
            (parts.flatMap (partLine level) ++ Expr.indentation level ++ stop :: rest)) := by
      have hend : Text.ofString ",\n" = [CodePoint.ofChar ',', CodePoint.ofChar '\n'] := rfl
      simp [partLine, hend]
    rw [hline]
    exact .cons (hblank (level + 1)) head ih

/-- In either layout the parts stand between the brackets as a reader expects them. -/
theorem body_enclose {parts : List Text} {xs : List α} (h : List.Forall₂ (Reads item) parts xs)
    (layout : Layout) (level : Nat) (start : Text) (stop : CodePoint) (rest : Text) :
    ∃ s, Expr.enclose layout level start [stop] parts ++ rest = start ++ s ∧
      Body item stop rest s xs := by
  cases layout with
  | line => exact ⟨_, by simp [Expr.enclose], body_join h⟩
  | block =>
    have hend : Text.ofString "\n" = [CodePoint.ofChar '\n'] := rfl
    have hlines : (fun part => (Expr.indentation (level + 1) ++ part ++ ",\n" : Text)) =
        partLine level := rfl
    refine ⟨_, ?_, body_lines level h⟩
    simp only [Expr.enclose, hlines]
    simp [hend]

/-! ### Expressions -/

theorem isName_constructor (c : Constructor) : IsName c.name := by
  cases c <;> decide

theorem begins_literal (t : Text) : Begins (Quoted.literal t) := by
  unfold Quoted.literal Quoted.within
  split
  · exact ⟨_, _, rfl, by decide⟩
  · exact ⟨_, _, rfl, by decide⟩

theorem begins_ofInt (n : Int) : Begins (Text.ofInt n) := by
  cases n with
  | ofNat n =>
    obtain ⟨d, digits, h⟩ := List.exists_cons_of_ne_nil (Text.ofNat_ne_nil n)
    have hd : d.isDigit = true := Text.isDigit_of_mem_ofNat (h ▸ List.mem_cons_self ..)
    have hne : ∀ {x : Char}, (CodePoint.ofChar x).isDigit = false → d ≠ CodePoint.ofChar x := by
      rintro x hx rfl
      simp [hx] at hd
    refine ⟨d, digits, h, ?_, hne (by decide), hne (by decide)⟩
    simp only [isBlank, Bool.or_eq_false_iff, decide_eq_false_iff_not]
    exact ⟨hne (by decide), hne (by decide)⟩
  | negSucc n => exact ⟨_, _, rfl, by decide⟩

theorem reads_text (n : Nat) (t : Text) : Reads (readTerm n) (Quoted.literal t) (.text t) where
  begins := begins_literal t
  read rest hr := by
    obtain ⟨inner, hinner⟩ := readTerm_eq_with n
    rw [hinner, readTermWith_text inner t hr]

theorem reads_int (n : Nat) (i : Int) : Reads (readTerm n) (Text.ofInt i) (.int i) where
  begins := begins_ofInt i
  read rest hr := by
    obtain ⟨inner, hinner⟩ := readTerm_eq_with n
    rw [hinner, readTermWith_int inner i hr]

theorem reads_name (n : Nat) {t : Text} (ht : IsName t) : Reads (readTerm n) t (.name t) where
  begins := List.append_nil t ▸ begins_append ht.1 []
  read rest hr := by
    obtain ⟨inner, hinner⟩ := readTerm_eq_with n
    rw [hinner, readTermWith_name inner ht hr]

theorem reads_constant (n : Nat) {name : Text} {t : Term} (hn : name.isIdentifier = true)
    (h : constant? name = some t) : Reads (readTerm n) name t where
  begins := List.append_nil name ▸ begins_append hn []
  read rest hr := by
    obtain ⟨inner, hinner⟩ := readTerm_eq_with n
    rw [hinner, readTermWith_of_isIdentifier inner hn hr.isIdentifierContinue, readNamed, h]

theorem reads_list {n : Nat} {parts : List Text} {items : List Term}
    (h : List.Forall₂ (Reads (readTerm n)) parts items) (layout : Layout) (level : Nat) :
    Reads (readTerm (n + 1)) (Expr.enclose layout level "[" "]" parts) (.list items) where
  begins := by
    obtain ⟨s, hs, _⟩ := body_enclose h layout level "[" ']' []
    rw [List.append_nil] at hs
    exact ⟨_, _, hs, by decide⟩
  read rest _ := by
    obtain ⟨s, hs, hbody⟩ := body_enclose h layout level "[" ']' rest
    exact hs ▸ readTermWith_list hbody

theorem reads_call {n : Nat} {callee : Text} (hc : IsName callee) {parts : List Text}
    {arguments : List (Option Text × Term)}
    (h : List.Forall₂ (Reads (readArgument (readTerm n))) parts arguments) (layout : Layout)
    (level : Nat) :
    Reads (readTerm (n + 1)) (Expr.enclose layout level (callee ++ "(") ")" parts)
      (.call callee arguments) where
  begins := by
    obtain ⟨s, hs, _⟩ := body_enclose h layout level (callee ++ "(") ')' []
    rw [List.append_nil, List.append_assoc] at hs
    exact hs ▸ begins_append hc.1 _
  read rest _ := by
    obtain ⟨s, hs, hbody⟩ := body_enclose h layout level (callee ++ "(") ')' rest
    exact hs ▸ readTermWith_call hc hbody

theorem reads_bytes (n : Nat) (b : Bytes) :
    Reads (readTerm (n + 2)) ("bytes(" ++ Seed.displayBytes b ++ ")" : Text)
      (Expr.bytes b).term := by
  have hitems : List.Forall₂ (Reads (readTerm n)) (b.map fun b => Text.ofNat b.toNat)
      (b.map fun b => .int b.toNat) := by
    rw [List.forall₂_map_left_iff, List.forall₂_map_right_iff, List.forall₂_same]
    exact fun b _ => reads_int n b.toNat
  have hlist := (reads_list hitems .line 0).positional fun rest => rfl
  have hname : IsName "bytes" := by decide
  have hcall := reads_call hname (.cons hlist .nil) .line 0
  have hstart : (Text.ofString "bytes" ++ Text.ofString "(") = Text.ofString "bytes(" := rfl
  rw [hstart] at hcall
  exact hcall

/-- **A legible expression is read back from its text** at every level of indentation. -/
theorem Legible.reads {allowed : Int → Prop} {n : Nat} {e : Expr} (h : Legible allowed n e) :
    ∀ level, Reads (readTerm n) (e.render level) e.term := by
  induction h with
  | text n t => exact fun _ => reads_text n t
  | @int n i _ => exact fun _ => reads_int n i
  | bytes n b => exact fun _ => reads_bytes n b
  | bool n b =>
    cases b with
    | true => exact fun _ => @reads_constant n "True" _ (by decide) rfl
    | false => exact fun _ => @reads_constant n "False" _ (by decide) rfl
  | none n => exact fun _ => @reads_constant n "None" _ (by decide) rfl
  | name n ht => exact fun _ => reads_name n ht
  | @list layout n items _ ih =>
    intro level
    have hitems : List.Forall₂ (Reads (readTerm n)) (Expr.renderItems (level + 1) items)
        (itemTerms items) := by
      rw [renderItems_eq_map, itemTerms_eq_map, List.forall₂_map_left_iff,
        List.forall₂_map_right_iff, List.forall₂_same]
      exact fun e he => ih e he (level + 1)
    cases items with
    | nil => exact reads_list hitems .line level
    | cons e items => exact reads_list hitems layout level
  | @call layout callee n arguments keys _ _ ih =>
    intro level
    have harguments : List.Forall₂ (Reads (readArgument (readTerm n)))
        (Expr.renderArguments (level + 1) arguments) (argumentTerms arguments) := by
      rw [renderArguments_eq_map, argumentTerms_eq_map, List.forall₂_map_left_iff,
        List.forall₂_map_right_iff, List.forall₂_same]
      exact fun a ha => (ih a ha (level + 1)).argument (keys a ha)
    exact reads_call (isName_constructor callee) harguments layout level

/-! ### Compiling -/

theorem itemsCompile_eq_all (ts : List Term) : itemsCompile ts = ts.all Term.compiles := by
  induction ts with
  | nil => rfl
  | cons t rest ih => rw [itemsCompile, ih, List.all_cons]

theorem argumentsCompile_eq_all (arguments : List (Option Text × Term)) :
    argumentsCompile arguments = arguments.all fun a => a.2.compiles := by
  induction arguments with
  | nil => rfl
  | cons a rest ih => rw [argumentsCompile, ih, List.all_cons]

/-- A literal is too long exactly if its integer is too long to be written. -/
theorem isShort_eq (n : Int) : isShort n = Text.isShort n := rfl

/-- **A legible expression with short integers compiles.** -/
theorem Legible.compiles {n : Nat} {e : Expr} (h : Legible (fun i => isShort i = true) n e) :
    e.term.compiles = true := by
  induction h with
  | int n h => exact h
  | text | bool | none | name => rfl
  | bytes n b =>
    simp [Expr.term, Term.compiles, argumentsCompile, itemsCompile_eq_all, isShort_eq,
      Text.isShort_byte]
  | @list layout n items _ ih =>
    rw [Expr.term, Term.compiles, itemsCompile_eq_all, itemTerms_eq_map]
    simpa using ih
  | @call layout callee n arguments _ distinct _ ih =>
    rw [Expr.term, Term.compiles, argumentsCompile_eq_all, argumentTerms_eq_map,
      List.filterMap_map]
    have hkeys : arguments.filterMap (Prod.fst ∘ fun a => (some a.1, a.2.term)) =
        arguments.map Prod.fst :=
      congrFun List.filterMap_eq_map arguments
    rw [hkeys]
    simpa [distinct] using ih

end Bindings
end AnchorIdl
