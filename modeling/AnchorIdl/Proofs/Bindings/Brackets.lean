/-
# Open brackets of an emitted module

An expression that can be read where `n` brackets may be opened is balanced, with
at most `n` brackets open (`Legible.balanced`), and so is a module whose
assignments are such expressions (`BindingsModule.balanced_render`).

What stands inside `k` brackets of an expression is written where `k` brackets
of it are open (`Inside.render`); in a module nothing else is open there
(`BindingsModule.render_split`).
-/

import AnchorIdl.Proofs.Bindings.Source
import AnchorIdl.Proofs.Script.Brackets

namespace AnchorIdl
namespace Bindings

open Script

/-! ### Layouts -/

section Layouts

variable {n : Nat} {layout : Layout} {level : Nat} {parts : List Text}

/-- What a layout puts between two brackets. -/
def inside (layout : Layout) (level : Nat) (parts : List Text) : Text :=
  match layout with
  | .line => Text.join ", " parts
  | .block => "\n" ++ parts.flatMap (partLine level) ++ Expr.indentation level

theorem enclose_eq (layout : Layout) (level : Nat) (start stop : Text) (parts : List Text) :
    Expr.enclose layout level start stop parts = start ++ inside layout level parts ++ stop := by
  cases layout with
  | line => rfl
  | block =>
    have hlines : (fun part => (Expr.indentation (level + 1) ++ part ++ ",\n" : Text)) =
        partLine level := rfl
    simp only [Expr.enclose, inside, hlines]
    simp

theorem join_cons (separator part : Text) (rest : List Text) :
    Text.join separator (part :: rest) = part ++ rest.flatMap (separator ++ ·) := by
  induction rest generalizing part with
  | nil => simp [Text.join]
  | cons next rest ih => simp [Text.join, ih next]

theorem isPlain_indentation (level : Nat) : IsPlain (Expr.indentation level) := by
  intro c hc
  rw [List.eq_of_mem_replicate hc]
  decide

theorem balanced_partLine {part : Text} (h : Balanced n part) : Balanced n (partLine level part) :=
  ((balanced_plain (isPlain_indentation _)).append h).append (balanced_plain (by decide))

/-- Behind balanced parts the next part of a layout begins in balance. -/
theorem inside_split {before : List Text} (h : ∀ part ∈ before, Balanced n part) (layout : Layout)
    (level : Nat) (part : Text) (after : List Text) :
    ∃ start stop, inside layout level (before ++ part :: after) = start ++ part ++ stop ∧
      Balanced n start := by
  have hcomma : Balanced n (Text.ofString ", ") := balanced_plain (by decide)
  cases layout with
  | line =>
    cases before with
    | nil => exact ⟨[], _, by rw [List.nil_append, inside, join_cons]; rfl, .nil⟩
    | cons first before =>
      obtain ⟨hfirst, hbefore⟩ := List.forall_mem_cons.1 h
      refine ⟨first ++ before.flatMap (Text.ofString ", " ++ ·) ++ Text.ofString ", ",
        after.flatMap (Text.ofString ", " ++ ·), ?_, ?_⟩
      · simp [inside, join_cons]
      · exact (hfirst.append (.flatMap fun p hp => hcomma.append (hbefore p hp))).append hcomma
  | block =>
    refine ⟨"\n" ++ before.flatMap (partLine level) ++ Expr.indentation (level + 1),
      ",\n" ++ after.flatMap (partLine level) ++ Expr.indentation level, ?_, ?_⟩
    · simp [inside, partLine]
    · have hlines : Balanced n (before.flatMap (partLine level)) :=
        .flatMap fun p hp => balanced_partLine (h p hp)
      exact ((balanced_plain (by decide)).append hlines).append
        (balanced_plain (isPlain_indentation _))

theorem balanced_inside (h : ∀ part ∈ parts, Balanced n part) :
    Balanced n (inside layout level parts) := by
  cases layout with
  | line =>
    cases parts with
    | nil => exact .nil
    | cons first rest =>
      obtain ⟨hfirst, hrest⟩ := List.forall_mem_cons.1 h
      rw [inside, join_cons]
      exact hfirst.append (.flatMap fun p hp => (balanced_plain (by decide)).append (hrest p hp))
  | block =>
    have hlines : Balanced n (parts.flatMap (partLine level)) :=
      .flatMap fun p hp => balanced_partLine (h p hp)
    exact ((balanced_plain (by decide)).append hlines).append
      (balanced_plain (isPlain_indentation _))

end Layouts

/-! ### Expressions -/

section Expressions

variable {allowed : Int → Prop} {n : Nat}

/-- An argument of a call as it is written. -/
def argumentText (level : Nat) (a : Text × Expr) : Text := a.1 ++ "=" ++ a.2.render level

/-- A list has its items between brackets; an empty one is laid out on one line. -/
theorem render_list (layout : Layout) (items : List Expr) (level : Nat) :
    ∃ layout', (Expr.list layout items).render level =
      CodePoint.ofChar '[' ::
        inside layout' level (items.map (Expr.render (level + 1))) ++ [CodePoint.ofChar ']'] := by
  cases items with
  | nil => exact ⟨.line, rfl⟩
  | cons e items =>
    refine ⟨layout, ?_⟩
    rw [Expr.render, enclose_eq, renderItems_eq_map]
    rfl

theorem render_call (layout : Layout) (callee : Constructor) (arguments : List (Text × Expr))
    (level : Nat) :
    (Expr.call layout callee arguments).render level = callee.name ++
      (CodePoint.ofChar '(' :: inside layout level (arguments.map (argumentText (level + 1))) ++
        [CodePoint.ofChar ')']) := by
  have hopen : Text.ofString "(" = [CodePoint.ofChar '('] := rfl
  have hclose : Text.ofString ")" = [CodePoint.ofChar ')'] := rfl
  have hargument : argumentText (level + 1) =
      fun a => (a.1 ++ "=" ++ a.2.render (level + 1) : Text) := rfl
  rw [Expr.render, enclose_eq, renderArguments_eq_map, hargument]
  simp [hopen, hclose]

theorem balanced_key {key : Text} (h : IsName key) : Balanced n (key ++ "=" : Text) :=
  (balanced_plain (isPlain_of_isName h)).append (balanced_plain (by decide))

theorem balanced_callee (c : Constructor) : Balanced n c.name :=
  balanced_plain (isPlain_of_isName (isName_constructor c))

theorem balanced_bytes (b : Bytes) :
    Balanced (n + 2) ("bytes(" ++ Seed.displayBytes b ++ ")" : Text) := by
  have hitems : Balanced n (Text.join ", " (b.map fun b => Text.ofNat b.toNat)) := by
    refine @balanced_inside n .line 0 _ ?_
    exact List.forall_mem_map.2 fun b _ => balanced_plain (isPlain_ofNat b.toNat)
  have hlist := @balanced_bracketed _ _ '[' ']' hitems (by decide) (by decide)
  have hcall := @balanced_bracketed _ _ '(' ')' hlist (by decide) (by decide)
  have hbytes : Balanced (n + 2) (Text.ofString "bytes") := balanced_plain (by decide)
  exact hbytes.append hcall

/-- **An expression that can be read where `n` brackets may be opened has at most `n` of them open
anywhere,** and none at its end. -/
theorem Legible.balanced {e : Expr} (h : Legible allowed n e) :
    ∀ level, Balanced n (e.render level) := by
  induction h with
  | text n t => exact fun _ => balanced_literal t
  | @int n i _ => exact fun _ => balanced_plain (isPlain_ofInt i)
  | bytes n b => exact fun _ => balanced_bytes b
  | bool n b =>
    cases b with
    | true => exact fun _ => balanced_plain (t := "True") (by decide)
    | false => exact fun _ => balanced_plain (t := "False") (by decide)
  | none n => exact fun _ => balanced_plain (t := "None") (by decide)
  | name n ht => exact fun _ => balanced_plain (isPlain_of_isName ht)
  | @list layout n items _ ih =>
    intro level
    obtain ⟨layout', hrender⟩ := render_list layout items level
    rw [hrender]
    refine balanced_bracketed (balanced_inside ?_) (by decide) (by decide)
    exact List.forall_mem_map.2 fun e he => ih e he (level + 1)
  | @call layout callee n arguments keys _ _ ih =>
    intro level
    rw [render_call]
    refine (balanced_callee callee).append
      (balanced_bracketed (balanced_inside ?_) (by decide) (by decide))
    exact List.forall_mem_map.2 fun a ha => (balanced_key (keys a ha)).append (ih a ha (level + 1))

/-- The second expression stands inside so many brackets of the first. -/
inductive Inside : Nat → Expr → Expr → Prop
  | here (e : Expr) : Inside 0 e e
  | item {k : Nat} {layout : Layout} {items : List Expr} {e sub : Expr} (mem : e ∈ items)
      (h : Inside k e sub) : Inside (k + 1) (.list layout items) sub
  | argument {k : Nat} {layout : Layout} {callee : Constructor} {arguments : List (Text × Expr)}
      {a : Text × Expr} {sub : Expr} (mem : a ∈ arguments) (h : Inside k a.2 sub) :
      Inside (k + 1) (.call layout callee arguments) sub

theorem Inside.trans {j k : Nat} {e f g : Expr} (h : Inside j e f) (h' : Inside k f g) :
    Inside (j + k) e g := by
  induction h with
  | here => rwa [Nat.zero_add]
  | item mem _ ih => exact Nat.succ_add .. ▸ .item mem (ih h')
  | argument mem _ ih => exact Nat.succ_add .. ▸ .argument mem (ih h')

/-- **What stands inside `k` brackets of an expression is written where `k` brackets more are
open.** -/
theorem Inside.render {k : Nat} {e sub : Expr} (hsub : Inside k e sub) :
    ∀ {n : Nat}, Legible allowed n e → ∀ level, ∃ before after level',
      e.render level = before ++ sub.render level' ++ after ∧ Opens k before := by
  induction hsub with
  | here e =>
    intro n _ level
    refine ⟨[], [], level, by simp, ?_⟩
    exact (Stays.nil (r := .code) (n := n)).opens
  | @item k layout items e sub mem _ ih =>
    intro _ h level
    obtain ⟨xs, ys, rfl⟩ := List.append_of_mem mem
    cases h with
    | @list _ n _ each =>
      obtain ⟨layout', hrender⟩ := render_list layout (xs ++ e :: ys) level
      obtain ⟨before, after, level', he, hbefore⟩ := ih (each e mem) (level + 1)
      have hxs : ∀ part ∈ xs.map (Expr.render (level + 1)), Balanced n part :=
        List.forall_mem_map.2 fun x hx => (each x (List.mem_append_left _ hx)).balanced _
      obtain ⟨start, stop, hinside, hstart⟩ :=
        inside_split hxs layout' level (e.render (level + 1)) (ys.map (Expr.render (level + 1)))
      -- The items before it are balanced, so only the bracket of the list is open more.
      refine ⟨[CodePoint.ofChar '['] ++ start ++ before, after ++ stop ++ [CodePoint.ofChar ']'],
        level', ?_, ?_⟩
      · rw [hrender, List.map_append, List.map_cons, hinside, he]
        simp
      · have hopens := ((opens_bracket (c := '[') (by decide)).append hstart.opens).append hbefore
        rwa [Nat.add_zero, Nat.add_comm] at hopens
  | @argument k layout callee arguments a sub mem _ ih =>
    intro _ h level
    obtain ⟨xs, ys, rfl⟩ := List.append_of_mem mem
    cases h with
    | @call _ _ n _ keys _ each =>
      obtain ⟨before, after, level', he, hbefore⟩ := ih (each a mem) (level + 1)
      have hxs : ∀ part ∈ xs.map (argumentText (level + 1)), Balanced n part := by
        refine List.forall_mem_map.2 fun x hx => ?_
        have hx := List.mem_append_left (a :: ys) hx
        exact (balanced_key (keys x hx)).append ((each x hx).balanced _)
      obtain ⟨start, stop, hinside, hstart⟩ := inside_split hxs layout level
        (argumentText (level + 1) a) (ys.map (argumentText (level + 1)))
      refine ⟨callee.name ++ [CodePoint.ofChar '('] ++ start ++ (a.1 ++ "=") ++ before,
        after ++ stop ++ [CodePoint.ofChar ')'], level', ?_, ?_⟩
      · rw [render_call, List.map_append, List.map_cons, hinside, argumentText, he]
        simp
      · have hcallee := (balanced_callee (n := 0) callee).opens
        have hkey := (balanced_key (n := 0) (keys a mem)).opens
        have hopens := (((hcallee.append (opens_bracket (c := '(') (by decide))).append
          hstart.opens).append hkey).append hbefore
        rwa [Nat.zero_add, Nat.add_comm] at hopens

end Expressions

end Bindings

/-! ### Modules -/

namespace BindingsModule

open Bindings Script

variable {allowed : Int → Prop} {n : Nat} {m : BindingsModule}

/-- A text in three quotes is an empty text, a text, and an empty text. -/
theorem balanced_tripleQuoted {t : Text} (h : ∀ c ∈ t, c ≠ '"' ∧ c ≠ '\\') :
    Balanced n (Text.ofString "\"\"\"" ++ t ++ Text.ofString "\"\"\"") := by
  have hempty : Balanced n [CodePoint.ofChar '"', CodePoint.ofChar '"'] :=
    balanced_quoted (by decide) .nil
  have htext := @balanced_quoted '"' n t (by decide) (.quiet h)
  have hquotes : Text.ofString "\"\"\"" =
      [CodePoint.ofChar '"', CodePoint.ofChar '"', CodePoint.ofChar '"'] := rfl
  have hall := (hempty.append htext).append hempty
  rw [hquotes]
  simpa using hall

theorem balanced_title (h : ∀ c ∈ m.name, c ≠ '"' ∧ c ≠ '\\') :
    Balanced n (unlines m.title) := by
  have htitle := unlines_title m []
  rw [List.append_nil, List.append_nil, ← List.append_assoc, ← List.append_assoc] at htitle
  rw [htitle]
  exact (balanced_tripleQuoted (titleText_plain h)).append (balanced_plain (by decide))

theorem balanced_importLines (m : BindingsModule) : Balanced (n + 1) (unlines m.importLines) := by
  have himports := unlines_imports m []
  have hstart : Text.ofString "from idlforge.core.ir import (" =
      Text.ofString "from idlforge.core.ir import " ++ [CodePoint.ofChar '('] := rfl
  have hnames := @balanced_inside n .block 0 (m.imports.map Constructor.name)
    (List.forall_mem_map.2 fun c _ => balanced_callee c)
  have hparens := @balanced_bracketed _ _ '(' ')' hnames (by decide) (by decide)
  have hfrom : Balanced (n + 1) (Text.ofString "from idlforge.core.ir import ") :=
    balanced_plain (by decide)
  have hend : Balanced (n + 1) (Text.ofString "\n" ++ [CodePoint.ofChar '\n']) :=
    balanced_plain (by decide)
  have hfeed : Text.ofString "\n" = [CodePoint.ofChar '\n'] := rfl
  have hall := (hfrom.append hparens).append hend
  rw [List.append_nil] at himports
  rw [himports, hstart]
  simpa [inside, hfeed] using hall

theorem balanced_assignment {a : Text × Expr} (hname : IsName a.1) (h : Legible allowed n a.2) :
    Balanced n (assignment a.1 a.2) :=
  ((balanced_plain (isPlain_of_isName hname)).append (balanced_plain (by decide))).append
    (h.balanced 0)

theorem Spelled.balanced {lines : List Text} {as : List (Text × Expr)} (h : Spelled lines as)
    (targets : ∀ a ∈ as, IsName a.1) (legible : ∀ a ∈ as, Legible allowed n a.2) :
    Balanced n (unlines lines) := by
  have hfeed : Balanced n (Text.ofString "\n") := balanced_plain (by decide)
  induction h with
  | nil => exact .nil
  | blank _ ih => exact hfeed.append (ih targets legible)
  | assignment a _ ih =>
    rw [List.forall_mem_cons] at targets legible
    exact ((balanced_assignment targets.1 legible.1).append hfeed).append (ih targets.2 legible.2)

/-- Before what is assigned everything is in balance. -/
theorem Spelled.split {lines : List Text} {as : List (Text × Expr)} (h : Spelled lines as)
    (targets : ∀ a ∈ as, IsName a.1) (legible : ∀ a ∈ as, Legible allowed n a.2)
    {a : Text × Expr} (ha : a ∈ as) :
    ∃ before after, unlines lines = before ++ a.2.render 0 ++ after ∧ Balanced n before := by
  have hfeed : Balanced n (Text.ofString "\n") := balanced_plain (by decide)
  induction h with
  | nil => simp at ha
  | blank _ ih =>
    obtain ⟨before, after, hlines, hbefore⟩ := ih targets legible ha
    refine ⟨Text.ofString "\n" ++ before, after, ?_, hfeed.append hbefore⟩
    rw [unlines, List.flatMap_cons, ← unlines, hlines]
    simp
  | @assignment lines as b _ ih =>
    rw [List.forall_mem_cons] at targets legible
    rcases List.mem_cons.1 ha with rfl | ha
    · refine ⟨a.1 ++ " = ", "\n" ++ unlines lines, ?_, ?_⟩
      · simp [unlines, BindingsModule.assignment]
      · exact (balanced_plain (isPlain_of_isName targets.1)).append (balanced_plain (by decide))
    · obtain ⟨before, after, hlines, hbefore⟩ := ih targets.2 legible.2 ha
      refine ⟨BindingsModule.assignment b.1 b.2 ++ "\n" ++ before, after, ?_,
        ((balanced_assignment targets.1 legible.1).append hfeed).append hbefore⟩
      rw [unlines, List.flatMap_cons, ← unlines, hlines]
      simp

theorem render_eq (m : BindingsModule) :
    m.render = unlines m.title ++ unlines m.importLines ++ unlines m.body := by
  have hlines : m.lines = m.title ++ m.importLines ++ m.body := by
    simp [lines, body]
  change unlines m.lines = _
  rw [hlines, unlines_append, unlines_append]

/-- **Nowhere in a module are more than `n` brackets open, and all are closed at its end,** if its
assignments can be read where `n` brackets may be opened. -/
theorem balanced_render (title : ∀ c ∈ m.name, c ≠ '"' ∧ c ≠ '\\')
    (targets : ∀ a ∈ m.assignments, IsName a.1)
    (legible : ∀ a ∈ m.assignments, Legible allowed (n + 1) a.2) : Balanced (n + 1) m.render := by
  rw [render_eq]
  exact ((balanced_title title).append (balanced_importLines m)).append
    (m.spelled_body.balanced targets legible)

/-- What stands inside `k` brackets of an assigned expression is written where `k` brackets are
open. -/
theorem render_split (title : ∀ c ∈ m.name, c ≠ '"' ∧ c ≠ '\\')
    (targets : ∀ a ∈ m.assignments, IsName a.1)
    (legible : ∀ a ∈ m.assignments, Legible allowed (n + 1) a.2) {a : Text × Expr}
    (ha : a ∈ m.assignments) {k : Nat} {sub : Expr} (hsub : Inside k a.2 sub) :
    ∃ before after level, m.render = before ++ sub.render level ++ after ∧ Opens k before := by
  obtain ⟨start, stop, hbody, hstart⟩ := m.spelled_body.split targets legible ha
  obtain ⟨before, after, level, he, hbefore⟩ := hsub.render (legible a ha) 0
  have hheader : Balanced (n + 1) (unlines m.title ++ unlines m.importLines ++ start) :=
    ((balanced_title title).append (balanced_importLines m)).append hstart
  refine ⟨unlines m.title ++ unlines m.importLines ++ start ++ before, after ++ stop, level, ?_, ?_⟩
  · rw [render_eq, hbody, he]
    simp
  · exact Nat.zero_add k ▸ hheader.opens.append hbefore

end BindingsModule
end AnchorIdl
