/-
# Drafts grow while type expressions are written

`Hoists binding start names calls stop` says how: writing adds helpers to the
draft `start` until it is `stop`, and what is written in the meantime refers to
`names` and holds `calls`.  It is put together from four steps: nothing is
written, a call is recorded, two things are written one after the other, and what
was written becomes the next helper.  So

| | |
| --- | --- |
| `Hoists.isPrefix` | helpers are only added at the end |
| `Hoists.entry` | helper `k` has its name, fits, and refers to helpers before it |
| `Hoists.count` | each new helper is referred to exactly once |
| `Hoists.mem_used` | the calls that are recorded are those written here or in a new helper |

`Sketch.Visits` follows one hole of a sketch while the sketch is filled: how many
brackets are around it, and what the draft is when it is its turn.

Both speak of one sketch only.  `writes_type` goes through all sketches inside
each other, by induction on the size of the type expression: a helper begins a
new count of brackets, and its sketch is placed again.
-/

import AnchorIdl.Proofs.Bindings.Brackets
import AnchorIdl.Proofs.Bindings.Names
import AnchorIdl.Proofs.Bindings.Placement

namespace AnchorIdl
namespace Bindings

open Script

variable {binding : Text}

/-! ### Helpers -/

/-- A draft with one more helper. -/
def Draft.addHelper (binding : Text) (d : Draft) (e : Expr) : Draft :=
  { d with helpers := d.helpers ++ [(helperName binding d.helpers.length, e)] }

@[simp] theorem Draft.helpers_addHelper (d : Draft) (e : Expr) :
    (d.addHelper binding e).helpers =
      d.helpers ++ [(helperName binding d.helpers.length, e)] :=
  rfl

@[simp] theorem Draft.used_addHelper (d : Draft) (e : Expr) :
    (d.addHelper binding e).used = d.used :=
  rfl

/-- A draft grows from `start` to `stop` while something is written that refers to some names and
holds some calls. -/
inductive Hoists (binding : Text) : Draft → List Text → List Constructor → Draft → Prop
  | nothing (draft : Draft) : Hoists binding draft [] [] draft
  | call (draft : Draft) (callee : Constructor) :
      Hoists binding draft [] [callee] (draft.use callee)
  | both {start middle stop : Draft} {names more : List Text} {calls others : List Constructor}
      (first : Hoists binding start names calls middle)
      (second : Hoists binding middle more others stop) :
      Hoists binding start (names ++ more) (calls ++ others) stop
  | helper {start stop : Draft} {e : Expr}
      (inner : Hoists binding start e.names e.callees stop) (fits : FitsIn 0 e) :
      Hoists binding start [helperName binding stop.helpers.length] []
        (stop.addHelper binding e)

section Hoists

variable {start stop : Draft} {names : List Text} {calls : List Constructor}

theorem Hoists.isPrefix (h : Hoists binding start names calls stop) :
    start.helpers <+: stop.helpers := by
  induction h with
  | nothing | call => exact List.prefix_rfl
  | both _ _ ih₁ ih₂ => exact ih₁.trans ih₂
  | helper _ _ ih => exact ih.trans (List.prefix_append _ _)

/-- What is written refers to new helpers only. -/
theorem Hoists.mem_names (h : Hoists binding start names calls stop) {x : Text} (hx : x ∈ names) :
    ∃ i, start.helpers.length ≤ i ∧ i < stop.helpers.length ∧ x = helperName binding i := by
  induction h with
  | nothing | call => simp at hx
  | both first second ih₁ ih₂ =>
    have hfirst := first.isPrefix.length_le
    have hsecond := second.isPrefix.length_le
    rcases List.mem_append.1 hx with hx | hx
    · obtain ⟨i, hstart, hstop, rfl⟩ := ih₁ hx
      exact ⟨i, hstart, by omega, rfl⟩
    · obtain ⟨i, hstart, hstop, rfl⟩ := ih₂ hx
      exact ⟨i, by omega, hstop, rfl⟩
  | helper inner _ _ =>
    exact ⟨_, inner.isPrefix.length_le, by simp, List.mem_singleton.1 hx⟩

/-- **A new helper has the name for its number, fits where no bracket is open, and refers to new
helpers before it only.** -/
theorem Hoists.entry (h : Hoists binding start names calls stop) {k : Nat} {helper : Helper}
    (hk : start.helpers.length ≤ k) (hget : stop.helpers[k]? = some helper) :
    helper.1 = helperName binding k ∧ FitsIn 0 helper.2 ∧
      ∀ x ∈ helper.2.names, ∃ i, start.helpers.length ≤ i ∧ i < k ∧ x = helperName binding i := by
  induction h with
  | nothing | call =>
    have hlt := (List.getElem?_eq_some_iff.1 hget).1
    exact absurd hlt (Nat.not_lt.2 hk)
  | @both start middle stop _ _ _ _ first second ih₁ ih₂ =>
    have hfirst := first.isPrefix.length_le
    -- The first part made the helper, and the second left it alone; or the second made it.
    by_cases hmiddle : k < middle.helpers.length
    · obtain ⟨more, hmore⟩ := second.isPrefix
      rw [← hmore, List.getElem?_append_left hmiddle] at hget
      exact ih₁ hk hget
    · obtain ⟨hname, hfits, hnames⟩ := ih₂ (by omega) hget
      refine ⟨hname, hfits, fun x hx => ?_⟩
      obtain ⟨i, hi, hik, rfl⟩ := hnames x hx
      exact ⟨i, by omega, hik, rfl⟩
  | @helper start stop e inner fits ih =>
    have hlt := (List.getElem?_eq_some_iff.1 hget).1
    rw [Draft.helpers_addHelper] at hget hlt
    rw [List.length_append, List.length_singleton] at hlt
    rcases Nat.lt_succ_iff_lt_or_eq.1 hlt with hlt | rfl
    · rw [List.getElem?_append_left hlt] at hget
      exact ih hk hget
    · rw [List.getElem?_concat_length, Option.some.injEq] at hget
      subst hget
      exact ⟨rfl, fits, fun x hx => inner.mem_names hx⟩

/-- The names that some helpers refer to. -/
def helperNames (helpers : List Helper) : List Text := helpers.flatMap fun helper => helper.2.names

/-- **Every new helper is referred to exactly once,** by what is written or by another new helper,
and nothing else is. -/
theorem Hoists.count (h : Hoists binding start names calls stop) (x : Text) :
    names.count x + (helperNames stop.helpers).count x +
        (start.helpers.map Prod.fst).count x =
      (helperNames start.helpers).count x + (stop.helpers.map Prod.fst).count x := by
  induction h with
  | nothing => simp
  | call => simp [Draft.use]
  | both _ _ ih₁ ih₂ =>
    rw [List.count_append]
    omega
  | @helper start stop e _ _ ih =>
    have hnames : helperNames (stop.helpers ++ [(helperName binding stop.helpers.length, e)]) =
        helperNames stop.helpers ++ e.names := by
      simp [helperNames]
    rw [Draft.helpers_addHelper, hnames, List.map_append, List.map_singleton, List.count_append,
      List.count_append]
    dsimp only
    omega

/-- The calls in some helpers. -/
def helperCallees (helpers : List Helper) : List Constructor :=
  helpers.flatMap fun helper => helper.2.callees

theorem helperCallees_append (helpers more : List Helper) :
    helperCallees (helpers ++ more) = helperCallees helpers ++ helperCallees more :=
  List.flatMap_append

/-- **Exactly the calls of what is written and of the new helpers are recorded.** -/
theorem Hoists.mem_used (h : Hoists binding start names calls stop) :
    ∃ more, stop.helpers = start.helpers ++ more ∧
      ∀ c, c ∈ stop.used ↔ c ∈ start.used ∨ c ∈ calls ∨ c ∈ helperCallees more := by
  induction h with
  | nothing draft => exact ⟨[], (List.append_nil _).symm, by simp [helperCallees]⟩
  | call draft callee =>
    refine ⟨[], (List.append_nil _).symm, fun c => ?_⟩
    rw [Draft.use, List.mem_insert_iff]
    simp [helperCallees, or_comm]
  | @both start middle stop _ _ _ _ _ _ ih₁ ih₂ =>
    obtain ⟨more, hmore, hused⟩ := ih₁
    obtain ⟨rest, hrest, hall⟩ := ih₂
    refine ⟨more ++ rest, by rw [hrest, hmore, List.append_assoc], fun c => ?_⟩
    rw [hall, hused, List.mem_append, helperCallees_append, List.mem_append]
    grind
  | @helper start stop e _ _ ih =>
    obtain ⟨more, hmore, hused⟩ := ih
    refine ⟨more ++ [(helperName binding stop.helpers.length, e)],
      by rw [Draft.helpers_addHelper, hmore, List.append_assoc], fun c => ?_⟩
    rw [Draft.used_addHelper, hused, helperCallees_append, List.mem_append]
    simp [helperCallees, or_comm]

/-- A call that was recorded before is not recorded again. -/
theorem Hoists.nodup_used (h : Hoists binding start names calls stop) (hstart : start.used.Nodup) :
    stop.used.Nodup := by
  induction h with
  | nothing => exact hstart
  | call draft callee => exact hstart.insert
  | both _ _ ih₁ ih₂ => exact ih₂ (ih₁ hstart)
  | helper _ _ ih => exact ih hstart

end Hoists

/-! ### Filling -/

/-- How a draft grows while something is written that refers to some names and holds some calls,
such that a call may be recorded, and one thing may be written after another. -/
structure Sequential (R : Draft → List Text → List Constructor → Draft → Prop) : Prop where
  nothing : ∀ draft, R draft [] [] draft
  call : ∀ draft callee, R draft [] [callee] (draft.use callee)
  both : ∀ {start middle stop : Draft} {names more : List Text} {calls others : List Constructor},
    R start names calls middle → R middle more others stop →
      R start (names ++ more) (calls ++ others) stop

theorem sequential_hoists : Sequential (Hoists binding) := ⟨.nothing, .call, .both⟩

section Fill

variable {R : Draft → List Text → List Constructor → Draft → Prop}
  {write : TypeExpr → Nat → Lowering Expr} {n : Nat}

theorem Sequential.useAll (hR : Sequential R) (calls : List Constructor) (draft : Draft) :
    R draft [] calls (draft.useAll calls) := by
  induction calls generalizing draft with
  | nil => exact hR.nothing draft
  | cons c calls ih => exact hR.both (hR.call draft c) (ih (draft.use c))

/-- From any draft on, what is written fits inside `depth` open brackets, and the draft grows as it
should. -/
def Writes (R : Draft → List Text → List Constructor → Draft → Prop) (depth : Nat)
    (x : Lowering Expr) : Prop :=
  ∀ draft, FitsIn depth (x.run draft).1 ∧
    R draft (x.run draft).1.names (x.run draft).1.callees (x.run draft).2

theorem fillItems_writes (hR : Sequential R) {items : List Sketch}
    (h : ∀ s ∈ items, Writes R n (s.fill write)) (draft : Draft) :
    let result := (fillItems write items).run draft
    (∀ e ∈ result.1, FitsIn n e) ∧
      R draft (itemNames result.1) (itemCallees result.1) result.2 := by
  induction items generalizing draft with
  | nil => exact ⟨fun e he => absurd he List.not_mem_nil, hR.nothing draft⟩
  | cons s rest ih =>
    rw [List.forall_mem_cons] at h
    obtain ⟨hfits, hstep⟩ := h.1 draft
    obtain ⟨hrest, hmore⟩ := ih h.2 ((s.fill write).run draft).2
    rw [fillItems]
    exact ⟨List.forall_mem_cons.2 ⟨hfits, hrest⟩, hR.both hstep hmore⟩

theorem fillArguments_writes (hR : Sequential R) {arguments : List (Text × Sketch)}
    (h : ∀ a ∈ arguments, Writes R n (a.2.fill write)) (draft : Draft) :
    let result := (fillArguments write arguments).run draft
    (∀ a ∈ result.1, FitsIn n a.2) ∧
      R draft (argumentNames result.1) (argumentCallees result.1) result.2 := by
  induction arguments generalizing draft with
  | nil => exact ⟨fun a ha => absurd ha List.not_mem_nil, hR.nothing draft⟩
  | cons a rest ih =>
    rw [List.forall_mem_cons] at h
    obtain ⟨hfits, hstep⟩ := h.1 draft
    obtain ⟨hrest, hmore⟩ := ih h.2 ((a.2.fill write).run draft).2
    rw [fillArguments]
    exact ⟨List.forall_mem_cons.2 ⟨hfits, hrest⟩, hR.both hstep hmore⟩

theorem keys_fillArguments (arguments : List (Text × Sketch)) (draft : Draft) :
    ((fillArguments write arguments).run draft).1.map Prod.fst = arguments.map Prod.fst := by
  induction arguments generalizing draft with
  | nil => rfl
  | cons a rest ih =>
    rw [fillArguments]
    exact congrArg (a.1 :: ·) (ih _)

/-- Filling a placed sketch writes an expression that fits there, if its holes do. -/
theorem Sketch.Placed.writes {s : Sketch} (h : s.Placed n) (hR : Sequential R)
    (hwrite : ∀ t depth, s.Has t depth → Writes R depth (write t depth)) :
    Writes R n (s.fill write) := by
  induction h with
  | @leaf n e h =>
    intro draft
    refine ⟨h.fits, ?_⟩
    change R draft e.names e.callees (draft.useAll e.callees)
    rw [h.names]
    exact hR.useAll e.callees draft
  | hole n t => exact hwrite t n (.hole t n)
  | @list layout n items hn _ ih =>
    intro draft
    obtain ⟨hfits, hstep⟩ := fillItems_writes hR
      (fun s hs => ih s hs fun t depth h => hwrite t depth (.item hs h)) draft
    exact ⟨.list hn hfits layout, hstep⟩
  | @call layout callee n arguments hn keys _ ih =>
    intro draft
    obtain ⟨hfits, hstep⟩ := fillArguments_writes hR
      (fun a ha => ih a ha fun t depth h => hwrite t depth (.argument ha h)) draft
    rw [← keys_fillArguments arguments draft] at keys
    -- The call itself is recorded after those in its arguments.
    have hcall := hR.both hstep (hR.call _ callee)
    rw [List.append_nil] at hcall
    exact ⟨.call hn keys hfits layout, hcall⟩

end Fill

section Types

variable (binding) {t : TypeExpr} {depth : Nat}

/-- Where few brackets are open, a type expression is written there. -/
theorem writeType_of_lt (t : TypeExpr) (hd : depth < maxNesting) :
    writeType binding t depth = (typeSketch depth t).fill (writeType binding) := by
  rw [writeType, place, if_pos hd, lowerType_eq]

/-- Where too many are open, it is written where none is, and becomes the next helper. -/
theorem run_writeType_of_le (t : TypeExpr) (hd : maxNesting ≤ depth) (draft : Draft) :
    let inner := (writeType binding t 0).run draft
    (writeType binding t depth).run draft =
      (.name (helperName binding inner.2.helpers.length), inner.2.addHelper binding inner.1) := by
  have hhelper : writeType binding t depth = writeType binding t 0 >>= hoist binding :=
    if_neg (Nat.not_lt.2 hd)
  rw [hhelper]
  rfl

/-- **A type expression may be written anywhere:** where too many brackets are open, it becomes the
next helper. -/
theorem writes_type (t : TypeExpr) (depth : Nat) :
    Writes (Hoists binding) depth (writeType binding t depth) := by
  induction hsize : sizeOf t using Nat.strongRecOn generalizing t depth with
  | ind size ih =>
    subst hsize
    have hinner : ∀ depth < maxNesting,
        Writes (Hoists binding) depth (writeType binding t depth) := by
      intro depth hd
      rw [writeType_of_lt binding t hd]
      exact (placed_type hd t).writes sequential_hoists
        fun u k h => ih _ (sizeOf_lt_of_has h) u k rfl
    by_cases hd : depth < maxNesting
    · exact hinner depth hd
    · intro draft
      -- A helper begins on a line of its own, where its sketch is placed whatever `depth` is.
      obtain ⟨hfits, hhoists⟩ := hinner 0 (by decide) draft
      rw [run_writeType_of_le binding t (Nat.not_lt.1 hd)]
      exact ⟨fun n _ => .name n (isName_helperName _ _), .helper hhoists hfits⟩

theorem Sketch.Placed.writes_types {s : Sketch} {n : Nat} (h : s.Placed n) :
    Writes (Hoists binding) n (s.fill (writeType binding)) :=
  h.writes sequential_hoists fun t depth _ => writes_type binding t depth

end Types

/-! ### Turns -/

section Visits

variable {write : TypeExpr → Nat → Lowering Expr}

/-- While a sketch is filled, from some draft on, a hole inside `k` of its brackets has its turn
when the draft has become another. -/
inductive Sketch.Visits (write : TypeExpr → Nat → Lowering Expr) :
    Sketch → Draft → Nat → TypeExpr → Nat → Draft → Prop
  | hole (t : TypeExpr) (depth : Nat) (draft : Draft) :
      Visits write (.hole t depth) draft 0 t depth draft
  | item {layout : Layout} {before after : List Sketch} {s : Sketch} {start : Draft}
      {k : Nat} {t : TypeExpr} {depth : Nat} {draft : Draft}
      (h : s.Visits write ((fillItems write before).run start).2 k t depth draft) :
      Visits write (.list layout (before ++ s :: after)) start (k + 1) t depth draft
  | argument {layout : Layout} {callee : Constructor} {before after : List (Text × Sketch)}
      {a : Text × Sketch} {start : Draft} {k : Nat} {t : TypeExpr} {depth : Nat} {draft : Draft}
      (h : a.2.Visits write ((fillArguments write before).run start).2 k t depth draft) :
      Visits write (.call layout callee (before ++ a :: after)) start (k + 1) t depth draft

theorem Sketch.Has.visits {s : Sketch} {t : TypeExpr} {depth : Nat} (h : s.Has t depth) :
    ∀ start, ∃ k draft, s.Visits write start k t depth draft := by
  induction h with
  | hole t depth => exact fun start => ⟨0, start, .hole t depth start⟩
  | item mem _ ih =>
    intro start
    obtain ⟨before, after, rfl⟩ := List.append_of_mem mem
    obtain ⟨k, draft, h⟩ := ih ((fillItems write before).run start).2
    exact ⟨k + 1, draft, .item h⟩
  | argument mem _ ih =>
    intro start
    obtain ⟨before, after, rfl⟩ := List.append_of_mem mem
    obtain ⟨k, draft, h⟩ := ih ((fillArguments write before).run start).2
    exact ⟨k + 1, draft, .argument h⟩

/-- The result for a hole that has its turn stands inside `k` brackets of the whole, and `k` is the
number of open brackets that the hole says.  Helpers are added before it, for it, and after it. -/
structure Turn (binding : Text) (s : Sketch) (start : Draft) (n k : Nat) (t : TypeExpr)
    (depth : Nat) (draft : Draft) : Prop where
  depth_eq : depth = n + k
  inside : Inside k ((s.fill (writeType binding)).run start).1
    ((writeType binding t depth).run draft).1
  earlier : start.helpers <+: draft.helpers
  later : ((writeType binding t depth).run draft).2.helpers <+:
    ((s.fill (writeType binding)).run start).2.helpers

theorem isPrefix_fillItems {items : List Sketch} {n : Nat} (h : ∀ s ∈ items, s.Placed n)
    (start : Draft) :
    start.helpers <+: ((fillItems (writeType binding) items).run start).2.helpers :=
  (fillItems_writes sequential_hoists (fun s hs => (h s hs).writes_types binding) start).2.isPrefix

theorem isPrefix_fillArguments {arguments : List (Text × Sketch)} {n : Nat}
    (h : ∀ a ∈ arguments, a.2.Placed n) (start : Draft) :
    start.helpers <+: ((fillArguments (writeType binding) arguments).run start).2.helpers :=
  (fillArguments_writes sequential_hoists (fun a ha => (h a ha).writes_types binding)
    start).2.isPrefix

theorem run_fill_list (layout : Layout) (before : List Sketch) (s : Sketch) (after : List Sketch)
    (start : Draft) :
    let first := (fillItems write before).run start
    let middle := (s.fill write).run first.2
    let last := (fillItems write after).run middle.2
    ((Sketch.list layout (before ++ s :: after)).fill write).run start =
      (.list layout (first.1 ++ middle.1 :: last.1), last.2) := by
  rw [Sketch.fill, fillItems_append]
  rfl

theorem run_fill_call (layout : Layout) (callee : Constructor) (before : List (Text × Sketch))
    (a : Text × Sketch) (after : List (Text × Sketch)) (start : Draft) :
    let first := (fillArguments write before).run start
    let middle := (a.2.fill write).run first.2
    let last := (fillArguments write after).run middle.2
    ((Sketch.call layout callee (before ++ a :: after)).fill write).run start =
      (.call layout callee (first.1 ++ (a.1, middle.1) :: last.1), last.2.use callee) := by
  rw [Sketch.fill, fillArguments_append]
  rfl

/-- **Each hole of a placed sketch gets its turn where it stands.** -/
theorem Sketch.Visits.turn {s : Sketch} {start draft : Draft} {k : Nat} {t : TypeExpr}
    {depth : Nat} (h : s.Visits (writeType binding) start k t depth draft) :
    ∀ {n : Nat}, s.Placed n → Turn binding s start n k t depth draft := by
  induction h with
  | hole t depth start =>
    rintro n ⟨⟩
    exact ⟨rfl, .here _, List.prefix_rfl, List.prefix_rfl⟩
  | @item layout before after s start k t depth draft _ ih =>
    intro n hs
    cases hs with
    | list _ hn each =>
      obtain ⟨hbefore, hs, hafter⟩ : (∀ u ∈ before, u.Placed (n + 1)) ∧ s.Placed (n + 1) ∧
          ∀ u ∈ after, u.Placed (n + 1) := by
        rwa [List.forall_mem_append, List.forall_mem_cons] at each
      obtain ⟨depth_eq, inside, earlier, later⟩ := ih hs
      -- Items before this one only add helpers, and items after it leave its result as it is.
      refine ⟨by omega, ?_, (isPrefix_fillItems hbefore start).trans earlier, ?_⟩
      · rw [run_fill_list]
        exact .item (List.mem_append_right _ (List.mem_cons_self ..)) inside
      · rw [run_fill_list]
        exact later.trans (isPrefix_fillItems hafter _)
  | @argument layout callee before after a start k t depth draft _ ih =>
    intro n hs
    cases hs with
    | call _ hn keys each =>
      obtain ⟨hbefore, ha, hafter⟩ : (∀ b ∈ before, b.2.Placed (n + 1)) ∧ a.2.Placed (n + 1) ∧
          ∀ b ∈ after, b.2.Placed (n + 1) := by
        rwa [List.forall_mem_append, List.forall_mem_cons] at each
      obtain ⟨depth_eq, inside, earlier, later⟩ := ih ha
      refine ⟨by omega, ?_, (isPrefix_fillArguments hbefore start).trans earlier, ?_⟩
      · rw [run_fill_call]
        exact .argument (a := (a.1, _)) (List.mem_append_right _ (List.mem_cons_self ..)) inside
      · rw [run_fill_call]
        exact later.trans (isPrefix_fillArguments hafter _)

end Visits

/-! ### Schemas -/

section Schemas

variable {S : Schema}

/-- What a schema is lowered to: its expression and the draft. -/
abbrev lowered (binding : Text) (S : Schema) : Expr × Draft := (lowerSchema binding S).run {}

theorem hoists_lowered (binding : Text) (S : Schema) :
    FitsIn 0 (lowered binding S).1 ∧
      Hoists binding {} (lowered binding S).1.names (lowered binding S).1.callees
        (lowered binding S).2 := by
  rw [lowered, lowerSchema_eq]
  exact (placed_schema S).writes_types binding {}

theorem names_lowered (binding : Text) (S : Schema) :
    (lowered binding S).2.helpers.map Prod.fst =
      (List.range (lowered binding S).2.helpers.length).map (helperName binding) := by
  refine List.ext_getElem (by simp) fun k hk _ => ?_
  rw [List.length_map] at hk
  have hentry := (hoists_lowered binding S).2.entry (Nat.zero_le k) (List.getElem?_eq_getElem hk)
  simpa using hentry.1

/-- **While a schema is lowered, exactly the calls in its expression and in its helpers are
recorded.** -/
theorem mem_used_lowered {c : Constructor} :
    c ∈ (lowered binding S).2.used ↔
      c ∈ (lowered binding S).1.callees ∨ c ∈ helperCallees (lowered binding S).2.helpers := by
  obtain ⟨more, hmore, hused⟩ := (hoists_lowered binding S).2.mem_used
  rw [hused, hmore]
  simp

theorem nodup_used_lowered : (lowered binding S).2.used.Nodup :=
  (hoists_lowered binding S).2.nodup_used List.nodup_nil

/-- The class of schemas is called in any case. -/
theorem schema_mem_callees : Constructor.schema ∈ (lowered binding S).1.callees :=
  mem_callees_call ..

end Schemas

end Bindings
end AnchorIdl
