/-
# Reading places

A place is displayed with a point before each name but a leading one and with
brackets around each index, `instructions[2].args[0].type`.  `Place.ofText?`
reads that back.  It reads back every place whose names are made of letters
(`ofText?_display`), so the text of such a place tells its steps.

Following a place into a value step by step ends at a value, at a member that
its object does not have, or nowhere (`Json.at?`).
-/

import AnchorIdl.Json.Basic
import AnchorIdl.Json.Place
import AnchorIdl.Proofs.Text.Numeral

namespace AnchorIdl
namespace Place

/-- How far a step has been read: not begun, or begun as a name or as an index. -/
inductive Begun
  | nothing
  | name (letters : Text)
  | index (digits : Text)

/-- Read the rest of a place, behind what has been read of a step. -/
def readSteps : Begun → Text → Option Place
  | .nothing, [] => some []
  | .name t, [] => some [.member t]
  | .index _, [] => none
  | .nothing, c :: rest =>
    if c = '.' then readSteps (.name []) rest
    else if c = '[' then readSteps (.index []) rest
    else none
  | .name t, c :: rest =>
    if c = '.' then (readSteps (.name []) rest).map (Step.member t :: ·)
    else if c = '[' then (readSteps (.index []) rest).map (Step.member t :: ·)
    else readSteps (.name (t ++ [c])) rest
  | .index t, c :: rest =>
    if c = ']' then (readSteps .nothing rest).map (Step.index (Text.digitsValue t) :: ·)
    else readSteps (.index (t ++ [c])) rest

/-- The place that a text displays. -/
def ofText? (t : Text) : Option Place :=
  if t = "<root>" then some []
  else if t.head? = some (CodePoint.ofChar '[') then readSteps .nothing t
  else readSteps (.name []) t

/-- The names of a place are made of letters. -/
def IsPlain (p : Place) : Prop :=
  ∀ name, Step.member name ∈ p → name ≠ [] ∧ ∀ c ∈ name, c.isLetter = true

theorem ne_of_isLetter {c : CodePoint} (h : c.isLetter = true) :
    c ≠ CodePoint.ofChar '.' ∧ c ≠ CodePoint.ofChar '[' ∧ c ≠ CodePoint.ofChar '<' := by
  refine ⟨?_, ?_, ?_⟩ <;> rintro rfl <;> revert h <;> decide

theorem ne_of_isDigit {c : CodePoint} (h : c.isDigit = true) : c ≠ CodePoint.ofChar ']' := by
  rintro rfl
  revert h
  decide

theorem readSteps_letters {name : Text} (h : ∀ c ∈ name, c.isLetter = true) (t rest : Text) :
    readSteps (.name t) (name ++ rest) = readSteps (.name (t ++ name)) rest := by
  induction name generalizing t with
  | nil => simp
  | cons c name ih =>
    obtain ⟨hpoint, hbracket, -⟩ := ne_of_isLetter (h c (List.mem_cons_self ..))
    rw [List.cons_append, readSteps, if_neg hpoint, if_neg hbracket,
      ih fun d hd => h d (List.mem_cons_of_mem _ hd), List.append_assoc, List.singleton_append]

theorem readSteps_digits {digits : Text} (h : ∀ c ∈ digits, c.isDigit = true) (t rest : Text) :
    readSteps (.index t) (digits ++ rest) = readSteps (.index (t ++ digits)) rest := by
  induction digits generalizing t with
  | nil => simp
  | cons c digits ih =>
    rw [List.cons_append, readSteps, if_neg (ne_of_isDigit (h c (List.mem_cons_self ..))),
      ih fun d hd => h d (List.mem_cons_of_mem _ hd), List.append_assoc, List.singleton_append]

/-- A name ends where the next step begins. -/
theorem readSteps_name (name : Text) (rest : Place) :
    readSteps (.name name) (rest.flatMap displayStep) =
      (readSteps .nothing (rest.flatMap displayStep)).map (Step.member name :: ·) := by
  cases rest with
  | nil => rfl
  | cons step rest => cases step <;> rfl

theorem readSteps_display {p : Place} (h : p.IsPlain) :
    readSteps .nothing (p.flatMap displayStep) = some p := by
  induction p with
  | nil => rfl
  | cons step rest ih =>
    have hrest := ih fun name hn => h name (List.mem_cons_of_mem _ hn)
    cases step with
    | member name =>
      have hletters := (h name (List.mem_cons_self ..)).2
      calc readSteps .nothing ((Step.member name :: rest).flatMap displayStep)
        _ = readSteps (.name []) (name ++ rest.flatMap displayStep) := rfl
        _ = readSteps (.name name) (rest.flatMap displayStep) := readSteps_letters hletters [] _
        _ = some (.member name :: rest) := by rw [readSteps_name, hrest]; rfl
    | index i =>
      have hdigits : ∀ c ∈ Text.ofNat i, c.isDigit = true := fun c => Text.isDigit_of_mem_ofNat
      calc readSteps .nothing ((Step.index i :: rest).flatMap displayStep)
        _ = readSteps (.index [])
            (Text.ofNat i ++ (Text.ofString "]" ++ rest.flatMap displayStep)) := by
          simp only [List.flatMap_cons, displayStep, List.append_assoc]
          rfl
        _ = (readSteps .nothing (rest.flatMap displayStep)).map
              (Step.index (Text.digitsValue (Text.ofNat i)) :: ·) := by
          rw [readSteps_digits hdigits]
          rfl
        _ = some (.index i :: rest) := by rw [Text.digitsValue_ofNat, hrest]; rfl

/-- **A place whose names are made of letters is read back from its display.** -/
theorem ofText?_display {p : Place} (h : p.IsPlain) : ofText? p.display = some p := by
  cases p with
  | nil => rfl
  | cons step rest =>
    cases step with
    | index i => exact readSteps_display h
    | member name =>
      obtain ⟨hne, hletters⟩ := h name (List.mem_cons_self ..)
      obtain ⟨c, name, rfl⟩ := List.exists_cons_of_ne_nil hne
      obtain ⟨-, hbracket, hroot⟩ := ne_of_isLetter (hletters c (List.mem_cons_self ..))
      have hhead : display (.member (c :: name) :: rest) ≠ Text.ofString "<root>" := fun e =>
        hroot (List.cons.inj e).1
      have hrest := readSteps_display fun n hn => h n (List.mem_cons_of_mem _ hn)
      rw [ofText?, if_neg hhead, if_neg (by simpa [display] using hbracket), display,
        readSteps_letters hletters, List.nil_append, readSteps_name, hrest]
      rfl

/-- The display of such a place has no colon, so what stands behind one can be told apart. -/
theorem ne_colon_of_mem_display {p : Place} (h : p.IsPlain) :
    ∀ c ∈ p.display, c ≠ CodePoint.ofChar ':' := by
  have hletters : ∀ name, Step.member name ∈ p → ∀ c ∈ name, c ≠ CodePoint.ofChar ':' := by
    intro name hname c hc
    have hletter := (h name hname).2 c hc
    rintro rfl
    revert hletter
    decide
  have hdigits : ∀ i, ∀ c ∈ Text.ofNat i, c ≠ CodePoint.ofChar ':' := by
    intro i c hc
    have hdigit := Text.isDigit_of_mem_ofNat hc
    rintro rfl
    revert hdigit
    decide
  have hstep : ∀ step ∈ p, ∀ c ∈ displayStep step, c ≠ CodePoint.ofChar ':' := by
    intro step hstep
    cases step with
    | member name =>
      have hpoint : ∀ c ∈ (Text.ofString "."), c ≠ CodePoint.ofChar ':' := by decide
      exact List.forall_mem_append.2 ⟨hpoint, hletters name hstep⟩
    | index i =>
      have hopen : ∀ c ∈ (Text.ofString "["), c ≠ CodePoint.ofChar ':' := by decide
      have hclose : ∀ c ∈ (Text.ofString "]"), c ≠ CodePoint.ofChar ':' := by decide
      exact List.forall_mem_append.2 ⟨List.forall_mem_append.2 ⟨hopen, hdigits i⟩, hclose⟩
  cases p with
  | nil => decide
  | cons step rest =>
    have hrest : ∀ c ∈ rest.flatMap displayStep, c ≠ CodePoint.ofChar ':' := by
      intro c hc
      obtain ⟨s, hs, hc⟩ := List.mem_flatMap.1 hc
      exact hstep s (List.mem_cons_of_mem _ hs) c hc
    cases step with
    | member name =>
      exact List.forall_mem_append.2 ⟨hletters name (List.mem_cons_self ..), hrest⟩
    | index i =>
      exact List.forall_mem_append.2 ⟨hstep (.index i) (List.mem_cons_self ..), hrest⟩

end Place

/-- The value of a member of an object; what is no object has none. -/
def Json.get? : Json → Text → Option Json
  | .obj members, key => Ordered.get? members key
  | _, _ => none

/-- What is at a place in a value: a value, or nothing (`some none`) where the last step is a member
that its object does not have.  Every other place is `none`. -/
def Json.at? : Json → Place → Option (Option Json)
  | value, [] => some (some value)
  | .obj members, .member key :: rest =>
    match Ordered.get? members key with
    | some value => value.at? rest
    | none => if rest = [] then some none else none
  | .arr items, .index i :: rest => items[i]?.bind fun value => value.at? rest
  | _, _ :: _ => none

end AnchorIdl
