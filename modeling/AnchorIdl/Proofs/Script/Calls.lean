/-
# Calls in a script

Going through a script from left to right, one also sees what is called in it:
the word right in front of an opening parenthesis, outside texts
(`calledNames`).  A reader of the script finds the same calls in its terms
(`Term.called`), if the script is put together like this:

| piece | calls |
| --- | --- |
| a literal | nothing, whatever it holds |
| names, numbers, signs | nothing |
| a name, and a piece in parentheses | the name, then what the piece calls |
| pieces with separators between them | what each of them calls, in order |

A piece `Invokes` some names if it does so where no word ends in front of it, and
`Follows` with them if it does so anywhere.  What `Separates` ends the word in
front of it.
-/

import AnchorIdl.Proofs.Script.Brackets

namespace AnchorIdl
namespace Script

/-! ### Going through a script -/

/-- What is known at a position of a script: its region, the word that ends there, and the names
that are called before. -/
structure Progress where
  region : Region := .code
  word : Text := []
  called : List Text := []

/-- What is known behind one more character. -/
def callStep (s : Progress) (c : CodePoint) : Progress where
  region := (scanStep (s.region, 0) c).1
  word := if s.region = .code ∧ c.isIdentifierContinue = true then s.word ++ [c] else []
  called := if s.region = .code ∧ c = '(' ∧ s.word ≠ [] then s.called ++ [s.word] else s.called

/-- The names that are called in a script, in order, from its text. -/
def calledNames (t : Text) : List Text := (t.foldl callStep {}).called

mutual

/-- The names that a term calls, in order. -/
def Term.called : Term → List Text
  | .list items => Term.itemsCalled items
  | .call callee arguments => callee :: Term.argumentsCalled arguments
  | _ => []

/-- The names that some items call. -/
def Term.itemsCalled : List Term → List Text
  | [] => []
  | t :: rest => t.called ++ Term.itemsCalled rest

/-- The names that some arguments call. -/
def Term.argumentsCalled : List (Option Text × Term) → List Text
  | [] => []
  | (_, t) :: rest => t.called ++ Term.argumentsCalled rest

end

/-- The names that a script calls, in order, from its terms. -/
def called (script : Script) : List Text := script.assignments.flatMap fun a => a.2.called

/-! ### Pieces -/

/-- A piece of code that calls nothing and ends the word in front of it. -/
def Separates (t : Text) : Prop :=
  ∀ word called, t.foldl callStep ⟨.code, word, called⟩ = ⟨.code, [], called⟩

/-- A piece of code that calls some names, whatever word ends in front of it. -/
def Follows (t : Text) (names : List Text) : Prop :=
  ∀ word called, ∃ word', t.foldl callStep ⟨.code, word, called⟩ = ⟨.code, word', called ++ names⟩

/-- A piece of code that calls some names, if no word ends in front of it. -/
def Invokes (t : Text) (names : List Text) : Prop :=
  ∀ called, ∃ word, t.foldl callStep ⟨.code, [], called⟩ = ⟨.code, word, called ++ names⟩

section Pieces

variable {t u : Text} {names more : List Text} {c : CodePoint}

theorem Follows.invokes (h : Follows t names) : Invokes t names := h []

theorem Separates.follows (h : Separates t) : Follows t [] :=
  fun word called => ⟨[], by rw [h word called, List.append_nil]⟩

theorem Follows.append (ht : Follows t names) (hu : Follows u more) :
    Follows (t ++ u) (names ++ more) := by
  intro word called
  obtain ⟨middle, hmiddle⟩ := ht word called
  obtain ⟨last, hlast⟩ := hu middle (called ++ names)
  exact ⟨last, by rw [List.foldl_append, hmiddle, hlast, List.append_assoc]⟩

theorem Invokes.append (ht : Invokes t names) (hu : Follows u more) :
    Invokes (t ++ u) (names ++ more) := by
  intro called
  obtain ⟨middle, hmiddle⟩ := ht called
  obtain ⟨last, hlast⟩ := hu middle (called ++ names)
  exact ⟨last, by rw [List.foldl_append, hmiddle, hlast, List.append_assoc]⟩

/-- A piece behind a separator. -/
theorem Separates.append (ht : Separates t) (hu : Invokes u names) : Follows (t ++ u) names := by
  intro word called
  rw [List.foldl_append, ht]
  exact hu called

theorem Separates.after (ht : Follows t []) (hu : Separates u) : Separates (t ++ u) := by
  intro word called
  obtain ⟨middle, hmiddle⟩ := ht word called
  rw [List.foldl_append, hmiddle, List.append_nil, hu]

theorem Invokes.separated (ht : Invokes t names) (hu : Separates u) : Invokes (t ++ u) names := by
  have h := ht.append hu.follows
  rwa [List.append_nil] at h

theorem follows_nil : Follows [] [] := fun word called => ⟨word, by rw [List.append_nil]; rfl⟩

theorem Follows.flatMap {α : Type} {f : α → Text} {g : α → List Text} {xs : List α}
    (h : ∀ x ∈ xs, Follows (f x) (g x)) : Follows (xs.flatMap f) (xs.flatMap g) := by
  induction xs with
  | nil => exact follows_nil
  | cons x xs ih =>
    rw [List.forall_mem_cons] at h
    exact h.1.append (ih h.2)

/-! ### Characters of code -/

/-- A sign or a blank: no quote, no parenthesis that calls, and no part of a word. -/
def IsSign (c : CodePoint) : Prop :=
  isQuote c = false ∧ c ≠ '(' ∧ c.isIdentifierContinue = false

instance (c : CodePoint) : Decidable (IsSign c) := inferInstanceAs (Decidable (_ ∧ _))

theorem IsSign.step (h : IsSign c) (word : Text) (called : List Text) :
    callStep ⟨.code, word, called⟩ c = ⟨.code, [], called⟩ := by
  simp [callStep, scanStep, h.1, h.2]

theorem separates_signs (hne : t ≠ []) (h : ∀ c ∈ t, IsSign c) : Separates t := by
  induction t with
  | nil => exact absurd rfl hne
  | cons c t ih =>
    rw [List.forall_mem_cons] at h
    intro word called
    rw [List.foldl_cons, h.1.step]
    cases t with
    | nil => rfl
    | cons d t => exact ih (List.cons_ne_nil d t) h.2 [] called

theorem separates_sign (h : IsSign c) : Separates [c] := h.step

theorem separates_feed : Separates (Text.ofString "\n") := separates_sign (by decide)

theorem follows_plain (h : IsPlain t) : Follows t [] := by
  induction t with
  | nil => exact follows_nil
  | cons c t ih =>
    have hc := h c List.mem_cons_self
    simp only [List.mem_cons, List.not_mem_nil, or_false, not_or] at hc
    intro word called
    obtain ⟨last, hlast⟩ := ih (fun d hd => h d (List.mem_cons_of_mem c hd))
      (if c.isIdentifierContinue = true then word ++ [c] else []) called
    refine ⟨last, ?_⟩
    rw [List.foldl_cons, ← hlast]
    simp [callStep, scanStep, isQuote, hc]

/-- A quote belongs to no word. -/
theorem isIdentifierContinue_of_isQuote (h : isQuote c = true) :
    c.isIdentifierContinue = false ∧ c ≠ '(' := by
  rw [isQuote, Bool.or_eq_true, decide_eq_true_eq, decide_eq_true_eq] at h
  rcases h with rfl | rfl <;> decide

/-- A word is kept as it is. -/
theorem foldl_word (h : ∀ c ∈ t, c.isIdentifierContinue = true) (word : Text)
    (called : List Text) :
    t.foldl callStep ⟨.code, word, called⟩ = ⟨.code, word ++ t, called⟩ := by
  induction t generalizing word with
  | nil => rw [List.append_nil]; rfl
  | cons c t ih =>
    rw [List.forall_mem_cons] at h
    have hquote : isQuote c = false := by
      refine Bool.eq_false_iff.2 fun hquote => ?_
      rw [(isIdentifierContinue_of_isQuote hquote).1] at h
      cases h.1
    have hopen : c ≠ '(' := by
      rintro rfl
      exact absurd h.1 (by decide)
    have hstep : callStep ⟨.code, word, called⟩ c = ⟨.code, word ++ [c], called⟩ := by
      simp [callStep, scanStep, hquote, hopen, h.1]
    rw [List.foldl_cons, hstep, ih h.2, List.append_assoc]
    rfl

/-- A call of a name. -/
theorem Invokes.call {name : Text} (hname : ∀ c ∈ name, c.isIdentifierContinue = true)
    (hne : name ≠ []) (h : Invokes t names) :
    Invokes (name ++ (CodePoint.ofChar '(' :: t ++ [CodePoint.ofChar ')'])) (name :: names) := by
  intro called
  have hopen : callStep ⟨.code, name, called⟩ (CodePoint.ofChar '(') =
      ⟨.code, [], called ++ [name]⟩ := by
    have hparen : isQuote (CodePoint.ofChar '(') = false ∧
        (CodePoint.ofChar '(').isIdentifierContinue = false := by
      decide
    simp [callStep, scanStep, hparen, hne]
  obtain ⟨word, hword⟩ := h (called ++ [name])
  have hclose : Separates [CodePoint.ofChar ')'] := separates_sign (by decide)
  refine ⟨[], ?_⟩
  rw [List.foldl_append, foldl_word hname, List.nil_append, List.cons_append, List.foldl_cons,
    hopen, List.foldl_append, hword, hclose, List.append_assoc]
  rfl

/-- Parentheses without a name in front of them call nothing. -/
theorem Invokes.grouped (h : Invokes t names) :
    Invokes (CodePoint.ofChar '(' :: t ++ [CodePoint.ofChar ')']) names := by
  intro called
  obtain ⟨word, hword⟩ := h called
  have hopen : callStep ⟨.code, [], called⟩ (CodePoint.ofChar '(') = ⟨.code, [], called⟩ := rfl
  have hclose : Separates [CodePoint.ofChar ')'] := separates_sign (by decide)
  refine ⟨[], ?_⟩
  rw [List.cons_append, List.foldl_cons, hopen, List.foldl_append, hword, hclose]

/-- Brackets call nothing. -/
theorem Invokes.listed (h : Invokes t names) :
    Invokes (CodePoint.ofChar '[' :: t ++ [CodePoint.ofChar ']']) names := by
  have hopen : Separates [CodePoint.ofChar '['] := separates_sign (by decide)
  exact (hopen.append h).invokes.separated (separates_sign (by decide))

theorem Invokes.calledNames_eq (h : Invokes t names) : calledNames t = names := by
  obtain ⟨word, hword⟩ := h []
  exact congrArg Progress.called hword

end Pieces

/-! ### Literals -/

section Literals

variable {quote : CodePoint} {t u : Text}

/-- A piece of a text between two quotes that stays there. -/
def Hidden (quote : CodePoint) (t : Text) : Prop :=
  ∀ called, t.foldl callStep ⟨.text quote, [], called⟩ = ⟨.text quote, [], called⟩

theorem Hidden.append (ht : Hidden quote t) (hu : Hidden quote u) : Hidden quote (t ++ u) := by
  intro called
  rw [List.foldl_append, ht, hu]

theorem Hidden.flatMap {f : CodePoint → Text} (h : ∀ c ∈ t, Hidden quote (f c)) :
    Hidden quote (t.flatMap f) := by
  induction t with
  | nil => exact fun _ => rfl
  | cons c t ih =>
    rw [List.forall_mem_cons] at h
    exact h.1.append (ih h.2)

theorem Hidden.quiet (h : ∀ c ∈ t, c ≠ quote ∧ c ≠ '\\') : Hidden quote t := by
  induction t with
  | nil => exact fun _ => rfl
  | cons c t ih =>
    rw [List.forall_mem_cons] at h
    intro called
    have hstep : callStep ⟨.text quote, [], called⟩ c = ⟨.text quote, [], called⟩ := by
      simp [callStep, scanStep, h.1]
    rw [List.foldl_cons, hstep]
    exact ih h.2 called

theorem Hidden.escaped (hq : isQuote quote = true) (c : CodePoint) :
    Hidden quote [CodePoint.ofChar '\\', c] := by
  have hne : CodePoint.ofChar '\\' ≠ quote := by
    rintro rfl
    exact absurd hq (by decide)
  intro called
  simp [callStep, scanStep, hne]

theorem hidden_escape (hq : isQuote quote = true) (c : CodePoint) :
    Hidden quote (Quoted.escape quote c) :=
  escape_closure hq (fun _ _ ht hu => ht.append hu) (fun _ ht => .quiet ht) (.escaped hq) c

/-- A text between two quotes calls nothing. -/
theorem separates_quoted (hq : isQuote quote = true) (h : Hidden quote t) :
    Separates (quote :: t ++ [quote]) := by
  intro word called
  have hopen : callStep ⟨.code, word, called⟩ quote = ⟨.text quote, [], called⟩ := by
    simp [callStep, scanStep, hq, isIdentifierContinue_of_isQuote hq]
  rw [List.cons_append, List.foldl_cons, hopen, List.foldl_append, h]
  simp [callStep, scanStep]

theorem separates_literal (t : Text) : Separates (Quoted.literal t) := by
  unfold Quoted.literal Quoted.within
  split
  · exact separates_quoted (by decide) (.flatMap fun c _ => hidden_escape (by decide) c)
  · exact separates_quoted (by decide) (.flatMap fun c _ => hidden_escape (by decide) c)

end Literals

end Script
end AnchorIdl
