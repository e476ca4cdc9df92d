/-
# Open brackets

Going through a script from left to right, one knows at each position whether it
is in code or in a text between two equal quotes, and how many brackets are open
there (`scan`).  Brackets in texts do not count.  A text in three quotes is gone
through as an empty text, the text, and an empty text, which comes to the same
as long as it holds no quote.

A piece of a script is `Balanced n` if going through it in code closes every
bracket that it opens and no other, and never has more than `n` of its own open.
Balanced pieces may be put in sequence (`Stays.append`) and between brackets
(`balanced_bracketed`).  Literals are balanced whatever they hold
(`balanced_literal`), because their quotes and backslashes are escaped.
-/

import AnchorIdl.Proofs.Script.Reading

namespace AnchorIdl
namespace Script

/-! ### Going through a script -/

/-- Where a position of a script is: in code, in a text between two quotes, or behind a backslash in
one. -/
inductive Region
  | code
  | text (quote : CodePoint)
  | escape (quote : CodePoint)
  deriving DecidableEq

/-- Whether a character begins a text. -/
def isQuote (c : CodePoint) : Bool := c = '"' || c = '\''

/-- How many brackets more are open behind a character of code. -/
def bracketChange (c : CodePoint) : Int :=
  if c = '(' ∨ c = '[' ∨ c = '{' then 1 else if c = ')' ∨ c = ']' ∨ c = '}' then -1 else 0

/-- The region and the open brackets behind one more character. -/
def scanStep : Region × Int → CodePoint → Region × Int
  | (.code, k), c => if isQuote c then (.text c, k) else (.code, k + bracketChange c)
  | (.text quote, k), c =>
    if c = quote then (.code, k) else if c = '\\' then (.escape quote, k) else (.text quote, k)
  | (.escape quote, k), _ => (.text quote, k)

/-- The region and the open brackets behind a text. -/
def scan (s : Region × Int) (t : Text) : Region × Int := t.foldl scanStep s

/-- How many brackets are open at the end of the first part of a script. -/
def openBrackets (t : Text) : Int := (scan (.code, 0) t).2

@[simp] theorem scan_nil (s : Region × Int) : scan s [] = s := rfl

@[simp] theorem scan_cons (s : Region × Int) (c : CodePoint) (t : Text) :
    scan s (c :: t) = scan (scanStep s c) t :=
  rfl

theorem scan_append (s : Region × Int) (t u : Text) : scan s (t ++ u) = scan (scan s t) u :=
  List.foldl_append

/-- A piece stays in a region: it ends where it began, and on the way at most `n` brackets more are
open, and never fewer. -/
structure Stays (r : Region) (n : Nat) (t : Text) : Prop where
  bounded : ∀ k before after, t = before ++ after →
    k ≤ (scan (r, k) before).2 ∧ (scan (r, k) before).2 ≤ k + n
  closed : ∀ k, scan (r, k) t = (r, k)

/-- In code a piece closes what it opens and nothing else, and has at most `n` brackets open. -/
abbrev Balanced (n : Nat) (t : Text) : Prop := Stays .code n t

section Stays

variable {r r' : Region} {n : Nat} {t u : Text}

theorem Stays.nil : Stays r n [] where
  bounded k before after h := by
    rw [(List.nil_eq_append_iff.1 h).1, scan_nil]
    omega
  closed _ := rfl

theorem Stays.append (ht : Stays r n t) (hu : Stays r n u) : Stays r n (t ++ u) where
  bounded k before after h := by
    rcases List.append_eq_append_iff.1 h with ⟨more, rfl, hmore⟩ | ⟨more, hmore, -⟩
    · rw [scan_append, ht.closed]
      exact hu.bounded k more after hmore
    · exact ht.bounded k before more hmore
  closed k := by rw [scan_append, ht.closed, hu.closed]

theorem Stays.flatMap {α : Type} {f : α → Text} {xs : List α} (h : ∀ x ∈ xs, Stays r n (f x)) :
    Stays r n (xs.flatMap f) := by
  induction xs with
  | nil => exact .nil
  | cons x xs ih =>
    rw [List.forall_mem_cons] at h
    exact h.1.append (ih h.2)

/-- What stands between two characters of which the second undoes the first. -/
theorem Stays.enclosed {start stop : CodePoint} (j : Nat) (h : Stays r' n t)
    (hstart : ∀ k, scanStep (r, k) start = (r', k + j))
    (hstop : ∀ k, scanStep (r', k + j) stop = (r, k)) :
    Stays r (n + j) (start :: t ++ [stop]) where
  bounded k before after hbefore := by
    -- The first part is empty, ends within `t`, or ends behind it.
    rcases List.cons_eq_append_iff.1 hbefore with ⟨rfl, -⟩ | ⟨more, rfl, hmore⟩
    · rw [scan_nil]
      omega
    rw [scan_cons, hstart]
    rcases List.append_eq_append_iff.1 hmore with ⟨last, rfl, hlast⟩ | ⟨last, hlast, -⟩
    · rw [scan_append, h.closed]
      rcases List.cons_eq_append_iff.1 hlast with ⟨rfl, -⟩ | ⟨none, rfl, hnone⟩
      · rw [scan_nil]
        omega
      · rw [(List.nil_eq_append_iff.1 hnone).1, scan_cons, hstop, scan_nil]
        omega
    · have := h.bounded (k + j) more last hlast
      omega
  closed k := by
    rw [List.cons_append, scan_cons, hstart, scan_append, h.closed, scan_cons, hstop, scan_nil]

/-- A character that leads nowhere. -/
theorem Stays.char {c : CodePoint} (h : ∀ k, scanStep (r, k) c = (r, k)) : Stays r n [c] where
  bounded k before after hbefore := by
    rcases List.cons_eq_append_iff.1 hbefore with ⟨rfl, -⟩ | ⟨none, rfl, hnone⟩
    · rw [scan_nil]
      omega
    · rw [(List.nil_eq_append_iff.1 hnone).1, scan_cons, h, scan_nil]
      omega
  closed k := by rw [scan_cons, h, scan_nil]

theorem Stays.chars (h : ∀ c ∈ t, ∀ k, scanStep (r, k) c = (r, k)) : Stays r n t := by
  induction t with
  | nil => exact .nil
  | cons c t ih =>
    rw [List.forall_mem_cons] at h
    exact (Stays.char h.1).append (ih h.2)

end Stays

/-! ### Literals -/

section Literals

variable {quote : CodePoint} {n : Nat}

/-- A text without the quote and backslashes, between two quotes. -/
theorem Stays.quiet {t : Text} (h : ∀ c ∈ t, c ≠ quote ∧ c ≠ '\\') : Stays (.text quote) n t := by
  refine .chars fun c hc k => ?_
  rw [scanStep, if_neg (h c hc).1, if_neg (h c hc).2]

/-- A backslash takes the next character with it, whatever it is. -/
theorem Stays.escaped (hq : isQuote quote = true) (c : CodePoint) :
    Stays (.text quote) n [CodePoint.ofChar '\\', c] := by
  have hne : CodePoint.ofChar '\\' ≠ quote := by
    rintro rfl
    exact absurd hq (by decide)
  have hnil : Stays (.escape quote) n [] := .nil
  refine hnil.enclosed 0 (fun k => ?_) fun k => ?_
  · simp [scanStep, hne]
  · simp [scanStep]

theorem ne_of_mem_hex {width n : Nat} {c : CodePoint} (h : c ∈ Text.hex width n) :
    isQuote c = false ∧ c ≠ '\\' := by
  induction width generalizing n with
  | zero => simp [Text.hex] at h
  | succ width ih =>
    rw [Text.hex, List.mem_append, List.mem_singleton] at h
    rcases h with h | rfl
    · exact ih h
    · have hdigit : ∀ d < 16, isQuote (CodePoint.ofChar (Nat.digitChar d)) = false ∧
          CodePoint.ofChar (Nat.digitChar d) ≠ '\\' := by
        decide
      exact hdigit _ (Nat.mod_lt n (by decide))

/-- The escape of a character is put together of characters that are neither the quote nor a
backslash and of backslashes with what they take with them. -/
theorem escape_closure {P : Text → Prop} (hq : isQuote quote = true)
    (append : ∀ t u, P t → P u → P (t ++ u))
    (quiet : ∀ t : Text, (∀ c ∈ t, c ≠ quote ∧ c ≠ '\\') → P t)
    (escaped : ∀ c, P [CodePoint.ofChar '\\', c]) (c : CodePoint) : P (Quoted.escape quote c) := by
  have hhex : ∀ (x : Char) (width : Nat),
      P ([CodePoint.ofChar '\\', CodePoint.ofChar x] ++ Text.hex width c.val) := by
    intro x width
    refine append _ _ (escaped _) (quiet _ fun d hd => ⟨?_, (ne_of_mem_hex hd).2⟩)
    rintro rfl
    simp [(ne_of_mem_hex hd).1] at hq
  unfold Quoted.escape
  split_ifs with h
  · exact escaped c
  · exact escaped 't'
  · exact escaped 'n'
  · exact escaped 'r'
  · rw [not_or] at h
    exact quiet _ (List.forall_mem_singleton.2 h)
  · exact hhex 'x' 2
  · exact hhex 'u' 4
  · exact hhex 'U' 8

theorem stays_escape (hq : isQuote quote = true) (c : CodePoint) :
    Stays (.text quote) n (Quoted.escape quote c) :=
  escape_closure hq (fun _ _ ht hu => ht.append hu) (fun _ ht => .quiet ht) (.escaped hq) c

/-- A text between two quotes. -/
theorem balanced_quoted {t : Text} (hq : isQuote quote = true) (h : Stays (.text quote) n t) :
    Balanced n (quote :: t ++ [quote]) := by
  refine h.enclosed 0 (fun k => ?_) fun k => ?_
  · simp [scanStep, hq]
  · simp [scanStep]

theorem balanced_literal (t : Text) : Balanced n (Quoted.literal t) := by
  unfold Quoted.literal Quoted.within
  split
  · exact balanced_quoted (by decide) (.flatMap fun c _ => stays_escape (by decide) c)
  · exact balanced_quoted (by decide) (.flatMap fun c _ => stays_escape (by decide) c)

end Literals

/-! ### Code -/

section Code

variable {n : Nat}

/-- Code without quotes and brackets. -/
def IsPlain (t : Text) : Prop := ∀ c ∈ t, c ∉ (['"', '\'', '(', '[', '{', ')', ']', '}'] : Text)

instance (t : Text) : Decidable (IsPlain t) := inferInstanceAs (Decidable (∀ c ∈ t, _))

theorem balanced_plain {t : Text} (h : IsPlain t) : Balanced n t := by
  refine .chars fun c hc k => ?_
  have hplain := h c hc
  simp only [List.mem_cons, List.not_mem_nil, or_false, not_or] at hplain
  simp [scanStep, isQuote, bracketChange, hplain]

/-- A piece between two brackets. -/
theorem balanced_bracketed {t : Text} {start stop : CodePoint} (h : Balanced n t)
    (hstart : isQuote start = false ∧ bracketChange start = 1)
    (hstop : isQuote stop = false ∧ bracketChange stop = -1) :
    Balanced (n + 1) (start :: t ++ [stop]) := by
  refine h.enclosed 1 (fun k => ?_) fun k => ?_
  · simp [scanStep, hstart]
  · simp only [scanStep, hstop, Bool.false_eq_true, if_false, Prod.mk.injEq, true_and]
    omega

theorem isPlain_of_isName {t : Text} (h : IsName t) : IsPlain t := by
  intro c hc hspecial
  have hstart : ∀ d ∈ (['"', '\'', '(', '[', '{', ')', ']', '}'] : Text),
      d.isIdentifierStart = false ∧ d.isIdentifierContinue = false := by
    decide
  cases t with
  | nil => simp at hc
  | cons d t =>
    have hname := h.1
    simp only [Text.isIdentifier, Bool.and_eq_true, List.all_eq_true] at hname
    rcases List.mem_cons.1 hc with rfl | hmem
    · simp [(hstart c hspecial).1] at hname
    · have hcontinue := hname.2 c hmem
      rw [(hstart c hspecial).2] at hcontinue
      cases hcontinue

theorem isPlain_ofNat (n : Nat) : IsPlain (Text.ofNat n) := by
  intro c hc hspecial
  have hdigit : ∀ d ∈ (['"', '\'', '(', '[', '{', ')', ']', '}'] : Text), d.isDigit = false := by
    decide
  have hc := Text.isDigit_of_mem_ofNat hc
  rw [hdigit c hspecial] at hc
  cases hc

theorem isPlain_ofInt (i : Int) : IsPlain (Text.ofInt i) := by
  cases i with
  | ofNat n => exact isPlain_ofNat n
  | negSucc n =>
    have hminus : IsPlain (Text.ofString "-") := by decide
    exact List.forall_mem_append.2 ⟨hminus, isPlain_ofNat (n + 1)⟩

/-! ### Openings -/

/-- Going through a text in code leads to code with `k` brackets more open. -/
def Opens (k : Nat) (t : Text) : Prop := ∀ j, scan (.code, j) t = (.code, j + k)

theorem Opens.append {j k : Nat} {t u : Text} (ht : Opens j t) (hu : Opens k u) :
    Opens (j + k) (t ++ u) := by
  intro i
  rw [scan_append, ht, hu, Int.natCast_add, Int.add_assoc]

theorem Stays.opens {t : Text} (h : Balanced n t) : Opens 0 t := by
  intro j
  rw [h.closed, Int.natCast_zero, Int.add_zero]

theorem opens_bracket {c : CodePoint} (h : isQuote c = false ∧ bracketChange c = 1) :
    Opens 1 [c] := by
  intro j
  simp [scanStep, h]

end Code

end Script
end AnchorIdl
