/-
# Scanning a text

A scanner of a text `s` returns what it found together with the rest of `s` and
the proof that the rest is shorter, so that scanners which call each other end.
`skipWhile` may skip nothing, and its rest is only no longer than `s`.

Source: none; this is how the readers of JSON and TOML are built.
-/

import AnchorIdl.Text.Basic

namespace AnchorIdl
namespace Text

/-- What follows the scanned head of `s`. -/
abbrev Rest (s : Text) := { r : Text // r.length < s.length }

/-- What follows a head of `s` that may be empty. -/
abbrev Tail (s : Text) := { r : Text // r.length ≤ s.length }

/-- What follows when nothing is scanned. -/
def Tail.all (s : Text) : Tail s := ⟨s, Nat.le_refl _⟩

/-- What follows the first character is shorter. -/
theorem length_lt_cons (c : CodePoint) (r : Text) : r.length < (c :: r).length :=
  Nat.lt_succ_self _

/-- What is shorter than a text is shorter than the text after one more character. -/
theorem lt_cons_of_lt {q r : Text} (c : CodePoint) (h : q.length < r.length) :
    q.length < (c :: r).length :=
  Nat.lt_succ_of_lt h

/-- What is no longer than a text is shorter than the text after one more character. -/
theorem lt_cons_of_le {q r : Text} (c : CodePoint) (h : q.length ≤ r.length) :
    q.length < (c :: r).length :=
  Nat.lt_succ_of_le h

/-- What is shorter than a text is no longer than the text after one more character. -/
theorem le_cons_of_lt {q r : Text} (c : CodePoint) (h : q.length < r.length) :
    q.length ≤ (c :: r).length :=
  Nat.le_of_lt (lt_cons_of_lt c h)

/-- What is no longer than a text is no longer than the text after one more character. -/
theorem le_cons_of_le {q r : Text} (c : CodePoint) (h : q.length ≤ r.length) :
    q.length ≤ (c :: r).length :=
  Nat.le_of_lt (lt_cons_of_le c h)

/-- What is no longer than a shorter text is shorter. -/
theorem lt_of_le_of_lt {q r s : Text} (h : q.length ≤ r.length) (h' : r.length < s.length) :
    q.length < s.length :=
  Nat.lt_of_le_of_lt h h'

/-- What follows the start of a text is no longer than the text. -/
theorem length_le_of_dropStart? {start t r : Text} (h : dropStart? start t = some r) :
    r.length ≤ t.length := by
  induction start generalizing t with
  | nil =>
    obtain rfl := Option.some.inj h
    exact Nat.le_refl _
  | cons a start ih =>
    cases t with
    | nil => simp [dropStart?] at h
    | cons b t =>
      unfold dropStart? at h
      split at h
      · exact Nat.le_succ_of_le (ih h)
      · simp at h

/-- The text from the first character on that does not satisfy `p`. -/
def skipWhile (p : CodePoint → Bool) (s : Text) : Tail s :=
  ⟨s.dropWhile p, (List.dropWhile_suffix _).length_le⟩

end Text
end AnchorIdl
