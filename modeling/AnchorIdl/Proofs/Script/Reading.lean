/-
# Reading back what was written

Each literal is read back from its text, whatever follows it, as long as what
follows does not go on with the literal: a name must not be followed by one more
character of a name (`readName_append`), a numeral by one more digit
(`readInt_ofInt`), and an empty text by one more quote (`readText_literal`).
`Stops rest` says that `rest` begins with a comma, a closing bracket or a line
feed, if it is not empty, which rules all of that out.

`Reads item part x` says that `part` is read as `x` wherever it stands inside
brackets.  `Body` is the form of what stands between two brackets, in either
layout, and `Body.read` says that its items are read in order.
-/

import AnchorIdl.Proofs.Script.Reader
import AnchorIdl.Proofs.Text.Numeral
import AnchorIdl.Text.Quoted
import Mathlib.Algebra.Group.Nat.Defs

namespace AnchorIdl
namespace Script

/-- A text that is empty or begins with a comma, a closing bracket or a line feed. -/
def Stops (rest : Text) : Prop :=
  ∀ c ∈ rest.head?, c = ',' ∨ c = ')' ∨ c = ']' ∨ c = '\n'

/-! ### Names and numbers -/

theorem takeWhile_append {p : CodePoint → Bool} {t rest : Text} (ht : ∀ c ∈ t, p c = true)
    (hr : ∀ c ∈ rest.head?, p c = false) : (t ++ rest).takeWhile p = t := by
  rw [List.takeWhile_append_of_pos ht]
  cases rest with
  | nil => simp
  | cons c rest => simp [hr c rfl]

theorem dropWhile_append {p : CodePoint → Bool} {t rest : Text} (ht : ∀ c ∈ t, p c = true)
    (hr : ∀ c ∈ rest.head?, p c = false) : (t ++ rest).dropWhile p = rest := by
  rw [List.dropWhile_append_of_pos ht]
  cases rest with
  | nil => rfl
  | cons c rest => simp [hr c rfl]

theorem readName_append {n rest : Text} (hn : n.isIdentifier = true)
    (hr : ∀ c ∈ rest.head?, c.isIdentifierContinue = false) :
    readName (n ++ rest) = some (n, rest) := by
  cases n with
  | nil => simp [Text.isIdentifier] at hn
  | cons c n =>
    simp only [Text.isIdentifier, Bool.and_eq_true, List.all_eq_true] at hn
    rw [List.cons_append, readName, if_pos hn.1, takeWhile_append hn.2 hr, dropWhile_append hn.2 hr]

theorem readNumber_ofNat {n : Nat} {rest : Text} (hr : ∀ c ∈ rest.head?, c.isDigit = false) :
    readNumber (Text.ofNat n ++ rest) = some (n, rest) := by
  have hdigits : ∀ c ∈ Text.ofNat n, c.isDigit = true := fun _ => Text.isDigit_of_mem_ofNat
  unfold readNumber
  rw [takeWhile_append hdigits hr, dropWhile_append hdigits hr]
  cases h : Text.ofNat n with
  | nil => exact absurd h (Text.ofNat_ne_nil n)
  | cons d digits =>
    have hzero : ¬ (d = CodePoint.ofChar '0' ∧ digits ≠ []) := by
      rintro ⟨rfl, hne⟩
      exact hne (Text.tail_eq_nil_of_ofNat h)
    simp only [if_neg hzero, ← h, Text.digitsValue_ofNat]

theorem readInt_ofInt {n : Int} {rest : Text} (hr : ∀ c ∈ rest.head?, c.isDigit = false) :
    readInt (Text.ofInt n ++ rest) = some (n, rest) := by
  unfold readInt
  cases n with
  | ofNat n =>
    have hminus : Text.dropStart? "-" (Text.ofNat n ++ rest) = none := by
      cases h : Text.ofNat n with
      | nil => exact absurd h (Text.ofNat_ne_nil n)
      | cons d digits =>
        have hd : d.isDigit = true := Text.isDigit_of_mem_ofNat (h ▸ List.mem_cons_self ..)
        refine Text.dropStart?_cons_of_ne ?_ [] _
        rintro rfl
        exact absurd hd (by decide)
    rw [Text.ofInt, hminus]
    simp only [readNumber_ofNat hr]
    rfl
  | negSucc n =>
    rw [Text.ofInt, List.append_assoc, Text.dropStart?_append]
    simp only [readNumber_ofNat hr]
    rfl

/-! ### Texts -/

theorem hexNumber?_append (t : Text) (c : CodePoint) :
    hexNumber? (t ++ [c]) = (hexNumber? t).bind fun n => c.hexValue?.map fun k => 16 * n + k := by
  unfold hexNumber?
  rw [List.foldlM_append]
  cases List.foldlM (fun (n : Nat) (d : CodePoint) => d.hexValue?.map fun k => 16 * n + k) 0 t with
  | none => rfl
  | some n => simp [List.foldlM]

theorem hexNumber?_hex {width n : Nat} (h : n < 16 ^ width) :
    hexNumber? (Text.hex width n) = some n := by
  induction width generalizing n with
  | zero =>
    obtain rfl : n = 0 := by simpa using h
    rfl
  | succ width ih =>
    have hdiv : n / 16 < 16 ^ width := by
      rw [Nat.pow_succ] at h
      omega
    have hmod : 16 * (n / 16) + n % 16 = n := by omega
    rw [Text.hex, hexNumber?_append, ih hdiv, Text.hexValue?_digitChar (Nat.mod_lt n (by decide))]
    simp [hmod]

theorem readHex_hex {width : Nat} {c : CodePoint} (h : c.val < 16 ^ width) (rest : Text) :
    readHex width (Text.hex width c.val ++ rest) = some (c, rest) := by
  have hlength := Text.length_hex width c.val
  have hc : CodePoint.ofNat? c.val = some c := dif_pos c.val_lt
  unfold readHex
  rw [if_neg (by simp [hlength]), List.take_left' hlength, List.drop_left' hlength,
    hexNumber?_hex h, Option.bind_some, hc]
  rfl

theorem readBody_backslash {quote c : CodePoint} {s rest : Text}
    (hq : quote = '"' ∨ quote = '\'') (h : readEscape s = some (c, rest)) :
    readBody quote ('\\' :: s) = (readBody quote rest).map fun (t, rest) => (c :: t, rest) := by
  have hne : CodePoint.ofChar '\\' ≠ quote := by
    rcases hq with rfl | rfl <;> simp
  rw [readBody, if_neg hne, if_neg (by simp), if_pos rfl]
  split
  · next h' =>
    obtain ⟨rfl, rfl⟩ := Prod.mk.inj (Option.some.inj (h.symm.trans h'))
    rfl
  · next h' => simp [h] at h'

theorem readBody_escape {quote : CodePoint} (hq : quote = '"' ∨ quote = '\'') (c : CodePoint)
    (s : Text) : readBody quote (Quoted.escape quote c ++ s) =
      (readBody quote s).map fun (t, rest) => (c :: t, rest) := by
  unfold Quoted.escape
  split_ifs with h₁ ht hn hr hp hx hu
  · refine readBody_backslash hq (if_pos ?_)
    rcases h₁ with rfl | rfl
    · exact .inr hq.symm
    · exact .inl rfl
  · exact readBody_backslash (s := CodePoint.ofChar 't' :: s) hq (by simp [readEscape, ht])
  · exact readBody_backslash (s := CodePoint.ofChar 'n' :: s) hq (by simp [readEscape, hn])
  · exact readBody_backslash (s := CodePoint.ofChar 'r' :: s) hq (by simp [readEscape, hr])
  · rw [not_or] at h₁
    rw [List.singleton_append, readBody, if_neg h₁.1, if_neg (by simp [hn, hr]), if_neg h₁.2]
  · exact readBody_backslash (s := CodePoint.ofChar 'x' :: (Text.hex 2 c.val ++ s)) hq
      (by simp [readEscape, @readHex_hex 2 c hx])
  · exact readBody_backslash (s := CodePoint.ofChar 'u' :: (Text.hex 4 c.val ++ s)) hq
      (by simp [readEscape, @readHex_hex 4 c hu])
  · have hU : c.val < 16 ^ 8 := Nat.lt_trans c.val_lt (by decide)
    exact readBody_backslash (s := CodePoint.ofChar 'U' :: (Text.hex 8 c.val ++ s)) hq
      (by simp [readEscape, @readHex_hex 8 c hU])

theorem readBody_flatMap {quote : CodePoint} (hq : quote = '"' ∨ quote = '\'') (t rest : Text) :
    readBody quote (t.flatMap (Quoted.escape quote) ++ quote :: rest) = some (t, rest) := by
  induction t with
  | nil => rw [List.flatMap_nil, List.nil_append, readBody, if_pos rfl]
  | cons c t ih =>
    rw [List.flatMap_cons, List.append_assoc, readBody_escape hq, ih, Option.map_some]

/-- An escaped character does not begin with the quote. -/
theorem escape_eq_cons {quote : CodePoint} (hq : quote = '"' ∨ quote = '\'') (c : CodePoint) :
    ∃ d s, Quoted.escape quote c = d :: s ∧ d ≠ quote := by
  have hne : CodePoint.ofChar '\\' ≠ quote := by
    rcases hq with rfl | rfl <;> simp
  unfold Quoted.escape
  split_ifs with h₁
  · exact ⟨_, _, rfl, hne⟩
  · exact ⟨_, _, rfl, hne⟩
  · exact ⟨_, _, rfl, hne⟩
  · exact ⟨_, _, rfl, hne⟩
  · exact ⟨_, _, rfl, fun h => h₁ (.inl h)⟩
  · exact ⟨_, _, rfl, hne⟩
  · exact ⟨_, _, rfl, hne⟩
  · exact ⟨_, _, rfl, hne⟩

theorem readText_within {quote : CodePoint} (hq : quote = '"' ∨ quote = '\'') {t rest : Text}
    (hr : quote ∉ rest.head?) : readText (Quoted.within quote t ++ rest) = some (t, rest) := by
  have htext : Quoted.within quote t ++ rest =
      quote :: (t.flatMap (Quoted.escape quote) ++ quote :: rest) := by
    simp [Quoted.within]
  have hlong : ¬ ([quote, quote] : Text) <+: t.flatMap (Quoted.escape quote) ++ quote :: rest := by
    cases t with
    | nil =>
      rintro ⟨after, h⟩
      refine hr ?_
      rw [← (List.cons.inj h).2]
      rfl
    | cons c t =>
      obtain ⟨d, s, hd, hne⟩ := escape_eq_cons hq c
      rw [List.flatMap_cons, hd]
      rintro ⟨after, h⟩
      exact hne (List.cons.inj h).1.symm
  rw [htext, readText, if_neg hlong, if_pos hq, readBody_flatMap hq]

theorem Stops.not_mem_head? {rest : Text} (h : Stops rest) {c : CodePoint}
    (hc : c ∉ ([',', ')', ']', '\n'] : Text)) : c ∉ rest.head? := by
  intro hmem
  exact hc (by simpa using h c hmem)

theorem readText_literal {t rest : Text} (hr : Stops rest) :
    readText (Quoted.literal t ++ rest) = some (t, rest) := by
  unfold Quoted.literal
  split
  · exact readText_within (.inr rfl) (hr.not_mem_head? (by decide))
  · exact readText_within (.inl rfl) (hr.not_mem_head? (by decide))

/-! ### Brackets -/

/-- A text that begins with a character that is neither blank nor a closing bracket. -/
def Begins (t : Text) : Prop := ∃ c tail, t = c :: tail ∧ isBlank c = false ∧ c ≠ ')' ∧ c ≠ ']'

/-- A part is read as `x` wherever it stands inside brackets. -/
structure Reads {α : Type} (item : Scanner α) (part : Text) (x : α) : Prop where
  begins : Begins part
  read : ∀ rest, Stops rest → item (part ++ rest) = some (x, rest)

/-- What stands between two brackets, up to the text after them: items with a comma after each but
the last, which may have one. -/
inductive Body {α : Type} (item : Scanner α) (stop : CodePoint) (rest : Text) :
    Text → List α → Prop
  | stop {blanks : Text} (hb : ∀ c ∈ blanks, isBlank c = true) :
      Body item stop rest (blanks ++ stop :: rest) []
  | last {blanks part : Text} {x : α} (hb : ∀ c ∈ blanks, isBlank c = true)
      (head : Reads item part x) : Body item stop rest (blanks ++ (part ++ stop :: rest)) [x]
  | cons {blanks part s : Text} {x : α} {xs : List α} (hb : ∀ c ∈ blanks, isBlank c = true)
      (head : Reads item part x) (tail : Body item stop rest s xs) :
      Body item stop rest (blanks ++ (part ++ CodePoint.ofChar ',' :: s)) (x :: xs)

theorem skip_cons {c : CodePoint} (hc : isBlank c = false) (s : Text) : skip (c :: s) = c :: s :=
  List.dropWhile_cons_of_neg (by simp [hc])

theorem skip_append {blanks : Text} (hb : ∀ c ∈ blanks, isBlank c = true) {c : CodePoint}
    (hc : isBlank c = false) (s : Text) : skip (blanks ++ c :: s) = c :: s := by
  unfold skip
  rw [List.dropWhile_append_of_pos hb]
  exact skip_cons hc s

theorem Body.read {α : Type} {item : Scanner α} {stop : CodePoint} {s rest : Text} {xs : List α}
    (hstop : stop = ')' ∨ stop = ']') (h : Body item stop rest s xs) :
    sequence item stop s = some (xs, rest) := by
  have hblank : isBlank stop = false := by
    rcases hstop with rfl | rfl <;> decide
  have hcomma : CodePoint.ofChar ',' ≠ stop := by
    rcases hstop with rfl | rfl <;> decide
  have hstops : Stops (stop :: rest) := by
    rintro c ⟨⟩
    exact .inr (hstop.imp_right .inl)
  induction h with
  | stop hb =>
    rw [sequence, skip_append hb hblank]
    exact if_pos rfl
  | @last blanks part x hb head =>
    obtain ⟨c, tail, rfl, hc, hparen, hbracket⟩ := head.begins
    have hcstop : c ≠ stop := by
      rintro rfl
      exact hstop.elim hparen hbracket
    have hread := head.read (stop :: rest) hstops
    rw [List.cons_append] at hread
    rw [sequence, List.cons_append, skip_append hb hc]
    simp only [if_neg hcstop, hread]
    rw [skip_cons hblank]
    exact if_pos rfl
  | @cons blanks part s x xs hb head _ ih =>
    obtain ⟨c, tail, rfl, hc, hparen, hbracket⟩ := head.begins
    have hcstop : c ≠ stop := by
      rintro rfl
      exact hstop.elim hparen hbracket
    have hread := head.read (CodePoint.ofChar ',' :: s) (by rintro c ⟨⟩; exact .inl rfl)
    rw [List.cons_append] at hread
    rw [sequence, List.cons_append, skip_append hb hc]
    simp only [if_neg hcstop, hread]
    have hshort : s.length < (blanks ++ c :: (tail ++ CodePoint.ofChar ',' :: s)).length := by
      simp
      omega
    rw [skip_cons (by decide)]
    simp only [if_neg hcomma, hshort, and_self, if_true, ih, Option.map_some]

/-- Blanks may stand before what stands between two brackets. -/
theorem Body.append {α : Type} {item : Scanner α} {stop : CodePoint} {s rest : Text} {xs : List α}
    (h : Body item stop rest s xs) {blanks : Text} (hb : ∀ c ∈ blanks, isBlank c = true) :
    Body item stop rest (blanks ++ s) xs := by
  cases h with
  | stop hb' =>
    rw [← List.append_assoc]
    exact .stop (List.forall_mem_append.2 ⟨hb, hb'⟩)
  | last hb' head =>
    rw [← List.append_assoc]
    exact .last (List.forall_mem_append.2 ⟨hb, hb'⟩) head
  | cons hb' head tail =>
    rw [← List.append_assoc]
    exact .cons (List.forall_mem_append.2 ⟨hb, hb'⟩) head tail

/-! ### Terms -/

/-- An identifier that is not reserved. -/
def IsName (t : Text) : Prop := t.isIdentifier = true ∧ t.isReserved = false

instance (t : Text) : Decidable (IsName t) := inferInstanceAs (Decidable (_ ∧ _))

theorem readTerm_eq_with (n : Nat) : ∃ inner, readTerm n = readTermWith inner := by
  cases n with
  | zero => exact ⟨_, rfl⟩
  | succ n => exact ⟨_, rfl⟩

/-- A character that begins an identifier begins nothing else. -/
theorem ne_of_isIdentifierStart {c : CodePoint} {d : Char} (hc : c.isIdentifierStart = true)
    (hd : (CodePoint.ofChar d).isIdentifierStart = false) : c ≠ CodePoint.ofChar d := by
  rintro rfl
  simp [hd] at hc

theorem begins_append {n : Text} (hn : n.isIdentifier = true) (rest : Text) :
    Begins (n ++ rest) := by
  cases n with
  | nil => simp [Text.isIdentifier] at hn
  | cons c n =>
    simp only [Text.isIdentifier, Bool.and_eq_true] at hn
    have hne := fun {d : Char} => ne_of_isIdentifierStart (d := d) hn.1
    refine ⟨c, _, rfl, ?_, hne (by decide), hne (by decide)⟩
    simp only [isBlank, Bool.or_eq_false_iff, decide_eq_false_iff_not]
    exact ⟨hne (by decide), hne (by decide)⟩

theorem isDigit_eq_false_of_isIdentifierStart {c : CodePoint} (hc : c.isIdentifierStart = true) :
    c.isDigit = false := by
  unfold CodePoint.isIdentifierStart CodePoint.isLetter CodePoint.isUpper CodePoint.isLower at hc
  unfold CodePoint.isDigit
  split at hc
  · simp only [Bool.or_eq_true, Bool.and_eq_true, decide_eq_true_eq, beq_iff_eq] at hc
    simp only [Bool.and_eq_false_iff, decide_eq_false_iff_not]
    omega
  · simp only [Bool.and_eq_false_iff, decide_eq_false_iff_not]
    omega

theorem Stops.isIdentifierContinue {rest : Text} (h : Stops rest) :
    ∀ c ∈ rest.head?, c.isIdentifierContinue = false := by
  intro c hc
  rcases h c hc with rfl | rfl | rfl | rfl <;> decide

theorem Stops.isDigit {rest : Text} (h : Stops rest) : ∀ c ∈ rest.head?, c.isDigit = false := by
  intro c hc
  rcases h c hc with rfl | rfl | rfl | rfl <;> decide

theorem readTermWith_text (inner : Option (Scanner Term)) (t : Text) {rest : Text}
    (hr : Stops rest) : readTermWith inner (Quoted.literal t ++ rest) = some (.text t, rest) := by
  have hread := readText_literal (t := t) hr
  unfold Quoted.literal Quoted.within at hread ⊢
  rw [List.cons_append, List.cons_append] at hread ⊢
  rw [readTermWith, if_pos (by split <;> simp [Quoted.singleQuote, Quoted.doubleQuote]), hread]
  rfl

theorem readTermWith_int (inner : Option (Scanner Term)) (n : Int) {rest : Text}
    (hr : Stops rest) : readTermWith inner (Text.ofInt n ++ rest) = some (.int n, rest) := by
  have hread := readInt_ofInt (n := n) hr.isDigit
  have hhead : ∃ c tail, Text.ofInt n = c :: tail ∧ (c = '-' ∨ c.isDigit = true) := by
    cases n with
    | ofNat n =>
      obtain ⟨d, digits, h⟩ := List.exists_cons_of_ne_nil (Text.ofNat_ne_nil n)
      exact ⟨d, digits, h, .inr (Text.isDigit_of_mem_ofNat (h ▸ List.mem_cons_self ..))⟩
    | negSucc n => exact ⟨_, _, rfl, .inl rfl⟩
  obtain ⟨c, tail, hn, hc⟩ := hhead
  have hquote : ¬ (c = '"' ∨ c = '\'') := by
    rintro (rfl | rfl) <;> exact absurd hc (by decide)
  rw [hn, List.cons_append] at hread ⊢
  rw [readTermWith, if_neg hquote, if_pos hc, hread]
  rfl

theorem readTermWith_of_isIdentifier (inner : Option (Scanner Term)) {n rest : Text}
    (hn : n.isIdentifier = true) (hr : ∀ c ∈ rest.head?, c.isIdentifierContinue = false) :
    readTermWith inner (n ++ rest) = readNamed inner n rest := by
  have hread := readName_append hn hr
  cases n with
  | nil => simp [Text.isIdentifier] at hn
  | cons c n =>
    simp only [Text.isIdentifier, Bool.and_eq_true] at hn
    have hne := fun {d : Char} => ne_of_isIdentifierStart (d := d) hn.1
    rw [List.cons_append] at hread ⊢
    rw [readTermWith, if_neg (not_or.2 ⟨hne (by decide), hne (by decide)⟩),
      if_neg (not_or.2 ⟨hne (by decide), by
        simp [isDigit_eq_false_of_isIdentifierStart hn.1]⟩),
      if_neg (hne (by decide)), hread]
    rfl

theorem constant?_eq_none {n : Text} (hn : n.isReserved = false) : constant? n = none := by
  unfold constant?
  rw [if_neg, if_neg, if_neg]
  · rintro rfl
    exact absurd hn (by decide)
  · rintro rfl
    exact absurd hn (by decide)
  · rintro rfl
    exact absurd hn (by decide)

theorem readTermWith_name (inner : Option (Scanner Term)) {n rest : Text} (hn : IsName n)
    (hr : Stops rest) : readTermWith inner (n ++ rest) = some (.name n, rest) := by
  have hparen : Text.dropStart? "(" rest = none := by
    cases rest with
    | nil => rfl
    | cons c rest =>
      refine Text.dropStart?_cons_of_ne ?_ [] rest
      rintro rfl
      exact absurd (hr _ rfl) (by decide)
  rw [readTermWith_of_isIdentifier inner hn.1 hr.isIdentifierContinue, readNamed,
    constant?_eq_none hn.2]
  simp only [hn.2, hparen]
  rfl

theorem readTermWith_call {term : Scanner Term} {n s rest : Text} (hn : IsName n)
    {arguments : List (Option Text × Term)}
    (h : Body (readArgument term) ')' rest s arguments) :
    readTermWith (some term) (n ++ "(" ++ s) = some (.call n arguments, rest) := by
  have hparen : ∀ c ∈ (Text.ofString "(" ++ s).head?, c.isIdentifierContinue = false := by
    rintro c ⟨⟩
    decide
  rw [List.append_assoc, readTermWith_of_isIdentifier _ hn.1 hparen, readNamed,
    constant?_eq_none hn.2]
  simp only [hn.2, Text.dropStart?_append, Option.bind_some, h.read (.inl rfl)]
  rfl

theorem readTermWith_list {term : Scanner Term} {s rest : Text} {items : List Term}
    (h : Body term ']' rest s items) :
    readTermWith (some term) ("[" ++ s) = some (.list items, rest) := by
  change readTermWith (some term) (CodePoint.ofChar '[' :: s) = _
  rw [readTermWith, if_neg (by decide), if_neg (by decide), if_pos rfl, Option.bind_some,
    h.read (.inr rfl)]
  rfl

/-- An argument with a keyword is read if its term is. -/
theorem Reads.argument {term : Scanner Term} {part : Text} {t : Term} (h : Reads term part t)
    {key : Text} (hkey : IsName key) :
    Reads (readArgument term) (key ++ "=" ++ part) (some key, t) where
  begins := List.append_assoc key _ _ ▸ begins_append hkey.1 _
  read rest hr := by
    have hequals : ∀ c ∈ (Text.ofString "=" ++ (part ++ rest)).head?,
        c.isIdentifierContinue = false := by
      rintro c ⟨⟩
      decide
    have hkeyword : keyword? (key ++ (Text.ofString "=" ++ (part ++ rest))) =
        some (key, part ++ rest) := by
      simp [keyword?, readName_append hkey.1 hequals, hkey.2]
    rw [List.append_assoc, List.append_assoc, readArgument, hkeyword]
    simp only [h.read rest hr]
    rfl

/-- An argument by its position is read if its term is and does not look like a keyword. -/
theorem Reads.positional {term : Scanner Term} {part : Text} {t : Term} (h : Reads term part t)
    (hkey : ∀ rest, readName (part ++ rest) = none) :
    Reads (readArgument term) part (none, t) where
  begins := h.begins
  read rest hr := by
    have hkeyword : keyword? (part ++ rest) = none := by simp [keyword?, hkey]
    rw [readArgument, hkeyword]
    simp only [h.read rest hr]
    rfl

end Script
end AnchorIdl
