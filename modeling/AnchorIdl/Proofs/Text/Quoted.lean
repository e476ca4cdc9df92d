/-
# A literal spells its text

The literal of a text is what stands for the text in generated source.  `Spells`
is the grammar of its body: characters that stand for themselves, which are
neither the quote in use nor a backslash nor the end of a line, and the escapes

| escape | character |
| --- | --- |
| `\\`, `\'` | the backslash, the single quote |
| `\n`, `\r`, `\t` | line feed, carriage return, tab |
| `\x`, `\u`, `\U` and two, four, eight digits | the one with this hexadecimal number |

So the quote in use never stands in a body by itself, and a body spells at most
one text (`Spells.unique`).  The body of a literal spells the text of the literal,
whatever characters this text has, and all characters of the literal are
printable (`spells_literal`).  A double quote is never escaped, since the literal
of a text that holds one is in single quotes.

A literal is also what comes of the form that messages show, which prefers single
quotes, when these are replaced by double ones wherever that is possible
(`literal_eq_requoted`).
-/

import AnchorIdl.Proofs.Script.Reading
import AnchorIdl.Proofs.Text.Basic
import Mathlib.Data.List.Basic

namespace AnchorIdl

/-! ### Printable characters -/

theorem CodePoint.isSurrogate_of_isPrintable {c : CodePoint} (h : c.isPrintable = true) :
    c.isSurrogate = false := by
  have hrange : (0xD7FC, 0xF8FF) ∈ unprintableRanges := by decide +kernel
  rw [Bool.eq_false_iff]
  intro hsurrogate
  simp only [isSurrogate, Bool.and_eq_true, decide_eq_true_eq] at hsurrogate
  rw [isPrintable, if_neg (by omega), Bool.not_eq_true', List.any_eq_false] at h
  refine h _ hrange ?_
  simp only [Bool.and_eq_true, decide_eq_true_eq]
  omega

theorem Text.isPrintable_of_mem_hex {width n : Nat} {c : CodePoint} (h : c ∈ hex width n) :
    c.isPrintable = true := by
  have hdigit : ∀ d < 16, (CodePoint.ofChar (Nat.digitChar d)).isPrintable = true := by decide
  induction width generalizing n with
  | zero => simp [hex] at h
  | succ width ih =>
    rw [hex, List.mem_append, List.mem_singleton] at h
    rcases h with h | rfl
    · exact ih h
    · exact hdigit _ (Nat.mod_lt n (by decide))

namespace Quoted

open Script (hexNumber? readBody readEscape readHex readText)

variable {quote c : CodePoint} {body t u e rest : Text}

/-- The escape of a character keeps it from view if it is not printable. -/
theorem isPrintable_of_mem_escape (hq : quote.isPrintable = true) {d : CodePoint}
    (h : d ∈ escape quote c) : d.isPrintable = true := by
  have hhex : ∀ (x : Char) (width : Nat), (CodePoint.ofChar x).isPrintable = true →
      d ∈ [CodePoint.ofChar '\\', CodePoint.ofChar x] ++ Text.hex width c.val →
      d.isPrintable = true := by
    intro x width hx hd
    simp only [List.mem_append, List.mem_cons, List.not_mem_nil, or_false] at hd
    rcases hd with (rfl | rfl) | hd
    · decide
    · exact hx
    · exact Text.isPrintable_of_mem_hex hd
  have hpair : ∀ x : CodePoint, x.isPrintable = true → d ∈ [CodePoint.ofChar '\\', x] →
      d.isPrintable = true := by
    intro x hx hd
    simp only [List.mem_cons, List.not_mem_nil, or_false] at hd
    rcases hd with rfl | rfl
    · decide
    · exact hx
  unfold escape at h
  split_ifs at h with hc ht hn hr hprintable hx hu
  · refine hpair c ?_ h
    rcases hc with rfl | rfl
    · exact hq
    · decide
  · exact hpair 't' (by decide) h
  · exact hpair 'n' (by decide) h
  · exact hpair 'r' (by decide) h
  · rw [List.mem_singleton] at h
    exact h ▸ hprintable
  · exact hhex 'x' 2 (by decide) h
  · exact hhex 'u' 4 (by decide) h
  · exact hhex 'U' 8 (by decide) h

/-! ### What a body spells -/

/-- An escape, and the character that it stands for. -/
inductive Escape : (e : Text) → CodePoint → Prop
  | backslash : Escape "\\\\" '\\'
  | singleQuote : Escape "\\'" '\''
  | lineFeed : Escape "\\n" '\n'
  | carriageReturn : Escape "\\r" '\r'
  | tab : Escape "\\t" '\t'
  | two {digits : Text} {c : CodePoint} (width : digits.length = 2)
      (number : hexNumber? digits = some c.val) : Escape ("\\x" ++ digits) c
  | four {digits : Text} {c : CodePoint} (width : digits.length = 4)
      (number : hexNumber? digits = some c.val) : Escape ("\\u" ++ digits) c
  | eight {digits : Text} {c : CodePoint} (width : digits.length = 8)
      (number : hexNumber? digits = some c.val) : Escape ("\\U" ++ digits) c

/-- The body of a literal in `quote`s, and the text that it spells. -/
inductive Spells (quote : CodePoint) : (body text : Text) → Prop
  | nil : Spells quote [] []
  | shown {c : CodePoint} {body text : Text} (inside : c ≠ quote) (plain : c ≠ '\\')
      (sameLine : c ≠ '\n' ∧ c ≠ '\r') (rest : Spells quote body text) :
      Spells quote (c :: body) (c :: text)
  | escaped {e : Text} {c : CodePoint} {body text : Text} (head : Escape e c)
      (rest : Spells quote body text) : Spells quote (e ++ body) (c :: text)

/-- A character is spelled by its escape, unless it is a double quote in double quotes. -/
theorem Spells.cons (hq : quote = '"' ∨ quote = '\'') (hc : c = '"' → quote = '\'')
    (h : Spells quote body t) : Spells quote (escape quote c ++ body) (c :: t) := by
  have hhex : ∀ width, c.val < 16 ^ width → (Text.hex width c.val).length = width ∧
      hexNumber? (Text.hex width c.val) = some c.val :=
    fun width hwidth => ⟨Text.length_hex width c.val, Script.hexNumber?_hex hwidth⟩
  unfold escape
  split_ifs with hescaped ht hn hr hprintable hx hu
  · rcases hescaped with rfl | rfl
    · rcases hq with rfl | rfl
      · exact absurd (hc rfl) (by decide)
      · exact .escaped .singleQuote h
    · exact .escaped .backslash h
  · subst ht
    exact .escaped .tab h
  · subst hn
    exact .escaped .lineFeed h
  · subst hr
    exact .escaped .carriageReturn h
  · rw [not_or] at hescaped
    exact .shown hescaped.1 hescaped.2 ⟨hn, hr⟩ h
  · obtain ⟨width, number⟩ := hhex 2 hx
    exact .escaped (.two width number) h
  · obtain ⟨width, number⟩ := hhex 4 hu
    exact .escaped (.four width number) h
  · obtain ⟨width, number⟩ := hhex 8 (Nat.lt_trans c.val_lt (by decide))
    exact .escaped (.eight width number) h

/-- The escapes of the characters of a text spell it. -/
theorem spells_flatMap (hq : quote = '"' ∨ quote = '\'')
    (ht : CodePoint.ofChar '"' ∈ t → quote = '\'') : Spells quote (t.flatMap (escape quote)) t := by
  induction t with
  | nil => exact .nil
  | cons c t ih =>
    rw [List.flatMap_cons]
    refine .cons hq (fun hc => ht ?_) (ih fun hmem => ht (List.mem_cons_of_mem c hmem))
    exact hc ▸ List.mem_cons_self

/-! ### Reading -/

theorem readHex_of_length {width : Nat} {digits : Text} (hwidth : digits.length = width)
    (hnumber : hexNumber? digits = some c.val) (rest : Text) :
    readHex width (digits ++ rest) = some (c, rest) := by
  have hc : CodePoint.ofNat? c.val = some c := dif_pos c.val_lt
  unfold readHex
  rw [if_neg (by simp [hwidth]), List.take_left' hwidth, List.drop_left' hwidth, hnumber,
    Option.bind_some, hc]
  rfl

/-- An escape is a backslash and what is read after it as its character. -/
theorem Escape.read (h : Escape e c) (rest : Text) :
    ∃ tail, e = CodePoint.ofChar '\\' :: tail ∧ readEscape (tail ++ rest) = some (c, rest) := by
  cases h with
  | backslash => exact ⟨['\\'], rfl, rfl⟩
  | singleQuote => exact ⟨['\''], rfl, rfl⟩
  | lineFeed => exact ⟨['n'], rfl, rfl⟩
  | carriageReturn => exact ⟨['r'], rfl, rfl⟩
  | tab => exact ⟨['t'], rfl, rfl⟩
  | @two digits _ width number =>
    exact ⟨CodePoint.ofChar 'x' :: digits, rfl, readHex_of_length width number rest⟩
  | @four digits _ width number =>
    exact ⟨CodePoint.ofChar 'u' :: digits, rfl, readHex_of_length width number rest⟩
  | @eight digits _ width number =>
    exact ⟨CodePoint.ofChar 'U' :: digits, rfl, readHex_of_length width number rest⟩

/-- A body is read up to the quote after it, as the text that it spells. -/
theorem Spells.read (hq : quote = '"' ∨ quote = '\'') (h : Spells quote body t) (rest : Text) :
    readBody quote (body ++ quote :: rest) = some (t, rest) := by
  induction h with
  | nil => rw [List.nil_append, readBody, if_pos rfl]
  | shown inside plain sameLine _ ih =>
    rw [List.cons_append, readBody, if_neg inside, if_neg (not_or.2 sameLine), if_neg plain, ih]
    rfl
  | @escaped e c body t head _ ih =>
    obtain ⟨tail, rfl, hread⟩ := head.read (body ++ quote :: rest)
    rw [List.append_assoc, List.cons_append, Script.readBody_backslash hq hread, ih]
    rfl

/-- A body spells at most one text. -/
theorem Spells.unique (hq : quote = '"' ∨ quote = '\'') (h : Spells quote body t)
    (h' : Spells quote body u) : u = t := by
  have hread := h.read hq []
  rw [h'.read hq []] at hread
  exact (Prod.mk.inj (Option.some.inj hread)).1

/-! ### Literals -/

/-- A text in the quotes that messages show it in, these replaced by double ones if it is in single
quotes and holds no double one. -/
def requoted (t : Text) : Text :=
  if (single t).head? = some singleQuote && !t.contains doubleQuote then
    doubleQuote :: ((single t).drop 1).dropLast ++ [doubleQuote]
  else single t

theorem escape_congr {quote' : CodePoint} (h : c ≠ quote) (h' : c ≠ quote') :
    escape quote c = escape quote' c := by
  simp [escape, h, h']

/-- The escapes in a text without quotes do not depend on the quote in use. -/
theorem flatMap_escape_congr {quote' : CodePoint} (h : quote ∉ t) (h' : quote' ∉ t) :
    t.flatMap (escape quote) = t.flatMap (escape quote') := by
  refine List.flatMap_congr fun c hc => escape_congr ?_ ?_
  · rintro rfl
    exact h hc
  · rintro rfl
    exact h' hc

theorem literal_eq_requoted (t : Text) : literal t = requoted t := by
  unfold literal requoted single
  cases hdouble : t.contains doubleQuote with
  | true => simp
  | false =>
    cases hsingle : t.contains singleQuote with
    | true => simp [within, singleQuote, doubleQuote]
    | false =>
      have hescapes : t.flatMap (escape singleQuote) = t.flatMap (escape doubleQuote) :=
        flatMap_escape_congr (by simpa using hsingle) (by simpa using hdouble)
      simp [within, hescapes]

/-- The quote of a literal, and the body inside. -/
theorem exists_literal_eq (t : Text) : ∃ quote, literal t = within quote t ∧
    (quote = '"' ∧ CodePoint.ofChar '"' ∉ t ∨ quote = '\'' ∧ CodePoint.ofChar '"' ∈ t) := by
  unfold literal
  split
  · next h => exact ⟨singleQuote, rfl, .inr ⟨rfl, by simpa [doubleQuote] using h⟩⟩
  · next h => exact ⟨doubleQuote, rfl, .inl ⟨rfl, by simpa [doubleQuote] using h⟩⟩

/-- **The literal of a text is one literal, which spells the text.**  It is a body between two equal
quotes, double ones exactly if the text holds no double quote.  The body spells the text and no
other one, and as the whole of a source it is read as the text.  All its characters are printable,
so it has octets.  It is the form that messages show, with double quotes where these need no
escapes. -/
theorem spells_literal (t : Text) :
    ∃ quote body, literal t = quote :: body ++ [quote] ∧
      (quote = '"' ∧ CodePoint.ofChar '"' ∉ t ∨ quote = '\'' ∧ CodePoint.ofChar '"' ∈ t) ∧
      (∀ u, Spells quote body u ↔ u = t) ∧ readText (literal t) = some (t, []) ∧
      (∀ c ∈ literal t, c.isPrintable = true) ∧
      (∃ octets, Utf8.encode (literal t) = .ok octets) ∧ literal t = requoted t := by
  obtain ⟨quote, hliteral, hchoice⟩ := exists_literal_eq t
  have hq : quote = '"' ∨ quote = '\'' := hchoice.imp And.left And.left
  have hspells : Spells quote (t.flatMap (escape quote)) t :=
    spells_flatMap hq fun hmem => (hchoice.resolve_left fun h => h.2 hmem).1
  have hquote : quote.isPrintable = true := by
    rcases hq with rfl | rfl <;> decide
  have hprintable : ∀ c ∈ literal t, c.isPrintable = true := by
    intro c hc
    simp only [hliteral, within, List.mem_append, List.mem_cons, List.not_mem_nil, or_false,
      List.mem_flatMap] at hc
    rcases hc with (rfl | ⟨d, -, hd⟩) | rfl
    · exact hquote
    · exact isPrintable_of_mem_escape hquote hd
    · exact hquote
  have hread : readText (literal t) = some (t, []) := by
    simpa [hliteral] using @Script.readText_within quote hq t [] (by simp)
  have hencodes := Utf8.encode_succeeds_iff.2 fun c hc =>
    CodePoint.isSurrogate_of_isPrintable (hprintable c hc)
  exact ⟨quote, _, hliteral, hchoice,
    fun u => ⟨fun h => hspells.unique hq h, fun h => h ▸ hspells⟩, hread, hprintable, hencodes,
    literal_eq_requoted t⟩

/-- Both quotes, a backslash, a line feed and a lone surrogate. -/
example : literal (Text.ofString "'\"\\\n" ++ [⟨0xD800, by decide⟩]) =
    Text.ofString "'\\'\"\\\\\\n\\ud800'" := by
  decide +kernel

end Quoted
end AnchorIdl
