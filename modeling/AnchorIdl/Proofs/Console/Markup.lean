/-
# Tags in console markup

A tag opens at a bracket if an even number of backslashes stands in front of it
and what comes after it starts a tag that is closed by the next bracket.  So
whether a bracket opens a tag depends on the texts on both of its sides
(`Unescaped`), and a text that is put together may have tags that none of its
parts has:

| at the seam of two parts | may do to a bracket |
| --- | --- |
| backslashes at the end of the first | escape the tag that begins the second |
| an open start of a tag in the first | be closed by the first bracket of the second |

An escaped text has no tags (`tags_escape`), but is no more than that: it leaves
the starts of tags open that the text leaves open, and its backslashes at the
end are even in number only if they are so in the text, or one.
-/

import AnchorIdl.Console.Markup
import AnchorIdl.Proofs.Text.Basic
import Mathlib.Data.List.TakeWhile

namespace AnchorIdl
namespace Markup

/-! ### Brackets -/

/-- The backslashes at the end of a text that stands after `pending` of them. -/
def endBackslashes : (pending : Nat) → Text → Nat
  | pending, [] => pending
  | pending, c :: r => endBackslashes (if c = '\\' then pending + 1 else 0) r

/-- The first bracket of a text. -/
def firstBracket? (s : Text) : Option CodePoint := s.find? isBracket

/-- The bracket that decides whether a text after a bracket is that of a tag, if the text starts as
one. -/
def decider? : Text → Option (Option CodePoint)
  | [] => none
  | c :: r => if isTagStart c then some (firstBracket? r) else none

/-- The decider of a tag. -/
def closed : Option (Option CodePoint) := some (some (CodePoint.ofChar ']'))

/-- The decider of a start that is left open. -/
def leftOpen : Option (Option CodePoint) := some none

/-- In `s`, between `pending` backslashes and `rest`, a bracket that is not escaped stands after
`before`, and is decided upon by `decider`. -/
def Unescaped (decider : Option (Option CodePoint)) (pending : Nat) (s rest before : Text) : Prop :=
  ∃ after, s = before ++ CodePoint.ofChar '[' :: after ∧ decider? (after ++ rest) = decider ∧
    endBackslashes pending before % 2 = 0

/-- In `s` a tag opens after `before`. -/
def TagAfter (s before : Text) : Prop := Unescaped closed 0 s [] before

/-- A text ends in the start of a tag. -/
def LeftOpen (s : Text) : Prop := ∃ before, Unescaped leftOpen 0 s [] before

/-- A bracket starts no tag. -/
theorem isBracket_of_isTagStart {c : CodePoint} (h : isTagStart c = true) :
    isBracket c = false := by
  by_contra hbracket
  simp only [isBracket, Bool.not_eq_false, Bool.or_eq_true, decide_eq_true_eq] at hbracket
  rcases hbracket with rfl | rfl <;> cases h

theorem decider?_cons_eq_some_iff {c : CodePoint} {r : Text} {first : Option CodePoint} :
    decider? (c :: r) = some first ↔ isTagStart c = true ∧ firstBracket? r = first := by
  rw [decider?]
  split <;> simp_all

theorem opensTag_iff {s : Text} : opensTag s = true ↔ decider? s = closed := by
  cases s with
  | nil => simp [opensTag, decider?, closed]
  | cons c r =>
    have hfind : (r.dropWhile fun c => !isBracket c).head? = firstBracket? r := by
      rw [firstBracket?, List.find?_eq_head?_dropWhile_not isBracket r]
    simp [opensTag, decider?, closed, hfind]

theorem firstBracket?_of_opensTag {s : Text} (h : opensTag s = true) :
    firstBracket? s = some (CodePoint.ofChar ']') := by
  cases s with
  | nil => cases h
  | cons c r =>
    obtain ⟨hstart, hfirst⟩ := decider?_cons_eq_some_iff.1 (opensTag_iff.1 h)
    rw [firstBracket?, List.find?_cons_of_neg (by simp [isBracket_of_isTagStart hstart])]
    exact hfirst

/-- A tag opens after an even number of backslashes. -/
theorem tagAfter_iff {s before : Text} :
    TagAfter s before ↔ ∃ after, s = before ++ CodePoint.ofChar '[' :: after ∧
      opensTag after = true ∧ endBackslashes 0 before % 2 = 0 := by
  simp [TagAfter, Unescaped, opensTag_iff]

variable {s t rest before : Text} {decider : Option (Option CodePoint)} {pending : Nat}

theorem endBackslashes_append (pending : Nat) (s t : Text) :
    endBackslashes pending (s ++ t) = endBackslashes (endBackslashes pending s) t := by
  induction s generalizing pending with
  | nil => rfl
  | cons c s ih => exact ih _

theorem firstBracket?_append (s t : Text) :
    firstBracket? (s ++ t) = (firstBracket? s).or (firstBracket? t) :=
  List.find?_append

/-- Unless it is that of a tag itself, a text after another only makes a tag by closing one. -/
theorem decider?_append_eq_closed_iff (ht : decider? t ≠ closed) :
    decider? (s ++ t) = closed ↔
      decider? s = closed ∨
        decider? s = leftOpen ∧ firstBracket? t = some (CodePoint.ofChar ']') := by
  cases s with
  | nil => simpa [decider?, closed, leftOpen] using ht
  | cons c s =>
    rw [List.cons_append, decider?, decider?, firstBracket?_append]
    cases isTagStart c <;> cases firstBracket? s <;> simp [closed, leftOpen]

theorem unescaped_append :
    Unescaped decider pending (s ++ t) rest before ↔
      Unescaped decider pending s (t ++ rest) before ∨
      ∃ inner, before = s ++ inner ∧
        Unescaped decider (endBackslashes pending s) t rest inner := by
  constructor
  · rintro ⟨after, hs, hdecider, heven⟩
    rcases List.append_eq_append_iff.1 hs with ⟨inner, rfl, ht⟩ | ⟨tail, rfl, htail⟩
    · rw [endBackslashes_append] at heven
      exact .inr ⟨inner, rfl, after, ht, hdecider, heven⟩
    · cases tail with
      | nil =>
        rw [List.nil_append] at htail
        refine .inr ⟨[], by simp, after, htail.symm, hdecider, ?_⟩
        simpa [endBackslashes] using heven
      | cons c tail =>
        obtain ⟨rfl, rfl⟩ := List.cons.inj htail
        exact .inl ⟨tail, rfl, by rwa [← List.append_assoc], heven⟩
  · rintro (⟨after, rfl, hdecider, heven⟩ | ⟨inner, rfl, after, rfl, hdecider, heven⟩)
    · exact ⟨after ++ t, by simp, by rwa [List.append_assoc], heven⟩
    · exact ⟨after, by simp, hdecider, by rwa [endBackslashes_append]⟩

theorem not_unescaped_of_not_mem (h : CodePoint.ofChar '[' ∉ s) :
    ¬ Unescaped decider pending s rest before := by
  rintro ⟨after, rfl, -⟩
  simp at h

theorem unescaped_cons {c : CodePoint} {r : Text} :
    Unescaped decider pending (c :: r) rest before ↔
      (before = [] ∧ c = '[' ∧ decider? (r ++ rest) = decider ∧ pending % 2 = 0) ∨
      ∃ inner, before = c :: inner ∧
        Unescaped decider (if c = '\\' then pending + 1 else 0) r rest inner := by
  constructor
  · rintro ⟨after, hs, hdecider, heven⟩
    cases before with
    | nil =>
      obtain ⟨rfl, rfl⟩ := List.cons.inj hs
      exact .inl ⟨rfl, rfl, hdecider, heven⟩
    | cons d before =>
      obtain ⟨rfl, rfl⟩ := List.cons.inj hs
      exact .inr ⟨before, rfl, after, rfl, hdecider, heven⟩
  · rintro (⟨rfl, rfl, hdecider, heven⟩ | ⟨inner, rfl, after, rfl, hdecider, heven⟩)
    · exact ⟨r, rfl, hdecider, heven⟩
    · exact ⟨after, rfl, hdecider, heven⟩

theorem exists_unescaped_cons {c : CodePoint} {r : Text} :
    (∃ before, Unescaped decider pending (c :: r) rest before) ↔
      (c = '[' ∧ decider? (r ++ rest) = decider ∧ pending % 2 = 0) ∨
      ∃ before, Unescaped decider (if c = '\\' then pending + 1 else 0) r rest before := by
  simp only [unescaped_cons]
  grind

/-- The text of a tag opens one at its beginning only, unless it is escaped. -/
theorem unescaped_tag_iff {r : Text} (h : CodePoint.ofChar '[' ∉ r)
    (hdecider : decider? (r ++ rest) = decider) :
    Unescaped decider pending (CodePoint.ofChar '[' :: r) rest before ↔
      before = [] ∧ pending % 2 = 0 := by
  simp [unescaped_cons, not_unescaped_of_not_mem h, hdecider]

/-- A bracket before another text is that of a tag if it is so by itself or left open and closed by
the other. -/
theorem unescaped_closed_iff (h : decider? rest ≠ closed) :
    Unescaped closed pending s rest before ↔
      Unescaped closed pending s [] before ∨
      Unescaped leftOpen pending s [] before ∧
        firstBracket? rest = some (CodePoint.ofChar ']') := by
  simp only [Unescaped, decider?_append_eq_closed_iff h, List.append_nil]
  grind

/-! ### Tags -/

/-- The tags of a text after `pending` backslashes. -/
def tagsFrom (pending : Nat) (s : Text) : List Text :=
  (piecesFrom pending none s).filterMap Piece.tag?

@[simp] theorem Piece.tag?_shown (c : CodePoint) : (Piece.shown c).tag? = none := rfl

@[simp] theorem Piece.tag?_tag (name : Text) : (Piece.tag name).tag? = some name := rfl

@[simp] theorem filterMap_tag?_shown (s : Text) :
    (s.map Piece.shown).filterMap Piece.tag? = [] := by
  rw [List.filterMap_map]
  exact List.filterMap_eq_nil_iff.2 fun _ _ => rfl

@[simp] theorem tagsFrom_nil (pending : Nat) : tagsFrom pending [] = [] := by
  rw [tagsFrom, piecesFrom, filterMap_tag?_shown]

/-- A character that opens no tag is passed. -/
theorem tagsFrom_cons_of_not {c : CodePoint} {r : Text} (h : ¬ (c = '[' ∧ opensTag r = true))
    (pending : Nat) :
    tagsFrom pending (c :: r) = tagsFrom (if c = '\\' then pending + 1 else 0) r := by
  rw [tagsFrom, piecesFrom]
  split
  · rfl
  · next =>
    rw [if_neg (by simpa using h)]
    simp only [tagsFrom, List.filterMap_append, filterMap_tag?_shown, List.nil_append]
    rfl

/-- No tag opens within another, so what is read of the rest of a tag is read as if outside. -/
theorem filterMap_tag?_within {r : Text} (h : firstBracket? r = some (CodePoint.ofChar ']'))
    (name : Text) (pending : Nat) :
    (piecesFrom 0 (some name) r).filterMap Piece.tag? =
      (name.reverse ++ r.takeWhile fun c => !isBracket c) :: tagsFrom pending r := by
  induction r generalizing name pending with
  | nil => cases h
  | cons c r ih =>
    rw [firstBracket?, List.find?_cons] at h
    cases hc : isBracket c with
    | true =>
      rw [hc] at h
      obtain rfl := Option.some.inj h
      rw [tagsFrom_cons_of_not (fun h => absurd h.1 (by decide)) pending, piecesFrom, if_pos rfl,
        List.takeWhile_cons_of_neg (by simp [hc]), List.append_nil]
      rfl
    | false =>
      rw [hc] at h
      have hclose : c ≠ CodePoint.ofChar ']' := by rintro rfl; cases hc
      have hopen : c ≠ CodePoint.ofChar '[' := by rintro rfl; cases hc
      rw [piecesFrom, if_neg hclose, tagsFrom_cons_of_not (fun h => hopen h.1) pending,
        ih h (c :: name), List.takeWhile_cons_of_pos (by simp [hc]), List.reverse_cons,
        List.append_assoc]
      rfl

theorem tagsFrom_cons (pending : Nat) (c : CodePoint) (r : Text) :
    tagsFrom pending (c :: r) =
      (if c = '[' ∧ opensTag r = true ∧ pending % 2 = 0
        then [r.takeWhile fun c => !isBracket c] else []) ++
      tagsFrom (if c = '\\' then pending + 1 else 0) r := by
  by_cases hc : c = '[' ∧ opensTag r = true
  · obtain ⟨rfl, hopens⟩ := hc
    have hfirst : firstBracket? r = some (CodePoint.ofChar ']') := firstBracket?_of_opensTag hopens
    rw [tagsFrom, piecesFrom, if_neg (by decide), if_pos (by simp [hopens])]
    by_cases heven : pending % 2 = 0
    · rw [if_pos heven, if_pos ⟨rfl, hopens, heven⟩, List.filterMap_append, filterMap_tag?_shown,
        filterMap_tag?_within hfirst [] 0]
      rfl
    · rw [if_neg heven, if_neg (fun h => heven h.2.2), List.filterMap_append, filterMap_tag?_shown]
      rfl
  · rw [tagsFrom_cons_of_not hc, if_neg fun h : _ ∧ _ => hc ⟨h.1, h.2.1⟩, List.nil_append]

theorem tags_eq_tagsFrom (s : Text) : tags s = tagsFrom 0 s := rfl

/-- A tag that is not escaped is read up to the next bracket. -/
theorem tagsFrom_of_opensTag {r : Text} (heven : pending % 2 = 0) (h : opensTag r = true) :
    tagsFrom pending (CodePoint.ofChar '[' :: r) =
      (r.takeWhile fun c => !isBracket c) :: tagsFrom 0 r := by
  rw [tagsFrom_cons, if_pos ⟨rfl, h, heven⟩]
  rfl

/-- A text in which no tag opens is passed. -/
theorem tagsFrom_append (h : ∀ before, ¬ Unescaped closed pending s t before) :
    tagsFrom pending (s ++ t) = tagsFrom (endBackslashes pending s) t := by
  induction s generalizing pending with
  | nil => rfl
  | cons c s ih =>
    rw [← not_exists, exists_unescaped_cons, not_or, not_exists, ← opensTag_iff] at h
    rw [List.cons_append, tagsFrom_cons, if_neg h.1, List.nil_append, ih h.2, endBackslashes]

theorem tagsFrom_eq_nil_iff :
    tagsFrom pending s = [] ↔ ∀ before, ¬ Unescaped closed pending s [] before := by
  induction s generalizing pending with
  | nil => simp [not_unescaped_of_not_mem]
  | cons c s ih =>
    rw [tagsFrom_cons, ← not_exists, exists_unescaped_cons, List.append_nil, ← opensTag_iff,
      List.append_eq_nil_iff, ih, not_or, not_exists]
    simp

/-- **A text has no tags if none opens anywhere.** -/
theorem tags_eq_nil_iff : tags s = [] ↔ ∀ before, ¬ TagAfter s before :=
  tagsFrom_eq_nil_iff

theorem tags_of_not_mem (h : CodePoint.ofChar '[' ∉ s) : tags s = [] :=
  tags_eq_nil_iff.2 fun _ => not_unescaped_of_not_mem h

/-! ### Escaped texts -/

theorem endBackslashes_backslashes (pending n : Nat) :
    endBackslashes pending (backslashes n) = pending + n := by
  induction n generalizing pending with
  | zero => rfl
  | succ n ih =>
    rw [backslashes, List.replicate_succ, endBackslashes, if_pos rfl]
    exact (ih _).trans (by omega)

theorem not_mem_backslashes {c : CodePoint} (h : c ≠ '\\') (n : Nat) : c ∉ backslashes n :=
  fun hc => h (List.eq_of_mem_replicate hc)

theorem firstBracket?_backslashes_append (n : Nat) (s : Text) :
    firstBracket? (backslashes n ++ s) = firstBracket? s := by
  have hnone : firstBracket? (backslashes n) = none := by
    refine List.find?_eq_none.2 fun c hc => ?_
    rw [List.eq_of_mem_replicate hc]
    decide
  rw [firstBracket?_append, hnone, Option.none_or]

theorem exists_unescaped_backslashes_append (n : Nat) :
    (∃ before, Unescaped decider pending (backslashes n ++ s) rest before) ↔
      ∃ before, Unescaped decider (pending + n) s rest before := by
  simp only [unescaped_append, endBackslashes_backslashes,
    not_unescaped_of_not_mem (not_mem_backslashes (c := '[') (by decide) n), false_or]
  grind

/-- Any character but a backslash is kept, after the backslashes in front of it. -/
theorem escapeTags_cons {c : CodePoint} (hc : c ≠ '\\') (pending : Nat) (r : Text) :
    escapeTags pending (c :: r) =
      backslashes (if c = '[' ∧ opensTag r = true then 2 * pending + 1 else pending) ++
        c :: escapeTags 0 r := by
  rw [escapeTags, if_neg hc]
  by_cases h : c = '[' ∧ opensTag r = true
  · rw [if_pos h, if_pos (by simpa using h)]
  · rw [if_neg h, if_neg (by simpa using h)]

@[simp] theorem escapeTags_backslash (pending : Nat) (r : Text) :
    escapeTags pending (CodePoint.ofChar '\\' :: r) = escapeTags (pending + 1) r :=
  if_pos rfl

/-- Escaping keeps the brackets. -/
theorem firstBracket?_escapeTags (pending : Nat) (s : Text) :
    firstBracket? (escapeTags pending s) = firstBracket? s := by
  induction s generalizing pending with
  | nil => simpa [escapeTags] using firstBracket?_backslashes_append pending []
  | cons c s ih =>
    by_cases hc : c = '\\'
    · subst hc
      rw [escapeTags_backslash, ih]
      rfl
    · rw [escapeTags_cons hc, firstBracket?_backslashes_append]
      have hs := ih 0
      rw [firstBracket?, firstBracket?] at hs ⊢
      rw [List.find?_cons, List.find?_cons, hs]

/-- What is escaped after a backslash begins with one. -/
theorem decider?_escapeTags_succ (pending : Nat) (s : Text) :
    decider? (escapeTags (pending + 1) s) = none := by
  induction s generalizing pending with
  | nil => rfl
  | cons c s ih =>
    by_cases hc : c = '\\'
    · subst hc
      exact ih (pending + 1)
    · rw [escapeTags_cons hc]
      split <;> rfl

/-- Escaping keeps what decides on a bracket in front of a text. -/
theorem decider?_escapeTags (s : Text) : decider? (escapeTags 0 s) = decider? s := by
  cases s with
  | nil => rfl
  | cons c s =>
    by_cases hc : c = '\\'
    · subst hc
      exact decider?_escapeTags_succ 0 s
    · rw [escapeTags_cons hc]
      by_cases h : c = '[' ∧ opensTag s = true
      · obtain ⟨rfl, h⟩ := h
        rw [if_pos ⟨rfl, h⟩]
        rfl
      · rw [if_neg h, backslashes, List.replicate_zero, List.nil_append, decider?, decider?,
          firstBracket?_escapeTags]

/-- Escaping escapes the brackets that open tags, and leaves the others alone. -/
theorem exists_unescaped_escapeTags :
    (∃ before, Unescaped decider 0 (escapeTags pending s) [] before) ↔
      decider ≠ closed ∧ ∃ before, Unescaped decider pending s [] before := by
  induction s generalizing pending with
  | nil =>
    have hnone : ∀ before, ¬ Unescaped decider 0 (escapeTags pending []) [] before :=
      fun _ => not_unescaped_of_not_mem (not_mem_backslashes (by decide) pending)
    simp [hnone, not_unescaped_of_not_mem]
  | cons c s ih =>
    by_cases hc : c = '\\'
    · subst hc
      rw [escapeTags_backslash, ih, exists_unescaped_cons, if_pos rfl]
      simp
    · rw [escapeTags_cons hc, exists_unescaped_backslashes_append, exists_unescaped_cons,
        exists_unescaped_cons, if_neg hc, ih, List.append_nil, List.append_nil, decider?_escapeTags,
        Nat.zero_add]
      have hopens := opensTag_iff (s := s)
      split <;> grind

theorem endBackslashes_escapeTags (pending : Nat) (s : Text) :
    endBackslashes 0 (escapeTags pending s) = endBackslashes pending s := by
  induction s generalizing pending with
  | nil => exact (endBackslashes_backslashes 0 pending).trans (Nat.zero_add pending)
  | cons c s ih =>
    by_cases hc : c = '\\'
    · subst hc
      exact ih (pending + 1)
    · rw [escapeTags_cons hc, endBackslashes_append, endBackslashes, endBackslashes, if_neg hc,
        if_neg hc, ih]

theorem endBackslashes_concat (pending : Nat) (s : Text) (c : CodePoint) :
    endBackslashes pending (s ++ [c]) = if c = '\\' then endBackslashes pending s + 1 else 0 := by
  rw [endBackslashes_append]
  rfl

theorem endsInBackslash_iff : endsInBackslash s = true ↔ endBackslashes 0 s = 1 := by
  rcases List.eq_nil_or_concat s with rfl | ⟨s, c, rfl⟩
  · simp [endsInBackslash, endBackslashes]
  · rcases List.eq_nil_or_concat s with rfl | ⟨s, d, rfl⟩
    · simp [endsInBackslash, endBackslashes]
    · rw [List.concat_eq_append, List.concat_eq_append, endBackslashes_concat,
        endBackslashes_concat]
      simp only [endsInBackslash, List.reverse_append, List.reverse_singleton,
        List.singleton_append]
      grind

theorem decider?_concat_backslash (s : Text) :
    decider? (s ++ [CodePoint.ofChar '\\']) = decider? s := by
  cases s with
  | nil => rfl
  | cons c s =>
    rw [List.cons_append, decider?, decider?, firstBracket?_append]
    exact congrArg (fun first => if isTagStart c = true then some first else none) Option.or_none

/-- An escaped text has the brackets of the text that are not escaped, but for those of tags. -/
theorem exists_unescaped_escape :
    (∃ before, Unescaped decider 0 (escape s) [] before) ↔
      decider ≠ closed ∧ ∃ before, Unescaped decider 0 s [] before := by
  rw [← exists_unescaped_escapeTags, escape]
  split
  · have hlast : ∀ pending before, ¬ Unescaped decider pending [CodePoint.ofChar '\\'] [] before :=
      fun _ _ => not_unescaped_of_not_mem (by decide)
    have hsame : ∀ t before, Unescaped decider 0 t [CodePoint.ofChar '\\'] before ↔
        Unescaped decider 0 t [] before := by
      simp [Unescaped, decider?_concat_backslash]
    change (∃ before, Unescaped decider 0 (_ ++ [CodePoint.ofChar '\\']) [] before) ↔ _
    simp only [unescaped_append, hlast, and_false, exists_false, or_false]
    exact exists_congr fun before => hsame _ before
  · rfl

/-- **An escaped text has no tags.** -/
theorem not_tagAfter_escape (s before : Text) : ¬ TagAfter (escape s) before :=
  fun h => (exists_unescaped_escape.1 ⟨before, h⟩).1 rfl

theorem tags_escape (s : Text) : tags (escape s) = [] :=
  tags_eq_nil_iff.2 (not_tagAfter_escape s)

theorem leftOpen_escape_iff : LeftOpen (escape s) ↔ LeftOpen s := by
  simp [LeftOpen, exists_unescaped_escape, leftOpen, closed]

/-- A single backslash at the end is doubled by escaping. -/
theorem endBackslashes_escape (s : Text) :
    endBackslashes 0 (escape s) = if endBackslashes 0 s = 1 then 2 else endBackslashes 0 s := by
  have h := endBackslashes_escapeTags 0 s
  rw [escape]
  split
  · next hlast =>
    have hone := endsInBackslash_iff.1 hlast
    change endBackslashes 0 (escapeTags 0 s ++ [CodePoint.ofChar '\\']) = _
    rw [endBackslashes_concat, if_pos rfl, hone, ← h, if_pos hone]
  · next hlast =>
    rw [h, if_neg (fun hone => hlast (endsInBackslash_iff.2 (h.trans hone)))]

/-! ### Closing -/

/-- Whether each closing tag closes one of the tags that are open, given their names, innermost
first: the innermost of its name, or the innermost of all if it names none.  Names are compared in a
normal form. -/
def closes (normal : Text → Text) : (opened : List Text) → (tags : List Text) → Bool
  | _, [] => true
  | opened, tag :: rest =>
    match Text.dropStart? "/" tag with
    | none => closes normal (normal tag :: opened) rest
    | some name =>
      match if normal name = [] then opened.head? else opened.find? (· = normal name) with
      | none => false
      | some innermost => closes normal (opened.erase innermost) rest

end Markup
end AnchorIdl
