/-
# Lists of octets in JSON

A list of octets is written with their decimal numerals between brackets,
`[8, 0, 255]`, and that is JSON: the reader of documents finds in it the numbers
of the octets, one for one (`ofText_ofOctetsList`).

The scanners return the rest of the text with a proof about its length.
`Scans s v r` and `ScansItems s vs r` leave that proof out, and there is one
lemma for each way in which a list goes on: a numeral is an item, an item
is followed by a comma and more items or by the closing bracket, and items stand
between brackets.
-/

import AnchorIdl.Command.Inspect
import AnchorIdl.Json.Reader
import AnchorIdl.Proofs.Text.Numeral

namespace AnchorIdl
namespace Json

/-- A value stands at the head of a text, and the rest follows it. -/
def Scans (s : Text) (v : Json) (r : Text) : Prop := ∃ h, scanValue s = .ok (v, ⟨r, h⟩)

/-- Some items stand at the head of a text up to the closing bracket, and the rest follows that. -/
def ScansItems (s : Text) (vs : List Json) (r : Text) : Prop :=
  ∃ h, scanItems s = .ok (vs, ⟨r, h⟩)

/-- What follows an item of a list: a comma or the closing bracket. -/
inductive AfterItem : Text → Prop
  | comma (r : Text) : AfterItem (CodePoint.ofChar ',' :: r)
  | close (r : Text) : AfterItem (CodePoint.ofChar ']' :: r)

variable {r : Text}

theorem AfterItem.takeWhile_isDigit (h : AfterItem r) : r.takeWhile CodePoint.isDigit = [] := by
  cases h <;> rfl

theorem AfterItem.dropWhile_isDigit (h : AfterItem r) : r.dropWhile CodePoint.isDigit = r := by
  cases h <;> rfl

/-! ### Numerals -/

theorem wholeDigits?_ofNat (n : Nat) (h : AfterItem r) :
    ∃ hr, wholeDigits? (Text.ofNat n ++ r) = some (Text.ofNat n, ⟨r, hr⟩) := by
  obtain ⟨c, ds, hds⟩ := List.exists_cons_of_ne_nil (Text.ofNat_ne_nil n)
  have hdigit : ∀ d ∈ c :: ds, d.isDigit = true := fun d hd =>
    Text.isDigit_of_mem_ofNat (hds ▸ hd)
  have htail : ∀ d ∈ ds, d.isDigit = true := fun d hd => hdigit d (List.mem_cons_of_mem c hd)
  rw [hds]
  refine ⟨by simp only [List.length_append, List.length_cons]; omega, ?_⟩
  by_cases hzero : c = CodePoint.ofChar '0'
  · subst hzero
    obtain rfl := Text.tail_eq_nil_of_ofNat hds
    simp [wholeDigits?]
  · have htake : (ds ++ r).takeWhile CodePoint.isDigit = ds := by
      rw [List.takeWhile_append_of_pos htail, h.takeWhile_isDigit, List.append_nil]
    have hdrop : (ds ++ r).dropWhile CodePoint.isDigit = r := by
      rw [List.dropWhile_append_of_pos htail, h.dropWhile_isDigit]
    simp [wholeDigits?, hzero, hdigit c, digits, Text.skipWhile, htake, hdrop]

theorem scanDigits?_ofNat {n : Nat} (hn : Text.isShort n = true) (h : AfterItem r) :
    ∃ hr, scanDigits? false (Text.ofNat n ++ r) = .ok (some (.int n, ⟨r, hr⟩)) := by
  obtain ⟨hr, hwhole⟩ := wholeDigits?_ofNat n h
  refine ⟨hr, ?_⟩
  have hvalue : Int.ofNat (Text.digitsValue (Text.ofNat n)) = n := by
    rw [Text.digitsValue_ofNat, Int.ofNat_eq_natCast]
  rw [scanDigits?, hwhole, ← hvalue]
  cases h <;> exact (if_pos ⟨rfl, rfl⟩).trans (if_neg (Nat.not_lt.2 (of_decide_eq_true hn)))

theorem ne_of_isDigit {c : CodePoint} (h : c.isDigit = true) {x : Char}
    (hx : (CodePoint.ofChar x).isDigit = false) : c ≠ x := by
  rintro rfl
  rw [hx] at h
  cases h

theorem findSome?_scanWord?_of_isDigit {c : CodePoint} (h : c.isDigit = true) (q : Text) :
    words.findSome? (scanWord? (c :: q)) = none := by
  rw [List.findSome?_eq_none_iff]
  intro word hword
  have hne : (CodePoint.ofChar word.1).isDigit = false := by
    revert word
    decide
  exact if_pos (ne_of_isDigit h hne)

theorem scans_ofNat {n : Nat} (hn : Text.isShort n = true) (h : AfterItem r) :
    Scans (Text.ofNat n ++ r) (.int n) r := by
  obtain ⟨hr, hscan⟩ := scanDigits?_ofNat hn h
  refine ⟨hr, ?_⟩
  obtain ⟨c, ds, hds⟩ := List.exists_cons_of_ne_nil (Text.ofNat_ne_nil n)
  have hc : c.isDigit = true := Text.isDigit_of_mem_ofNat (hds ▸ List.mem_cons_self)
  generalize hs : Text.ofNat n ++ r = s at hr hscan
  rw [hds, List.cons_append] at hs
  subst hs
  rw [scanValue, if_neg (ne_of_isDigit hc (by decide)), if_neg (ne_of_isDigit hc (by decide)),
    if_neg (ne_of_isDigit hc (by decide)), scanAtom, findSome?_scanWord?_of_isDigit hc, scanNumber?,
    if_neg (ne_of_isDigit hc (by decide)), hscan]
  rfl

/-! ### Items and lists -/

variable {s q : Text} {v : Json} {vs : List Json}

theorem skipBlanks_cons {c : CodePoint} (h : isBlankChar c = false) (q : Text) :
    skipBlanks (c :: q) = .all (c :: q) :=
  Subtype.ext (List.dropWhile_cons_of_neg (by simp [h]))

theorem Scans.last (h : Scans s v (CodePoint.ofChar ']' :: r)) : ScansItems s [v] r := by
  obtain ⟨hlt, hscan⟩ := h
  refine ⟨by simp at hlt; omega, ?_⟩
  rw [scanItems, hscan]
  rfl

theorem Scans.item (h : Scans s v (CodePoint.ofChar ',' :: q))
    (hrest : ScansItems (skipBlanks q).val vs r) : ScansItems s (v :: vs) r := by
  obtain ⟨hlt, hscan⟩ := h
  obtain ⟨hlt', hscans⟩ := hrest
  have hle := (skipBlanks q).property
  refine ⟨by simp at hlt; omega, ?_⟩
  have hcomma : skipBlanks (CodePoint.ofChar ',' :: q) = .all (CodePoint.ofChar ',' :: q) :=
    skipBlanks_cons (by decide) q
  have hne : CodePoint.ofChar ',' ≠ CodePoint.ofChar ']' := by decide
  rw [scanItems, hscan]
  simp only [bind, Except.bind, hcomma, Text.Tail.all, hne, if_false, ne_eq, not_true, hscans]
  rfl

/-- Items between brackets are a list. -/
theorem ScansItems.list {c : CodePoint} {q : Text} (h : ScansItems (c :: q) vs r)
    (hblank : isBlankChar c = false) (hc : c ≠ CodePoint.ofChar ']') :
    Scans (CodePoint.ofChar '[' :: c :: q) (.arr vs) r := by
  obtain ⟨hlt, hscans⟩ := h
  refine ⟨by simp at hlt ⊢; omega, ?_⟩
  have hne : CodePoint.ofChar '[' ≠ CodePoint.ofChar '"' := by decide
  simp only [scanValue, hne, if_false, if_true, skipBlanks_cons hblank, Text.Tail.all, hc, hscans]
  rfl

theorem scans_nil (r : Text) :
    Scans (CodePoint.ofChar '[' :: CodePoint.ofChar ']' :: r) (.arr []) r := by
  refine ⟨by simp only [List.length_cons]; omega, ?_⟩
  have hne : CodePoint.ofChar '[' ≠ CodePoint.ofChar '"' := by decide
  have hclose : skipBlanks (CodePoint.ofChar ']' :: r) = .all _ := skipBlanks_cons (by decide) r
  simp [scanValue, hne, hclose, Text.Tail.all]

/-- A document is a list that is scanned, with blanks after it. -/
theorem Scans.ofText (h : Scans (CodePoint.ofChar '[' :: q) v r)
    (hrest : (skipBlanks r).val = []) : ofText (CodePoint.ofChar '[' :: q) = .ok v := by
  obtain ⟨hlt, hscan⟩ := h
  have hdocument : scanDocument (CodePoint.ofChar '[' :: q) = .ok v := by
    change (scanValue (CodePoint.ofChar '[' :: q) >>= _) = _
    simp only [hscan, bind, Except.bind, hrest]
    rfl
  have hmark : (CodePoint.ofChar '[' :: q).head? ≠ some ⟨0xFEFF, by decide⟩ := by
    rw [List.head?_cons]
    decide
  rw [Json.ofText, if_neg hmark, ofDecoded, hdocument]
  rfl

/-! ### Lists of numerals -/

/-- A joined list of numerals begins with a digit. -/
theorem exists_cons_join_ofNat (n : Nat) (ns : List Nat) (rest : Text) :
    ∃ c q, Text.join ", " ((n :: ns).map Text.ofNat) ++ rest = c :: q ∧ c.isDigit = true := by
  obtain ⟨c, ds, hds⟩ := List.exists_cons_of_ne_nil (Text.ofNat_ne_nil n)
  have hc : c.isDigit = true := Text.isDigit_of_mem_ofNat (hds ▸ List.mem_cons_self)
  cases ns with
  | nil => exact ⟨c, _, by rw [List.map_singleton, Text.join, hds, List.cons_append], hc⟩
  | cons m ns =>
    exact ⟨c, _, by simp only [List.map_cons, Text.join, hds, List.cons_append]; rfl, hc⟩

theorem isBlankChar_of_isDigit {c : CodePoint} (h : c.isDigit = true) : isBlankChar c = false := by
  simp only [CodePoint.isDigit, Bool.and_eq_true, decide_eq_true_eq] at h
  simp only [isBlankChar, Bool.or_eq_false_iff, beq_eq_false_iff_ne]
  omega

theorem scansItems_join {n : Nat} {ns : List Nat} (h : ∀ m ∈ n :: ns, Text.isShort m = true)
    (r : Text) :
    ScansItems (Text.join ", " ((n :: ns).map Text.ofNat) ++ CodePoint.ofChar ']' :: r)
      ((n :: ns).map fun m => .int (Int.ofNat m)) r := by
  induction ns generalizing n with
  | nil => exact (scans_ofNat (h n List.mem_cons_self) (.close r)).last
  | cons m ns ih =>
    have hrest := ih fun k hk => h k (List.mem_cons_of_mem n hk)
    obtain ⟨c, q, hq, hc⟩ := exists_cons_join_ofNat m ns (CodePoint.ofChar ']' :: r)
    have hskip : (skipBlanks (CodePoint.ofChar ' ' :: c :: q)).val = c :: q := by
      have hspace : isBlankChar (CodePoint.ofChar ' ') = true := by decide
      simp [skipBlanks, Text.skipWhile, hspace, isBlankChar_of_isDigit hc]
    rw [hq, ← hskip] at hrest
    have hitem := (scans_ofNat (h n List.mem_cons_self) (.comma _)).item hrest
    have htext : Text.join ", " ((n :: m :: ns).map Text.ofNat) ++ CodePoint.ofChar ']' :: r =
        Text.ofNat n ++ CodePoint.ofChar ',' :: CodePoint.ofChar ' ' :: c :: q := by
      rw [← hq]
      simp [Text.join, Text.ofString]
    rw [htext]
    exact hitem

/-- **A list of octets is read back as the list of their numbers,** blanks after it or not. -/
theorem ofText_ofOctetsList (octets : Bytes) {blanks : Text}
    (h : ∀ c ∈ blanks, isBlankChar c = true) :
    ofText (Text.ofOctetsList octets ++ blanks) = .ok (.ofBytes octets) := by
  have hblanks : blanks.dropWhile isBlankChar = [] := by
    rw [← List.append_nil blanks, List.dropWhile_append_of_pos h, List.dropWhile_nil]
  cases octets with
  | nil => exact (scans_nil blanks).ofText hblanks
  | cons b rest =>
    have hshort : ∀ m ∈ b.toNat :: rest.map UInt8.toNat, Text.isShort m = true := by
      rw [← List.map_cons, List.forall_mem_map]
      exact fun b _ => Text.isShort_byte b
    have hitems := scansItems_join hshort blanks
    obtain ⟨c, q, hq, hc⟩ := exists_cons_join_ofNat b.toNat (rest.map UInt8.toNat)
      (CodePoint.ofChar ']' :: blanks)
    rw [hq] at hitems
    have hlist := (hitems.list (isBlankChar_of_isDigit hc) (ne_of_isDigit hc (by decide))).ofText
      hblanks
    have htext : Text.ofOctetsList (b :: rest) ++ blanks = CodePoint.ofChar '[' :: c :: q := by
      rw [← hq]
      simp [Text.ofOctetsList, Text.ofString, Function.comp_def]
    rw [htext, hlist]
    simp [Json.ofBytes]

end Json
end AnchorIdl
