/-
# Scripts without layout

Squeezing a script takes all white space out of its code, and then every comma of
the code that stands right before a closing bracket.  Texts between quotes stay as
they are (`squeeze`).

The two passes come to one that looks past the white space that follows a comma
(`squeeze_eq`).  A piece of code is left as `u` if squeezing does so whatever
follows (`Leaves`), and then pieces in sequence are left in sequence.  Names,
numbers and literals are left as they are, whatever a literal holds.  A comma is
no such piece, as it depends on what follows; a `CodePart` begins with a character
before which a comma stays.

`Term.compact` writes a term without any layout.
-/

import AnchorIdl.Proofs.Script.Brackets

namespace AnchorIdl
namespace Script

/-! ### Squeezing -/

/-- The numbers of the white space characters. -/
def spaces : List Nat :=
  List.range' 0x09 5 ++ List.range' 0x1C 5 ++ [0x85, 0xA0, 0x1680] ++ List.range' 0x2000 11 ++
    [0x2028, 0x2029, 0x202F, 0x205F, 0x3000]

/-- Whether a character is white space. -/
def isSpace (c : CodePoint) : Bool := spaces.contains c.val

/-- Whether a character closes a bracket. -/
def isClosing (c : CodePoint) : Bool := c = ')' || c = ']' || c = '}'

/-- The region behind one more character. -/
def nextRegion (r : Region) (c : CodePoint) : Region := (scanStep (r, 0) c).1

/-- Delete the characters of code that are to be dropped before what follows them. -/
def deleteCode (drop : CodePoint → Text → Bool) : Region → Text → Text
  | _, [] => []
  | r, c :: rest =>
    if r = .code ∧ drop c rest then deleteCode drop (nextRegion r c) rest
    else c :: deleteCode drop (nextRegion r c) rest

/-- A script without the white space in its code. -/
def withoutSpaces (t : Text) : Text := deleteCode (fun c _ => isSpace c) .code t

/-- Whether a character is a comma right before a closing bracket. -/
def isLastComma (c : CodePoint) (rest : Text) : Bool := c = ',' && rest.head?.any isClosing

/-- A script without the commas of its code that stand right before a closing bracket. -/
def withoutLastCommas (t : Text) : Text := deleteCode isLastComma .code t

/-- A script without white space and without commas before closing brackets, except in texts. -/
def squeeze (t : Text) : Text := withoutLastCommas (withoutSpaces t)

/-! ### In one pass -/

/-- Whether a closing bracket comes next after white space. -/
def closes (rest : Text) : Bool := (rest.dropWhile isSpace).head?.any isClosing

/-- Whether a character of code is layout before what follows it. -/
def isLayout (c : CodePoint) (rest : Text) : Bool := isSpace c || (c = ',' && closes rest)

section Steps

variable {drop : CodePoint → Text → Bool} {r : Region} {c : CodePoint} {rest : Text}

theorem nextRegion_code (h : isQuote c = false) : nextRegion .code c = .code := by
  simp [nextRegion, scanStep, h]

theorem deleteCode_of_drop (h : drop c rest = true) :
    deleteCode drop .code (c :: rest) = deleteCode drop (nextRegion .code c) rest :=
  if_pos ⟨rfl, h⟩

theorem deleteCode_of_keep (h : drop c rest = false) :
    deleteCode drop .code (c :: rest) = c :: deleteCode drop (nextRegion .code c) rest :=
  if_neg (by simp [h])

theorem deleteCode_of_text (h : r ≠ .code) :
    deleteCode drop r (c :: rest) = c :: deleteCode drop (nextRegion r c) rest :=
  if_neg fun h' => h h'.1

theorem isQuote_of_isSpace (h : isSpace c = true) : isQuote c = false := by
  have hspaces : ∀ n ∈ spaces, ∀ hn : n < 0x110000, isQuote ⟨n, hn⟩ = false := by decide
  exact hspaces c.val (List.contains_iff_mem.1 h) c.val_lt

end Steps

theorem head?_withoutSpaces (t : Text) :
    (withoutSpaces t).head? = (t.dropWhile isSpace).head? := by
  unfold withoutSpaces
  induction t with
  | nil => rfl
  | cons c rest ih =>
    by_cases hspace : isSpace c = true
    · rw [deleteCode_of_drop hspace, nextRegion_code (isQuote_of_isSpace hspace), ih,
        List.dropWhile_cons_of_pos hspace]
    · rw [deleteCode_of_keep (Bool.eq_false_iff.2 hspace), List.dropWhile_cons_of_neg hspace]
      rfl

/-- **Squeezing takes one pass.** -/
theorem squeeze_eq (t : Text) : squeeze t = deleteCode isLayout .code t := by
  suffices h : ∀ r, deleteCode isLastComma r (deleteCode (fun c _ => isSpace c) r t) =
      deleteCode isLayout r t from h .code
  induction t with
  | nil => exact fun _ => rfl
  | cons c rest ih =>
    intro r
    by_cases hr : r = .code
    · subst hr
      by_cases hspace : isSpace c = true
      · have hlayout : isLayout c rest = true := by simp [isLayout, hspace]
        rw [deleteCode_of_drop hspace, deleteCode_of_drop hlayout,
          nextRegion_code (isQuote_of_isSpace hspace), ih]
      · -- The comma sees in the second pass what is left of the white space behind it.
        have hcomma : isLastComma c
            (deleteCode (fun c _ => isSpace c) (nextRegion .code c) rest) = isLayout c rest := by
          by_cases hc : c = CodePoint.ofChar ','
          · subst hc
            have hhead := head?_withoutSpaces rest
            rw [withoutSpaces] at hhead
            simp [isLastComma, isLayout, closes, nextRegion_code, isQuote, hspace, hhead]
          · simp [isLastComma, isLayout, hc, hspace]
        rw [deleteCode_of_keep (Bool.eq_false_iff.2 hspace), deleteCode, hcomma, deleteCode, ih]
    · rw [deleteCode_of_text hr, deleteCode_of_text hr, deleteCode_of_text hr, ih]

/-! ### Pieces -/

/-- Squeezing leaves `u` of a piece that begins and ends in a region, whatever follows it. -/
def Leaves (r : Region) (t u : Text) : Prop :=
  ∀ rest, deleteCode isLayout r (t ++ rest) = u ++ deleteCode isLayout r rest

section Pieces

variable {r : Region} {t u t' u' : Text} {c : CodePoint}

theorem Leaves.squeeze (h : Leaves .code t u) : squeeze t = u := by
  have hnil := h []
  rwa [List.append_nil, ← squeeze_eq, deleteCode, List.append_nil] at hnil

theorem Leaves.nil : Leaves r [] [] := fun _ => rfl

theorem Leaves.append (h : Leaves r t u) (h' : Leaves r t' u') :
    Leaves r (t ++ t') (u ++ u') := by
  intro rest
  rw [List.append_assoc, h, h', List.append_assoc]

theorem Leaves.flatMap {α : Type} {f : α → Text} {xs : List α}
    (h : ∀ x ∈ xs, Leaves r (f x) (f x)) : Leaves r (xs.flatMap f) (xs.flatMap f) := by
  induction xs with
  | nil => exact .nil
  | cons x xs ih =>
    rw [List.forall_mem_cons] at h
    exact h.1.append (ih h.2)

theorem Leaves.chars (h : ∀ c ∈ t, Leaves r [c] [c]) : Leaves r t t := by
  have hchars := Leaves.flatMap h
  rwa [List.flatMap_singleton'] at hchars

/-- White space goes. -/
theorem leaves_spaces (h : ∀ c ∈ t, isSpace c = true) : Leaves .code t [] := by
  intro rest
  induction t with
  | nil => rfl
  | cons c t ih =>
    rw [List.forall_mem_cons] at h
    have hlayout : isLayout c (t ++ rest) = true := by simp [isLayout, h.1]
    rw [List.cons_append, deleteCode_of_drop hlayout, nextRegion_code (isQuote_of_isSpace h.1),
      ih h.2]

/-- A character of code that is neither a quote nor a comma nor white space. -/
def isSolid (c : CodePoint) : Bool := !isQuote c && !isSpace c && c ≠ ','

theorem isSpace_of_isSolid (h : isSolid c = true) : isSpace c = false := by
  simp only [isSolid, Bool.and_eq_true, Bool.not_eq_true'] at h
  exact h.1.2

theorem leaves_solid (h : ∀ c ∈ t, isSolid c = true) : Leaves .code t t := by
  refine .chars fun c hc rest => ?_
  have hsolid := h c hc
  simp only [isSolid, Bool.and_eq_true, Bool.not_eq_true', decide_eq_true_eq] at hsolid
  have hlayout : isLayout c rest = false := by simp [isLayout, hsolid]
  rw [List.singleton_append, deleteCode_of_keep hlayout, nextRegion_code hsolid.1.1]
  rfl

/-! ### Texts -/

/-- A piece of a text without the quote and backslashes. -/
theorem leaves_quiet {quote : CodePoint} (h : ∀ c ∈ t, c ≠ quote ∧ c ≠ '\\') :
    Leaves (.text quote) t t := by
  refine .chars fun c hc rest => ?_
  have hnext : nextRegion (.text quote) c = .text quote := by
    simp [nextRegion, scanStep, h c hc]
  have hregion : Region.text quote ≠ .code := by simp
  rw [List.singleton_append, deleteCode_of_text hregion, hnext]
  rfl

/-- A backslash and the character that it takes with it. -/
theorem leaves_escaped {quote : CodePoint} (hq : isQuote quote = true) (c : CodePoint) :
    Leaves (.text quote) [CodePoint.ofChar '\\', c] [CodePoint.ofChar '\\', c] := by
  intro rest
  have hne : CodePoint.ofChar '\\' ≠ quote := by
    rintro rfl
    exact absurd hq (by decide)
  simp [deleteCode, nextRegion, scanStep, hne]

theorem leaves_quoted {quote : CodePoint} (hq : isQuote quote = true)
    (h : Leaves (.text quote) t t) :
    Leaves .code (quote :: t ++ [quote]) (quote :: t ++ [quote]) := by
  intro rest
  have hstart : ∀ more, isLayout quote more = false := by
    rcases Bool.or_eq_true_iff.1 hq with hq | hq
    · obtain rfl := of_decide_eq_true hq
      exact fun _ => rfl
    · obtain rfl := of_decide_eq_true hq
      exact fun _ => rfl
  have hopen : nextRegion .code quote = .text quote := by simp [nextRegion, scanStep, hq]
  have hclose : nextRegion (.text quote) quote = .code := by simp [nextRegion, scanStep]
  have hregion : Region.text quote ≠ .code := by simp
  rw [List.append_assoc, List.cons_append, deleteCode_of_keep (hstart _), hopen, h,
    List.singleton_append, deleteCode_of_text hregion, hclose]
  simp

theorem leaves_within {quote : CodePoint} (hq : isQuote quote = true) (t : Text) :
    Leaves .code (Quoted.within quote t) (Quoted.within quote t) := by
  refine leaves_quoted hq (.flatMap fun c _ => ?_)
  exact escape_closure hq (fun _ _ ht hu => ht.append hu) (fun _ ht => leaves_quiet ht)
    (leaves_escaped hq) c

end Pieces

/-! ### Parts -/

/-- A part of a script: a comma before it stays, and squeezing leaves `u` of it. -/
structure CodePart (t u : Text) : Prop where
  begins : ∀ rest, closes (t ++ rest) = false
  leaves : Leaves .code t u

section Parts

variable {t u t' u' : Text} {c : CodePoint}

theorem closes_cons (hc : isSpace c = false) (rest : Text) : closes (c :: rest) = isClosing c := by
  rw [closes, List.dropWhile_cons_of_neg (by simp [hc])]
  rfl

theorem closes_append (ht : ∀ c ∈ t, isSpace c = true) (rest : Text) :
    closes (t ++ rest) = closes rest := by
  rw [closes, List.dropWhile_append_of_pos ht, closes]

theorem CodePart.of_cons (hspace : isSpace c = false) (hclosing : isClosing c = false)
    (h : Leaves .code (c :: t) u) : CodePart (c :: t) u where
  begins rest := by rw [List.cons_append, closes_cons hspace, hclosing]
  leaves := h

/-- A part may go on with any piece. -/
theorem CodePart.append (h : CodePart t u) (h' : Leaves .code t' u') :
    CodePart (t ++ t') (u ++ u') where
  begins rest := by
    rw [List.append_assoc]
    exact h.begins (t' ++ rest)
  leaves := h.leaves.append h'

/-- A comma before a part stays. -/
theorem CodePart.after_comma {blanks : Text} (h : CodePart t u)
    (hb : ∀ c ∈ blanks, isSpace c = true) :
    Leaves .code (CodePoint.ofChar ',' :: blanks ++ t) (CodePoint.ofChar ',' :: u) := by
  intro rest
  have hlayout : isLayout (CodePoint.ofChar ',') (blanks ++ (t ++ rest)) = false := by
    have hspace : isSpace (CodePoint.ofChar ',') = false := by decide
    simp [isLayout, hspace, closes_append hb, h.begins]
  rw [List.cons_append, List.cons_append, List.append_assoc, deleteCode_of_keep hlayout,
    nextRegion_code (by decide), leaves_spaces hb, h.leaves]
  rfl

/-- A comma before a closing bracket goes. -/
theorem leaves_last_comma {blanks : Text} {stop : CodePoint} (hb : ∀ c ∈ blanks, isSpace c = true)
    (hsolid : isSolid stop = true) (hclosing : isClosing stop = true) :
    Leaves .code (CodePoint.ofChar ',' :: blanks ++ [stop]) [stop] := by
  intro rest
  have hlayout : isLayout (CodePoint.ofChar ',') (blanks ++ ([stop] ++ rest)) = true := by
    simp [isLayout, closes_append hb, closes_cons (isSpace_of_isSolid hsolid), hclosing]
  rw [List.cons_append, List.cons_append, List.append_assoc, deleteCode_of_drop hlayout,
    nextRegion_code (by decide), leaves_spaces hb,
    leaves_solid (List.forall_mem_singleton.2 hsolid)]
  rfl

theorem part_literal (t : Text) : CodePart (Quoted.literal t) (Quoted.literal t) := by
  unfold Quoted.literal
  split
  · exact .of_cons (by decide) (by decide) (leaves_within (by decide) t)
  · exact .of_cons (by decide) (by decide) (leaves_within (by decide) t)

theorem part_solid (h : ∀ d ∈ c :: t, isSolid d = true) (hc : isClosing c = false) :
    CodePart (c :: t) (c :: t) :=
  .of_cons (isSpace_of_isSolid (h c (List.mem_cons_self ..))) hc (leaves_solid h)

/-! ### Names and numbers -/

/-- What may stand in an identifier is solid. -/
theorem isSolid_of_isIdentifier
    (h : c.isIdentifierStart = true ∨ c.isIdentifierContinue = true) : isSolid c = true := by
  have hspaces : ∀ n ∈ spaces, ∀ hn : n < 0x110000,
      CodePoint.isIdentifierStart ⟨n, hn⟩ = false ∧
        CodePoint.isIdentifierContinue ⟨n, hn⟩ = false := by
    decide +kernel
  have hne : ∀ d : CodePoint, d.isIdentifierStart = false ∧ d.isIdentifierContinue = false →
      c ≠ d := by
    rintro d ⟨hstart, hcontinue⟩ rfl
    simp [hstart, hcontinue] at h
  have hspace : isSpace c = false := by
    rw [Bool.eq_false_iff]
    exact fun hspace => hne c (hspaces c.val (List.contains_iff_mem.1 hspace) c.val_lt) rfl
  simp [isSolid, isQuote, hspace, hne '"' (by decide), hne '\'' (by decide), hne ',' (by decide)]

theorem part_name (h : IsName t) : CodePart t t := by
  cases t with
  | nil => exact absurd h.1 (by decide)
  | cons c t =>
    have hname := h.1
    simp only [Text.isIdentifier, Bool.and_eq_true, List.all_eq_true] at hname
    have hne := fun {d : Char} => ne_of_isIdentifierStart (d := d) hname.1
    refine part_solid (List.forall_mem_cons.2 ⟨?_, fun d hd => ?_⟩) ?_
    · exact isSolid_of_isIdentifier (.inl hname.1)
    · exact isSolid_of_isIdentifier (.inr (hname.2 d hd))
    · simp only [isClosing, Bool.or_eq_false_iff, decide_eq_false_iff_not]
      exact ⟨⟨hne (by decide), hne (by decide)⟩, hne (by decide)⟩

theorem isSolid_of_isDigit (h : c.isDigit = true) : isSolid c = true ∧ isClosing c = false := by
  have hdigits : ∀ d < 10, ∀ hd : 0x30 + d < 0x110000,
      isSolid ⟨0x30 + d, hd⟩ = true ∧ isClosing ⟨0x30 + d, hd⟩ = false := by
    decide
  obtain ⟨n, hn⟩ := c
  simp only [CodePoint.isDigit, Bool.and_eq_true, decide_eq_true_eq] at h
  obtain ⟨d, rfl⟩ := Nat.exists_eq_add_of_le h.1
  exact hdigits d (by omega) hn

theorem part_ofNat (n : Nat) : CodePart (Text.ofNat n) (Text.ofNat n) := by
  have hdigits : ∀ c ∈ Text.ofNat n, isSolid c = true ∧ isClosing c = false :=
    fun c hc => isSolid_of_isDigit (Text.isDigit_of_mem_ofNat hc)
  obtain ⟨c, t, h⟩ := List.exists_cons_of_ne_nil (Text.ofNat_ne_nil n)
  rw [h] at hdigits ⊢
  exact part_solid (fun d hd => (hdigits d hd).1) (hdigits c (List.mem_cons_self ..)).2

theorem part_ofInt (n : Int) : CodePart (Text.ofInt n) (Text.ofInt n) := by
  cases n with
  | ofNat n => exact part_ofNat n
  | negSucc n =>
    have hminus : CodePart (Text.ofString "-") (Text.ofString "-") :=
      part_solid (by decide) (by decide)
    exact hminus.append (part_ofNat (n + 1)).leaves

end Parts

/-! ### Terms -/

mutual

/-- A term as it is written without layout. -/
def Term.compact : Term → Text
  | .text t => Quoted.literal t
  | .int n => Text.ofInt n
  | .bool true => "True"
  | .bool false => "False"
  | .none => "None"
  | .name n => n
  | .list items => "[" ++ Text.join "," (compactItems items) ++ "]"
  | .call callee arguments => callee ++ "(" ++ Text.join "," (compactArguments arguments) ++ ")"

/-- Items as they are written without layout. -/
def compactItems : List Term → List Text
  | [] => []
  | t :: rest => t.compact :: compactItems rest

/-- Arguments as they are written without layout. -/
def compactArguments : List (Option Text × Term) → List Text
  | [] => []
  | (none, t) :: rest => t.compact :: compactArguments rest
  | (some key, t) :: rest => (key ++ "=" ++ t.compact) :: compactArguments rest

end

end Script
end AnchorIdl
