/-
# Copies in a schema, and what is reported of them

The entries of a schema form four columns: the names and the discriminators of
its instructions, the codes of its errors and the names of its custom types.  A
*copy* is an entry whose value stands at a smaller index of its column.

Reporting goes through a column once and keeps of each value the index where it
was first seen.  That index is the smallest one of the value, also when a third
or later copy is met (`repeatsFrom_eq`), so what is reported is each copy with
the smallest index of its value, in order (`duplicates_eq`).

A report shows the value of the copy.  That fails for nothing but an error code
with too many digits, so all copies can be reported if no such code stands twice
(`CodesShown`).  Then strict reporting fails at the first copy, and lenient
reporting writes a line for each (`reportDuplicates_strict`,
`reportDuplicates_lenient`); otherwise both fail, though not always in the same
way.
-/

import AnchorIdl.Document.Report
import AnchorIdl.Proofs.FirstOccurrences
import AnchorIdl.Proofs.Json.Integers
import AnchorIdl.Proofs.Json.Place
import AnchorIdl.Proofs.Log
import AnchorIdl.Proofs.Schema.Canonical
import Mathlib.Data.Finset.Card
import Mathlib.Data.List.Induction

namespace AnchorIdl
namespace Document

/-! ### Copies in a list -/

section Copies

variable {α : Type} [DecidableEq α]

/-- The entries of a list whose value stands at a smaller index, with their indices. -/
def copies (column : List α) : List (α × Nat) :=
  column.zipIdx.filter fun e => column.idxOf e.1 < e.2

/-- What is reported of an entry of a list: its index, its value, the smallest index of that. -/
def copyReport (column : List α) (e : α × Nat) : Nat × α × Nat := (e.2, e.1, column.idxOf e.1)

theorem repeatsFrom_eq_nil_iff {column : List α} {i : Nat}
    {seen : List (α × Nat)} : repeatsFrom i seen column = [] ↔
      column.Nodup ∧ ∀ x ∈ column, seen.lookup x = none := by
  induction column generalizing i seen with
  | nil => simp [repeatsFrom]
  | cons x rest ih =>
    rw [repeatsFrom, List.nodup_cons, List.forall_mem_cons]
    cases hx : seen.lookup x with
    | some first => simp
    | none =>
      have hlookup : ∀ y, (seen ++ [(x, i)]).lookup y = none ↔ seen.lookup y = none ∧ y ≠ x := by
        intro y
        simp only [List.lookup_eq_none_iff, List.forall_mem_append, List.forall_mem_singleton,
          bne_iff_ne, ne_eq]
      simp only [ih, hlookup, true_and]
      constructor
      · rintro ⟨hnodup, h⟩
        exact ⟨⟨fun hmem => (h x hmem).2 rfl, hnodup⟩, fun y hy => (h y hy).1⟩
      · rintro ⟨⟨hx, hnodup⟩, h⟩
        exact ⟨hnodup, fun y hy => ⟨h y hy, fun hyx => hx (hyx ▸ hy)⟩⟩

/-- Nothing in a column is a duplicate exactly if its entries are distinct. -/
theorem repeats_eq_nil_iff {column : List α} :
    repeats column = [] ↔ column.Nodup := by
  rw [repeats, repeatsFrom_eq_nil_iff]
  simp

/-- A map from values to indices holds of each value before an index the smallest one. -/
def FirstSeen (seen : List (α × Nat)) (before : List α) : Prop :=
  ∀ x, seen.lookup x = if x ∈ before then some (before.idxOf x) else none

/-- A value that was seen changes nothing. -/
theorem FirstSeen.again {seen : List (α × Nat)} {before : List α} {x : α}
    (h : FirstSeen seen before) (hx : x ∈ before) : FirstSeen seen (before ++ [x]) := by
  intro y
  rw [h y, List.idxOf_append]
  by_cases hy : y ∈ before
  · simp [hy]
  · have hyx : y ≠ x := fun e => hy (e ▸ hx)
    simp [hy, hyx]

/-- A new value is seen where it stands. -/
theorem FirstSeen.new {seen : List (α × Nat)} {before : List α} {x : α}
    (h : FirstSeen seen before) (hx : x ∉ before) :
    FirstSeen (seen ++ [(x, before.length)]) (before ++ [x]) := by
  intro y
  rw [List.lookup_append, h y, List.idxOf_append]
  by_cases hy : y ∈ before
  · simp [hy]
  · by_cases hyx : y = x
    · subst hyx
      simp [hy]
    · simp [hy, hyx, List.lookup_cons, beq_false_of_ne hyx]

/-- **The rest of a list is reported by its copies,** if each value before it was seen first. -/
theorem repeatsFrom_eq {seen : List (α × Nat)} {before rest : List α} (h : FirstSeen seen before) :
    repeatsFrom before.length seen rest =
      ((rest.zipIdx before.length).filter fun e => (before ++ rest).idxOf e.1 < e.2).map
        (copyReport (before ++ rest)) := by
  induction rest generalizing seen before with
  | nil => rfl
  | cons x rest ih =>
    have hlength : (before ++ [x]).length = before.length + 1 := by simp
    have happend : before ++ x :: rest = before ++ [x] ++ rest := by simp
    rw [repeatsFrom, h x, happend, List.zipIdx_cons, List.filter_cons]
    by_cases hx : x ∈ before
    · have hfirst : (before ++ [x] ++ rest).idxOf x = before.idxOf x := by
        rw [List.append_assoc, List.idxOf_append_of_mem hx]
      have hlt : before.idxOf x < before.length := List.idxOf_lt_length_iff.2 hx
      have hrest := ih (h.again hx)
      rw [hlength] at hrest
      simp only [if_pos hx, hfirst, hlt, decide_true, if_true, hrest, List.map_cons, copyReport]
    · have hfirst : (before ++ [x] ++ rest).idxOf x = before.length := by
        rw [List.append_assoc, List.idxOf_append_of_notMem hx]
        simp
      have hrest := ih (h.new hx)
      rw [hlength] at hrest
      simp only [if_neg hx, hfirst, Nat.lt_irrefl, decide_false, Bool.false_eq_true, if_false,
        hrest]

/-- A list is reported by its copies. -/
theorem repeats_eq (column : List α) :
    repeats column = (copies column).map (copyReport column) := by
  have hseen : FirstSeen ([] : List (α × Nat)) [] := fun _ => by simp
  exact repeatsFrom_eq hseen

theorem copies_concat (column : List α) (x : α) :
    copies (column ++ [x]) = copies column ++ if x ∈ column then [(x, column.length)] else [] := by
  unfold copies
  rw [List.zipIdx_append, List.filter_append,
    List.filter_congr fun e he => by rw [idxOf_append_of_mem_zipIdx he]]
  congr 1
  by_cases hx : x ∈ column
  · have hlt : column.idxOf x < column.length := List.idxOf_lt_length_iff.2 hx
    simp [hx, List.idxOf_append, hlt]
  · simp [hx, List.idxOf_append]

/-- A list has as many copies as it has entries beyond its distinct values. -/
theorem length_copies (column : List α) :
    (copies column).length + column.toFinset.card = column.length := by
  induction column using List.reverseRecOn with
  | nil => rfl
  | append_singleton column x ih =>
    rw [copies_concat, List.length_append, List.length_append, List.toFinset_append]
    by_cases hx : x ∈ column
    · have hmem : column.toFinset ∪ [x].toFinset = column.toFinset := by simpa using hx
      rw [hmem, if_pos hx]
      simp only [List.length_singleton]
      omega
    · have hcard : (column.toFinset ∪ [x].toFinset).card = column.toFinset.card + 1 := by
        rw [Finset.union_comm]
        simp [hx]
      rw [hcard, if_neg hx]
      simp only [List.length_nil, List.length_singleton]
      omega

theorem copies_eq_nil_iff {column : List α} : copies column = [] ↔ column.Nodup := by
  rw [← repeats_eq_nil_iff, repeats_eq, List.map_eq_nil_iff]

/-- The first copy of a list is where the distinct values before it end. -/
theorem copies_eq_cons {column : List α} {x : α} {i : Nat} {rest : List (α × Nat)}
    (h : copies column = (x, i) :: rest) :
    column[i]? = some x ∧ x ∈ column.take i ∧ (column.take i).Nodup := by
  induction column using List.reverseRecOn generalizing rest with
  | nil => simp [copies] at h
  | append_singleton column y ih =>
    rw [copies_concat] at h
    cases hc : copies column with
    | cons first more =>
      rw [hc, List.cons_append] at h
      obtain ⟨hget, hmem, hnodup⟩ := ih (by rw [hc, (List.cons.inj h).1])
      have hi : i < column.length := (List.getElem?_eq_some_iff.1 hget).1
      rw [List.getElem?_append_left hi, List.take_append_of_le_length hi.le]
      exact ⟨hget, hmem, hnodup⟩
    | nil =>
      rw [hc, List.nil_append] at h
      split at h
      · next hy =>
        obtain ⟨rfl, rfl⟩ := Prod.mk.inj (List.cons.inj h).1
        simp only [List.getElem?_concat_length, List.take_left, true_and]
        exact ⟨hy, copies_eq_nil_iff.1 hc⟩
      · simp at h

theorem idxOf_map {β : Type} [DecidableEq β] {f : α → β} (hf : Function.Injective f)
    (column : List α) (x : α) : (column.map f).idxOf (f x) = column.idxOf x := by
  have hsame : ∀ y, (f y == f x) = (y == x) := fun y => by
    rw [Bool.eq_iff_iff, beq_iff_eq, beq_iff_eq, hf.eq_iff]
  simp only [List.idxOf, List.findIdx_map, Function.comp_def, hsame]

theorem copies_map {β : Type} [DecidableEq β] {f : α → β} (hf : Function.Injective f)
    (column : List α) : copies (column.map f) = (copies column).map (Prod.map f id) := by
  unfold copies
  rw [List.zipIdx_map, List.filter_map]
  simp [Function.comp_def, idxOf_map hf]

end Copies

/-! ### Columns of a schema -/

namespace Identity

/-- The columns, in the order in which they are reported. -/
def all : List Identity := [instructionName, discriminator, errorCode, typeName]

/-- The entries of a column, as a document writes them. -/
def column (S : Schema) : Identity → List Json
  | instructionName => S.instructions.map fun x => .str x.name
  | discriminator => S.instructions.map fun x => .ofBytes x.discriminator
  | errorCode => S.errors.map fun e => .int e.code
  | typeName => S.types.map fun d => .str d.name

/-- Where the entry of a column with a given index stands in a document. -/
def place : Identity → Nat → Place
  | instructionName => entryPlace "instructions" "name"
  | discriminator => entryPlace "instructions" "discriminator"
  | errorCode => entryPlace "errors" "code"
  | typeName => entryPlace "types" "name"

/-- The fault of an entry with its index: it is named with the smallest index of its value. -/
def fault (c : Identity) (S : Schema) (e : Json × Nat) : Fault :=
  ⟨.duplicate c e.1 (c.place ((c.column S).idxOf e.1)), some (c.place e.2)⟩

end Identity

theorem Identity.isPlain_place (c : Identity) (i : Nat) : (c.place i).IsPlain := by
  cases c <;>
    · intro name hname
      simp only [Identity.place, entryPlace, List.mem_cons, Step.member.injEq, reduceCtorEq,
        List.not_mem_nil, or_false, false_or] at hname
      rcases hname with rfl | rfl <;> decide

theorem columnDuplicates_eq {α : Type} [DecidableEq α] {c : Identity} {S : Schema}
    {value : α → Json} {column : List α} (hvalue : Function.Injective value)
    (hcolumn : c.column S = column.map value) :
    columnDuplicates c c.place value column = (copies (c.column S)).map (c.fault S) := by
  rw [columnDuplicates, repeats_eq, hcolumn, copies_map hvalue, List.map_map, List.map_map]
  refine List.map_congr_left fun e _ => ?_
  simp [copyReport, Identity.fault, hcolumn, idxOf_map hvalue]

theorem ofBytes_injective : Function.Injective Json.ofBytes := by
  intro a b h
  have hmap : a.map (fun b => Json.int b.toNat) = b.map fun b => Json.int b.toNat :=
    Json.arr.inj h
  refine List.map_injective_iff.2 (fun x y hxy => ?_) hmap
  exact UInt8.toNat_inj.1 (Int.ofNat_inj.1 (Json.int.inj hxy))

/-- **The duplicates of a schema are the copies in its columns,** column by column. -/
theorem duplicates_eq (S : Schema) :
    duplicates S = Identity.all.flatMap fun c => (copies (c.column S)).map (c.fault S) := by
  have hstr : Function.Injective Json.str := fun _ _ => Json.str.inj
  have hint : Function.Injective Json.int := fun _ _ => Json.int.inj
  have hnames := @columnDuplicates_eq _ _ .instructionName S _
    (S.instructions.map Instruction.name) hstr (by simp [Identity.column])
  have hdiscriminators := @columnDuplicates_eq _ _ .discriminator S _
    (S.instructions.map Instruction.discriminator) ofBytes_injective (by simp [Identity.column])
  have hcodes := @columnDuplicates_eq _ _ .errorCode S _
    (S.errors.map ErrorDefinition.code) hint (by simp [Identity.column])
  have htypes := @columnDuplicates_eq _ _ .typeName S _
    (S.types.map TypeDefinition.name) hstr (by simp [Identity.column])
  simp only [Identity.place] at hnames hdiscriminators hcodes htypes
  simp [duplicates, Identity.all, hnames, hdiscriminators, hcodes, htypes]

/-- An entry with its index is the first copy of a schema: no column before its own has a copy, and
nor has what stands before it in its own. -/
structure FirstCopy (S : Schema) (c : Identity) (x : Json) (i : Nat) : Prop where
  columns : ∃ before after, Identity.all = before ++ c :: after ∧ ∀ b ∈ before, (b.column S).Nodup
  entry : (c.column S)[i]? = some x
  copy : x ∈ (c.column S).take i
  distinct : ((c.column S).take i).Nodup

theorem exists_firstCopy {S : Schema} {f : Fault} (h : (duplicates S).head? = some f) :
    ∃ c x i, FirstCopy S c x i ∧ f = c.fault S (x, i) := by
  rw [duplicates_eq, List.head?_flatMap, List.findSome?_eq_some_iff] at h
  obtain ⟨before, c, after, hall, hc, hbefore⟩ := h
  cases hcopies : copies (c.column S) with
  | nil => simp [hcopies] at hc
  | cons e rest =>
    obtain ⟨x, i⟩ := e
    obtain ⟨hget, hmem, hnodup⟩ := copies_eq_cons hcopies
    refine ⟨c, x, i, ⟨⟨before, after, hall, fun b hb => ?_⟩, hget, hmem, hnodup⟩, ?_⟩
    · have hnone := hbefore b hb
      rw [List.head?_eq_none_iff, List.map_eq_nil_iff] at hnone
      exact copies_eq_nil_iff.1 hnone
    · rw [hcopies] at hc
      exact (Option.some.inj hc).symm

theorem duplicates_eq_nil_iff {S : Schema} : duplicates S = [] ↔ S.Distinct := by
  simp only [duplicates, columnDuplicates, List.append_eq_nil_iff, List.map_eq_nil_iff,
    repeats_eq_nil_iff]
  constructor
  · rintro ⟨⟨⟨hnames, hdiscriminators⟩, hcodes⟩, htypes⟩
    exact ⟨hnames, hdiscriminators, hcodes, htypes⟩
  · intro h
    exact ⟨⟨⟨h.names, h.discriminators⟩, h.codes⟩, h.types⟩

/-! ### Copies that can be shown -/

theorem mem_copies {α : Type} [DecidableEq α] {column : List α} {x : α} {j : Nat} :
    (x, j) ∈ copies column ↔ column[j]? = some x ∧ ∃ i < j, column[i]? = some x := by
  rw [copies, List.mem_filter, List.mem_zipIdx_iff_getElem?, decide_eq_true_iff]
  refine and_congr_right fun hj => ⟨fun h => ⟨_, h, ?_⟩, fun ⟨i, hi, hx⟩ => ?_⟩
  · have hmem : x ∈ column := List.mem_of_getElem? hj
    rw [List.getElem?_eq_getElem (List.idxOf_lt_length_iff.2 hmem), List.getElem_idxOf]
  · by_contra hle
    obtain ⟨hlength, rfl⟩ := List.getElem?_eq_some_iff.1 hx
    have hlt : i < column.findIdx (· == column[i]) :=
      Nat.lt_of_lt_of_le hi (Nat.not_lt.1 hle)
    simpa using List.not_of_lt_findIdx hlt

end Document

/-- A line of the log warns of something: it says so behind the place that it names. -/
def LogLine.warnsOf (what : Text) (l : LogLine) : Bool :=
  l.level = .warning &&
    (Text.ofString ": " ++ what) <+: l.message.dropWhile fun c => c ≠ CodePoint.ofChar ':'

/-- No error code that stands twice has more digits than can be written. -/
def Schema.CodesShown (S : Schema) : Prop :=
  ∀ (i j : Nat) (n : Int), i < j → (S.errors.map ErrorDefinition.code)[i]? = some n →
    (S.errors.map ErrorDefinition.code)[j]? = some n → Text.isShort n = true

namespace Document

/-- The value that the message of a complaint shows, if it shows one. -/
def Complaint.shown? : Complaint → Option Json
  | .badByte _ got | .unknownSeedKind got | .unknownTypeKind got => some got
  | .duplicate _ value _ => some value
  | _ => none

/-- **The message of a complaint can be written** exactly if the value that it shows can be. -/
theorem isSome_message_iff {c : Complaint} :
    c.message.isSome = true ↔ ∀ x ∈ c.shown?, x.Short := by
  simp only [← Json.isSome_display]
  cases c <;> simp [Complaint.message, Complaint.shown?]

variable {S : Schema}

theorem short_ofBytes (bytes : Bytes) : (Json.ofBytes bytes).Short :=
  Json.short_arr.2 (List.forall_mem_map.2 fun b _ => Json.short_int.2 (Text.isShort_byte b))

/-- Copies can be shown, unless they are codes that are too long. -/
theorem isSome_message_duplicates :
    (∀ f ∈ duplicates S, f.complaint.message.isSome = true) ↔ S.CodesShown := by
  have hmessage : ∀ (c : Identity) (e : Json × Nat),
      (c.fault S e).complaint.message.isSome = true ↔ e.1.Short := fun c e => by
    simp [isSome_message_iff, Identity.fault, Complaint.shown?]
  have hcodes : Identity.errorCode.column S =
      (S.errors.map ErrorDefinition.code).map Json.int := by
    simp [Identity.column]
  simp only [duplicates_eq, List.forall_mem_flatMap, List.forall_mem_map, hmessage]
  constructor
  · intro h i j n hij hi hj
    have hcopy : (Json.int n, j) ∈ copies (Identity.errorCode.column S) := by
      rw [hcodes, mem_copies, List.getElem?_map, hj]
      exact ⟨rfl, i, hij, by rw [List.getElem?_map, hi]; rfl⟩
    exact Json.short_int.1 (h .errorCode (by decide) _ hcopy)
  · intro h c _ e he
    obtain ⟨x, j⟩ := e
    obtain ⟨hj, i, hij, hi⟩ := mem_copies.1 he
    cases c with
    | instructionName | typeName =>
      obtain ⟨y, -, rfl⟩ := List.mem_map.1 (List.mem_of_getElem? hj)
      exact fun n hn => absurd hn List.not_mem_nil
    | discriminator =>
      obtain ⟨y, -, rfl⟩ := List.mem_map.1 (List.mem_of_getElem? hj)
      exact short_ofBytes _
    | errorCode =>
      rw [hcodes, List.getElem?_map, Option.map_eq_some_iff] at hj hi
      obtain ⟨n, hn, rfl⟩ := hj
      obtain ⟨m, hm, heq⟩ := hi
      obtain rfl := Json.int.inj heq
      exact Json.short_int.2 (h i j m hij hm hn)

/-- With fewer errors, no more codes stand twice. -/
theorem codesShown_of_sublist {S' : Schema} (h : S.CodesShown)
    (hsub : List.Sublist S'.errors S.errors) : S'.CodesShown := by
  have hpairwise : ∀ S : Schema, S.CodesShown ↔ (S.errors.map ErrorDefinition.code).Pairwise
      fun m n => m = n → Text.isShort n = true := by
    intro S
    rw [List.pairwise_iff_getElem]
    constructor
    · intro h i j hi hj hij heq
      exact h i j _ hij (List.getElem?_eq_some_iff.2 ⟨hi, heq⟩) (List.getElem?_eq_getElem hj)
    · intro h i j n hij hni hnj
      obtain ⟨hi, rfl⟩ := List.getElem?_eq_some_iff.1 hni
      obtain ⟨hj, heq⟩ := List.getElem?_eq_some_iff.1 hnj
      exact heq ▸ h i j hi hj hij heq.symm
  rw [hpairwise] at h ⊢
  exact h.sublist (hsub.map _)

theorem codesShown_of_distinct (h : S.Distinct) : S.CodesShown := by
  rw [← isSome_message_duplicates, duplicates_eq_nil_iff.2 h]
  simp

/-! ### Reporting -/

/-- What a warning is of stands behind the place that it names. -/
theorem warnsOf_iff {p : Place} (h : p.IsPlain) (what message : Text) :
    (LogLine.mk .warning .loader (p.display ++ (Text.ofString ": " ++ message))).warnsOf what =
      true ↔ what <+: message := by
  have hdrop : (p.display ++ (Text.ofString ": " ++ message)).dropWhile
      (fun c => c ≠ CodePoint.ofChar ':') = Text.ofString ": " ++ message := by
    rw [List.dropWhile_append_of_pos fun c hc => by
      simpa using Place.ne_colon_of_mem_display h c hc]
    rfl
  rw [LogLine.warnsOf, hdrop]
  simp

namespace Identity

/-- Where the entry of a column with a given index stands in a document, as it is written. -/
def path : Identity → Nat → Text
  | instructionName, i => "instructions[" ++ Text.ofNat i ++ "].name"
  | discriminator, i => "instructions[" ++ Text.ofNat i ++ "].discriminator"
  | errorCode, i => "errors[" ++ Text.ofNat i ++ "].code"
  | typeName, i => "types[" ++ Text.ofNat i ++ "].name"

/-- The line for a copy: where it stands, its value, and where its value stands first. -/
def copyLine (c : Identity) (S : Schema) (e : Json × Nat) : LogLine where
  level := .warning
  source := .loader
  message := c.path e.2 ++ ": duplicate " ++ c.label ++ " " ++ e.1.display.getD [] ++
    " (first declared at " ++ c.path ((c.column S).idxOf e.1) ++ ")"

theorem display_place (c : Identity) (i : Nat) : (c.place i).display = c.path i := by
  cases c <;> simp [place, entryPlace, Place.display, Place.displayStep, path, Text.ofString]

end Identity

/-- The line for a copy warns of a duplicate. -/
theorem warnsOf_copyLine (c : Identity) (e : Json × Nat) :
    ∃ rest, ∀ what, (c.copyLine S e).warnsOf what = true ↔
      what <+: Text.ofString "duplicate " ++ rest := by
  refine ⟨c.label ++ (" " ++ (e.1.display.getD [] ++ (" (first declared at " ++
    (c.path ((c.column S).idxOf e.1) ++ ")")))), fun what => ?_⟩
  rw [← warnsOf_iff (c.isPlain_place e.2), c.display_place]
  simp only [Identity.copyLine, List.append_assoc]
  rfl

/-- The lines for all copies, column by column. -/
def copyLines (S : Schema) : List LogLine :=
  Identity.all.flatMap fun c => (copies (c.column S)).map (c.copyLine S)

theorem reportDuplicate_fault {c : Identity} {e : Json × Nat}
    (h : (c.fault S e).complaint.message.isSome = true) :
    reportDuplicate false (c.fault S e) = .tellAll [c.copyLine S e] := by
  have hshown : e.1.display.isSome = true := by simpa [Identity.fault, Complaint.message] using h
  obtain ⟨shown, hshown⟩ := Option.isSome_iff_exists.1 hshown
  have hmessage : (c.fault S e).complaint.message =
      some ("duplicate " ++ c.label ++ " " ++ shown ++ " (first declared at " ++
        (c.place ((c.column S).idxOf e.1)).display ++ ")") := by
    simp [Identity.fault, Complaint.message, hshown]
  have hline : duplicateWarning (c.fault S e) ("duplicate " ++ c.label ++ " " ++ shown ++
      " (first declared at " ++ (c.place ((c.column S).idxOf e.1)).display ++ ")") =
      c.copyLine S e := by
    simp [duplicateWarning, warn, Identity.copyLine, Identity.fault, Identity.display_place,
      hshown, Text.ofString]
  rw [reportDuplicate, hmessage]
  exact congrArg (fun l => Logged.tellAll [l]) hline

theorem reportEach_map {c : Identity} {es : List (Json × Nat)} {rest : List Fault}
    (h : ∀ f ∈ es.map (c.fault S), f.complaint.message.isSome = true) :
    reportEach false (es.map (c.fault S) ++ rest) =
      .tellAll (es.map (c.copyLine S)) >>= fun _ => reportEach false rest := by
  induction es with
  | nil => simp [Logged.tellAll, Bind.bind, Logged.bind]
  | cons e es ih =>
    rw [List.map_cons, List.forall_mem_cons] at h
    rw [List.map_cons, List.cons_append, reportEach, reportDuplicate_fault h.1, ih h.2]
    simp [Logged.tellAll, Bind.bind, Logged.bind]

/-- **Lenient reporting writes a line for each copy,** column by column, if all can be shown. -/
theorem reportDuplicates_lenient (h : S.CodesShown) :
    reportDuplicates false S = .tellAll (copyLines S) := by
  have hshown := isSome_message_duplicates.2 h
  simp only [duplicates_eq, List.forall_mem_flatMap] at hshown
  unfold reportDuplicates copyLines
  rw [duplicates_eq]
  generalize Identity.all = columns at hshown
  induction columns with
  | nil => rfl
  | cons c columns ih =>
    rw [List.forall_mem_cons] at hshown
    rw [List.flatMap_cons, List.flatMap_cons, reportEach_map hshown.1, ih hshown.2]
    rfl

theorem reportEach_overlong {faults : List Fault}
    (h : ¬ ∀ f ∈ faults, f.complaint.message.isSome = true) :
    (reportEach false faults).outcome = .error .overlong := by
  induction faults with
  | nil => exact absurd (by simp) h
  | cons f rest ih =>
    rw [reportEach, Logged.bind_outcome_eq_error]
    cases hf : f.complaint.message with
    | none => exact .inl (by simp [reportDuplicate, hf])
    | some message =>
      refine .inr ⟨(), by simp [reportDuplicate, hf], ih fun hrest => h ?_⟩
      exact List.forall_mem_cons.2 ⟨by simp [hf], hrest⟩

/-- Lenient reporting fails if a copy cannot be shown. -/
theorem reportDuplicates_overlong (h : ¬ S.CodesShown) :
    (reportDuplicates false S).outcome = .error .overlong :=
  reportEach_overlong fun hshown => h (isSome_message_duplicates.1 hshown)

/-- Strict reporting fails at the first copy, if there is one. -/
theorem reportDuplicates_strict (S : Schema) :
    reportDuplicates true S =
      match (duplicates S).head? with
      | none => return ()
      | some f => .lift (.error (Rejection.fault f).raised) := by
  unfold reportDuplicates
  cases duplicates S with
  | nil => rfl
  | cons f rest =>
    simp only [reportEach, reportDuplicate, List.head?_cons, Rejection.raised]
    cases f.complaint.message <;> rfl

/-- **When nothing is wrong with the copies of a schema:** with strict reporting there may be
none. -/
theorem reportDuplicates_eq_ok_iff {strict : Bool} :
    (reportDuplicates strict S).outcome = .ok () ↔
      S.CodesShown ∧ (strict = true → S.Distinct) := by
  cases strict with
  | false =>
    by_cases h : S.CodesShown
    · simp [reportDuplicates_lenient h, h]
    · simp [reportDuplicates_overlong h, h]
  | true =>
    rw [reportDuplicates_strict, ← duplicates_eq_nil_iff, ← List.head?_eq_none_iff]
    cases hhead : (duplicates S).head? with
    | none =>
      have hdistinct := duplicates_eq_nil_iff.1 (List.head?_eq_none_iff.1 hhead)
      simp [codesShown_of_distinct hdistinct]
    | some f => simp

end Document
end AnchorIdl
