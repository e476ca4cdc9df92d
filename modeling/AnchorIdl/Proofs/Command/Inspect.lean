/-
# Inspecting documents from the command line

The command `inspect` loads the document in a file and lays out marked-up texts
and tables.  The tags `[bold]` and `[/bold]` in the headline are its own; what
the document holds is escaped, so that it is shown as it is, except for the
address:

| part of the headline | may disturb the tags |
| --- | --- |
| the name | by three backslashes at its end, or any greater odd number: `[/bold]` is escaped |
| the version | by the open start of a tag, if the address begins by closing it |
| the address | by any tag |

All other texts are free of tags, whatever the document holds.  So the tags are
the command's own exactly for a schema that is `Harmless`, and then they are the
same for every document (`inspect_tags_iff`).
-/

import AnchorIdl.Command.Inspect
import AnchorIdl.Proofs.Command.Lookup
import AnchorIdl.Proofs.Console.Markup

namespace AnchorIdl

open Markup

/-- The texts of what is laid out: the marked-up text, or the title, the headers and the cells. -/
def Printed.texts : Printed → List Text
  | markup text => [text]
  | table t => (t.title :: t.columns.map Column.header) ++ t.rows.flatten

namespace Command

variable {S : Schema} {before : Text}

/-! ### The headline -/

/-- The name in the headline. -/
def shownName (S : Schema) : Text :=
  if S.metadata.name = [] then "(unnamed)" else S.metadata.name

/-- The tags that the headline is given. -/
def ownTags : List Text := [Text.ofString "bold", Text.ofString "/bold"]

/-- The headline in front of the version. -/
def front (S : Schema) : Text := "[bold]" ++ escape (shownName S) ++ "[/bold] v"

/-- The strings in the headline of a schema do not disturb its tags. -/
structure Harmless (S : Schema) : Prop where
  name : endBackslashes 0 (shownName S) % 2 = 0 ∨ endBackslashes 0 (shownName S) = 1
  seam : ¬ (LeftOpen S.metadata.version ∧ firstBracket? S.address = some (CodePoint.ofChar ']'))
  address : ∀ before, ¬ TagAfter S.address before

theorem headline_eq (S : Schema) :
    headline S = front S ++ escape S.metadata.version ++ "  " ++ S.address := rfl

theorem even_endBackslashes_escape (s : Text) :
    endBackslashes 0 (escape s) % 2 = 0 ↔
      endBackslashes 0 s % 2 = 0 ∨ endBackslashes 0 s = 1 := by
  rw [endBackslashes_escape]
  grind

/-- An escaped text in front of another one, which is not that of a tag, has no tag but a start that
the other one closes. -/
theorem unescaped_closed_escape_iff {s rest : Text} (h : decider? rest = none) :
    Unescaped closed 0 (escape s) rest before ↔
      Unescaped leftOpen 0 (escape s) [] before ∧
        firstBracket? rest = some (CodePoint.ofChar ']') := by
  have hown : ¬ Unescaped closed 0 (escape s) [] before := not_tagAfter_escape s before
  rw [unescaped_closed_iff (by rw [h]; decide), or_iff_right hown]

/-- The name has no tags. -/
theorem not_unescaped_name (s rest inner : Text) :
    ¬ Unescaped closed 0 (escape s) ("[/bold] v" ++ rest) inner := by
  intro h
  have hfirst : firstBracket? ("[/bold] v" ++ rest) = some (CodePoint.ofChar '[') := rfl
  have hclosing := ((unescaped_closed_escape_iff rfl).1 h).2
  exact absurd (hfirst.symm.trans hclosing) (by decide)

/-- The version has the tag that the address closes. -/
theorem unescaped_version_iff (S : Schema) (inner : Text) :
    Unescaped closed 0 (escape S.metadata.version) ("  " ++ S.address) inner ↔
      Unescaped leftOpen 0 (escape S.metadata.version) [] inner ∧
        firstBracket? S.address = some (CodePoint.ofChar ']') :=
  unescaped_closed_escape_iff rfl

/-- In front of the version a tag opens before the name, and one after it unless the name escapes
it. -/
theorem unescaped_front_iff (S : Schema) (rest before : Text) :
    Unescaped closed 0 (front S) rest before ↔
      before = [] ∨
      before = "[bold]" ++ escape (shownName S) ∧
        endBackslashes 0 (escape (shownName S)) % 2 = 0 := by
  have hbold : ∀ rest before, Unescaped closed 0 "[bold]" rest before ↔
      before = [] ∧ 0 % 2 = 0 :=
    fun _ _ => unescaped_tag_iff (by decide) rfl
  have hclose : ∀ pending inner, Unescaped closed pending "[/bold] v" rest inner ↔
      inner = [] ∧ pending % 2 = 0 :=
    fun _ _ => unescaped_tag_iff (by decide) rfl
  have hend : endBackslashes 0 ("[bold]" ++ escape (shownName S)) =
      endBackslashes 0 (escape (shownName S)) :=
    endBackslashes_append 0 _ _
  rw [front, unescaped_append, unescaped_append, hend, hbold]
  constructor
  · rintro ((⟨rfl, -⟩ | ⟨inner, -, h⟩) | ⟨inner, rfl, h⟩)
    · exact .inl rfl
    · exact absurd h (not_unescaped_name _ rest inner)
    · obtain ⟨rfl, heven⟩ := (hclose _ _).1 h
      exact .inr ⟨List.append_nil _, heven⟩
  · rintro (rfl | ⟨rfl, heven⟩)
    · exact .inl (.inl ⟨rfl, rfl⟩)
    · exact .inr ⟨[], (List.append_nil _).symm, (hclose _ _).2 ⟨rfl, heven⟩⟩

/-- **Where the tags of the headline open.** -/
theorem tagAfter_headline_iff (S : Schema) (before : Text) :
    TagAfter (headline S) before ↔
      (before = [] ∨
        before = "[bold]" ++ escape (shownName S) ∧
          endBackslashes 0 (escape (shownName S)) % 2 = 0) ∨
      (∃ inner, before = front S ++ inner ∧
        Unescaped leftOpen 0 (escape S.metadata.version) [] inner ∧
        firstBracket? S.address = some (CodePoint.ofChar ']')) ∨
      ∃ inner, before = front S ++ escape S.metadata.version ++ "  " ++ inner ∧
        TagAfter S.address inner := by
  have hfront : endBackslashes 0 (front S) = 0 := endBackslashes_append 0 _ _
  have hblank : endBackslashes 0 (front S ++ escape S.metadata.version ++ "  ") = 0 :=
    endBackslashes_append 0 _ _
  have hgap : ∀ pending rest inner, ¬ Unescaped closed pending "  " rest inner :=
    fun _ _ _ => not_unescaped_of_not_mem (by decide)
  rw [TagAfter, headline_eq, unescaped_append, unescaped_append, unescaped_append, hfront, hblank,
    unescaped_front_iff, List.append_nil]
  simp only [unescaped_version_iff, hgap, and_false, exists_false, or_false, or_assoc]
  rfl

/-- What stands after the name stands at neither of the two tags. -/
theorem front_append_ne (S : Schema) (t : Text) :
    front S ++ t ≠ [] ∧ front S ++ t ≠ "[bold]" ++ escape (shownName S) := by
  constructor <;> intro h <;> have hlength := congrArg List.length h <;>
    simp [front, Text.ofString] at hlength

/-- **The only tags of the headline are the command's own exactly if the schema is harmless.** -/
theorem ownTags_iff :
    (∀ before, TagAfter (headline S) before ↔
      before = [] ∨ before = "[bold]" ++ escape (shownName S)) ↔ Harmless S := by
  constructor
  · intro h
    have hlater : ∀ inner, ¬ TagAfter (headline S) (front S ++ inner) := fun inner hinner =>
      ((h _).1 hinner).elim (front_append_ne S inner).1 (front_append_ne S inner).2
    refine ⟨?_, fun ⟨hopen, hfirst⟩ => ?_, fun inner hinner => ?_⟩
    · rcases (tagAfter_headline_iff S _).1 ((h _).2 (.inr rfl)) with
        (hnil | ⟨-, heven⟩) | ⟨inner, heq, -⟩ | ⟨inner, heq, -⟩
      · cases hnil
      · exact (even_endBackslashes_escape _).1 heven
      · exact absurd heq.symm (front_append_ne S inner).2
      · rw [List.append_assoc, List.append_assoc] at heq
        exact absurd heq.symm (front_append_ne S _).2
    · obtain ⟨inner, hinner⟩ := leftOpen_escape_iff.2 hopen
      exact hlater inner ((tagAfter_headline_iff S _).2 (.inr (.inl ⟨inner, rfl, hinner, hfirst⟩)))
    · refine hlater (escape S.metadata.version ++ "  " ++ inner) ?_
      exact (tagAfter_headline_iff S _).2 (.inr (.inr ⟨inner, by simp, hinner⟩))
  · intro h before
    rw [tagAfter_headline_iff]
    constructor
    · rintro ((rfl | ⟨rfl, -⟩) | ⟨inner, -, hopen, hfirst⟩ | ⟨inner, -, hinner⟩)
      · exact .inl rfl
      · exact .inr rfl
      · exact absurd ⟨leftOpen_escape_iff.1 ⟨inner, hopen⟩, hfirst⟩ h.seam
      · exact absurd hinner (h.address inner)
    · rintro (rfl | rfl)
      · exact .inl (.inl rfl)
      · exact .inl (.inr ⟨rfl, (even_endBackslashes_escape _).2 h.name⟩)

/-- The tags of a harmless headline. -/
theorem tags_headline (h : Harmless S) : tags (headline S) = ownTags := by
  let name := escape (shownName S)
  let last := escape S.metadata.version ++ ("  " ++ S.address)
  have hplain : ∀ s rest : Text, CodePoint.ofChar '[' ∉ s → ∀ pending,
      tagsFrom pending (s ++ rest) = tagsFrom (endBackslashes pending s) rest :=
    fun _ _ hs _ => tagsFrom_append fun _ => not_unescaped_of_not_mem hs
  have hlast : tagsFrom 0 last = [] := by
    have hversion : ∀ inner,
        ¬ Unescaped closed 0 (escape S.metadata.version) ("  " ++ S.address) inner := by
      intro inner hinner
      obtain ⟨hopen, hfirst⟩ := (unescaped_version_iff S inner).1 hinner
      exact h.seam ⟨leftOpen_escape_iff.1 ⟨inner, hopen⟩, hfirst⟩
    rw [tagsFrom_append hversion, hplain "  " S.address (by decide)]
    exact tagsFrom_eq_nil_iff.2 h.address
  have hclose : ∀ pending, pending % 2 = 0 → tagsFrom pending ("[/bold] v" ++ last) =
      [Text.ofString "/bold"] := by
    intro pending heven
    refine (tagsFrom_of_opensTag (r := "/bold] v" ++ last) heven rfl).trans (congrArg₂ _ rfl ?_)
    exact (hplain "/bold] v" last (by decide) 0).trans hlast
  have hopen : ∀ rest : Text, tagsFrom 0 ("[bold]" ++ rest) =
      Text.ofString "bold" :: tagsFrom 0 rest := by
    intro rest
    refine (tagsFrom_of_opensTag (r := "bold]" ++ rest) rfl rfl).trans (congrArg₂ _ rfl ?_)
    exact hplain "bold]" rest (by decide) 0
  have heven := (even_endBackslashes_escape (shownName S)).2 h.name
  have heq : headline S = "[bold]" ++ (name ++ ("[/bold] v" ++ last)) := by
    rw [headline_eq, front]
    simp only [List.append_assoc, name, last]
  rw [tags_eq_tagsFrom, heq, hopen, tagsFrom_append (not_unescaped_name _ _), hclose _ heven]
  rfl

/-! ### The other texts -/

theorem tags_ofOctetsHex (octets : Bytes) : tags (Text.ofOctetsHex octets) = [] := by
  have hdigit : ∀ d < 16, CodePoint.ofChar (Nat.digitChar d) ≠ '[' := by decide
  refine tags_of_not_mem fun h => ?_
  obtain ⟨b, -, h⟩ := List.mem_flatMap.1 h
  simp only [Text.hex, List.nil_append, List.singleton_append, List.mem_cons, List.not_mem_nil,
    or_false] at h
  rcases h with h | h
  · exact hdigit _ (Nat.mod_lt _ (by decide)) h.symm
  · exact hdigit _ (Nat.mod_lt _ (by decide)) h.symm

theorem tags_ofInt (n : Int) : tags (Text.ofInt n) = [] := by
  have hnumeral : ∀ n : Nat, CodePoint.ofChar '[' ∉ Text.ofNat n :=
    fun n h => absurd (Text.isDigit_of_mem_ofNat h) (by decide)
  refine tags_of_not_mem fun h => ?_
  cases n with
  | ofNat n => exact hnumeral n h
  | negSucc n =>
    rcases List.mem_append.1 h with h | h
    · exact absurd h (by decide)
    · exact hnumeral _ h

/-- A table has no tags if its title and its headers have no brackets and its cells no tags. -/
theorem tags_table {t : ConsoleTable}
    (hheaders : ∀ text ∈ t.title :: t.columns.map Column.header, CodePoint.ofChar '[' ∉ text)
    (hcells : ∀ row ∈ t.rows, ∀ cell ∈ row, tags cell = []) :
    ∀ text ∈ (Printed.table t).texts, tags text = [] := by
  intro text htext
  rw [Printed.texts] at htext
  rcases List.mem_append.1 htext with htext | hcell
  · exact tags_of_not_mem (hheaders text htext)
  · obtain ⟨row, hrow, hcell⟩ := List.mem_flatten.1 hcell
    exact hcells row hrow text hcell

/-- The table of a section, if it has entries. -/
def sectionTable {α : Type} (entries : List α) (table : ConsoleTable) : List Printed :=
  if entries.isEmpty then [] else [.table table]

/-- What is shown below the headline. -/
def details (S : Schema) : List Printed :=
  (if S.metadata.description = [] then [] else [.markup (escape S.metadata.description)]) ++
    .table (instructionTable S) :: (sectionTable S.accounts (accountTable S) ++
      sectionTable S.errors (errorTable S) ++ sectionTable S.types (typeTable S))

theorem summary_eq (S : Schema) : summary S = .markup (headline S) :: details S := by
  simp [summary, details, sectionTable]

theorem forall_mem_sectionTable {α : Type} {entries : List α} {table : ConsoleTable}
    {P : Printed → Prop} (h : P (.table table)) : ∀ item ∈ sectionTable entries table, P item := by
  rw [sectionTable]
  split <;> simp [h]

/-- **Nothing but the headline has tags.** -/
theorem tags_details (S : Schema) : ∀ item ∈ details S, ∀ text ∈ item.texts, tags text = [] := by
  refine List.forall_mem_append.2 ⟨?_, List.forall_mem_cons.2 ⟨?_, ?_⟩⟩
  · split <;> simp [Printed.texts, tags_escape]
  · refine tags_table (of_decide_eq_true rfl) (List.forall_mem_map.2 fun i _ => ?_)
    simp [tags_escape, tags_ofOctetsHex]
  · refine List.forall_mem_append.2 ⟨List.forall_mem_append.2 ⟨?accounts, ?errors⟩, ?types⟩ <;>
      refine forall_mem_sectionTable (tags_table (of_decide_eq_true rfl) ?_)
    case accounts =>
      refine List.forall_mem_map.2 fun a _ => ?_
      simp [tags_escape, tags_ofOctetsHex]
    case errors =>
      refine List.forall_mem_map.2 fun e _ => ?_
      simp [tags_escape, tags_ofInt]
    case types =>
      refine List.forall_mem_map.2 fun t _ => ?_
      simp [tags_escape]

/-- The tags of all that is laid out are those of the headline. -/
theorem flatMap_tags_summary (S : Schema) :
    ((summary S).flatMap Printed.texts).flatMap tags = tags (headline S) := by
  have hnone : ((details S).flatMap Printed.texts).flatMap tags = [] := by
    refine List.flatMap_eq_nil_iff.2 fun text htext => ?_
    obtain ⟨item, hitem, htext⟩ := List.mem_flatMap.1 htext
    exact tags_details S item hitem text htext
  rw [summary_eq, List.flatMap_cons, List.flatMap_append, hnone, List.append_nil]
  exact List.append_nil _

/-! ### The command -/

open Run

variable {fs : FileSystem} {idl : Path} {content : Bytes}

/-- A document in a file that loads is laid out. -/
theorem runInspect_ends (hread : FileSystem.request idl fs.read = .ok content)
    (hload : (Document.load false (.octets content)).outcome = .ok S) :
    ∃ events, (runInspect idl).Ends fs (.ok ()) events fs ∧
      Transcript.printed events = summary S := by
  obtain ⟨lines, hends⟩ := Document.loadFile_of_read false hread
  rw [hload] at hends
  have hshown := (forIn_record_ends (ε := Stop) Event.printed (summary S) fs).bind (pure_ends () fs)
  refine ⟨_, (orExit_ends hends).bind hshown, ?_⟩
  rw [List.append_nil, Transcript.printed_append, Transcript.printed_log, List.nil_append,
    Transcript.printed, List.filterMap_map]
  exact List.filterMap_some

/-- The two tags close each other, whatever comes after them. -/
theorem closes_ownTags_append (normal : Text → Text) (rest : List Text) :
    closes normal [] (ownTags ++ rest) = closes normal [] rest := by
  have hopen : Text.dropStart? "/" "bold" = none := rfl
  have hclose : Text.dropStart? "/" "/bold" = some (Text.ofString "bold") := rfl
  simp [ownTags, closes, hopen, hclose]

/-- **Nothing that a document holds is a tag on the console exactly if its schema is harmless.**
Inspecting a document lays out the headline of its schema and further texts, which have no tags.
The tags of the headline are the two that it is given exactly for a harmless schema.  The tags of
all that is laid out then are the same for every document, and each closing one closes a tag. -/
theorem inspect_tags_iff (hread : FileSystem.request idl fs.read = .ok content)
    (hload : (Document.load false (.octets content)).outcome = .ok S) :
    (∃ events, (runInspect idl).Ends fs (.ok ()) events fs ∧
      Transcript.printed events = .markup (headline S) :: details S) ∧
    (∀ item ∈ details S, ∀ text ∈ item.texts, ∀ before, ¬ TagAfter text before) ∧
    ((∀ before, TagAfter (headline S) before ↔
      before = [] ∨ before = "[bold]" ++ escape (shownName S)) ↔ Harmless S) ∧
    (Harmless S → ((summary S).flatMap Printed.texts).flatMap tags = ownTags ∧
      ∀ item ∈ summary S, ∀ text ∈ item.texts, ∀ normal, closes normal [] (tags text) = true) := by
  refine ⟨?_, ?_, ownTags_iff, fun h => ⟨?_, ?_⟩⟩
  · rw [← summary_eq]
    exact runInspect_ends hread hload
  · exact fun item hitem text htext => tags_eq_nil_iff.1 (tags_details S item hitem text htext)
  · rw [flatMap_tags_summary, tags_headline h]
  · rw [summary_eq, List.forall_mem_cons]
    refine ⟨fun text htext normal => ?_, fun item hitem text htext normal => ?_⟩
    · obtain rfl := List.mem_singleton.1 htext
      rw [tags_headline h]
      exact closes_ownTags_append normal []
    · rw [tags_details S item hitem text htext]
      rfl

/-- The text of a document whose address is a closing tag. -/
def closingSample : String := "\x7b\"address\":\"[/x]\"\x7d"

/-- The octets of the text. -/
def closingSampleOctets : Bytes := closingSample.toUTF8.data.toList

/-- A directory with a file that holds it. -/
def closingSampleFiles : FileSystem where
  nodes := [(⟨[FileName.octets "idl.json"]⟩, .file closingSampleOctets)]

theorem closingSample_tags :
    ∃ S, (Document.load false (.octets closingSampleOctets)).outcome = .ok S ∧
      (¬ ∀ before, TagAfter (headline S) before ↔
        before = [] ∨ before = "[bold]" ++ escape (shownName S)) ∧
      ∀ normal, closes normal [] (tags (headline S)) = false := by
  have hread : FileSystem.request ⟨0, ["idl.json"]⟩ closingSampleFiles.read =
      .ok closingSampleOctets := by
    decide +kernel
  have hvalue : (Document.Source.octets closingSampleOctets).value? =
      .ok (.obj [("address", .str "[/x]")]) := by
    have hdecode : Json.decode closingSampleOctets = .ok (Text.ofString closingSample) := by
      decide +kernel
    have hscan : Json.ofDecoded (Text.ofString closingSample) =
        .ok (.obj [("address", .str "[/x]")]) := by
      cbv
    rw [Document.Source.value?, Json.ofOctets, hdecode]
    change ((Json.ofDecoded (Text.ofString closingSample)).mapError _).mapError _ = _
    rw [hscan]
    rfl
  have hload : (Document.load false (.octets closingSampleOctets)).outcome =
      .ok { address := "[/x]" } :=
    Document.load_source_eq_ok_iff.2 ⟨_, hvalue, by decide +kernel⟩
  obtain ⟨-, -, hiff, -⟩ := inspect_tags_iff hread hload
  refine ⟨_, hload, fun h => ?_, fun normal => ?_⟩
  · refine (hiff.1 h).address [] (tagAfter_iff.2 ⟨"/x]", rfl, rfl, rfl⟩)
  · have htags : tags (headline { address := "[/x]" }) = ownTags ++ [Text.ofString "/x"] := by
      decide +kernel
    have hclose : Text.dropStart? "/" "/x" = some (Text.ofString "x") := rfl
    rw [htags, closes_ownTags_append]
    simp [closes, hclose]

end Command
end AnchorIdl
