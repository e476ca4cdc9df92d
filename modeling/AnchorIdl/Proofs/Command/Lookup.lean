/-
# Looking up from the command line

The command `lookup` loads the document in a file and writes the discriminator
of an instruction, as a list of numbers or as hexadecimal digits.  Both are read
back: the list as JSON, where it is the very value that the document lists, and
the digits in pairs (`Text.octetsOfHex?`).  Neither holds an escape character,
so nothing of them is taken for the style of a terminal.

| the name leads to | exit code | output | diagnostics |
| --- | --- | --- | --- |
| bytes | zero | a line that denotes them | log lines |
| nothing | one | none | log lines, an error |

`lookup_wireExact` puts the stages together: the document, its schema, the file
and the command line.
-/

import AnchorIdl.Proofs.Command.Generate
import AnchorIdl.Proofs.Document.Lookup
import AnchorIdl.Proofs.Json.Octets
import Mathlib.Data.List.Permutation

namespace AnchorIdl

/-! ### What is written of octets -/

namespace Text

/-- The octets that pairs of hexadecimal digits spell. -/
def octetsOfHex? : Text → Option Bytes
  | [] => some []
  | [_] => none
  | c :: d :: rest => do
    let high ← c.hexValue?
    let low ← d.hexValue?
    let octets ← octetsOfHex? rest
    return UInt8.ofNat (high * 16 + low) :: octets

/-- **Octets are read back from their hexadecimal digits.** -/
theorem octetsOfHex?_ofOctetsHex (octets : Bytes) :
    octetsOfHex? (ofOctetsHex octets) = some octets := by
  induction octets with
  | nil => rfl
  | cons b octets ih =>
    have hb : b.toNat < 256 := b.toNat_lt
    have hhigh := hexValue?_digitChar (show b.toNat / 16 % 16 < 16 by omega)
    have hlow := hexValue?_digitChar (show b.toNat % 16 < 16 by omega)
    have hvalue : UInt8.ofNat (b.toNat / 16 % 16 * 16 + b.toNat % 16) = b := by
      rw [show b.toNat / 16 % 16 * 16 + b.toNat % 16 = b.toNat by omega, UInt8.ofNat_toNat]
    have htext : ofOctetsHex (b :: octets) = CodePoint.ofChar (Nat.digitChar (b.toNat / 16 % 16)) ::
        CodePoint.ofChar (Nat.digitChar (b.toNat % 16)) :: ofOctetsHex octets := rfl
    rw [htext, octetsOfHex?, hhigh, hlow, ih]
    exact congrArg (fun b => some (b :: octets)) hvalue

end Text

/-! ### Lines without styles -/

/-- The character that begins a style sequence. -/
def CodePoint.isEscape (c : CodePoint) : Bool := c.val == 0x1B

namespace Text

theorem isEscape_ofOctetsHex (octets : Bytes) :
    ∀ c ∈ ofOctetsHex octets, c.isEscape = false := by
  have hdigit : ∀ d < 16, (CodePoint.ofChar (Nat.digitChar d)).isEscape = false := by decide
  intro c hc
  obtain ⟨b, -, hc⟩ := List.mem_flatMap.1 hc
  simp only [hex, List.nil_append, List.singleton_append, List.mem_cons, List.not_mem_nil,
    or_false] at hc
  rcases hc with rfl | rfl
  · exact hdigit _ (Nat.mod_lt _ (by decide))
  · exact hdigit _ (Nat.mod_lt _ (by decide))

theorem mem_join {separator : Text} {parts : List Text} {c : CodePoint}
    (h : c ∈ join separator parts) : c ∈ separator ∨ ∃ part ∈ parts, c ∈ part := by
  induction parts with
  | nil => cases h
  | cons part rest ih =>
    cases rest with
    | nil => exact .inr ⟨part, List.mem_cons_self, h⟩
    | cons next rest =>
      rw [join, List.mem_append, List.mem_append] at h
      · rcases h with (h | h) | h
        · exact .inr ⟨part, List.mem_cons_self, h⟩
        · exact .inl h
        · rcases ih h with hc | ⟨other, hother, hc⟩
          · exact .inl hc
          · exact .inr ⟨other, List.mem_cons_of_mem part hother, hc⟩
      · simp

theorem isEscape_ofOctetsList (octets : Bytes) :
    ∀ c ∈ ofOctetsList octets, c.isEscape = false := by
  have hbracket : ∀ c ∈ ofString "[" ++ ofString ", " ++ ofString "]", c.isEscape = false := by
    decide
  have hnumeral : ∀ n, ∀ c ∈ ofNat n, c.isEscape = false := by
    intro n c hc
    have hdigit := isDigit_of_mem_ofNat hc
    simp only [CodePoint.isDigit, Bool.and_eq_true, decide_eq_true_eq] at hdigit
    exact beq_eq_false_iff_ne.2 (by omega)
  simp only [List.forall_mem_append] at hbracket
  obtain ⟨⟨hopen, hcomma⟩, hclose⟩ := hbracket
  refine List.forall_mem_append.2 ⟨List.forall_mem_append.2 ⟨hopen, fun c hc => ?_⟩, hclose⟩
  rcases mem_join hc with hc | ⟨part, hpart, hc⟩
  · exact hcomma c hc
  · obtain ⟨b, -, rfl⟩ := List.mem_map.1 hpart
    exact hnumeral _ c hc

end Text

/-- A text without escape characters is written as it is. -/
theorem dropStyles_eq {t : Text} (h : ∀ c ∈ t, c.isEscape = false) : dropStyles 0 t = t := by
  induction t with
  | nil => rfl
  | cons c t ih =>
    have hc : (c.val == 0x1B) = false := h c List.mem_cons_self
    rw [dropStyles, hc, ih fun d hd => h d (List.mem_cons_of_mem c hd)]

/-! ### The command -/

namespace Command

open Run

variable {fs : FileSystem} {S : Schema} {idl : Path} {name format : Text} {content : Bytes}

/-- An output in a format denotes some octets: it is the JSON list of their numbers, or the line of
their hexadecimal digits. -/
inductive Spells (octets : Bytes) (output : Text) : (format : Text) → Prop
  | list (h : Json.ofText output = .ok (.ofBytes octets)) : Spells octets output "list"
  | hex {line : Text} (h : output = line ++ "\n")
      (digits : Text.octetsOfHex? line = some octets) : Spells octets output "hex"

/-- What is seen of a look-up of a name in a schema. -/
structure Answers (S : Schema) (name format : Text) (report : CommandReport) : Prop where
  succeeds : report.code = 0 ↔ S.discriminator? name ≠ none
  failure : report.failure = none
  spells (octets : Bytes) (h : S.discriminator? name = some octets) :
    Spells octets report.transcript.output format
  silent (h : S.discriminator? name = none) : report.transcript.output = []

theorem output_log (lines : List LogLine) : Transcript.output (lines.map .log) = [] := by
  rw [Transcript.output, List.filterMap_map]
  exact congrArg Text.ofLines (List.filterMap_eq_nil_iff.2 fun _ _ => rfl)

theorem output_append (t u : Transcript) :
    Transcript.output (t ++ u) = Transcript.output t ++ Transcript.output u := by
  rw [Transcript.output, List.filterMap_append, Text.ofLines, List.flatMap_append]
  rfl

/-- Each format writes octets so that they are read back. -/
theorem exists_write (h : format = "list" ∨ format = "hex") :
    ∃ write, discriminatorFormat? format = some write ∧
      ∀ octets, Spells octets (Transcript.output [.output (write octets)]) format := by
  have houtput : ∀ t : Text, Transcript.output [.output t] = dropStyles 0 t ++ "\n" := by
    intro t
    exact List.append_nil _
  rcases h with rfl | rfl
  · refine ⟨Text.ofOctetsList, rfl, fun octets => .list ?_⟩
    rw [houtput, dropStyles_eq (Text.isEscape_ofOctetsList octets)]
    exact Json.ofText_ofOctetsList octets (by decide)
  · refine ⟨Text.ofOctetsHex, rfl, fun octets => .hex (houtput _) ?_⟩
    rw [dropStyles_eq (Text.isEscape_ofOctetsHex octets), Text.octetsOfHex?_ofOctetsHex]

/-- A document in a file that loads is looked into, and the files stay as they are. -/
theorem runLookup_ends (hformat : format = "list" ∨ format = "hex")
    (hread : FileSystem.request idl fs.read = .ok content)
    (hload : (Document.load false (.octets content)).outcome = .ok S) (verbose : Bool) :
    ∃ outcome events, (runLookup idl name format).Ends fs outcome events fs ∧
      Answers S name format (report verbose outcome events) := by
  obtain ⟨write, hwrite, hspells⟩ := exists_write hformat
  obtain ⟨lines, hends⟩ := Document.loadFile_of_read false hread
  rw [hload] at hends
  have hloads := orExit_ends hends
  unfold runLookup
  rw [hwrite]
  cases hfound : S.discriminator? name with
  | none =>
    let message : Text := "Instruction '" ++ name ++ "' not found in " ++ idl.display
    refine ⟨.error (.exit 1), lines.map .log ++ [.error message], hloads.bind ?_,
      by simp [report, hfound], rfl, ?_, fun _ => ?_⟩
    · rw [hfound]
      exact fail_ends message fs
    · rw [hfound]
      nofun
    · rw [report_transcript, output_append, output_log]
      rfl
  | some octets =>
    refine ⟨.ok (), lines.map .log ++ [.output (write octets)], hloads.bind ?_,
      by simp [report, hfound], rfl, fun octets' h => ?_, ?_⟩
    · rw [hfound]
      exact record_ends _ fs
    · obtain rfl := Option.some.inj (hfound.symm.trans h)
      rw [report_transcript, output_append, output_log, List.nil_append]
      exact hspells octets
    · rw [hfound]
      nofun

/-- Every instruction of every file can be asked for, whatever its name is. -/
theorem read_lookup {file : Text} (h : CommandLine.readPath file = some idl) (format name : Text) :
    CommandLine.read ["lookup", "--format", format, "--", file, name] =
      some ⟨false, .lookup idl name format⟩ := by
  let words : List Text := ["--format", format, "--", file, name]
  have hglobal : CommandLine.readWords CommandLine.globalForms false none ("lookup" :: words) =
      some ⟨[], "lookup" :: words⟩ := rfl
  have hwords : CommandLine.readWords CommandLine.lookupForms true none words =
      some ⟨[⟨"--format", format⟩], [file, name]⟩ := rfl
  have hlookup : CommandLine.readLookup words = some (.lookup idl name format) := by
    simp [CommandLine.readLookup, hwords, h, CommandLine.Words.last?]
  have hcommand : CommandLine.readCommand "lookup" words = some (.lookup idl name format) := by
    simp [CommandLine.readCommand, hlookup]
  change CommandLine.read ("lookup" :: words) = _
  simp [CommandLine.read, hglobal, hcommand, CommandLine.Words.last?]

/-- **A look-up answers what the document lists,** from its schema to the command line.  A name
leads in the schema of a document to the bytes that the first instruction with the name lists, and
to nothing exactly if there is none.  Strict loading makes sure that each instruction is found by
its name and has bytes of its own.  The command `lookup` on a file that holds the document succeeds
exactly if the name leads to bytes, and what it writes in either format denotes these. -/
theorem lookup_wireExact {strict : Bool} {raw : Json}
    (h : (Document.load strict (.value raw)).outcome = .ok S) :
    (∀ name, Document.LooksUp raw S name) ∧ (strict = true → Document.TellsApart raw S) ∧
      ∀ {words : List Text} {verbose : Bool} {idl : Path} {name format : Text} {fs : FileSystem}
        {content : Bytes},
        CommandLine.read words = some ⟨verbose, .lookup idl name format⟩ →
        format = "list" ∨ format = "hex" →
        FileSystem.request idl fs.read = .ok content →
        (Document.Source.octets content).value? = .ok raw →
        ∃ report, (runWords words : StateM FileSystem CommandReport).run fs = (report, fs) ∧
          Answers S name format report := by
  have hsame := Document.forall₂_sameTag h
  refine ⟨Document.looksUp_of_forall₂ hsame, fun hstrict => ?_, ?_⟩
  · subst hstrict
    exact Document.tellsApart_of_forall₂ hsame (Document.load_strict_eq_ok_iff.1 h).2
  · intro words verbose idl name format fs content hwords hformat hread hvalue
    have hlenient : (Document.load false (.value raw)).outcome = .ok S := by
      cases strict with
      | false => exact h
      | true => exact (Document.load_strict_eq_ok_iff.1 h).1
    have hload : (Document.load false (.octets content)).outcome = .ok S := by
      rw [← hlenient]
      unfold Document.load
      rw [hvalue]
      rfl
    obtain ⟨outcome, events, hends, hanswers⟩ := runLookup_ends hformat hread hload verbose
    exact ⟨_, runWords_of_ends hwords hends, hanswers⟩

/-- A document with two instructions. -/
def lookupSample : Json :=
  .obj [("instructions", .arr [
    .obj [("name", .str "go"), ("discriminator", .ofBytes [1, 2, 3, 4, 5, 6, 7, 255])],
    .obj [("name", .str "--stop"), ("discriminator", .ofBytes (List.replicate 8 0))]])]

/-- Its text. -/
def lookupSampleText : String :=
  "\x7b\"instructions\":[" ++
    "\x7b\"name\":\"go\",\"discriminator\":[1,2,3,4,5,6,7,255]\x7d," ++
    "\x7b\"name\":\"--stop\",\"discriminator\":[0,0,0,0,0,0,0,0]\x7d]\x7d"

/-- The octets of its text. -/
def lookupSampleOctets : Bytes := lookupSampleText.toUTF8.data.toList

/-- A directory with a file that holds it. -/
def lookupSampleFiles : FileSystem where
  nodes := [(⟨[FileName.octets "idl.json"]⟩, .file lookupSampleOctets)]

theorem lookupSample_wireExact :
    ∃ S, (Document.load true (.value lookupSample)).outcome = .ok S ∧
      S.discriminator? "go" = some [1, 2, 3, 4, 5, 6, 7, 255] ∧
      (∀ name, Document.LooksUp lookupSample S name) ∧ Document.TellsApart lookupSample S ∧
      ∃ report, (runWords ["lookup", "--format", "hex", "--", "idl.json", "--stop"] :
          StateM FileSystem CommandReport).run lookupSampleFiles = (report, lookupSampleFiles) ∧
        Answers S "--stop" "hex" report := by
  have hload : (Document.load true (.value lookupSample)).outcome = .ok {
      instructions := [{ name := "go", discriminator := [1, 2, 3, 4, 5, 6, 7, 255] },
        { name := "--stop", discriminator := List.replicate 8 0 }] } := by
    decide +kernel
  have hdecode : Json.decode lookupSampleOctets = .ok (Text.ofString lookupSampleText) := by
    decide +kernel
  have hscan : Json.ofDecoded (Text.ofString lookupSampleText) = .ok lookupSample := by cbv
  have hvalue : (Document.Source.octets lookupSampleOctets).value? = .ok lookupSample := by
    rw [Document.Source.value?, Json.ofOctets, hdecode]
    change ((Json.ofDecoded (Text.ofString lookupSampleText)).mapError _).mapError _ = _
    rw [hscan]
    rfl
  have hread : FileSystem.request ⟨0, ["idl.json"]⟩ lookupSampleFiles.read =
      .ok lookupSampleOctets := by
    decide +kernel
  obtain ⟨hlooks, happart, hcommand⟩ := lookup_wireExact hload
  exact ⟨_, hload, by decide +kernel, hlooks, happart rfl,
    hcommand (read_lookup (by decide +kernel) "hex" "--stop") (.inr rfl) hread hvalue⟩

end Command
end AnchorIdl
