/-
# What the command `generate` builds, and how it is set

The command builds targets and then generates them.  With a document and an
output it builds one target of them, and else one for each entry of the project
file.  Both ways the file is the same, the one that is given or else the
nearest, and so is the rule for what a target is called and how it is read: what
the flags set goes before what the entry sets, and that before what the table
`generate` sets.  Where there is no entry, or no file, its level sets nothing.

| project file | with a document | without one |
| --- | --- | --- |
| none | flags | exit with one |
| has a flaw | exit with one | exit with one |
| declares no targets | flags, then `generate` | exit with one |
| declares targets | flags, then `generate` | flags, then the entry, then `generate` |

Whether a file has a flaw does not depend on the flags or on the document
(`settings_resolve`).
-/

import AnchorIdl.Proofs.Command.Project
import AnchorIdl.Proofs.Project.Settings
import Mathlib.Data.List.Permutation

namespace AnchorIdl

open Document (bind_eq_ok mapError_eq_ok)
open Run

variable {fs : FileSystem} {file : Path} {given : Option Path} {table : Toml.Table}
  {flaw : ProjectFlaw} {shown : Transcript}

/-- A file holds a table: it can be read as a text, and the text is TOML. -/
def FileSystem.Holds (fs : FileSystem) (file : Path) (table : Toml.Table) : Prop :=
  ∃ octets text, FileSystem.request file fs.read = .ok octets ∧
    Utf8.decode false octets = .ok text ∧ Toml.read (Project.unifyLineEnds text) = .ok table

/-- The error of a flaw in a project file. -/
def ProjectFlaw.error (flaw : ProjectFlaw) (file : Path) : IdlError :=
  .config flaw.message (some { file := some file })

theorem FileSystem.projectIn_of_holds (h : fs.Holds file table) :
    fs.projectIn file =
      (Project.ofTable file.parent table).mapError fun flaw => .error (flaw.error file) := by
  obtain ⟨octets, text, hread, hdecode, htable⟩ := h
  unfold FileSystem.projectIn Project.ofOctets
  rw [hread]
  change (Except.mapError Failure.undecodable (Utf8.decode false octets) >>= _) = _
  rw [hdecode]
  change (Except.mapError _ (Toml.read (Project.unifyLineEnds text)) >>= _) = _
  rw [htable]
  rfl

namespace Command

/-- A run shows a message and exits with one; it leaves the files. -/
def Exits {α : Type} (x : Run (StateM FileSystem) Stop α) (fs : FileSystem) (message : Text) :
    Prop :=
  ∃ events, x.Ends fs (.error (.exit 1)) (events ++ [.error message]) fs

/-- The command builds targets, and goes on to generate them from the files as they were. -/
def Builds (x : Run (StateM FileSystem) Stop Unit) (fs : FileSystem) (targets : List Target) :
    Prop :=
  ∃ events, x.GoesOn fs events (generateTargets targets)

/-- With a document and an output the command builds one target of them, set by the flags and by
the lowest level. -/
def BuildsOne (fs : FileSystem) (given : Option Path) (lower : Settings) : Prop :=
  ∀ (flags : Flags) (idl output : Path), ∃ target : Target,
    Builds (runGenerate (some idl) (some output) flags given) fs [target] ∧
      target.idl = idl ∧ target.output = output ∧ target.Follows (flags.settings.over lower)

/-- A project file is refused with an error, whatever it is loaded for. -/
structure Refuses (fs : FileSystem) (given : Option Path) (file : Path) (e : IdlError) : Prop where
  load : ∃ events, (Project.loadFile file).Ends fs (.error (.error e)) events fs
  one (flags : Flags) (idl output : Path) :
    Exits (runGenerate (some idl) (some output) flags given) fs e.display
  all (flags : Flags) (output : Option Path) :
    Exits (runGenerate none output flags given) fs e.display

/-- A project file is accepted with what it sets and with its entries: without a document the
command builds one target for each entry, in their order. -/
structure Accepts (fs : FileSystem) (given : Option Path) (file : Path) (lower : Settings)
    (values : List Toml.Value) : Prop where
  load : ∃ project events, (Project.loadFile file).Ends fs (.ok project) events fs ∧
    project.Realises file.parent lower values
  one : BuildsOne fs given lower
  all (flags : Flags) (output : Option Path) (h : values ≠ []) : ∃ targets,
    Builds (runGenerate none output flags given) fs targets ∧
      List.Forall₂ (Project.Configures file.parent flags.settings lower) values targets
  none (flags : Flags) (output : Option Path) (h : values = []) :
    Exits (runGenerate none output flags given) fs (file.display ++ " declares no targets")

section

variable {α β : Type} {x : Run (StateM FileSystem) Stop α} {f : α → Run (StateM FileSystem) Stop β}
  {message : Text}

theorem Exits.bind (h : Exits x fs message) : Exits (x >>= f) fs message :=
  h.imp fun _ h => h.bind_error

theorem Exits.after {a : α} (hx : x.Ends fs (.ok a) shown fs) (h : Exits (f a) fs message) :
    Exits (x >>= f) fs message := by
  obtain ⟨events, h⟩ := h
  refine ⟨shown ++ events, ?_⟩
  rw [List.append_assoc]
  exact hx.bind h

theorem exits_orExit {x : Run (StateM FileSystem) Failure α} {e : IdlError}
    (h : ∃ events, x.Ends fs (.error (.error e)) events fs) : Exits (orExit x) fs e.display :=
  h.imp fun _ h => orExit_ends_error h

end

/-- A file with a flaw is refused. -/
theorem refuses_of_ofTable (hfile : (projectFile? given).Ends fs (.ok (some file)) shown fs)
    (h : fs.Holds file table) (hflaw : Project.ofTable file.parent table = .error flaw) :
    Refuses fs given file (flaw.error file) := by
  have hload := Project.loadFile_ends file fs
  rw [FileSystem.projectIn_of_holds h, hflaw] at hload
  have hexits {β : Type} (f : Project → Run (StateM FileSystem) Stop β) :
      Exits (orExit (Project.loadFile file) >>= f) fs (flaw.error file).display :=
    (exits_orExit hload).bind
  refine ⟨hload, fun flags idl output => ?_, fun flags output => ?_⟩
  · have hsingle : Exits (singleTarget idl output flags given) fs (flaw.error file).display :=
      .after hfile (hexits _)
    exact hsingle.bind
  · have hproject : Exits (projectTargets flags given) fs (flaw.error file).display :=
      .after hfile (hexits _)
    exact hproject.bind

/-- A file that is a project is accepted. -/
theorem accepts_of_ofTable {project : Project} {lower : Settings} {values : List Toml.Value}
    (hfile : (projectFile? given).Ends fs (.ok (some file)) shown fs)
    (h : fs.Holds file table) (hproject : Project.ofTable file.parent table = .ok project)
    (hrealises : project.Realises file.parent lower values) :
    Accepts fs given file lower values := by
  obtain ⟨events, hload⟩ := Project.loadFile_ends file fs
  rw [FileSystem.projectIn_of_holds h, hproject] at hload
  have hlength : project.targets.length = values.length := by
    rw [(hrealises.targets {}).length_eq, List.length_map]
  refine ⟨⟨project, events, hload, hrealises⟩, fun flags idl output => ?_,
    fun flags output hne => ?_, fun flags output hnil => ?_⟩
  · have hsingle : (singleTarget idl output flags given).Ends fs
        (.ok (flags.target project.defaults idl output)) (shown ++ (events ++ [])) fs :=
      hfile.bind ((orExit_ends hload).bind (pure_ends _ fs))
    have hfollows := Project.follows_target hrealises.defaults flags idl output
    exact ⟨_, ⟨_, hsingle.goesOn⟩, rfl, rfl, hfollows⟩
  · have htargets : project.targets ≠ [] := by
      rwa [← List.length_pos_iff_ne_nil, hlength, List.length_pos_iff_ne_nil]
    have hall : (projectTargets flags given).Ends fs (.ok (project.targets.map flags.override))
        (shown ++ (events ++ [])) fs := by
      refine hfile.bind ((orExit_ends hload).bind ?_)
      rw [if_neg htargets]
      exact pure_ends _ fs
    exact ⟨_, ⟨_, hall.goesOn⟩, hrealises.targets flags⟩
  · have htargets : project.targets = [] := by
      rwa [← List.length_eq_zero_iff, hlength, List.length_eq_zero_iff]
    have hall : Exits (projectTargets flags given) fs (file.display ++ " declares no targets") := by
      refine .after hfile (.after (orExit_ends hload) ?_)
      rw [if_pos htargets]
      exact ⟨[], fail_ends _ fs⟩
    exact hall.bind

/-- Without a project file the flags decide alone. -/
theorem buildsOne_of_none (hfile : (projectFile? given).Ends fs (.ok none) shown fs) :
    BuildsOne fs given {} := by
  intro flags idl output
  have hsingle : (singleTarget idl output flags given).Ends fs
      (.ok (flags.target {} idl output)) (shown ++ []) fs :=
    hfile.bind (pure_ends _ fs)
  have hdefaults : Defaults.Follow {} {} := ⟨rfl, rfl, rfl⟩
  exact ⟨_, ⟨_, hsingle.goesOn⟩, rfl, rfl, Project.follows_target hdefaults flags idl output⟩

/-- **Settings resolve by one rule,** with a document and without one: flags, entry, defaults.
Whether the project file has a flaw depends on neither, and a flaw ends every form of the command
with the same error. -/
theorem settings_resolve {found : Option Path}
    (hfound : (projectFile? given).Ends fs (.ok found) shown fs) :
    (found = none → BuildsOne fs given {}) ∧
    ∀ {file table}, found = some file → fs.Holds file table →
      (∃ flaw, Project.Flawed table flaw ∧ ¬ Project.WellFormed table ∧
        Refuses fs given file (flaw.error file)) ∨
      ∃ lower values, Project.WellFormed table ∧ Project.Declared table lower values ∧
        Accepts fs given file lower values := by
  refine ⟨?_, ?_⟩
  · rintro rfl
    exact buildsOne_of_none hfound
  · rintro file table rfl hholds
    rcases Project.ofTable_cases file.parent table with ⟨flaw, hflaw, hflawed, hillFormed⟩ |
      ⟨project, lower, values, hproject, hformed, hdeclared, hrealises⟩
    · exact .inl ⟨flaw, hflawed, hillFormed, refuses_of_ofTable hfound hholds hflaw⟩
    · exact .inr ⟨lower, values, hformed, hdeclared,
        accepts_of_ofTable hfound hholds hproject hrealises⟩

/-- The text of a project file with defaults, and with a target that sets two empty names. -/
def settingsSampleText : String :=
  "[generate]\nmodule = \"g\"\nbinding = \"G\"\nstrict = true\n" ++
    "[[targets]]\nidl = \"a.json\"\noutput = \"b.py\"\nmodule = \"\"\nbinding = \"\"\n"

/-- The entry of the target. -/
def settingsSampleEntry : Toml.Table :=
  [("idl", .text "a.json"), ("output", .text "b.py"), ("module", .text ""), ("binding", .text "")]

/-- The table of the project file. -/
def settingsSampleTable : Toml.Table :=
  [("generate", .table [("module", .text "g"), ("binding", .text "G"), ("strict", .boolean true)]),
    ("targets", .array [.table settingsSampleEntry])]

theorem settingsSample_resolve :
    let fs := nestedSampleFiles settingsSampleText.toUTF8.data.toList
    let file : Path := ⟨1, ["forge", "idlforge.toml"]⟩
    BuildsOne { nodes := [] } none {} ∧
    ∃ lower values, Project.WellFormed settingsSampleTable ∧
      Project.Declared settingsSampleTable lower values ∧
      Accepts fs (some file) file lower values := by
  intro fs file
  have hread : FileSystem.request file fs.read = .ok settingsSampleText.toUTF8.data.toList := by
    decide +kernel
  have hdecode : Utf8.decode false settingsSampleText.toUTF8.data.toList =
      .ok (Text.ofString settingsSampleText) := by
    decide +kernel
  have htable : Toml.read (Project.unifyLineEnds (Text.ofString settingsSampleText)) =
      .ok settingsSampleTable := by
    cbv
  have hholds : fs.Holds file settingsSampleTable := ⟨_, _, hread, hdecode, htable⟩
  have hgiven : (projectFile? (some file)).Ends fs (.ok (some file)) [] fs := pure_ends _ fs
  refine ⟨?_, ?_⟩
  · have hlacks : ∀ D : Location, D.names <+: Location.root.names →
        FileSystem.projectAt { nodes := [] } D = .ok false := by
      rintro ⟨names⟩ hD
      obtain rfl : names = [] := List.prefix_nil.1 hD
      decide +kernel
    exact (settings_resolve (projectFile?_of_ok (Project.find?_of_none hlacks))).1 rfl
  · have hformed : Project.WellFormed settingsSampleTable := by
      rcases Project.ofTable_cases file.parent settingsSampleTable with ⟨flaw, hflaw, -⟩ | h
      · have hread : (Project.ofTable file.parent settingsSampleTable).toBool = true := by
          decide +kernel
        rw [hflaw] at hread
        cases hread
      · obtain ⟨_, _, _, -, hformed, -⟩ := h
        exact hformed
    refine ((settings_resolve hgiven).2 rfl hholds).resolve_left ?_
    rintro ⟨flaw, -, hillFormed, -⟩
    exact hillFormed hformed

end Command
end AnchorIdl
