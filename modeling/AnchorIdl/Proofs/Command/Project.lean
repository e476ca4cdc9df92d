/-
# Generating a project from below its directory

The command `generate` without a document goes up from the working directory to
the project file.  From there on the working directory has no part in what it
does: the file is absolute, so are the paths of its targets
(`isAbsolute_of_mem_resolvedTargets`), and what is absolute is read and written at
the same places from everywhere (`runGenerate_anywhere`).  So runs from different
directories are one run if their searches end in the same directory
(`generate_fromNearest`).

| the first directory on the way up that does not answer no | exit code | files |
| --- | --- | --- |
| answers yes | as its targets are generated | as its targets are generated |
| refuses to answer | one | as they were |
| there is none | one | as they were |

A directory refuses to answer if the path of a project file in it is too long.
Whether or not the file is there, the search does not go past it, so that from
far below a project nothing is found (`deepSample_not_found`).
-/

import AnchorIdl.Proofs.Command.Generate
import AnchorIdl.Proofs.Generation.Absolute
import AnchorIdl.Proofs.Project.Search
import AnchorIdl.Proofs.Project.Targets
import Mathlib.Data.List.Basic

namespace AnchorIdl

open Document (bind_eq_ok mapError_eq_ok)
open Run

/-! ### From the project file to the targets -/

variable {fs fs' : FileSystem} {file : Path} {flags : Flags} {targets : List Target}
  {events : Transcript}

/-- The project that a file describes. -/
def FileSystem.projectIn (fs : FileSystem) (file : Path) : Except Failure Project := do
  let octets ← (FileSystem.request file fs.read).mapError
    (·.toFailure fun answer => .io "Failed to read config" file (some answer))
  Project.ofOctets file octets

/-- Loading a project ends with the one that the file describes, and leaves the files. -/
theorem Project.loadFile_ends (file : Path) (fs : FileSystem) :
    ∃ events, (Project.loadFile file).Ends fs (fs.projectIn file) events fs := by
  have hread : (FileAccess.readFile file : StateM FileSystem _).run fs =
      (FileSystem.request file fs.read, fs) := rfl
  have hattempt := attempt_ends (fun answer => .io "Failed to read config" file (some answer)) hread
  unfold FileSystem.projectIn
  cases hrequest : FileSystem.request file fs.read with
  | error fault =>
    rw [hrequest] at hattempt
    exact ⟨_, hattempt.bind_error⟩
  | ok octets =>
    rw [hrequest] at hattempt
    change ∃ events, Ends _ fs (Project.ofOctets file octets) events fs
    cases hproject : Project.ofOctets file octets with
    | error f => exact ⟨_, hattempt.bind (lift_ends hproject fs).bind_error⟩
    | ok project =>
      exact ⟨_, hattempt.bind ((lift_ends hproject fs).bind
        ((tell_ends _ _ _ fs).bind (pure_ends project fs)))⟩

theorem Project.loadFile_anywhere (h : file.isAbsolute = true) :
    (Project.loadFile file : Run (StateM FileSystem) Failure Project).Anywhere := by
  refine (attempt_anywhere _ (FileSystem.readFile_anywhere h)).bind fun octets _ => ?_
  refine (ofLogged_anywhere _).bind fun project _ => ?_
  exact (record_anywhere _).bind fun _ _ => pure_anywhere _

namespace Command

/-- The targets of a project file, or how the command stops without any. -/
def resolvedTargets (flags : Flags) (fs : FileSystem) (file : Path) : Except Stop (List Target) :=
  match fs.projectIn file with
  | .error f => .error f.stop
  | .ok project =>
    if project.targets = [] then .error (.exit 1) else .ok (project.targets.map flags.override)

theorem projectTargets_ends (flags : Flags) (file : Path) (fs : FileSystem) :
    ∃ events, (projectTargets flags (some file)).Ends fs (resolvedTargets flags fs file) events
      fs := by
  obtain ⟨loading, hload⟩ := Project.loadFile_ends file fs
  have hfile : Ends (projectFile? (some file)) fs (.ok (some file)) [] fs := pure_ends _ fs
  unfold resolvedTargets
  cases hproject : fs.projectIn file with
  | error f =>
    rw [hproject] at hload
    exact ⟨_, hfile.bind (orExit_ends_error hload).bind_error⟩
  | ok project =>
    rw [hproject] at hload
    have hbody : ∃ later,
        Ends (if project.targets = [] then fail (file.display ++ " declares no targets")
          else pure (project.targets.map flags.override)) fs
          (if project.targets = [] then .error (.exit 1)
            else .ok (project.targets.map flags.override)) later fs := by
      split
      · exact ⟨_, fail_ends _ fs⟩
      · exact ⟨_, pure_ends _ fs⟩
    obtain ⟨later, hbody⟩ := hbody
    exact ⟨_, hfile.bind ((orExit_ends hload).bind hbody)⟩

/-- Targets are those of the project that the octets of the file describe. -/
theorem of_resolvedTargets_eq_ok (h : resolvedTargets flags fs file = .ok targets) :
    ∃ octets project, FileSystem.request file fs.read = .ok octets ∧
      Project.ofOctets file octets = .ok project ∧ project.targets ≠ [] ∧
      targets = project.targets.map flags.override := by
  unfold resolvedTargets at h
  split at h
  · cases h
  next project hproject =>
    obtain ⟨octets, hread, hoctets⟩ := bind_eq_ok.1 hproject
    split at h
    · cases h
    next hsome =>
      exact ⟨octets, project, mapError_eq_ok.1 hread, hoctets, hsome, (Except.ok.inj h).symm⟩

/-- The targets of a project file are its entries, in their order. -/
theorem resolvedTargets_resolves (h : resolvedTargets flags fs file = .ok targets) :
    ∃ octets defaults values, FileSystem.request file fs.read = .ok octets ∧
      Project.Declares octets defaults values ∧
      List.Forall₂ (Project.Resolves file.parent defaults flags) values targets := by
  obtain ⟨octets, project, hread, hoctets, hsome, rfl⟩ := of_resolvedTargets_eq_ok h
  obtain ⟨values, hdeclares, hresolves⟩ := Project.ofOctets_resolves hoctets hsome flags
  exact ⟨octets, project.defaults, values, hread, hdeclares, hresolves⟩

/-- The paths of the targets of an absolute file are absolute. -/
theorem isAbsolute_of_mem_resolvedTargets (h : resolvedTargets flags fs file = .ok targets)
    (hfile : file.isAbsolute = true) :
    ∀ t ∈ targets, t.idl.isAbsolute = true ∧ t.output.isAbsolute = true := by
  obtain ⟨octets, project, -, hoctets, -, rfl⟩ := of_resolvedTargets_eq_ok h
  exact Project.isAbsolute_of_mem hoctets hfile flags

theorem projectTargets_anywhere (h : file.isAbsolute = true) (flags : Flags) :
    (projectTargets flags (some file) : Run (StateM FileSystem) Stop (List Target)).Anywhere := by
  refine (orExit_anywhere (Project.loadFile_anywhere h)).bind fun project _ => ?_
  split
  · exact fail_anywhere _
  · exact pure_anywhere _

/-! ### From the targets to their outputs -/

theorem generateAll_anywhere (result : GenerationResult)
    (h : ∀ t ∈ targets, t.idl.isAbsolute = true ∧ t.output.isAbsolute = true) :
    (generateAll result targets : Run (StateM FileSystem) Stop GenerationResult).Anywhere := by
  induction targets generalizing result with
  | nil => exact pure_anywhere _
  | cons t rest ih =>
    obtain ⟨hidl, houtput⟩ := h t List.mem_cons_self
    refine (orExit_anywhere (Target.generate_anywhere hidl houtput)).bind fun next _ => ?_
    refine (record_anywhere _).bind fun _ _ => ?_
    exact ih _ fun u hu => h u (List.mem_cons_of_mem t hu)

theorem generateTargets_anywhere
    (h : ∀ t ∈ targets, t.idl.isAbsolute = true ∧ t.output.isAbsolute = true) :
    (generateTargets targets : Run (StateM FileSystem) Stop Unit).Anywhere :=
  (generateAll_anywhere {} h).bind fun _ _ =>
    (forIn_record_anywhere (fun warning => .printed (.markup (warningLine warning))) _).bind
      fun _ _ => pure_anywhere _

/-- **The targets of an absolute project file are generated alike from anywhere.** -/
theorem runGenerate_anywhere (h : file.isAbsolute = true) (output : Option Path) (flags : Flags) :
    (runGenerate none output flags (some file) : Run (StateM FileSystem) Stop Unit).Anywhere := by
  refine (projectTargets_anywhere h flags).bind fun targets hends => ?_
  obtain ⟨fs, events, fs', hends⟩ := hends
  obtain ⟨_, hresolved⟩ := projectTargets_ends flags file fs
  have htargets : resolvedTargets flags fs file = .ok targets := (hresolved.unique hends).1
  exact generateTargets_anywhere (isAbsolute_of_mem_resolvedTargets htargets h)

/-! ### From the working directory to the project file -/

variable {w : Location}

theorem workingDirectory_seenFrom (fs : FileSystem) (w : Location) :
    (FileAccess.workingDirectory : StateM FileSystem Path).run (fs.seenFrom w) =
      (w.path, fs.seenFrom w) := rfl

theorem projectFile?_of_ok {found : Option Path}
    (h : (Project.find? w.path).Ends (fs.seenFrom w) (.ok found) [] (fs.seenFrom w)) :
    (projectFile? none).Ends (fs.seenFrom w) (.ok found) [] (fs.seenFrom w) :=
  (ask_ends (workingDirectory_seenFrom fs w)).bind (orExit_ends h)

theorem projectFile?_of_error {f : Failure}
    (h : (Project.find? w.path).Ends (fs.seenFrom w) (.error f) [] (fs.seenFrom w)) :
    (projectFile? none).Ends (fs.seenFrom w) (.error f.stop) f.shown (fs.seenFrom w) :=
  (ask_ends (workingDirectory_seenFrom fs w)).bind (orExit_ends_error h)

/-- With the file that is found, targets are resolved as with the file that is given. -/
theorem projectTargets_of_found {outcome : Except Stop (List Target)}
    (hfound : (projectFile? none).Ends fs (.ok (some file)) [] fs)
    (h : (projectTargets flags (some file)).Ends fs outcome events fs') :
    (projectTargets flags none).Ends fs outcome events fs' :=
  hfound.bind h

theorem runGenerate_of_found {outcome : Except Stop Unit} {output : Option Path}
    (hfound : (projectFile? none).Ends fs (.ok (some file)) [] fs)
    (h : (runGenerate none output flags (some file)).Ends fs outcome events fs') :
    (runGenerate none output flags none).Ends fs outcome events fs' := by
  unfold runGenerate projectTargets
  rw [bind_assoc]
  exact hfound.bind h

/-! ### From the working directory to the report -/

/-- A command line is `generate` with some flags, and names neither a document nor a project
file. -/
def Searches (flags : Flags) (verbose : Bool) (words : List Text) : Prop :=
  ∃ output, CommandLine.read words = some ⟨verbose, .generate none output flags none⟩

/-- From the working directory `w` the command `generate` finds `file`, resolves `targets`, ends
with an outcome, having shown some events, and leaves the files `fs'`. -/
structure GeneratesFrom (fs : FileSystem) (flags : Flags) (w : Location) (file : Path)
    (targets : Except Stop (List Target)) (outcome : Except Stop Unit) (events : Transcript)
    (fs' : FileSystem) : Prop where
  finds : (Project.find? w.path).Ends (fs.seenFrom w) (.ok (some file)) [] (fs.seenFrom w)
  resolves : ∃ shown, (projectTargets flags none).Ends (fs.seenFrom w) targets shown (fs.seenFrom w)
  reports {words : List Text} {verbose : Bool} (h : Searches flags verbose words) :
    (runWords words : StateM FileSystem CommandReport).run (fs.seenFrom w) =
      (report verbose outcome events, fs'.seenFrom w)

theorem resolvedTargets_seenFrom (h : file.isAbsolute = true) :
    resolvedTargets flags (fs.seenFrom w) file = resolvedTargets flags fs file := by
  unfold resolvedTargets FileSystem.projectIn
  rw [FileSystem.read_request_seenFrom h]

/-- The nearest directory that has a project file decides what is done. -/
theorem generatesFrom_of_true {P : Location} (hP : fs.projectAt P = .ok true) (flags : Flags) :
    ∃ outcome events fs', ∀ w, fs.Nearest P w →
      GeneratesFrom fs flags w (Project.fileIn P.path)
        (resolvedTargets flags fs (Project.fileIn P.path)) outcome events fs' := by
  have hfile : (Project.fileIn P.path).isAbsolute = true := rfl
  obtain ⟨outcome, events, fs', hends⟩ :=
    (runGenerate_anywhere hfile none flags).exists_ends fs
  refine ⟨outcome, events, fs', fun w hw => ?_⟩
  have hfinds := Project.find?_of_true hw hP
  have hfound := projectFile?_of_ok hfinds
  obtain ⟨shown, htargets⟩ := projectTargets_ends flags (Project.fileIn P.path) (fs.seenFrom w)
  rw [resolvedTargets_seenFrom hfile] at htargets
  refine ⟨hfinds, ⟨shown, projectTargets_of_found hfound htargets⟩, ?_⟩
  rintro words verbose ⟨output, hwords⟩
  exact runWords_of_ends hwords (runGenerate_of_found hfound (hends w))

theorem runWords_of_refused {P : Location} {answer : OsFault} {words : List Text} {verbose : Bool}
    (hP : fs.projectAt P = .error answer) (hw : fs.Nearest P w)
    (h : Searches flags verbose words) :
    (runWords words : StateM FileSystem CommandReport).run (fs.seenFrom w) =
      (⟨1, verbose, [], some (.refused answer)⟩, fs.seenFrom w) := by
  obtain ⟨output, hwords⟩ := h
  have hstops := projectFile?_of_error (Project.find?_of_error hw hP)
  exact runWords_of_ends hwords hstops.bind_error.bind_error

theorem runWords_of_lacking {words : List Text} {verbose : Bool}
    (hw : ∀ D : Location, D.names <+: w.names → fs.projectAt D = .ok false)
    (h : Searches flags verbose words) :
    (runWords words : StateM FileSystem CommandReport).run (fs.seenFrom w) =
      (⟨1, verbose, [.error "No IDL given and no idlforge.toml found"], none⟩, fs.seenFrom w) := by
  obtain ⟨output, hwords⟩ := h
  have hnone := projectFile?_of_ok (Project.find?_of_none hw)
  have hfails : Ends (fail "No IDL given and no idlforge.toml found" :
      Run (StateM FileSystem) Stop (List Target)) (fs.seenFrom w)
      (.error (.exit 1)) [.error "No IDL given and no idlforge.toml found"] (fs.seenFrom w) :=
    fail_ends _ _
  exact runWords_of_ends hwords (hnone.bind hfails).bind_error

/-- **A project is generated alike from everywhere below its directory.**  All working directories
from which a directory is the first on the way up that does not answer no have one run: they find
the same file, resolve the same targets, which are the entries of the file in their order, and the
reports and the files afterwards are the same.  If the path of the file is too long in that
directory, or no directory answers yes, the command exits with one and leaves the files alone. -/
theorem generate_fromNearest (fs : FileSystem) (flags : Flags) :
    (∀ P : Location, fs.projectAt P = .ok true →
      (∃ outcome events fs', ∀ w, fs.Nearest P w →
        GeneratesFrom fs flags w (Project.fileIn P.path)
          (resolvedTargets flags fs (Project.fileIn P.path)) outcome events fs') ∧
      ∀ targets, resolvedTargets flags fs (Project.fileIn P.path) = .ok targets →
        ∃ octets defaults values,
          FileSystem.request (Project.fileIn P.path) fs.read = .ok octets ∧
          Project.Declares octets defaults values ∧
          List.Forall₂ (Project.Resolves P.path defaults flags) values targets) ∧
    (∀ {P w : Location} {answer : OsFault}, fs.Nearest P w → fs.projectAt P = .error answer →
      ∀ {words verbose}, Searches flags verbose words →
        (runWords words : StateM FileSystem CommandReport).run (fs.seenFrom w) =
          (⟨1, verbose, [], some (.refused (Refusal.longName.answer (Project.fileIn P.path)))⟩,
            fs.seenFrom w)) ∧
    ∀ w : Location, (∀ D : Location, D.names <+: w.names → fs.projectAt D ≠ .ok true) →
      ∀ {words verbose}, Searches flags verbose words → ∃ shown failure,
        (runWords words : StateM FileSystem CommandReport).run (fs.seenFrom w) =
          (⟨1, verbose, shown, failure⟩, fs.seenFrom w) := by
  refine ⟨fun P hP => ⟨generatesFrom_of_true hP flags, fun targets h => ?_⟩, ?_, ?_⟩
  · have hresolves := resolvedTargets_resolves h
    rwa [Project.parent_fileIn] at hresolves
  · intro P w answer hw hP words verbose hwords
    rw [← FileSystem.projectAt_eq_error hP]
    exact runWords_of_refused hP hw hwords
  · intro w hlacking words verbose hwords
    rcases fs.nearest_cases w with ⟨P, hw, hne⟩ | hnone
    · cases hP : fs.projectAt P with
      | error answer => exact ⟨_, _, runWords_of_refused hP hw hwords⟩
      | ok there =>
        cases there with
        | true => exact absurd hP (hlacking P hw.atOrAbove)
        | false => exact absurd hP hne
    · exact ⟨_, _, runWords_of_lacking hnone hwords⟩

/-- The text of a project file with two targets. -/
def nestedSampleText : String :=
  "[[targets]]\nidl = \"a.json\"\noutput = \"../a.py\"\n" ++
    "[[targets]]\nidl = \"/b.json\"\noutput = \"b.py\"\nmodule = \"m\"\n"

/-- A directory, and those that are nested in it. -/
def nestedSample (depth : Nat) : Location :=
  ⟨FileName.octets "forge" :: List.replicate depth (List.replicate 226 100)⟩

/-- Nested directories; the outermost has a project file. -/
def nestedSampleFiles (project : Bytes) : FileSystem where
  nodes := ((nestedSample 0).child (FileName.octets Project.fileName), .file project) ::
    (List.range 19).map fun depth => (nestedSample depth, .directory)

/-- The targets of the project file in the outermost directory. -/
def nestedSampleTargets : List Target :=
  [⟨⟨1, ["forge", "a.json"]⟩, ⟨1, ["forge", "..", "a.py"]⟩, "a", "IDL", false⟩,
    ⟨⟨1, ["b.json"]⟩, ⟨1, ["forge", "b.py"]⟩, "m", "IDL", false⟩]

theorem nestedSample_fromNearest :
    let fs := nestedSampleFiles nestedSampleText.toUTF8.data.toList
    let file : Path := ⟨1, ["forge", "idlforge.toml"]⟩
    ∃ outcome events fs',
      GeneratesFrom fs {} (nestedSample 0) file (.ok nestedSampleTargets) outcome events fs' ∧
      GeneratesFrom fs {} (nestedSample 2) file (.ok nestedSampleTargets) outcome events fs' := by
  intro fs file
  have hfile : Project.fileIn (nestedSample 0).path = file := by decide +kernel
  have hholds : fs.projectAt (nestedSample 0) = .ok true := by decide +kernel
  have hwithin : fs.Nearest (nestedSample 0) (nestedSample 2) :=
    FileSystem.nearest_of_upward (by decide +kernel) (by decide +kernel)
  have hread : FileSystem.request file fs.read = .ok nestedSampleText.toUTF8.data.toList := by
    decide +kernel
  have hdecode : Utf8.decode false nestedSampleText.toUTF8.data.toList =
      .ok (Text.ofString nestedSampleText) := by
    decide +kernel
  have htable : Toml.read (Project.unifyLineEnds (Text.ofString nestedSampleText)) =
      .ok [("targets", .array [
        .table [("idl", .text "a.json"), ("output", .text "../a.py")],
        .table [("idl", .text "/b.json"), ("output", .text "b.py"), ("module", .text "m")]])] := by
    cbv
  have hproject : fs.projectIn file =
      .ok { root := ⟨1, ["forge"]⟩, targets := nestedSampleTargets } :=
    bind_eq_ok.2 ⟨_, mapError_eq_ok.2 hread,
      bind_eq_ok.2 ⟨_, mapError_eq_ok.2 hdecode,
        bind_eq_ok.2 ⟨_, mapError_eq_ok.2 htable, by decide +kernel⟩⟩⟩
  have htargets : resolvedTargets {} fs file = .ok nestedSampleTargets := by
    unfold resolvedTargets
    rw [hproject]
    decide +kernel
  obtain ⟨⟨outcome, events, fs', hgenerates⟩, -⟩ :=
    (generate_fromNearest fs {}).1 (nestedSample 0) hholds
  rw [hfile, htargets] at hgenerates
  exact ⟨outcome, events, fs', hgenerates _ (fs.nearest_self _), hgenerates _ hwithin⟩

/-- Only the outermost directory has a project file, but it is not found from the innermost one:
there the path of such a file is already too long. -/
theorem deepSample_not_found :
    let fs := nestedSampleFiles []
    let upper := nestedSample 0
    let lower := nestedSample 18
    (fs.content? (upper.child (FileName.octets Project.fileName)) = some [] ∧
      upper.names <+: lower.names ∧ fs.node? lower = some .directory ∧
      ∀ D : Location, upper.names <+: D.names → D.names <+: lower.names → D ≠ upper →
        fs.node? (D.child (FileName.octets Project.fileName)) = none) ∧
    (∃ file targets outcome events fs',
      GeneratesFrom fs {} upper file targets outcome events fs') ∧
    ∀ file targets outcome events fs',
      ¬GeneratesFrom fs {} lower file targets outcome events fs' := by
  intro fs upper lower
  have hlacking : ∀ D ∈ lower.upward, upper.names <+: D.names → D ≠ upper →
      fs.node? (D.child (FileName.octets Project.fileName)) = none := by
    decide +kernel
  have hholds : fs.projectAt upper = .ok true := by decide +kernel
  have hrefuses : (fs.projectAt lower).toBool = false := by decide +kernel
  refine ⟨⟨by decide +kernel, by decide +kernel, by decide +kernel, fun D hD hD' =>
    hlacking D (Location.mem_upward_iff.2 hD') hD⟩, ?_, ?_⟩
  · obtain ⟨outcome, events, fs', hgenerates⟩ := generatesFrom_of_true hholds {}
    exact ⟨_, _, outcome, events, fs', hgenerates upper (fs.nearest_self upper)⟩
  · intro file targets outcome events fs' hlower
    cases hanswer : fs.projectAt lower with
    | ok there =>
      rw [hanswer] at hrefuses
      cases hrefuses
    | error answer =>
      have hends := Project.find?_of_error (fs.nearest_self lower) hanswer
      cases (hlower.finds.unique hends).1

end Command
end AnchorIdl
