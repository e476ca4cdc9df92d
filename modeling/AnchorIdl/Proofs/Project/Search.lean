/-
# Finding the nearest project file

The search begins in the working directory and goes up.  In each directory it asks
whether the project file is there (`FileSystem.projectAt`), goes on after a no,
and ends at the first other answer.  So what it finds depends on the directory
where it ends and not on the one where it began:

| the first answer that is no `no` | the search |
| --- | --- |
| yes | has found the file of that directory |
| a refusal to tell | ends with the refusal |
| none, also at the root | has found nothing |

The answer is yes if the path of the file leads to one (`projectAt_eq_true_iff`),
and a refusal is that this path is too long (`projectAt_eq_error`).
`Nearest` says that all directories on the way up to another one answer no, and
`nearest_cases` that these are all the ways in which a search can go.
-/

import AnchorIdl.Project.Files
import AnchorIdl.Proofs.Document.Reading
import AnchorIdl.Proofs.Files.Absolute
import AnchorIdl.Proofs.Run

namespace AnchorIdl

open Run

/-! ### Directories above a directory -/

namespace Location

/-- A location as an absolute path. -/
def path (here : Location) : Path := ⟨1, here.names.map FileName.decode⟩

/-- A location and those above it, nearest first. -/
def upward (here : Location) : List Location :=
  (List.range (here.names.length + 1)).map fun i => ⟨here.names.take (here.names.length - i)⟩

theorem ancestors_path (here : Location) : here.path.ancestors = here.upward.map path := by
  simp [Path.ancestors, path, upward, Function.comp_def, List.map_take]

theorem mem_upward_iff {here D : Location} : D ∈ here.upward ↔ D.names <+: here.names := by
  obtain ⟨names⟩ := D
  simp only [upward, List.mem_map, List.mem_range, mk.injEq]
  constructor
  · rintro ⟨i, -, rfl⟩
    exact List.take_prefix _ _
  · intro hpre
    have hlen := hpre.length_le
    refine ⟨here.names.length - names.length, by omega, ?_⟩
    rw [show here.names.length - (here.names.length - names.length) = names.length by omega]
    exact (List.prefix_iff_eq_take.1 hpre).symm

/-- Two locations that are each at or above the other are one. -/
theorem eq_of_prefix {D P : Location} (h : D.names <+: P.names) (h' : P.names <+: D.names) :
    D = P := by
  obtain ⟨names⟩ := D
  exact congrArg mk (h.eq_of_length (Nat.le_antisymm h.length_le h'.length_le))

/-- Each location on the way up is strictly above those before it. -/
theorem pairwise_upward (here : Location) :
    here.upward.Pairwise fun D P => P.names <+: D.names ∧ D ≠ P := by
  refine List.pairwise_map.2 (List.pairwise_lt_range.imp_of_mem fun {i j} _ hj hlt => ?_)
  rw [List.mem_range] at hj
  refine ⟨List.take_prefix_take_left (by omega), fun heq => ?_⟩
  have hlength := congrArg (fun D : Location => D.names.length) heq
  simp only [List.length_take] at hlength
  omega

end Location

/-! ### The project file of a directory -/

/-- The path of the project file in a directory. -/
def Project.fileIn (directory : Path) : Path := directory ++ Path.ofText Project.fileName

theorem Project.fileIn_eq (directory : Path) :
    Project.fileIn directory = ⟨directory.slashes, directory.names ++ [Project.fileName]⟩ := rfl

theorem Project.parent_fileIn (directory : Path) :
    (Project.fileIn directory).parent = directory := by
  rw [Project.fileIn_eq, Path.parent, List.dropLast_concat]

namespace FileSystem

variable {fs : FileSystem} {P w : Location}

/-- The answer of a file system to the question whether there is a project file in a directory. -/
def projectAt (fs : FileSystem) (D : Location) : Except OsFault Bool :=
  ((FileAccess.isFile (Project.fileIn D.path) : StateM FileSystem _).run fs).1

theorem isFile_projectAt (fs : FileSystem) (w D : Location) :
    (FileAccess.isFile (Project.fileIn D.path) : StateM FileSystem _).run (fs.seenFrom w) =
      (fs.projectAt D, fs.seenFrom w) := by
  obtain ⟨answer, fs', hrun, hseen⟩ := isFile_anywhere (p := Project.fileIn D.path) rfl fs w
  have hunchanged : ((FileAccess.isFile (Project.fileIn D.path) :
      StateM FileSystem _).run (fs.seenFrom w)).2 = fs.seenFrom w := by
    simp only [FileAccess.isFile]
    split <;> rfl
  rw [hseen] at hunchanged ⊢
  rw [projectAt, hrun, ← hunchanged]

theorem projectAt_of_error {fault : PathFault}
    (h : (Project.fileIn P.path).route = .error fault) : fs.projectAt P = .ok false := by
  unfold projectAt
  simp only [FileAccess.isFile, h]
  rfl

theorem projectAt_of_ok {r : Route} (h : (Project.fileIn P.path).route = .ok r) :
    fs.projectAt P = (fs.isFile r).mapError (·.answer (Project.fileIn P.path)) := by
  unfold projectAt
  simp only [FileAccess.isFile, h]
  rfl

/-- The answer is yes exactly if the path leads to a file. -/
theorem projectAt_eq_true_iff : fs.projectAt P = .ok true ↔
    ∃ r content, (Project.fileIn P.path).route = .ok r ∧
      fs.find? r = .ok (some (.file content)) := by
  cases hroute : (Project.fileIn P.path).route with
  | error fault =>
    rw [projectAt_of_error hroute]
    simp
  | ok r =>
    rw [projectAt_of_ok hroute, Document.mapError_eq_ok, isFile_eq_true_iff]
    simp

/-- A refusal to answer is that the path is too long. -/
theorem projectAt_eq_error {answer : OsFault} (h : fs.projectAt P = .error answer) :
    answer = Refusal.longName.answer (Project.fileIn P.path) := by
  cases hroute : (Project.fileIn P.path).route with
  | error fault =>
    rw [projectAt_of_error hroute] at h
    cases h
  | ok r =>
    rw [projectAt_of_ok hroute] at h
    cases hfile : fs.isFile r with
    | ok there =>
      rw [hfile] at h
      cases h
    | error refusal =>
      rw [hfile, isFile_eq_error hfile] at h
      exact (Except.error.inj h).symm

/-- Going up from `w`, the directory `P` is the first one that does not answer no. -/
structure Nearest (fs : FileSystem) (P w : Location) : Prop where
  atOrAbove : P.names <+: w.names
  lacking : ∀ D : Location, P.names <+: D.names → D.names <+: w.names → D ≠ P →
    fs.projectAt D = .ok false

theorem nearest_self (fs : FileSystem) (P : Location) : Nearest fs P P :=
  ⟨List.prefix_rfl, fun _ hPD hDP hne => absurd (Location.eq_of_prefix hDP hPD) hne⟩

theorem nearest_of_upward (hP : P.names <+: w.names)
    (h : ∀ D ∈ w.upward, P.names <+: D.names → D ≠ P → fs.projectAt D = .ok false) :
    Nearest fs P w :=
  ⟨hP, fun D hPD hDw => h D (Location.mem_upward_iff.2 hDw) hPD⟩

/-- The directories below the nearest one all come before it on the way up. -/
theorem Nearest.upward_eq (h : Nearest fs P w) : ∃ before after, w.upward = before ++ P :: after ∧
    ∀ D ∈ before, fs.projectAt D = .ok false := by
  obtain ⟨before, after, heq⟩ := List.append_of_mem (Location.mem_upward_iff.2 h.atOrAbove)
  refine ⟨before, after, heq, fun D hD => ?_⟩
  have hpairs := w.pairwise_upward
  rw [heq, List.pairwise_append] at hpairs
  obtain ⟨habove, hne⟩ := hpairs.2.2 D hD P List.mem_cons_self
  refine h.lacking D habove (Location.mem_upward_iff.1 ?_) hne
  rw [heq]
  exact List.mem_append_left _ hD

/-- **A search ends at the nearest directory that does not answer no,** if there is one. -/
theorem nearest_cases (fs : FileSystem) (w : Location) :
    (∃ P, Nearest fs P w ∧ fs.projectAt P ≠ .ok false) ∨
      ∀ D : Location, D.names <+: w.names → fs.projectAt D = .ok false := by
  by_cases hall : ∀ D ∈ w.upward, fs.projectAt D = .ok false
  · exact .inr fun D hD => hall D (Location.mem_upward_iff.2 hD)
  left
  classical
  obtain ⟨P, hfind⟩ : ∃ P, w.upward.find? (fun D => fs.projectAt D ≠ .ok false) = some P := by
    rw [← Option.isSome_iff_exists, List.find?_isSome]
    simpa using hall
  obtain ⟨hanswer, before, after, heq, hbefore⟩ := List.find?_eq_some_iff_append.1 hfind
  have hP : P ∈ w.upward := List.mem_of_find?_eq_some hfind
  refine ⟨P, ⟨Location.mem_upward_iff.1 hP, fun D hPD hDw hne => ?_⟩, by simpa using hanswer⟩
  have hD := Location.mem_upward_iff.2 hDw
  rw [heq, List.mem_append, List.mem_cons] at hD
  rcases hD with hD | rfl | hD
  · simpa using hbefore D hD
  · exact absurd rfl hne
  · -- What comes after the directory is strictly above it, and so cannot be below it too.
    have hpairs := w.pairwise_upward
    rw [heq, List.pairwise_append, List.pairwise_cons] at hpairs
    obtain ⟨hDP, -⟩ := hpairs.2.1.1 D hD
    exact absurd (Location.eq_of_prefix hDP hPD) hne

end FileSystem

/-! ### Searches -/

namespace Project

variable {fs : FileSystem} {P w : Location}

/-- Directories that answer no are passed over. -/
theorem findIn_append {passed : List Location} {rest : List Path}
    {outcome : Except Failure (Option Path)} (h : ∀ D ∈ passed, fs.projectAt D = .ok false)
    (hrest : (findIn rest).Ends (fs.seenFrom w) outcome [] (fs.seenFrom w)) :
    (findIn (passed.map Location.path ++ rest)).Ends (fs.seenFrom w) outcome []
      (fs.seenFrom w) := by
  induction passed with
  | nil => exact hrest
  | cons D passed ih =>
    have hD := fs.isFile_projectAt w D
    rw [h D List.mem_cons_self] at hD
    exact (ask_ends hD).bind (ih fun D' hD' => h D' (List.mem_cons_of_mem D hD'))

/-- A search comes to the nearest directory that does not answer no, wherever it began. -/
theorem find?_of_findIn (h : fs.Nearest P w) {outcome : Except Failure (Option Path)}
    (hends : ∀ rest, (findIn (P.path :: rest)).Ends (fs.seenFrom w) outcome [] (fs.seenFrom w)) :
    (find? w.path).Ends (fs.seenFrom w) outcome [] (fs.seenFrom w) := by
  obtain ⟨before, after, heq, hbefore⟩ := h.upward_eq
  rw [find?, Location.ancestors_path, heq, List.map_append]
  exact findIn_append hbefore (hends _)

/-- **The search finds the file of the nearest directory that has one.** -/
theorem find?_of_true (h : fs.Nearest P w) (hP : fs.projectAt P = .ok true) :
    (find? w.path).Ends (fs.seenFrom w) (.ok (some (fileIn P.path))) [] (fs.seenFrom w) := by
  refine find?_of_findIn h fun rest => ?_
  have hanswer := fs.isFile_projectAt w P
  rw [hP] at hanswer
  exact (ask_ends hanswer).bind (pure_ends _ _)

/-- A refusal to answer ends the search. -/
theorem find?_of_error (h : fs.Nearest P w) {answer : OsFault}
    (hP : fs.projectAt P = .error answer) :
    (find? w.path).Ends (fs.seenFrom w) (.error (.refused answer)) [] (fs.seenFrom w) := by
  refine find?_of_findIn h fun rest => ?_
  have hanswer := fs.isFile_projectAt w P
  rw [hP] at hanswer
  exact (ask_ends hanswer).bind (throw_ends _ _)

/-- If all directories answer no, nothing is found. -/
theorem find?_of_none (h : ∀ D : Location, D.names <+: w.names → fs.projectAt D = .ok false) :
    (find? w.path).Ends (fs.seenFrom w) (.ok none) [] (fs.seenFrom w) := by
  have hnil : (findIn []).Ends (fs.seenFrom w) (.ok none) [] (fs.seenFrom w) := pure_ends none _
  have hall := findIn_append (fun D hD => h D (Location.mem_upward_iff.1 hD)) hnil
  rwa [List.append_nil, ← Location.ancestors_path] at hall

end Project
end AnchorIdl
