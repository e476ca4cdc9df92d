/-
# Absolute paths

A request about an absolute path is walked from the root, so the working
directory has no part in it: seen from another directory (`FileSystem.seenFrom`)
it has the same answer and changes the same location.  A series of requests of
which that is true is `Anywhere`; it is true of a sequence if it is true of its
parts (`Anywhere.bind`), and so of `makeDirectories`, which asks about a path and
the ones above it.
-/

import AnchorIdl.Proofs.Files.System

namespace AnchorIdl
namespace FileSystem

variable {α β : Type} {fs : FileSystem} {w : Location} {r : Route} {p : Path}

/-- The same files and directories, with another working directory. -/
def seenFrom (fs : FileSystem) (w : Location) : FileSystem := { fs with working := w }

/-! ### Routes from the root -/

theorem locate_seenFrom (h : r.absolute = true) : (fs.seenFrom w).locate r = fs.locate r := by
  have henter : (fs.seenFrom w).enter = fs.enter := rfl
  unfold locate
  rw [h, henter]
  rfl

theorem find?_seenFrom (h : r.absolute = true) : (fs.seenFrom w).find? r = fs.find? r := by
  have hnode : (fs.seenFrom w).node? = fs.node? := rfl
  rw [find?, locate_seenFrom h, hnode, find?]

theorem isFile_seenFrom (h : r.absolute = true) : (fs.seenFrom w).isFile r = fs.isFile r := by
  rw [isFile, find?_seenFrom h, isFile]

theorem isDirectory_seenFrom (h : r.absolute = true) :
    (fs.seenFrom w).isDirectory r = fs.isDirectory r := by
  rw [isDirectory, find?_seenFrom h, isDirectory]

theorem read_seenFrom (h : r.absolute = true) : (fs.seenFrom w).read r = fs.read r := by
  rw [read, find?_seenFrom h, read]

/-- A change that is made at the same location, or refused, from wherever it is asked for. -/
def SameChange (serve : FileSystem → Route → Except Refusal FileSystem) : Prop :=
  ∀ fs w r, r.absolute = true → serve (fs.seenFrom w) r = (serve fs r).map (·.seenFrom w)

theorem write_sameChange (content : Bytes) : SameChange (write content) := by
  intro fs w r h
  have hnode : (fs.seenFrom w).node? = fs.node? := rfl
  unfold write
  rw [locate_seenFrom h, hnode]
  cases fs.locate r with
  | error refusal => rfl
  | ok here =>
    simp only [Bind.bind, Except.bind]
    cases fs.node? here with
    | none => rfl
    | some node => cases node <;> rfl

theorem makeDirectory_sameChange : SameChange makeDirectory := by
  intro fs w r h
  have hnode : (fs.seenFrom w).node? = fs.node? := rfl
  unfold makeDirectory
  rw [locate_seenFrom h, hnode]
  cases fs.locate r with
  | error refusal => rfl
  | ok here =>
    simp only [Bind.bind, Except.bind]
    cases fs.node? here <;> rfl

/-! ### Requests about absolute paths -/

theorem absolute_of_route (hp : p.isAbsolute = true) (h : p.route = .ok r) :
    r.absolute = true := by
  unfold Path.route at h
  cases hwritten : (FileName.encode p.display).mapError PathFault.unencodable with
  | error fault =>
    rw [hwritten] at h
    cases h
  | ok written =>
    rw [hwritten] at h
    simp only [Bind.bind, Except.bind] at h
    split at h
    · cases h
    · rw [← Except.ok.inj h]
      exact hp

/-- Requests about an absolute path differ only if they do on routes from the root. -/
theorem request_congr {serve serve' : Route → Except Refusal α} (hp : p.isAbsolute = true)
    (h : ∀ r, r.absolute = true → serve r = serve' r) : request p serve = request p serve' := by
  unfold request
  cases hroute : p.route with
  | error fault => rfl
  | ok r =>
    change (serve r).mapError _ = (serve' r).mapError _
    rw [h r (absolute_of_route hp hroute)]

theorem request_map (serve : Route → Except Refusal α) (f : α → β) :
    request p (fun r => (serve r).map f) = (request p serve).map f := by
  unfold request
  cases p.route with
  | error fault => rfl
  | ok r =>
    change ((serve r).map f).mapError _ = ((serve r).mapError _).map f
    cases serve r <;> rfl

/-- The answer to a question about an absolute path is the same from everywhere. -/
theorem read_request_seenFrom (hp : p.isAbsolute = true) :
    request p (fs.seenFrom w).read = request p fs.read :=
  request_congr hp fun _ => read_seenFrom

/-! ### Series of requests -/

/-- Wherever the working directory is, requests have the same answer and change the same. -/
def Anywhere (x : StateM FileSystem α) : Prop :=
  ∀ fs w, ∃ a fs', x.run fs = (a, fs') ∧ x.run (fs.seenFrom w) = (a, fs'.seenFrom w)

theorem pure_anywhere (a : α) : Anywhere (pure a : StateM FileSystem α) :=
  fun fs _ => ⟨a, fs, rfl, rfl⟩

theorem Anywhere.bind {x : StateM FileSystem α} {f : α → StateM FileSystem β} (hx : Anywhere x)
    (hf : ∀ a, Anywhere (f a)) : Anywhere (x >>= f) := by
  intro fs w
  obtain ⟨a, fs₁, hrun, hseen⟩ := hx fs w
  obtain ⟨b, fs₂, hrun', hseen'⟩ := hf a fs₁ w
  refine ⟨b, fs₂, ?_, ?_⟩
  · rw [run_bind_of hrun, hrun']
  · rw [run_bind_of hseen, hseen']

theorem isFile_anywhere (hp : p.isAbsolute = true) :
    Anywhere (FileAccess.isFile p : StateM FileSystem _) := by
  intro fs w
  simp only [FileAccess.isFile]
  cases hroute : p.route with
  | error fault => exact ⟨_, fs, rfl, rfl⟩
  | ok r =>
    refine ⟨_, fs, rfl, ?_⟩
    rw [← isFile_seenFrom (w := w) (absolute_of_route hp hroute)]
    rfl

theorem isDirectory_anywhere (hp : p.isAbsolute = true) :
    Anywhere (FileAccess.isDirectory p : StateM FileSystem _) := by
  intro fs w
  simp only [FileAccess.isDirectory]
  cases hroute : p.route with
  | error fault => exact ⟨_, fs, rfl, rfl⟩
  | ok r =>
    refine ⟨_, fs, rfl, ?_⟩
    rw [← isDirectory_seenFrom (w := w) (absolute_of_route hp hroute)]
    rfl

theorem readFile_anywhere (hp : p.isAbsolute = true) :
    Anywhere (FileAccess.readFile p : StateM FileSystem _) := by
  intro fs w
  refine ⟨request p fs.read, fs, rfl, ?_⟩
  rw [← read_request_seenFrom (w := w) hp]
  rfl

theorem change_anywhere {serve : FileSystem → Route → Except Refusal FileSystem}
    (hp : p.isAbsolute = true) (h : SameChange serve) : Anywhere (change p serve) := by
  intro fs w
  have hseen : request p (serve (fs.seenFrom w)) = (request p (serve fs)).map (·.seenFrom w) := by
    rw [← request_map]
    exact request_congr hp (h fs w)
  cases hserve : request p (serve fs) with
  | error fault =>
    rw [hserve] at hseen
    exact ⟨_, fs, change_eq_error hserve, change_eq_error hseen⟩
  | ok fs' =>
    rw [hserve] at hseen
    exact ⟨_, fs', change_eq_ok hserve, change_eq_ok hseen⟩

theorem writeFile_anywhere (hp : p.isAbsolute = true) (content : Bytes) :
    Anywhere (FileAccess.writeFile p content : StateM FileSystem _) :=
  change_anywhere hp (write_sameChange content)

theorem makeDirectory_anywhere (hp : p.isAbsolute = true) :
    Anywhere (FileAccess.makeDirectory p : StateM FileSystem _) :=
  change_anywhere hp makeDirectory_sameChange

theorem settle_anywhere (hp : p.isAbsolute = true) (fault : FileFault) :
    Anywhere (FileAccess.settle p fault : StateM FileSystem _) := by
  unfold FileAccess.settle
  split
  · exact pure_anywhere _
  · refine (isDirectory_anywhere hp).bind fun there => ?_
    cases there <;> exact pure_anywhere _

/-- **Directories are made in the same places from everywhere.** -/
theorem makeDirectories_anywhere (p : Path) (hp : p.isAbsolute = true) :
    Anywhere (FileAccess.makeDirectories p : StateM FileSystem _) := by
  rw [FileAccess.makeDirectories]
  refine (makeDirectory_anywhere hp).bind fun answer => ?_
  cases answer with
  | ok _ => exact pure_anywhere _
  | error fault =>
    dsimp only
    split
    · exact settle_anywhere hp fault
    split
    · exact pure_anywhere _
    rename_i hnames
    have hshorter : p.parent.names.length < p.names.length := by
      have hpos := List.length_pos_iff.2 hnames
      simp only [Path.parent, List.length_dropLast]
      omega
    refine (makeDirectories_anywhere p.parent hp).bind fun answer => ?_
    cases answer with
    | error fault => exact pure_anywhere _
    | ok _ =>
      refine (makeDirectory_anywhere hp).bind fun answer => ?_
      cases answer with
      | ok _ => exact pure_anywhere _
      | error fault => exact settle_anywhere hp fault
termination_by p.names.length

end FileSystem
end AnchorIdl
