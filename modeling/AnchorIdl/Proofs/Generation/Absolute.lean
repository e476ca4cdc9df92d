/-
# Generating where all paths are absolute

A run does the same from anywhere (`Run.Anywhere`) if from every working directory
it has the same outcome, shows the same events and leaves the same files.  What
asks for no file does so, requests about absolute paths do (`Proofs.Files.Absolute`),
and so does what is put together from such parts.  A target whose two paths are
absolute is generated so (`Target.generate_anywhere`): its document is read and
its output is written at the same places.
-/

import AnchorIdl.Generation.Files
import AnchorIdl.Proofs.Files.Absolute
import AnchorIdl.Proofs.Run

namespace AnchorIdl

/-! ### Runs from anywhere -/

namespace Run

variable {ε α β : Type} {x : Run (StateM FileSystem) ε α}

/-- From every working directory a run ends alike, having shown the same, and leaves the same
files. -/
def Anywhere (x : Run (StateM FileSystem) ε α) : Prop :=
  ∀ fs w, ∃ outcome events fs',
    x.Ends fs outcome events fs' ∧ x.Ends (fs.seenFrom w) outcome events (fs'.seenFrom w)

/-- What ends alike from all files, and leaves them, does so from anywhere. -/
theorem Anywhere.of_ends {outcome : Except ε α}
    {events : Transcript} (h : ∀ fs, x.Ends fs outcome events fs) : x.Anywhere :=
  fun fs w => ⟨outcome, events, fs, h fs, h (fs.seenFrom w)⟩

/-- A run that does the same from anywhere ends in one way from all working directories. -/
theorem Anywhere.exists_ends (h : x.Anywhere) (fs : FileSystem) :
    ∃ outcome events, ∃ fs' : FileSystem, ∀ w,
      x.Ends (fs.seenFrom w) outcome events (fs'.seenFrom w) := by
  obtain ⟨outcome, events, fs', hends, -⟩ := h fs fs.working
  refine ⟨outcome, events, fs', fun w => ?_⟩
  obtain ⟨outcome', events', fs'', hends', hseen⟩ := h fs w
  obtain ⟨rfl, rfl, rfl⟩ := hends.unique hends'
  exact hseen

theorem pure_anywhere (a : α) : Anywhere (pure a : Run (StateM FileSystem) ε α) :=
  .of_ends (pure_ends a)

theorem throw_anywhere (e : ε) : Anywhere (throw e : Run (StateM FileSystem) ε α) :=
  .of_ends (throw_ends e)

theorem record_anywhere (event : Event) :
    Anywhere (record event : Run (StateM FileSystem) ε Unit) :=
  .of_ends (record_ends event)

theorem ofLogged_anywhere (x : Logged ε α) :
    Anywhere (ofLogged x : Run (StateM FileSystem) ε α) :=
  .of_ends (ofLogged_ends x)

theorem forIn_record_anywhere (event : α → Event) (l : List α) :
    Anywhere (forIn l PUnit.unit fun a _ => do
      (record (event a) : Run (StateM FileSystem) ε Unit)
      pure (.yield PUnit.unit)) :=
  .of_ends (forIn_record_ends event l)

theorem fail_anywhere (message : Text) :
    Anywhere (fail message : Run (StateM FileSystem) Stop α) :=
  .of_ends (fail_ends message)

/-- A sequence does the same from anywhere if its first part does, and its second part after
whatever the first part can yield. -/
theorem Anywhere.bind {f : α → Run (StateM FileSystem) ε β} (hx : x.Anywhere)
    (hf : ∀ a, (∃ fs events fs', x.Ends fs (.ok a) events fs') → (f a).Anywhere) :
    (x >>= f).Anywhere := by
  intro fs w
  obtain ⟨outcome, events, fs₁, hends, hseen⟩ := hx fs w
  cases outcome with
  | error e => exact ⟨.error e, events, fs₁, hends.bind_error, hseen.bind_error⟩
  | ok a =>
    obtain ⟨outcome, events', fs₂, hends', hseen'⟩ := hf a ⟨fs, events, fs₁, hends⟩ fs₁ w
    exact ⟨outcome, events ++ events', fs₂, hends.bind hends', hseen.bind hseen'⟩

theorem attempt_anywhere (raise : OsFault → IdlError)
    {request : StateM FileSystem (Except FileFault α)} (h : FileSystem.Anywhere request) :
    (attempt raise request).Anywhere := by
  intro fs w
  obtain ⟨answer, fs', hrun, hseen⟩ := h fs w
  exact ⟨_, [], fs', attempt_ends raise hrun, attempt_ends raise hseen⟩

theorem orExit_anywhere {x : Run (StateM FileSystem) Failure α} (h : x.Anywhere) :
    (orExit x).Anywhere := by
  intro fs w
  obtain ⟨outcome, events, fs', hends, hseen⟩ := h fs w
  cases outcome with
  | ok a => exact ⟨.ok a, events, fs', orExit_ends hends, orExit_ends hseen⟩
  | error f =>
    exact ⟨.error f.stop, events ++ f.shown, fs', orExit_ends_error hends,
      orExit_ends_error hseen⟩

end Run

/-! ### The stages of a target -/

open Run

theorem Document.loadFile_anywhere {file : Path} (h : file.isAbsolute = true) (strict : Bool) :
    (Document.loadFile strict file : Run (StateM FileSystem) Failure Schema).Anywhere := by
  refine (attempt_anywhere _ (FileSystem.readFile_anywhere h)).bind fun octets _ => ?_
  exact (record_anywhere _).bind fun _ _ => ofLogged_anywhere _

theorem writeSource_anywhere {file : Path} (h : file.isAbsolute = true) (source : Text) :
    (writeSource file source : Run (StateM FileSystem) Failure Unit).Anywhere := by
  unfold writeSource
  cases Utf8.encode source with
  | error fault => exact throw_anywhere _
  | ok octets =>
    have hparent : file.parent.isAbsolute = true := h
    refine (attempt_anywhere _ (FileSystem.makeDirectories_anywhere _ hparent)).bind fun _ _ => ?_
    refine (attempt_anywhere _ (FileSystem.writeFile_anywhere h octets)).bind fun _ _ => ?_
    exact record_anywhere _

theorem Bindings.emitFile_anywhere {output : Path} (h : output.isAbsolute = true)
    (schema : Schema) (name binding : Text) :
    (Bindings.emitFile schema output name binding :
      Run (StateM FileSystem) Failure GenerationResult).Anywhere := by
  refine (ofLogged_anywhere _).bind fun writer _ => ?_
  refine (ofLogged_anywhere _).bind fun _ _ => ?_
  refine (forIn_record_anywhere (fun w => .log ⟨.debug, .bindings, w⟩) _).bind fun _ _ => ?_
  refine (writeSource_anywhere h _).bind fun _ _ => ?_
  exact (record_anywhere _).bind fun _ _ => pure_anywhere _

/-- **A target with absolute paths is generated alike from anywhere.** -/
theorem Target.generate_anywhere {t : Target} (hidl : t.idl.isAbsolute = true)
    (houtput : t.output.isAbsolute = true) :
    (t.generate : Run (StateM FileSystem) Failure GenerationResult).Anywhere :=
  (Document.loadFile_anywhere hidl t.strict).bind fun schema _ =>
    Bindings.emitFile_anywhere houtput schema t.module t.binding

end AnchorIdl
