/-
# Generating a target wholly or not at all

Generating a target has four stages: it reads the document, loads it, renders
the bindings and writes them.  Only the last one changes files, so what a target
leaves follows from the stage at which it fails.

| stage | fails if | leaves |
| --- | --- | --- |
| reading | the document cannot be read | every file and directory as it was |
| loading | the document is no schema | every file and directory as it was |
| rendering | a name cannot be used, or a text has no octets | every file and directory as it was |
| writing | the directory or the file is refused | every file as it was, perhaps more directories |

`Target.Fails t fs f fs'` is this table, one constructor for each row and for
each of the two ways in which rendering fails, and `Target.Succeeds` is the way
through all four: the output holds exactly the octets of the bindings that
`generate` makes of the document, and no other file has changed.  There is
nothing between the two (`Target.generate_cases`).  Rendering a schema may also
fail at an integer that is too long, but a document in a file has none.
-/

import AnchorIdl.Generation.Files
import AnchorIdl.Proofs.Bindings.Printing
import AnchorIdl.Proofs.Files.System
import AnchorIdl.Proofs.Run

namespace AnchorIdl

variable {fs fs' : FileSystem}

/-! ### The outcome of generating -/

section

variable {strict : Bool} {source : Document.Source} {name binding : Text} {schema : Schema}

/-- A document that is loaded and whose names can be used has bindings if they can be printed. -/
theorem generate_eq_ok {writer after : BindingsWriter} {text : Text}
    (hload : (Document.load strict source).outcome = .ok schema)
    (hmake : BindingsWriter.make schema name binding = .ok writer)
    (hwrite : writer.write = .ok (text, after)) :
    (generate strict source name binding).outcome = .ok text := by
  obtain ⟨hnames, rfl⟩ := BindingsWriter.make_eq_ok.1 hmake
  rw [generate_of_loaded hload, Bindings.emit_outcome, hnames]
  exact (BindingsWriter.write_eq_ok.1 hwrite).1

end

/-! ### Reading and loading -/

namespace Document

/-- The error of a document that cannot be read. -/
def unreadable (file : Path) (answer : OsFault) : IdlError :=
  .io "Failed to read IDL" file (some answer)

/-- A rejection that is an error of the library is that of a faulty document. -/
theorem Rejection.toFailure_eq_error {rejection : Rejection} {file : Option Path} {e : IdlError}
    (h : rejection.toFailure file = .error e) :
    ∃ kind message path, e = .schema kind message path file := by
  cases rejection with
  | unencodable | longInteger | overlong => cases h
  | fault f =>
    rw [Rejection.toFailure, Fault.toError?] at h
    cases hmessage : f.complaint.message with
    | none =>
      rw [hmessage] at h
      cases h
    | some message =>
      rw [hmessage] at h
      exact ⟨_, message, _, (Failure.error.inj h).symm⟩

theorem loadFile_of_unread {file : Path} {fault : FileFault} (strict : Bool)
    (h : FileSystem.request file fs.read = .error fault) :
    (loadFile strict file).Logs fs (.error (fault.toFailure (unreadable file))) fs := by
  have hread : (FileAccess.readFile file : StateM FileSystem _).run fs = (.error fault, fs) := by
    rw [← h]
    rfl
  exact (Run.attempt_logs (unreadable file) hread).bind_error

/-- A document that is read is loaded, and its file goes into the context of its faults. -/
theorem loadFile_of_read {file : Path} {content : Bytes} (strict : Bool)
    (h : FileSystem.request file fs.read = .ok content) :
    (loadFile strict file).Logs fs
      ((Document.load strict (.octets content)).outcome.mapError (·.toFailure (some file))) fs := by
  have hread : (FileAccess.readFile file : StateM FileSystem _).run fs = (.ok content, fs) := by
    rw [← h]
    rfl
  refine (Run.attempt_logs (unreadable file) hread).bind ?_
  exact (Run.tell_logs _ _ _ fs).bind (Run.ofLogged_logs _ fs)

end Document

/-! ### Writing -/

/-- The error of an output that cannot be written. -/
def unwritable (file : Path) (answer : OsFault) : IdlError :=
  .io "Failed to write generated source" file (some answer)

theorem writeSource_of_unencodable {source : Text} {fault : Utf8.EncodeFault} (file : Path)
    (h : Utf8.encode source = .error fault) (fs : FileSystem) :
    (writeSource file source).Logs fs (.error (.unencodable fault)) fs := by
  unfold writeSource
  rw [h]
  exact Run.throw_logs _ fs

/-- **A source is written wholly or not at all.** -/
theorem writeSource_cases {source : Text} {octets : Bytes} (file : Path)
    (h : Utf8.encode source = .ok octets) (fs : FileSystem) :
    (∃ here fs', (writeSource file source).Logs fs (.ok ()) fs' ∧ file.LeadsTo fs.working here ∧
        fs.OnlyWritten [⟨here, octets⟩] (file.parent.Passes fs.working) fs') ∨
      ∃ fault fs', (writeSource file source).Logs fs
          (.error (FileFault.toFailure (unwritable file) fault)) fs' ∧
        fs.OnlyWritten [] (file.parent.Passes fs.working) fs' := by
  unfold writeSource
  rw [h]
  obtain ⟨answer, fs₁, hmake, hmade⟩ := FileSystem.makeDirectories_onlyWritten file.parent fs
  have hmakes := Run.attempt_logs (unwritable file) hmake
  cases answer with
  | error fault => exact .inr ⟨fault, fs₁, hmakes.bind_error, hmade⟩
  | ok _ =>
    rcases FileSystem.writeFile_cases file octets fs₁ (file.parent.Passes fs.working) with
      ⟨here, fs₂, hwrite, hlead, hwritten⟩ | ⟨fault, hwrite⟩
    · have hwrites := Run.attempt_logs (unwritable file) hwrite
      rw [hmade.working] at hlead
      refine .inl ⟨here, fs₂, ?_, hlead, hmade.trans hwritten⟩
      exact hmakes.bind (hwrites.bind (Run.tell_logs _ _ _ fs₂))
    · have hwrites := Run.attempt_logs (unwritable file) hwrite
      exact .inr ⟨fault, fs₁, hmakes.bind hwrites.bind_error, hmade⟩

/-! ### Rendering -/

namespace Bindings

variable {schema : Schema} {output : Path} {name binding source : Text}
  {writer after : BindingsWriter}

theorem emitFile_of_misnamed {e : IdlError}
    (h : BindingsWriter.make schema name binding = .error e) :
    (emitFile schema output name binding).Logs fs (.error (.error e)) fs := by
  unfold emitFile
  rw [h]
  exact (Run.ofLogged_logs (.lift (.error (Failure.error e))) fs).bind_error

/-- With names that can be used, and bindings that can be printed, only the writing can fail. -/
theorem emitFile_of_unwritten {f : Failure}
    (h : BindingsWriter.make schema name binding = .ok writer)
    (hprints : writer.write = .ok (source, after))
    (hwrite : (writeSource output source).Logs fs (.error f) fs') :
    (emitFile schema output name binding).Logs fs (.error f) fs' := by
  unfold emitFile
  rw [h]
  refine (Run.ofLogged_logs (.lift (.ok writer)) fs).bind ?_
  refine (Run.lift_logs hprints fs).bind ?_
  refine (Run.forIn_tell_logs (fun w => ⟨.debug, .bindings, w⟩) _ fs).bind ?_
  exact hwrite.bind_error

theorem emitFile_of_written (h : BindingsWriter.make schema name binding = .ok writer)
    (hprints : writer.write = .ok (source, after))
    (hwrite : (writeSource output source).Logs fs (.ok ()) fs') :
    ∃ result, (emitFile schema output name binding).Logs fs (.ok result) fs' ∧
      result.warnings = after.warnings := by
  unfold emitFile
  rw [h]
  let artifacts : Members :=
    [("binding", .str binding),
      ("instructions", .ofTexts (schema.instructions.map Instruction.name))]
  refine ⟨⟨[output], artifacts, after.warnings⟩, ?_, rfl⟩
  refine (Run.ofLogged_logs (.lift (.ok writer)) fs).bind ?_
  refine (Run.lift_logs hprints fs).bind ?_
  refine (Run.forIn_tell_logs (fun w => ⟨.debug, .bindings, w⟩) _ fs).bind ?_
  exact hwrite.bind ((Run.tell_logs _ _ _ fs').bind (Run.pure_logs _ fs'))

end Bindings

/-! ### The stages together -/

namespace Target

/-- The octets that a target writes: its document is read, the bindings of its schema are generated
under its names, and they are encoded. -/
def Emits (t : Target) (fs : FileSystem) (octets : Bytes) : Prop :=
  ∃ content source, FileSystem.request t.idl fs.read = .ok content ∧
    (AnchorIdl.generate t.strict (.octets content) t.module t.binding).outcome = .ok source ∧
    Utf8.encode source = .ok octets

/-- The places where a target may make directories: those on the way to its output. -/
def Room (t : Target) (working : Location) : Location → Prop := t.output.parent.Passes working

/-- A target is generated: `w` is what it writes, and `warnings` are those of its result. -/
structure Succeeds (t : Target) (fs : FileSystem) (w : FileSystem.Written) (warnings : List Text)
    (fs' : FileSystem) : Prop where
  ends : ∃ result, t.generate.Logs fs (.ok result) fs' ∧ result.warnings = warnings
  emits : t.Emits fs w.content
  place : t.output.LeadsTo fs.working w.place
  onlyWritten : fs.OnlyWritten [w] (t.Room fs.working) fs'

/-- How the generation of a target fails, and what it leaves. -/
inductive Fails (t : Target) (fs : FileSystem) : Failure → FileSystem → Prop
  | unread {fault : FileFault} (read : FileSystem.request t.idl fs.read = .error fault) :
      Fails t fs (fault.toFailure (Document.unreadable t.idl)) fs
  | unloaded {content : Bytes} {rejection : Document.Rejection}
      (read : FileSystem.request t.idl fs.read = .ok content)
      (load : (Document.load t.strict (.octets content)).outcome = .error rejection) :
      Fails t fs (rejection.toFailure (some t.idl)) fs
  | misnamed {content : Bytes} {schema : Schema} {e : IdlError}
      (read : FileSystem.request t.idl fs.read = .ok content)
      (load : (Document.load t.strict (.octets content)).outcome = .ok schema)
      (make : BindingsWriter.make schema t.module t.binding = .error e) :
      Fails t fs (.error e) fs
  | unencodable {content : Bytes} {source : Text} {fault : Utf8.EncodeFault}
      (read : FileSystem.request t.idl fs.read = .ok content)
      (generated :
        (AnchorIdl.generate t.strict (.octets content) t.module t.binding).outcome = .ok source)
      (encode : Utf8.encode source = .error fault) :
      Fails t fs (.unencodable fault) fs
  | unwritten {octets : Bytes} {fault : FileFault} {fs' : FileSystem} (emits : t.Emits fs octets)
      (onlyWritten : fs.OnlyWritten [] (t.Room fs.working) fs') :
      Fails t fs (fault.toFailure (unwritable t.output)) fs'

/-- **A target is generated or fails at one of the stages,** and only logs. -/
theorem generate_cases (t : Target) (fs : FileSystem) :
    (∃ w warnings fs', t.Succeeds fs w warnings fs') ∨
      ∃ f fs', t.generate.Logs fs (.error f) fs' ∧ t.Fails fs f fs' := by
  cases hread : FileSystem.request t.idl fs.read with
  | error fault =>
    exact .inr ⟨_, fs, (Document.loadFile_of_unread t.strict hread).bind_error, .unread hread⟩
  | ok content =>
    have hloads := Document.loadFile_of_read t.strict hread
    cases hload : (Document.load t.strict (.octets content)).outcome with
    | error rejection =>
      rw [hload] at hloads
      exact .inr ⟨_, fs, hloads.bind_error, .unloaded hread hload⟩
    | ok schema =>
      rw [hload] at hloads
      cases hmake : BindingsWriter.make schema t.module t.binding with
      | error e =>
        exact .inr ⟨_, fs, hloads.bind (Bindings.emitFile_of_misnamed hmake),
          .misnamed hread hload hmake⟩
      | ok writer =>
        obtain ⟨source, after, hprints⟩ :=
          BindingsWriter.exists_write hmake (Document.Source.short_octets content) hload
        have hgenerate := generate_eq_ok hload hmake hprints
        cases hencode : Utf8.encode source with
        | error fault =>
          have hwrites := writeSource_of_unencodable t.output hencode fs
          exact .inr ⟨_, fs, hloads.bind (Bindings.emitFile_of_unwritten hmake hprints hwrites),
            .unencodable hread hgenerate hencode⟩
        | ok octets =>
          have hemits : t.Emits fs octets := ⟨content, _, hread, hgenerate, hencode⟩
          rcases writeSource_cases t.output hencode fs with
            ⟨here, fs', hwrites, hlead, honly⟩ | ⟨fault, fs', hwrites, honly⟩
          · obtain ⟨result, hends, hwarnings⟩ := Bindings.emitFile_of_written hmake hprints hwrites
            exact .inl ⟨⟨here, octets⟩, _, fs', ⟨result, hloads.bind hends, hwarnings⟩, hemits,
              hlead, honly⟩
          · exact .inr ⟨_, fs', hloads.bind (Bindings.emitFile_of_unwritten hmake hprints hwrites),
              .unwritten hemits honly⟩

variable {t : Target} {f : Failure}

/-- A target that stops with a failure has failed at one of the stages. -/
theorem fails_of_raises (h : t.generate.Logs fs (.error f) fs') : t.Fails fs f fs' := by
  rcases t.generate_cases fs with ⟨_, _, _, hsucceeds⟩ | ⟨_, _, hraises, hfails⟩
  · obtain ⟨_, hends, -⟩ := hsucceeds.ends
    cases (h.unique hends).1
  · obtain ⟨hf, rfl⟩ := h.unique hraises
    cases hf
    exact hfails

/-- **A target that fails writes nothing.** -/
theorem Fails.onlyWritten (h : t.Fails fs f fs') : fs.OnlyWritten [] (t.Room fs.working) fs' := by
  cases h with
  | unread | unloaded | misnamed | unencodable => exact .refl fs _
  | unwritten emits onlyWritten => exact onlyWritten

/-- **Where a target fails before it writes, all is as it was:** an error of the library that is not
about the output leaves no directory either. -/
theorem Fails.unchanged {e : IdlError} (h : t.Fails fs (.error e) fs') :
    (∃ answer, e = unwritable t.output answer) ∨ fs' = fs := by
  generalize hf : Failure.error e = f at h
  cases h with
  | unread | unloaded | misnamed | unencodable => exact .inr rfl
  | @unwritten _ fault _ _ _ =>
    cases fault with
    | refused answer =>
      simp only [FileFault.toFailure, Failure.error.injEq] at hf
      exact .inl ⟨answer, hf⟩
    | path fault => cases fault <;> cases hf

end Target
end AnchorIdl
