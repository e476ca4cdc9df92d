/-
# A run over many targets

Targets are generated one after the other, each from the files that those before
it have left, so the output of one may be the document or the output of a later
one.  `Generated fs targets writes warnings fs'` is the chain of the targets'
own steps, `Target.Succeeds` for each.

A run goes through such a chain as far as it gets.  Either the chain is that of
all targets, and the run `Completes`; or there is a first target that fails
(`FailsFirst`), the chain is that of the targets before it, and the run `Stops`
there.  `generateTargets_report` says what is seen and what is left in both
cases.

| | all targets are generated | target `t` is the first to fail |
| --- | --- | --- |
| exit code | zero | one |
| laid out | a line for each target, then one for each warning | a line for each target before `t` |
| files | the outputs hold what their last targets emit | so do those of the targets before `t` |
| other files | as they were | as they were |
-/

import AnchorIdl.Command.Session
import AnchorIdl.Proofs.Generation.Files

namespace AnchorIdl

open Run

/-! ### What is laid out -/

namespace Transcript

theorem printed_append (t u : Transcript) : printed (t ++ u) = printed t ++ printed u :=
  List.filterMap_append

theorem printed_log (lines : List LogLine) : printed (lines.map .log) = [] := by
  rw [printed, List.filterMap_map]
  exact List.filterMap_eq_nil_iff.2 fun _ _ => rfl

theorem printed_markup {α : Type} (text : α → Text) (l : List α) :
    printed (l.map fun a => .printed (.markup (text a))) = (l.map text).map .markup := by
  rw [printed, List.filterMap_map, List.map_map]
  exact congrFun List.filterMap_eq_map l

end Transcript

theorem Failure.printed_shown (f : Failure) : f.shown.printed = [] := by
  cases f <;> rfl

namespace Command

variable {fs fs' : FileSystem} {targets : List Target} {writes : List FileSystem.Written}
  {warnings : List Text}

/-! ### The chain of steps -/

/-- Targets are generated one after the other, each from the files that the one before it left. -/
inductive Generated : FileSystem → List Target → List FileSystem.Written → (warnings : List Text) →
    FileSystem → Prop
  | nil {fs : FileSystem} : Generated fs [] [] [] fs
  | cons {fs fs₁ fs' : FileSystem} {t : Target} {rest : List Target} {w : FileSystem.Written}
      {writes : List FileSystem.Written} {warnings later : List Text}
      (first : t.Succeeds fs w warnings fs₁) (others : Generated fs₁ rest writes later fs') :
      Generated fs (t :: rest) (w :: writes) (warnings ++ later) fs'

/-- The places where a run over some targets may make directories. -/
def Room (targets : List Target) (working here : Location) : Prop :=
  ∃ t ∈ targets, t.Room working here

/-- **Only the outputs change,** and each holds what its last target wrote. -/
theorem Generated.onlyWritten (h : Generated fs targets writes warnings fs') :
    fs.OnlyWritten writes (Room targets fs.working) fs' := by
  induction h with
  | nil => exact .refl _ _
  | @cons fs fs₁ _ t rest w writes _ _ first _ ih =>
    have hfirst : fs.OnlyWritten [w] (Room (t :: rest) fs.working) fs₁ :=
      first.onlyWritten.mono fun _ hroom => ⟨t, List.mem_cons_self, hroom⟩
    rw [hfirst.working] at ih
    exact hfirst.trans (ih.mono fun _ ⟨u, hu, hroom⟩ => ⟨u, List.mem_cons_of_mem t hu, hroom⟩)

/-- `t` is the first of some targets to fail: the targets `before` it are generated and leave the
files `between`, and from these it stops with the failure `f` and leaves the files `last`. -/
structure FailsFirst (targets : List Target) (fs : FileSystem) (before : List Target) (t : Target)
    (writes : List FileSystem.Written) (between : FileSystem) (f : Failure) (last : FileSystem) :
    Prop where
  targets_eq : ∃ after, targets = before ++ t :: after
  generated : ∃ warnings, Generated fs before writes warnings between
  raises : t.generate.Logs between (.error f) last

/-- **All targets are generated, or there is a first one that fails.** -/
theorem generated_or_failsFirst (targets : List Target) (fs : FileSystem) :
    (∃ writes warnings fs', Generated fs targets writes warnings fs') ∨
      ∃ before t writes between f last, FailsFirst targets fs before t writes between f last := by
  induction targets generalizing fs with
  | nil => exact .inl ⟨[], [], fs, .nil⟩
  | cons t rest ih =>
    rcases t.generate_cases fs with ⟨w, new, fs₁, hfirst⟩ | ⟨f, last, hraises, -⟩
    · rcases ih fs₁ with ⟨writes, warnings, fs', hothers⟩ | ⟨before, u, writes, between, f, last, h⟩
      · exact .inl ⟨w :: writes, new ++ warnings, fs', .cons hfirst hothers⟩
      · obtain ⟨after, rfl⟩ := h.targets_eq
        obtain ⟨warnings, hbefore⟩ := h.generated
        exact .inr ⟨t :: before, u, w :: writes, between, f, last, ⟨after, rfl⟩,
          ⟨new ++ warnings, .cons hfirst hbefore⟩, h.raises⟩
    · exact .inr ⟨[], t, [], fs, f, last, ⟨rest, rfl⟩, ⟨[], .nil⟩, hraises⟩

/-! ### Going through the chain -/

/-- A run over targets that are generated shows a line for each and gathers their warnings, and
goes on with those that follow from the files that they leave. -/
theorem generateAll_append (h : Generated fs targets writes warnings fs')
    (result : GenerationResult) :
    ∃ (total : GenerationResult) (events : Transcript),
      total.warnings = result.warnings ++ warnings ∧
      events.printed = (targets.map generatedLine).map .markup ∧
      ∀ rest outcome events' fs'', (generateAll total rest).Ends fs' outcome events' fs'' →
        (generateAll result (targets ++ rest)).Ends fs outcome (events ++ events') fs'' := by
  induction h generalizing result with
  | nil => exact ⟨result, [], (List.append_nil _).symm, rfl, fun _ _ _ _ hrest => hrest⟩
  | @cons fs fs₁ _ t _ _ _ _ later first _ ih =>
    obtain ⟨next, ⟨lines, hlogs⟩, rfl⟩ := first.ends
    obtain ⟨total, events, htotal, hprinted, hends⟩ := ih (result.merge next)
    have hline := printMarkup_ends (generatedLine t) fs₁
    refine ⟨total, lines.map .log ++ [.printed (.markup (generatedLine t))] ++ events, ?_, ?_, ?_⟩
    · rw [htotal]
      exact List.append_assoc ..
    · rw [Transcript.printed_append, Transcript.printed_append, Transcript.printed_log, hprinted]
      rfl
    · intro rest outcome events' fs'' hrest
      rw [List.append_assoc, List.append_assoc]
      exact (orExit_ends hlogs).bind (hline.bind (hends rest outcome events' fs'' hrest))

/-! ### Runs and their reports -/

theorem report_transcript (verbose : Bool) (outcome : Except Stop Unit) (t : Transcript) :
    (report verbose outcome t).transcript = t := by
  unfold report
  split <;> rfl

/-- A command line that is read runs its command. -/
theorem runWords_of_ends {words : List Text} {verbose : Bool} {command : Command}
    {outcome : Except Stop Unit} {events : Transcript} {fs' : FileSystem}
    (hwords : CommandLine.read words = some ⟨verbose, command⟩)
    (h : command.run.Ends fs outcome events fs') :
    (runWords words : StateM FileSystem CommandReport).run fs =
      (report verbose outcome events, fs') := by
  unfold runWords
  rw [hwords]
  have hrun := h []
  rw [List.nil_append] at hrun
  simp [hrun]
  rfl

/-- A failure ends a command with one. -/
theorem report_stop_code (verbose : Bool) (f : Failure) (t : Transcript) :
    (report verbose (.error f.stop) t).code = 1 := by
  cases f <;> rfl

/-- What is seen of a run in which every target was generated, and what it leaves. -/
structure Completes (targets : List Target) (fs : FileSystem) (writes : List FileSystem.Written)
    (warnings : List Text) (report : CommandReport) (fs' : FileSystem) : Prop where
  generated : Generated fs targets writes warnings fs'
  code : report.code = 0
  failure : report.failure = none
  printed : report.transcript.printed =
    targets.map (fun t => .markup ("[green]Generated " ++ Markup.escape t.output.display ++
      "[/green] (" ++ t.module ++ "." ++ t.binding ++ ")")) ++
    warnings.map fun warning => .markup ("[yellow]Warning:[/yellow] " ++ Markup.escape warning)
  onlyWritten : fs.OnlyWritten writes (Room targets fs.working) fs'

/-- What is seen of a run that ends with the failure `f` of the target `t`, after the targets
`before` it left the files `between`, and what it leaves. -/
structure Stops (before : List Target) (t : Target) (fs : FileSystem)
    (writes : List FileSystem.Written) (between : FileSystem) (f : Failure)
    (report : CommandReport) (fs' : FileSystem) : Prop where
  fails : t.Fails between f fs'
  code : report.code = 1
  failure : ∀ e, f = .error e → report.failure = none
  shown : f.shown <:+ report.transcript
  printed : report.transcript.printed =
    before.map fun t => .markup ("[green]Generated " ++ Markup.escape t.output.display ++
      "[/green] (" ++ t.module ++ "." ++ t.binding ++ ")")
  onlyWritten : fs.OnlyWritten writes (Room (before ++ [t]) fs.working) fs'
  unchanged : ∀ e, f = .error e →
    (∃ answer, e = unwritable t.output answer) ∨ fs' = between

theorem generateTargets_of_generated (h : Generated fs targets writes warnings fs')
    (verbose : Bool) :
    ∃ outcome events, (generateTargets targets).Ends fs outcome events fs' ∧
      Completes targets fs writes warnings (report verbose outcome events) fs' := by
  obtain ⟨total, events, htotal, hprinted, hends⟩ := generateAll_append h {}
  obtain rfl : total.warnings = warnings := htotal
  have hall := hends [] _ _ _ (pure_ends total fs')
  rw [List.append_nil, List.append_nil] at hall
  have hwarnings := @forIn_record_ends Stop _
    (fun warning => .printed (.markup (warningLine warning))) total.warnings fs'
  refine ⟨.ok (), _, hall.bind (hwarnings.bind (pure_ends () fs')), h, rfl, rfl, ?_, h.onlyWritten⟩
  rw [report_transcript, List.append_nil, Transcript.printed_append, hprinted,
    Transcript.printed_markup, List.map_map, List.map_map]
  rfl

theorem generateTargets_of_failsFirst {before : List Target} {t : Target} {between : FileSystem}
    {f : Failure} (h : FailsFirst targets fs before t writes between f fs') (verbose : Bool) :
    ∃ outcome events, (generateTargets targets).Ends fs outcome events fs' ∧
      Stops before t fs writes between f (report verbose outcome events) fs' := by
  obtain ⟨after, rfl⟩ := h.targets_eq
  obtain ⟨warnings, hgenerated⟩ := h.generated
  obtain ⟨lines, hraises⟩ := h.raises
  have hfails := Target.fails_of_raises h.raises
  obtain ⟨total, events, -, hprinted, hends⟩ := generateAll_append hgenerated {}
  have hall := hends (t :: after) _ _ _ (orExit_ends_error hraises).bind_error
  refine ⟨.error f.stop, _, hall.bind_error, ?_⟩
  have hbefore : fs.OnlyWritten writes (Room (before ++ [t]) fs.working) between :=
    hgenerated.onlyWritten.mono fun _ ⟨u, hu, hroom⟩ => ⟨u, List.mem_append_left [t] hu, hroom⟩
  have hlast : between.OnlyWritten [] (Room (before ++ [t]) fs.working) fs' :=
    hfails.onlyWritten.mono fun _ hroom =>
      ⟨t, List.mem_append_right before List.mem_cons_self, hbefore.working ▸ hroom⟩
  constructor
  · exact hfails
  · exact report_stop_code verbose f _
  · rintro e rfl
    rfl
  · rw [report_transcript, ← List.append_assoc]
    exact List.suffix_append _ f.shown
  · rw [report_transcript, Transcript.printed_append, Transcript.printed_append,
      Transcript.printed_log, f.printed_shown, List.append_nil, hprinted, List.append_nil,
      List.map_map]
    rfl
  · exact List.append_nil writes ▸ hbefore.trans hlast
  · rintro e rfl
    exact hfails.unchanged

/-- **A run over targets leaves no partial output.**  If there is a first target that fails, it ends
the run with one, after those before it were generated and reported, and no warning is shown.  If
there is none, the run ends with zero, and the warnings of all targets follow their lines.  In both
cases each file holds what the last of the generated targets wrote to it, or what it held at the
start. -/
theorem generateTargets_report (targets : List Target) (fs : FileSystem) (verbose : Bool) :
    ∃ outcome events fs', (generateTargets targets).Ends fs outcome events fs' ∧
      (∀ before t writes between f last, FailsFirst targets fs before t writes between f last →
        last = fs' ∧ Stops before t fs writes between f (report verbose outcome events) fs') ∧
      ((¬∃ before t writes between f last, FailsFirst targets fs before t writes between f last) →
        ∃ writes warnings,
          Completes targets fs writes warnings (report verbose outcome events) fs') := by
  have hends : ∃ outcome events fs', (generateTargets targets).Ends fs outcome events fs' ∧
      ((¬∃ before t writes between f last, FailsFirst targets fs before t writes between f last) →
        ∃ writes warnings,
          Completes targets fs writes warnings (report verbose outcome events) fs') := by
    rcases generated_or_failsFirst targets fs with
      ⟨writes, warnings, fs', h⟩ | ⟨before, t, writes, between, f, fs', h⟩
    · obtain ⟨outcome, events, hends, hcompletes⟩ := generateTargets_of_generated h verbose
      exact ⟨outcome, events, fs', hends, fun _ => ⟨writes, warnings, hcompletes⟩⟩
    · obtain ⟨outcome, events, hends, -⟩ := generateTargets_of_failsFirst h verbose
      exact ⟨outcome, events, fs', hends, fun hnone => absurd ⟨_, _, _, _, _, _, h⟩ hnone⟩
  obtain ⟨outcome, events, fs', hends, hcompletes⟩ := hends
  -- Whichever first failure is given, the run it ends is this one, as a run ends in one way.
  refine ⟨outcome, events, fs', hends, fun before t writes between f last h => ?_, hcompletes⟩
  obtain ⟨outcome', events', hends', hstops⟩ := generateTargets_of_failsFirst h verbose
  obtain ⟨rfl, rfl, rfl⟩ := hends.unique hends'
  exact ⟨rfl, hstops⟩

/-- A document that is missing ends the run before the directory of the output is made. -/
example :
    let run : Run (StateM FileSystem) Stop Unit :=
      generateTargets [⟨⟨0, ["idl.json"]⟩, ⟨0, ["missing", "idl.py"]⟩, "idl", "IDL", false⟩]
    let final := (run.run.run []).run {}
    (report false final.1.1 final.1.2).code = 1 ∧ final.1.2.printed = [] ∧
      final.2.nodes = [] := by
  decide +kernel

end Command
end AnchorIdl
