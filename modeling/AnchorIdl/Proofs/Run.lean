/-
# How runs end

A run over the model of a file system is a function: from what was shown and
the files at its start to an outcome, what has been shown and the files at its
end.  No run looks at what was shown before, so all of it is said by
`Run.Ends x fs outcome events fs'`: from the files `fs` the run `x` ends with
`outcome`, having shown `events` itself, and leaves the files `fs'`.

There is one lemma for each way in which runs are put together.  A sequence ends
as its second part does from the files that the first has left (`Ends.bind`),
unless the first has stopped (`Ends.bind_error`); a loop that only shows events
shows those of its elements in order (`forIn_record_ends`).  A run ends in one
way only (`Ends.unique`).

Below the commands nothing but log lines is shown, and which ones is of no
account there: `Run.Logs x fs outcome fs'` leaves them open.
-/

import AnchorIdl.Command.Basic
import AnchorIdl.Files.System

namespace AnchorIdl
namespace Run

variable {ε δ α β : Type} {fs fs' fs'' : FileSystem} {events events' : Transcript}

/-- From the files `fs`, whatever was shown before, a run ends with an outcome, having shown some
events, and leaves the files `fs'`. -/
def Ends (x : Run (StateM FileSystem) ε α) (fs : FileSystem) (outcome : Except ε α)
    (events : Transcript) (fs' : FileSystem) : Prop :=
  ∀ shown, (x.run.run shown).run fs = ((outcome, shown ++ events), fs')

/-- **A run ends in one way.** -/
theorem Ends.unique {x : Run (StateM FileSystem) ε α} {outcome outcome' : Except ε α}
    (h : x.Ends fs outcome events fs') (h' : x.Ends fs outcome' events' fs'') :
    outcome = outcome' ∧ events = events' ∧ fs' = fs'' := by
  have same : ((outcome, [] ++ events), fs') = ((outcome', [] ++ events'), fs'') :=
    (h []).symm.trans (h' [])
  simpa [and_assoc] using same

/-! ### Sequences -/

theorem pure_ends (a : α) (fs : FileSystem) :
    Ends (pure a : Run (StateM FileSystem) ε α) fs (.ok a) [] fs := by
  intro shown
  rw [List.append_nil]
  rfl

theorem throw_ends (e : ε) (fs : FileSystem) :
    Ends (throw e : Run (StateM FileSystem) ε α) fs (.error e) [] fs := by
  intro shown
  rw [List.append_nil]
  rfl

variable {x : Run (StateM FileSystem) ε α} {f : α → Run (StateM FileSystem) ε β}

/-- What a sequence does after the first part is what the second part does. -/
theorem run_bind (shown : Transcript) :
    ((x >>= f).run.run shown).run fs =
      match (x.run.run shown).run fs with
      | ((.ok a, shown'), fs') => ((f a).run.run shown').run fs'
      | ((.error e, shown'), fs') => ((.error e, shown'), fs') := by
  rcases h : (x.run.run shown).run fs with ⟨⟨outcome, shown'⟩, fs'⟩
  cases outcome <;>
    simp [ExceptT.run_bind, StateT.run_bind, h] <;> rfl

theorem Ends.bind {a : α} {outcome : Except ε β} (hx : x.Ends fs (.ok a) events fs')
    (hf : (f a).Ends fs' outcome events' fs'') :
    (x >>= f).Ends fs outcome (events ++ events') fs'' := by
  intro shown
  rw [run_bind, hx shown, ← List.append_assoc]
  exact hf (shown ++ events)

theorem Ends.bind_error {e : ε} (hx : x.Ends fs (.error e) events fs') :
    (x >>= f).Ends fs (.error e) events fs' := by
  intro shown
  rw [run_bind, hx shown]

/-- From the files `fs`, whatever was shown before, a run shows some events and goes on as another
one. -/
def GoesOn (x : Run (StateM FileSystem) ε α) (fs : FileSystem) (events : Transcript)
    (y : Run (StateM FileSystem) ε α) : Prop :=
  ∀ shown, (x.run.run shown).run fs = (y.run.run (shown ++ events)).run fs

/-- A sequence whose first part leaves the files goes on as its second part. -/
theorem Ends.goesOn {a : α} (hx : x.Ends fs (.ok a) events fs) :
    (x >>= f).GoesOn fs events (f a) := by
  intro shown
  rw [run_bind, hx shown]

/-! ### Events -/

theorem record_ends (event : Event) (fs : FileSystem) :
    Ends (record event : Run (StateM FileSystem) ε Unit) fs (.ok ()) [event] fs :=
  fun _ => rfl

theorem tell_ends (level : LogLevel) (source : LogSource) (message : Text) (fs : FileSystem) :
    Ends (tell level source message : Run (StateM FileSystem) ε Unit) fs (.ok ())
      [.log ⟨level, source, message⟩] fs :=
  record_ends _ fs

theorem printMarkup_ends (text : Text) (fs : FileSystem) :
    Ends (printMarkup text : Run (StateM FileSystem) Stop Unit) fs (.ok ())
      [.printed (.markup text)] fs :=
  record_ends _ fs

/-- What only logs leaves the files alone. -/
theorem ofLogged_ends (x : Logged ε α) (fs : FileSystem) :
    Ends (ofLogged x : Run (StateM FileSystem) ε α) fs x.outcome (x.log.map .log) fs := by
  intro shown
  obtain ⟨log, outcome⟩ := x
  cases outcome <;> rfl

/-- Lifting a computation without a log ends as it does. -/
theorem lift_ends {x outcome : Except ε α} (h : x = outcome) (fs : FileSystem) :
    Ends (ofLogged (.lift x) : Run (StateM FileSystem) ε α) fs outcome [] fs := by
  subst h
  exact ofLogged_ends (.lift x) fs

/-- A loop that shows an event for each element shows them in order. -/
theorem forIn_record_ends (event : α → Event) (l : List α) (fs : FileSystem) :
    Ends (forIn l PUnit.unit fun a _ => do
        (record (event a) : Run (StateM FileSystem) ε Unit)
        pure (.yield PUnit.unit)) fs (.ok PUnit.unit) (l.map event) fs := by
  induction l with
  | nil => exact pure_ends _ fs
  | cons a l ih =>
    rw [List.forIn_cons, List.map_cons]
    have hstep : Ends (do
        (record (event a) : Run (StateM FileSystem) ε Unit)
        pure (ForInStep.yield PUnit.unit)) fs (.ok (.yield PUnit.unit)) [event a] fs :=
      (record_ends (event a) fs).bind (pure_ends _ fs)
    exact hstep.bind ih

/-! ### Requests -/

/-- Asking ends with the answer to the request, and leaves what the request leaves. -/
theorem ask_ends {request : StateM FileSystem α} {a : α} (h : request.run fs = (a, fs')) :
    Ends (ask request : Run (StateM FileSystem) ε α) fs (.ok a) [] fs' := by
  intro shown
  simp [ask, h]
  rfl

/-- An attempt fails as the request does, and leaves what the request leaves. -/
theorem attempt_ends (raise : OsFault → IdlError) {request : StateM FileSystem (Except FileFault α)}
    {answer : Except FileFault α} (h : request.run fs = (answer, fs')) :
    (attempt raise request).Ends fs (answer.mapError (·.toFailure raise)) [] fs' := by
  have hask : Ends (ask request : Run (StateM FileSystem) Failure _) fs (.ok answer) [] fs' :=
    ask_ends h
  cases answer with
  | ok a => exact hask.bind (pure_ends a fs')
  | error fault => exact hask.bind (throw_ends _ fs')

/-! ### Runs that only log -/

/-- From the files `fs` a run ends with an outcome, having only logged, and leaves the files
`fs'`. -/
def Logs (x : Run (StateM FileSystem) ε α) (fs : FileSystem) (outcome : Except ε α)
    (fs' : FileSystem) : Prop :=
  ∃ lines : List LogLine, x.Ends fs outcome (lines.map .log) fs'

theorem Logs.of_ends {outcome : Except ε α} (h : x.Ends fs outcome [] fs') :
    x.Logs fs outcome fs' :=
  ⟨[], h⟩

/-- A run that only logs still ends in one way. -/
theorem Logs.unique {outcome outcome' : Except ε α} (h : x.Logs fs outcome fs')
    (h' : x.Logs fs outcome' fs'') : outcome = outcome' ∧ fs' = fs'' := by
  obtain ⟨_, h⟩ := h
  obtain ⟨_, h'⟩ := h'
  obtain ⟨houtcome, -, hfs⟩ := h.unique h'
  exact ⟨houtcome, hfs⟩

theorem Logs.bind {a : α} {outcome : Except ε β} (hx : x.Logs fs (.ok a) fs')
    (hf : (f a).Logs fs' outcome fs'') : (x >>= f).Logs fs outcome fs'' := by
  obtain ⟨lines, hx⟩ := hx
  obtain ⟨lines', hf⟩ := hf
  refine ⟨lines ++ lines', ?_⟩
  rw [List.map_append]
  exact hx.bind hf

theorem Logs.bind_error {e : ε} (hx : x.Logs fs (.error e) fs') :
    (x >>= f).Logs fs (.error e) fs' :=
  hx.imp fun _ h => h.bind_error

theorem pure_logs (a : α) (fs : FileSystem) :
    Logs (pure a : Run (StateM FileSystem) ε α) fs (.ok a) fs :=
  .of_ends (pure_ends a fs)

theorem throw_logs (e : ε) (fs : FileSystem) :
    Logs (throw e : Run (StateM FileSystem) ε α) fs (.error e) fs :=
  .of_ends (throw_ends e fs)

theorem tell_logs (level : LogLevel) (source : LogSource) (message : Text) (fs : FileSystem) :
    Logs (tell level source message : Run (StateM FileSystem) ε Unit) fs (.ok ()) fs :=
  ⟨[⟨level, source, message⟩], tell_ends level source message fs⟩

theorem ofLogged_logs (x : Logged ε α) (fs : FileSystem) :
    Logs (ofLogged x : Run (StateM FileSystem) ε α) fs x.outcome fs :=
  ⟨x.log, ofLogged_ends x fs⟩

theorem lift_logs {x outcome : Except ε α} (h : x = outcome) (fs : FileSystem) :
    Logs (ofLogged (.lift x) : Run (StateM FileSystem) ε α) fs outcome fs :=
  h ▸ ofLogged_logs (.lift x) fs

theorem attempt_logs (raise : OsFault → IdlError) {request : StateM FileSystem (Except FileFault α)}
    {answer : Except FileFault α} (h : request.run fs = (answer, fs')) :
    (attempt raise request).Logs fs (answer.mapError (·.toFailure raise)) fs' :=
  .of_ends (attempt_ends raise h)

theorem forIn_tell_logs (line : α → LogLine) (l : List α) (fs : FileSystem) :
    Logs (forIn l PUnit.unit fun a _ => do
        (record (.log (line a)) : Run (StateM FileSystem) ε Unit)
        pure (.yield PUnit.unit)) fs (.ok PUnit.unit) fs := by
  refine ⟨l.map line, ?_⟩
  rw [List.map_map]
  exact forIn_record_ends (fun a => .log (line a)) l fs

/-! ### Exits -/

/-- Looking at the outcome of a run is running it. -/
theorem outcome_ends {outcome : Except ε α} (h : x.Ends fs outcome events fs') :
    (Run.outcome x : Run (StateM FileSystem) δ (Except ε α)).Ends fs (.ok outcome) events fs' := by
  intro shown
  simp [Run.outcome, h shown]
  rfl

end Run

/-- How a failure stops a command. -/
def Failure.stop : Failure → Stop
  | .error _ => .exit 1
  | f => .failure f

/-- The lines that show a failure: one for an error of the library, none for another failure. -/
def Failure.shown : Failure → Transcript
  | .error e => [.error e.display]
  | _ => []

namespace Run

variable {α : Type} {fs fs' : FileSystem} {events : Transcript}
  {x : Run (StateM FileSystem) Failure α}

/-- Failing shows the message and exits with one. -/
theorem fail_ends (message : Text) (fs : FileSystem) :
    Ends (fail message : Run (StateM FileSystem) Stop α) fs (.error (.exit 1)) [.error message]
      fs :=
  (record_ends (.error message) fs).bind (throw_ends (Stop.exit 1) fs)

theorem orExit_ends {a : α} (h : x.Ends fs (.ok a) events fs') :
    (orExit x).Ends fs (.ok a) events fs' := by
  rw [← List.append_nil events]
  exact (outcome_ends h).bind (pure_ends a fs')

/-- A failure is shown, if it is an error of the library, and stops the command. -/
theorem orExit_ends_error {f : Failure} (h : x.Ends fs (.error f) events fs') :
    (orExit x).Ends fs (.error f.stop) (events ++ f.shown) fs' := by
  have hout : Ends (Run.outcome x : Run (StateM FileSystem) Stop (Except Failure α)) fs
      (.ok (.error f)) events fs' := outcome_ends h
  cases f with
  | error e =>
    exact hout.bind (fail_ends e.display fs')
  | unencodable | undecodable | longInteger | overlong | nullInPath | refused =>
    exact hout.bind (throw_ends _ fs')

end Run
end AnchorIdl
