/-
# Which project files are accepted, and what they set

A table is a project file if each part of it is absent or of the right kind:

| part | may be |
| --- | --- |
| `generate` | a table of settings |
| `targets` | an array of tables of settings, each with a text `idl` and a text `output` |
| `module`, `binding` of a table of settings | a text |
| `strict` of a table of settings | a truth value |

`WellFormed` says this.  `Flawed` says what a flaw finds wrong with a table, and
a table has a flaw exactly if it is not well-formed (`ofTable_cases`).

What a target is called and how it is read is set on three levels: by the flags,
by its entry and by the table `generate`.  A level that sets something goes
before those below it (`Settings.over`), and what no level sets has a value of
its own:

| setting | not set by | if no level sets it |
| --- | --- | --- |
| module | an empty text on any level | named after the output |
| binding | an empty flag | `IDL` |
| strict | | no |
-/

import AnchorIdl.Proofs.Project.Targets

namespace AnchorIdl

/-! ### Levels of settings -/

/-- What one level sets. -/
structure Settings where
  module : Option Text := none
  binding : Option Text := none
  strict : Option Bool := none

/-- The settings of a level and of those below it. -/
def Settings.over (upper lower : Settings) : Settings where
  module := upper.module.or lower.module
  binding := upper.binding.or lower.binding
  strict := upper.strict.or lower.strict

/-- What the flags set: an empty name sets nothing. -/
def Flags.settings (flags : Flags) : Settings where
  module := nonEmpty? flags.module
  binding := nonEmpty? flags.binding
  strict := flags.strict

/-- A target is called and read as it is set. -/
structure Target.Follows (t : Target) (s : Settings) : Prop where
  module : t.module = s.module.getD (Bindings.moduleNameFor t.output)
  binding : t.binding = s.binding.getD "IDL"
  strict : t.strict = s.strict.getD false

/-- Defaults say what is set on the lowest level. -/
structure Defaults.Follow (d : Defaults) (s : Settings) : Prop where
  module : nonEmpty? d.module = s.module
  binding : d.binding = s.binding.getD "IDL"
  strict : d.strict = s.strict.getD false

namespace Project

open Document (bind_eq_error bind_eq_ok forall_of_forall₂ pure_eq_ok)
open Toml

variable {root : Path} {table generate entry : Table} {values : List Value} {key : Text}
  {flaw : ProjectFlaw} {flags : Flags} {defaults : Defaults}

/-! ### Well-formed tables -/

/-- A key is absent or has a value of one kind. -/
def MayHave {α : Type} (kind : α → Value) (t : Table) (key : Text) : Prop :=
  ∃ value : Option α, t.get? key = value.map kind

/-- A key has a value of another kind. -/
def Differs {α : Type} (kind : α → Value) (t : Table) (key : Text) : Prop :=
  ∃ value, t.get? key = some value ∧ ∀ a, value ≠ kind a

/-- Each setting in a table is absent or of the right kind. -/
structure IsSettings (t : Table) : Prop where
  module : MayHave .text t "module"
  binding : MayHave .text t "binding"
  strict : MayHave .boolean t "strict"

/-- A table of settings with two paths. -/
structure IsEntry (entry : Table) : Prop extends IsSettings entry where
  idl : ∃ given, entry.get? "idl" = some (.text given)
  output : ∃ given, entry.get? "output" = some (.text given)

/-- A table is a project file. -/
structure WellFormed (t : Table) : Prop where
  generate : MayHave .table t "generate"
  defaults {generate : Table} (h : t.get? "generate" = some (.table generate)) : IsSettings generate
  targets : MayHave .array t "targets"
  entries {values : List Value} (h : t.get? "targets" = some (.array values)) :
    ∀ value ∈ values, ∃ entry : Table, value = .table entry ∧ IsEntry entry

/-- What a flaw finds wrong with a table of settings. -/
inductive FlawedSettings (t : Table) : ProjectFlaw → Prop
  | text {key : Text} (hkey : key = "module" ∨ key = "binding") (h : Differs .text t key) :
      FlawedSettings t (.notText key)
  | boolean (h : Differs .boolean t "strict") : FlawedSettings t (.notBoolean "strict")

/-- What a flaw finds wrong with the entry at `index`. -/
inductive FlawedEntry (index : Nat) : Value → ProjectFlaw → Prop
  | noTable {value : Value} (h : ∀ entry, value ≠ .table entry) :
      FlawedEntry index value (.targetNoTable index)
  | path {entry : Table} {key : Text} (hkey : key = "idl" ∨ key = "output")
      (h : ∀ given, entry.get? key ≠ some (.text given)) :
      FlawedEntry index (.table entry) (.targetWithout index key)
  | settings {entry : Table} {flaw : ProjectFlaw} (h : FlawedSettings entry flaw) :
      FlawedEntry index (.table entry) flaw

/-- What a flaw finds wrong with a table that should be a project file. -/
inductive Flawed (t : Table) : ProjectFlaw → Prop
  | noTable (h : Differs .table t "generate") : Flawed t (.notTable "generate")
  | defaults {generate : Table} {flaw : ProjectFlaw}
      (present : t.get? "generate" = some (.table generate)) (h : FlawedSettings generate flaw) :
      Flawed t flaw
  | noList (h : Differs .array t "targets") : Flawed t .targetsNoList
  | target {values : List Value} {index : Nat} {value : Value} {flaw : ProjectFlaw}
      (present : t.get? "targets" = some (.array values)) (hvalue : values[index]? = some value)
      (h : FlawedEntry index value flaw) : Flawed t flaw

theorem Differs.not_mayHave {α : Type} {kind : α → Value} (h : Differs kind table key) :
    ¬ MayHave kind table key := by
  rintro ⟨value, hvalue⟩
  obtain ⟨other, hother, hne⟩ := h
  rw [hother] at hvalue
  cases value with
  | none => cases hvalue
  | some a => exact hne a (Option.some.inj hvalue)

theorem FlawedSettings.not_isSettings (h : FlawedSettings entry flaw) : ¬ IsSettings entry := by
  intro hsettings
  cases h with
  | text hkey h =>
    rcases hkey with rfl | rfl
    · exact h.not_mayHave hsettings.module
    · exact h.not_mayHave hsettings.binding
  | boolean h => exact h.not_mayHave hsettings.strict

theorem FlawedEntry.not_isEntry {index : Nat} {value : Value} (h : FlawedEntry index value flaw) :
    ¬ ∃ entry : Table, value = .table entry ∧ IsEntry entry := by
  rintro ⟨entry, rfl, hentry⟩
  cases h with
  | noTable h => exact h entry rfl
  | path hkey h =>
    rcases hkey with rfl | rfl
    · exact hentry.idl.elim h
    · exact hentry.output.elim h
  | settings h => exact h.not_isSettings hentry.toIsSettings

/-- What has a flaw is not well-formed. -/
theorem Flawed.not_wellFormed (h : Flawed table flaw) : ¬ WellFormed table := by
  intro hformed
  cases h with
  | noTable h => exact h.not_mayHave hformed.generate
  | defaults present h => exact h.not_isSettings (hformed.defaults present)
  | noList h => exact h.not_mayHave hformed.targets
  | target present hvalue h =>
    exact h.not_isEntry (hformed.entries present _ (List.mem_of_getElem? hvalue))

/-! ### Reading -/

theorem differs_of_readText? (h : readText? entry key = .error flaw) :
    flaw = .notText key ∧ Differs .text entry key := by
  unfold readText? at h
  split at h
  · cases h
  · cases h
  · next value hother hvalue =>
    exact ⟨(Except.error.inj h).symm, value, hvalue, fun name hname => hother name hname⟩

theorem differs_of_readBoolean? (h : readBoolean? entry key = .error flaw) :
    flaw = .notBoolean key ∧ Differs .boolean entry key := by
  unfold readBoolean? at h
  split at h
  · cases h
  · cases h
  · next value hother hvalue =>
    exact ⟨(Except.error.inj h).symm, value, hvalue, fun b hb => hother b hb⟩

theorem lacks_of_readPath {index : Nat} (h : readPath index entry key = .error flaw) :
    flaw = .targetWithout index key ∧ ∀ given, entry.get? key ≠ some (.text given) := by
  unfold readPath at h
  split at h
  · cases h
  · next hother => exact ⟨(Except.error.inj h).symm, fun given hgiven => hother given hgiven⟩

/-- Reading the settings of a table fails at one of them. -/
theorem flawedSettings_of_read {α : Type} {use : Option Text → Option Text → Option Bool → α}
    (h : (do
      let module ← readText? entry "module"
      let binding ← readText? entry "binding"
      let strict ← readBoolean? entry "strict"
      pure (use module binding strict)) = .error flaw) : FlawedSettings entry flaw := by
  simp only [bind_eq_error] at h
  rcases h with hmodule | ⟨_, -, hbinding | ⟨_, -, hstrict | ⟨_, -, hpure⟩⟩⟩
  · obtain ⟨rfl, hdiffers⟩ := differs_of_readText? hmodule
    exact .text (.inl rfl) hdiffers
  · obtain ⟨rfl, hdiffers⟩ := differs_of_readText? hbinding
    exact .text (.inr rfl) hdiffers
  · obtain ⟨rfl, hdiffers⟩ := differs_of_readBoolean? hstrict
    exact .boolean hdiffers
  · cases hpure

theorem flawedEntry_of_readTarget {index : Nat} {value : Value}
    (h : readTarget root defaults index value = .error flaw) : FlawedEntry index value flaw := by
  cases value with
  | table entry =>
    rcases bind_eq_error.1 h with hidl | ⟨idl, -, h⟩
    · obtain ⟨rfl, hlacks⟩ := lacks_of_readPath hidl
      exact .path (.inl rfl) hlacks
    rcases bind_eq_error.1 h with houtput | ⟨output, -, h⟩
    · obtain ⟨rfl, hlacks⟩ := lacks_of_readPath houtput
      exact .path (.inr rfl) hlacks
    exact .settings (flawedSettings_of_read h)
  | _ =>
    obtain rfl := Except.error.inj h
    exact .noTable nofun

/-- Reading the entries from the one at `start` on fails at one of them. -/
theorem flawedEntry_of_readTargets {start : Nat}
    (h : readTargets root defaults start values = .error flaw) :
    ∃ i value, values[i]? = some value ∧ FlawedEntry (start + i) value flaw := by
  induction values generalizing start with
  | nil => cases h
  | cons value rest ih =>
    simp only [readTargets, bind_eq_error] at h
    rcases h with hvalue | ⟨_, -, hrest | ⟨_, -, hpure⟩⟩
    · exact ⟨0, value, rfl, flawedEntry_of_readTarget hvalue⟩
    · obtain ⟨i, other, hother, hflawed⟩ := ih hrest
      refine ⟨i + 1, other, hother, ?_⟩
      rwa [Nat.add_right_comm, Nat.add_assoc] at hflawed
    · cases hpure

/-- An empty table is a table of settings. -/
theorem isSettings_nil : IsSettings [] := ⟨⟨none, rfl⟩, ⟨none, rfl⟩, ⟨none, rfl⟩⟩

theorem flawed_of_readDefaults (h : readDefaults table = .error flaw) : Flawed table flaw := by
  simp only [readDefaults, pure_bind] at h
  split at h
  · exact absurd isSettings_nil (flawedSettings_of_read h).not_isSettings
  · next generate present => exact .defaults present (flawedSettings_of_read h)
  · next value hother hvalue =>
    obtain rfl := Except.error.inj h
    exact .noTable ⟨value, hvalue, fun generate h => hother generate h⟩

/-- **What is no project file has a flaw,** and the error is about it. -/
theorem flawed_of_ofTable (h : ofTable root table = .error flaw) : Flawed table flaw := by
  rcases bind_eq_error.1 h with hdefaults | ⟨defaults, -, h⟩
  · exact flawed_of_readDefaults hdefaults
  dsimp only at h
  split at h
  · cases h
  · next values present =>
    rcases bind_eq_error.1 h with htargets | ⟨targets, -, hpure⟩
    · obtain ⟨i, value, hvalue, hflawed⟩ := flawedEntry_of_readTargets htargets
      rw [Nat.zero_add] at hflawed
      exact .target present hvalue hflawed
    · cases hpure
  · next value hother hvalue =>
    obtain rfl := Except.error.inj h
    exact .noList ⟨value, hvalue, fun values h => hother values h⟩

/-! ### What is set -/

/-- What a table of settings sets: an empty module sets nothing, an empty binding does. -/
structure Sets (t : Table) (s : Settings) : Prop where
  module : ∃ name : Option Text, t.get? "module" = name.map .text ∧ s.module = nonEmpty? name
  binding : t.get? "binding" = s.binding.map .text
  strict : t.get? "strict" = s.strict.map .boolean

/-- What a project file sets on the lowest level, and its entries; absent parts are empty. -/
structure Declared (t : Table) (lower : Settings) (values : List Value) : Prop where
  generate : ∃ generate : Option Table, t.get? "generate" = generate.map .table ∧
    Sets (generate.getD []) lower
  targets : ∃ targets : Option (List Value), t.get? "targets" = targets.map .array ∧
    values = targets.getD []

/-- An entry of a project file in the directory `root`, and the target that it stands for between
the settings of the levels above and below it. -/
inductive Configures (root : Path) (upper lower : Settings) : Value → Target → Prop
  | mk {entry : Table} {target : Target} {settings : Settings} {idl output : Text}
      (hidl : entry.get? "idl" = some (.text idl))
      (houtput : entry.get? "output" = some (.text output)) (sets : Sets entry settings)
      (idl : LeadsFrom root idl target.idl) (output : LeadsFrom root output target.output)
      (follows : target.Follows (upper.over (settings.over lower))) :
      Configures root upper lower (.table entry) target

/-- A project is what a table declares. -/
structure Realises (project : Project) (root : Path) (lower : Settings) (values : List Value) :
    Prop where
  defaults : project.defaults.Follow lower
  targets (flags : Flags) :
    List.Forall₂ (Configures root flags.settings lower) values (project.targets.map flags.override)

variable {lower settings : Settings}

theorem Sets.isSettings (h : Sets entry settings) : IsSettings entry :=
  ⟨h.module.imp fun _ h => h.1, ⟨_, h.binding⟩, ⟨_, h.strict⟩⟩

theorem Configures.isEntry {upper : Settings} {value : Value} {target : Target}
    (h : Configures root upper lower value target) :
    ∃ entry : Table, value = .table entry ∧ IsEntry entry := by
  cases h with
  | mk hidl houtput sets =>
    exact ⟨_, rfl, { sets.isSettings with idl := ⟨_, hidl⟩, output := ⟨_, houtput⟩ }⟩

/-- What declares a project is well-formed. -/
theorem Declared.wellFormed {project : Project} (h : Declared table lower values)
    (hproject : project.Realises root lower values) : WellFormed table := by
  obtain ⟨⟨generate, hgenerate, hsets⟩, targets, htargets, rfl⟩ := h
  refine ⟨⟨generate, hgenerate⟩, fun {entries} present => ?_, ⟨targets, htargets⟩,
    fun {items} present => ?_⟩
  · obtain rfl : generate = some entries := by
      rw [present] at hgenerate
      cases generate <;> simp_all
    exact hsets.isSettings
  · obtain rfl : targets = some items := by
      rw [present] at htargets
      cases targets <;> simp_all
    exact forall_of_forall₂ (hproject.targets {}).flip fun _ _ h => h.isEntry

/-- Reading the settings of a table yields what it sets. -/
theorem sets_of_read {α : Type} {use : Option Text → Option Text → Option Bool → α} {a : α}
    (h : (do
      let module ← readText? entry "module"
      let binding ← readText? entry "binding"
      let strict ← readBoolean? entry "strict"
      pure (use module binding strict)) = .ok a) :
    ∃ module settings, Sets entry settings ∧ settings.module = nonEmpty? module ∧
      a = use module settings.binding settings.strict := by
  simp only [bind_eq_ok, pure_eq_ok] at h
  obtain ⟨module, hmodule, binding, hbinding, strict, hstrict, rfl⟩ := h
  exact ⟨module, ⟨nonEmpty? module, binding, strict⟩,
    ⟨⟨module, get?_of_readText? hmodule, rfl⟩, get?_of_readText? hbinding,
      get?_of_readBoolean? hstrict⟩, rfl, rfl⟩

/-- The defaults are what the table `generate` sets. -/
theorem sets_of_readDefaults (h : readDefaults table = .ok defaults) :
    ∃ lower, (∃ generate : Option Table, table.get? "generate" = generate.map .table ∧
      Sets (generate.getD []) lower) ∧ defaults.Follow lower := by
  simp only [readDefaults, pure_bind] at h
  split at h
  · next hnone =>
    obtain ⟨module, lower, hsets, hmodule, rfl⟩ := sets_of_read h
    exact ⟨lower, ⟨none, hnone, hsets⟩, hmodule.symm, rfl, rfl⟩
  · next generate present =>
    obtain ⟨module, lower, hsets, hmodule, rfl⟩ := sets_of_read h
    exact ⟨lower, ⟨some generate, present, hsets⟩, hmodule.symm, rfl, rfl⟩
  · cases h

/-! ### Precedence -/

theorem firstName_cons_eq (last : Text) (name : Option Text) (names : List (Option Text)) :
    firstName last (name :: names) = (nonEmpty? name).getD (firstName last names) := by
  unfold firstName
  rw [List.findSome?_cons]
  cases nonEmpty? name <;> rfl

/-- A target that stands for an entry has what the flags set, then the entry, then the defaults. -/
theorem Resolves.configures {value : Value} {target : Target} (hdefaults : defaults.Follow lower)
    (h : Resolves root defaults flags value target) :
    Configures root flags.settings lower value target := by
  cases h with
  | @mk _ _ _ _ name bound mode hidl houtput hname hbound hmode idl output module binding strict =>
    let settings : Settings := ⟨nonEmpty? name, bound, mode⟩
    have hsets : Sets _ settings := ⟨⟨name, hname, rfl⟩, hbound, hmode⟩
    refine .mk hidl houtput hsets idl output ⟨?_, ?_, ?_⟩
    · simp only [module, firstName_cons_eq, hdefaults.module, Settings.over, Flags.settings,
        Option.getD_or]
      rfl
    · simp only [binding, firstName_cons_eq, hdefaults.binding, Settings.over, Flags.settings,
        Option.getD_or]
      rfl
    · simp only [strict, hdefaults.strict, Settings.over, Flags.settings, Option.getD_or, settings]

/-- A target that stands for no entry has what the flags set, then the defaults. -/
theorem follows_target (hdefaults : defaults.Follow lower) (flags : Flags) (idl output : Path) :
    (flags.target defaults idl output).Follows (flags.settings.over lower) := by
  refine ⟨?_, ?_, ?_⟩
  · simp only [Flags.target, firstName_cons_eq, hdefaults.module, Settings.over, Flags.settings,
      Option.getD_or]
    rfl
  · simp only [Flags.target, firstName_cons_eq, hdefaults.binding, Settings.over, Flags.settings,
      Option.getD_or]
    rfl
  · simp only [Flags.target, hdefaults.strict, Settings.over, Flags.settings, Option.getD_or]

/-! ### Loading -/

/-- **A table is a project file, or it has a flaw.** -/
theorem ofTable_cases (root : Path) (table : Toml.Table) :
    (∃ flaw, ofTable root table = .error flaw ∧ Flawed table flaw ∧ ¬ WellFormed table) ∨
    ∃ project lower values, ofTable root table = .ok project ∧ WellFormed table ∧
      Declared table lower values ∧ project.Realises root lower values := by
  cases h : ofTable root table with
  | error flaw => exact .inl ⟨flaw, rfl, flawed_of_ofTable h, (flawed_of_ofTable h).not_wellFormed⟩
  | ok project =>
    obtain ⟨hdefaults, htargets⟩ := ofTable_eq_ok h
    obtain ⟨lower, hgenerate, hfollow⟩ := sets_of_readDefaults hdefaults
    have hdeclares :
        ∃ values, Declared table lower values ∧ project.Realises root lower values := by
      rcases htargets with ⟨hnone, hnil⟩ | ⟨values, present, htargets⟩
      · refine ⟨[], ⟨hgenerate, none, hnone, rfl⟩, hfollow, fun flags => ?_⟩
        rw [hnil]
        exact .nil
      · refine ⟨values, ⟨hgenerate, some values, present, rfl⟩, hfollow, fun flags => ?_⟩
        exact (readTargets_forall₂ flags htargets).imp fun _ _ h => h.configures hfollow
    obtain ⟨values, hdeclared, hrealises⟩ := hdeclares
    exact .inr ⟨project, lower, values, rfl, hdeclared.wellFormed hrealises, hdeclared, hrealises⟩

end Project
end AnchorIdl
