/-
# What a project file resolves to

A project file has a list of entries, and each of them is a target: the targets
stand in the order of the entries (`Project.Declares`, `readTargets_forall₂`).
What a target is follows from its entry, the defaults and the flags of the
command line, and from the directory of the file, never from anything else:

| part of a target | is |
| --- | --- |
| a path that is absolute | as it stands |
| a path that is relative | its names behind those of the directory, also a `..` |
| module | the first name of flag, entry, defaults and output |
| binding | the flag, else that of the entry, else the default |
| strict | the first that is set of flag, entry and defaults |

So if the directory is absolute, the paths of all targets are (`isAbsolute_of_mem`).
-/

import AnchorIdl.Project.Files
import AnchorIdl.Proofs.Document.Reading

namespace AnchorIdl
namespace Project

open Document (bind_eq_ok forall_of_forall₂ mapError_eq_ok pure_eq_ok)
open Toml

variable {root file : Path} {defaults : Defaults} {flags : Flags} {entry : Table}

/-! ### Entries and targets -/

/-- Where a path that is given in a file in the directory `root` leads. -/
inductive LeadsFrom (root : Path) (given : Text) : Path → Prop
  | absolute (h : (Path.ofText given).isAbsolute = true) : LeadsFrom root given (Path.ofText given)
  | relative (h : (Path.ofText given).isAbsolute = false) :
      LeadsFrom root given ⟨root.slashes, root.names ++ (Path.ofText given).names⟩

/-- An entry of a project file in the directory `root`, and the target that it stands for. -/
inductive Resolves (root : Path) (defaults : Defaults) (flags : Flags) : Value → Target → Prop
  | mk {entry : Table} {target : Target} {idl output : Text} {module binding : Option Text}
      {strict : Option Bool} (hidl : entry.get? "idl" = some (.text idl))
      (houtput : entry.get? "output" = some (.text output))
      (hmodule : entry.get? "module" = module.map .text)
      (hbinding : entry.get? "binding" = binding.map .text)
      (hstrict : entry.get? "strict" = strict.map .boolean)
      (idl : LeadsFrom root idl target.idl) (output : LeadsFrom root output target.output)
      (module : target.module = firstName (Bindings.moduleNameFor target.output)
        [flags.module, module, defaults.module])
      (binding : target.binding = firstName (binding.getD defaults.binding) [flags.binding])
      (strict : target.strict = flags.strict.getD (strict.getD defaults.strict)) :
      Resolves root defaults flags (.table entry) target

/-- The octets of a project file declare defaults, and the values of some entries. -/
def Declares (octets : Bytes) (defaults : Defaults) (values : List Value) : Prop :=
  ∃ text table, Utf8.decode false octets = .ok text ∧
    Toml.read (unifyLineEnds text) = .ok table ∧ readDefaults table = .ok defaults ∧
    table.get? "targets" = some (.array values)

/-! ### Reading -/

theorem leadsFrom_append (root : Path) (given : Text) :
    LeadsFrom root given (root ++ Path.ofText given) := by
  change LeadsFrom root given (root.append (Path.ofText given))
  unfold Path.append
  cases h : (Path.ofText given).isAbsolute with
  | true => exact .absolute h
  | false => exact .relative h

theorem LeadsFrom.isAbsolute {given : Text} {p : Path} (h : LeadsFrom root given p)
    (hroot : root.isAbsolute = true) : p.isAbsolute = true := by
  cases h with
  | absolute h => exact h
  | relative => exact hroot

theorem get?_of_readText? {key : Text} {value : Option Text}
    (h : readText? entry key = .ok value) : entry.get? key = value.map .text := by
  unfold readText? at h
  split at h
  · next hnone => rw [hnone, ← Except.ok.inj h]; rfl
  · next hsome => rw [hsome, ← Except.ok.inj h]; rfl
  · cases h

theorem get?_of_readBoolean? {key : Text} {value : Option Bool}
    (h : readBoolean? entry key = .ok value) : entry.get? key = value.map .boolean := by
  unfold readBoolean? at h
  split at h
  · next hnone => rw [hnone, ← Except.ok.inj h]; rfl
  · next hsome => rw [hsome, ← Except.ok.inj h]; rfl
  · cases h

theorem get?_of_readPath {index : Nat} {key : Text} {p : Path}
    (h : readPath index entry key = .ok p) :
    ∃ given, entry.get? key = some (.text given) ∧ p = Path.ofText given := by
  unfold readPath at h
  split at h
  · next given hgiven => exact ⟨given, hgiven, (Except.ok.inj h).symm⟩
  · cases h

/-- A name that is passed over leaves the rest of the names as they are. -/
theorem firstName_cons (last : Text) (name : Option Text) (names : List (Option Text)) :
    firstName (firstName last names) [name] = firstName last (name :: names) := by
  unfold firstName
  rw [List.findSome?_cons, List.findSome?_cons]
  cases nonEmpty? name <;> rfl

/-- **A target is what its entry resolves to,** with what the flags set instead. -/
theorem readTarget_resolves {index : Nat} {value : Value} {target : Target} (flags : Flags)
    (h : readTarget root defaults index value = .ok target) :
    Resolves root defaults flags value (flags.override target) := by
  cases value with
  | table entry =>
    simp only [readTarget, bind_eq_ok, pure_eq_ok] at h
    obtain ⟨_, readIdl, _, readOutput, module, hmodule, binding, hbinding, strict, hstrict,
      rfl⟩ := h
    obtain ⟨idl, hidl, rfl⟩ := get?_of_readPath readIdl
    obtain ⟨output, houtput, rfl⟩ := get?_of_readPath readOutput
    exact .mk hidl houtput (get?_of_readText? hmodule) (get?_of_readText? hbinding)
      (get?_of_readBoolean? hstrict) (leadsFrom_append root idl) (leadsFrom_append root output)
      (firstName_cons ..) rfl rfl
  | _ => cases h

theorem readTargets_forall₂ {index : Nat} {values : List Value} {targets : List Target}
    (flags : Flags) (h : readTargets root defaults index values = .ok targets) :
    List.Forall₂ (Resolves root defaults flags) values (targets.map flags.override) := by
  induction values generalizing index targets with
  | nil =>
    obtain rfl := Except.ok.inj h
    exact .nil
  | cons value rest ih =>
    simp only [readTargets, bind_eq_ok, pure_eq_ok] at h
    obtain ⟨target, htarget, others, hothers, rfl⟩ := h
    exact .cons (readTarget_resolves flags htarget) (ih hothers)

theorem ofTable_eq_ok {root : Path} {table : Table} {project : Project}
    (h : ofTable root table = .ok project) :
    readDefaults table = .ok project.defaults ∧
      (table.get? "targets" = none ∧ project.targets = [] ∨
        ∃ values, table.get? "targets" = some (.array values) ∧
          readTargets root project.defaults 0 values = .ok project.targets) := by
  simp only [ofTable, bind_eq_ok] at h
  obtain ⟨defaults, hdefaults, h⟩ := h
  split at h
  · next hnone =>
    obtain rfl := Except.ok.inj h
    exact ⟨hdefaults, .inl ⟨hnone, rfl⟩⟩
  · next values hvalues =>
    obtain ⟨targets, htargets, h⟩ := bind_eq_ok.1 h
    obtain rfl := Except.ok.inj h
    exact ⟨hdefaults, .inr ⟨values, hvalues, htargets⟩⟩
  · cases h

/-- **The targets of a project are its entries, in their order.** -/
theorem ofOctets_resolves {octets : Bytes} {project : Project}
    (h : ofOctets file octets = .ok project) (nonempty : project.targets ≠ []) (flags : Flags) :
    ∃ values, Declares octets project.defaults values ∧
      List.Forall₂ (Resolves file.parent project.defaults flags) values
        (project.targets.map flags.override) := by
  simp only [ofOctets, bind_eq_ok, mapError_eq_ok] at h
  obtain ⟨text, htext, table, htable, hproject⟩ := h
  obtain ⟨hdefaults, ⟨-, hnone⟩ | ⟨values, hvalues, htargets⟩⟩ := ofTable_eq_ok hproject
  · exact absurd hnone nonempty
  · exact ⟨values, ⟨text, table, htext, htable, hdefaults, hvalues⟩,
      readTargets_forall₂ flags htargets⟩

/-- If the project file is absolute, so are the paths of its targets. -/
theorem isAbsolute_of_mem {octets : Bytes} {project : Project}
    (h : ofOctets file octets = .ok project) (hfile : file.isAbsolute = true) (flags : Flags) :
    ∀ t ∈ project.targets.map flags.override,
      t.idl.isAbsolute = true ∧ t.output.isAbsolute = true := by
  by_cases hnil : project.targets = []
  · simp [hnil]
  · obtain ⟨values, -, hresolves⟩ := ofOctets_resolves h hnil flags
    have hparent : file.parent.isAbsolute = true := hfile
    refine forall_of_forall₂ hresolves fun value t hvalue => ?_
    cases hvalue with
    | mk _ _ _ _ _ idl output => exact ⟨idl.isAbsolute hparent, output.isAbsolute hparent⟩

end Project
end AnchorIdl
