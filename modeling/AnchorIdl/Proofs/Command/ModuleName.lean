/-
# Modules that are named after their files

A target that sets no module is named after its output.  The name is the stem of
the output's last name, in which an underscore stands for each symbol, and
another underscore goes before a digit or a reserved word:

| output | stem | module |
| --- | --- | --- |
| `gateway_idl.py` | `gateway_idl` | `gateway_idl` |
| `zeta.gateway.py` | `zeta.gateway` | `zeta_gateway` |
| `2fa.py` | `2fa` | `_2fa` |
| `class.py` | `class` | `_class` |
| `..` | `..` | `__` |
| none | none | `_` |

That is always a part of a dotted name, and so a module name by itself
(`isPart_moduleNameFor`).  What is such a part already is kept
(`moduleNameFor_of_isPart`), so a module is named like itself.

Names are the last thing that a target can be refused for before it is written.
A module that is named after its output is accepted, so only the binding is left
to be refused for (`moduleNameFor_usable`).
-/

import AnchorIdl.Proofs.Bindings.Acceptance
import AnchorIdl.Proofs.Command.Generate
import AnchorIdl.Proofs.Project.Settings
import Mathlib.Data.List.TakeWhile

namespace AnchorIdl
namespace Bindings

variable {t : Text} {p : Path}

/-! ### Parts of a dotted name -/

/-- An identifier without letters outside ASCII is letters, digits and underscores, no digit
first. -/
theorem isAsciiIdentifier_iff :
    t.isAsciiIdentifier = true ↔
      t ≠ [] ∧ IsWord t ∧ ∀ c ∈ t.head?, c.isDigit = false := by
  cases t with
  | nil => simp [Text.isAsciiIdentifier]
  | cons c t =>
    have hhead : (c.isLetter || c.val == 0x5F) = true ↔ c.isWord = true ∧ c.isDigit = false := by
      simp only [CodePoint.isWord, CodePoint.isLetter, CodePoint.isUpper, CodePoint.isLower,
        CodePoint.isDigit, Bool.or_eq_true, Bool.and_eq_true, decide_eq_true_eq, beq_iff_eq,
        Bool.and_eq_false_iff, decide_eq_false_iff_not]
      omega
    simp only [Text.isAsciiIdentifier, Bool.and_eq_true, hhead, List.all_eq_true, IsWord,
      List.forall_mem_cons, List.head?_cons, Option.mem_some_iff, forall_eq']
    constructor
    · rintro ⟨⟨hc, hdigit⟩, ht⟩
      exact ⟨List.cons_ne_nil c t, ⟨hc, ht⟩, hdigit⟩
    · rintro ⟨-, ⟨hc, ht⟩, hdigit⟩
      exact ⟨⟨hc, hdigit⟩, ht⟩

/-- A name of letters, digits and underscores, with no digit first, that is not reserved. -/
def IsUsable (t : Text) : Prop :=
  t ≠ [] ∧ (∀ c ∈ t, c.isWord = true) ∧ (∀ c ∈ t.head?, c.isDigit = false) ∧
    Text.isReserved t = false

theorem isUsable_iff : IsUsable t ↔ IsPart t := by
  rw [IsPart, isAsciiIdentifier_iff, and_assoc, and_assoc]
  rfl

/-- A part of a dotted name holds no point and no slash. -/
theorem IsPart.not_mem (h : IsPart t) :
    CodePoint.ofChar '.' ∉ t ∧ CodePoint.ofChar '/' ∉ t :=
  ⟨ne_of_isAsciiIdentifier h.1 (by decide), ne_of_isAsciiIdentifier h.1 (by decide)⟩

/-- A part of a dotted name is a dotted name. -/
theorem IsPart.isDotted (h : IsPart t) : IsDotted t :=
  ⟨[t], List.cons_ne_nil _ _, rfl, List.forall_mem_singleton.2 h⟩

/-- Letters, digits and underscores stay as they are. -/
theorem maskSymbols_of_isWord (h : IsWord t) : maskSymbols t = t := by
  unfold maskSymbols
  conv => rhs; rw [← List.map_id t]
  exact List.map_congr_left fun c hc => if_pos (h c hc)

/-- No reserved word begins with an underscore. -/
theorem isReserved_underscore (t : Text) : Text.isReserved (CodePoint.ofChar '_' :: t) = false := by
  have hwords : ∀ w ∈ Text.reservedWords, w.head? ≠ some (CodePoint.ofChar '_') := by decide
  rw [Text.isReserved, Bool.eq_false_iff]
  intro h
  exact hwords _ (List.contains_iff_mem.1 h) rfl

/-! ### The name after a file -/

/-- **A module that is named after a file has a name that can be used.** -/
theorem isPart_moduleNameFor (p : Path) : IsPart (moduleNameFor p) := by
  have hword := isWord_maskSymbols p.stem
  unfold moduleNameFor
  split
  · exact ⟨by decide, by decide⟩
  · next c rest hmask =>
    rw [hmask] at hword
    split_ifs with h
    · refine ⟨isAsciiIdentifier_iff.2 ⟨List.cons_ne_nil _ _, ?_, ?_⟩, isReserved_underscore _⟩
      · exact List.forall_mem_cons.2 ⟨by decide, hword⟩
      · rintro d ⟨⟩
        decide
    · rw [Bool.or_eq_true, not_or, Bool.not_eq_true, Bool.not_eq_true] at h
      refine ⟨isAsciiIdentifier_iff.2 ⟨List.cons_ne_nil _ _, hword, ?_⟩, h.2⟩
      rintro d ⟨⟩
      exact h.1

/-- A stem that can be used is the name. -/
theorem moduleNameFor_of_isPart (h : IsPart p.stem) : moduleNameFor p = p.stem := by
  obtain ⟨hne, hword, hdigit⟩ := isAsciiIdentifier_iff.1 h.1
  obtain ⟨c, rest, hstem⟩ := List.exists_cons_of_ne_nil hne
  have hc : c.isDigit = false := hdigit c (by rw [hstem]; rfl)
  have hfree : Text.isReserved (c :: rest) = false := hstem ▸ h.2
  unfold moduleNameFor
  rw [maskSymbols_of_isWord hword, hstem]
  simp [hc, hfree]

/-- Symbols are masked, and nothing else changes but for an underscore in front. -/
theorem moduleNameFor_cases (p : Path) :
    moduleNameFor p = maskSymbols p.stem ∨
      moduleNameFor p = CodePoint.ofChar '_' :: maskSymbols p.stem := by
  unfold moduleNameFor
  split
  · next h => exact .inr (h ▸ rfl)
  · next h =>
    rw [h]
    split_ifs
    · exact .inr rfl
    · exact .inl rfl

theorem stem_ofText (h : IsPart t) : (Path.ofText t).stem = t := by
  obtain ⟨hpoint, hslash⟩ := h.not_mem
  have hne : t ≠ [] := (isAsciiIdentifier_iff.1 h.1).1
  have hdot : t ≠ Text.ofString "." := by
    rintro rfl
    exact hpoint (by decide)
  -- Without slashes the text is the only name, and without points it has no suffix.
  have hnames : (Path.ofText t).names = [t] := by
    rw [Path.ofText, Text.split_of_not_mem hslash]
    simp [hne, hdot]
  have hsuffix : t.reverse.takeWhile (fun c : CodePoint => decide (c ≠ '.')) = t.reverse := by
    rw [List.takeWhile_eq_self_iff]
    intro c hc
    rw [decide_eq_true_eq]
    rintro rfl
    exact hpoint (List.mem_reverse.1 hc)
  have hname : (Path.ofText t).name = t := by rw [Path.name, hnames]; rfl
  rw [Path.stem, hname, hsuffix, if_pos (.inr (.inl List.length_reverse))]

/-- A module is named like itself. -/
theorem moduleNameFor_ofText (h : IsPart t) : moduleNameFor (Path.ofText t) = t := by
  have hstem := stem_ofText h
  rw [moduleNameFor_of_isPart (hstem.symm ▸ h), hstem]

end Bindings

/-! ### Runs -/

open Bindings
open Script (IsName)

/-- An error that refuses a name. -/
def IdlError.IsRefusal : IdlError → Prop
  | .emission _ _ => True
  | _ => False

/-- The error of a binding that is refused. -/
def misnamedBinding (binding : Text) : IdlError :=
  .emission ("Invalid binding name: " ++ Quoted.single binding) none

/-- A target whose module is named after its output is refused for its binding only. -/
theorem Target.refusal_of_named {t : Target} {fs fs' : FileSystem} {e : IdlError}
    (hmodule : t.module = moduleNameFor t.output) (h : t.generate.Logs fs (.error (.error e)) fs')
    (he : e.IsRefusal) : ¬ IsName t.binding ∧ e = misnamedBinding t.binding := by
  have hfails := fails_of_raises h
  generalize hf : Failure.error e = f at hfails
  -- Only the third stage looks at names.
  cases hfails with
  | unencodable => cases hf
  | @unread fault | @unwritten _ fault =>
    cases fault with
    | refused answer =>
      cases hf
      exact he.elim
    | path fault => cases fault <;> cases hf
  | @unloaded _ rejection =>
    obtain ⟨kind, message, path, rfl⟩ := Document.Rejection.toFailure_eq_error hf.symm
    exact he.elim
  | misnamed _ _ make =>
    cases hf
    have hname : isModuleName t.module = true :=
      isModuleName_iff.2 (.inl (hmodule ▸ (isPart_moduleNameFor t.output).isDotted))
    by_cases hbinding : IsName t.binding
    · rw [BindingsWriter.make, checkNames_eq_ok.2 ⟨hname, hbinding⟩] at make
      cases make
    · rw [BindingsWriter.make, checkNames_of_binding hname hbinding] at make
      exact ⟨hbinding, (Except.error.inj make).symm⟩

/-- A name that can be used for a module named after `p`, whatever is written under it. -/
structure Path.Names (p : Path) (name : Text) : Prop where
  usable : IsUsable name
  masked : name = maskSymbols p.stem ∨ name = CodePoint.ofChar '_' :: maskSymbols p.stem
  kept (h : IsUsable p.stem) : name = p.stem
  fixed : moduleNameFor (Path.ofText name) = name
  accepted (S : Schema) {binding : Text} (h : IsName binding) : Accepted S name binding
  refused (S : Schema) {binding : Text} (h : ¬ IsName binding) :
    Refused S name binding (misnamedBinding binding)
  runs {targets before : List Target} {t : Target} {s : Settings}
    {writes : List FileSystem.Written} {fs between last : FileSystem} {e : IdlError}
    (output : t.output = p) (follows : t.Follows s) (unset : s.module = none)
    (fails : Command.FailsFirst targets fs before t writes between (.error e) last)
    (refusal : e.IsRefusal) : ¬ IsName t.binding ∧ e = misnamedBinding t.binding

/-- **A module that is named after its file is never refused for its name.** -/
theorem moduleNameFor_usable (p : Path) : p.Names (moduleNameFor p) := by
  have hpart := isPart_moduleNameFor p
  have hname : isModuleName (moduleNameFor p) = true := isModuleName_iff.2 (.inl hpart.isDotted)
  constructor
  case usable => exact isUsable_iff.2 hpart
  case masked => exact moduleNameFor_cases p
  case kept => exact fun h => moduleNameFor_of_isPart (isUsable_iff.1 h)
  case fixed => exact moduleNameFor_ofText hpart
  case accepted => exact fun S _ h => accepted_of_checkNames S (checkNames_eq_ok.2 ⟨hname, h⟩)
  case refused => exact fun S _ h => refused_of_checkNames S (checkNames_of_binding hname h)
  case runs =>
    intro targets before t s writes fs between last e output follows unset fails refusal
    have hmodule := follows.module
    rw [unset, Option.getD_none] at hmodule
    exact t.refusal_of_named hmodule fails.raises refusal

/-- A digit, a reserved word, points inside a name, and no name at all. -/
example :
    ([moduleNameFor (.ofText "2fa.py"), moduleNameFor (.ofText "class.py"),
      moduleNameFor (.ofText "out/zeta.gateway.py"), moduleNameFor (.ofText "")] : List Text) =
      ["_2fa", "_class", "zeta_gateway", "_"] := by
  decide

end AnchorIdl
