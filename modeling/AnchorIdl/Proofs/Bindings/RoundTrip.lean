/-
# Running an emitted module gives the schema back

A document is loaded into a schema, the schema is emitted under accepted names,
and the text is read and run.  Then the binding holds the schema again
(`run_emit`).  The steps are

| step | by |
| --- | --- |
| a loaded schema is canonical | `Document.canonical_of_load` |
| its integers are those of the document | `Document.integers_of_load` |
| it is lowered to expressions that denote it | `lowers_schema` |
| the module that holds them is read back | `BindingsModule.read_render` |
| and run | `BindingsModule.Emitted.run` |

An accepted module name holds no quote and no backslash, so it cannot end the
text that names the module (`not_quote_of_isModuleName`).
-/

import AnchorIdl.Proofs.Bindings.Execution
import AnchorIdl.Proofs.Bindings.Printing
import AnchorIdl.Proofs.Document.Image
import AnchorIdl.Proofs.Document.Integers
import AnchorIdl.Proofs.Log

namespace AnchorIdl
namespace Bindings

open Script

/-! ### Accepted names -/

theorem mem_of_withoutLineFeed {t : Text} {c : CodePoint} (h : c ∈ t) :
    c ∈ withoutLineFeed t ∨ c = CodePoint.ofChar '\n' := by
  unfold withoutLineFeed
  split
  · next hlast =>
    obtain ⟨start, rfl⟩ := List.getLast?_eq_some_iff.1 hlast
    simpa using h
  · exact .inl h

theorem isWord_of_isAsciiIdentifier {t : Text} (h : t.isAsciiIdentifier = true) : IsWord t := by
  cases t with
  | nil => exact fun c hc => absurd hc (List.not_mem_nil)
  | cons c t =>
    simp only [Text.isAsciiIdentifier, Bool.and_eq_true, List.all_eq_true] at h
    refine List.forall_mem_cons.2 ⟨?_, h.2⟩
    rcases Bool.or_eq_true_iff.1 h.1 with hletter | hline <;> simp [CodePoint.isWord, *]

/-- The name of a module holds letters, digits, underscores, dots and line feeds only. -/
theorem not_quote_of_isModuleName {name : Text} (h : isModuleName name = true) :
    ∀ c ∈ name, c ≠ '"' ∧ c ≠ '\\' := by
  intro c hc
  have hparts := List.all_eq_true.1 (Bool.and_eq_true_iff.1 h).1
  rcases mem_of_withoutLineFeed hc with hc | rfl
  · by_cases hdot : c = CodePoint.ofChar '.'
    · subst hdot
      decide
    · obtain ⟨part, hpart, hcpart⟩ := Text.exists_mem_split hc hdot
      have hword := isWord_of_isAsciiIdentifier (hparts part hpart) c hcpart
      constructor
      · rintro rfl
        exact absurd hword (by decide)
      · rintro rfl
        exact absurd hword (by decide)
  · decide

theorem checkNames_eq_ok {name binding : Text} :
    checkNames name binding = .ok () ↔ isModuleName name = true ∧ IsName binding := by
  unfold checkNames
  cases hname : isModuleName name <;> cases hbinding : isBindingName binding <;>
    simp_all [isBindingName, IsName]

/-! ### Emission -/

/-- The module that is emitted for a canonical schema under accepted names. -/
theorem exists_emitted {allowed : Int → Prop} {S : Schema} (hS : S.Canonical)
    (hallowed : ∀ n ∈ S.integers, allowed n) {name binding : Text}
    (hnames : checkNames name binding = .ok ()) :
    ∃ types m, (emit S name binding).outcome = printed S (BindingsModule.render m) ∧
      m.Emitted allowed types S ∧ m.binding = binding ∧
      m.constants = (Constants.ofNames binding (S.instructions.map Instruction.name)).entries := by
  obtain ⟨hname, hbinding⟩ := checkNames_eq_ok.1 hnames
  obtain ⟨types, hhelpers, hschema⟩ := @lowers_schema binding allowed S hS hallowed {} [] .nil
  obtain ⟨hdenotes, hcalls⟩ := hschema []
  rw [List.nil_append, List.append_nil] at hdenotes
  refine ⟨types, moduleFor S name binding, ?_, ?_, rfl, rfl⟩
  · rw [emit_outcome, hnames]
    rfl
  · exact ⟨not_quote_of_isModuleName hname, hbinding, hhelpers, hdenotes, hcalls,
      fun _ => mem_used_lowered, Constants.ofNames_sound _ _⟩

/-! ### The round trip -/

/-- **Running what is emitted gives the schema back.**  What is emitted for a schema that was loaded
from a document with short integers can be read and compiled, and runs to its end.  Then the binding
holds the schema, each constant holds its instruction name, and no instruction is without a
constant. -/
theorem run_emit {strict : Bool} {raw : Json} {S : Schema} {name binding : Text}
    (hload : (Document.load strict (.value raw)).outcome = .ok S)
    (hshort : ∀ n ∈ raw.integers, isShort n = true)
    (hnames : checkNames name binding = .ok ())
    (hall : binding ≠ "__all__") (hdebug : binding ≠ "__debug__") :
    ∃ text script env, (emit S name binding).outcome = .ok text ∧
      Script.read text = some script ∧ script.compiles = true ∧ script.run = some env ∧
      env.get? binding = some (.model (.schema S)) ∧
      (∀ c ∈ (Constants.ofNames binding (S.instructions.map Instruction.name)).entries,
        env.get? c.1 = some (.text c.2)) ∧
      ∀ x ∈ S.instructions, ∃ constant, (constant, x.name) ∈
        (Constants.ofNames binding (S.instructions.map Instruction.name)).entries := by
  have hallowed : ∀ n ∈ S.integers, isShort n = true :=
    fun n hn => hshort n (Document.integers_of_load hload hn)
  obtain ⟨types, m, hemit, hm, rfl, hconstants⟩ :=
    exists_emitted (Document.canonical_of_load hload) hallowed hnames
  rw [printed_of_short hallowed] at hemit
  refine ⟨m.render, m.script, m.finalEnv types S, hemit, BindingsModule.read_render hm.readable,
    hm.compiles hdebug, hm.run, hm.get?_binding hall, fun c hc => ?_, fun x hx => ?_⟩
  · rw [← hconstants] at hc
    exact hm.get?_constant hc
  · exact Constants.mem_ofNames (List.mem_map_of_mem hx)

/-! ### An instance -/

/-- A schema with one instruction, whose account has an address derived from a text, and one
error. -/
def sample : Schema where
  instructions :=
    [{  name := "swap"
        discriminator := [1, 2, 3, 4, 5, 6, 7, 8]
        accounts :=
          [{  name := "vault"
              writable := true
              pda := some { seeds := [{ kind := .string, text := some "vault" }] } }]
        args := [{ name := "amounts", type := .array (.primitive .u64) 4 }] }]
  errors := [{ code := 6000, name := "Halted" }]

theorem sample_canonical : sample.Canonical where
  instructions := by
    refine List.forall_mem_singleton.2 ⟨by decide, rfl, ?_, ?_⟩
    · refine List.forall_mem_singleton.2 ⟨by decide, ?_⟩
      rintro p ⟨⟩
      exact ⟨by decide, List.forall_mem_singleton.2 (.string "vault"), nofun⟩
    · exact List.forall_mem_singleton.2 ⟨by decide, .array (.primitive .u64) 4⟩
  accounts := by simp [sample]
  errors := List.forall_mem_singleton.2 (by decide)
  types := by simp [sample]

theorem run_emit_sample :
    ∃ text script env, (emit sample "gateway" "GATEWAY").outcome = .ok text ∧
      Script.read text = some script ∧ script.compiles = true ∧ script.run = some env ∧
      env.get? "GATEWAY" = some (.model (.schema sample)) ∧
      env.get? "INSTRUCTION_SWAP" = some (.text "swap") := by
  have hnames : checkNames "gateway" "GATEWAY" = .ok () := by decide
  have hshown : sample.CodesShown := Document.codesShown_of_integers (by decide)
  obtain ⟨text, script, env, hemit, hread, hcompiles, hrun, hbinding, hconstants, -⟩ :=
    run_emit (Document.load_documentOf sample_canonical hshown) (by decide) hnames (by decide)
      (by decide)
  exact ⟨text, script, env, hemit, hread, hcompiles, hrun, hbinding,
    hconstants (Text.ofString "INSTRUCTION_SWAP", Text.ofString "swap") (by decide)⟩

end Bindings
end AnchorIdl
