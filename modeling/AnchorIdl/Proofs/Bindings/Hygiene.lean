/-
# The names at the top of an emitted module

An emitted module assigns to its helpers, to the binding, to its constants and to
`__all__`, each as it is written.  `Hygienic` says what a user of the module
relies on:

| | |
| --- | --- |
| `distinct` | no name is assigned to twice |
| `legal` | every name may be assigned to |
| `keeps` | every name holds in the end what its own statement gave it |
| `schema` | the binding holds the schema |
| `types` | each helper holds a type expression |
| `exports` | `__all__` lists the binding and then the constants |
| `bound` | each constant is bound |

Helpers and constants never get in the way of it, whatever the schema is and
however many helpers it takes.  Of the bindings that are accepted, exactly two
do: `__all__`, whose schema is replaced by the list of exports, and `__debug__`,
which Python lets nobody assign to (`hygienic_iff`).
-/

import AnchorIdl.Proofs.Bindings.RoundTrip

namespace AnchorIdl
namespace Bindings

open Script

/-- The names of a module do what they are for. -/
structure Hygienic (script : Script) (env : Env) (helpers : List Text) (binding : Text)
    (constants : List Text) (S : Schema) : Prop where
  distinct : script.targets.Nodup
  legal : ∀ t ∈ script.targets, isAssignable t = true
  keeps : script.Keeps env
  schema : env.get? binding = some (.model (.schema S))
  types : ∀ helper ∈ helpers, ∃ t, env.get? helper = some (typeValue t)
  exports : env.get? "__all__" = some (.list ((binding :: constants).map .text))
  bound : ∀ constant ∈ constants, ∃ v, env.get? constant = some v

/-- **An emitted module is hygienic unless its binding is `__all__` or `__debug__`.**  In any case
it is a script that assigns to helpers, the binding, one constant for each instruction name and
`__all__`, in this order.  It is emitted unless an integer of the schema is too long to be
printed. -/
theorem hygienic_iff {strict : Bool} {raw : Json} {S : Schema} {name binding : Text}
    (hload : (Document.load strict (.value raw)).outcome = .ok S)
    (hnames : checkNames name binding = .ok ()) :
    ∃ text script env helpers constants, (emit S name binding).outcome = printed S text ∧
      Script.read text = some script ∧ script.run = some env ∧
      helpers = (List.range helpers.length).map (helperName binding) ∧
      constants = (Constants.ofNames binding (S.instructions.map Instruction.name)).entries.map
        Prod.fst ∧
      script.targets = helpers ++ (binding :: constants ++ [Text.ofString "__all__"]) ∧
      (Hygienic script env helpers binding constants S ↔
        binding ≠ "__all__" ∧ binding ≠ "__debug__") := by
  obtain ⟨types, m, hemit, hm, rfl, hconstants⟩ :=
    @exists_emitted (fun _ => True) S (Document.canonical_of_load hload) (by simp) name _ hnames
  refine ⟨m.render, m.script, m.finalEnv types S,
    (List.range types.length).map (helperName m.binding), m.constants.map Prod.fst, hemit,
    BindingsModule.read_render hm.readable, hm.run, by simp, by rw [hconstants], hm.targets_eq, ?_⟩
  constructor
  · intro h
    exact ⟨hm.nodup_targets_iff.1 h.distinct, hm.assignable_iff.1 h.legal⟩
  · rintro ⟨hall, hdebug⟩
    have hdistinct := hm.nodup_targets_iff.2 hall
    refine ⟨hdistinct, hm.assignable_iff.2 hdebug, run_keeps hm.run hdistinct, hm.get?_binding hall,
      ?_, BindingsModule.get?_all m types S, ?_⟩
    · refine List.forall_mem_map.2 fun k hk => ?_
      exact ⟨_, hm.get?_helper (List.getElem?_eq_getElem (List.mem_range.1 hk))⟩
    · exact List.forall_mem_map.2 fun c hc => ⟨_, hm.get?_constant hc⟩

theorem not_hygienic_sample :
    ∃ text script env helpers constants, (emit sample "gateway" "__all__").outcome = .ok text ∧
      Script.read text = some script ∧ script.run = some env ∧
      script.targets =
        helpers ++ (Text.ofString "__all__" :: constants ++ [Text.ofString "__all__"]) ∧
      ¬ Hygienic script env helpers "__all__" constants sample := by
  have hnames : checkNames "gateway" "__all__" = .ok () := by decide
  have hshown : sample.CodesShown := Document.codesShown_of_integers (by decide)
  obtain ⟨text, script, env, helpers, constants, hemit, hread, hrun, -, -, htargets, hiff⟩ :=
    hygienic_iff (Document.load_documentOf sample_canonical hshown) hnames
  exact ⟨text, script, env, helpers, constants, hemit, hread, hrun, htargets,
    fun h => (hiff.1 h).1 rfl⟩

end Bindings
end AnchorIdl
