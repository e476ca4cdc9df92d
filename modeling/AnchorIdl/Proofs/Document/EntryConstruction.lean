/-
# No class refuses a call of the loader

The readers check a document, and the classes check the parts once more.  The two
checks are written apart, so for each call it has to be seen that what the reader
let pass is what the class asks for:

| call | what the reader has checked |
| --- | --- |
| `PdaSeed` | the kind, then the value, the text or a path that is not empty |
| `PdaRule` | that there are seeds, before it reads the first |
| `AccountDefinition`, `Instruction` | eight numbers below 256 for the discriminator |
| `ErrorDefinition` | that the code is an integer and no truth value |

`Completes` says this of every part, and that the calls have completed just its
parts.  A building is put together by `Builds.bind` in the order of its reader, and
closed by the call of the class, for which a lemma says that the class accepts it
(`construct_pda`, `construct_instruction` and the like).  So whatever the document,
no call of the loader is refused (`load_calls_valid`).
-/

import AnchorIdl.Proofs.Document.Form
import AnchorIdl.Proofs.Document.TypeConstruction

namespace AnchorIdl
namespace Document

open Bindings (Constructor)
open Script

variable {α β : Type} {place : Place}

/-! ### Seeds and rules -/

theorem builds_constSeed (value : Bytes) :
    Completes Seed.parts (callSeed .const [("value", .bytes value)])
      (.ok { kind := .const, value }) :=
  fun _ => .call (.seed _) rfl rfl rfl

theorem builds_stringSeed (text : Text) :
    Completes Seed.parts (callSeed .string [("text", .text text)])
      (.ok { kind := .string, text }) :=
  fun _ => .call (.seed _) rfl rfl rfl

theorem builds_argSeed {path : Text} (h : path ≠ []) :
    Completes Seed.parts (callSeed .arg [("path", .text path), ("account", .none)])
      (.ok { kind := .arg, path }) := by
  obtain ⟨c, rest, rfl⟩ := List.exists_cons_of_ne_nil h
  exact fun _ => .call (.seed _) rfl rfl rfl

theorem builds_accountSeed {path : Text} (h : path ≠ []) (account : Option Text) :
    Completes Seed.parts
      (callSeed .account [("path", .text path), ("account", orNone .text account)])
      (.ok { kind := .account, path, account }) := by
  obtain ⟨c, rest, rfl⟩ := List.exists_cons_of_ne_nil h
  cases account <;> exact fun _ => .call (.seed _) rfl rfl rfl

theorem builds_seed (place : Place) (raw : Json) :
    Completes Seed.parts (buildSeed place raw) (readSeed place raw) := by
  intro before
  unfold buildSeed readSeed
  refine (Builds.reading _).bind fun members _ => ?_
  dsimp only
  cases (members.get? "kind").bind seedKind? with
  | none => exact .error _
  | some kind =>
    cases kind with
    | const =>
      dsimp only
      cases members.get? "value" with
      | none => exact (Builds.reading _).bind fun value _ => builds_constSeed value before
      | some value =>
        cases value with
        | str t =>
          dsimp only
          cases Utf8.encode t with
          | ok octets => exact builds_constSeed octets before
          | error fault => exact .error _
        | _ => exact (Builds.reading _).bind fun value _ => builds_constSeed value before
    | string =>
      refine (Builds.reading _).bind fun value _ => ?_
      cases value with
      | none => exact .error _
      | some t => exact builds_stringSeed t before
    | arg =>
      refine (Builds.reading _).bind fun path _ => ?_
      match path with
      | none | some [] => exact .error _
      | some (c :: rest) => exact builds_argSeed (List.cons_ne_nil c rest) before
    | account =>
      refine (Builds.reading _).bind fun path _ => ?_
      match path with
      | none | some [] => exact .error _
      | some (c :: rest) =>
        exact (Builds.reading _).bind fun account _ =>
          builds_accountSeed (List.cons_ne_nil c rest) account before

theorem construct_pda {seeds : List Seed} (h : seeds ≠ []) (program : Option Seed) :
    construct .pdaRule
        [("seeds", partsValue .seed seeds), ("program", orNone (.model ∘ .seed) program)] =
      some (.pda ⟨seeds, program⟩) := by
  have hseeds : Value.list? Value.seed? (partsValue .seed seeds) = some seeds :=
    list?_partsValue (fun _ => rfl) seeds
  have hprogram : Value.option? Value.seed? (orNone (.model ∘ .seed) program) = some program := by
    cases program <;> rfl
  simp [construct, Arguments.required, Arguments.defaulted, Ordered.get?_cons, hseeds, hprogram, h]

/-- A list that is not empty is read into one that is not empty. -/
theorem ne_nil_of_each {read : Nat → α → Reading β} {xs : List α} {ys : List β} (h : xs ≠ [])
    (hys : each xs read = .ok ys) : ys ≠ [] := by
  obtain ⟨x, rest, rfl⟩ := List.exists_cons_of_ne_nil h
  simp only [each, eachFrom, bind_eq_ok, pure_eq_ok] at hys
  obtain ⟨y, -, ys', -, rfl⟩ := hys
  exact List.cons_ne_nil y ys'

theorem builds_pda (place : Place) (raw : Json) :
    Completes Pda.parts (buildPda place raw) (readPda place raw) := by
  intro before
  unfold buildPda readPda
  refine (Builds.reading _).bind fun members _ => ?_
  refine (Builds.reading _).bind fun list _ => ?_
  split
  · exact .error _
  · next hne =>
    refine (Completes.each Seed.parts (fun i x _ => builds_seed _ x) before).bind
      fun seeds hseeds => ?_
    refine (Completes.mapM (builds_seed _) _ _).bind fun program _ => ?_
    exact .call _ (construct_pda (ne_nil_of_each hne hseeds) program) rfl (by simp [Pda.parts])

/-! ### Accounts -/

theorem builds_slot (place : Place) (members : Members) :
    Completes (fun a => a.pda.toList.flatMap Pda.parts) (buildSlot place members)
      (readAccount place members) := by
  intro before
  unfold buildSlot readAccount
  refine (Builds.reading _).bind fun name _ => ?_
  refine (Builds.reading _).bind fun writable _ => ?_
  refine (Builds.reading _).bind fun signer _ => ?_
  refine (Builds.reading _).bind fun optional _ => ?_
  refine (Builds.reading _).bind fun address _ => ?_
  refine (Completes.mapM (builds_pda _) _ before).bind fun pda _ => ?_
  exact (Builds.reading _).bind fun docs _ => .pure rfl

theorem accountRef_slotArguments (a : AccountRef) (more : Arguments) :
    Arguments.accountRef (slotArguments a ++ more) = some a := by
  have haddress : Value.option? Value.text? (orNone .text a.address) = some a.address := by
    cases a.address <;> rfl
  have hpda : Value.option? Value.pda? (orNone (.model ∘ .pda) a.pda) = some a.pda := by
    cases a.pda <;> rfl
  simp [slotArguments, Arguments.accountRef, Arguments.required, Arguments.defaulted,
    Arguments.docs, Ordered.get?_cons, haddress, hpda, list?_textsValue]
  rfl

theorem construct_accountRef (a : AccountRef) :
    construct .accountRef (slotArguments a) = some (.accountRef a) := by
  have hslot := accountRef_slotArguments a []
  rw [List.append_nil] at hslot
  simp [construct, hslot]

theorem builds_account (place : Place) (members : Members) :
    Completes AccountRef.parts (buildAccount place members) (readAccount place members) := by
  intro before
  have h : Builds before (fun a => before ++ a.parts) (buildAccount place members)
      (readAccount place members >>= pure) :=
    (builds_slot place members before).bind fun a _ =>
      .call _ (construct_accountRef a) rfl (List.append_assoc ..).symm
  rwa [bind_pure] at h

theorem construct_accountDefinition (a : AccountRef) {value : Option Bytes}
    (h : ∀ b ∈ value, b.length = discriminatorSize) :
    construct .accountDefinition (slotArguments a ++ discriminatorArgument value) =
      some (.accountDefinition { a with discriminator := value }) := by
  have hstart : (slotArguments a).get? "discriminator" = none := rfl
  have hlast := defaulted_discriminatorArgument hstart h
  simp [construct, accountRef_slotArguments, hlast]

/-- A discriminator that was read has its size. -/
theorem length_of_discriminator {raw : Option Json} {value : Bytes}
    (h : discriminator place raw = .ok value) : value.length = discriminatorSize := by
  obtain ⟨_, -, -, hlength⟩ := discriminator_eq_ok_iff.1 h
  exact hlength

theorem builds_accountDefinition (place : Place) (raw : Json) :
    Completes AccountDefinition.parts (buildAccountDefinition place raw)
      (readAccountDefinition place raw) := by
  intro before
  unfold buildAccountDefinition readAccountDefinition
  refine (Builds.reading _).bind fun members _ => ?_
  refine (builds_slot place members before).bind fun a _ => ?_
  refine (Builds.reading _).bind fun value hvalue => ?_
  have hlength : ∀ b ∈ value, b.length = discriminatorSize := by
    rintro b rfl
    cases hgiven : members.given? "discriminator" with
    | none =>
      rw [hgiven] at hvalue
      cases hvalue
    | some raw =>
      rw [hgiven] at hvalue
      obtain ⟨b', hb', hpure⟩ := bind_eq_ok.1 hvalue
      cases hpure
      exact length_of_discriminator hb'
  exact .call _ (construct_accountDefinition a hlength) rfl (List.append_assoc ..).symm

theorem builds_slots (place : Place) (raw : Json) :
    Completes (·.flatMap AccountRef.parts) (buildSlots place raw) (readSlots place raw) := by
  intro before
  cases raw with
  | obj members =>
    rw [buildSlots, readSlots_obj]
    split
    · refine (Builds.reading _).bind fun name _ => ?_
      refine .sizedItems fun xs => ?_
      rw [each_map]
      refine (Completes.each (·.flatMap AccountRef.parts) (fun i x _ => ?_) before).bind
        fun slots _ => .pure (congrArg (before ++ ·) (flatMap_flatten ..))
      obtain ⟨x, hx⟩ := x
      exact builds_slots _ x
    · exact (builds_account place members before).map fun slot => .pure (by simp)
  | _ =>
    rw [buildSlots.eq_def, readSlots.eq_def]
    exact .error _
termination_by sizeOf raw
decreasing_by simp; omega

/-! ### Entries -/

theorem builds_partType (place : Place) (part : Typed) (members : Members) :
    Completes TypeExpr.parts (buildPartType place part members)
      (readPartType place part members) := by
  intro before
  unfold buildPartType readPartType
  cases members.get? "type" with
  | none => exact .error _
  | some type => exact builds_type _ type before

theorem builds_arg (place : Place) (raw : Json) :
    Completes Arg.parts (buildArg place raw) (readArg place raw) := by
  intro before
  unfold buildArg readArg
  refine (Builds.reading _).bind fun members _ => ?_
  refine (Builds.reading _).bind fun name _ => ?_
  exact (builds_partType _ _ _ _).bind fun type _ =>
    .call (.arg ⟨name, type⟩) rfl rfl (List.append_assoc ..).symm

theorem construct_instruction {x : Instruction} (h : x.discriminator.length = discriminatorSize) :
    construct .instruction
      [("name", .text x.name), ("discriminator", .bytes x.discriminator),
        ("accounts", partsValue .accountRef x.accounts), ("args", partsValue .arg x.args),
        ("docs", textsValue x.docs)] = some (.instruction x) := by
  have haccounts : Value.list? Value.accountRef? (partsValue .accountRef x.accounts) =
      some x.accounts := list?_partsValue (fun _ => rfl) x.accounts
  have hargs : Value.list? Value.arg? (partsValue .arg x.args) = some x.args :=
    list?_partsValue (fun _ => rfl) x.args
  simp [construct, Arguments.required, Arguments.defaulted, Arguments.docs, Ordered.get?_cons,
    Value.text?, discriminator?_bytes h, haccounts, hargs, list?_textsValue]

theorem builds_instruction (place : Place) (raw : Json) :
    Completes Instruction.parts (buildInstruction place raw) (readInstruction place raw) := by
  intro before
  unfold buildInstruction readInstruction
  refine (Builds.reading _).bind fun members _ => ?_
  refine (Builds.reading _).bind fun name _ => ?_
  refine (Builds.reading _).bind fun accounts _ => ?_
  refine (Completes.each (·.flatMap AccountRef.parts) (fun i x _ => builds_slots _ x) before).bind
    fun slots _ => ?_
  refine (Builds.reading _).bind fun args _ => ?_
  refine (Completes.each Arg.parts (fun i x _ => builds_arg _ x) _).bind fun args _ => ?_
  refine (Builds.reading _).bind fun discriminator hdiscriminator => ?_
  refine (Builds.reading _).bind fun docs _ => ?_
  let x : Instruction := ⟨name, discriminator, slots.flatten, args, docs⟩
  have hx : x.discriminator.length = discriminatorSize := length_of_discriminator hdiscriminator
  exact .call _ (construct_instruction hx) rfl
    (by simp [Instruction.parts, flatMap_flatten, x])

theorem builds_error (place : Place) (raw : Json) :
    Completes ErrorDefinition.parts (buildError place raw) (readError place raw) := by
  intro before
  unfold buildError readError
  refine (Builds.reading _).bind fun members _ => ?_
  rcases members.get? "code" with _ | value
  · exact .error _
  cases value with
  | int code =>
    refine (Builds.reading _).bind fun name _ => ?_
    exact (Builds.reading _).bind fun msg _ =>
      .call (.errorDefinition ⟨code, name, msg.getD []⟩) rfl rfl rfl
  | _ => exact .error _

theorem construct_typeDefinition (name : Text) (type : TypeExpr) (docs : List Text) :
    construct .typeDefinition [("name", .text name), ("type", .model (.typeExpr type)),
      ("docs", textsValue docs)] = some (.typeDefinition ⟨name, type, docs⟩) := by
  simp [construct, Arguments.required, Arguments.docs, Arguments.defaulted, Ordered.get?_cons,
    Value.text?, Value.typeExpr?, Value.model?, list?_textsValue]

theorem builds_typeDefinition (place : Place) (raw : Json) :
    Completes TypeDefinition.parts (buildTypeDefinition place raw)
      (readTypeDefinition place raw) := by
  intro before
  unfold buildTypeDefinition readTypeDefinition
  refine (Builds.reading _).bind fun members _ => ?_
  refine (Builds.reading _).bind fun name _ => ?_
  refine (builds_partType _ _ _ _).bind fun type _ => ?_
  exact (Builds.reading _).bind fun docs _ =>
    .call _ (construct_typeDefinition name type docs) rfl (List.append_assoc ..).symm

theorem builds_metadata (document : Members) :
    Completes (fun m => [.metadata m]) (buildMetadata document) (readMetadata document) := by
  intro before
  unfold buildMetadata readMetadata
  refine (Builds.reading _).bind fun members _ => ?_
  refine (Builds.reading _).bind fun name _ => ?_
  refine (Builds.reading _).bind fun version _ => ?_
  refine (Builds.reading _).bind fun spec _ => ?_
  exact (Builds.reading _).bind fun description _ => .call (.metadata _) rfl rfl rfl

theorem builds_section {parts : α → List Model} {build : Place → Json → Building α}
    {read : Place → Json → Reading α}
    (h : ∀ place raw, Completes parts (build place raw) (read place raw)) (document : Members)
    (key : Text) :
    Completes (·.flatMap parts) (buildSection document key build)
      (readSection document key read) := by
  intro before
  unfold buildSection readSection
  exact (Builds.reading _).bind fun entries _ => Completes.each parts (fun i x _ => h _ x) before

/-! ### The document -/

theorem builds_schema (raw : Json) :
    Builds [] Schema.parts (buildSchema raw) (readSchema raw).outcome := by
  simp only [readSchema, noteCount, note, Logged.bind_outcome, Logged.lift_outcome,
    Logged.tell_outcome, Logged.pure_outcome]
  unfold buildSchema
  refine (Builds.reading _).bind fun document _ => ?_
  refine (builds_metadata document _).bind fun metadata _ => ?_
  refine (Builds.reading _).bind fun address _ => ?_
  refine (builds_section builds_instruction _ _ _).bind fun instructions _ => ?_
  refine (builds_section builds_accountDefinition _ _ _).bind
    fun accounts _ => ?_
  refine (builds_section builds_error _ _ _).bind fun errors _ => ?_
  refine (builds_section builds_typeDefinition _ _ _).bind fun types _ => ?_
  exact .call _
    (construct_schema ⟨address, metadata, instructions, accounts, errors, types⟩) rfl rfl

theorem builds_load (strict : Bool) (source : Source) :
    Builds [] Schema.parts (build strict source) (load strict source).outcome := by
  simp only [load, loadValue, reportReferences, note, Logged.bind_outcome, Logged.lift_outcome,
    Logged.tell_outcome, Logged.tellAll_outcome, Logged.pure_outcome]
  unfold build
  refine (Builds.reading _).bind fun raw _ => ?_
  refine (builds_schema raw).mapRejection.bind fun s _ => ?_
  exact (Builds.reading _).bind fun _ _ => .pure rfl

/-- **No class refuses a call of the loader:** whether a document is loaded or rejected, every call
made on the way gives its class what it asks for and yields a part.  So loading by calls ends as
loading does, and never in a refusal.  If it ends in a schema, the calls have yielded just the parts
of that schema. -/
theorem load_calls_valid (strict : Bool) (source : Source) :
    (∀ c ∈ (build strict source).calls, Asks c.callee c.arguments ∧ ∃ part, c.part? = some part) ∧
      (build strict source).outcome = (load strict source).outcome.mapError .rejected ∧
      (∀ c, (build strict source).outcome ≠ .error (.invalid c)) ∧
      ∀ S, (load strict source).outcome = .ok S →
        (build strict source).calls.map Call.part? = S.parts.map some := by
  obtain ⟨houtcome, hvalid, hparts⟩ := builds_load strict source
  refine ⟨fun c hc => ⟨(hvalid c hc).asks, (hvalid c hc).yields⟩, houtcome, fun c => ?_,
    fun S hS => hparts hS⟩
  rw [houtcome]
  cases (load strict source).outcome <;> exact nofun

/-- The calls before a fault are kept. -/
example :
    (build false (.value (.obj [("errors", .arr [.obj [("code", .int 6000), ("name", .str "Late")],
      .null])]))).calls.map Call.callee = [.metadata, .errorDefinition] := by
  decide

end Document
end AnchorIdl
