/-
# A canonical schema is denoted by its expression

The expression of a schema calls one class for each part, and leaves out what
has its default.  Each call yields the part that it was written for, if that
part is canonical: a class refuses a discriminator of any other length than
eight, a rule without seeds and a seed without what its kind needs, and a seed
that had more would be written without it.

The main statement is `lowers_schema`.  The values of the arguments stand beside
the arguments: `slotValues` beside `accountArguments`, `seedValues` beside the
arguments of `seedExpr`.
-/

import AnchorIdl.Bindings.Module
import AnchorIdl.Proofs.Bindings.Lowering
import AnchorIdl.Proofs.Schema.Canonical

namespace AnchorIdl
namespace Bindings

open Script

variable {binding : Text} {allowed : Int → Prop} {types : List TypeExpr} {depth : Nat}

theorem Denotes.map {α : Type} {f : α → Expr} {g : α → Value} {xs : List α}
    (hd : depth + 1 ≤ maxDepth)
    (h : ∀ x ∈ xs, Denotes binding allowed types (depth + 1) (f x) (g x)) (layout : Layout) :
    Denotes binding allowed types depth (.list layout (xs.map f)) (.list (xs.map g)) := by
  refine .list hd ?_ layout
  rw [List.forall₂_map_left_iff, List.forall₂_map_right_iff, List.forall₂_same]
  exact h

/-! ### Accounts -/

/-- The value of a seed. -/
abbrev seedValue (s : Seed) : Value := .model (.seed s)

theorem denotes_seed (hd : depth + 3 ≤ maxDepth) {s : Seed} (h : CanonicalSeed s) :
    Denotes binding allowed types depth (seedExpr s) (seedValue s) := by
  have hopen : depth + 1 ≤ maxDepth := by omega
  cases h with
  | const bytes =>
    exact .call hopen (.cons (.of (.text _)) (.cons (.of (.bytes hd bytes)) .nil))
      (List.isSublist_iff_sublist.1 rfl) rfl .line
  | string text =>
    exact .call hopen (.cons (.of (.text _)) (.cons (.of (.text text)) .nil))
      (List.isSublist_iff_sublist.1 rfl) rfl .line
  | @arg path nonempty =>
    refine .call hopen (.cons (.of (.text _)) (.cons (.of (.text path)) .nil))
      (List.isSublist_iff_sublist.1 rfl) ?_ .line
    obtain ⟨c, path, rfl⟩ := List.exists_cons_of_ne_nil nonempty
    rfl
  | @account path nonempty account =>
    obtain ⟨c, path, rfl⟩ := List.exists_cons_of_ne_nil nonempty
    cases account with
    | none =>
      exact .call hopen (.cons (.of (.text _)) (.cons (.of (.text (c :: path))) .nil))
        (List.isSublist_iff_sublist.1 rfl) rfl .line
    | some account =>
      exact .call hopen (.cons (.of (.text _)) (.cons (.of (.text (c :: path)))
        (.cons (.of (.text account)) .nil))) (List.isSublist_iff_sublist.1 rfl) rfl .line

/-- The value of a rule, or none. -/
def pdaValue : Option Pda → Value
  | none => .none
  | some p => .model (.pda p)

theorem denotes_pda (hd : depth + 5 ≤ maxDepth) {p : Pda} (h : CanonicalPda p) :
    Denotes binding allowed types depth (pdaExpr p) (.model (.pda p)) := by
  have hopen : depth + 1 ≤ maxDepth := by omega
  obtain ⟨nonempty, seeds, program⟩ := h
  obtain ⟨seedList, program?⟩ := p
  have hseeds : Denotes binding allowed types (depth + 1) (.list .block (seedList.map seedExpr))
      (.list (seedList.map seedValue)) :=
    .map (by omega) (fun s hs => denotes_seed (by omega) (seeds s hs)) .block
  have hlist : Value.list? Value.seed? (.list (seedList.map seedValue)) = some seedList :=
    list?_map fun _ _ => rfl
  cases program? with
  | none =>
    refine .call hopen (.cons (.of hseeds) .nil) (List.isSublist_iff_sublist.1 rfl) ?_ .block
    simp [construct, Arguments.required, Arguments.defaulted, Ordered.get?_cons, hlist, nonempty]
  | some seed =>
    have hprogram := @denotes_seed binding allowed types (depth + 1) (by omega) seed
      (program seed rfl)
    refine .call hopen (.cons (.of hseeds) (.cons (.of hprogram) .nil))
      (List.isSublist_iff_sublist.1 rfl) ?_ .block
    have hseed : Value.option? Value.seed? (seedValue seed) = some (some seed) := rfl
    simp [construct, Arguments.required, Arguments.defaulted, Ordered.get?_cons, hlist, nonempty,
      hseed]

theorem denotes_pdaOrNone (hd : depth + 5 ≤ maxDepth) {p : Option Pda}
    (h : ∀ q ∈ p, CanonicalPda q) :
    Denotes binding allowed types depth (pdaOrNone p) (pdaValue p) := by
  cases p with
  | none => exact .none
  | some p => exact denotes_pda hd (h p rfl)

/-- The value of an optional text. -/
def textValue : Option Text → Value
  | none => .none
  | some t => .text t

theorem denotes_textOrNone (t : Option Text) :
    Denotes binding allowed types depth (Expr.textOrNone t) (textValue t) := by
  cases t with
  | none => exact .none
  | some t => exact .text t

/-- The values of the arguments that account slots and account layouts share. -/
def slotValues (a : AccountRef) : Arguments :=
  let start : Arguments :=
    [("name", .text a.name), ("writable", .bool a.writable), ("signer", .bool a.signer)]
  let optional : Arguments := if a.optional then [("optional", .bool true)] else []
  let address : Arguments := [("address", textValue a.address), ("pda", pdaValue a.pda)]
  start ++ optional ++ address ++ listValue "docs" (a.docs.map .text)

theorem given_slot (hd : depth + 5 ≤ maxDepth) {a : AccountRef} (h : CanonicalSlot a) :
    List.Forall₂ (Given binding allowed types depth) (accountArguments a) (slotValues a) := by
  have hoptional : List.Forall₂ (Given binding allowed types depth)
      (if a.optional then [("optional", .bool true)] else [])
      (if a.optional then [("optional", .bool true)] else []) := by
    split
    · exact .cons (.of (.bool true)) .nil
    · exact .nil
  refine List.rel_append (List.rel_append (List.rel_append ?_ hoptional) ?_)
    (given_docsArgument (by omega) a.docs)
  · exact .cons (.of (.text _)) (.cons (.of (.bool _)) (.cons (.of (.bool _)) .nil))
  · exact .cons (.of (denotes_textOrNone _)) (.cons (.of (denotes_pdaOrNone hd h.pda)) .nil)

theorem sublist_slotValues (a : AccountRef) :
    ((slotValues a).map Prod.fst).Sublist (parameters .accountRef) := by
  have hoptional : ((if a.optional then [("optional", .bool true)] else [] : Arguments).map
      Prod.fst).Sublist ["optional"] := by
    split
    · exact .refl _
    · exact List.nil_sublist _
  simp only [slotValues, List.map_append]
  exact (((List.Sublist.refl _).append hoptional).append (.refl _)).append (sublist_listValue _ _)

/-- The arguments of a slot make that slot, with any others that a slot has no use for. -/
theorem accountRef_slotValues (a : AccountRef) (others : Arguments)
    (h : ∀ key ∈ parameters .accountRef, others.get? key = none) :
    Arguments.accountRef (slotValues a ++ others) = some a := by
  obtain ⟨name, writable, signer, optional, address, pda, docs⟩ := a
  simp only [parameters, List.forall_mem_cons] at h
  have hdocs : Arguments.docs (slotValues
      ⟨name, writable, signer, optional, address, pda, docs⟩ ++ others) = some docs := by
    refine defaulted_listValue (f := .text) (fun _ _ => rfl) ?_
    cases optional <;> simp [slotValues, Ordered.get?_append, Ordered.get?_cons, h]
  simp only [Arguments.accountRef, hdocs]
  cases optional <;> cases address <;> cases pda <;>
    simp [slotValues, Arguments.required, Arguments.defaulted, Ordered.get?_append,
      Ordered.get?_cons, textValue, pdaValue, Value.text?, Value.bool?, Value.option?, Value.pda?,
      Value.model?, get?_listValue_of_ne, h]

theorem denotes_account (hd : depth + 6 ≤ maxDepth) {a : AccountRef} (h : CanonicalSlot a) :
    Denotes binding allowed types depth (accountExpr a) (.model (.accountRef a)) := by
  refine .call (by omega) (given_slot (by omega) h) (sublist_slotValues a) ?_ .block
  have hslot := accountRef_slotValues a [] fun _ _ => rfl
  rw [List.append_nil] at hslot
  simp only [construct, hslot]
  rfl

theorem get?_slotValues_discriminator (a : AccountRef) :
    (slotValues a).get? "discriminator" = none := by
  cases hoptional : a.optional <;>
    simp [slotValues, hoptional, Ordered.get?_cons, get?_listValue_of_ne]

theorem construct_accountDefinition {a : AccountDefinition} (h : CanonicalLayout a) :
    construct .accountDefinition
        (slotValues a.toAccountRef ++ discriminatorArgument a.discriminator) =
      some (.accountDefinition a) := by
  have hothers : ∀ key ∈ parameters .accountRef,
      (discriminatorArgument a.discriminator).get? key = none := by
    cases a.discriminator with
    | none => exact fun _ _ => rfl
    | some bytes => simp [parameters, discriminatorArgument, Ordered.get?_cons]
  simp only [construct, accountRef_slotValues a.toAccountRef _ hothers,
    defaulted_discriminatorArgument (get?_slotValues_discriminator _) h.discriminator]
  rfl

theorem denotes_accountDefinition (hd : depth + 6 ≤ maxDepth) {a : AccountDefinition}
    (h : CanonicalLayout a) :
    Denotes binding allowed types depth (accountDefinitionExpr a)
      (.model (.accountDefinition a)) := by
  refine .call (by omega) (List.rel_append (given_slot (by omega) h.slot) ?_) ?_
    (construct_accountDefinition h) .block
  · cases a.discriminator with
    | none => exact .nil
    | some bytes => exact .cons (.of (.bytes (by omega) bytes)) .nil
  · have hkeys :
        ((discriminatorArgument a.discriminator).map Prod.fst).Sublist ["discriminator"] := by
      cases a.discriminator with
      | none => exact List.nil_sublist _
      | some bytes => exact .refl _
    rw [List.map_append]
    exact (sublist_slotValues a.toAccountRef).append hkeys

/-! ### Entries -/

theorem denotes_metadata (hd : depth + 1 ≤ maxDepth) (m : Metadata) :
    Denotes binding allowed types depth (metadataExpr m) (.model (.metadata m)) :=
  .call hd (.cons (.of (.text _)) (.cons (.of (.text _)) (.cons (.of (.text _))
    (.cons (.of (.text _)) .nil)))) (.refl _) rfl .block

theorem denotes_error (hd : depth + 1 ≤ maxDepth) {e : ErrorDefinition} (h : allowed e.code) :
    Denotes binding allowed types depth (errorExpr e) (.model (.errorDefinition e)) :=
  .call hd (.cons (.of (.int h)) (.cons (.of (.text _)) (.cons (.of (.text _)) .nil)))
    (.refl _) rfl .line

theorem lowers_arg {a : Arg} (h : ∀ n ∈ a.type.integers, allowed n) :
    Lowers binding allowed (lowerArg binding a) fun types e =>
      Denotes binding allowed types 4 e (.model (.arg a)) := by
  refine .bind (.place (lowers_type binding allowed a.type h) 5) fun e => ?_
  exact .call fun types he => .call (by decide)
    (.cons (.of (.text a.name)) (.cons (.of he) .nil)) (.refl _) rfl .line

/-- The value of an argument. -/
abbrev argValue (a : Arg) : Value := .model (.arg a)

/-- The values of the arguments of an instruction. -/
def instructionValues (x : Instruction) : Arguments :=
  let start : Arguments :=
    [("name", .text x.name), ("discriminator", .bytes x.discriminator),
      ("accounts", .list (x.accounts.map fun a => .model (.accountRef a))),
      ("args", .list (x.args.map argValue))]
  start ++ listValue "docs" (x.docs.map .text)

theorem construct_instruction {x : Instruction} (h : x.discriminator.length = discriminatorSize) :
    construct .instruction (instructionValues x) = some (.instruction x) := by
  have haccounts : Value.list? Value.accountRef?
      (.list (x.accounts.map fun a => .model (.accountRef a))) = some x.accounts :=
    list?_map fun _ _ => rfl
  have hargs : Value.list? Value.arg? (.list (x.args.map argValue)) = some x.args :=
    list?_map fun _ _ => rfl
  have hdocs : Arguments.docs (instructionValues x) = some x.docs := docs_append _ rfl x.docs
  simp only [construct, hdocs]
  simp [instructionValues, Arguments.required, Arguments.defaulted, Ordered.get?_cons, Value.text?,
    discriminator?_bytes h, haccounts, hargs]

theorem lowers_account {a : AccountRef} (h : CanonicalSlot a) :
    Lowers binding allowed (lowerAccount a) fun types e =>
      Denotes binding allowed types 4 e (.model (.accountRef a)) := by
  rw [lowerAccount_eq]
  exact .record fun types => denotes_account (by decide) h

theorem lowers_accountDefinition {a : AccountDefinition} (h : CanonicalLayout a) :
    Lowers binding allowed (lowerAccountDefinition a) fun types e =>
      Denotes binding allowed types 2 e (.model (.accountDefinition a)) := by
  rw [lowerAccountDefinition_eq]
  exact .record fun types => denotes_accountDefinition (by decide) h

theorem lowers_error {e : ErrorDefinition} (h : allowed e.code) :
    Lowers binding allowed (lowerError e) fun types f =>
      Denotes binding allowed types 2 f (.model (.errorDefinition e)) := by
  rw [lowerError_eq]
  exact .record fun types => denotes_error (by decide) h

theorem lowers_metadata (m : Metadata) :
    Lowers binding allowed (lowerMetadata m) fun types e =>
      Denotes binding allowed types 1 e (.model (.metadata m)) := by
  rw [lowerMetadata_eq]
  exact .record fun types => denotes_metadata (by decide) m

theorem lowers_instruction {x : Instruction} (h : CanonicalInstruction x)
    (hallowed : ∀ a ∈ x.args, ∀ n ∈ a.type.integers, allowed n) :
    Lowers binding allowed (lowerInstruction binding x) fun types e =>
      Denotes binding allowed types 2 e (.model (.instruction x)) := by
  refine .bind (.mapM fun a ha => lowers_account (h.accounts a ha)) fun accounts => ?_
  refine .bind (.mapM (g := argValue) fun a ha => lowers_arg (hallowed a ha)) fun args => ?_
  refine .call fun types hargs haccounts => ?_
  refine .call (by decide) (List.rel_append (.cons (.of (.text _))
    (.cons (.of (.bytes (by decide) _)) (.cons (.of (.list (by decide) haccounts .block))
      (.cons (.of (.list (by decide) hargs .block)) .nil))))
    (given_docsArgument (by decide) x.docs)) ?_ (construct_instruction h.discriminator) .block
  rw [List.map_append]
  exact (List.Sublist.refl _).append (sublist_listValue _ _)

theorem lowers_definition {t : TypeExpr} (h : ∀ n ∈ t.integers, allowed n) :
    Lowers binding allowed (lowerDefinition binding t) fun types e =>
      Denotes binding allowed types 3 e (typeValue t) := by
  cases t with
  | struct fields =>
    refine .bind (lowers_fields binding allowed fields h 5 (by decide)) fun es => ?_
    exact .call fun types hes => .call (by decide)
      (.cons (.of (.list (by decide) hes .block)) .nil) (.refl _) (construct_struct fields) .block
  | enum variants =>
    refine .bind (lowers_variants binding allowed variants h 5 (by decide)) fun es => ?_
    exact .call fun types hes => .call (by decide)
      (.cons (.of (.list (by decide) hes .block)) .nil) (.refl _) (construct_enum variants) .block
  | primitive _ | array _ _ | container _ _ | defined _ _ =>
    exact .place (lowers_type binding allowed _ h) 3

theorem construct_typeDefinition (d : TypeDefinition) :
    construct .typeDefinition
        (("name", .text d.name) :: ("type", typeValue d.type) ::
          listValue "docs" (d.docs.map .text)) =
      some (.typeDefinition d) := by
  have hdocs := docs_append [("name", .text d.name), ("type", typeValue d.type)] rfl d.docs
  rw [List.cons_append, List.singleton_append] at hdocs
  simp only [construct, hdocs]
  rfl

theorem lowers_typeDefinition {d : TypeDefinition} (h : ∀ n ∈ d.type.integers, allowed n) :
    Lowers binding allowed (lowerTypeDefinition binding d) fun types e =>
      Denotes binding allowed types 2 e (.model (.typeDefinition d)) := by
  refine .bind (lowers_definition h) fun e => ?_
  refine .call fun types he => .call (by decide) (.cons (.of (.text d.name))
    (.cons (.of he) (given_docsArgument (by decide) d.docs))) ?_ (construct_typeDefinition d)
    .block
  exact ((sublist_listValue _ _).cons_cons _).cons_cons _

/-- **The expression of a canonical schema denotes that schema,** after the helpers that were made
for it; it calls the class of schemas. -/
theorem lowers_schema {S : Schema} (h : S.Canonical) (hallowed : ∀ n ∈ S.integers, allowed n) :
    Lowers binding allowed (lowerSchema binding S) fun types e =>
      Denotes binding allowed types 0 e (.model (.schema S)) ∧ .schema ∈ e.callees := by
  simp only [Schema.integers, List.forall_mem_append, List.forall_mem_flatMap,
    List.forall_mem_map] at hallowed
  obtain ⟨⟨hinstructions, herrors⟩, htypes⟩ := hallowed
  refine .bind (lowers_metadata S.metadata) fun metadata => ?_
  refine .bind (.mapM fun x hx =>
    lowers_instruction (h.instructions x hx) (hinstructions x hx)) fun instructions => ?_
  refine .bind (.mapM fun a ha => lowers_accountDefinition (h.accounts a ha)) fun accounts => ?_
  refine .bind (.mapM fun e he => lowers_error (herrors e he)) fun errors => ?_
  refine .bind (.mapM fun d hd => lowers_typeDefinition (htypes d hd)) fun definitions => ?_
  refine .call fun types hdefinitions hcodes haccounts hlowered hmetadata => ?_
  exact ⟨.call (by decide) (.cons (.of (.text _)) (.cons (.of hmetadata)
    (.cons (.of (.list (by decide) hlowered .block))
    (.cons (.of (.list (by decide) haccounts .block))
    (.cons (.of (.list (by decide) hcodes .block))
    (.cons (.of (.list (by decide) hdefinitions .block)) .nil))))))
    (.refl _) (construct_schema S) .block, mem_callees_call ..⟩

end Bindings
end AnchorIdl
