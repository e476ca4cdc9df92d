/-
# What a draft records

While an expression is written, each of its calls is recorded in the draft by
itself.  `Expr.callees` lists the calls of a finished expression, in the order in
which they are written: those in the arguments of a call come before it.

The parts of a schema that hold no type expression make no helpers, so all that
writing them does to the draft is to add the callees of their expressions, one
after the other (`record`).  That is shown here for each of them (`lowerSeed_eq`,
…, `lowerError_eq`); their expressions do not depend on the draft.
-/

import AnchorIdl.Bindings.Module

namespace AnchorIdl
namespace Bindings

/-! ### Callees -/

mutual

/-- The constructors that an expression calls, in the order in which the calls are written. -/
def Expr.callees : Expr → List Constructor
  | .list _ items => itemCallees items
  | .call _ callee arguments => argumentCallees arguments ++ [callee]
  | _ => []

/-- The constructors that some items call. -/
def itemCallees : List Expr → List Constructor
  | [] => []
  | e :: rest => e.callees ++ itemCallees rest

/-- The constructors that some arguments call. -/
def argumentCallees : List (Text × Expr) → List Constructor
  | [] => []
  | (_, e) :: rest => e.callees ++ argumentCallees rest

end

@[simp] theorem callees_text (t : Text) : (Expr.text t).callees = [] := by simp [Expr.callees]

@[simp] theorem callees_int (n : Int) : (Expr.int n).callees = [] := by simp [Expr.callees]

@[simp] theorem callees_bytes (b : Bytes) : (Expr.bytes b).callees = [] := by simp [Expr.callees]

@[simp] theorem callees_bool (b : Bool) : (Expr.bool b).callees = [] := by simp [Expr.callees]

@[simp] theorem callees_none : Expr.none.callees = [] := by simp [Expr.callees]

theorem itemCallees_eq_flatMap (items : List Expr) :
    itemCallees items = items.flatMap Expr.callees := by
  induction items with
  | nil => rfl
  | cons e rest ih => rw [itemCallees, ih, List.flatMap_cons]

theorem argumentCallees_eq_flatMap (arguments : List (Text × Expr)) :
    argumentCallees arguments = arguments.flatMap fun a => a.2.callees := by
  induction arguments with
  | nil => rfl
  | cons a rest ih => rw [argumentCallees, ih, List.flatMap_cons]

theorem callees_list (layout : Layout) (items : List Expr) :
    (Expr.list layout items).callees = items.flatMap Expr.callees := by
  rw [Expr.callees, itemCallees_eq_flatMap]

theorem callees_call (layout : Layout) (callee : Constructor) (arguments : List (Text × Expr)) :
    (Expr.call layout callee arguments).callees =
      arguments.flatMap (fun a => a.2.callees) ++ [callee] := by
  rw [Expr.callees, argumentCallees_eq_flatMap]

theorem mem_callees_call (layout : Layout) (callee : Constructor)
    (arguments : List (Text × Expr)) : callee ∈ (Expr.call layout callee arguments).callees := by
  rw [callees_call]
  exact List.mem_append_right _ (List.mem_singleton_self _)

theorem callees_texts (values : List Text) : (Expr.texts values).callees = [] := by
  simp [Expr.texts, callees_list]

theorem callees_textOrNone (t : Option Text) : (Expr.textOrNone t).callees = [] := by
  cases t <;> simp [Expr.textOrNone]

theorem callees_docsArgument (docs : List Text) : ∀ a ∈ docsArgument docs, a.2.callees = [] := by
  cases docs with
  | nil => simp [docsArgument]
  | cons t docs => simp [docsArgument, callees_texts]

/-! ### Recording -/

/-- A draft after some more calls. -/
def Draft.useAll (d : Draft) (calls : List Constructor) : Draft := calls.foldl Draft.use d

@[simp] theorem Draft.useAll_nil (d : Draft) : d.useAll [] = d := rfl

theorem Draft.useAll_append (d : Draft) (calls more : List Constructor) :
    d.useAll (calls ++ more) = (d.useAll calls).useAll more :=
  List.foldl_append ..

theorem Draft.useAll_concat (d : Draft) (calls : List Constructor) (c : Constructor) :
    d.useAll (calls ++ [c]) = (d.useAll calls).use c :=
  Draft.useAll_append ..

@[simp] theorem Draft.helpers_useAll (d : Draft) (calls : List Constructor) :
    (d.useAll calls).helpers = d.helpers := by
  induction calls generalizing d with
  | nil => rfl
  | cons c calls ih => exact ih (d.use c)

/-- Write an expression without helpers: its calls are added to the draft. -/
def record (e : Expr) : Lowering Expr := do
  modify (Draft.useAll · e.callees)
  return e

/-- An expression without calls leaves no trace. -/
theorem record_of_nil {e : Expr} (h : e.callees = []) : record e = return e := by
  funext d
  simp only [record, h, Draft.useAll_nil]
  rfl

@[simp] theorem record_text (t : Text) : record (.text t) = return .text t :=
  record_of_nil (callees_text t)

@[simp] theorem record_int (n : Int) : record (.int n) = return .int n :=
  record_of_nil (callees_int n)

@[simp] theorem record_bytes (b : Bytes) : record (.bytes b) = return .bytes b :=
  record_of_nil (callees_bytes b)

/-- Parts that are recorded one after the other are recorded as a list of them. -/
theorem mapM_eq_record {α : Type} {lower : α → Lowering Expr} {f : α → Expr}
    (h : ∀ x, lower x = record (f x)) (xs : List α) (layout : Layout) :
    xs.mapM lower = do
      let _ ← record (.list layout (xs.map f))
      return xs.map f := by
  induction xs with
  | nil => rw [record_of_nil (by simp [callees_list])]; rfl
  | cons x xs ih =>
    rw [List.mapM_cons, ih, h]
    funext d
    have hcallees : (Expr.list layout ((x :: xs).map f)).callees =
        (f x).callees ++ (Expr.list layout (xs.map f)).callees := by
      simp [callees_list]
    simp only [record, hcallees, Draft.useAll_append]
    rfl

/-- A call whose arguments are recorded before is recorded itself. -/
theorem record_call (layout : Layout) (callee : Constructor) (arguments : List (Text × Expr))
    (d : Draft) :
    (record (.call layout callee arguments)).run d =
      (.call layout callee arguments,
        (d.useAll (arguments.flatMap fun a => a.2.callees)).use callee) := by
  simp only [record, callees_call, Draft.useAll_concat]
  rfl

/-! ### What holds no type expression -/

/-- The expression for a seed. -/
def seedExpr (s : Seed) : Expr := .inline .pdaSeed (seedArguments s)

/-- The argument for the seed of another program, if there is one. -/
def programArgument : Option Seed → List (Text × Expr)
  | none => []
  | some seed => [("program", seedExpr seed)]

/-- The expression for the rule of an address. -/
def pdaExpr (p : Pda) : Expr :=
  .spread .pdaRule (("seeds", .list .block (p.seeds.map seedExpr)) :: programArgument p.program)

/-- The expression for the rule of an address, or none. -/
def pdaOrNone : Option Pda → Expr
  | none => .none
  | some p => pdaExpr p

/-- The arguments that account slots and account layouts share. -/
def accountArguments (a : AccountRef) : List (Text × Expr) := slotArguments a (pdaOrNone a.pda)

/-- The expression for an account slot. -/
def accountExpr (a : AccountRef) : Expr := .spread .accountRef (accountArguments a)

/-- The expression for an account layout. -/
def accountDefinitionExpr (a : AccountDefinition) : Expr :=
  .spread .accountDefinition (accountArguments a.toAccountRef ++ layoutArgument a.discriminator)

/-- The expression for a program's metadata. -/
def metadataExpr (m : Metadata) : Expr :=
  .spread .metadata
    [("name", .text m.name), ("version", .text m.version), ("spec", .text m.spec),
      ("description", .text m.description)]

/-- The expression for an error. -/
def errorExpr (e : ErrorDefinition) : Expr :=
  .inline .errorDefinition [("code", .int e.code), ("name", .text e.name), ("msg", .text e.msg)]

/-- A call is recorded by itself if its arguments call nothing. -/
theorem call_eq_record {layout : Layout} {callee : Constructor} {arguments : List (Text × Expr)}
    (h : ∀ a ∈ arguments, a.2.callees = []) :
    call layout callee arguments = record (.call layout callee arguments) := by
  funext d
  have hcallees : (Expr.call layout callee arguments).callees = [callee] := by
    rw [callees_call, List.flatMap_eq_nil_iff.2 h, List.nil_append]
  simp only [record, hcallees]
  rfl

theorem callees_seedArguments (s : Seed) : ∀ a ∈ seedArguments s, a.2.callees = [] := by
  obtain ⟨kind, value, path, account, text⟩ := s
  cases kind <;> cases account <;> simp [seedArguments]

theorem lowerSeed_eq (s : Seed) : lowerSeed s = record (seedExpr s) :=
  call_eq_record (callees_seedArguments s)

theorem lowerPda_eq (p : Pda) : lowerPda p = record (pdaExpr p) := by
  obtain ⟨seeds, program⟩ := p
  funext d
  rw [lowerPda, mapM_eq_record lowerSeed_eq seeds .block]
  refine .trans ?_ (record_call ..).symm
  cases program with
  | none =>
    simp only [programArgument, List.flatMap_cons, List.flatMap_nil, List.append_nil]
    rfl
  | some seed =>
    simp only [lowerProgram, lowerSeed_eq, programArgument, List.flatMap_cons, List.flatMap_nil,
      List.append_nil, Draft.useAll_append]
    rfl

theorem lowerPda?_eq (p : Option Pda) : lowerPda? p = record (pdaOrNone p) := by
  cases p with
  | none => exact (record_of_nil callees_none).symm
  | some p => exact lowerPda_eq p

/-- Among the arguments of an account, that for the rule alone holds calls. -/
theorem flatMap_accountArguments (a : AccountRef) :
    (accountArguments a).flatMap (fun b => b.2.callees) = (pdaOrNone a.pda).callees := by
  have hdocs := List.flatMap_eq_nil_iff.2 (callees_docsArgument a.docs)
  simp only [accountArguments, slotArguments, List.flatMap_append, hdocs]
  cases a.optional <;> simp [callees_textOrNone]

theorem lowerAccount_eq (a : AccountRef) : lowerAccount a = record (accountExpr a) := by
  funext d
  rw [lowerAccount, lowerPda?_eq]
  refine .trans ?_ (record_call ..).symm
  rw [flatMap_accountArguments]
  rfl

theorem lowerAccountDefinition_eq (a : AccountDefinition) :
    lowerAccountDefinition a = record (accountDefinitionExpr a) := by
  have hlayout : (layoutArgument a.discriminator).flatMap (fun b => b.2.callees) = [] := by
    cases a.discriminator <;> simp [layoutArgument]
  funext d
  rw [lowerAccountDefinition, lowerPda?_eq]
  refine .trans ?_ (record_call ..).symm
  rw [List.flatMap_append, flatMap_accountArguments, hlayout, List.append_nil]
  rfl

theorem lowerMetadata_eq (m : Metadata) : lowerMetadata m = record (metadataExpr m) :=
  call_eq_record (by simp)

theorem lowerError_eq (e : ErrorDefinition) : lowerError e = record (errorExpr e) :=
  call_eq_record (by simp)

end Bindings
end AnchorIdl
