/-
# What expressions denote

An expression of a bindings module denotes a value once the classes that it calls
are imported and the helpers that it names are bound.

`Denotes binding allowed types depth e v` says this of `e`, given that the
helpers so far stand for `types`, and that `e` can be read where `depth`
brackets are open.  `Denotes.call` is the one rule for calls: a call denotes
what its class makes of the values of its arguments.
-/

import AnchorIdl.Proofs.Bindings.Draft
import AnchorIdl.Proofs.Bindings.Term
import AnchorIdl.Proofs.Script.Evaluation

namespace AnchorIdl
namespace Bindings

open Script

/-- The environment binds `bytes` and the helpers for some types. -/
structure Knows (binding : Text) (types : List TypeExpr) (env : Env) : Prop where
  bytes : env.get? "bytes" = some .bytesType
  helpers : ∀ (k : Nat) (t : TypeExpr), types[k]? = some t →
    env.get? (helperName binding k) = some (.model (.typeExpr t))

/-- The environment binds the classes that an expression calls. -/
def Imported (env : Env) (e : Expr) : Prop :=
  ∀ c ∈ e.callees, env.get? c.name = some (.class c)

/-- How many brackets are open at most. -/
def maxDepth : Nat := 105

/-- Below a type expression that is no helper, six more brackets are open at most. -/
theorem add_le_maxDepth {depth : Nat} (h : depth < maxNesting) : depth + 6 ≤ maxDepth := by
  unfold maxNesting at h
  unfold maxDepth
  omega

/-- Inside `depth` open brackets an expression can be read without a bracket more than the
`maxDepth`th. -/
def Fits (allowed : Int → Prop) (depth : Nat) (e : Expr) : Prop :=
  ∀ n, maxDepth ≤ depth + n → Legible allowed n e

/-- After the helpers for some types, an expression has a value, and it can be read inside `depth`
open brackets. -/
structure Denotes (binding : Text) (allowed : Int → Prop) (types : List TypeExpr) (depth : Nat)
    (e : Expr) (v : Value) : Prop where
  eval : ∀ env, Knows binding types env → Imported env e → e.term.eval env = some v
  legible : ∀ n, maxDepth ≤ depth + n → Legible allowed n e

variable {binding : Text} {allowed : Int → Prop} {types : List TypeExpr} {depth : Nat}

theorem Fits.list {items : List Expr} (hd : depth + 1 ≤ maxDepth)
    (each : ∀ e ∈ items, Fits allowed (depth + 1) e) (layout : Layout) :
    Fits allowed depth (.list layout items) := by
  intro n hn
  obtain ⟨n, rfl⟩ : ∃ k, n = k + 1 := ⟨n - 1, by omega⟩
  exact .list layout fun e he => each e he n (by omega)

theorem Fits.bytes (hd : depth + 2 ≤ maxDepth) (b : Bytes) : Fits allowed depth (.bytes b) := by
  intro n hn
  obtain ⟨n, rfl⟩ : ∃ k, n = k + 2 := ⟨n - 2, by omega⟩
  exact .bytes n b

/-! ### Literals -/

theorem Denotes.text (t : Text) : Denotes binding allowed types depth (.text t) (.text t) :=
  ⟨fun _ _ _ => rfl, fun n _ => .text n t⟩

theorem Denotes.int {n : Int} (h : allowed n) :
    Denotes binding allowed types depth (.int n) (.int n) :=
  ⟨fun _ _ _ => rfl, fun n _ => .int n h⟩

theorem Denotes.bool (b : Bool) : Denotes binding allowed types depth (.bool b) (.bool b) :=
  ⟨fun _ _ _ => rfl, fun n _ => .bool n b⟩

theorem Denotes.none : Denotes binding allowed types depth .none .none :=
  ⟨fun _ _ _ => rfl, fun n _ => .none n⟩

theorem evalItems_map {α : Type} {env : Env} {f : α → Term} {g : α → Value} {xs : List α}
    (h : ∀ x ∈ xs, (f x).eval env = some (g x)) : evalItems env (xs.map f) = some (xs.map g) := by
  induction xs with
  | nil => rfl
  | cons x xs ih =>
    rw [List.forall_mem_cons] at h
    simp [evalItems, h.1, ih h.2]

theorem Denotes.bytes (hd : depth + 2 ≤ maxDepth) (b : Bytes) :
    Denotes binding allowed types depth (.bytes b) (.bytes b) where
  eval env henv _ := by
    have hitems : evalItems env (b.map fun b => .int b.toNat) =
        some (b.map fun b => .int b.toNat) :=
      evalItems_map fun _ _ => rfl
    have hbytes : Value.list? Value.byte? (.list (b.map fun b => .int b.toNat)) = some b := by
      refine list?_map fun b _ => ?_
      change (if b.toNat < 256 then some (UInt8.ofNat b.toNat) else Option.none) = some b
      rw [if_pos b.toNat_lt, UInt8.ofNat_toNat]
    simp [Expr.term, Term.eval, evalArguments, henv.bytes, hitems, apply, hbytes]
  legible := Fits.bytes hd b

theorem Imported.items {env : Env} {layout : Layout} {items : List Expr}
    (h : Imported env (.list layout items)) : ∀ e ∈ items, Imported env e := by
  intro e he c hc
  refine h c ?_
  rw [callees_list]
  exact List.mem_flatMap_of_mem he hc

theorem Imported.arguments {env : Env} {layout : Layout} {callee : Constructor}
    {arguments : List (Text × Expr)} (h : Imported env (.call layout callee arguments)) :
    ∀ a ∈ arguments, Imported env a.2 := by
  intro a ha c hc
  refine h c ?_
  rw [callees_call]
  exact List.mem_append_left _ (List.mem_flatMap.2 ⟨a, ha, hc⟩)

theorem Imported.callee {env : Env} {layout : Layout} {callee : Constructor}
    {arguments : List (Text × Expr)} (h : Imported env (.call layout callee arguments)) :
    env.get? callee.name = some (.class callee) :=
  h callee (mem_callees_call layout callee arguments)

theorem Denotes.list {items : List Expr} {vs : List Value}
    (hd : depth + 1 ≤ maxDepth)
    (h : List.Forall₂ (Denotes binding allowed types (depth + 1)) items vs) (layout : Layout) :
    Denotes binding allowed types depth (.list layout items) (.list vs) where
  eval env henv himported := by
    have hitems : evalItems env (itemTerms items) = some vs := by
      have heach := himported.items
      clear himported hd
      induction h with
      | nil => rfl
      | cons head _ ih =>
        rw [List.forall_mem_cons] at heach
        simp [itemTerms, evalItems, head.eval env henv heach.1, ih heach.2]
    simp [Expr.term, Term.eval, hitems]
  legible := by
    refine Fits.list hd ?_ layout
    clear hd
    induction h with
    | nil => simp
    | cons head _ ih => exact List.forall_mem_cons.2 ⟨head.legible, ih⟩

/-! ### Calls -/

/-- The keywords that calls of a class have, in order; some of them may be left out. -/
def parameters : Constructor → List Text
  | .accountDefinition =>
    ["name", "writable", "signer", "optional", "address", "pda", "docs", "discriminator"]
  | .accountRef => ["name", "writable", "signer", "optional", "address", "pda", "docs"]
  | .arg => ["name", "type"]
  | .arrayType => ["element", "length"]
  | .definedType => ["name", "generics"]
  | .enumType => ["variants"]
  | .enumVariant => ["name", "fields", "items"]
  | .errorDefinition => ["code", "name", "msg"]
  | .fieldDef | .typeDefinition => ["name", "type", "docs"]
  | .instruction => ["name", "discriminator", "accounts", "args", "docs"]
  | .metadata => ["name", "version", "spec", "description"]
  | .pdaRule => ["seeds", "program"]
  | .pdaSeed => ["kind", "value", "path", "account", "text"]
  | .primitiveType => ["name"]
  | .schema => ["address", "metadata", "instructions", "accounts", "errors", "types"]
  | .structType => ["fields"]
  | .vecType | .optionType | .cOptionType => ["element"]

theorem isName_of_mem_parameters {c : Constructor} : ∀ key ∈ parameters c, IsName key := by
  cases c <;> decide

theorem nodup_parameters (c : Constructor) : (parameters c).Nodup := by
  cases c <;> decide

theorem Fits.call {callee : Constructor} {arguments : List (Text × Expr)}
    (hd : depth + 1 ≤ maxDepth)
    (keys : (arguments.map Prod.fst).Sublist (parameters callee))
    (each : ∀ a ∈ arguments, Fits allowed (depth + 1) a.2) (layout : Layout) :
    Fits allowed depth (.call layout callee arguments) := by
  intro n hn
  obtain ⟨n, rfl⟩ : ∃ k, n = k + 1 := ⟨n - 1, by omega⟩
  refine .call layout callee (fun a ha => ?_) (keys.nodup (nodup_parameters callee)) ?_
  · exact isName_of_mem_parameters _ (keys.subset (List.mem_map_of_mem ha))
  · exact fun a ha => each a ha n (by omega)

/-- An argument of a call with its value. -/
structure Given (binding : Text) (allowed : Int → Prop) (types : List TypeExpr) (depth : Nat)
    (a : Text × Expr) (b : Text × Value) : Prop where
  key : a.1 = b.1
  value : Denotes binding allowed types depth a.2 b.2

theorem keywords_map (values : Arguments) :
    keywords (values.map fun b => (some b.1, b.2)) = some values := by
  unfold keywords
  induction values with
  | nil => rfl
  | cons b values ih =>
    simp only [List.map_cons, List.mapM_cons, ih]
    rfl

theorem Given.of {key : Text} {e : Expr} {v : Value}
    (h : Denotes binding allowed types depth e v) :
    Given binding allowed types depth (key, e) (key, v) :=
  ⟨rfl, h⟩

theorem keys_eq {arguments : List (Text × Expr)} {values : Arguments}
    (h : List.Forall₂ (Given binding allowed types depth) arguments values) :
    arguments.map Prod.fst = values.map Prod.fst := by
  induction h with
  | nil => rfl
  | cons head _ ih => rw [List.map_cons, List.map_cons, head.key, ih]

/-- **A call denotes what its class makes of its arguments.** -/
theorem Denotes.call {callee : Constructor} {arguments : List (Text × Expr)} {values : Arguments}
    {m : Model} (hd : depth + 1 ≤ maxDepth)
    (h : List.Forall₂ (Given binding allowed types (depth + 1)) arguments values)
    (keys : (values.map Prod.fst).Sublist (parameters callee))
    (hm : construct callee values = some m) (layout : Layout) :
    Denotes binding allowed types depth (.call layout callee arguments) (.model m) where
  eval env henv himported := by
    have harguments : evalArguments env (argumentTerms arguments) =
        some (values.map fun b => (some b.1, b.2)) := by
      have heach := himported.arguments
      clear himported keys hm hd
      induction h with
      | nil => rfl
      | cons head _ ih =>
        rw [List.forall_mem_cons] at heach
        simp [argumentTerms, evalArguments, head.value.eval env henv heach.1, head.key, ih heach.2]
    simp [Expr.term, Term.eval, himported.callee, harguments, apply, keywords_map, hm]
  legible := by
    rw [← keys_eq h] at keys
    refine Fits.call hd keys ?_ layout
    clear keys hm hd
    induction h with
    | nil => simp
    | cons head _ ih => exact List.forall_mem_cons.2 ⟨head.value.legible, ih⟩

end Bindings
end AnchorIdl
