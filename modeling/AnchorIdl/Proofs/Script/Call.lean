/-
# Calls of classes

What a class asks of the arguments of a call, besides the types of its fields,
can be said of the arguments alone (`Asks`):

| class | asks for |
| --- | --- |
| `Instruction` | a discriminator of eight bytes |
| `AccountDefinition` | a discriminator of eight bytes, if there is one |
| `ArrayType` | a length that is not negative |
| `PrimitiveType` | the name of a primitive type |
| `PdaSeed` | the name of a kind, and the value, the text or the path that it needs |
| `PdaRule` | a first seed |

Whatever a class accepts, it has asked for (`asks_of_construct`).  In the other
direction a call that gives every field of a part yields that part.
-/

import AnchorIdl.Proofs.Ordered
import AnchorIdl.Proofs.Script.Evaluation
import AnchorIdl.Proofs.Text.Basic

namespace AnchorIdl
namespace Script

open Bindings (Constructor)

/-- A call of a class. -/
structure Call where
  callee : Constructor
  arguments : Arguments

/-- The part that the class of a call yields. -/
def Call.part? (c : Call) : Option Model := construct c.callee c.arguments

/-- What a seed of a kind has to carry. -/
def AsksSeed (arguments : Arguments) : SeedKind → Prop
  | .const => ∃ value, arguments.get? "value" = some (.bytes value)
  | .string => ∃ text, arguments.get? "text" = some (.text text)
  | .account | .arg => ∃ path, arguments.get? "path" = some (.text path) ∧ path ≠ []

/-- What a class asks of its arguments besides their types. -/
def Asks : Constructor → Arguments → Prop
  | .instruction, arguments =>
    ∃ value, arguments.get? "discriminator" = some (.bytes value) ∧
      value.length = discriminatorSize
  | .accountDefinition, arguments =>
    ∀ v, arguments.get? "discriminator" = some v →
      v = .none ∨ ∃ value, v = .bytes value ∧ value.length = discriminatorSize
  | .arrayType, arguments => ∃ n : Nat, arguments.get? "length" = some (.int n)
  | .primitiveType, arguments => ∃ p : Primitive, arguments.get? "name" = some (.text p.name)
  | .pdaSeed, arguments =>
    ∃ kind : SeedKind, arguments.get? "kind" = some (.text kind.name) ∧ AsksSeed arguments kind
  | .pdaRule, arguments =>
    ∃ seed rest, arguments.get? "seeds" = some (.list (.model (.seed seed) :: rest))
  | _, _ => True

/-- The class of a call has what it asks for, and yields a part. -/
structure Call.Valid (c : Call) : Prop where
  asks : Asks c.callee c.arguments
  yields : ∃ part, c.part? = some part

/-! ### What an accepted call has given -/

variable {arguments : Arguments} {key : Text}

theorem required_eq_some_iff {α : Type} {use : Value → Option α} {a : α} :
    arguments.required key use = some a ↔ ∃ v, arguments.get? key = some v ∧ use v = some a :=
  Option.bind_eq_some_iff

theorem discriminator?_eq_some_iff {v : Value} {value : Bytes} :
    v.discriminator? = some value ↔ v = .bytes value ∧ value.length = discriminatorSize := by
  unfold Value.discriminator?
  rw [Option.filter_eq_some_iff]
  cases v <;> simp [Value.bytes?]

theorem nat?_eq_some_iff {v : Value} {n : Nat} : v.nat? = some n ↔ v = .int n := by
  cases v with
  | int m =>
    cases m with
    | ofNat m =>
      simp only [Value.nat?, Option.some.injEq, Value.int.injEq]
      exact Int.ofNat_inj.symm
    | negSucc m => simp [Value.nat?]
  | _ => simp [Value.nat?]

theorem text?_eq_some_iff {v : Value} {t : Text} : v.text? = some t ↔ v = .text t := by
  cases v <;> simp [Value.text?]

theorem bytes?_eq_some_iff {v : Value} {b : Bytes} : v.bytes? = some b ↔ v = .bytes b := by
  cases v <;> simp [Value.bytes?]

theorem primitive?_eq_some_iff {v : Value} {p : Primitive} :
    v.primitive? = some p ↔ v = .text p.name := by
  constructor
  · intro h
    cases v with
    | text t =>
      have hname := List.find?_some h
      rw [decide_eq_true_eq] at hname
      rw [hname]
    | _ => simp [Value.primitive?] at h
  · rintro rfl
    exact primitive?_name p

theorem seedKind?_eq_some_iff {v : Value} {kind : SeedKind} :
    v.seedKind? = some kind ↔ v = .text kind.name := by
  constructor
  · intro h
    cases v with
    | text t =>
      have hname := List.find?_some h
      rw [decide_eq_true_eq] at hname
      rw [hname]
    | _ => simp [Value.seedKind?] at h
  · rintro rfl
    exact seedKind?_name kind

theorem seed?_eq_some_iff {v : Value} {s : Seed} : v.seed? = some s ↔ v = .model (.seed s) := by
  cases v with
  | model part => cases part <;> simp [Value.seed?, Value.model?]
  | _ => simp [Value.seed?, Value.model?]

/-- A value of an optional field is `None`, or a value of its type. -/
theorem option?_cases {α : Type} {use : Value → Option α} {v : Value} {x : Option α}
    (h : Value.option? use v = some x) : v = .none ∨ ∃ a, use v = some a ∧ x = some a := by
  by_cases hv : v = .none
  · exact .inl hv
  have huse : (use v).map some = some x := by
    cases v <;> first | exact absurd rfl hv | exact h
  obtain ⟨a, ha, rfl⟩ := Option.map_eq_some_iff.1 huse
  exact .inr ⟨a, ha, rfl⟩

/-- An optional field with a value was given. -/
theorem get?_of_defaulted {α : Type} {use : Value → Option α} {a : α}
    (h : arguments.defaulted key none (Value.option? use) = some (some a)) :
    ∃ v, arguments.get? key = some v ∧ use v = some a := by
  unfold Arguments.defaulted at h
  cases hget : arguments.get? key with
  | none => simp [hget] at h
  | some v =>
    rw [hget] at h
    obtain rfl | ⟨b, hb, hab⟩ := option?_cases h
    · cases h
    · exact ⟨v, rfl, Option.some.inj hab ▸ hb⟩

/-- The first of the values that stand for some parts. -/
theorem exists_cons_of_list? {α : Type} {use : Value → Option α} {part : α → Value}
    (hpart : ∀ {v a}, use v = some a ↔ v = part a) {v : Value} {a : α} {more : List α}
    (h : v.list? use = some (a :: more)) : ∃ rest, v = .list (part a :: rest) := by
  cases v with
  | list items =>
    change items.mapM use = some (a :: more) at h
    cases items with
    | nil => cases h
    | cons item rest =>
      rw [List.mapM_cons] at h
      simp only [Option.bind_eq_bind, Option.bind_eq_some_iff, Option.pure_def, Option.some.injEq,
        List.cons.injEq] at h
      obtain ⟨_, hitem, _, -, rfl, -⟩ := h
      exact ⟨rest, by rw [hpart.1 hitem]⟩
  | _ => cases h

theorem asksSeed_of_hasPayload {s : Seed} (h : s.hasPayload = true)
    (hvalue : arguments.defaulted "value" none (Value.option? Value.bytes?) = some s.value)
    (hpath : arguments.defaulted "path" none (Value.option? Value.text?) = some s.path)
    (htext : arguments.defaulted "text" none (Value.option? Value.text?) = some s.text) :
    AsksSeed arguments s.kind := by
  obtain ⟨kind, value, path, account, text⟩ := s
  cases kind with
  | const =>
    obtain ⟨value, rfl⟩ := Option.isSome_iff_exists.1 h
    obtain ⟨v, hv, hbytes⟩ := get?_of_defaulted hvalue
    exact ⟨value, bytes?_eq_some_iff.1 hbytes ▸ hv⟩
  | string =>
    obtain ⟨text, rfl⟩ := Option.isSome_iff_exists.1 h
    obtain ⟨v, hv, hstring⟩ := get?_of_defaulted htext
    exact ⟨text, text?_eq_some_iff.1 hstring ▸ hv⟩
  | account | arg =>
    match path with
    | some (c :: rest) =>
      obtain ⟨v, hv, hstring⟩ := get?_of_defaulted hpath
      exact ⟨c :: rest, text?_eq_some_iff.1 hstring ▸ hv, List.cons_ne_nil c rest⟩
    | some [] | none => simp [Seed.hasPayload] at h

/-- **What a class accepts has what it asks for.** -/
theorem asks_of_construct {callee : Constructor} {part : Model}
    (h : construct callee arguments = some part) : Asks callee arguments := by
  cases callee with
  | instruction =>
    simp only [construct, Option.bind_eq_bind, Option.bind_eq_some_iff, required_eq_some_iff] at h
    obtain ⟨-, -, value, ⟨v, hv, hvalue⟩, -⟩ := h
    obtain ⟨rfl, hlength⟩ := discriminator?_eq_some_iff.1 hvalue
    exact ⟨value, hv, hlength⟩
  | accountDefinition =>
    simp only [construct, Option.bind_eq_bind, Option.bind_eq_some_iff] at h
    obtain ⟨-, -, value?, hvalue, -⟩ := h
    intro v hv
    rw [Arguments.defaulted, hv] at hvalue
    exact (option?_cases hvalue).imp_right fun ⟨value, hbytes, _⟩ =>
      ⟨value, discriminator?_eq_some_iff.1 hbytes⟩
  | arrayType =>
    simp only [construct, Option.bind_eq_bind, Option.bind_eq_some_iff, required_eq_some_iff] at h
    obtain ⟨-, -, n, ⟨v, hv, hn⟩, -⟩ := h
    exact ⟨n, nat?_eq_some_iff.1 hn ▸ hv⟩
  | primitiveType =>
    simp only [construct, Option.bind_eq_bind, Option.bind_eq_some_iff, required_eq_some_iff] at h
    obtain ⟨p, ⟨v, hv, hp⟩, -⟩ := h
    exact ⟨p, primitive?_eq_some_iff.1 hp ▸ hv⟩
  | pdaSeed =>
    simp only [construct, Option.bind_eq_bind, Option.bind_eq_some_iff, required_eq_some_iff] at h
    obtain ⟨kind, ⟨v, hv, hkind⟩, value, hvalue, path, hpath, account, -, text, htext, hseed⟩ := h
    refine ⟨kind, seedKind?_eq_some_iff.1 hkind ▸ hv, ?_⟩
    split at hseed
    · next hpayload => exact asksSeed_of_hasPayload hpayload hvalue hpath htext
    · cases hseed
  | pdaRule =>
    simp only [construct, Option.bind_eq_bind, Option.bind_eq_some_iff, required_eq_some_iff] at h
    obtain ⟨seeds, ⟨v, hv, hseeds⟩, program, -, hrule⟩ := h
    split at hrule
    · cases hrule
    · next hne =>
      obtain ⟨seed, more, rfl⟩ := List.exists_cons_of_ne_nil hne
      obtain ⟨rest, rfl⟩ := exists_cons_of_list? seed?_eq_some_iff hseeds
      exact ⟨seed, rest, hv⟩
  | _ => trivial

/-! ### Calls that yield a part -/

/-- The argument for a discriminator, which is left out if there is none. -/
def discriminatorArgument : Option Bytes → Arguments
  | none => []
  | some value => [("discriminator", .bytes value)]

/-- A discriminator of eight bytes is found behind other arguments. -/
theorem defaulted_discriminatorArgument {start : Arguments} {value : Option Bytes}
    (hstart : start.get? "discriminator" = none)
    (h : ∀ b ∈ value, b.length = discriminatorSize) :
    Arguments.defaulted (start ++ discriminatorArgument value) "discriminator" none
      (Value.option? Value.discriminator?) = some value := by
  rw [Arguments.defaulted, Ordered.get?_append, hstart, Option.none_or]
  cases value with
  | none => rfl
  | some b =>
    change (Value.discriminator? (.bytes b)).map some = some (some b)
    rw [discriminator?_bytes (h b rfl), Option.map_some]

theorem construct_struct (fields : List Field) :
    construct .structType [("fields", .list (fields.map fun f => .model (.field f)))] =
      some (.typeExpr (.struct fields)) := by
  have hfields : Value.list? Value.field? (.list (fields.map fun f => .model (.field f))) =
      some fields :=
    list?_map fun _ _ => rfl
  simp [construct, Arguments.defaulted, Ordered.get?_cons, hfields]

theorem construct_enum (variants : List Variant) :
    construct .enumType [("variants", .list (variants.map fun v => .model (.variant v)))] =
      some (.typeExpr (.enum variants)) := by
  have hvariants : Value.list? Value.variant?
      (.list (variants.map fun v => .model (.variant v))) = some variants :=
    list?_map fun _ _ => rfl
  simp [construct, Arguments.defaulted, Ordered.get?_cons, hvariants]

theorem construct_schema (S : Schema) :
    construct .schema [("address", .text S.address), ("metadata", .model (.metadata S.metadata)),
        ("instructions", .list (S.instructions.map fun x => .model (.instruction x))),
        ("accounts", .list (S.accounts.map fun a => .model (.accountDefinition a))),
        ("errors", .list (S.errors.map fun e => .model (.errorDefinition e))),
        ("types", .list (S.types.map fun d => .model (.typeDefinition d)))] =
      some (.schema S) := by
  have hinstructions : Value.list? Value.instruction?
      (.list (S.instructions.map fun x => .model (.instruction x))) = some S.instructions :=
    list?_map fun _ _ => rfl
  have haccounts : Value.list? Value.accountDefinition?
      (.list (S.accounts.map fun a => .model (.accountDefinition a))) = some S.accounts :=
    list?_map fun _ _ => rfl
  have herrors : Value.list? Value.errorDefinition?
      (.list (S.errors.map fun e => .model (.errorDefinition e))) = some S.errors :=
    list?_map fun _ _ => rfl
  have htypes : Value.list? Value.typeDefinition?
      (.list (S.types.map fun d => .model (.typeDefinition d))) = some S.types :=
    list?_map fun _ _ => rfl
  simp [construct, Arguments.defaulted, Ordered.get?_cons, Value.text?, Value.metadata?,
    Value.model?, hinstructions, haccounts, herrors, htypes]

end Script
end AnchorIdl
