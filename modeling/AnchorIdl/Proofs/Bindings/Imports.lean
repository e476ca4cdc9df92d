/-
# The imports of an emitted module

An emitted module imports what it calls: the classes whose constructors are
called below the import, in the schema or in a helper, and no others.  What is
called is told in four ways that agree:

| in | calls |
| --- | --- |
| the text of the module | the words in front of parentheses, outside literals (`calledNames`) |
| the script that the text is read as | the callees of its terms (`called`) |
| the expressions of the module | their callees (`Expr.callees`) |
| the draft when the schema has been written | the calls that were recorded (`used`) |

The import is made of the last, in ascending order.  Calls are recorded one by
one while expressions are written, and none is recorded twice
(`Hoists.mem_used`, `Hoists.nodup_used`), so no class stands twice in the import.
Only `bytes`, which is called too, is no class and needs no import; all classes
are exported by their package.  The main statement is `emit_imports`.
-/

import AnchorIdl.Proofs.Bindings.Nesting
import AnchorIdl.Proofs.Script.Calls

namespace AnchorIdl
namespace Bindings

open Script

/-! ### Expressions -/

section Expressions

variable {allowed : Int → Prop} {n : Nat}

theorem isIdentifierContinue_constructor (c : Constructor) :
    ∀ d ∈ c.name, d.isIdentifierContinue = true := by
  cases c <;> decide

theorem constructor_name_ne_nil (c : Constructor) : c.name ≠ [] := by
  cases c <;> decide

theorem constructor_name_injective : Function.Injective Constructor.name := by
  intro c d h
  cases c <;> cases d <;> first | rfl | exact absurd h (by decide)

theorem constructor_name_ne_bytes (c : Constructor) : c.name ≠ "bytes" := by
  cases c <;> decide

theorem itemsCalled_eq_flatMap (items : List Term) :
    Term.itemsCalled items = items.flatMap Term.called := by
  induction items with
  | nil => rfl
  | cons t rest ih => rw [Term.itemsCalled, ih, List.flatMap_cons]

theorem argumentsCalled_eq_flatMap (arguments : List (Option Text × Term)) :
    Term.argumentsCalled arguments = arguments.flatMap fun a => a.2.called := by
  induction arguments with
  | nil => rfl
  | cons a rest ih => rw [Term.argumentsCalled, ih, List.flatMap_cons]

theorem separates_indentation (level : Nat) : Separates (Expr.indentation (level + 1)) := by
  refine separates_signs (List.ne_nil_of_length_pos (by simp [Expr.indentation])) fun c hc => ?_
  rw [List.eq_of_mem_replicate hc]
  decide

/-- What a layout puts between brackets calls what its parts call. -/
theorem invokes_inside {α : Type} {f : α → Text} {g : α → List Text} {xs : List α}
    (h : ∀ x ∈ xs, Invokes (f x) (g x)) (layout : Layout) (level : Nat) :
    Invokes (inside layout level (xs.map f)) (xs.flatMap g) := by
  cases layout with
  | line =>
    cases xs with
    | nil => exact follows_nil.invokes
    | cons x xs =>
      obtain ⟨hx, hxs⟩ := List.forall_mem_cons.1 h
      have hcomma : Separates (Text.ofString ", ") := separates_signs (by decide) (by decide)
      rw [List.map_cons, inside, join_cons, List.flatMap_map]
      exact hx.append (.flatMap fun y hy => hcomma.append (hxs y hy))
  | block =>
    have hend : Separates (Text.ofString ",\n") := separates_signs (by decide) (by decide)
    rw [inside, List.flatMap_map]
    have hlines : Follows (xs.flatMap fun x => partLine level (f x)) (xs.flatMap g) :=
      .flatMap fun x hx => by
        have hline := ((separates_indentation level).append (h x hx)).append hend.follows
        rwa [List.append_nil] at hline
    have hlast : Follows (Expr.indentation level) [] := follows_plain (isPlain_indentation level)
    have hall := (separates_feed.follows.append hlines).append hlast
    rw [List.append_nil] at hall
    exact hall.invokes

/-- Parts that call nothing. -/
theorem invokes_inside_nil {α : Type} {f : α → Text} {xs : List α} (h : ∀ x ∈ xs, Follows (f x) [])
    (layout : Layout) (level : Nat) : Invokes (inside layout level (xs.map f)) [] := by
  have hinside := @invokes_inside α f (fun _ => []) xs (fun x hx => (h x hx).invokes) layout level
  rwa [List.flatMap_eq_nil_iff.2 fun _ _ => rfl] at hinside

theorem invokes_bytes (b : Bytes) :
    Invokes ("bytes(" ++ Seed.displayBytes b ++ ")" : Text) [Text.ofString "bytes"] := by
  have hitems : Invokes (Text.join ", " (b.map fun b => Text.ofNat b.toNat)) [] :=
    invokes_inside_nil (fun b _ => follows_plain (isPlain_ofNat b.toNat)) .line 0
  exact @Invokes.call _ _ "bytes" (by decide) (by decide) hitems.listed

theorem called_bytes (b : Bytes) : (Expr.bytes b).term.called = [Text.ofString "bytes"] := by
  have hnone : Term.itemsCalled (b.map fun b => .int b.toNat) = [] := by
    rw [itemsCalled_eq_flatMap, List.flatMap_map]
    exact List.flatMap_eq_nil_iff.2 fun _ _ => rfl
  simp [Expr.term, Term.called, Term.argumentsCalled, hnone]

/-- **The text of an expression calls what its term calls.** -/
theorem Legible.invokes {e : Expr} (h : Legible allowed n e) :
    ∀ level, Invokes (e.render level) e.term.called := by
  induction h with
  | text n t => exact fun _ => (separates_literal t).follows.invokes
  | @int n i _ => exact fun _ => (follows_plain (isPlain_ofInt i)).invokes
  | bytes n b => exact fun _ => called_bytes b ▸ invokes_bytes b
  | bool n b =>
    cases b with
    | true => exact fun _ => (follows_plain (t := "True") (by decide)).invokes
    | false => exact fun _ => (follows_plain (t := "False") (by decide)).invokes
  | none n => exact fun _ => (follows_plain (t := "None") (by decide)).invokes
  | name n ht => exact fun _ => (follows_plain (isPlain_of_isName ht)).invokes
  | @list layout n items _ ih =>
    intro level
    obtain ⟨layout', hrender⟩ := render_list layout items level
    have hitems := invokes_inside (fun e he => ih e he (level + 1)) layout' level
    rw [hrender, Expr.term, Term.called, itemTerms_eq_map, itemsCalled_eq_flatMap, List.flatMap_map]
    exact hitems.listed
  | @call layout callee n arguments keys _ _ ih =>
    intro level
    have heq : Separates (Text.ofString "=") := separates_signs (by decide) (by decide)
    have harguments : ∀ a ∈ arguments, Invokes (argumentText (level + 1) a) a.2.term.called := by
      intro a ha
      have hkey := Separates.after (follows_plain (isPlain_of_isName (keys a ha))) heq
      exact (hkey.append (ih a ha (level + 1))).invokes
    rw [render_call, Expr.term, Term.called, argumentTerms_eq_map, argumentsCalled_eq_flatMap,
      List.flatMap_map]
    exact (invokes_inside harguments layout level).call (isIdentifierContinue_constructor callee)
      (constructor_name_ne_nil callee)

/-! ### Classes -/

variable {x : Text}

mutual

/-- Apart from `bytes`, a term calls the classes that its expression calls. -/
theorem mem_called_iff (hbytes : x ≠ "bytes") : ∀ e : Expr,
    x ∈ e.term.called ↔ ∃ c ∈ e.callees, c.name = x
  | .text _ | .int _ | .bool _ | .none | .name _ => by
    simp [Expr.term, Term.called, Expr.callees]
  | .bytes b => by
    rw [called_bytes]
    simp [hbytes]
  | .list _ items => mem_itemsCalled_iff hbytes items
  | .call _ callee arguments => by
    rw [Expr.term, Term.called, List.mem_cons, mem_argumentsCalled_iff hbytes arguments,
      Expr.callees]
    simp only [List.mem_append, List.mem_singleton]
    grind

theorem mem_itemsCalled_iff (hbytes : x ≠ "bytes") : ∀ items : List Expr,
    x ∈ Term.itemsCalled (itemTerms items) ↔ ∃ c ∈ itemCallees items, c.name = x
  | [] => by simp [itemTerms, Term.itemsCalled, itemCallees]
  | e :: rest => by
    rw [itemTerms, Term.itemsCalled, List.mem_append, mem_called_iff hbytes e,
      mem_itemsCalled_iff hbytes rest, itemCallees]
    simp only [List.mem_append]
    grind

theorem mem_argumentsCalled_iff (hbytes : x ≠ "bytes") : ∀ arguments : List (Text × Expr),
    x ∈ Term.argumentsCalled (argumentTerms arguments) ↔
      ∃ c ∈ argumentCallees arguments, c.name = x
  | [] => by simp [argumentTerms, Term.argumentsCalled, argumentCallees]
  | (_, e) :: rest => by
    rw [argumentTerms, Term.argumentsCalled, List.mem_append, mem_called_iff hbytes e,
      mem_argumentsCalled_iff hbytes rest, argumentCallees]
    simp only [List.mem_append]
    grind

end

end Expressions

end Bindings

/-! ### Modules -/

namespace BindingsModule

open Bindings Script

variable {allowed : Int → Prop} {n : Nat} {m : BindingsModule}

theorem called_script (m : BindingsModule) :
    m.script.called = m.assignments.flatMap fun a => a.2.term.called := by
  rw [Script.called, script, List.flatMap_map]

theorem follows_title (h : ∀ c ∈ m.name, c ≠ '"' ∧ c ≠ '\\') : Follows (unlines m.title) [] := by
  have hquotes : Text.ofString "\"\"\"" =
      [CodePoint.ofChar '"', CodePoint.ofChar '"', CodePoint.ofChar '"'] := rfl
  have hempty : Separates [CodePoint.ofChar '"', CodePoint.ofChar '"'] :=
    @separates_quoted '"' [] (by decide) fun _ => rfl
  have htext : Separates (CodePoint.ofChar '"' :: m.titleText ++ [CodePoint.ofChar '"']) :=
    separates_quoted (by decide) (.quiet (titleText_plain h))
  have hend : Separates (Text.ofString "\n\n") := separates_signs (by decide) (by decide)
  have hall := ((hempty.follows.append htext.follows).append hempty.follows).append hend.follows
  have htitle := unlines_title m []
  rw [List.append_nil, List.append_nil] at htitle
  rw [htitle, hquotes]
  simpa using hall

/-- The import of some names. -/
def importText (names : List Text) : Text :=
  "from idlforge.core.ir import (" ++ ("\n" ++ names.flatMap (partLine 0)) ++ ")\n"

theorem unlines_importLines (m : BindingsModule) :
    unlines m.importLines = importText m.script.imports ++ "\n" := by
  have hfeed : Text.ofString "\n" = [CodePoint.ofChar '\n'] := rfl
  have hstop : Text.ofString ")\n" = CodePoint.ofChar ')' :: [CodePoint.ofChar '\n'] := rfl
  have hindent : Expr.indentation 0 = [] := rfl
  have himports := unlines_imports m []
  rw [List.append_nil] at himports
  rw [himports, importText, script]
  simp [hfeed, hstop, hindent]

/-- An import calls nothing: `import` is a word, but a blank ends it. -/
theorem follows_importText {names : List Text} (h : ∀ x ∈ names, IsName x) :
    Follows (importText names) [] := by
  have hstart : Text.ofString "from idlforge.core.ir import (" =
      Text.ofString "from idlforge.core.ir import" ++ Text.ofString " " ++ [CodePoint.ofChar '('] :=
    rfl
  have hstop : Text.ofString ")\n" = [CodePoint.ofChar ')'] ++ Text.ofString "\n" := rfl
  have hindent : Expr.indentation 0 = [] := rfl
  have hfrom : Separates (Text.ofString "from idlforge.core.ir import" ++ Text.ofString " ") :=
    .after (follows_plain (by decide)) (separates_signs (by decide) (by decide))
  have hplain : ∀ x ∈ names, Follows x [] := fun x hx => follows_plain (isPlain_of_isName (h x hx))
  have hnames := invokes_inside_nil (f := id) hplain .block 0
  rw [List.map_id] at hnames
  have hall := (hfrom.append hnames.grouped).append separates_feed.follows
  rw [importText, hstart, hstop]
  simpa [inside, hindent] using hall

theorem Spelled.follows {lines : List Text} {as : List (Text × Expr)} (h : Spelled lines as)
    (targets : ∀ a ∈ as, IsName a.1) (legible : ∀ a ∈ as, Legible allowed n a.2) :
    Follows (unlines lines) (as.flatMap fun a => a.2.term.called) := by
  induction h with
  | nil => exact follows_nil
  | blank _ ih => exact separates_feed.follows.append (ih targets legible)
  | @assignment lines as a _ ih =>
    rw [List.forall_mem_cons] at targets legible
    have hequals : Separates (a.1 ++ " = " : Text) :=
      .after (follows_plain (isPlain_of_isName targets.1))
        (separates_signs (by decide) (by decide))
    have hvalue := (hequals.append (legible.1.invokes 0)).append separates_feed.follows
    rw [List.append_nil] at hvalue
    exact hvalue.append (ih targets.2 legible.2)

end BindingsModule

namespace Bindings

open Script BindingsModule

/-- The names that the package of the classes exports. -/
def packageExports : List Text :=
  ["DISCRIMINATOR_SIZE", "AccountDefinition", "AccountRef", "Discriminator", "PdaRule", "PdaSeed",
    "SeedKind", "Arg", "ErrorDefinition", "Instruction", "Metadata", "Schema", "TypeDefinition",
    "LEGACY_PRIMITIVE_ALIASES", "ArrayType", "COptionType", "DefinedType", "EnumType",
    "EnumVariant", "FieldDef", "OptionType", "PrimitiveName", "PrimitiveType", "StructType",
    "TypeExpression", "VecType", "iter_defined_names"].map Text.ofString

/-- A script, from its text, imports what it calls below. -/
structure ImportsMatch (binding title body : Text) (script : Script) : Prop where
  reads : Script.read (title ++ importText script.imports ++ body) = some script
  ascending : script.imports.Pairwise fun a b => Text.le a b = true ∧ a ≠ b
  above : calledNames (title ++ importText script.imports) = []
  below : calledNames body = script.called
  used : ∀ x, x ∈ script.imports ↔ x ∈ calledNames body ∧ x ≠ "bytes"
  exported : ∀ x ∈ script.imports, x ∈ packageExports
  places : ∀ a ∈ script.assignments, a.2.called ≠ [] →
    a.1 = binding ∨ ∃ k, a.1 = helperName binding k

variable {S : Schema} {name binding : Text}

theorem pairwise_imports (m : BindingsModule) :
    m.imports.Pairwise fun c d => Constructor.le c d = true :=
  @List.pairwise_mergeSort _ Constructor.le (fun _ _ _ => Text.le_trans)
    (fun c d => Bool.or_eq_true_iff.2 (Text.le_total c.name d.name)) m.draft.used

/-- The recorded calls, each of which is recorded once, are imported in ascending order. -/
theorem ascending_imports {m : BindingsModule} (h : m.draft.used.Nodup) :
    m.script.imports.Pairwise fun a b => Text.le a b = true ∧ a ≠ b := by
  have hdistinct : m.imports.Nodup := (List.mergeSort_perm _ _).nodup_iff.2 h
  rw [script, List.pairwise_map]
  exact (pairwise_imports m).imp₂
    (fun c d hle hne => ⟨hle, constructor_name_injective.ne hne⟩) hdistinct

/-- Whatever the order is in which calls were recorded, the import is the same. -/
theorem imports_eq {m : BindingsModule} {sorted : List Constructor}
    (hperm : m.draft.used.Perm sorted)
    (h : sorted.Pairwise fun c d => Constructor.le c d = true) : m.imports = sorted :=
  ((List.mergeSort_perm _ _).trans hperm).eq_of_pairwise
    (fun _ _ _ _ hcd hdc => constructor_name_injective (Text.le_antisymm hcd hdc))
    (pairwise_imports m) h

theorem name_mem_packageExports (c : Constructor) : c.name ∈ packageExports := by
  cases c <;> decide

/-- Constants and exports call nothing. -/
theorem called_closing {m : BindingsModule} {a : Text × Expr} (ha : a ∈ closing m) :
    a.2.term.called = [] := by
  rcases List.mem_append.1 ha with ha | ha
  · obtain ⟨c, -, rfl⟩ := List.mem_map.1 ha
    rfl
  · rw [List.mem_singleton.1 ha, exportList, Expr.term, Term.called, itemTerms_eq_map,
      itemsCalled_eq_flatMap, List.map_map, List.flatMap_map]
    exact List.flatMap_eq_nil_iff.2 fun _ _ => rfl

/-- Apart from `bytes`, a module calls the classes that it imports: they are recorded while the
schema is lowered. -/
theorem mem_imports_iff_called (S : Schema) (name binding x : Text) :
    let script := (moduleFor S name binding).script
    x ∈ script.imports ↔ x ∈ script.called ∧ x ≠ "bytes" := by
  have himports : x ∈ (moduleFor S name binding).script.imports ↔
      ∃ c ∈ (lowered binding S).1.callees ++ helperCallees (lowered binding S).2.helpers,
        c.name = x := by
    simp only [script, List.mem_map, mem_imports, List.mem_append, ← mem_used_lowered]
    rfl
  have hcalled : x ∈ (moduleFor S name binding).script.called ↔
      x ∈ (lowered binding S).1.term.called ∨
        ∃ a ∈ (lowered binding S).2.helpers, x ∈ a.2.term.called := by
    have hclosing : (closing (moduleFor S name binding)).flatMap (fun a => a.2.term.called) = [] :=
      List.flatMap_eq_nil_iff.2 fun a ha => called_closing ha
    rw [called_script, assignments_moduleFor, List.flatMap_append, List.flatMap_cons, hclosing,
      List.append_nil, List.mem_append, List.mem_flatMap, or_comm]
  dsimp only
  rw [himports, hcalled]
  by_cases hx : x = "bytes"
  · simp only [hx, ne_eq, not_true_eq_false, and_false, iff_false, not_exists, not_and]
    exact fun c _ => constructor_name_ne_bytes c
  · simp only [mem_called_iff hx, List.mem_append, helperCallees, List.mem_flatMap]
    constructor
    · rintro ⟨c, hc | ⟨a, ha, hc⟩, hname⟩
      · exact ⟨.inl ⟨c, hc, hname⟩, hx⟩
      · exact ⟨.inr ⟨a, ha, c, hc, hname⟩, hx⟩
    · rintro ⟨⟨c, hc, hname⟩ | ⟨a, ha, c, hc, hname⟩, -⟩
      · exact ⟨c, .inl hc, hname⟩
      · exact ⟨c, .inr ⟨a, ha, hc⟩, hname⟩

/-- **An emitted module imports exactly the classes that it calls,** in ascending order. -/
theorem emit_imports (S : Schema) (hnames : checkNames name binding = .ok ()) :
    ∃ title body script,
      (emit S name binding).outcome = printed S (title ++ importText script.imports ++ body) ∧
        ImportsMatch binding title body script := by
  let m := moduleFor S name binding
  have hreadable := readable_moduleFor S hnames
  have hrender : m.render =
      unlines m.title ++ importText m.script.imports ++ ("\n" ++ unlines m.body) := by
    rw [render_eq, unlines_importLines]
    simp
  have hbody : Follows ("\n" ++ unlines m.body) m.script.called := by
    rw [called_script]
    exact separates_feed.follows.append (m.spelled_body.follows hreadable.targets hreadable.legible)
  have habove : Follows (unlines m.title ++ importText m.script.imports) [] := by
    refine (follows_title hreadable.title).append (follows_importText ?_)
    exact List.forall_mem_map.2 fun c _ => isName_constructor c
  refine ⟨unlines m.title, "\n" ++ unlines m.body, m.script, ?_, ?_⟩
  · rw [← hrender, emit_outcome, hnames]
    rfl
  constructor
  case reads => exact hrender ▸ read_render hreadable
  case ascending => exact ascending_imports nodup_used_lowered
  case above => exact habove.invokes.calledNames_eq
  case below => exact hbody.invokes.calledNames_eq
  case used =>
    intro x
    rw [hbody.invokes.calledNames_eq]
    exact mem_imports_iff_called S name binding x
  case exported => exact List.forall_mem_map.2 fun c _ => name_mem_packageExports c
  case places =>
    refine List.forall_mem_map.2 fun a ha hcalled => ?_
    rw [assignments_moduleFor] at ha
    rcases List.mem_append.1 ha with ha | ha
    · have hname : a.1 ∈ (lowered binding S).2.helpers.map Prod.fst := List.mem_map_of_mem ha
      rw [names_lowered] at hname
      obtain ⟨k, -, hk⟩ := List.mem_map.1 hname
      exact .inr ⟨k, hk.symm⟩
    · rcases List.mem_cons.1 ha with rfl | ha
      · exact .inl rfl
      · exact absurd (called_closing ha) hcalled

/-- A schema with a type whose name looks like a call. -/
def callSample : Schema where
  types := [{ name := "Arg(", type := .container .vec (.primitive .u8) }]

theorem callSample_imports :
    ∃ title body script,
      (emit callSample "gateway" "GATEWAY").outcome =
          .ok (title ++ importText script.imports ++ body) ∧
        ImportsMatch "GATEWAY" title body script ∧
        script.imports = ["Metadata", "PrimitiveType", "Schema", "TypeDefinition", "VecType"].map
          Text.ofString := by
  obtain ⟨title, body, script, hemit, h⟩ :=
    @emit_imports "gateway" "GATEWAY" callSample (by decide)
  -- The order of the import follows from what it holds.
  have himports : (moduleFor callSample "gateway" "GATEWAY").imports =
      [.metadata, .primitiveType, .schema, .typeDefinition, .vecType] :=
    imports_eq (by decide) (by decide)
  have htext : (emit callSample "gateway" "GATEWAY").outcome =
      .ok (moduleFor callSample "gateway" "GATEWAY").render :=
    emit_outcome callSample "gateway" "GATEWAY"
  have hnames : checkNames "gateway" "GATEWAY" = .ok () := by decide
  have hread := read_render (readable_moduleFor callSample hnames)
  refine ⟨title, body, script, hemit, h, ?_⟩
  rw [← Except.ok.inj (hemit.symm.trans htext), h.reads, Option.some.injEq] at hread
  rw [hread, BindingsModule.script, himports]
  rfl

end Bindings
end AnchorIdl
