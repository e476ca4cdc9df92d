/-
# Every fault is at its place

The error of a document that cannot be loaded names a kind and a place.  Read
back as steps, the place leads into the document, through existing objects and
lists, to a value that is faulty in the way the kind says (`load_error_at_fault`);
at most the last step is a member that is absent.  A duplicate is the one kind
that is no fault of a value by itself: the same value stands at a smaller index
of the same column.

Beside these errors loading and generating have three failures outside the
taxonomy, and no others (`generate_outcome`):

| failure | of |
| --- | --- |
| an integer cannot be read | a text or octets with an integer of too many digits |
| a text has no octets | a text constant with a lone surrogate |
| an integer cannot be written | a value that a message shows, or an integer of the schema |

The last needs an integer of too many digits again, and thus a value that no text
and no octets are read to (`Source.Short`).
-/

import AnchorIdl.Proofs.Bindings.RoundTrip
import AnchorIdl.Proofs.Document.Overlong

namespace AnchorIdl
namespace Document

/-! ### The place of an error -/

/-- What an error of some kind is about: a value that is faulty at its position, or in strict mode
one that stands at a smaller index of the same column too. -/
inductive Accused (strict : Bool) (document : Json) : FaultKind → Place → Option Json → Prop
  | faulty {kind : FaultKind} {place : Place} {r : Role} {value : Option Json}
      (position : Stands .document (some document) place r value)
      (fault : Faulty kind r value) : Accused strict document kind place value
  | repeated {c : Identity} {i j : Nat} {value : Json} (mode : strict = true) (before : j < i)
      (same : document.at? (c.place j) = some (some value)) :
      Accused strict document .duplicate (c.place i) (some value)

/-- The fault of a document that cannot be loaded can be told. -/
theorem isSome_message_of_load {strict : Bool} {source : Source} {f : Fault}
    (h : (load strict source).outcome = .error (.fault f)) : f.complaint.message.isSome = true := by
  rcases load_error_cases h with hread | ⟨S, -, ⟨hoverlong, -⟩ | ⟨-, c, x, i, -, hf, htold⟩⟩
  · rcases Logged.bind_outcome_eq_error.1 hread with hvalue | ⟨raw, -, hschema⟩
    · rcases Source.value?_error_cases hvalue with ⟨f', hf, htold⟩ | ⟨digits, hdigits⟩
      · cases hf
        exact htold
      · cases hdigits
    · obtain ⟨e, -, hraised⟩ := mapError_eq_error.1 hschema
      exact (raised_eq_fault_iff.1 hraised).2
  · cases hoverlong
  · cases hf
    exact htold

theorem accused_of_load {strict : Bool} {document : Members} {f : Fault}
    (h : (load strict (.value (.obj document))).outcome = .error (.fault f)) :
    ∃ place value, f.place = some place ∧ place.IsPlain ∧
      (Json.obj document).at? place = some value ∧
      Accused strict (.obj document) f.kind place value := by
  rcases load_error_cases h with
    hread | ⟨S, hread, ⟨hoverlong, -⟩ | ⟨hstrict, c, x, i, hfirst, hf, -⟩⟩
  · obtain ⟨e, he, hraised⟩ : ∃ e, (readSchema (.obj document)).outcome = .error e ∧
        e.raised = .fault f := mapError_eq_error.1 hread
    obtain ⟨rfl, -⟩ := raised_eq_fault_iff.1 hraised
    cases readSchema_blames _ he with
    | @fault steps r value complaint hs hf =>
      exact ⟨steps, value, rfl, hs.isPlain, hs.at? _ rfl, .faulty hs hf⟩
  · cases hoverlong
  · obtain ⟨document', hdocument, hform⟩ := Source.readSchema_eq_ok_iff.1 hread
    obtain rfl := Json.obj.inj (Except.ok.inj hdocument)
    obtain rfl := Rejection.fault.inj hf
    obtain ⟨j, hj⟩ := List.getElem?_of_mem hfirst.copy
    obtain ⟨hji, hj⟩ : j < i ∧ (c.column S)[j]? = some x := by
      simpa [List.getElem?_take, Option.ite_none_right_eq_some] using hj
    exact ⟨c.place i, some x, rfl, c.isPlain_place i, hform.at?_place hfirst.entry,
      .repeated hstrict hji (hform.at?_place hj)⟩

/-- **Every error of a document is about a fault at its place.**  The text of the place is read
back as steps; they lead into the document, to a value that the kind of the error is right about. -/
theorem load_error_at_fault {strict : Bool} {document : Members} {file file' : Option Path}
    {kind : FaultKind} {message path : Text}
    (h : ((load strict (.value (.obj document))).mapError (Rejection.toFailure file)).outcome =
      .error (.error (.schema kind message path file'))) :
    ∃ place value, Place.ofText? path = some place ∧
      (Json.obj document).at? place = some value ∧
      Accused strict (.obj document) kind place value := by
  cases hload : (load strict (.value (.obj document))).outcome with
  | ok S => simp [Logged.mapError, hload, Except.mapError] at h
  | error e =>
    simp only [Logged.mapError, hload, Except.mapError, Except.error.injEq] at h
    cases e with
    | unencodable fault => cases h
    | longInteger digits => cases h
    | overlong => cases h
    | fault f =>
      obtain ⟨place, value, hplace, hplain, hat, haccused⟩ := accused_of_load hload
      obtain ⟨message', hmessage⟩ := Option.isSome_iff_exists.1 (isSome_message_of_load hload)
      simp only [Rejection.toFailure, Fault.toError?, hmessage, Option.map_some,
        Failure.error.injEq, IdlError.schema.injEq, hplace, Option.elim_some] at h
      obtain ⟨rfl, -, rfl, -⟩ := h
      exact ⟨place, value, Place.ofText?_display hplain, hat, haccused⟩

/-- A document whose only fault is a seed without a path, inside a group of account slots. -/
def faultySample : Members :=
  [("instructions", .arr [.obj [("name", .str "send"),
    ("discriminator", .ofBytes [1, 2, 3, 4, 5, 6, 7, 8]),
    ("accounts", .arr [.obj [("name", .str "pool"), ("accounts", .arr [.obj [("name", .str "vault"),
      ("pda", .obj [("seeds", .arr [.obj [("kind", .str "arg")]])])]])]])]])]

theorem faultySample_error_at_fault :
    ((load true (.value (.obj faultySample))).mapError (Rejection.toFailure none)).outcome =
      .error (.error (.schema .missingField "arg seed requires a path"
        "instructions[0].accounts[0].accounts[0].pda.seeds[0].path" none)) ∧
    ∃ place value,
      Place.ofText? "instructions[0].accounts[0].accounts[0].pda.seeds[0].path" = some place ∧
      (Json.obj faultySample).at? place = some value ∧
      Accused true (.obj faultySample) .missingField place value := by
  have h : ((load true (.value (.obj faultySample))).mapError (Rejection.toFailure none)).outcome =
      .error (.error (.schema .missingField "arg seed requires a path"
        "instructions[0].accounts[0].accounts[0].pda.seeds[0].path" none)) := by
    decide +kernel
  exact ⟨h, load_error_at_fault h⟩

/-! ### Failures outside the taxonomy -/

/-- A failure that is no error of the library: the text of the document has an integer of too many
digits, the text of a constant seed has no octets, what is to be reported of the document cannot be
shown, or its schema has an integer that is too long to be printed. -/
inductive Escape (strict : Bool) (source : Source) : Failure → Prop
  | longInteger {digits : Nat} (h : source.value? = .error (.longInteger digits)) :
      Escape strict source (.longInteger digits)
  | unencodable {document : Members} {place : Place} {t : Text} {fault : Utf8.EncodeFault}
      (h : source.value? = .ok (.obj document))
      (position : Stands .document (some (.obj document)) place .constant (some (.str t)))
      (octets : Utf8.encode t = .error fault) : Escape strict source (.unencodable fault)
  | unshown {document : Members} (h : source.value? = .ok (.obj document))
      (unshowable : Unshowable document) : Escape strict source .overlong
  | unprinted {S : Schema} (h : (load strict source).outcome = .ok S)
      (long : ∃ n ∈ S.integers, Text.isShort n = false) : Escape strict source .overlong

/-- A loading that is rejected is rejected for a fault, which can be told, or escapes. -/
theorem rejection_cases {strict : Bool} {source : Source} {e : Rejection}
    (h : (load strict source).outcome = .error e) (file : Option Path) :
    (∃ f, e = .fault f ∧ f.complaint.message.isSome = true) ∨
      Escape strict source (e.toFailure file) := by
  rcases load_error_cases h with hread | ⟨S, -, ⟨rfl, -⟩ | ⟨-, c, x, i, -, rfl, htold⟩⟩
  · rcases Logged.bind_outcome_eq_error.1 hread with hvalue | ⟨raw, hraw, hschema⟩
    · rcases Source.value?_error_cases hvalue with hfault | ⟨digits, rfl⟩
      · exact .inl hfault
      · exact .inr (.longInteger hvalue)
    · obtain ⟨e', he', rfl⟩ := mapError_eq_error.1 hschema
      rcases readSchema_error_cases he' with rfl | ⟨document, rfl⟩
      · exact .inl ⟨_, rfl, rfl⟩
      · cases readSchema_blames _ he' with
        | unencodable hs ht => exact .inr (.unencodable hraw hs ht)
        | @fault steps r value complaint hs hf hshown =>
          rcases raised_fault_cases ⟨complaint, some ([] ++ steps)⟩ with hraised | hraised
          · exact .inl ⟨_, hraised, (raised_eq_fault_iff.1 hraised).2⟩
          · rw [hraised]
            exact .inr (.unshown hraw (unshowable_of_error he' hraised))
  · obtain ⟨document, hvalue, hunshowable⟩ := load_error_overlong h
    exact .inr (.unshown hvalue hunshowable)
  · exact .inl ⟨_, rfl, htold⟩

/-- What comes of a text or of octets can be shown and printed. -/
theorem Escape.not_short {strict : Bool} {source : Source} (h : Escape strict source .overlong) :
    ¬ source.Short := by
  intro hshort
  cases h with
  | unshown hvalue hunshowable => exact hunshowable.not_short (hshort _ hvalue)
  | unprinted hload hlong =>
    obtain ⟨n, hn, hlong⟩ := hlong
    rw [Bindings.short_of_load hshort hload n hn] at hlong
    cases hlong

theorem checkNames_error_cases {name binding : Text} {e : IdlError}
    (h : Bindings.checkNames name binding = .error e) : ∃ message, e = .emission message none := by
  unfold Bindings.checkNames at h
  split_ifs at h
  · exact ⟨_, (Except.error.inj h).symm⟩
  · exact ⟨_, (Except.error.inj h).symm⟩

/-- **What may come of generating bindings:** the whole module, the error of a faulty document, the
error of a bad name, or one of the failures that escape; from a text or octets, an integer that is
too long to be written is none of them. -/
theorem generate_outcome (strict : Bool) (source : Source) (name binding : Text) :
    ((∃ S, (load strict source).outcome = .ok S ∧ Bindings.checkNames name binding = .ok () ∧
      (generate strict source name binding).outcome =
        .ok (BindingsWriter.next { schema := S, name, binding }).1.render) ∨
    (∃ kind message path, (generate strict source name binding).outcome =
      .error (.error (.schema kind message path none))) ∨
    (∃ message, Bindings.checkNames name binding = .error (.emission message none) ∧
      (generate strict source name binding).outcome =
        .error (.error (.emission message none))) ∨
    ∃ e, (generate strict source name binding).outcome = .error e ∧ Escape strict source e) ∧
    (Escape strict source .overlong → ¬ source.Short) := by
  refine ⟨?_, Escape.not_short⟩
  cases hload : (load strict source).outcome with
  | error e =>
    have hgenerate := generate_of_rejected hload name binding
    rcases rejection_cases hload none with ⟨f, rfl, htold⟩ | hescape
    · obtain ⟨message, hmessage⟩ := Option.isSome_iff_exists.1 htold
      rw [Rejection.toFailure, Fault.toError?, hmessage] at hgenerate
      exact .inr (.inl ⟨_, _, _, hgenerate⟩)
    · exact .inr (.inr (.inr ⟨_, hgenerate, hescape⟩))
  | ok S =>
    rw [generate_of_loaded hload]
    rcases Bindings.emit_cases S name binding with
      ⟨e, hnames, hemit⟩ | ⟨hnames, hlong, hemit⟩ | ⟨hnames, -, hemit⟩
    · obtain ⟨message, rfl⟩ := checkNames_error_cases hnames
      exact .inr (.inr (.inl ⟨message, hnames, hemit⟩))
    · exact .inr (.inr (.inr ⟨_, hemit, .unprinted hload hlong⟩))
    · exact .inl ⟨S, rfl, hnames, hemit⟩

/-- A lone surrogate in the text of a constant seed escapes. -/
example :
    (load false (.value (.obj [("accounts", .arr [.obj [("name", .str "vault"), ("pda", .obj
      [("seeds", .arr [.obj
        [("kind", .str "const"), ("value", .str [⟨0xD800, by decide⟩])]])])]])]))).outcome =
      .error (.unencodable ⟨0, [⟨0xD800, by decide⟩]⟩) := by
  decide +kernel

end Document
end AnchorIdl
