/-
# Which names are accepted

A module name should be a *dotted name*: ASCII identifiers with points between
them, none of them reserved, and nothing before or after.  Every dotted name is
accepted, but not only those.  A line feed at the end is passed over when the
parts are told from other texts, and stays in the last part when they are told
from the reserved words, so the last part of such a name may be reserved too
(`isModuleName_iff`):

| name | accepted |
| --- | --- |
| a dotted name | yes |
| identifiers with points between them, of which one is reserved | no |
| the same and a line feed, if no part but the last is reserved | yes |
| anything else | no |

The name of a binding is an identifier that is not reserved.

The names are looked at before anything is rendered, that of the module first.
Whatever writes the bindings of a loaded schema ends alike: refused names with
the error of the first that is refused (`Refused`), and accepted names with the
bindings (`Accepted`), unless these cannot be printed, or not be written to their
file.  A schema that was loaded from a text or from octets can be printed.  There
is nothing else (`names_decide`).
-/

import AnchorIdl.Proofs.Bindings.RoundTrip
import AnchorIdl.Proofs.Generation.Files

namespace AnchorIdl
namespace Bindings

variable {parts : List Text} {last t name binding : Text} {S : Schema}

/-! ### Dotted names -/

/-- An ASCII identifier that is not reserved. -/
def IsPart (t : Text) : Prop := t.isAsciiIdentifier = true ∧ t.isReserved = false

/-- Identifiers with points between them, none of them reserved. -/
def IsDotted (t : Text) : Prop :=
  ∃ parts, parts ≠ [] ∧ t = Text.join "." parts ∧ ∀ part ∈ parts, IsPart part

/-- Identifiers with points between them and a line feed at the end; the last may be reserved. -/
def IsDottedLine (t : Text) : Prop :=
  ∃ parts last, t = Text.join "." (parts ++ [last]) ++ "\n" ∧ (∀ part ∈ parts, IsPart part) ∧
    last.isAsciiIdentifier = true

theorem ne_of_isAsciiIdentifier {c : CodePoint} (h : t.isAsciiIdentifier = true)
    (hc : c.isWord = false) : c ∉ t := by
  intro hmem
  have hword := isWord_of_isAsciiIdentifier h c hmem
  rw [hc] at hword
  cases hword

/-- Identifiers are the pieces of what they are joined to. -/
theorem split_join_identifiers (hne : parts ≠ [])
    (h : ∀ part ∈ parts, Text.isAsciiIdentifier part = true) :
    Text.split '.' (Text.join "." parts) = parts :=
  Text.split_join hne fun part hpart => ne_of_isAsciiIdentifier (h part hpart) (by decide)

/-- No reserved word ends in a line feed. -/
theorem isReserved_lineFeed (t : Text) : Text.isReserved (t ++ "\n") = false := by
  have hwords : ∀ w ∈ Text.reservedWords, CodePoint.ofChar '\n' ∉ w := by decide
  rw [Text.isReserved, Bool.eq_false_iff]
  intro h
  refine hwords _ (List.contains_iff_mem.1 h) (List.mem_append_right t ?_)
  decide

theorem withoutLineFeed_lineFeed (t : Text) : withoutLineFeed (t ++ "\n") = t := by
  have hlast : (t ++ Text.ofString "\n").getLast? = some (CodePoint.ofChar '\n') :=
    List.getLast?_concat
  rw [withoutLineFeed, if_pos hlast]
  exact List.dropLast_concat

theorem withoutLineFeed_of_ne (h : ∀ s : Text, t ≠ s ++ "\n") : withoutLineFeed t = t := by
  refine if_neg fun hlast => ?_
  obtain ⟨s, hs⟩ := List.getLast?_eq_some_iff.1 hlast
  exact h s hs

/-- A dotted name does not end in a line feed. -/
theorem IsDotted.ne_lineFeed (h : IsDotted t) (s : Text) : t ≠ s ++ "\n" := by
  rintro rfl
  obtain ⟨parts, hparts_ne, heq, hparts⟩ := h
  have hmem : CodePoint.ofChar '\n' ∈ s ++ Text.ofString "\n" :=
    List.mem_append_right s (by decide)
  have hne : CodePoint.ofChar '\n' ≠ CodePoint.ofChar '.' := by decide
  obtain ⟨part, hpart, hfeed⟩ := Text.exists_mem_split hmem hne
  rw [heq, split_join_identifiers hparts_ne fun part hpart => (hparts part hpart).1] at hpart
  exact ne_of_isAsciiIdentifier (hparts part hpart).1 (by decide) hfeed

/-- Without a line feed at its end a name is accepted exactly if it is dotted. -/
theorem isModuleName_of_ne (h : ∀ s : Text, t ≠ s ++ "\n") :
    isModuleName t = true ↔ IsDotted t := by
  simp only [isModuleName, withoutLineFeed_of_ne h, Bool.and_eq_true, List.all_eq_true,
    Bool.not_eq_true']
  constructor
  · rintro ⟨hidentifiers, hfree⟩
    exact ⟨_, Text.split_ne_nil '.' t, (Text.join_split '.' t).symm,
      fun part hpart => ⟨hidentifiers part hpart, hfree part hpart⟩⟩
  · rintro ⟨parts, hne, rfl, hparts⟩
    rw [split_join_identifiers hne fun part hpart => (hparts part hpart).1]
    exact ⟨fun part hpart => (hparts part hpart).1, fun part hpart => (hparts part hpart).2⟩

/-- The line feed at the end of a name belongs to its last piece. -/
theorem split_lineFeed (h : ∀ part ∈ parts ++ [last], Text.isAsciiIdentifier part = true) :
    Text.split '.' (Text.join "." (parts ++ [last]) ++ "\n") = parts ++ [last ++ "\n"] := by
  rw [Text.join_append]
  refine Text.split_join (by simp) fun piece hpiece => ?_
  rcases List.mem_append.1 hpiece with hpart | hlast
  · exact ne_of_isAsciiIdentifier (h piece (List.mem_append_left _ hpart)) (by decide)
  · rw [List.mem_singleton.1 hlast, List.mem_append, not_or]
    exact ⟨ne_of_isAsciiIdentifier (h last (by simp)) (by decide), by decide⟩

/-- With a line feed at its end a name is accepted if no part but the last is reserved. -/
theorem isModuleName_lineFeed (t : Text) :
    isModuleName (t ++ "\n") = true ↔ IsDottedLine (t ++ "\n") := by
  simp only [isModuleName, withoutLineFeed_lineFeed, Bool.and_eq_true, List.all_eq_true,
    Bool.not_eq_true']
  constructor
  · rintro ⟨hidentifiers, hfree⟩
    obtain ⟨parts, last, hsplit⟩ :=
      (List.eq_nil_or_concat (Text.split '.' t)).resolve_left (Text.split_ne_nil '.' t)
    rw [List.concat_eq_append] at hsplit
    have ht : t = Text.join "." (parts ++ [last]) := by
      rw [← hsplit]
      exact (Text.join_split '.' t).symm
    rw [hsplit] at hidentifiers
    rw [ht, split_lineFeed hidentifiers] at hfree
    refine ⟨parts, last, by rw [ht], fun part hpart => ⟨?_, ?_⟩, hidentifiers last (by simp)⟩
    · exact hidentifiers part (List.mem_append_left _ hpart)
    · exact hfree part (List.mem_append_left _ hpart)
  · rintro ⟨parts, last, heq, hparts, hlast⟩
    obtain rfl := List.append_cancel_right heq
    have hidentifiers : ∀ part ∈ parts ++ [last], Text.isAsciiIdentifier part = true :=
      List.forall_mem_append.2 ⟨fun part hpart => (hparts part hpart).1, by simpa using hlast⟩
    rw [split_join_identifiers (by simp) hidentifiers, split_lineFeed hidentifiers]
    refine ⟨hidentifiers, List.forall_mem_append.2 ⟨fun part hpart => (hparts part hpart).2, ?_⟩⟩
    simpa using isReserved_lineFeed last

/-- **Which module names are accepted:** dotted names, and those with a line feed at the end. -/
theorem isModuleName_iff : isModuleName t = true ↔ IsDotted t ∨ IsDottedLine t := by
  by_cases h : ∃ s : Text, t = s ++ "\n"
  · obtain ⟨s, rfl⟩ := h
    rw [isModuleName_lineFeed, or_iff_right fun h : IsDotted _ => h.ne_lineFeed s rfl]
  · rw [not_exists] at h
    rw [isModuleName_of_ne h, or_iff_left]
    rintro ⟨parts, last, heq, -⟩
    exact h _ heq

/-! ### What names decide -/

open Script (IsName)

/-- A module name that is not accepted is refused, whatever the binding is. -/
theorem checkNames_of_module (binding : Text) (h : isModuleName name ≠ true) :
    checkNames name binding =
      .error (.emission ("Invalid module name: " ++ Quoted.single name) none) := by
  rw [checkNames, if_pos (by simpa using h)]

/-- Under an accepted module name the binding is refused if it is no name. -/
theorem checkNames_of_binding (hname : isModuleName name = true) (h : ¬ IsName binding) :
    checkNames name binding =
      .error (.emission ("Invalid binding name: " ++ Quoted.single binding) none) := by
  rw [checkNames, if_neg (by simpa using hname), if_pos]
  rwa [Bool.not_eq_true', Bool.eq_false_iff, isBindingName, Ne, Bool.and_eq_true,
    Bool.not_eq_true']

/-- Whatever writes the bindings of a schema under two names ends with an error. -/
structure Refused (S : Schema) (name binding : Text) (e : IdlError) : Prop where
  writer : BindingsWriter.make S name binding = .error e
  source : (emit S name binding).outcome = .error (.error e)
  document {strict : Bool} {d : Document.Source} (load : (Document.load strict d).outcome = .ok S) :
    (generate strict d name binding).outcome = .error (.error e)
  file {fs : FileSystem} {idl output : Path} {strict : Bool} {content : Bytes}
    (read : FileSystem.request idl fs.read = .ok content)
    (load : (Document.load strict (.octets content)).outcome = .ok S) :
    (Target.generate ⟨idl, output, name, binding, strict⟩).Logs fs (.error (.error e)) fs

/-- Whatever writes the bindings of a schema under two names succeeds, unless an integer of the
schema is too long to be printed, which none is if the document has none that is too long; into a
file, as far as the text can be written there. -/
structure Accepted (S : Schema) (name binding : Text) : Prop where
  writer : BindingsWriter.make S name binding = .ok { schema := S, name, binding }
  source : ∃ text, (emit S name binding).outcome = printed S text
  document {strict : Bool} {d : Document.Source} (load : (Document.load strict d).outcome = .ok S) :
    ∃ text, (generate strict d name binding).outcome = printed S text
  decoded {strict : Bool} {d : Document.Source} (short : d.Short)
    (load : (Document.load strict d).outcome = .ok S) :
    ∃ text, (generate strict d name binding).outcome = .ok text
  file {fs fs' : FileSystem} {idl output : Path} {strict : Bool} {content : Bytes} {text : Text}
    {outcome : Except Failure Unit}
    (read : FileSystem.request idl fs.read = .ok content)
    (load : (Document.load strict (.octets content)).outcome = .ok S)
    (emits : (generate strict (.octets content) name binding).outcome = .ok text)
    (write : (writeSource output text).Logs fs outcome fs') :
    ∃ result : GenerationResult,
      (Target.generate ⟨idl, output, name, binding, strict⟩).Logs fs (outcome.map fun _ => result)
        fs'

theorem refused_of_checkNames {e : IdlError} (S : Schema)
    (h : checkNames name binding = .error e) : Refused S name binding e := by
  have hmake : BindingsWriter.make S name binding = .error e := by
    rw [BindingsWriter.make, h]
    rfl
  have hsource : (emit S name binding).outcome = .error (.error e) := by
    rw [emit_outcome, h]
    rfl
  refine ⟨hmake, hsource, fun hload => ?_, fun {_ _ _ strict _} hread hload => ?_⟩
  · rw [generate_of_loaded hload, hsource]
  · have hloads := Document.loadFile_of_read strict hread
    rw [hload] at hloads
    exact hloads.bind (emitFile_of_misnamed hmake)

theorem accepted_of_checkNames (S : Schema) (h : checkNames name binding = .ok ()) :
    Accepted S name binding := by
  have hmake : BindingsWriter.make S name binding = .ok { schema := S, name, binding } :=
    BindingsWriter.make_eq_ok.2 ⟨h, rfl⟩
  have hsource : (emit S name binding).outcome = printed S (moduleFor S name binding).render := by
    rw [emit_outcome, h]
    rfl
  have hdocument {strict : Bool} {d : Document.Source}
      (hload : (Document.load strict d).outcome = .ok S) :
      (generate strict d name binding).outcome = printed S (moduleFor S name binding).render := by
    rw [generate_of_loaded hload, hsource]
  refine ⟨hmake, ⟨_, hsource⟩, fun hload => ⟨_, hdocument hload⟩, fun hshort hload => ?_, ?_⟩
  · exact ⟨_, (hdocument hload).trans (printed_of_load hshort hload _)⟩
  intro fs fs' idl output strict content text outcome hread hload hemits hwrite
  obtain ⟨source, after, hprints⟩ :=
    BindingsWriter.exists_write hmake (Document.Source.short_octets content) hload
  rw [generate_eq_ok hload hmake hprints] at hemits
  cases hemits
  have hloads := Document.loadFile_of_read strict hread
  rw [hload] at hloads
  cases outcome with
  | error f => exact ⟨⟨[], [], []⟩, hloads.bind (emitFile_of_unwritten hmake hprints hwrite)⟩
  | ok written =>
    obtain ⟨result, hresult, -⟩ := emitFile_of_written hmake hprints hwrite
    exact ⟨result, hloads.bind hresult⟩

/-- **The names decide.**  A module name is accepted if it is a dotted name, and then with a line
feed at its end too; a binding is accepted if it is an identifier that is not reserved.  Whatever
writes the bindings of a loaded schema refuses the module name first.  Under accepted names only an
integer that is too long to be printed stands in the way. -/
theorem names_decide (S : Schema) (name binding : Text) :
    (¬ (IsDotted name ∨ IsDottedLine name) ∧
      Refused S name binding (.emission ("Invalid module name: " ++ Quoted.single name) none)) ∨
    ((IsDotted name ∨ IsDottedLine name) ∧ ¬ IsName binding ∧
      Refused S name binding (.emission ("Invalid binding name: " ++ Quoted.single binding) none)) ∨
    ((IsDotted name ∨ IsDottedLine name) ∧ IsName binding ∧ Accepted S name binding) := by
  rw [← isModuleName_iff]
  by_cases hname : isModuleName name = true
  · by_cases hbinding : IsName binding
    · have hcheck := checkNames_eq_ok.2 ⟨hname, hbinding⟩
      exact .inr (.inr ⟨hname, hbinding, accepted_of_checkNames S hcheck⟩)
    · have hcheck := checkNames_of_binding hname hbinding
      exact .inr (.inl ⟨hname, hbinding, refused_of_checkNames S hcheck⟩)
  · exact .inl ⟨hname, refused_of_checkNames S (checkNames_of_module binding hname)⟩

/-- A reserved word with a line feed is accepted. -/
example : IsDottedLine "class\n" ∧ isModuleName "class\n" = true ∧ isModuleName "class" = false :=
  ⟨⟨[], "class", by decide, by simp, by decide⟩, by decide, by decide⟩

end Bindings
end AnchorIdl
