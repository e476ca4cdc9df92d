/-
# Duplicates, strictly and leniently

Strict and lenient loading read a document in the same way and part only then.
Strict loading stops at the first copy of the first column that has one, lenient
loading warns of every copy and goes on (`load_strict_lenient`).

A copy that cannot be shown ends lenient loading too.  That takes an error code
of more digits than the text or the octets of a document can have
(`Source.short_text`, `Source.short_octets`); strict loading may then fail
earlier, at the copy of something else.
-/

import AnchorIdl.Proofs.Document.Integers

namespace AnchorIdl
namespace Document

variable {S : Schema}

/-! ### What is read -/

namespace Source

/-- What strict and lenient loading do first: read the document. -/
def readSchema (source : Source) : Logged Rejection Schema := do
  let raw ← .lift source.value?
  (Document.readSchema raw).mapError Rejection.raised

/-- No integer of a document has more digits than can be written. -/
def Short (source : Source) : Prop := ∀ raw, source.value? = .ok raw → raw.Short

theorem short_value {raw : Json} : (Source.value raw).Short ↔ raw.Short :=
  ⟨fun h => h raw rfl, fun h _ hvalue => Except.ok.inj hvalue ▸ h⟩

/-- What a text is read to has no integer that is too long. -/
theorem short_text (t : Text) : (Source.text t).Short := fun _ h =>
  Json.short_of_ofText (mapError_eq_ok.1 h)

/-- What octets are read to has no integer that is too long. -/
theorem short_octets (octets : Bytes) : (Source.octets octets).Short := fun _ h =>
  Json.short_of_ofOctets (mapError_eq_ok.1 h)

theorem readSchema_eq_ok_iff {source : Source} : source.readSchema.outcome = .ok S ↔
    ∃ document, source.value? = .ok (.obj document) ∧ DocumentForm document S := by
  simp only [readSchema, Logged.bind_outcome_eq_ok, Logged.lift_outcome, Logged.mapError,
    mapError_eq_ok, Document.readSchema_eq_ok_iff]
  constructor
  · rintro ⟨_, hvalue, document, rfl, hform⟩
    exact ⟨document, hvalue, hform⟩
  · rintro ⟨document, hvalue, hform⟩
    exact ⟨_, hvalue, document, rfl, hform⟩

/-- Reading a document only notes how far it came. -/
theorem readSchema_log (source : Source) : ∀ l ∈ source.readSchema.log, l.level = .debug := by
  unfold readSchema Logged.mapError Document.readSchema
  repeat' refine Logged.forall_mem_log_bind ?_ fun _ => ?_
  all_goals simp [noteCount, note]

/-- The codes of a document without integers that are too long can be shown. -/
theorem Short.codesShown {source : Source} (h : source.Short)
    (hS : source.readSchema.outcome = .ok S) : S.CodesShown := by
  obtain ⟨document, hvalue, hform⟩ := readSchema_eq_ok_iff.1 hS
  intro i _ n _ hn _
  refine h _ hvalue n (hform.integers ?_)
  exact List.mem_append_left _ (List.mem_append_right _ (List.mem_of_getElem? hn))

end Source

/-! ### What is reported -/

theorem load_eq (strict : Bool) (source : Source) :
    load strict source = source.readSchema >>= fun S => do
      reportDuplicates strict S
      reportReferences S
      note .info (summary S)
      return S :=
  (Logged.bind_assoc _ _ _).symm

theorem load_of_error {source : Source} {e : Rejection} (h : source.readSchema.outcome = .error e)
    (strict : Bool) : (load strict source).outcome = .error e := by
  rw [load_eq, Logged.bind_of_error h]

/-- What loading comes to once the document is read is what reporting its copies comes to. -/
theorem load_outcome_of_ok {source : Source} (h : source.readSchema.outcome = .ok S)
    (strict : Bool) :
    (load strict source).outcome = (reportDuplicates strict S).outcome.map fun _ => S := by
  rw [load_eq, Logged.bind_of_ok h, Logged.bind_outcome]
  cases (reportDuplicates strict S).outcome <;> rfl

theorem load_lenient_of_ok {source : Source} (h : source.readSchema.outcome = .ok S)
    (hshown : S.CodesShown) :
    load false source = ⟨source.readSchema.log ++ (copyLines S ++
      ((danglingReferences S).map (fun r => referenceWarning r.1 r.2) ++
        [⟨.info, .loader, summary S⟩])), .ok S⟩ := by
  rw [load_eq, Logged.bind_of_ok h, reportDuplicates_lenient hshown]
  rfl

/-- Loading succeeds exactly if the document can be read and its copies reported. -/
theorem load_eq_ok_iff_readSchema {strict : Bool} {source : Source} :
    (load strict source).outcome = .ok S ↔ source.readSchema.outcome = .ok S ∧ S.CodesShown ∧
      (strict = true → S.Distinct) := by
  cases h : source.readSchema.outcome with
  | error e => simp [load_of_error h]
  | ok S' =>
    rw [load_outcome_of_ok h, map_eq_ok, Except.ok.injEq]
    constructor
    · rintro ⟨u, hu, rfl⟩
      exact ⟨rfl, reportDuplicates_eq_ok_iff.1 hu⟩
    · rintro ⟨rfl, hreport⟩
      exact ⟨(), reportDuplicates_eq_ok_iff.2 hreport, rfl⟩

theorem load_strict_eq_ok_iff {source : Source} :
    (load true source).outcome = .ok S ↔ (load false source).outcome = .ok S ∧ S.Distinct := by
  rw [load_eq_ok_iff_readSchema, load_eq_ok_iff_readSchema]
  simp [and_assoc]

theorem raised_fault_cases (f : Fault) :
    (Rejection.fault f).raised = .fault f ∨ (Rejection.fault f).raised = .overlong :=
  ite_eq_or_eq _ _ _

/-- A fault that is raised can be told. -/
theorem raised_eq_fault_iff {e : Rejection} {f : Fault} :
    e.raised = .fault f ↔ e = .fault f ∧ f.complaint.message.isSome = true := by
  cases e with
  | fault f' =>
    change (if f'.complaint.message.isSome = true then Rejection.fault f' else .overlong) = _ ↔ _
    split
    · next hsome =>
      rw [iff_self_and]
      rintro ⟨⟩
      exact hsome
    · next hnone =>
      refine ⟨nofun, ?_⟩
      rintro ⟨⟨⟩, hsome⟩
      exact absurd hsome hnone
  | unencodable | longInteger | overlong => exact ⟨nofun, fun h => nomatch h.1⟩

theorem raised_fault_of_codesShown (hshown : S.CodesShown) {f : Fault} (h : f ∈ duplicates S) :
    (Rejection.fault f).raised = .fault f :=
  if_pos (isSome_message_duplicates.2 hshown f h)

/-- What fails strict reporting is the first copy. -/
theorem exists_firstCopy_of_error {e : Rejection}
    (h : (reportDuplicates true S).outcome = .error e) :
    ∃ c x i, FirstCopy S c x i ∧ c.fault S (x, i) ∈ duplicates S ∧
      (Rejection.fault (c.fault S (x, i))).raised = e := by
  rw [reportDuplicates_strict] at h
  cases hhead : (duplicates S).head? with
  | none =>
    rw [hhead] at h
    cases h
  | some f =>
    rw [hhead] at h
    obtain ⟨c, x, i, hfirst, rfl⟩ := exists_firstCopy hhead
    exact ⟨c, x, i, hfirst, List.mem_of_head? hhead, Except.error.inj h⟩

/-- Reporting copies fails at the first one in strict mode, which can be told, or because one cannot
be shown. -/
theorem reportDuplicates_error_cases {strict : Bool} {e : Rejection}
    (h : (reportDuplicates strict S).outcome = .error e) : (e = .overlong ∧ ¬ S.CodesShown) ∨
      strict = true ∧ ∃ c x i, FirstCopy S c x i ∧ e = .fault (c.fault S (x, i)) ∧
        (c.fault S (x, i)).complaint.message.isSome = true := by
  cases strict with
  | false =>
    by_cases hshown : S.CodesShown
    · rw [reportDuplicates_lenient hshown] at h
      cases h
    · rw [reportDuplicates_overlong hshown] at h
      exact .inl ⟨(Except.error.inj h).symm, hshown⟩
  | true =>
    obtain ⟨c, x, i, hfirst, hmem, rfl⟩ := exists_firstCopy_of_error h
    rcases raised_fault_cases (c.fault S (x, i)) with hraised | hraised
    · exact .inr ⟨rfl, c, x, i, hfirst, hraised, (raised_eq_fault_iff.1 hraised).2⟩
    · refine .inl ⟨hraised, fun hshown => ?_⟩
      rw [raised_fault_of_codesShown hshown hmem] at hraised
      cases hraised

/-- **What fails a loading:** reading the document, or reporting its copies. -/
theorem load_error_cases {strict : Bool} {source : Source} {e : Rejection}
    (h : (load strict source).outcome = .error e) : source.readSchema.outcome = .error e ∨
      ∃ S, source.readSchema.outcome = .ok S ∧ ((e = .overlong ∧ ¬ S.CodesShown) ∨
        strict = true ∧ ∃ c x i, FirstCopy S c x i ∧ e = .fault (c.fault S (x, i)) ∧
          (c.fault S (x, i)).complaint.message.isSome = true) := by
  cases hread : source.readSchema.outcome with
  | error e' =>
    rw [load_of_error hread] at h
    exact .inl h
  | ok S =>
    rw [load_outcome_of_ok hread] at h
    refine .inr ⟨S, rfl, reportDuplicates_error_cases ?_⟩
    cases hreport : (reportDuplicates strict S).outcome with
    | ok u =>
      rw [hreport] at h
      cases h
    | error e' =>
      rw [hreport] at h
      exact congrArg Except.error (Except.error.inj h)

/-- Strict loading of what has a copy fails. -/
theorem exists_error_of_not_distinct {source : Source} (h : source.readSchema.outcome = .ok S)
    (hcopy : ¬ S.Distinct) : ∃ e, (load true source).outcome = .error e := by
  cases hload : (load true source).outcome with
  | error e => exact ⟨e, rfl⟩
  | ok S' =>
    obtain ⟨hread, -, hdistinct⟩ := load_eq_ok_iff_readSchema.1 hload
    obtain rfl := Except.ok.inj (h.symm.trans hread)
    exact absurd (hdistinct rfl) hcopy

/-- Strict loading fails as lenient loading fails, or at a copy if lenient loading fails because a
copy cannot be shown. -/
theorem load_strict_of_lenient_error {source : Source} {e : Rejection}
    (h : (load false source).outcome = .error e) : (load true source).outcome = .error e ∨
      e = .overlong ∧ ∃ S c x i, source.readSchema.outcome = .ok S ∧ ¬ S.CodesShown ∧
        FirstCopy S c x i ∧ (load true source).outcome = .error (.fault (c.fault S (x, i))) := by
  rcases load_error_cases h with hread | ⟨S, hread, ⟨rfl, hshown⟩ | ⟨hstrict, -⟩⟩
  · exact .inl (load_of_error hread true)
  · obtain ⟨e, he⟩ := exists_error_of_not_distinct hread fun hdistinct =>
      hshown (codesShown_of_distinct hdistinct)
    rw [he]
    rcases load_error_cases he with
      hread' | ⟨S', hread', ⟨rfl, -⟩ | ⟨-, c, x, i, hfirst, rfl, -⟩⟩
    · rw [hread] at hread'
      cases hread'
    · exact .inl rfl
    · obtain rfl := Except.ok.inj (hread.symm.trans hread')
      exact .inr ⟨rfl, S, c, x, i, hread, hshown, hfirst, rfl⟩
  · cases hstrict

/-! ### The lines of a log -/

theorem warnsOf_duplicate {l : LogLine} (h : l ∈ copyLines S) : l.warnsOf "duplicate " = true := by
  obtain ⟨c, -, hl⟩ := List.mem_flatMap.1 h
  obtain ⟨e, -, rfl⟩ := List.mem_map.1 hl
  obtain ⟨rest, hline⟩ := warnsOf_copyLine (S := S) c e
  exact (hline _).2 (List.prefix_append _ _)

/-- Where the argument `j` of the instruction `i` stands. -/
def argPlace (i j : Nat) : Place := [.member "instructions", .index i, .member "args", .index j]

/-- Where the custom type `i` stands. -/
def typePlace (i : Nat) : Place := [.member "types", .index i]

theorem isPlain_argPlace (i j : Nat) : (argPlace i j).IsPlain := by
  intro name hname
  simp only [argPlace, List.mem_cons, Step.member.injEq, reduceCtorEq, List.not_mem_nil, or_false,
    false_or] at hname
  rcases hname with rfl | rfl <;> decide

theorem isPlain_typePlace (i : Nat) : (typePlace i).IsPlain := by
  intro name hname
  simp only [typePlace, List.mem_cons, Step.member.injEq, reduceCtorEq, List.not_mem_nil,
    or_false] at hname
  subst hname
  decide

theorem isPlain_of_mem_expressions {e : Place × TypeExpr} (h : e ∈ expressions S) :
    e.1.IsPlain := by
  rcases List.mem_append.1 h with h | h
  · obtain ⟨⟨x, i⟩, -, h⟩ := List.mem_flatMap.1 h
    obtain ⟨⟨a, j⟩, -, rfl⟩ := List.mem_map.1 h
    exact isPlain_argPlace i j
  · obtain ⟨⟨d, i⟩, -, rfl⟩ := List.mem_map.1 h
    exact isPlain_typePlace i

theorem isPlain_of_mem_danglingReferences {r : Place × Text} (h : r ∈ danglingReferences S) :
    r.1.IsPlain := by
  obtain ⟨⟨place, type⟩, he, h⟩ := List.mem_flatMap.1 h
  obtain ⟨name, -, rfl⟩ := List.mem_map.1 h
  exact isPlain_of_mem_expressions he

/-- The line for a reference says behind its place what it warns of. -/
theorem warnsOf_referenceWarning {place : Place} (h : place.IsPlain) (name what : Text) :
    (referenceWarning place name).warnsOf what = true ↔
      what <+: Text.ofString "reference to undeclared type '" ++ (name ++ Text.ofString "'") := by
  rw [← warnsOf_iff h]
  simp only [referenceWarning, warn, List.append_assoc]
  rfl

/-- The lines of a loading that succeeds: notes on its progress, a line for each copy, and what is
said of references and of the whole. -/
theorem load_log_of_ok {strict : Bool} {source : Source}
    (h : (load strict source).outcome = .ok S) :
    (load strict source).log = source.readSchema.log ++ (copyLines S ++
      ((danglingReferences S).map (fun r => referenceWarning r.1 r.2) ++
        [⟨.info, .loader, summary S⟩])) := by
  obtain ⟨hread, hshown, hdistinct⟩ := load_eq_ok_iff_readSchema.1 h
  cases strict with
  | false => rw [load_lenient_of_ok hread hshown]
  | true =>
    have hnone : duplicates S = [] := duplicates_eq_nil_iff.2 (hdistinct rfl)
    have hlines : copyLines S = [] := by
      have hlenient := reportDuplicates_lenient hshown
      rw [reportDuplicates, hnone] at hlenient
      exact (congrArg Logged.log hlenient).symm
    rw [load_eq, Logged.bind_of_ok hread, reportDuplicates_strict, hnone, hlines]
    rfl

/-- A line that is no warning warns of nothing. -/
theorem filter_info (what message : Text) :
    [LogLine.mk .info .loader message].filter (LogLine.warnsOf what) = [] :=
  rfl

/-- **The warnings of duplicates in a log are the lines for the copies.** -/
theorem filter_duplicate_log {strict : Bool} {source : Source}
    (h : (load strict source).outcome = .ok S) :
    (load strict source).log.filter (LogLine.warnsOf "duplicate ") = copyLines S := by
  have hnotes : source.readSchema.log.filter (LogLine.warnsOf "duplicate ") = [] := by
    rw [List.filter_eq_nil_iff]
    intro l hl
    simp [LogLine.warnsOf, source.readSchema_log l hl]
  have hcopies : (copyLines S).filter (LogLine.warnsOf "duplicate ") = copyLines S :=
    List.filter_eq_self.2 fun l hl => warnsOf_duplicate hl
  have hreferences : ((danglingReferences S).map fun r => referenceWarning r.1 r.2).filter
      (LogLine.warnsOf "duplicate ") = [] := by
    rw [List.filter_eq_nil_iff, List.forall_mem_map]
    intro r hr
    rw [warnsOf_referenceWarning (isPlain_of_mem_danglingReferences hr)]
    simp [Text.ofString]
  rw [load_log_of_ok h, List.filter_append, List.filter_append, List.filter_append, hnotes,
    hcopies, hreferences, List.nil_append, List.nil_append, filter_info, List.append_nil]

/-- **Strict and lenient loading agree up to duplicates.**  Strict loading yields what lenient
loading yields if its columns are free of copies, and fails as lenient loading fails; only a
document with integers that are too long may fail strictly at a copy when lenient loading fails at
one that it cannot show.  Otherwise strict loading fails at the first copy, and lenient loading
warns of every copy. -/
theorem load_strict_lenient (source : Source) :
    (∀ S, (load true source).outcome = .ok S ↔ (load false source).outcome = .ok S ∧ S.Distinct) ∧
    (source.Short → ∀ e, (load false source).outcome = .error e →
      (load true source).outcome = .error e) ∧
    (∀ e, (load false source).outcome = .error e → (load true source).outcome = .error e ∨
      e = .overlong ∧ ∃ S c x i, source.readSchema.outcome = .ok S ∧ ¬ S.CodesShown ∧
        FirstCopy S c x i ∧ (load true source).outcome = .error (.fault (c.fault S (x, i)))) ∧
    (∀ S, (load false source).outcome = .ok S → ¬ S.Distinct → ∃ c x i, FirstCopy S c x i ∧
      (load true source).outcome = .error (.fault (c.fault S (x, i)))) ∧
    (∀ S, (load false source).outcome = .ok S →
      (load false source).log.filter (LogLine.warnsOf "duplicate ") = copyLines S) ∧
    ∀ (S : Schema) (c : Identity),
      (copies (c.column S)).length + (c.column S).toFinset.card = (c.column S).length := by
  refine ⟨fun S => load_strict_eq_ok_iff, fun hshort e he => ?_,
    fun e he => load_strict_of_lenient_error he, fun S hS hcopy => ?_,
    fun S hS => filter_duplicate_log hS, fun S c => length_copies _⟩
  · rcases load_strict_of_lenient_error he with hstrict | ⟨-, S, c, x, i, hread, hshown, -⟩
    · exact hstrict
    · exact absurd (hshort.codesShown hread) hshown
  · obtain ⟨hread, hshown, -⟩ := load_eq_ok_iff_readSchema.1 hS
    obtain ⟨e, he⟩ := exists_error_of_not_distinct hread hcopy
    rcases load_error_cases he with
      hread' | ⟨S', hread', ⟨-, hnot⟩ | ⟨-, c, x, i, hfirst, rfl, -⟩⟩
    · rw [hread] at hread'
      cases hread'
    · obtain rfl := Except.ok.inj (hread.symm.trans hread')
      exact absurd hshown hnot
    · obtain rfl := Except.ok.inj (hread.symm.trans hread')
      exact ⟨c, x, i, hfirst, he⟩

end Document
end AnchorIdl
