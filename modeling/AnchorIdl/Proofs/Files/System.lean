/-
# What requests leave of a file system

A request that changes anything changes one location, the one where its path
ends, and without links that location follows from the path and the working
directory alone: it is the route's `destination`, in which `..` goes back up
whatever is found on the way.

| request | before, at the destination | afterwards, at the destination |
| --- | --- | --- |
| `write` | no directory | a file with the content |
| `makeDirectory` | nothing | a directory |

So whatever is asked, directories stay, files keep their places, and new
directories only stand on the way to a path that was asked for.
`OnlyWritten fs writes room fs'` says this of a whole series of requests: each
file holds what was written last at its place, or what it held before, and the
new directories are among `room`.  It holds of `makeDirectories`, which writes
nothing and makes directories on the way to its path alone
(`makeDirectories_onlyWritten`), and it goes from one series to the next
(`OnlyWritten.trans`).
-/

import AnchorIdl.Files.System

namespace AnchorIdl

/-! ### Where paths lead -/

/-- The location that a route leads to where every directory on the way is there. -/
def Route.destination (r : Route) (working : Location) : Location :=
  r.names.foldl (fun here name => if name = FileSystem.above then here.parent else here.child name)
    (if r.absolute then .root else working)

/-- A path leads to a location. -/
def Path.LeadsTo (p : Path) (working here : Location) : Prop :=
  ∃ r, p.route = .ok r ∧ r.destination working = here

/-- The way to a path passes a location: the path leads there, or one above it does. -/
def Path.Passes (p : Path) (working here : Location) : Prop :=
  ∃ q ∈ p.ancestors, q.LeadsTo working here

namespace Path

theorem mem_ancestors_iff {p q : Path} :
    q ∈ p.ancestors ↔ q.slashes = p.slashes ∧ q.names <+: p.names := by
  obtain ⟨slashes, names⟩ := q
  simp only [ancestors, List.mem_map, List.mem_range, mk.injEq]
  constructor
  · rintro ⟨i, -, rfl, rfl⟩
    exact ⟨rfl, List.take_prefix _ _⟩
  · rintro ⟨rfl, hpre⟩
    have hlen := hpre.length_le
    refine ⟨p.names.length - names.length, by omega, rfl, ?_⟩
    rw [show p.names.length - (p.names.length - names.length) = names.length by omega]
    exact (List.prefix_iff_eq_take.1 hpre).symm

variable {p : Path} {working here : Location}

theorem LeadsTo.passes (h : p.LeadsTo working here) : p.Passes working here :=
  ⟨p, mem_ancestors_iff.2 ⟨rfl, List.prefix_rfl⟩, h⟩

/-- The way to a path passes what the way to its parent passes. -/
theorem Passes.of_parent (h : p.parent.Passes working here) : p.Passes working here := by
  obtain ⟨q, hq, hlead⟩ := h
  obtain ⟨hslashes, hpre⟩ := mem_ancestors_iff.1 hq
  exact ⟨q, mem_ancestors_iff.2 ⟨hslashes, hpre.trans (List.dropLast_prefix _)⟩, hlead⟩

end Path

namespace FileSystem

variable {fs fs' fs'' : FileSystem} {r : Route} {here : Location} {content : Bytes}

theorem enter_eq_ok {there : Location} {name : Bytes} (h : fs.enter here name = .ok there) :
    there = if name = above then here.parent else here.child name := by
  unfold enter at h
  split at h
  · cases h
  · cases h
  · split at h
    · rename_i habove
      rw [if_pos habove]
      exact (Except.ok.inj h).symm
    · rename_i habove
      split at h
      · cases h
      · rw [if_neg habove]
        exact (Except.ok.inj h).symm

/-- **A route that can be walked ends at its destination.** -/
theorem locate_eq_ok (h : fs.locate r = .ok here) : here = r.destination fs.working := by
  unfold locate at h
  split at h
  · cases h
  · unfold Route.destination
    generalize (if r.absolute then Location.root else fs.working) = start at h ⊢
    generalize r.names = names at h ⊢
    induction names generalizing start with
    | nil => exact (Except.ok.inj h).symm
    | cons name names ih =>
      rw [List.foldlM_cons] at h
      cases hstep : fs.enter start name with
      | error refusal => rw [hstep] at h; cases h
      | ok next =>
        rw [hstep] at h
        rw [List.foldl_cons, ← enter_eq_ok hstep]
        exact ih next h

/-! ### What requests refuse -/

theorem enter_eq_error {here : Location} {name : Bytes} {refusal : Refusal}
    (h : fs.enter here name = .error refusal) :
    refusal.meansAbsent = true ∨ refusal = .longName := by
  unfold enter at h
  split at h
  · exact .inl (by rw [← Except.error.inj h]; rfl)
  · exact .inl (by rw [← Except.error.inj h]; rfl)
  · split at h
    · cases h
    split at h
    · exact .inr (Except.error.inj h).symm
    · cases h

/-- A route that cannot be walked leads past something that is missing or is no directory, or it is
too long. -/
theorem locate_eq_error {r : Route} {refusal : Refusal} (h : fs.locate r = .error refusal) :
    refusal.meansAbsent = true ∨ refusal = .longName := by
  unfold locate at h
  split at h
  · exact .inr (Except.error.inj h).symm
  generalize (if r.absolute then Location.root else fs.working) = here at h
  generalize r.names = names at h
  induction names generalizing here with
  | nil => cases h
  | cons name names ih =>
    rw [List.foldlM_cons] at h
    cases hstep : fs.enter here name with
    | ok next =>
      rw [hstep] at h
      exact ih next h
    | error refusal' =>
      rw [hstep] at h
      exact Except.error.inj h ▸ enter_eq_error hstep

theorem isFile_eq_true_iff {r : Route} :
    fs.isFile r = .ok true ↔ ∃ content, fs.find? r = .ok (some (.file content)) := by
  unfold isFile
  split
  · next content hfind => simp [hfind]
  · next hno hfind => simp_all
  · next refusal hfind =>
    rw [hfind]
    split <;> simp

/-- Whether there is a file is only refused if the route is too long. -/
theorem isFile_eq_error {r : Route} {refusal : Refusal} (h : fs.isFile r = .error refusal) :
    refusal = .longName := by
  unfold isFile at h
  split at h
  · cases h
  · cases h
  · next refusal' hfind =>
    split at h
    · cases h
    · next hpresent =>
      obtain rfl := Except.error.inj h
      have hlocate : fs.locate r = .error refusal' := by
        unfold find? at hfind
        cases hlocate : fs.locate r with
        | ok here =>
          rw [hlocate] at hfind
          cases hfind
        | error _ =>
          rw [hlocate] at hfind
          exact congrArg Except.error (Except.error.inj hfind)
      exact (locate_eq_error hlocate).resolve_left hpresent

/-! ### What one request changes -/

/-- The content of the regular file at a location, if there is one. -/
def content? (fs : FileSystem) (here : Location) : Option Bytes :=
  match fs.node? here with
  | some (.file content) => some content
  | _ => none

theorem node?_eq_file_iff : fs.node? here = some (.file content) ↔
    fs.content? here = some content := by
  unfold content?
  cases fs.node? here with
  | none => simp
  | some node => cases node <;> simp

theorem node?_root : fs.node? .root = some .directory := if_pos rfl

/-- Another node at a location that is not the root. -/
theorem node?_put {there : Location} {node : Node} (hroot : here ≠ .root) :
    node? { fs with nodes := fs.nodes.put here node } there =
      if there = here then some node else fs.node? there := by
  unfold node?
  rw [Ordered.get?_put]
  by_cases hthere : there = here
  · rw [if_pos hthere, if_neg (hthere ▸ hroot), if_pos hthere]
  · rw [if_neg hthere, if_neg hthere]

/-- **A write changes its destination alone,** which is no directory. -/
theorem write_eq_ok (h : fs.write content r = .ok fs') :
    fs.node? (r.destination fs.working) ≠ some .directory ∧ fs'.working = fs.working ∧
      ∀ here, fs'.node? here =
        if here = r.destination fs.working then some (.file content) else fs.node? here := by
  unfold write at h
  cases hlocate : fs.locate r with
  | error refusal => rw [hlocate] at h; cases h
  | ok there =>
    rw [hlocate] at h
    obtain rfl := locate_eq_ok hlocate
    by_cases hdir : fs.node? (r.destination fs.working) = some .directory
    · simp [Bind.bind, Except.bind, hdir] at h
    · have hroot : r.destination fs.working ≠ .root := fun e => hdir (e ▸ node?_root)
      simp only [Bind.bind, Except.bind, Except.ok.injEq] at h
      subst h
      exact ⟨hdir, rfl, fun here => node?_put hroot⟩

/-- **Making a directory changes its destination alone,** where nothing was. -/
theorem makeDirectory_eq_ok (h : fs.makeDirectory r = .ok fs') :
    fs.node? (r.destination fs.working) = none ∧ fs'.working = fs.working ∧
      ∀ here, fs'.node? here =
        if here = r.destination fs.working then some .directory else fs.node? here := by
  unfold makeDirectory at h
  cases hlocate : fs.locate r with
  | error refusal => rw [hlocate] at h; cases h
  | ok there =>
    rw [hlocate] at h
    obtain rfl := locate_eq_ok hlocate
    cases hnode : fs.node? (r.destination fs.working) with
    | some node => simp [Bind.bind, Except.bind, hnode] at h
    | none =>
      have hroot : r.destination fs.working ≠ .root := by
        intro e
        rw [e, node?_root] at hnode
        cases hnode
      simp only [Bind.bind, Except.bind, hnode, Except.ok.injEq] at h
      subst h
      exact ⟨rfl, rfl, fun here => node?_put hroot⟩

/-! ### What a series of requests changes -/

/-- A content that was written, and its place. -/
structure Written where
  place : Location
  content : Bytes

/-- The content that was written last at a place. -/
def lastContent? (writes : List Written) (here : Location) : Option Bytes :=
  (writes.reverse.find? fun w => w.place = here).map Written.content

/-- What was written later counts. -/
theorem lastContent?_append (writes later : List Written) (here : Location) :
    lastContent? (writes ++ later) here =
      (lastContent? later here).or (lastContent? writes here) := by
  unfold lastContent?
  rw [List.reverse_append, List.find?_append, Option.map_or]

/-- `fs'` is `fs` after some writes: beside them, directories may have been made, and only at the
places of `room`. -/
structure OnlyWritten (fs : FileSystem) (writes : List Written) (room : Location → Prop)
    (fs' : FileSystem) : Prop where
  working : fs'.working = fs.working
  files : ∀ here, fs'.content? here = (lastContent? writes here).or (fs.content? here)
  kept : ∀ here, fs.node? here = some .directory → fs'.node? here = some .directory
  made : ∀ here, fs'.node? here = some .directory →
    fs.node? here = some .directory ∨ (fs.node? here = none ∧ room here)

namespace OnlyWritten

variable {writes later : List Written} {room wider : Location → Prop}

theorem refl (fs : FileSystem) (room : Location → Prop) : OnlyWritten fs [] room fs :=
  ⟨rfl, fun _ => rfl, fun _ h => h, fun _ h => .inl h⟩

theorem mono (h : OnlyWritten fs writes room fs') (hroom : ∀ here, room here → wider here) :
    OnlyWritten fs writes wider fs' :=
  ⟨h.working, h.files, h.kept, fun here hdir =>
    (h.made here hdir).imp_right (And.imp_right (hroom here))⟩

/-- Nothing that was there is missing afterwards. -/
theorem node?_eq_none (h : OnlyWritten fs writes room fs') (hnone : fs'.node? here = none) :
    fs.node? here = none := by
  cases hnode : fs.node? here with
  | none => rfl
  | some node =>
    cases node with
    | directory =>
      rw [h.kept here hnode] at hnone
      cases hnone
    | file content =>
      have hcontent : fs'.content? here = none := by rw [content?, hnone]
      rw [h.files, node?_eq_file_iff.1 hnode] at hcontent
      cases (Option.or_eq_none_iff.1 hcontent).2

/-- **One series of requests goes on where another ended.** -/
theorem trans (h : OnlyWritten fs writes room fs') (h' : OnlyWritten fs' later room fs'') :
    OnlyWritten fs (writes ++ later) room fs'' where
  working := h'.working.trans h.working
  files here := by rw [h'.files, h.files, lastContent?_append, Option.or_assoc]
  kept here hdir := h'.kept here (h.kept here hdir)
  made here hdir := by
    rcases h'.made here hdir with hdir' | ⟨hnone, hroom⟩
    · exact h.made here hdir'
    · exact .inr ⟨h.node?_eq_none hnone, hroom⟩

end OnlyWritten

/-- A file that was written. -/
theorem write_onlyWritten (room : Location → Prop) (h : fs.write content r = .ok fs') :
    OnlyWritten fs [⟨r.destination fs.working, content⟩] room fs' := by
  obtain ⟨hdir, hworking, hnode⟩ := write_eq_ok h
  constructor
  · exact hworking
  · intro here
    unfold content?
    rw [hnode here]
    by_cases hhere : here = r.destination fs.working
    · rw [if_pos hhere]
      simp [lastContent?, hhere]
    · rw [if_neg hhere]
      simp [lastContent?, Ne.symm hhere]
  · intro here hhere
    have hne : here ≠ r.destination fs.working := fun e => hdir (e ▸ hhere)
    rw [hnode here, if_neg hne]
    exact hhere
  · intro here hhere
    rw [hnode here] at hhere
    split at hhere
    · cases hhere
    · exact .inl hhere

/-- A directory that was made. -/
theorem makeDirectory_onlyWritten (h : fs.makeDirectory r = .ok fs') :
    OnlyWritten fs [] (fun here => r.destination fs.working = here) fs' := by
  obtain ⟨hnone, hworking, hnode⟩ := makeDirectory_eq_ok h
  constructor
  · exact hworking
  · intro here
    unfold content?
    rw [hnode here]
    by_cases hhere : here = r.destination fs.working
    · rw [if_pos hhere, hhere, hnone]
      rfl
    · rw [if_neg hhere]
      rfl
  · intro here hhere
    rw [hnode here, hhere, ite_self]
  · intro here hhere
    rw [hnode here] at hhere
    split at hhere
    · rename_i e
      exact .inr ⟨e ▸ hnone, e.symm⟩
    · exact .inl hhere

/-! ### Requests about paths -/

variable {p : Path}

theorem request_eq_ok {α : Type} {serve : Route → Except Refusal α} {a : α}
    (h : request p serve = .ok a) : ∃ r, p.route = .ok r ∧ serve r = .ok a := by
  unfold request at h
  cases hroute : p.route with
  | error fault =>
    rw [hroute] at h
    cases h
  | ok r =>
    rw [hroute] at h
    change (serve r).mapError _ = .ok a at h
    cases hserve : serve r with
    | error refusal =>
      rw [hserve] at h
      cases h
    | ok b =>
      rw [hserve] at h
      cases h
      exact ⟨r, rfl, hserve⟩

/-- A sequence of requests goes on from the files that the first part leaves. -/
theorem run_bind_of {α β : Type} {x : StateM FileSystem α} {a : α} (h : x.run fs = (a, fs'))
    (f : α → StateM FileSystem β) : (x >>= f).run fs = (f a).run fs' := by
  rw [StateT.run_bind, h]
  rfl

/-- A change that is made. -/
theorem change_eq_ok {serve : FileSystem → Route → Except Refusal FileSystem}
    (h : request p (serve fs) = .ok fs') : (change p serve).run fs = (.ok (), fs') := by
  show change p serve fs = _
  rw [change, h]

/-- A change that is refused changes nothing. -/
theorem change_eq_error {serve : FileSystem → Route → Except Refusal FileSystem}
    {fault : FileFault} (h : request p (serve fs) = .error fault) :
    (change p serve).run fs = (.error fault, fs) := by
  show change p serve fs = _
  rw [change, h]

/-- A request for a directory makes it, or fails and changes nothing. -/
theorem makeDirectory_cases (p : Path) (fs : FileSystem) :
    (∃ fs', (FileAccess.makeDirectory p : StateM FileSystem _).run fs = (.ok (), fs') ∧
        OnlyWritten fs [] (p.Passes fs.working) fs') ∨
      ∃ fault, (FileAccess.makeDirectory p : StateM FileSystem _).run fs = (.error fault, fs) := by
  cases h : request p fs.makeDirectory with
  | error fault => exact .inr ⟨fault, change_eq_error h⟩
  | ok fs' =>
    obtain ⟨r, hroute, hmade⟩ := request_eq_ok h
    refine .inl ⟨fs', change_eq_ok h, (makeDirectory_onlyWritten hmade).mono fun here hhere => ?_⟩
    exact Path.LeadsTo.passes ⟨r, hroute, hhere⟩

/-- A request to write a file writes it at its place, or fails and changes nothing. -/
theorem writeFile_cases (p : Path) (content : Bytes) (fs : FileSystem) (room : Location → Prop) :
    (∃ here fs', (FileAccess.writeFile p content : StateM FileSystem _).run fs = (.ok (), fs') ∧
        p.LeadsTo fs.working here ∧ OnlyWritten fs [⟨here, content⟩] room fs') ∨
      ∃ fault, (FileAccess.writeFile p content : StateM FileSystem _).run fs =
        (.error fault, fs) := by
  cases h : request p (fs.write content) with
  | error fault => exact .inr ⟨fault, change_eq_error h⟩
  | ok fs' =>
    obtain ⟨r, hroute, hwritten⟩ := request_eq_ok h
    exact .inl ⟨_, fs', change_eq_ok h, ⟨r, hroute, rfl⟩, write_onlyWritten room hwritten⟩

/-- Settling for a directory that is there changes nothing. -/
theorem settle_run (p : Path) (fault : FileFault) (fs : FileSystem) :
    ∃ answer, (FileAccess.settle p fault : StateM FileSystem _).run fs = (answer, fs) := by
  unfold FileAccess.settle
  split
  · exact ⟨_, rfl⟩
  · have hread : ∃ b, (FileAccess.isDirectory p : StateM FileSystem Bool).run fs = (b, fs) := by
      simp only [FileAccess.isDirectory]
      split <;> exact ⟨_, rfl⟩
    obtain ⟨b, hb⟩ := hread
    rw [run_bind_of hb]
    cases b <;> exact ⟨_, rfl⟩

/-- **Making a directory and the missing ones above it writes nothing,** whether or not it
succeeds, and makes directories on the way to it alone. -/
theorem makeDirectories_onlyWritten (p : Path) (fs : FileSystem) :
    ∃ answer fs', (FileAccess.makeDirectories p : StateM FileSystem _).run fs = (answer, fs') ∧
      OnlyWritten fs [] (p.Passes fs.working) fs' := by
  rw [FileAccess.makeDirectories]
  rcases makeDirectory_cases p fs with ⟨fs₁, hrun, hmade⟩ | ⟨fault, hrun⟩
  · rw [run_bind_of hrun]
    exact ⟨_, fs₁, rfl, hmade⟩
  rw [run_bind_of hrun]
  dsimp only
  split
  · obtain ⟨answer, hsettle⟩ := settle_run p fault fs
    exact ⟨answer, fs, hsettle, .refl fs _⟩
  split
  · exact ⟨_, fs, rfl, .refl fs _⟩
  rename_i hnames
  have hshorter : p.parent.names.length < p.names.length := by
    have hpos := List.length_pos_iff.2 hnames
    simp only [Path.parent, List.length_dropLast]
    omega
  obtain ⟨answer, fs₁, hparent, habove⟩ := makeDirectories_onlyWritten p.parent fs
  replace habove := habove.mono fun _ => Path.Passes.of_parent
  rw [run_bind_of hparent]
  cases answer with
  | error fault => exact ⟨_, fs₁, rfl, habove⟩
  | ok _ =>
    rcases makeDirectory_cases p fs₁ with ⟨fs₂, hrun, hmade⟩ | ⟨fault, hrun⟩
    · dsimp only
      rw [run_bind_of hrun]
      rw [habove.working] at hmade
      exact ⟨_, fs₂, rfl, habove.trans hmade⟩
    · dsimp only
      rw [run_bind_of hrun]
      obtain ⟨answer, hsettle⟩ := settle_run p fault fs₁
      exact ⟨answer, fs₁, hsettle, habove⟩
termination_by p.names.length

end FileSystem
end AnchorIdl
