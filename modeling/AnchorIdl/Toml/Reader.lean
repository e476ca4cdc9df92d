/-
# Reading TOML

A TOML text is a sequence of lines, each empty or a statement, with a comment
after it or alone: an entry `key = value` of the table in force, a header
`[key]` that opens a table, or a header `[[key]]` that adds a table to a list.

Which keys may be used again follows three rules, kept as two lists of paths:

* a path is *sealed* when it holds a list or a table written in brackets;
  nothing at or below it may be changed,
* a path is *declared* when a header opened it or a dotted key of an earlier
  section passed through it; it may not be opened by `[key]`, nor passed
  through by a dotted key,
* `[[key]]` starts afresh below its path.

Source: `idlforge.core.config` (`load_config`), where it reads the text of a
project file.
-/

import AnchorIdl.Toml.Scalar

namespace AnchorIdl
namespace Toml

/-- A character of a key without quotes. -/
def isBare (c : CodePoint) : Bool := c.isWord || c.val == 0x2D

/-- Scan one part of a key. -/
def scanKeyPart (s : Text) : Scan Text s :=
  match s with
  | [] => .error .malformed
  | c :: r =>
    if isBare c then
      let ⟨q, hq⟩ := Text.skipWhile isBare r
      .ok (c :: r.takeWhile isBare, ⟨q, Text.lt_cons_of_le c hq⟩)
    else if c = '"' ∨ c = '\'' then do
      let (t, ⟨q, hq⟩) ← scanLine c r
      return (t, ⟨q, Text.lt_cons_of_lt c hq⟩)
    else .error .malformed

/-- The text after a given character at the head. -/
def expect (c : CodePoint) (s : Text) : Except Fault (Text.Rest s) :=
  match s with
  | [] => .error .malformed
  | d :: r => if d = c then .ok ⟨r, Text.length_lt_cons d r⟩ else .error .malformed

/-- Scan a key, its parts separated by points, and the blanks after it. -/
def scanKey (s : Text) : Scan Key s := do
  let (part, ⟨r, hr⟩) ← scanKeyPart s
  let ⟨q, hq⟩ := Text.skipWhile isBlank r
  match expect '.' q with
  | .error _ => return ([part], ⟨q, Text.lt_of_le_of_lt hq hr⟩)
  | .ok ⟨t, ht⟩ =>
    let ⟨u, hu⟩ := Text.skipWhile isBlank t
    let (parts, ⟨v, hv⟩) ← scanKey u
    return (part :: parts, ⟨v, by omega⟩)
termination_by s.length
decreasing_by omega

/-- Scan a key, the equals sign and the blanks after it. -/
def scanAssigned (s : Text) : Scan Key s := do
  let (key, ⟨r, hr⟩) ← scanKey s
  let ⟨q, hq⟩ ← expect '=' r
  let ⟨t, ht⟩ := Text.skipWhile isBlank q
  return (key, ⟨t, by omega⟩)

/-- The text after the comment at the head, if there is one. -/
def skipComment (s : Text) : Except Fault (Text.Tail s) :=
  match s with
  | [] => .ok (.all [])
  | c :: r =>
    if c = '#' then
      let comment := r.takeWhile fun c : CodePoint => c ≠ '\n'
      if comment.any isControl then .error .malformed
      else
        let ⟨q, hq⟩ := Text.skipWhile (fun c : CodePoint => c ≠ '\n') r
        .ok ⟨q, Text.le_cons_of_le c hq⟩
    else .ok (.all (c :: r))

/-- The text after the blanks, line feeds and comments at the head. -/
def skipFiller (s : Text) : Except Fault (Text.Tail s) := do
  let ⟨r, hr⟩ := Text.skipWhile isBlankOrFeed s
  let ⟨q, hq⟩ ← skipComment r
  if h : q.length < s.length then
    let ⟨t, ht⟩ ← skipFiller q
    return ⟨t, by omega⟩
  else return ⟨q, by omega⟩
termination_by s.length

/-- Add an entry of a table in braces. -/
def addInline (sealedKeys : List Key) (table : Table) (key : Key) (value : Value) :
    Except Fault Table :=
  if sealedKeys.any fun k => k.isPrefixOf key then .error .malformed
  else
    match key.getLast? with
    | none => .error .malformed
    | some stem =>
      match Table.descend false (Table.add stem value) key.dropLast table with
      | some table => .ok table
      | none => .error .malformed

/-- Whether a value is a list or a table in brackets. -/
def Value.isNested : Value → Bool
  | .array _ | .table _ => true
  | _ => false

mutual

/-- Scan a value. -/
def scanValue (s : Text) : Scan Value s :=
  match s with
  | [] => .error .malformed
  | c :: r =>
    if c = '"' ∨ c = '\'' then do
      let (t, ⟨q, hq⟩) ← scanString c r
      return (.text t, ⟨q, Text.lt_cons_of_lt c hq⟩)
    else if c = '[' then do
      let ⟨q, hq⟩ ← skipFiller r
      let (items, ⟨t, ht⟩) ← scanItems q
      return (.array items, ⟨t, by simp; omega⟩)
    else if c = '\x7b' then
      match Text.skipWhile isBlank r with
      | ⟨[], _⟩ => .error .malformed
      | ⟨d :: q, hq⟩ =>
        if d = '\x7d' then .ok (.table [], ⟨q, by simp at hq ⊢; omega⟩)
        else do
          let (table, ⟨t, ht⟩) ← scanEntries (d :: q) [] []
          return (.table table, ⟨t, by simp at hq ht ⊢; omega⟩)
    else scanAtom (c :: r)
termination_by (s.length, 0)
decreasing_by all_goals simp_wf; simp at *; omega

/-- Scan the items of a list up to and with its closing bracket. -/
def scanItems (s : Text) : Scan (List Value) s :=
  match s with
  | [] => .error .malformed
  | c :: r =>
    if c = ']' then .ok ([], ⟨r, Text.length_lt_cons c r⟩)
    else do
      let (v, ⟨q, hq⟩) ← scanValue (c :: r)
      match ← skipFiller q with
      | ⟨[], _⟩ => .error .malformed
      | ⟨d :: q', hq'⟩ =>
        if d = ']' then return ([v], ⟨q', by simp at hq hq' ⊢; omega⟩)
        else if d ≠ ',' then .error .malformed
        else
          let ⟨t, ht⟩ ← skipFiller q'
          let (vs, ⟨u, hu⟩) ← scanItems t
          return (v :: vs, ⟨u, by simp at hq hq' ⊢; omega⟩)
termination_by (s.length, 1)
decreasing_by
  · exact Prod.Lex.right _ (by decide)
  · simp at *; omega

/-- Scan the entries of a table in braces up to and with its closing; `table` holds the entries so
far, `sealedKeys` the keys among them that hold lists or tables. -/
def scanEntries (s : Text) (table : Table) (sealedKeys : List Key) : Scan Table s := do
  let (key, ⟨r, hr⟩) ← scanAssigned s
  let (value, ⟨q, hq⟩) ← scanValue r
  let table ← addInline sealedKeys table key value
  match Text.skipWhile isBlank q with
  | ⟨[], _⟩ => .error .malformed
  | ⟨d :: t, ht⟩ =>
    if d = '\x7d' then return (table, ⟨t, by simp at ht; omega⟩)
    else if d ≠ ',' then .error .malformed
    else
      let ⟨u, hu⟩ := Text.skipWhile isBlank t
      let sealedKeys := if value.isNested then key :: sealedKeys else sealedKeys
      let (table, ⟨v, hv⟩) ← scanEntries u table sealedKeys
      return (table, ⟨v, by simp at ht; omega⟩)
termination_by (s.length, 1)
decreasing_by
  · exact Prod.Lex.left _ _ hr
  · exact Prod.Lex.left _ _ (by simp at ht; omega)

end

/-- What a reader has found so far: the table, the sealed and the declared paths, the paths that
will be declared at the next header, and the header in force. -/
structure State where
  table : Table := []
  sealedKeys : List Key := []
  declared : List Key := []
  pending : List Key := []
  header : Key := []

namespace State

/-- Whether nothing at or below a path may be changed. -/
def isSealed (st : State) (key : Key) : Bool := st.sealedKeys.any fun k => k.isPrefixOf key

/-- Declare what the section that ends has passed through. -/
def endSection (st : State) : State :=
  { st with declared := st.pending ++ st.declared, pending := [] }

/-- Forget the paths at and below a key. -/
def forget (st : State) (key : Key) : State :=
  { st with
    sealedKeys := st.sealedKeys.filter fun k => !key.isPrefixOf k
    declared := st.declared.filter fun k => !key.isPrefixOf k }

/-- The state with a changed table. -/
def withTable (st : State) : Option Table → Except Fault State
  | some table => .ok { st with table }
  | none => .error .malformed

/-- Open the table of a header. -/
def openTable (st : State) (key : Key) : Except Fault State :=
  if st.declared.contains key || st.isSealed key then .error .malformed
  else
    let st := { st with declared := key :: st.declared, header := key }
    st.withTable (Table.descend true some key st.table)

/-- Add a table to the list of a header. -/
def addTable (st : State) (key : Key) : Except Fault State :=
  if st.isSealed key then .error .malformed
  else
    let st := st.forget key
    let st := { st with declared := key :: st.declared, header := key }
    match key.getLast? with
    | none => .error .malformed
    | some stem => st.withTable (Table.descend true (Table.addItem stem) key.dropLast st.table)

/-- The paths that a dotted key passes through below the header. -/
def passed (st : State) (key : Key) : List Key :=
  (List.range (key.length - 1)).map fun i => st.header ++ key.take (i + 1)

/-- Add an entry to the table in force. -/
def addEntry (st : State) (key : Key) (value : Value) : Except Fault State :=
  if (st.passed key).any st.declared.contains then .error .malformed
  else if st.isSealed (st.header ++ key.dropLast) then .error .malformed
  else
    match key.getLast? with
    | none => .error .malformed
    | some stem =>
      let path := st.header ++ key
      let st := { st with
        pending := st.passed key ++ st.pending
        sealedKeys := if value.isNested then path :: st.sealedKeys else st.sealedKeys }
      st.withTable
        (Table.descend true (Table.add stem value) (st.header ++ key.dropLast) st.table)

end State

/-- Scan an entry. -/
def scanEntry (st : State) (s : Text) : Scan State s := do
  let (key, ⟨r, hr⟩) ← scanAssigned s
  let (value, ⟨q, hq⟩) ← scanValue r
  let st ← st.addEntry key value
  return (st, ⟨q, by omega⟩)

/-- Scan a header that adds a table to a list, after its first two brackets. -/
def scanListHeader (st : State) (s : Text) : Scan State s := do
  let ⟨q, hq⟩ := Text.skipWhile isBlank s
  let (key, ⟨t, ht⟩) ← scanKey q
  let st ← st.addTable key
  let ⟨u, hu⟩ ← expect ']' t
  let ⟨v, hv⟩ ← expect ']' u
  return (st, ⟨v, by omega⟩)

/-- Scan a header that opens a table, after its first bracket. -/
def scanTableHeader (st : State) (s : Text) : Scan State s := do
  let ⟨q, hq⟩ := Text.skipWhile isBlank s
  let (key, ⟨t, ht⟩) ← scanKey q
  let st ← st.openTable key
  let ⟨u, hu⟩ ← expect ']' t
  return (st, ⟨u, by omega⟩)

/-- Scan a header after its first bracket. -/
def scanHeader (st : State) (s : Text) : Scan State s :=
  match s with
  | [] => .error .malformed
  | c :: r =>
    if c = '[' then do
      let (st, ⟨q, hq⟩) ← scanListHeader st.endSection r
      return (st, ⟨q, Text.lt_cons_of_lt c hq⟩)
    else scanTableHeader st.endSection (c :: r)

/-- Scan the statement at the head, if there is one. -/
def scanStatement (st : State) (s : Text) : Except Fault (State × Text.Tail s) :=
  match s with
  | [] => .ok (st, .all [])
  | c :: r =>
    if isBare c ∨ c = '"' ∨ c = '\'' then do
      let (st, ⟨q, hq⟩) ← scanEntry st (c :: r)
      return (st, ⟨q, Nat.le_of_lt hq⟩)
    else if c = '[' then do
      let (st, ⟨q, hq⟩) ← scanHeader st r
      return (st, ⟨q, Text.le_cons_of_lt c hq⟩)
    else .ok (st, .all (c :: r))

/-- Scan lines up to the end. -/
def scanLines (st : State) (s : Text) : Except Fault State := do
  let ⟨r₁, _⟩ := Text.skipWhile isBlank s
  let (st, ⟨r₂, _⟩) ← scanStatement st r₁
  let ⟨r₃, _⟩ := Text.skipWhile isBlank r₂
  match ← skipComment r₃ with
  | ⟨[], _⟩ => return st
  | ⟨c :: r, _⟩ => if c = '\n' then scanLines st r else .error .malformed
termination_by s.length
decreasing_by simp at *; omega

/-- The table that a text denotes. -/
def read (s : Text) : Except Fault Table := (scanLines {} s).map State.table

end Toml
end AnchorIdl
