/-
# Ordered maps

A list of keys with their values.  The first entry of a key counts.  `put` gives
a key that has a value its new value in place and puts a new key last, so a map
built from `put` lists each key once, at the position of its first insertion
and with its last value.

Source: the maps in which `idlforge.core.loader` and `idlforge.codegen.base`
(`GeneratorResult.artifacts`) keep members.
-/

namespace AnchorIdl

/-- Keys with their values, in order. -/
abbrev Ordered (κ ν : Type) := List (κ × ν)

namespace Ordered

variable {κ ν : Type} [DecidableEq κ]

/-- The value of a key. -/
def get? : Ordered κ ν → κ → Option ν
  | [], _ => none
  | (k, v) :: rest, key => if key = k then some v else get? rest key

/-- Give a key a value: in place if it has one, else at the end. -/
def put (key : κ) (value : ν) : Ordered κ ν → Ordered κ ν
  | [] => [(key, value)]
  | (k, v) :: rest => if k = key then (k, value) :: rest else (k, v) :: put key value rest

/-- Put the entries of a second map into a first, in order. -/
def merge (map entries : Ordered κ ν) : Ordered κ ν :=
  entries.foldl (fun map entry => put entry.1 entry.2 map) map

/-- The map that a list of pairs denotes: each key at its first position with its last value. -/
def ofPairs (pairs : List (κ × ν)) : Ordered κ ν := merge [] pairs

/-- The map without a key. -/
def erase (key : κ) (map : Ordered κ ν) : Ordered κ ν := map.filter fun entry => entry.1 ≠ key

/-- The keys, in order. -/
def keys (map : Ordered κ ν) : List κ := map.map Prod.fst

@[simp] theorem get?_nil (key : κ) : get? ([] : Ordered κ ν) key = none := rfl

theorem get?_cons (k key : κ) (v : ν) (rest : Ordered κ ν) :
    get? ((k, v) :: rest) key = if key = k then some v else get? rest key := rfl

/-- A key that was put has its new value, and every other key the value it had. -/
theorem get?_put (key other : κ) (value : ν) (map : Ordered κ ν) :
    get? (put key value map) other = if other = key then some value else get? map other := by
  induction map with
  | nil => simp [put, get?_cons]
  | cons entry rest ih =>
    obtain ⟨k, v⟩ := entry
    by_cases hk : k = key
    · subst hk
      by_cases ho : other = k <;> simp [put, get?_cons, ho]
    · by_cases ho : other = k
      · subst ho
        simp [put, get?_cons, hk]
      · simp [put, get?_cons, hk, ho, ih]

/-- A key that was erased has no value, and every other key the value it had. -/
theorem get?_erase (key other : κ) (map : Ordered κ ν) :
    get? (erase key map) other = if other = key then none else get? map other := by
  induction map with
  | nil => simp [erase]
  | cons entry rest ih =>
    obtain ⟨k, v⟩ := entry
    have herase : erase key ((k, v) :: rest) =
        if k = key then erase key rest else (k, v) :: erase key rest := by
      by_cases hk : k = key <;> simp [erase, hk]
    rw [herase, get?_cons]
    by_cases hk : k = key
    · rw [if_pos hk, ih]
      by_cases ho : other = key
      · rw [if_pos ho, if_pos ho]
      · rw [if_neg ho, if_neg ho, if_neg (hk ▸ ho)]
    · rw [if_neg hk, get?_cons]
      by_cases ho : other = k
      · rw [if_pos ho, if_pos ho, if_neg (ho ▸ hk)]
      · rw [if_neg ho, if_neg ho, ih]

/-- Putting a key leaves the keys as they are, or adds it at the end. -/
theorem keys_put (key : κ) (value : ν) (map : Ordered κ ν) :
    keys (put key value map) = if key ∈ keys map then keys map else keys map ++ [key] := by
  induction map with
  | nil => simp [put, keys]
  | cons entry rest ih =>
    obtain ⟨k, v⟩ := entry
    simp only [keys, List.map_cons, List.mem_cons] at ih ⊢
    by_cases hk : k = key
    · simp [put, hk]
    · by_cases hr : key ∈ List.map Prod.fst rest <;>
        simp [put, hk, Ne.symm hk, hr, ih]

/-- An entry that is found is one of the list. -/
theorem mem_of_get? {map : Ordered κ ν} {key : κ} {value : ν} (h : get? map key = some value) :
    (key, value) ∈ map := by
  induction map with
  | nil => simp at h
  | cons entry rest ih =>
    obtain ⟨k, v⟩ := entry
    rw [get?_cons] at h
    by_cases hk : key = k
    · simp_all
    · exact List.mem_cons_of_mem _ (ih (by simpa [hk] using h))

end Ordered
end AnchorIdl
