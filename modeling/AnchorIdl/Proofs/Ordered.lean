/-
# Looking up in maps and merging them

An entry of a map whose keys are distinct is found under its key (`get?_of_mem`).
So the order of such a map does not matter to a look-up (`get?_of_perm`), and of
two maps one after the other the first that has the key counts (`get?_append`).

Of two maps that are merged the second counts (`get?_merge`), but the first
decides on the positions of its keys (`keys_merge`).  As a map is known by its
keys and their values (`eq_of_keys_of_get?`), this says all of merging, and it
does not matter which of three maps are merged first (`merge_assoc`).
-/

import AnchorIdl.Ordered
import Mathlib.Data.List.Nodup

namespace AnchorIdl
namespace Ordered

variable {κ ν : Type} [DecidableEq κ]

theorem get?_append (start rest : Ordered κ ν) (key : κ) :
    get? (start ++ rest) key = (get? start key).or (get? rest key) := by
  induction start with
  | nil => rfl
  | cons entry start ih =>
    obtain ⟨k, v⟩ := entry
    by_cases h : key = k <;> simp [get?_cons, h, ih]

theorem get?_eq_none_iff {map : Ordered κ ν} {key : κ} :
    get? map key = none ↔ key ∉ map.map Prod.fst := by
  induction map with
  | nil => simp
  | cons entry map ih =>
    obtain ⟨k, v⟩ := entry
    rw [get?_cons, List.map_cons, List.mem_cons, not_or, ← ih]
    by_cases hk : key = k <;> simp [hk]

theorem get?_append_of_not_mem {start : Ordered κ ν} {key : κ} (h : key ∉ start.map Prod.fst)
    (rest : Ordered κ ν) : get? (start ++ rest) key = get? rest key := by
  rw [get?_append, get?_eq_none_iff.2 h, Option.none_or]

theorem get?_of_mem {map : Ordered κ ν} (distinct : (map.map Prod.fst).Nodup) {key : κ} {value : ν}
    (h : (key, value) ∈ map) : get? map key = some value := by
  induction map with
  | nil => simp at h
  | cons entry map ih =>
    obtain ⟨k, v⟩ := entry
    rw [List.map_cons, List.nodup_cons] at distinct
    rcases List.mem_cons.1 h with heq | hmem
    · simp only [Prod.mk.injEq] at heq
      rw [get?_cons, if_pos heq.1, heq.2]
    · have hne : key ≠ k := by
        rintro rfl
        exact distinct.1 (List.mem_map.2 ⟨_, hmem, rfl⟩)
      rw [get?_cons, if_neg hne, ih distinct.2 hmem]

theorem get?_of_perm {map map' : Ordered κ ν} (h : map.Perm map')
    (distinct : (map.map Prod.fst).Nodup) (key : κ) : get? map key = get? map' key := by
  have distinct' : (map'.map Prod.fst).Nodup := (h.map Prod.fst).nodup_iff.1 distinct
  cases hmap : get? map key with
  | some value => exact (get?_of_mem distinct' (h.mem_iff.1 (mem_of_get? hmap))).symm
  | none =>
    rw [get?_eq_none_iff, (h.map Prod.fst).mem_iff] at hmap
    exact (get?_eq_none_iff.2 hmap).symm

/-! ### Merging -/

omit [DecidableEq κ] in
theorem keys_cons (key : κ) (value : ν) (map : Ordered κ ν) :
    keys ((key, value) :: map) = key :: keys map :=
  rfl

theorem merge_cons (map : Ordered κ ν) (key : κ) (value : ν) (entries : Ordered κ ν) :
    merge map ((key, value) :: entries) = merge (put key value map) entries :=
  rfl

theorem put_of_not_mem {key : κ} {map : Ordered κ ν} (h : key ∉ keys map) (value : ν) :
    put key value map = map ++ [(key, value)] := by
  induction map with
  | nil => rfl
  | cons entry map ih =>
    obtain ⟨k, v⟩ := entry
    rw [keys_cons, List.mem_cons, not_or] at h
    rw [put, if_neg (Ne.symm h.1), ih h.2, List.cons_append]

theorem nodup_keys_put {map : Ordered κ ν} (distinct : (keys map).Nodup) (key : κ) (value : ν) :
    (keys (put key value map)).Nodup := by
  rw [keys_put]
  by_cases h : key ∈ keys map
  · rwa [if_pos h]
  · rw [if_neg h, List.nodup_append]
    simpa [distinct] using fun k hk => ne_of_mem_of_not_mem hk h

theorem nodup_keys_merge {map : Ordered κ ν} (distinct : (keys map).Nodup)
    (entries : Ordered κ ν) : (keys (merge map entries)).Nodup := by
  induction entries generalizing map with
  | nil => exact distinct
  | cons entry entries ih => exact ih (nodup_keys_put distinct entry.1 entry.2)

/-- Keys that are merged in keep their positions, and new ones come after all others. -/
theorem keys_merge {entries : Ordered κ ν} (distinct : (keys entries).Nodup)
    (map : Ordered κ ν) :
    keys (merge map entries) = keys map ++ (keys entries).filter (· ∉ keys map) := by
  induction entries generalizing map with
  | nil => simp [merge, keys]
  | cons entry entries ih =>
    obtain ⟨key, value⟩ := entry
    rw [keys_cons, List.nodup_cons] at distinct
    rw [merge_cons, ih distinct.2, keys_put, keys_cons]
    by_cases h : key ∈ keys map
    · simp [h]
    · have hrest : (keys entries).filter (· ∉ keys map ++ [key]) =
          (keys entries).filter (· ∉ keys map) := by
        refine List.filter_congr fun k hk => ?_
        have hne : k ≠ key := ne_of_mem_of_not_mem hk distinct.1
        simp [hne]
      rw [if_neg h, hrest, List.filter_cons_of_pos (by simpa using h), List.append_assoc]
      rfl

/-- A key that is merged in has its new value, and every other key the value it had. -/
theorem get?_merge {entries : Ordered κ ν} (distinct : (keys entries).Nodup) (map : Ordered κ ν)
    (key : κ) : get? (merge map entries) key = (get? entries key).or (get? map key) := by
  induction entries generalizing map with
  | nil => rfl
  | cons entry entries ih =>
    obtain ⟨k, value⟩ := entry
    rw [keys_cons, List.nodup_cons] at distinct
    rw [merge_cons, ih distinct.2, get?_put, get?_cons]
    by_cases hk : key = k
    · subst hk
      simp [get?_eq_none_iff.2 distinct.1]
    · simp [hk]

/-- **A map with distinct keys is known by its keys, in order, and their values.** -/
theorem eq_of_keys_of_get? {map map' : Ordered κ ν} (distinct : (keys map).Nodup)
    (hkeys : keys map = keys map') (hget : ∀ key, get? map key = get? map' key) :
    map = map' := by
  induction map generalizing map' with
  | nil => exact (List.map_eq_nil_iff.1 hkeys.symm).symm
  | cons entry map ih =>
    obtain ⟨key, value⟩ := entry
    cases map' with
    | nil => simp [keys] at hkeys
    | cons entry' map' =>
      obtain ⟨key', value'⟩ := entry'
      rw [keys_cons, keys_cons, List.cons.injEq] at hkeys
      rw [keys_cons, List.nodup_cons] at distinct
      obtain ⟨rfl, hrest⟩ := hkeys
      have hvalue : value = value' := by simpa [get?_cons] using hget key
      have hnew : key ∉ keys map' := hrest ▸ distinct.1
      have hmap : map = map' := ih distinct.2 hrest fun k => by
        by_cases hk : k = key
        · rw [hk, get?_eq_none_iff.2 distinct.1, get?_eq_none_iff.2 hnew]
        · simpa [get?_cons, hk] using hget k
      rw [hvalue, hmap]

/-- What holds of all values holds of them after another value is put that it holds of. -/
theorem forall_put {P : ν → Prop} {key : κ} {value : ν} {map : Ordered κ ν} (hvalue : P value)
    (hmap : ∀ entry ∈ map, P entry.2) : ∀ entry ∈ put key value map, P entry.2 := by
  induction map with
  | nil => exact List.forall_mem_singleton.2 hvalue
  | cons entry map ih =>
    rw [List.forall_mem_cons] at hmap
    rw [put]
    split
    · exact List.forall_mem_cons.2 ⟨hvalue, hmap.2⟩
    · exact List.forall_mem_cons.2 ⟨hmap.1, ih hmap.2⟩

theorem forall_merge {P : ν → Prop} {map entries : Ordered κ ν} (hmap : ∀ entry ∈ map, P entry.2)
    (hentries : ∀ entry ∈ entries, P entry.2) : ∀ entry ∈ merge map entries, P entry.2 := by
  induction entries generalizing map with
  | nil => exact hmap
  | cons entry entries ih =>
    rw [List.forall_mem_cons] at hentries
    exact ih (forall_put hentries.1 hmap) hentries.2

theorem mem_keys_put {key other : κ} {value : ν} {map : Ordered κ ν} :
    other ∈ keys (put key value map) ↔ other = key ∨ other ∈ keys map := by
  rw [keys_put]
  by_cases h : key ∈ keys map
  · rw [if_pos h]
    exact ⟨.inr, fun ho => ho.elim (fun heq => heq ▸ h) id⟩
  · simp [h, or_comm]

theorem put_put (key : κ) (value first : ν) (map : Ordered κ ν) :
    put key value (put key first map) = put key value map := by
  induction map with
  | nil => simp [put]
  | cons entry map ih =>
    obtain ⟨k, v⟩ := entry
    by_cases hk : k = key <;> simp [put, hk, ih]

/-- A key that has its position can be put before or after another one. -/
theorem put_comm {key other : κ} (hne : key ≠ other) {map : Ordered κ ν} (hkey : key ∈ keys map)
    (value next : ν) : put key value (put other next map) = put other next (put key value map) := by
  induction map with
  | nil => simp [keys] at hkey
  | cons entry map ih =>
    obtain ⟨k, v⟩ := entry
    rw [keys_cons, List.mem_cons] at hkey
    by_cases hk : k = key
    · simp [put, hk, hne]
    · by_cases ho : k = other
      · simp [put, ho, Ne.symm hne]
      · simp [put, hk, ho, ih (hkey.resolve_left (Ne.symm hk))]

theorem put_merge_of_mem {key : κ} {map entries : Ordered κ ν} (hkey : key ∈ keys map)
    (hnew : key ∉ keys entries) (value : ν) :
    put key value (merge map entries) = merge (put key value map) entries := by
  induction entries generalizing map with
  | nil => rfl
  | cons entry entries ih =>
    obtain ⟨k, v⟩ := entry
    rw [keys_cons, List.mem_cons, not_or] at hnew
    rw [merge_cons, merge_cons, ih (mem_keys_put.2 (.inr hkey)) hnew.2, put_comm hnew.1 hkey]

/-- Putting a key after merging is merging it in last. -/
theorem put_merge {entries : Ordered κ ν} (distinct : (keys entries).Nodup) (key : κ) (value : ν)
    (map : Ordered κ ν) :
    put key value (merge map entries) = merge map (put key value entries) := by
  induction entries generalizing map with
  | nil => rfl
  | cons entry entries ih =>
    obtain ⟨k, v⟩ := entry
    rw [keys_cons, List.nodup_cons] at distinct
    by_cases hk : k = key
    · subst hk
      have hput : put k value ((k, v) :: entries) = (k, value) :: entries := if_pos rfl
      rw [merge_cons, put_merge_of_mem (mem_keys_put.2 (.inl rfl)) distinct.1, put_put, hput,
        merge_cons]
    · have hput : put key value ((k, v) :: entries) = (k, v) :: put key value entries :=
        if_neg hk
      rw [merge_cons, hput, merge_cons, ih distinct.2]

/-- **Merging is associative:** a key stays where the first map has it, and has the value of the
last. -/
theorem merge_assoc {middle : Ordered κ ν} (distinct : (keys middle).Nodup)
    (map entries : Ordered κ ν) :
    merge (merge map middle) entries = merge map (merge middle entries) := by
  induction entries generalizing middle with
  | nil => rfl
  | cons entry entries ih =>
    obtain ⟨key, value⟩ := entry
    rw [merge_cons, merge_cons, put_merge distinct, ih (nodup_keys_put distinct key value)]

end Ordered
end AnchorIdl
