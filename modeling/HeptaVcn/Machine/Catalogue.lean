import Mathlib.Data.List.Nodup
import HeptaVcn.Machine.Run

/-!
# Catalogues with a chosen entry

What a store of named entries is for: the entries stand in an order, no two under one
key, and one of them is the chosen one as soon as there are any. The changes that keep
this are a new or changed entry, the removal of one that is not chosen, and a choice.
-/

namespace Machine

/-- Entries under distinct keys, in order, with a chosen one unless there is none. -/
structure Catalogue (κ α : Type*) where
  entries : List (κ × α)
  chosen : Option κ
  nodup : (entries.map Prod.fst).Nodup
  chosen_mem : ∀ k, chosen = some k → k ∈ entries.map Prod.fst
  chosen_isSome : entries ≠ [] → chosen.isSome

namespace Catalogue

variable {κ α : Type*}

/-- The keys in the order of their entries. -/
def keys (c : Catalogue κ α) : List κ := c.entries.map Prod.fst

/-- Nothing is entered. -/
def empty : Catalogue κ α where
  entries := []
  chosen := none
  nodup := List.nodup_nil
  chosen_mem _ h := nomatch h
  chosen_isSome h := absurd rfl h

variable [DecidableEq κ]

/-- What is entered under a key. -/
def get (c : Catalogue κ α) (k : κ) : Option α := c.entries.lookup k

/-- Looking up in a list of entries tries its first entry first. -/
theorem lookup_cons_eq (k : κ) (a : α) (entries : List (κ × α)) (k' : κ) :
    ((k, a) :: entries).lookup k' = if k' = k then some a else entries.lookup k' := by
  rw [List.lookup_cons]
  by_cases h : k' = k
  · simp [h]
  · rw [beq_false_of_ne h, if_neg h]

/-- A key has an entry exactly if it is among the keys. -/
theorem lookup_isSome_iff {entries : List (κ × α)} {k : κ} :
    (entries.lookup k).isSome ↔ k ∈ entries.map Prod.fst := by
  induction entries with
  | nil => simp
  | cons entry entries ih =>
    rw [lookup_cons_eq, List.map_cons, List.mem_cons, ← ih]
    by_cases h : k = entry.1 <;> simp [h]

/-- The catalogue knows a value for exactly its keys. -/
theorem get_isSome_iff {c : Catalogue κ α} {k : κ} : (c.get k).isSome ↔ k ∈ c.keys :=
  lookup_isSome_iff

/-- Distinct keys give back the entries. -/
theorem filterMap_lookup {entries : List (κ × α)} (hnodup : (entries.map Prod.fst).Nodup) :
    (entries.map Prod.fst).filterMap (fun k => (entries.lookup k).map fun a => (k, a)) =
      entries := by
  induction entries with
  | nil => rfl
  | cons entry entries ih =>
    obtain ⟨k, a⟩ := entry
    obtain ⟨hnew, hnodup⟩ := List.nodup_cons.mp hnodup
    have htail : ∀ k' ∈ entries.map Prod.fst,
        ((((k, a) :: entries).lookup k').map fun a => (k', a)) =
          (entries.lookup k').map fun a => (k', a) := by
      intro k' hmem
      have hne : k' ≠ k := fun heq => hnew (heq ▸ hmem)
      rw [lookup_cons_eq, if_neg hne]
    simp only [List.map_cons, List.filterMap_cons, List.lookup_cons_self, Option.map_some]
    rw [List.filterMap_congr htail, ih hnodup]

/-- The entries are the keys in order, each with its value. -/
theorem filterMap_get (c : Catalogue κ α) :
    c.keys.filterMap (fun k => (c.get k).map fun a => (k, a)) = c.entries :=
  filterMap_lookup c.nodup

/-! ## Changes -/

/-- The entry under a key is changed where it stands. -/
def replaceEntry (k : κ) (a : α) (entries : List (κ × α)) : List (κ × α) :=
  entries.map fun entry => if entry.1 = k then (k, a) else entry

/-- Replacing a value keeps the keys and their order. -/
@[simp] theorem map_fst_replaceEntry (k : κ) (a : α) (entries : List (κ × α)) :
    (replaceEntry k a entries).map Prod.fst = entries.map Prod.fst := by
  rw [replaceEntry, List.map_map]
  refine List.map_congr_left fun entry _ => ?_
  by_cases h : entry.1 = k <;> simp [h]

/-- Replacing a value changes what is found under its key, if anything was. -/
theorem lookup_replaceEntry (k : κ) (a : α) (entries : List (κ × α)) (k' : κ) :
    (replaceEntry k a entries).lookup k' =
      if k' = k then (entries.lookup k).map fun _ => a else entries.lookup k' := by
  induction entries with
  | nil => simp [replaceEntry]
  | cons entry entries ih =>
    obtain ⟨k₀, a₀⟩ := entry
    rw [replaceEntry, List.map_cons, ← replaceEntry, lookup_cons_eq k₀, lookup_cons_eq k₀]
    by_cases hhead : k₀ = k
    · rw [if_pos hhead, lookup_cons_eq, ih]
      by_cases h : k' = k <;> simp [h, hhead]
    · rw [if_neg hhead, lookup_cons_eq, ih]
      by_cases h : k' = k
      · simp [h, Ne.symm hhead]
      · simp [h]

/-- The entry under a key is dropped. -/
def dropEntry (k : κ) (entries : List (κ × α)) : List (κ × α) :=
  entries.filter (·.1 ≠ k)

/-- Dropping an entry drops its key from the keys, when no key occurs twice. -/
theorem map_fst_dropEntry {k : κ} {entries : List (κ × α)}
    (hnodup : (entries.map Prod.fst).Nodup) :
    (dropEntry k entries).map Prod.fst = (entries.map Prod.fst).erase k := by
  rw [hnodup.erase_eq_filter, List.filter_map]
  congr 1
  refine List.filter_congr fun entry _ => ?_
  by_cases h : entry.1 = k <;> simp [h]

/-- After dropping an entry nothing is found under its key. -/
theorem lookup_dropEntry (k : κ) (entries : List (κ × α)) (k' : κ) :
    (dropEntry k entries).lookup k' = if k' = k then none else entries.lookup k' := by
  induction entries with
  | nil => simp [dropEntry]
  | cons entry entries ih =>
    obtain ⟨k₀, a₀⟩ := entry
    rw [dropEntry, List.filter_cons, ← dropEntry, lookup_cons_eq]
    by_cases hhead : k₀ = k
    · rw [if_neg (by simp [hhead]), ih, hhead]
      by_cases h : k' = k <;> simp [h]
    · rw [if_pos (by simp [hhead]), lookup_cons_eq, ih]
      by_cases h : k' = k
      · simp [h, Ne.symm hhead]
      · simp [h]

/-- Enter something under a key: in its place if there is something already, else first. -/
def put (c : Catalogue κ α) (k : κ) (a : α) : Catalogue κ α :=
  if h : k ∈ c.keys then
    { entries := replaceEntry k a c.entries
      chosen := c.chosen
      nodup := by simpa using c.nodup
      chosen_mem := by simpa using c.chosen_mem
      chosen_isSome := fun hne => c.chosen_isSome fun heq => hne (by simp [heq, replaceEntry]) }
  else
    { entries := (k, a) :: c.entries
      chosen := some (c.chosen.getD k)
      nodup := List.nodup_cons.mpr ⟨h, c.nodup⟩
      chosen_mem := by
        intro k' hk'
        cases hchosen : c.chosen with
        | none => simp_all
        | some k'' =>
          simp only [hchosen, Option.getD_some, Option.some.injEq] at hk'
          exact List.mem_cons_of_mem _ (c.chosen_mem k' (hk' ▸ hchosen))
      chosen_isSome := fun _ => rfl }

/-- Remove an entry that is not the chosen one. -/
def remove (c : Catalogue κ α) (k : κ) (h : c.chosen ≠ some k) : Catalogue κ α where
  entries := dropEntry k c.entries
  chosen := c.chosen
  nodup := by
    rw [map_fst_dropEntry c.nodup]
    exact c.nodup.erase k
  chosen_mem := by
    intro k' hk'
    rw [map_fst_dropEntry c.nodup]
    have hne : k' ≠ k := fun heq => h (heq ▸ hk')
    exact (List.mem_erase_of_ne hne).mpr (c.chosen_mem k' hk')
  chosen_isSome := fun hne => c.chosen_isSome fun heq => hne (by simp [heq, dropEntry])

/-- Choose an entry. -/
def choose (c : Catalogue κ α) (k : κ) (h : k ∈ c.keys) : Catalogue κ α where
  entries := c.entries
  chosen := some k
  nodup := c.nodup
  chosen_mem := fun _ hk' => Option.some.inj hk' ▸ h
  chosen_isSome := fun _ => rfl

section Effects

variable (c : Catalogue κ α) (k : κ) (a : α)

/-- Putting a known key keeps the keys; a new one comes first. -/
theorem keys_put : (c.put k a).keys = if k ∈ c.keys then c.keys else k :: c.keys := by
  unfold put
  split
  case isTrue h => exact map_fst_replaceEntry k a c.entries
  case isFalse h => rfl

/-- A value put is found under its key, and all other values are as before. -/
theorem get_put (k' : κ) : (c.put k a).get k' = if k' = k then some a else c.get k' := by
  unfold put
  split
  case isTrue h =>
    obtain ⟨old, hold⟩ := Option.isSome_iff_exists.mp (get_isSome_iff.mpr h)
    have hlookup : c.entries.lookup k = some old := hold
    rw [get, lookup_replaceEntry, hlookup]
    rfl
  case isFalse h => exact lookup_cons_eq k a c.entries k'

/-- A new key becomes the chosen one exactly if none was chosen. -/
theorem chosen_put :
    (c.put k a).chosen = if k ∈ c.keys then c.chosen else some (c.chosen.getD k) := by
  unfold put
  split <;> rfl

variable {c k} (hchosen : c.chosen ≠ some k)

/-- Removing an entry erases its key and keeps the order of the others. -/
theorem keys_remove : (c.remove k hchosen).keys = c.keys.erase k := map_fst_dropEntry c.nodup

/-- A removed key has no value, and all other values are as before. -/
theorem get_remove (k' : κ) :
    (c.remove k hchosen).get k' = if k' = k then none else c.get k' :=
  lookup_dropEntry k c.entries k'

end Effects

/-- The changes of a catalogue. -/
inductive Change (κ α : Type*) where
  | put (k : κ) (a : α)
  | remove (k : κ)
  | choose (k : κ)

/-- One change; only an entry is removed or chosen, and the chosen one is not removed. -/
def step (c : Catalogue κ α) : Change κ α → Option (Catalogue κ α)
  | .put k a => some (c.put k a)
  | .remove k =>
    if h : k ∈ c.keys ∧ c.chosen ≠ some k then some (c.remove k h.2) else none
  | .choose k => if h : k ∈ c.keys then some (c.choose k h) else none

/-- What is in a catalogue has been put there. -/
theorem put_mem_of_run {changes : List (Change κ α)} {c : Catalogue κ α}
    (hrun : run step empty changes = some c) {k : κ} {a : α} (hget : c.get k = some a) :
    .put k a ∈ changes := by
  refine history (I := fun changes c => ∀ k a, c.get k = some a → .put k a ∈ changes)
    ?_ (by simp [get, empty]) hrun k a hget
  intro changes c change c' hput hstep k a hget
  cases change with
  | put k' a' =>
    obtain rfl : c.put k' a' = c' := Option.some.inj hstep
    rw [get_put] at hget
    split at hget
    case isTrue h => simp [h, Option.some.inj hget]
    case isFalse => exact List.mem_append_left _ (hput k a hget)
  | remove k' =>
    simp only [step, Option.dite_none_right_eq_some, Option.some.injEq] at hstep
    obtain ⟨_, rfl⟩ := hstep
    rw [get_remove] at hget
    split at hget
    · cases hget
    · exact List.mem_append_left _ (hput k a hget)
  | choose k' =>
    simp only [step, Option.dite_none_right_eq_some, Option.some.injEq] at hstep
    obtain ⟨_, rfl⟩ := hstep
    exact List.mem_append_left _ (hput k a hget)

end Catalogue

end Machine
