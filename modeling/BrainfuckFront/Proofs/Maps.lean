import Mathlib
import BrainfuckFront.FiniteMap

/-!
# Looking up in finite maps

Keys are given once, so to find a value at a key is to have the entry, wherever
it stands.  What an insertion does to a look-up follows, and also that the values
may be seen in other terms before or after the map is built.
-/

namespace BrainfuckFront.FiniteMap

variable {Key Value Value' : Type} [DecidableEq Key]
variable {map : FiniteMap Key Value} {key : Key} {value : Value}

theorem get?_eq_some_iff :
    map.get? key = some value ↔ (key, value) ∈ map.entries := by
  rw [get?, List.lookup_eq_some_iff]
  constructor
  · rintro ⟨before, after, hentries, -⟩
    rw [hentries]
    exact List.mem_append_right before List.mem_cons_self
  · intro hmem
    obtain ⟨before, after, hentries⟩ := List.append_of_mem hmem
    refine ⟨before, after, hentries, ?_⟩
    intro entry hentry
    -- An entry for `key` further in front would give the key twice.
    have hdistinct := map.distinct
    rw [hentries, List.map_append, List.map_cons, List.nodup_middle,
      List.nodup_cons] at hdistinct
    have hfront : entry.1 ∈ before.map Prod.fst := List.mem_map_of_mem hentry
    have hne : key ≠ entry.1 := by
      intro hkey
      exact hdistinct.1 (List.mem_append_left _ (hkey ▸ hfront))
    exact bne_iff_ne.mpr hne

@[simp]
theorem get?_empty (key : Key) :
    (empty : FiniteMap Key Value).get? key = none := rfl

theorem get?_insert (map : FiniteMap Key Value) (key : Key) (value : Value)
    (other : Key) :
    (map.insert key value).get? other =
      if other = key then some value else map.get? other := by
  apply Option.ext
  intro found
  by_cases hkey : other = key
  · rw [if_pos hkey, get?_eq_some_iff]
    simp [insert, hkey, eq_comm]
  · rw [if_neg hkey, get?_eq_some_iff, get?_eq_some_iff]
    simp [insert, hkey]

/-- The entries of a map of which all look-ups are known. -/
theorem entriesBy_of_get? {occurs : Key → Bool} {valueOf : Key → Value}
    (hget : ∀ key, map.get? key =
      if occurs key then some (valueOf key) else none)
    (order : List Key) :
    map.entriesBy order =
      (order.filter occurs).map fun key => (key, valueOf key) := by
  rw [entriesBy]
  induction order with
  | nil => rfl
  | cons key order ih =>
      by_cases hoccurs : occurs key = true
      · rw [List.filterMap_cons_some (by rw [hget, if_pos hoccurs]; rfl), ih,
          List.filter_cons_of_pos hoccurs, List.map_cons]
      · rw [List.filterMap_cons_none (by rw [hget, if_neg hoccurs]; rfl), ih,
          List.filter_cons_of_neg hoccurs]

/-- The map with its values seen through `view`. -/
def mapValues (view : Value → Value') (map : FiniteMap Key Value) :
    FiniteMap Key Value' where
  entries := map.entries.map (Prod.map id view)
  distinct := by
    rw [List.map_map]
    exact map.distinct

variable {view : Value → Value'}

theorem get?_mapValues (key : Key) :
    (map.mapValues view).get? key = (map.get? key).map view := by
  apply Option.ext
  intro found
  rw [get?_eq_some_iff, Option.map_eq_some_iff]
  simp only [get?_eq_some_iff, mapValues, List.mem_map, Prod.exists,
    Prod.map_apply, id_eq, Prod.mk.injEq]
  constructor
  · rintro ⟨_, value, hmem, rfl, hview⟩
    exact ⟨value, hmem, hview⟩
  · rintro ⟨value, hmem, hview⟩
    exact ⟨key, value, hmem, rfl, hview⟩

theorem mapValues_insert (key : Key) (value : Value) :
    (map.insert key value).mapValues view =
      (map.mapValues view).insert key (view value) := by
  apply FiniteMap.ext
  simp only [mapValues, insert, List.map_cons, List.filter_map]
  rfl

theorem entriesBy_mapValues (order : List Key) :
    (map.mapValues view).entriesBy order =
      (map.entriesBy order).map (Prod.map id view) := by
  simp only [entriesBy, get?_mapValues, List.map_filterMap, Option.map_map]
  rfl

end BrainfuckFront.FiniteMap
