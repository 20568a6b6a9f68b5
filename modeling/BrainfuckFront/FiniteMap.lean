/-!
# Finite maps

A finite map is kept as its entries.  Their order is left open, and nothing
that is asked of a map depends on it.
-/

namespace BrainfuckFront

/-- A finite map as its entries, in any order, with no key given twice. -/
@[ext]
structure FiniteMap (Key Value : Type) where
  entries : List (Key × Value)
  distinct : (entries.map Prod.fst).Nodup

namespace FiniteMap

variable {Key Value : Type} [DecidableEq Key]

def get? (map : FiniteMap Key Value) (key : Key) : Option Value :=
  map.entries.lookup key

def empty : FiniteMap Key Value := ⟨[], List.nodup_nil⟩

/-- The map with `value` at `key`, whatever it had there before. -/
def insert (map : FiniteMap Key Value) (key : Key) (value : Value) :
    FiniteMap Key Value where
  entries := (key, value) :: map.entries.filter fun entry => entry.1 ≠ key
  distinct := by
    have hfiltered : ((map.entries.filter fun entry =>
        entry.1 ≠ key).map Prod.fst).Nodup :=
      map.distinct.sublist (List.filter_sublist.map Prod.fst)
    simpa [List.mem_filter] using hfiltered

/-- The map of some entries.  Of two with the same key the first counts. -/
def ofList (entries : List (Key × Value)) : FiniteMap Key Value :=
  entries.foldr (fun entry map => map.insert entry.1 entry.2) empty

/-- The entries whose keys are among `order`, in its order. -/
def entriesBy (map : FiniteMap Key Value) (order : List Key) :
    List (Key × Value) :=
  order.filterMap fun key => (map.get? key).map fun value => (key, value)

/-- Same keys with the same values.  Only the keys of `left` are looked up:
with as many keys on both sides none of `right` can be missed. -/
def same [DecidableEq Value] (left right : FiniteMap Key Value) : Bool :=
  left.entries.length == right.entries.length &&
    left.entries.all fun entry => right.get? entry.1 == some entry.2

end FiniteMap

end BrainfuckFront
