import Mathlib
import BrainfuckFront.Proofs.Maps

/-!
# Comparing finite maps

Two maps are compared by going through the entries of the left one and looking
its keys up in the right one.  That the values agree there says nothing of the
other keys of the right map.  But keys are given once only, so with as many
entries on both sides there are no other keys.  The order of the entries has no
part in this, and the comparison is an equivalence although its two sides are
not treated alike.
-/

namespace BrainfuckFront.FiniteMap

variable {Key Value : Type} [DecidableEq Key]

def keys (map : FiniteMap Key Value) : Finset Key :=
  (map.entries.map Prod.fst).toFinset

/-- The same map with its entries in another order. -/
def reordered (map : FiniteMap Key Value) (order : List (Key × Value))
    (horder : order.Perm map.entries) : FiniteMap Key Value where
  entries := order
  distinct := (horder.map Prod.fst).nodup_iff.mpr map.distinct

/-- The same keys, and the same value at each of them. -/
@[mk_iff]
structure Agrees (left right : FiniteMap Key Value) : Prop where
  keys_eq : left.keys = right.keys
  get?_eq : ∀ key ∈ left.keys, left.get? key = right.get? key

variable {map left middle right : FiniteMap Key Value}
variable {key : Key}

theorem card_keys (map : FiniteMap Key Value) :
    map.keys.card = map.entries.length := by
  rw [keys, List.toFinset_card_of_nodup map.distinct, List.length_map]

theorem mem_keys_iff : key ∈ map.keys ↔ ∃ value, map.get? key = some value := by
  simp only [keys, List.mem_toFinset, List.mem_map, get?_eq_some_iff,
    Prod.exists, exists_and_right, exists_eq_right]

/-- If every key of `left` is one of `right` with the same value, then as many
keys are the same keys. -/
theorem keys_eq_of_card_eq
    (hget : ∀ key ∈ left.keys, left.get? key = right.get? key)
    (hcard : left.keys.card = right.keys.card) : left.keys = right.keys := by
  have hsubset : left.keys ⊆ right.keys := by
    intro key hkey
    obtain ⟨value, hvalue⟩ := mem_keys_iff.mp hkey
    rw [hget key hkey] at hvalue
    exact mem_keys_iff.mpr ⟨value, hvalue⟩
  exact Finset.eq_of_subset_of_card_le hsubset hcard.ge

section Order

variable {order : List (Key × Value)} (horder : order.Perm map.entries)

@[simp]
theorem keys_reordered : (map.reordered order horder).keys = map.keys :=
  List.toFinset_eq_of_perm _ _ (horder.map Prod.fst)

@[simp]
theorem get?_reordered (key : Key) :
    (map.reordered order horder).get? key = map.get? key := by
  apply Option.ext
  intro value
  rw [get?_eq_some_iff, get?_eq_some_iff]
  exact horder.mem_iff

end Order

namespace Agrees

theorem refl (map : FiniteMap Key Value) : Agrees map map where
  keys_eq := rfl
  get?_eq _ _ := rfl

theorem symm (hagrees : Agrees left right) : Agrees right left where
  keys_eq := hagrees.keys_eq.symm
  get?_eq key hkey :=
    (hagrees.get?_eq key (hagrees.keys_eq ▸ hkey)).symm

theorem trans (hleft : Agrees left middle) (hright : Agrees middle right) :
    Agrees left right where
  keys_eq := hleft.keys_eq.trans hright.keys_eq
  get?_eq key hkey :=
    (hleft.get?_eq key hkey).trans
      (hright.get?_eq key (hleft.keys_eq ▸ hkey))

end Agrees

variable [DecidableEq Value]

/-- What going through the entries of `left` finds out. -/
theorem all_get?_iff :
    (left.entries.all fun entry => right.get? entry.1 == some entry.2) = true ↔
      ∀ key ∈ left.keys, left.get? key = right.get? key := by
  simp only [List.all_eq_true, beq_iff_eq, Prod.forall, ← get?_eq_some_iff,
    mem_keys_iff]
  constructor
  · rintro hall key ⟨value, hvalue⟩
    rw [hvalue, hall key value hvalue]
  · intro hget key value hvalue
    rw [← hget key ⟨value, hvalue⟩, hvalue]

theorem same_iff :
    left.same right = true ↔ left.keys.card = right.keys.card ∧
      ∀ key ∈ left.keys, left.get? key = right.get? key := by
  rw [same, Bool.and_eq_true, beq_iff_eq, all_get?_iff, card_keys, card_keys]

theorem same_iff_agrees : left.same right = true ↔ Agrees left right := by
  rw [same_iff, agrees_iff]
  apply and_congr_left
  intro hget
  exact ⟨keys_eq_of_card_eq hget, congrArg Finset.card⟩

/-- In whichever order the entries of the left map come, the comparison accepts
exactly the maps with the same keys and the same values.  Of the right map it
uses the number of entries and the values at the keys of the left one only, and
still it is an equivalence. -/
theorem same_decides_agreement (Key Value : Type) [DecidableEq Key]
    [DecidableEq Value] :
    (∀ (left right : FiniteMap Key Value) (order : List (Key × Value))
        (horder : order.Perm left.entries),
      (left.reordered order horder).same right = true ↔ Agrees left right) ∧
    (∀ left right other : FiniteMap Key Value,
      right.entries.length = other.entries.length →
        (∀ key ∈ left.keys, right.get? key = other.get? key) →
          left.same right = left.same other) ∧
    Equivalence fun left right : FiniteMap Key Value =>
      left.same right = true := by
  refine ⟨?_, ?_, ?_⟩
  · intro left right order horder
    simp only [same_iff_agrees, agrees_iff, keys_reordered, get?_reordered]
  · intro left right other hlength hget
    rw [Bool.eq_iff_iff, same_iff, same_iff, card_keys right, hlength,
      ← card_keys other]
    apply and_congr_right
    intro _
    apply forall₂_congr
    intro key hkey
    rw [hget key hkey]
  · simp only [same_iff_agrees]
    exact ⟨Agrees.refl, Agrees.symm, Agrees.trans⟩

/-- One map read backwards, and two others with as many keys that share only one
of them with it. -/
theorem same_decides_agreement_reversed :
    Agrees (ofList [("a", 1), ("b", 2)] : FiniteMap String Int64)
        (ofList [("b", 2), ("a", 1)]) ∧
      ¬ Agrees (ofList [("c", 2), ("a", 1)] : FiniteMap String Int64)
        (ofList [("a", 1), ("b", 2)]) ∧
      (ofList [("a", 1), ("b", 2)] : FiniteMap String Int64).same
          (ofList [("a", 1), ("c", 2)]) =
        (ofList [("a", 1), ("b", 2)] : FiniteMap String Int64).same
          (ofList [("d", 5), ("a", 1)]) := by
  obtain ⟨hagrees, hlooked, hequivalence⟩ :=
    same_decides_agreement String Int64
  have hbackwards : [("b", 2), ("a", 1)].Perm
      (ofList [("a", (1 : Int64)), ("b", 2)]).entries := by decide
  refine ⟨?_, ?_, ?_⟩
  · exact (hagrees _ _ _ hbackwards).mp rfl
  · intro hothers
    have hsame := (hagrees _ _ _ (List.Perm.refl _)).mpr hothers
    exact Bool.false_ne_true (hequivalence.symm hsame)
  · apply hlooked
    · decide
    · decide

end BrainfuckFront.FiniteMap
