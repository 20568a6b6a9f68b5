import Mathlib

/-!
# Levels

A reader of a list keeps a level and moves it up or down by the weight of each
element.  The bracket scan and both searches for the partner of a loop ask when
such a level first drops to zero.  This file states that question once, for any
weights, so that commands and runs of commands are only two instances of it.
-/

namespace BrainfuckFront.Level

variable {A : Type*}

/-- How far all of `values` together move the level. -/
def change (weight : A → ℤ) (values : List A) : ℤ := (values.map weight).sum

@[simp]
theorem change_nil (weight : A → ℤ) : change weight [] = 0 := rfl

@[simp]
theorem change_cons (weight : A → ℤ) (value : A) (values : List A) :
    change weight (value :: values) = weight value + change weight values := by
  simp [change]

@[simp]
theorem change_append (weight : A → ℤ) (left right : List A) :
    change weight (left ++ right) =
      change weight left + change weight right := by
  simp [change]

@[simp]
theorem change_replicate (weight : A → ℤ) (count : ℕ) (value : A) :
    change weight (List.replicate count value) = count * weight value := by
  simp [change]

@[simp]
theorem change_reverse (weight : A → ℤ) (values : List A) :
    change weight values.reverse = change weight values := by
  simp [change, List.sum_reverse]

theorem change_neg (weight : A → ℤ) (values : List A) :
    change (fun value => -weight value) values = -change weight values := by
  induction values with
  | nil => rfl
  | cons value values ih =>
      rw [change_cons, change_cons, ih]
      ring

/-- Starting from `level`, no initial part of `values` drops to zero. -/
def StaysPositive (weight : A → ℤ) (level : ℤ) (values : List A) : Prop :=
  ∀ count, 0 < level + change weight (values.take count)

variable {weight : A → ℤ} {level : ℤ} {value : A} {values left right : List A}

@[simp]
theorem staysPositive_nil : StaysPositive weight level [] ↔ 0 < level := by
  simp [StaysPositive]

@[simp]
theorem staysPositive_cons :
    StaysPositive weight level (value :: values) ↔
      0 < level ∧ StaysPositive weight (level + weight value) values := by
  constructor
  · intro hpositive
    refine ⟨by simpa using hpositive 0, fun count => ?_⟩
    have hnext := hpositive (count + 1)
    rw [List.take_succ_cons, change_cons] at hnext
    omega
  · rintro ⟨hlevel, hpositive⟩ count
    cases count with
    | zero => simpa using hlevel
    | succ count =>
        have hnext := hpositive count
        rw [List.take_succ_cons, change_cons]
        omega

theorem staysPositive_cons_iff (hlevel : 0 < level) :
    StaysPositive weight level (value :: values) ↔
      StaysPositive weight (level + weight value) values := by
  rw [staysPositive_cons, and_iff_right hlevel]

theorem StaysPositive.start_pos (hpositive : StaysPositive weight level values) :
    0 < level := by
  simpa using hpositive 0

theorem StaysPositive.end_pos (hpositive : StaysPositive weight level values) :
    0 < level + change weight values := by
  simpa using hpositive values.length

theorem StaysPositive.mono {higher : ℤ}
    (hpositive : StaysPositive weight level values) (hle : level ≤ higher) :
    StaysPositive weight higher values := by
  intro count
  linarith [hpositive count]

@[simp]
theorem staysPositive_append :
    StaysPositive weight level (left ++ right) ↔
      StaysPositive weight level left ∧
        StaysPositive weight (level + change weight left) right := by
  induction left generalizing level with
  | nil =>
      simp only [List.nil_append, staysPositive_nil, change_nil, add_zero]
      exact ⟨fun hright => ⟨hright.start_pos, hright⟩, And.right⟩
  | cons value left ih =>
      rw [List.cons_append, staysPositive_cons, staysPositive_cons, ih,
        change_cons, add_assoc, and_assoc]

/-- Along equal elements the level moves one way, so only its ends matter. -/
theorem staysPositive_replicate {count : ℕ} :
    StaysPositive weight level (List.replicate count value) ↔
      0 < level ∧ 0 < level + count * weight value := by
  induction count generalizing level with
  | zero => simp
  | succ count ih =>
      rw [List.replicate_succ, staysPositive_cons, ih]
      constructor
      · rintro ⟨hlevel, -, hend⟩
        refine ⟨hlevel, ?_⟩
        push_cast
        linarith
      · rintro ⟨hlevel, hend⟩
        push_cast at hend
        have hnext : 0 < level + weight value := by
          by_cases hweight : 0 ≤ weight value
          · linarith
          · have hrest : (count : ℤ) * weight value ≤ 0 :=
              mul_nonpos_of_nonneg_of_nonpos (by positivity) (by linarith)
            linarith
        exact ⟨hlevel, hnext, by linarith⟩

/-- Read from the right with opposite weights, the level takes the same values
as from the left, when it starts where the other reading ends. -/
theorem staysPositive_reverse_neg :
    StaysPositive (fun value => -weight value) level values.reverse ↔
      StaysPositive weight (level - change weight values) values := by
  induction values generalizing level with
  | nil => simp
  | cons value values ih =>
      rw [List.reverse_cons, staysPositive_append, ih, staysPositive_cons,
        staysPositive_cons, staysPositive_nil, change_neg, change_reverse,
        change_cons]
      have hstart : level - (weight value + change weight values) +
          weight value = level - change weight values := by ring
      have hend : level + -change weight values + -weight value =
          level - (weight value + change weight values) := by ring
      rw [hstart, hend]
      constructor
      · rintro ⟨hpositive, -, hlevel⟩
        exact ⟨hlevel, hpositive⟩
      · rintro ⟨hlevel, hpositive⟩
        exact ⟨hpositive, by linarith [hpositive.start_pos], hlevel⟩

/-- The position of the first element at which the level is zero or less. -/
def firstDrop (weight : A → ℤ) (level : ℤ) : List A → Option ℕ
  | [] => none
  | value :: values =>
      if level + weight value ≤ 0 then some 0
      else (firstDrop weight (level + weight value) values).map (· + 1)

theorem firstDrop_eq_none_iff (hlevel : 0 < level) :
    firstDrop weight level values = none ↔
      StaysPositive weight level values := by
  induction values generalizing level with
  | nil => simpa [firstDrop] using hlevel
  | cons value values ih =>
      rw [firstDrop, staysPositive_cons]
      by_cases hdrop : level + weight value ≤ 0
      · rw [if_pos hdrop]
        refine iff_of_false (by simp) ?_
        rintro ⟨-, hpositive⟩
        linarith [hpositive.start_pos]
      · rw [if_neg hdrop, Option.map_eq_none_iff, ih (by linarith)]
        exact ⟨fun hpositive => ⟨hlevel, hpositive⟩, And.right⟩

/-- The first drop splits the list: before it the level stays positive, and the
element there brings it down. -/
theorem firstDrop_eq_some_iff (hlevel : 0 < level) {position : ℕ} :
    firstDrop weight level values = some position ↔
      ∃ inner value outer, values = inner ++ value :: outer ∧
        inner.length = position ∧ StaysPositive weight level inner ∧
        level + change weight inner + weight value ≤ 0 := by
  induction values generalizing level position with
  | nil => simp [firstDrop]
  | cons head values ih =>
      rw [firstDrop]
      by_cases hdrop : level + weight head ≤ 0
      · rw [if_pos hdrop, Option.some.injEq]
        constructor
        · rintro rfl
          exact ⟨[], head, values, rfl, rfl, by simpa using hlevel,
            by simpa using hdrop⟩
        · rintro ⟨inner, value, outer, hsplit, rfl, hpositive, -⟩
          cases inner with
          | nil => rfl
          | cons first inner =>
              rw [List.cons_append, List.cons.injEq] at hsplit
              obtain ⟨rfl, -⟩ := hsplit
              have hnext := (staysPositive_cons.mp hpositive).2.start_pos
              linarith
      · rw [if_neg hdrop, Option.map_eq_some_iff]
        constructor
        · rintro ⟨position, hfound, rfl⟩
          obtain ⟨inner, value, outer, rfl, rfl, hpositive, hend⟩ :=
            (ih (by linarith)).mp hfound
          refine ⟨head :: inner, value, outer, rfl, rfl,
            staysPositive_cons.mpr ⟨hlevel, hpositive⟩, ?_⟩
          rw [change_cons]
          linarith
        · rintro ⟨inner, value, outer, hsplit, rfl, hpositive, hend⟩
          cases inner with
          | nil =>
              rw [List.nil_append, List.cons.injEq] at hsplit
              obtain ⟨rfl, -⟩ := hsplit
              simp only [change_nil, add_zero] at hend
              exact absurd hend hdrop
          | cons first inner =>
              rw [List.cons_append, List.cons.injEq] at hsplit
              obtain ⟨rfl, rfl⟩ := hsplit
              rw [change_cons] at hend
              exact ⟨inner.length, (ih (by linarith)).mpr
                ⟨inner, value, outer, rfl, rfl,
                  (staysPositive_cons.mp hpositive).2, by linarith⟩, rfl⟩

/-- A level that ends at zero or below has dropped somewhere. -/
theorem exists_firstDrop (hlevel : 0 < level)
    (hend : level + change weight values ≤ 0) :
    ∃ position, firstDrop weight level values = some position := by
  cases hfound : firstDrop weight level values with
  | none =>
      have hpositive := ((firstDrop_eq_none_iff hlevel).mp hfound).end_pos
      linarith
  | some position => exact ⟨position, rfl⟩

end BrainfuckFront.Level
