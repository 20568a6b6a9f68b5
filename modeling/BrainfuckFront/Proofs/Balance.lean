import Mathlib
import BrainfuckFront.Proofs.Stops

/-!
# The searches as questions about a balance

The searches for the end and the start of a loop keep a depth in a word, stop it
at zero, and look at it only at instructions of one kind.  What they find is said
by the balance of opened and closed loops between two places, in unbounded
numbers and without looking at kinds: the search to the right finds the first
place by which everything opened since is closed, and the search to the left the
last place since which something is open.
-/

namespace BrainfuckFront

namespace Level

variable {A : Type*} {weight : A → ℤ} {level : ℤ} {value : A} {values : List A}
variable {place : ℕ}

/-- The places of the elements at which the level is zero or less. -/
def drops (weight : A → ℤ) (level : ℤ) (values : List A) : Set ℕ :=
  {place | place < values.length ∧
    level + change weight (values.take (place + 1)) ≤ 0}

@[simp]
theorem drops_nil : drops weight level [] = ∅ := by
  simp [drops]

@[simp]
theorem zero_mem_drops_cons :
    0 ∈ drops weight level (value :: values) ↔ level + weight value ≤ 0 := by
  simp [drops]

@[simp]
theorem succ_mem_drops_cons :
    place + 1 ∈ drops weight level (value :: values) ↔
      place ∈ drops weight (level + weight value) values := by
  simp [drops, add_assoc]

theorem drops_eq_empty_of_firstDrop
    (hnone : firstDrop weight level values = none) :
    drops weight level values = ∅ := by
  induction values generalizing level with
  | nil => exact drops_nil
  | cons value values ih =>
      rw [firstDrop] at hnone
      split at hnone
      next => cases hnone
      next hstays =>
          have hrest := ih (Option.map_eq_none_iff.mp hnone)
          rw [Set.eq_empty_iff_forall_notMem] at hrest ⊢
          rintro (_ | place)
          · simpa using hstays
          · simpa using hrest place

theorem isLeast_drops_of_firstDrop
    (hsome : firstDrop weight level values = some place) :
    IsLeast (drops weight level values) place := by
  induction values generalizing level place with
  | nil => cases hsome
  | cons value values ih =>
      rw [firstDrop] at hsome
      split at hsome
      next hdrop =>
          cases hsome
          exact ⟨zero_mem_drops_cons.mpr hdrop, fun _ _ => Nat.zero_le _⟩
      next hstays =>
          obtain ⟨place, hfound, rfl⟩ := Option.map_eq_some_iff.mp hsome
          obtain ⟨hmem, hleast⟩ := ih hfound
          refine ⟨succ_mem_drops_cons.mpr hmem, ?_⟩
          rintro (_ | other) hother
          · exact absurd (zero_mem_drops_cons.mp hother) hstays
          · exact Nat.succ_le_succ (hleast (succ_mem_drops_cons.mp hother))

end Level

open Level

namespace Program

/-- The places behind `start` by which no more loops have been opened than
closed, counted from `start` on. -/
def settledBy (program : Program) (start : ℕ) : Set ℕ :=
  {place | start < place ∧ place < program.length ∧
    program.opened start (place + 1) ≤ 0}

/-- The places before `finish` since which more loops have been opened than
closed. -/
def openSince (program : Program) (finish : ℕ) : Set ℕ :=
  {place | place < finish ∧ 1 ≤ program.opened place finish}

variable {left right : Program} {start : Instruction}

theorem settledBy_eq_image (hkind : start.kind = .loopStart) :
    settledBy (left ++ start :: right) left.length =
      (left.length + 1 + ·) '' drops Instruction.rise start.count right := by
  ext place
  constructor
  · rintro ⟨hbehind, hlength, hsettled⟩
    obtain ⟨count, rfl⟩ := Nat.exists_eq_add_of_lt hbehind
    have hplace : left.length + count + 1 = left.length + 1 + count := by omega
    rw [hplace, add_assoc (left.length + 1), opened_of_start,
      Instruction.rise_of_loopStart hkind] at hsettled
    rw [List.length_append, List.length_cons] at hlength
    exact ⟨count, ⟨by omega, hsettled⟩, hplace.symm⟩
  · rintro ⟨count, ⟨hlength, hdrop⟩, rfl⟩
    dsimp only
    refine ⟨by omega, ?_, ?_⟩
    · rw [List.length_append, List.length_cons]
      omega
    · rwa [add_assoc (left.length + 1), opened_of_start,
        Instruction.rise_of_loopStart hkind]

/-- Read from the right, the balance since a place is one less the level that
the place drops to. -/
theorem one_add_change_reverse_take (left : Program) {place : ℕ}
    (hplace : place < left.length) :
    1 + change (fun instruction => -instruction.rise)
        (left.reverse.take (left.length - 1 - place + 1)) =
      1 - change Instruction.rise (left.drop place) := by
  have hcount : left.length - (left.length - 1 - place + 1) = place := by omega
  rw [List.take_reverse, hcount, change_reverse, change_neg]
  ring

theorem openSince_eq_image :
    openSince (left ++ right) left.length =
      (left.length - 1 - ·) ''
        drops (fun instruction => -instruction.rise) 1 left.reverse := by
  ext place
  constructor
  · rintro ⟨hbefore, hopen⟩
    rw [opened_of_end] at hopen
    have hlevel := one_add_change_reverse_take left hbefore
    refine ⟨left.length - 1 - place, ⟨?_, by omega⟩, by dsimp only; omega⟩
    rw [List.length_reverse]
    omega
  · rintro ⟨count, ⟨hlength, hdrop⟩, rfl⟩
    rw [List.length_reverse] at hlength
    have hbefore : left.length - 1 - count < left.length := by omega
    have hlevel := one_add_change_reverse_take left hbefore
    have hcount : left.length - 1 - (left.length - 1 - count) = count := by
      omega
    rw [hcount] at hlevel
    dsimp only
    refine ⟨hbefore, ?_⟩
    rw [opened_of_end]
    omega

end Program

namespace Jumps

open Program (Bounded settledBy openSince)

variable {program : Program} {position : ℕ}

theorem findLoopEnd_cases (hbounded : Bounded program)
    (hstart : position ∈ program.places .loopStart) :
    (program.settledBy position = ∅ ∧
        findLoopEnd program (Int64.ofNat position) =
          .error (.noLoopEnd (Int64.ofNat position))) ∨
      ∃ (finish : ℕ) (found : Int64),
        IsLeast (program.settledBy position) finish ∧ found.toInt = finish ∧
        findLoopEnd program (Int64.ofNat position) = .ok found := by
  have hlength := hbounded.length_lt
  obtain ⟨start, hget, hkind⟩ := hstart
  obtain ⟨left, right, rfl, rfl⟩ := exists_split hget
  obtain ⟨htimes, hsize⟩ := hbounded
  simp only [List.forall_mem_append, List.forall_mem_cons] at htimes
  rw [Program.size_append, Program.size_cons] at hsize
  rw [List.length_append, List.length_cons] at hlength
  have hcount := Instruction.toInt_times htimes.2.1
  have hpos := Instruction.one_le_count htimes.2.1
  rw [findLoopEnd_length_left (by omega),
    closing?_eq_firstDrop (by omega) htimes.2.2 (by omega), hcount,
    Program.settledBy_eq_image hkind]
  cases hfound : firstDrop Instruction.rise start.count right with
  | none =>
      rw [drops_eq_empty_of_firstDrop hfound, Set.image_empty]
      exact Or.inl ⟨rfl, rfl⟩
  | some found =>
      have hleast := isLeast_drops_of_firstDrop hfound
      have hlt := hleast.1.1
      have hmono : Monotone (left.length + 1 + ·) :=
        fun _ _ hle => Nat.add_le_add_left hle _
      exact Or.inr ⟨_, _, hmono.map_isLeast hleast,
        Int64.toInt_ofNat_of_lt (by omega), rfl⟩

theorem findLoopStart_cases (hbounded : Bounded program)
    (hend : position ∈ program.places .loopEnd) :
    (program.openSince position = ∅ ∧
        findLoopStart program (Int64.ofNat position) =
          .error (.noLoopStart (Int64.ofNat position))) ∨
      ∃ (start : ℕ) (found : Int64),
        IsGreatest (program.openSince position) start ∧ found.toInt = start ∧
        findLoopStart program (Int64.ofNat position) = .ok found := by
  have hlength := hbounded.length_lt
  obtain ⟨finish, hget, -⟩ := hend
  obtain ⟨left, right, rfl, rfl⟩ := exists_split hget
  obtain ⟨htimes, hsize⟩ := hbounded
  simp only [List.forall_mem_append, List.forall_mem_cons] at htimes
  -- the end itself makes room for the one that the search starts with
  have hpos := Instruction.one_le_count htimes.2.1
  rw [Program.size_append, Program.size_cons] at hsize
  rw [List.length_append, List.length_cons] at hlength
  rw [findLoopStart_length_left (by omega),
    opening?_eq_firstDrop (by decide) (by simpa using htimes.1)
      (by rw [Program.size_reverse, Int64.toInt_one]; omega),
    Int64.toInt_one, Program.openSince_eq_image, List.length_reverse]
  cases hfound : firstDrop (fun instruction => -instruction.rise) 1
      left.reverse with
  | none =>
      rw [drops_eq_empty_of_firstDrop hfound, Set.image_empty]
      exact Or.inl ⟨rfl, rfl⟩
  | some found =>
      have hleast := isLeast_drops_of_firstDrop hfound
      have hanti : Antitone (left.length - 1 - ·) :=
        fun _ _ hle => Nat.sub_le_sub_left hle _
      exact Or.inr ⟨_, _, hanti.map_isLeast hleast,
        Int64.toInt_ofNat_of_lt (by omega), rfl⟩

/-- What a search answers when it looks for the best of some places. -/
theorem search_iff {places : Set ℕ} {best : ℕ → Prop}
    {result : Except Failure Int64} {failure : Failure}
    (hmem : ∀ {place}, best place → place ∈ places)
    (hunique : ∀ {place other}, best place → best other → place = other)
    (hcases : (places = ∅ ∧ result = .error failure) ∨
      ∃ (place : ℕ) (word : Int64), best place ∧ word.toInt = place ∧
        result = .ok word) :
    (∀ word : Int64, result = .ok word ↔
        ∃ place : ℕ, best place ∧ word.toInt = place) ∧
      (result = .error failure ↔ places = ∅) := by
  obtain ⟨hnone, rfl⟩ | ⟨place, word, hbest, hword, rfl⟩ := hcases
  · refine ⟨fun word => iff_of_false (by simp) ?_, iff_of_true rfl hnone⟩
    rintro ⟨place, hbest, -⟩
    exact absurd (hmem hbest) (hnone ▸ Set.notMem_empty place)
  · refine ⟨fun other => ?_, iff_of_false (by simp) ?_⟩
    · rw [Except.ok.injEq]
      constructor
      · rintro rfl
        exact ⟨place, hbest, hword⟩
      · rintro ⟨place', hbest', hother⟩
        rw [← Int64.toInt_inj, hword, hother, hunique hbest hbest']
    · rintro hnone
      exact absurd (hmem hbest) (hnone ▸ Set.notMem_empty place)

/-- On any program whose repeats are positive and fit a word together, the search
from the start of a loop finds the first place behind it by which the balance of
opened and closed loops is no longer positive, and the search from the end of a
loop finds the last place before it since which the balance is positive.  Each
fails exactly when there is no such place. -/
theorem find_eq_balance_search (hbounded : Bounded program) (position : ℕ) :
    (position ∈ program.places .loopStart →
        (∀ found : Int64,
          findLoopEnd program (Int64.ofNat position) = .ok found ↔
            ∃ finish : ℕ, IsLeast (program.settledBy position) finish ∧
              found.toInt = finish) ∧
        (findLoopEnd program (Int64.ofNat position) =
            .error (.noLoopEnd (Int64.ofNat position)) ↔
          program.settledBy position = ∅)) ∧
      (position ∈ program.places .loopEnd →
        (∀ found : Int64,
          findLoopStart program (Int64.ofNat position) = .ok found ↔
            ∃ start : ℕ, IsGreatest (program.openSince position) start ∧
              found.toInt = start) ∧
        (findLoopStart program (Int64.ofNat position) =
            .error (.noLoopStart (Int64.ofNat position)) ↔
          program.openSince position = ∅)) := by
  constructor
  · intro hstart
    exact search_iff And.left IsLeast.unique (findLoopEnd_cases hbounded hstart)
  · intro hend
    exact search_iff And.left IsGreatest.unique
      (findLoopStart_cases hbounded hend)

/-- The second end closes more loops than are open, so the last one has no
start. -/
theorem find_eq_balance_search_oversized :
    ∃ program : Program,
      program.map Instruction.rise = [2, 0, -1, 0, -3, 0, -1] ∧
        IsLeast (program.settledBy 0) 4 ∧
        IsGreatest (program.openSince 2) 0 ∧
        program.openSince 6 = ∅ := by
  have hbounded : Bounded [⟨0, .loopStart, 2, 0⟩, ⟨1, .of .increment, 1, 0⟩,
      ⟨2, .loopEnd, 1, 0⟩, ⟨3, .of .increment, 1, 0⟩, ⟨4, .loopEnd, 3, 0⟩,
      ⟨5, .of .increment, 1, 0⟩, ⟨6, .loopEnd, 1, 0⟩] :=
    ⟨by decide, by decide⟩
  obtain ⟨finish, hleast, hfinish⟩ :=
    (((find_eq_balance_search hbounded 0).1 ⟨_, rfl, rfl⟩).1 4).mp rfl
  obtain rfl : 4 = finish := Int.natCast_inj.mp hfinish
  obtain ⟨start, hgreatest, hstart⟩ :=
    (((find_eq_balance_search hbounded 2).2 ⟨_, rfl, rfl⟩).1 0).mp rfl
  obtain rfl : 0 = start := Int.natCast_inj.mp hstart
  have hnone := ((find_eq_balance_search hbounded 6).2
    ⟨_, rfl, rfl⟩).2.mp rfl
  exact ⟨_, by decide, hleast, hgreatest, hnone⟩

end Jumps

end BrainfuckFront
