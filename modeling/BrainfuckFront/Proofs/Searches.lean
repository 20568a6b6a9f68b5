import Mathlib
import BrainfuckFront.Proofs.Runs

/-!
# The searches for the partner of a loop

Both searches keep a depth that stops at zero and look at it only where it can
get there.  Without overflow they find the first drop of the exact level: the
one to the right with the rises of the runs as weights, the one to the left with
the opposite weights.  Neither reads anything of an instruction but its run.
-/

namespace BrainfuckFront

open Level

namespace Instruction

/-- The run alone, without its place and its jump. -/
def bare (instruction : Instruction) : Instruction :=
  { instruction with index := 0, jump := 0 }

@[simp]
theorem count_bare (instruction : Instruction) :
    instruction.bare.count = instruction.count := rfl

@[simp]
theorem commands_bare (instruction : Instruction) :
    instruction.bare.commands = instruction.commands := rfl

variable {instruction : Instruction}

theorem rise_of_loopStart (hkind : instruction.kind = .loopStart) :
    instruction.rise = instruction.count := by
  rw [rise, hkind]

theorem rise_of_loopEnd (hkind : instruction.kind = .loopEnd) :
    instruction.rise = -instruction.count := by
  rw [rise, hkind]

theorem rise_of_not_loop (hstart : instruction.kind ≠ .loopStart)
    (hend : instruction.kind ≠ .loopEnd) : instruction.rise = 0 := by
  rw [rise]
  split
  · contradiction
  · contradiction
  · rfl

theorem kind_of_rise_neg (hrise : instruction.rise < 0) :
    instruction.kind = .loopEnd := by
  by_contra hend
  by_cases hstart : instruction.kind = .loopStart
  · rw [rise_of_loopStart hstart] at hrise
    omega
  · rw [rise_of_not_loop hstart hend] at hrise
    omega

theorem kind_of_rise_pos (hrise : 0 < instruction.rise) :
    instruction.kind = .loopStart := by
  by_contra hstart
  by_cases hend : instruction.kind = .loopEnd
  · rw [rise_of_loopEnd hend] at hrise
    omega
  · rw [rise_of_not_loop hstart hend] at hrise
    omega

end Instruction

namespace Program

/-- How many loops more the runs from `first` to just before `stop` open than
close. -/
def opened (program : Program) (first stop : ℕ) : ℤ :=
  change Instruction.rise ((program.take stop).drop first)

theorem opened_append (left middle right : Program) :
    opened (left ++ middle ++ right) left.length (left ++ middle).length =
      change Instruction.rise middle := by
  rw [opened, List.take_left, List.drop_left]

end Program

namespace Jumps

variable {depth : Int64} {position : ℕ} {instruction : Instruction}
variable {rest before : List Instruction}

theorem closing?_map_bare :
    closing? depth position (rest.map Instruction.bare) =
      closing? depth position rest := by
  induction rest generalizing depth position with
  | nil => rfl
  | cons instruction rest ih =>
      simp only [List.map_cons, closing?, Instruction.bare, ih]

theorem opening?_map_bare :
    opening? depth (before.map Instruction.bare) = opening? depth before := by
  induction before generalizing depth with
  | nil => rfl
  | cons instruction before ih =>
      simp only [List.map_cons, opening?, Instruction.bare, ih,
        List.length_map]

/-- What is found on the left stands there. -/
theorem lt_length_of_opening? {found : ℕ}
    (hfound : opening? depth before = some found) : found < before.length := by
  induction before generalizing depth with
  | nil => cases hfound
  | cons instruction before ih =>
      rw [List.length_cons]
      unfold opening? at hfound
      split at hfound
      · exact (ih hfound).trans (Nat.lt_succ_self _)
      · split at hfound
        · cases hfound
          exact Nat.lt_succ_self _
        · exact (ih hfound).trans (Nat.lt_succ_self _)
      · exact (ih hfound).trans (Nat.lt_succ_self _)

/-- The saturated depth reaches zero exactly where the exact one is no longer
positive. -/
theorem saturatingSub_eq_zero_iff (htimes : 1 ≤ instruction.times) :
    saturatingSub depth instruction.times = 0 ↔
      depth.toInt + -instruction.count ≤ 0 := by
  have hcount := Instruction.toInt_times htimes
  rw [Words.eq_zero_iff, Words.toInt_saturatingSub (by omega), hcount]
  omega

theorem toInt_saturatingSub_of_pos (htimes : 1 ≤ instruction.times)
    (hpos : 0 < depth.toInt + -instruction.count) :
    (saturatingSub depth instruction.times).toInt =
      depth.toInt + -instruction.count := by
  have hcount := Instruction.toInt_times htimes
  rw [Words.toInt_saturatingSub (by omega), hcount, max_eq_right (by omega)]
  omega

theorem toInt_add_times (hdepth : 0 < depth.toInt)
    (htimes : 1 ≤ instruction.times)
    (hbound : depth.toInt + instruction.count < 2 ^ 63) :
    (depth + instruction.times).toInt = depth.toInt + instruction.count := by
  have hcount := Instruction.toInt_times htimes
  rw [Words.toInt_add (by omega) (by omega) (by omega), hcount]

theorem map_succ_map_add (found : Option ℕ) (position : ℕ) :
    (found.map (· + 1)).map (position + ·) =
      found.map (position + 1 + ·) := by
  cases found with
  | none => rfl
  | some found =>
      simp only [Option.map_some, Option.some.injEq]
      omega

theorem map_succ_map_sub (found : Option ℕ) (length : ℕ) :
    (found.map (· + 1)).map (length + 1 - 1 - ·) =
      found.map (length - 1 - ·) := by
  cases found with
  | none => rfl
  | some found =>
      simp only [Option.map_some, Option.some.injEq]
      omega

theorem closing?_eq_firstDrop (hdepth : 0 < depth.toInt)
    (htimes : ∀ instruction ∈ rest, 1 ≤ instruction.times)
    (hbound : depth.toInt + Program.size rest < 2 ^ 63) :
    closing? depth position rest =
      (firstDrop Instruction.rise depth.toInt rest).map (position + ·) := by
  induction rest generalizing depth position with
  | nil => rfl
  | cons instruction rest ih =>
      obtain ⟨hfirst, hrest⟩ := List.forall_mem_cons.mp htimes
      rw [Program.size_cons] at hbound
      push_cast at hbound
      rw [closing?, firstDrop]
      split
      next hkind =>
          have hsum := toInt_add_times hdepth hfirst (by omega)
          rw [Instruction.rise_of_loopStart hkind, if_neg (by omega),
            ih (by omega) hrest (by omega), hsum, map_succ_map_add]
      next hkind =>
          rw [Instruction.rise_of_loopEnd hkind]
          by_cases hdrop : depth.toInt + -instruction.count ≤ 0
          · rw [if_pos ((saturatingSub_eq_zero_iff hfirst).mpr hdrop),
              if_pos hdrop]
            rfl
          · have hleft := toInt_saturatingSub_of_pos hfirst (not_le.mp hdrop)
            rw [if_neg (mt (saturatingSub_eq_zero_iff hfirst).mp hdrop),
              if_neg hdrop, ih (by omega) hrest (by omega), hleft,
              map_succ_map_add]
      next hstart hend =>
          rw [Instruction.rise_of_not_loop hstart hend, add_zero,
            if_neg (by omega), ih hdepth hrest (by omega), map_succ_map_add]

theorem opening?_eq_firstDrop (hdepth : 0 < depth.toInt)
    (htimes : ∀ instruction ∈ before, 1 ≤ instruction.times)
    (hbound : depth.toInt + Program.size before < 2 ^ 63) :
    opening? depth before =
      (firstDrop (fun instruction => -instruction.rise) depth.toInt
        before).map (before.length - 1 - ·) := by
  induction before generalizing depth with
  | nil => rfl
  | cons instruction before ih =>
      obtain ⟨hfirst, hbefore⟩ := List.forall_mem_cons.mp htimes
      rw [Program.size_cons] at hbound
      push_cast at hbound
      rw [opening?, firstDrop, List.length_cons]
      split
      next hkind =>
          have hsum := toInt_add_times hdepth hfirst (by omega)
          rw [Instruction.rise_of_loopEnd hkind, neg_neg, if_neg (by omega),
            ih (by omega) hbefore (by omega), hsum, map_succ_map_sub]
      next hkind =>
          rw [Instruction.rise_of_loopStart hkind]
          by_cases hdrop : depth.toInt + -instruction.count ≤ 0
          · rw [if_pos ((saturatingSub_eq_zero_iff hfirst).mpr hdrop),
              if_pos hdrop]
            rfl
          · have hleft := toInt_saturatingSub_of_pos hfirst (not_le.mp hdrop)
            rw [if_neg (mt (saturatingSub_eq_zero_iff hfirst).mp hdrop),
              if_neg hdrop, ih (by omega) hbefore (by omega), hleft,
              map_succ_map_sub]
      next hend hstart =>
          rw [Instruction.rise_of_not_loop hstart hend, neg_zero, add_zero,
            if_neg (by omega), ih hdepth hbefore (by omega),
            map_succ_map_sub]

/-- The search to the right passes over runs that leave some loop open, to the
end of the program or to the run that closes the last of them. -/
theorem closing?_cases {start : Instruction} (hstart : 1 ≤ start.times)
    (htimes : ∀ instruction ∈ rest, 1 ≤ instruction.times)
    (hbound : start.count + Program.size rest < 2 ^ 63) :
    (closing? start.times position rest = none ∧
        StaysPositive Instruction.rise start.count rest) ∨
      ∃ inner finish outer, rest = inner ++ finish :: outer ∧
        closing? start.times position rest =
          some (position + inner.length) ∧
        finish.kind = .loopEnd ∧
        StaysPositive Instruction.rise start.count inner ∧
        start.count + change Instruction.rise inner ≤ finish.count := by
  have hcount := Instruction.toInt_times hstart
  have hpos := Instruction.one_le_count hstart
  have hdepth : (0 : ℤ) < start.count := by omega
  rw [closing?_eq_firstDrop (by omega) htimes (by omega), hcount]
  cases hfound : firstDrop Instruction.rise start.count rest with
  | none => exact Or.inl ⟨rfl, (firstDrop_eq_none_iff hdepth).mp hfound⟩
  | some found =>
      obtain ⟨inner, finish, outer, rfl, rfl, hpositive, hdrop⟩ :=
        (firstDrop_eq_some_iff hdepth).mp hfound
      have hend := hpositive.end_pos
      have hfinish : finish.kind = .loopEnd :=
        Instruction.kind_of_rise_neg (by omega)
      rw [Instruction.rise_of_loopEnd hfinish] at hdrop
      exact Or.inr ⟨inner, finish, outer, rfl, rfl, hfinish, hpositive,
        by omega⟩

/-- The search to the left passes over runs that open no loop for the end of a
loop behind them, to the start of the program or to a run that does. -/
theorem opening?_cases {left : List Instruction}
    (htimes : ∀ instruction ∈ left, 1 ≤ instruction.times)
    (hbound : 1 + Program.size left < 2 ^ 63) :
    (opening? 1 left.reverse = none ∧
        StaysPositive Instruction.rise (1 - change Instruction.rise left)
          left) ∨
      ∃ outer start inner, left = outer ++ start :: inner ∧
        opening? 1 left.reverse = some outer.length ∧
        start.kind = .loopStart ∧
        StaysPositive Instruction.rise (1 - change Instruction.rise inner)
          inner ∧
        1 - change Instruction.rise inner ≤ start.count := by
  rw [opening?_eq_firstDrop (by decide) (by simpa using htimes)
    (by rw [Program.size_reverse, Int64.toInt_one]; omega), Int64.toInt_one]
  cases hfound : firstDrop (fun instruction => -instruction.rise) 1
      left.reverse with
  | none =>
      rw [firstDrop_eq_none_iff one_pos, staysPositive_reverse_neg] at hfound
      exact Or.inl ⟨rfl, hfound⟩
  | some found =>
      obtain ⟨inner, start, outer, hreverse, rfl, hpositive, hdrop⟩ :=
        (firstDrop_eq_some_iff one_pos).mp hfound
      obtain rfl : left = outer.reverse ++ start :: inner.reverse := by
        simpa using congrArg List.reverse hreverse
      have hend := hpositive.end_pos
      rw [change_neg] at hend hdrop
      have hstart : start.kind = .loopStart :=
        Instruction.kind_of_rise_pos (by omega)
      rw [Instruction.rise_of_loopStart hstart] at hdrop
      refine Or.inr ⟨outer.reverse, start, inner.reverse, rfl, ?_, hstart, ?_,
        ?_⟩
      · rw [Option.map_some, Option.some.injEq]
        simp only [List.length_reverse, List.length_append, List.length_cons]
        omega
      · rwa [← staysPositive_reverse_neg, List.reverse_reverse]
      · rw [change_reverse]
        omega

end Jumps

end BrainfuckFront
