import Mathlib
import BrainfuckFront.Proofs.Matching

/-!
# The ranges of loops

The start of a loop names its end by its jump, and the end its start.  The two
are found by different searches, and a run of brackets has one jump for all the
loops that it opens or closes.  Still no two ranges cross, and where the searches
disagree they do so in one direction only: coming back from the other side of a
loop leads to the same run or to a later one.  Between runs of a single bracket
the two directions are inverse to each other.

Everything is read off the single brackets, whose partners are unique and never
cross.
-/

namespace BrainfuckFront

open Brackets (Partners)

namespace Program

/-- Where the instructions of one kind stand. -/
def places (program : Program) (kind : Kind) : Set ℕ :=
  {position | ∃ instruction,
    program[position]? = some instruction ∧ instruction.kind = kind}

/-- The jump of the instruction at `position`, `0` where there is none. -/
def jumpAt (program : Program) (position : ℕ) : ℤ :=
  (program[position]?).elim 0 fun instruction => instruction.jump.toInt

/-- The end of the loop that starts at `start`, just after where it jumps. -/
def loopEndOf (program : Program) (start : ℕ) : ℕ :=
  (program.jumpAt start + 1).toNat

/-- The start of the loop that ends at `finish`, just before where it jumps. -/
def loopStartOf (program : Program) (finish : ℕ) : ℕ :=
  (program.jumpAt finish - 1).toNat

variable {program : Program} {kind kind' : Kind}
variable {position position' start finish place : ℕ}

theorem jumpAt_eq {instruction : Instruction}
    (hget : program[position]? = some instruction) :
    program.jumpAt position = instruction.jump.toInt := by
  rw [jumpAt, hget, Option.elim_some]

theorem ne_of_mem_places (hmem : position ∈ program.places kind)
    (hmem' : position' ∈ program.places kind') (hkind : kind ≠ kind') :
    position ≠ position' := by
  rintro rfl
  obtain ⟨instruction, hget, rfl⟩ := hmem
  obtain ⟨instruction', hget', rfl⟩ := hmem'
  rw [hget, Option.some.injEq] at hget'
  exact hkind (congrArg Instruction.kind hget')

theorem Encoded.holds_offset (hencoded : Encoded program)
    (hmem : position ∈ program.places kind) :
    program.Holds position (program.offset position) := by
  obtain ⟨instruction, hget, -⟩ := hmem
  exact Program.holds_offset hget
    (hencoded.one_le_times instruction (List.mem_of_getElem? hget))

theorem Holds.mem_places {command : Command}
    (hholds : program.Holds position place) (hencoded : Encoded program)
    (hplace : program.commands[place]? = some command) :
    position ∈ program.places (.of command) := by
  obtain ⟨instruction, command', hget, hkind, hplace', -⟩ :=
    hholds.exists_kind hencoded.isCommand
  rw [hplace', Option.some.injEq] at hplace
  exact ⟨instruction, hget, hplace ▸ hkind⟩

/-- In a run of one command every command is the first. -/
theorem Holds.eq_offset {instruction : Instruction}
    (hholds : program.Holds position place) (hencoded : Encoded program)
    (hget : program[position]? = some instruction)
    (htimes : instruction.times = 1) : place = program.offset position := by
  obtain ⟨instruction', -, hget', -, -, hsingle⟩ :=
    hholds.exists_kind hencoded.isCommand
  rw [hget, Option.some.injEq] at hget'
  exact hsingle (hget' ▸ htimes)

namespace Matched

theorem exists_closing (hmatched : Matched program)
    (hstart : start ∈ program.places .loopStart) :
    ∃ closing, Partners program.commands (program.offset start) closing ∧
      program.Holds (program.loopEndOf start) closing ∧
      (program.loopEndOf start : ℤ) = program.jumpAt start + 1 := by
  obtain ⟨instruction, hget, hkind⟩ := hstart
  obtain ⟨closing, run, hpartners, hholds, hrun⟩ :=
    (hmatched start instruction hget).start hkind
  rw [loopEndOf, jumpAt_eq hget, hrun, Int.toNat_natCast]
  exact ⟨closing, hpartners, hholds, rfl⟩

theorem exists_opening (hmatched : Matched program)
    (hfinish : finish ∈ program.places .loopEnd) :
    ∃ opening, Partners program.commands opening (program.offset finish) ∧
      program.Holds (program.loopStartOf finish) opening ∧
      (program.loopStartOf finish : ℤ) = program.jumpAt finish - 1 := by
  obtain ⟨instruction, hget, hkind⟩ := hfinish
  obtain ⟨opening, run, hpartners, hholds, hrun⟩ :=
    (hmatched finish instruction hget).finish hkind
  rw [loopStartOf, jumpAt_eq hget, hrun, Int.toNat_natCast]
  exact ⟨opening, hpartners, hholds, rfl⟩

theorem loopEndOf_mem (hmatched : Matched program)
    (hencoded : Encoded program)
    (hstart : start ∈ program.places .loopStart) :
    program.loopEndOf start ∈ program.places .loopEnd := by
  obtain ⟨closing, hpartners, hholds, -⟩ := hmatched.exists_closing hstart
  exact hholds.mem_places hencoded hpartners.getElem?_closing

theorem loopStartOf_mem (hmatched : Matched program)
    (hencoded : Encoded program)
    (hfinish : finish ∈ program.places .loopEnd) :
    program.loopStartOf finish ∈ program.places .loopStart := by
  obtain ⟨opening, hpartners, hholds, -⟩ := hmatched.exists_opening hfinish
  exact hholds.mem_places hencoded hpartners.getElem?_opening

theorem lt_loopEndOf (hmatched : Matched program)
    (hencoded : Encoded program)
    (hstart : start ∈ program.places .loopStart) :
    start < program.loopEndOf start := by
  obtain ⟨closing, hpartners, hholds, -⟩ := hmatched.exists_closing hstart
  have hle := (hencoded.holds_offset hstart).run_le_run hholds
    hpartners.opening_lt.le
  have hne := ne_of_mem_places hstart
    (hmatched.loopEndOf_mem hencoded hstart) (by decide)
  exact lt_of_le_of_ne hle hne

/-- Of two loops, the one that starts later lies behind the other one or ends
inside it. -/
theorem loopEndOf_lt_or_le (hmatched : Matched program)
    (hencoded : Encoded program)
    (hstart : start ∈ program.places .loopStart)
    (hstart' : position ∈ program.places .loopStart)
    (hlt : start < position) :
    program.loopEndOf start < position ∨
      program.loopEndOf position ≤ program.loopEndOf start := by
  rw [or_iff_not_imp_left, not_lt]
  intro hle
  have hinside : position < program.loopEndOf start :=
    lt_of_le_of_ne hle (ne_of_mem_places hstart'
      (hmatched.loopEndOf_mem hencoded hstart) (by decide))
  obtain ⟨closing, hpartners, hholds, -⟩ := hmatched.exists_closing hstart
  obtain ⟨closing', hpartners', hholds', -⟩ :=
    hmatched.exists_closing hstart'
  have hfirst := hencoded.holds_offset hstart
  have hsecond := hencoded.holds_offset hstart'
  have hclosing : closing' < closing :=
    hpartners.closing_lt_closing hpartners'
      (hfirst.place_lt_place hsecond hlt)
      (hsecond.place_lt_place hholds hinside)
  exact hholds'.run_le_run hholds hclosing.le

/-- Of two loops, the one that ends later lies behind the other one or starts no
later. -/
theorem lt_or_loopStartOf_le (hmatched : Matched program)
    (hencoded : Encoded program)
    (hfinish : finish ∈ program.places .loopEnd)
    (hfinish' : position ∈ program.places .loopEnd)
    (hlt : finish < position) :
    finish < program.loopStartOf position ∨
      program.loopStartOf position ≤ program.loopStartOf finish := by
  rw [or_iff_not_imp_left, not_lt]
  intro hle
  have hbefore : program.loopStartOf position < finish :=
    lt_of_le_of_ne hle (ne_of_mem_places
      (hmatched.loopStartOf_mem hencoded hfinish') hfinish (by decide))
  obtain ⟨opening, hpartners, hholds, -⟩ := hmatched.exists_opening hfinish
  obtain ⟨opening', hpartners', hholds', -⟩ :=
    hmatched.exists_opening hfinish'
  have hfirst := hencoded.holds_offset hfinish
  have hsecond := hencoded.holds_offset hfinish'
  apply hholds'.run_le_run hholds
  by_contra hcross
  -- otherwise the later loop would start inside the earlier one
  have hclosing : program.offset position < program.offset finish :=
    hpartners.closing_lt_closing hpartners' (not_le.mp hcross)
      (hholds'.place_lt_place hfirst hbefore)
  exact hclosing.not_gt (hfirst.place_lt_place hsecond hlt)

/-- Going to the end of a loop and back leads to no earlier run. -/
theorem le_loopStartOf_loopEndOf (hmatched : Matched program)
    (hencoded : Encoded program)
    (hstart : start ∈ program.places .loopStart) :
    start ≤ program.loopStartOf (program.loopEndOf start) := by
  have hfinish := hmatched.loopEndOf_mem hencoded hstart
  have hlt := hmatched.lt_loopEndOf hencoded hstart
  obtain ⟨closing, hpartners, hholds, -⟩ := hmatched.exists_closing hstart
  obtain ⟨opening, hpartners', hholds', -⟩ := hmatched.exists_opening hfinish
  have hfirst := hencoded.holds_offset hstart
  have hsecond := hencoded.holds_offset hfinish
  apply hfirst.run_le_run hholds'
  by_contra hearlier
  -- the loop from `start` would have to end before the run that closes it
  have hclosing : closing < program.offset (program.loopEndOf start) :=
    hpartners'.closing_lt_closing hpartners (not_le.mp hearlier)
      (hfirst.place_lt_place hsecond hlt)
  exact hclosing.not_ge hholds.1

/-- Going to the start of a loop and back leads to no earlier run. -/
theorem le_loopEndOf_loopStartOf (hmatched : Matched program)
    (hencoded : Encoded program)
    (hfinish : finish ∈ program.places .loopEnd) :
    finish ≤ program.loopEndOf (program.loopStartOf finish) := by
  have hstart := hmatched.loopStartOf_mem hencoded hfinish
  have hlt := hmatched.lt_loopEndOf hencoded hstart
  obtain ⟨opening, hpartners, hholds, -⟩ := hmatched.exists_opening hfinish
  obtain ⟨closing, hpartners', hholds', -⟩ := hmatched.exists_closing hstart
  apply (hencoded.holds_offset hfinish).run_le_run hholds'
  obtain heq | hinside := hholds.1.eq_or_lt
  · rw [heq] at hpartners'
    exact (hpartners.closing_unique hpartners').le
  · -- a bracket that is not the first of its run opens an inner loop
    exact (hpartners'.closing_lt_closing hpartners hinside
      (hholds.place_lt_place hholds' hlt)).le

theorem loopStartOf_loopEndOf {instruction : Instruction}
    (hmatched : Matched program) (hencoded : Encoded program)
    (hstart : start ∈ program.places .loopStart)
    (hget : program[program.loopEndOf start]? = some instruction)
    (htimes : instruction.times = 1) :
    program.loopStartOf (program.loopEndOf start) = start := by
  have hfinish := hmatched.loopEndOf_mem hencoded hstart
  obtain ⟨closing, hpartners, hholds, -⟩ := hmatched.exists_closing hstart
  obtain ⟨opening, hpartners', hholds', -⟩ := hmatched.exists_opening hfinish
  rw [← hholds.eq_offset hencoded hget htimes] at hpartners'
  rw [hpartners'.opening_unique hpartners] at hholds'
  exact hholds'.run_unique (hencoded.holds_offset hstart)

theorem loopEndOf_loopStartOf {instruction : Instruction}
    (hmatched : Matched program) (hencoded : Encoded program)
    (hfinish : finish ∈ program.places .loopEnd)
    (hget : program[program.loopStartOf finish]? = some instruction)
    (htimes : instruction.times = 1) :
    program.loopEndOf (program.loopStartOf finish) = finish := by
  have hstart := hmatched.loopStartOf_mem hencoded hfinish
  obtain ⟨opening, hpartners, hholds, -⟩ := hmatched.exists_opening hfinish
  obtain ⟨closing, hpartners', hholds', -⟩ := hmatched.exists_closing hstart
  rw [← hholds.eq_offset hencoded hget htimes] at hpartners'
  rw [hpartners'.closing_unique hpartners] at hholds'
  exact hholds'.run_unique (hencoded.holds_offset hfinish)

end Matched

/-- How the loops of a program lie to each other, and how their two ends name
each other. -/
structure NestedLoops (program : Program) : Prop where
  /-- The end of a loop is the place just after where its start jumps. -/
  loopEndOf_eq : ∀ start ∈ program.places .loopStart,
    (program.loopEndOf start : ℤ) = program.jumpAt start + 1
  /-- The start of a loop is the place just before where its end jumps. -/
  loopStartOf_eq : ∀ finish ∈ program.places .loopEnd,
    (program.loopStartOf finish : ℤ) = program.jumpAt finish - 1
  ends : Set.MapsTo program.loopEndOf
    (program.places .loopStart) (program.places .loopEnd)
  starts : Set.MapsTo program.loopStartOf
    (program.places .loopEnd) (program.places .loopStart)
  ends_nest : ∀ start ∈ program.places .loopStart,
    ∀ later ∈ program.places .loopStart, start < later →
      program.loopEndOf start < later ∨
        program.loopEndOf later ≤ program.loopEndOf start
  starts_nest : ∀ finish ∈ program.places .loopEnd,
    ∀ later ∈ program.places .loopEnd, finish < later →
      finish < program.loopStartOf later ∨
        program.loopStartOf later ≤ program.loopStartOf finish
  le_loopStartOf_loopEndOf : ∀ start ∈ program.places .loopStart,
    start ≤ program.loopStartOf (program.loopEndOf start)
  le_loopEndOf_loopStartOf : ∀ finish ∈ program.places .loopEnd,
    finish ≤ program.loopEndOf (program.loopStartOf finish)
  /-- The way back is exact from an end that closes one loop. -/
  loopStartOf_loopEndOf : ∀ start ∈ program.places .loopStart,
    ∀ instruction, program[program.loopEndOf start]? = some instruction →
      instruction.times = 1 →
        program.loopStartOf (program.loopEndOf start) = start
  /-- The way back is exact from a start that opens one loop. -/
  loopEndOf_loopStartOf : ∀ finish ∈ program.places .loopEnd,
    ∀ instruction, program[program.loopStartOf finish]? = some instruction →
      instruction.times = 1 →
        program.loopEndOf (program.loopStartOf finish) = finish

theorem Matched.nestedLoops (hmatched : Matched program)
    (hencoded : Encoded program) : NestedLoops program where
  loopEndOf_eq _ hstart := by
    obtain ⟨-, -, -, heq⟩ := hmatched.exists_closing hstart
    exact heq
  loopStartOf_eq _ hfinish := by
    obtain ⟨-, -, -, heq⟩ := hmatched.exists_opening hfinish
    exact heq
  ends _ := hmatched.loopEndOf_mem hencoded
  starts _ := hmatched.loopStartOf_mem hencoded
  ends_nest _ hstart _ := hmatched.loopEndOf_lt_or_le hencoded hstart
  starts_nest _ hfinish _ := hmatched.lt_or_loopStartOf_le hencoded hfinish
  le_loopStartOf_loopEndOf _ := hmatched.le_loopStartOf_loopEndOf hencoded
  le_loopEndOf_loopStartOf _ := hmatched.le_loopEndOf_loopStartOf hencoded
  loopStartOf_loopEndOf _ hstart _ :=
    hmatched.loopStartOf_loopEndOf hencoded hstart
  loopEndOf_loopStartOf _ hfinish _ :=
    hmatched.loopEndOf_loopStartOf hencoded hfinish

/-- Where no two brackets share a run, the two directions are inverse. -/
theorem NestedLoops.invOn (hnested : NestedLoops program)
    (hsingle : ∀ instruction ∈ program, instruction.kind.isLoop = true →
      instruction.times = 1) :
    Set.InvOn program.loopStartOf program.loopEndOf
      (program.places .loopStart) (program.places .loopEnd) := by
  constructor
  · intro start hstart
    obtain ⟨instruction, hget, hkind⟩ := hnested.ends hstart
    apply hnested.loopStartOf_loopEndOf start hstart instruction hget
    exact hsingle instruction (List.mem_of_getElem? hget) (by rw [hkind]; rfl)
  · intro finish hfinish
    obtain ⟨instruction, hget, hkind⟩ := hnested.starts hfinish
    apply hnested.loopEndOf_loopStartOf finish hfinish instruction hget
    exact hsingle instruction (List.mem_of_getElem? hget) (by rw [hkind]; rfl)

/-- The loops of a parsed program are properly nested, and when no brackets were
merged their ends are in bijection. -/
theorem parse_nestedLoops {source : Bytes}
    (hsize : source.length < 2 ^ 63) (hparse : parse source = .ok program) :
    NestedLoops program ∧
      ((∀ instruction ∈ program, instruction.kind.isLoop = true →
          instruction.times = 1) →
        Set.InvOn program.loopStartOf program.loopEndOf
            (program.places .loopStart) (program.places .loopEnd) ∧
          Set.BijOn program.loopEndOf
            (program.places .loopStart) (program.places .loopEnd) ∧
          Set.BijOn program.loopStartOf
            (program.places .loopEnd) (program.places .loopStart)) := by
  have hparsed := parsed_of_parse hsize hparse
  have hencoded := encoded_of_parse hsize hparse
  have hnested := hparsed.matched.nestedLoops hencoded
  refine ⟨hnested, fun hsingle => ?_⟩
  have hinv := hnested.invOn hsingle
  exact ⟨hinv, hinv.bijOn hnested.ends hnested.starts,
    hinv.symm.bijOn hnested.starts hnested.ends⟩

theorem parse_nestedLoops_merged :
    (∃ program, parse [91, 91, 43, 93, 43, 93] = .ok program ∧
        NestedLoops program ∧
        program.loopEndOf (program.loopStartOf 4) = 4 ∧
        program.loopEndOf (program.loopStartOf 2) = 4) ∧
      ∃ program, parse [91, 43, 91, 43, 93, 43, 93] = .ok program ∧
        Set.BijOn program.loopEndOf
          (program.places .loopStart) (program.places .loopEnd) := by
  have hmerged : parse [91, 91, 43, 93, 43, 93] = .ok
      [⟨0, .loopStart, 2, 3⟩, ⟨1, .of .increment, 1, 0⟩,
        ⟨2, .loopEnd, 1, 1⟩, ⟨3, .of .increment, 1, 0⟩,
        ⟨4, .loopEnd, 1, 1⟩] := rfl
  have hsingle : parse [91, 43, 91, 43, 93, 43, 93] = .ok
      [⟨0, .loopStart, 1, 5⟩, ⟨1, .of .increment, 1, 0⟩,
        ⟨2, .loopStart, 1, 3⟩, ⟨3, .of .increment, 1, 0⟩,
        ⟨4, .loopEnd, 1, 3⟩, ⟨5, .of .increment, 1, 0⟩,
        ⟨6, .loopEnd, 1, 1⟩] := rfl
  exact ⟨⟨_, hmerged, (parse_nestedLoops (by decide) hmerged).1, rfl, rfl⟩,
    _, hsingle, ((parse_nestedLoops (by decide) hsingle).2 (by decide)).2.1⟩

end Program

end BrainfuckFront
