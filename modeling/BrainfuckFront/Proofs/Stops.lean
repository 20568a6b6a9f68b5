import Mathlib
import BrainfuckFront.Proofs.LoopRanges
import BrainfuckFront.Proofs.Places

/-!
# Where resolving stops

Resolving takes any program, also one that was never encoded and whose brackets
do not match.  Then it gets stuck: at a start whose loops nothing closes, and
only if there is none, at an end that closes an empty loop or one that was never
opened.  It reports the first such place.  The jumps of the starts or ends before
it have been written, each next to the nearest run that balances the loop, and
nothing else has changed.
-/

namespace BrainfuckFront

open Level

namespace Program

/-- Every instruction repeats at least once, and all commands can be counted in
a word. -/
structure Bounded (program : Program) : Prop where
  one_le_times : ∀ instruction ∈ program, 1 ≤ instruction.times
  size_lt : size program < 2 ^ 63

/-- The ends of loops behind `start` at which no more loops are open than before
`start`. -/
def endsOf (program : Program) (start : ℕ) : Set ℕ :=
  {finish | start < finish ∧ finish ∈ program.places .loopEnd ∧
    program.opened start (finish + 1) ≤ 0}

/-- The starts of loops before `finish` since which more loops have been opened
than closed. -/
def startsOf (program : Program) (finish : ℕ) : Set ℕ :=
  {start | start < finish ∧ start ∈ program.places .loopStart ∧
    1 ≤ program.opened start finish}

/-- The starts of loops that nothing closes. -/
def unclosedStarts (program : Program) : Set ℕ :=
  {start | start ∈ program.places .loopStart ∧ program.endsOf start = ∅}

/-- The ends of loops that nothing opens. -/
def unopenedEnds (program : Program) : Set ℕ :=
  {finish | finish ∈ program.places .loopEnd ∧ program.startsOf finish = ∅}

/-- The ends of loops right behind a start. -/
def emptyEnds (program : Program) : Set ℕ :=
  {finish | finish ∈ program.places .loopEnd ∧
    ∃ start ∈ program.places .loopStart, start + 1 = finish}

/-- What is `left` of a program when the starts before `starts` and the ends
before `ends` have got their jumps. -/
structure Reached (program : Program) (starts ends : ℕ) (left : Program) :
    Prop where
  length_eq : left.length = program.length
  start : ∀ position instruction, program[position]? = some instruction →
    instruction.kind = .loopStart → position < starts →
      ∃ (finish : ℕ) (jump : Int64), IsLeast (program.endsOf position) finish ∧
        jump.toInt + 1 = finish ∧
        left[position]? = some { instruction with jump }
  finish : ∀ position instruction, program[position]? = some instruction →
    instruction.kind = .loopEnd → position < ends →
      ∃ (start : ℕ) (jump : Int64),
        IsGreatest (program.startsOf position) start ∧
        jump.toInt - 1 = start ∧
        left[position]? = some { instruction with jump }
  kept : ∀ position instruction, program[position]? = some instruction →
    (instruction.kind = .loopStart → starts ≤ position) →
      (instruction.kind = .loopEnd → ends ≤ position) →
        left[position]? = some instruction

variable {program left right inner outer : Program} {position : ℕ}
variable {start finish instruction : Instruction}

theorem Bounded.length_lt (hbounded : Bounded program) :
    program.length < 2 ^ 63 :=
  (length_le_size hbounded.one_le_times).trans_lt hbounded.size_lt

theorem opened_of_start (left right : Program) (start : Instruction)
    (count : ℕ) :
    opened (left ++ start :: right) left.length (left.length + 1 + count) =
      start.rise + change Instruction.rise (right.take count) := by
  rw [opened, add_assoc, List.take_length_add_append, List.drop_left,
    Nat.add_comm 1, List.take_succ_cons, change_cons]

theorem opened_of_end (left right : Program) (first : ℕ) :
    opened (left ++ right) first left.length =
      change Instruction.rise (left.drop first) := by
  rw [opened, List.take_left]

section Ends

variable (hkind : start.kind = .loopStart)
variable (hpositive : StaysPositive Instruction.rise start.count inner)

include hkind hpositive

/-- While some loop stays open, no end is reached. -/
theorem length_le_of_mem_endsOf {other : ℕ}
    (hother : other ∈ endsOf (left ++ start :: (inner ++ outer)) left.length) :
    left.length + 1 + inner.length ≤ other := by
  obtain ⟨hlt, -, hclosed⟩ := hother
  by_contra hle
  obtain ⟨count, rfl⟩ := Nat.exists_eq_add_of_lt hlt
  have hopen := hpositive (count + 1)
  have hplace : left.length + count + 1 + 1 =
      left.length + 1 + (count + 1) := by omega
  rw [hplace, opened_of_start, Instruction.rise_of_loopStart hkind,
    List.take_append_of_le_length (by omega)] at hclosed
  omega

theorem endsOf_eq_empty :
    endsOf (left ++ start :: inner) left.length = ∅ := by
  rw [Set.eq_empty_iff_forall_notMem]
  intro other hother
  obtain ⟨instruction, hget, -⟩ := hother.2.1
  have hlt := (List.getElem?_eq_some_iff.mp hget).1
  rw [← List.append_nil inner] at hother
  have hle := length_le_of_mem_endsOf hkind hpositive hother
  rw [List.length_append, List.length_cons] at hlt
  omega

theorem isLeast_endsOf (hfinish : finish.kind = .loopEnd)
    (hcount : start.count + change Instruction.rise inner ≤ finish.count) :
    IsLeast (endsOf (left ++ start :: (inner ++ finish :: outer)) left.length)
      (left.length + 1 + inner.length) := by
  refine ⟨⟨by omega, ⟨finish, ?_, hfinish⟩, ?_⟩, ?_⟩
  · rw [List.getElem?_append_right (by omega), add_assoc,
      Nat.add_sub_cancel_left, Nat.add_comm 1, List.getElem?_cons_succ]
    simp
  · rw [add_assoc (left.length + 1), opened_of_start,
      List.take_length_add_append, List.take_succ_cons, List.take_zero,
      change_append, change_cons, change_nil,
      Instruction.rise_of_loopStart hkind, Instruction.rise_of_loopEnd hfinish]
    omega
  · intro other hother
    exact length_le_of_mem_endsOf hkind hpositive hother

end Ends

section Starts

variable (hpositive : StaysPositive Instruction.rise
  (1 - change Instruction.rise inner) inner)

include hpositive

/-- Before a start that opens a loop for the end, no nearer one does. -/
theorem lt_length_of_mem_startsOf {other : ℕ}
    (hother : other ∈ startsOf (outer ++ inner ++ right)
      (outer ++ inner).length) : other < outer.length := by
  obtain ⟨-, -, hopen⟩ := hother
  by_contra hle
  obtain ⟨count, rfl⟩ := Nat.exists_eq_add_of_le (not_lt.mp hle)
  have hclosed := hpositive count
  have hsum := change_append Instruction.rise (inner.take count)
    (inner.drop count)
  rw [List.take_append_drop] at hsum
  rw [opened_of_end, List.drop_length_add_append] at hopen
  omega

theorem startsOf_eq_empty :
    startsOf (inner ++ right) inner.length = ∅ := by
  rw [Set.eq_empty_iff_forall_notMem]
  intro other hother
  have hlt : other < ([] : Program).length :=
    lt_length_of_mem_startsOf hpositive hother
  exact Nat.not_lt_zero other hlt

theorem isGreatest_startsOf (hstart : start.kind = .loopStart)
    (hcount : 1 - change Instruction.rise inner ≤ start.count) :
    IsGreatest (startsOf (outer ++ start :: inner ++ right)
      (outer ++ start :: inner).length) outer.length := by
  have hsplit : outer ++ start :: inner = outer ++ [start] ++ inner := by simp
  refine ⟨⟨by simp, ⟨start, by simp, hstart⟩, ?_⟩, ?_⟩
  · rw [opened_of_end, List.drop_left, change_cons,
      Instruction.rise_of_loopStart hstart]
    omega
  · intro other hother
    rw [hsplit] at hother
    have hlt := lt_length_of_mem_startsOf hpositive hother
    rw [List.length_append, List.length_singleton] at hlt
    omega

end Starts

/-- The start before an empty end opens a loop for it. -/
theorem Bounded.mem_startsOf (hbounded : Bounded program)
    (hempty : position ∈ program.emptyEnds) :
    position - 1 ∈ program.startsOf position := by
  obtain ⟨-, place, ⟨start, hget, hkind⟩, rfl⟩ := hempty
  have hcount := Instruction.one_le_count
    (hbounded.one_le_times start (List.mem_of_getElem? hget))
  refine ⟨by omega, ⟨start, hget, hkind⟩, ?_⟩
  obtain ⟨left, right, rfl, rfl⟩ := Jumps.exists_split hget
  have hopened := opened_of_start left right start 0
  rw [List.take_zero, change_nil, Instruction.rise_of_loopStart hkind]
    at hopened
  rw [Nat.add_sub_cancel, ← add_zero (left.length + 1), hopened]
  omega

end Program

namespace Jumps

open Program (Bounded Reached)

variable {program started left : Program} {position : ℕ}
variable {start finish : Instruction}

theorem targetAt_startTarget_cases (hbounded : Bounded program)
    (hget : program[position]? = some start)
    (hkind : start.kind = .loopStart) :
    (program.endsOf position = ∅ ∧ ∃ place : Int64,
        place.toInt = position ∧
        targetAt startTarget [] program position start =
          .error (.noLoopEnd place)) ∨
      ∃ (finish : ℕ) (jump : Int64), IsLeast (program.endsOf position) finish ∧
        jump.toInt + 1 = finish ∧
        targetAt startTarget [] program position start = .ok jump := by
  obtain ⟨left, right, rfl, rfl⟩ := exists_split hget
  have hlength := hbounded.length_lt
  obtain ⟨htimes, hsize⟩ := hbounded
  simp only [List.forall_mem_append, List.forall_mem_cons] at htimes
  rw [Program.size_append, Program.size_cons] at hsize
  rw [List.length_append, List.length_cons] at hlength
  rw [targetAt_append, startTarget, List.length_reverse]
  obtain ⟨hnone, hpositive⟩ |
    ⟨inner, finish, outer, rfl, hsome, hfinish, hpositive, hcount⟩ :=
      closing?_cases htimes.2.1 htimes.2.2 (by omega)
  · rw [hnone]
    exact Or.inl ⟨Program.endsOf_eq_empty hkind hpositive, _,
      Int64.toInt_ofNat_of_lt (by omega), rfl⟩
  · rw [hsome]
    refine Or.inr ⟨_, _,
      Program.isLeast_endsOf hkind hpositive hfinish hcount, ?_, rfl⟩
    rw [List.length_append, List.length_cons] at hlength
    rw [Words.toInt_ofNat_sub_one (by omega), sub_add_cancel]

/-- The report of an empty loop that ends at `position`. -/
structure ReportsEmptyLoop (program : Program) (position : ℕ)
    (error : ParseError) : Prop where
  fault_eq : error.fault = .infiniteLoop
  instruction_eq : error.instruction.toInt = position
  offset_eq : error.offset.toInt = program.offset position
  unexpected_eq : error.unexpected = false

theorem exists_reportsEmptyLoop {right : Program}
    (hbounded : Bounded (left ++ right)) :
    ∃ error, ReportsEmptyLoop (left ++ right) left.length error ∧
      emptyLoop left.reverse = .parse error := by
  have hlength := hbounded.length_lt
  obtain ⟨htimes, hsize⟩ := hbounded
  rw [List.forall_mem_append] at htimes
  rw [Program.size_append] at hsize
  rw [List.length_append] at hlength
  refine ⟨_, ⟨rfl, ?_, ?_, rfl⟩, rfl⟩
  · rw [List.length_reverse, Int64.toInt_ofNat_of_lt (by omega)]
  · rw [List.reverse_reverse, RunLength.total_eq_ofNat htimes.1,
      Int64.toInt_ofNat_of_lt (by omega), Program.offset_append_length]

theorem targetAt_endTarget_cases (hbounded : Bounded program)
    (hget : program[position]? = some finish)
    (hkind : finish.kind = .loopEnd) :
    (position ∈ program.emptyEnds ∧ ∃ error : ParseError,
        ReportsEmptyLoop program position error ∧
        targetAt endTarget [] program position finish =
          .error (.parse error)) ∨
      (position ∈ program.unopenedEnds ∧ ∃ place : Int64,
        place.toInt = position ∧
        targetAt endTarget [] program position finish =
          .error (.noLoopStart place)) ∨
      ∃ (start : ℕ) (jump : Int64),
        IsGreatest (program.startsOf position) start ∧
        start + 1 ≠ position ∧ jump.toInt - 1 = start ∧
        targetAt endTarget [] program position finish = .ok jump := by
  have hplace : position ∈ program.places .loopEnd := ⟨finish, hget, hkind⟩
  obtain ⟨left, right, rfl, rfl⟩ := exists_split hget
  have hlength := hbounded.length_lt
  obtain ⟨error, hreports, herror⟩ := exists_reportsEmptyLoop hbounded
  obtain ⟨htimes, hsize⟩ := hbounded
  simp only [List.forall_mem_append, List.forall_mem_cons] at htimes
  have hcount := Instruction.one_le_count htimes.2.1
  rw [Program.size_append, Program.size_cons] at hsize
  rw [List.length_append, List.length_cons] at hlength
  rw [targetAt_append, endTarget, List.length_reverse]
  obtain ⟨hnone, hpositive⟩ |
    ⟨outer, start, inner, rfl, hsome, hstart, hpositive, hopen⟩ :=
      opening?_cases htimes.1 (by omega)
  · rw [hnone]
    exact Or.inr (Or.inl ⟨⟨hplace, Program.startsOf_eq_empty hpositive⟩, _,
      Int64.toInt_ofNat_of_lt (by omega), rfl⟩)
  · rw [hsome]
    dsimp only
    by_cases hempty : (outer ++ start :: inner).length = outer.length + 1
    · rw [if_pos hempty, herror]
      exact Or.inl ⟨⟨hplace, outer.length, ⟨start, by simp, hstart⟩,
        hempty.symm⟩, error, hreports, rfl⟩
    · refine Or.inr (Or.inr ⟨_, _,
        Program.isGreatest_startsOf hpositive hstart hopen, Ne.symm hempty, ?_,
        if_neg hempty⟩)
      rw [List.length_append] at hlength
      rw [Words.toInt_ofNat_add_one (by omega), add_sub_cancel_right]

section Reports

variable {failure : Failure} (hbounded : Bounded program)

include hbounded

theorem failure_of_unclosedStart (hget : program[position]? = some start)
    (hkind : start.kind = .loopStart)
    (herror : targetAt startTarget [] program position start =
      .error failure) :
    ∃ place : Int64, place.toInt = position ∧ failure = .noLoopEnd place := by
  obtain ⟨-, place, hplace, herror'⟩ | ⟨_, _, -, -, hok⟩ :=
    targetAt_startTarget_cases hbounded hget hkind
  · rw [herror', Except.error.injEq] at herror
    exact ⟨place, hplace, herror.symm⟩
  · rw [hok] at herror
    cases herror

variable (hget : program[position]? = some finish)
variable (hkind : finish.kind = .loopEnd)
variable (herror : targetAt endTarget [] program position finish =
  .error failure)

include hget hkind herror

theorem failure_of_emptyEnd (hempty : position ∈ program.emptyEnds) :
    ∃ error, ReportsEmptyLoop program position error ∧
      failure = .parse error := by
  obtain ⟨-, error, hreports, herror'⟩ | ⟨⟨-, hnone⟩, -⟩ | ⟨_, _, -, -, -, hok⟩ :=
    targetAt_endTarget_cases hbounded hget hkind
  · rw [herror', Except.error.injEq] at herror
    exact ⟨error, hreports, herror.symm⟩
  · have hstart := hbounded.mem_startsOf hempty
    rw [hnone] at hstart
    exact absurd hstart (Set.notMem_empty _)
  · rw [hok] at herror
    cases herror

theorem failure_of_unopenedEnd (hunopened : position ∈ program.unopenedEnds) :
    ∃ place : Int64, place.toInt = position ∧
      failure = .noLoopStart place := by
  obtain ⟨hempty, -⟩ | ⟨-, place, hplace, herror'⟩ | ⟨_, _, -, -, -, hok⟩ :=
    targetAt_endTarget_cases hbounded hget hkind
  · have hstart := hbounded.mem_startsOf hempty
    rw [hunopened.2] at hstart
    exact absurd hstart (Set.notMem_empty _)
  · rw [herror', Except.error.injEq] at herror
    exact ⟨place, hplace, herror.symm⟩
  · rw [hok] at herror
    cases herror

end Reports

/-- The positions at which a pass would stop. -/
def stuckAt (kind : Kind) (target : Target) (program : Program) : Set ℕ :=
  {position | ∃ instruction failure,
    program[position]? = some instruction ∧ instruction.kind = kind ∧
      targetAt target [] program position instruction = .error failure}

/-- A pass stops at the first position at which it could. -/
theorem pass_stops (kind : Kind) (target : Target) (program : Program) :
    ∃ stop, Settled kind target [] program stop
        (pass kind target [] program).instructions ∧
      (stuckAt kind target program = ∅ ∧ stop = program.length ∧
          (pass kind target [] program).failure = none ∨
        IsLeast (stuckAt kind target program) stop ∧
          ∃ stuck failure, program[stop]? = some stuck ∧ stuck.kind = kind ∧
            targetAt target [] program stop stuck = .error failure ∧
            (pass kind target [] program).failure = some failure) := by
  obtain ⟨stop, hsettled, hend⟩ := settled_pass kind target [] program
  have hbefore {position : ℕ} (hstuck : position ∈ stuckAt kind target program) :
      stop ≤ position := by
    obtain ⟨instruction, failure, hget, hkind, herror⟩ := hstuck
    by_contra hlt
    obtain ⟨jump, hok, -⟩ :=
      hsettled.written position instruction hget (not_le.mp hlt) hkind
    rw [herror] at hok
    cases hok
  refine ⟨stop, hsettled, ?_⟩
  obtain ⟨hnone, rfl⟩ | ⟨stuck, failure, hget, hkind, herror, hsome⟩ := hend
  · refine Or.inl ⟨?_, rfl, hnone⟩
    rw [Set.eq_empty_iff_forall_notMem]
    intro position hstuck
    have hle := hbefore hstuck
    obtain ⟨instruction, failure, hget, -⟩ := hstuck
    have hlt := (List.getElem?_eq_some_iff.mp hget).1
    omega
  · exact Or.inr ⟨⟨⟨stuck, failure, hget, hkind, herror⟩, fun _ => hbefore⟩,
      stuck, failure, hget, hkind, herror, hsome⟩

theorem stuckAt_startTarget (hbounded : Bounded program) :
    stuckAt .loopStart startTarget program = program.unclosedStarts := by
  ext position
  constructor
  · rintro ⟨start, failure, hget, hkind, herror⟩
    obtain ⟨hempty, -⟩ | ⟨_, _, -, -, hok⟩ :=
      targetAt_startTarget_cases hbounded hget hkind
    · exact ⟨⟨start, hget, hkind⟩, hempty⟩
    · rw [herror] at hok
      cases hok
  · rintro ⟨⟨start, hget, hkind⟩, hempty⟩
    obtain ⟨-, place, -, herror⟩ | ⟨finish, _, hleast, -⟩ :=
      targetAt_startTarget_cases hbounded hget hkind
    · exact ⟨start, _, hget, hkind, herror⟩
    · exact absurd hleast.1 (hempty ▸ Set.notMem_empty finish)

theorem stuckAt_endTarget (hbounded : Bounded program) :
    stuckAt .loopEnd endTarget program =
      program.emptyEnds ∪ program.unopenedEnds := by
  ext position
  constructor
  · rintro ⟨finish, failure, hget, hkind, herror⟩
    obtain ⟨hempty, -⟩ | ⟨hunopened, -⟩ | ⟨_, _, -, -, -, hok⟩ :=
      targetAt_endTarget_cases hbounded hget hkind
    · exact Or.inl hempty
    · exact Or.inr hunopened
    · rw [herror] at hok
      cases hok
  · intro hstuck
    obtain ⟨finish, hget, hkind⟩ : position ∈ program.places .loopEnd :=
      hstuck.elim And.left And.left
    obtain ⟨-, _, -, herror⟩ | ⟨-, _, -, herror⟩ |
      ⟨start, _, hgreatest, hapart, -⟩ :=
        targetAt_endTarget_cases hbounded hget hkind
    · exact ⟨finish, _, hget, hkind, herror⟩
    · exact ⟨finish, _, hget, hkind, herror⟩
    · -- the nearest start is neither missing nor right before the end
      obtain hempty | ⟨-, hnone⟩ := hstuck
      · have hle := hgreatest.2 (hbounded.mem_startsOf hempty)
        have hlt := hgreatest.1.1
        omega
      · exact absurd hgreatest.1 (hnone ▸ Set.notMem_empty start)

section Passes

variable {starts ends : ℕ}
variable (hstarts : Settled .loopStart startTarget [] program starts started)

include hstarts

/-- The first pass leaves the ends of loops as they are. -/
theorem Settled.getElem?_loopEnd (hkind : finish.kind = .loopEnd) :
    started[position]? = some finish ↔ program[position]? = some finish := by
  have hne : finish.kind ≠ .loopStart := by
    rw [hkind]
    decide
  constructor
  · exact fun hget => hstarts.getElem?_of_kind_ne hget hne
  · exact fun hget => hstarts.kept position finish hget (Or.inr hne)

theorem Settled.targetAt_endTarget :
    targetAt endTarget [] started position finish =
      targetAt endTarget [] program position finish :=
  targetAt_endTarget_congr hstarts.map_bare position finish finish

theorem Settled.stuckAt_endTarget :
    stuckAt .loopEnd endTarget started =
      stuckAt .loopEnd endTarget program := by
  ext position
  constructor
  · rintro ⟨finish, failure, hget, hkind, herror⟩
    rw [hstarts.getElem?_loopEnd hkind] at hget
    rw [hstarts.targetAt_endTarget] at herror
    exact ⟨finish, failure, hget, hkind, herror⟩
  · rintro ⟨finish, failure, hget, hkind, herror⟩
    rw [← hstarts.getElem?_loopEnd hkind] at hget
    rw [← hstarts.targetAt_endTarget] at herror
    exact ⟨finish, failure, hget, hkind, herror⟩

theorem Settled.reached (hbounded : Bounded program)
    (hends : Settled .loopEnd endTarget [] started ends left) :
    Reached program starts ends left where
  length_eq := hends.length_eq.trans hstarts.length_eq
  start := by
    intro position start hget hkind hlt
    obtain ⟨jump, hok, hwritten⟩ :=
      hstarts.written position start hget hlt hkind
    obtain ⟨-, _, -, herror⟩ | ⟨finish, _, hleast, hjump, hok'⟩ :=
      targetAt_startTarget_cases hbounded hget hkind
    · rw [herror] at hok
      cases hok
    · rw [hok', Except.ok.injEq] at hok
      subst hok
      refine ⟨finish, _, hleast, hjump,
        hends.kept position _ hwritten (Or.inr ?_)⟩
      rw [hkind]
      decide
  finish := by
    intro position finish hget hkind hlt
    have hkept := (hstarts.getElem?_loopEnd hkind).mpr hget
    obtain ⟨jump, hok, hwritten⟩ :=
      hends.written position finish hkept hlt hkind
    rw [hstarts.targetAt_endTarget] at hok
    obtain ⟨-, _, -, herror⟩ | ⟨-, _, -, herror⟩ |
      ⟨start, _, hgreatest, -, hjump, hok'⟩ :=
        targetAt_endTarget_cases hbounded hget hkind
    · rw [herror] at hok
      cases hok
    · rw [herror] at hok
      cases hok
    · rw [hok', Except.ok.injEq] at hok
      subst hok
      exact ⟨start, _, hgreatest, hjump, hwritten⟩
  kept := by
    intro position instruction hget hstart hend
    exact hends.kept position instruction
      (hstarts.kept position instruction hget (or_not_of_imp hstart))
      (or_not_of_imp hend)

/-- The second pass stops at the first end that is empty or that nothing opens,
whatever the first pass has written. -/
theorem Settled.pass_ends (hbounded : Bounded program) :
    (program.emptyEnds ∪ program.unopenedEnds = ∅ ∧
        (pass .loopEnd endTarget [] started).failure = none ∧
        Reached program starts program.length
          (pass .loopEnd endTarget [] started).instructions) ∨
      ∃ stuck, IsLeast (program.emptyEnds ∪ program.unopenedEnds) stuck ∧
        (stuck ∈ program.emptyEnds → ∃ error,
          ReportsEmptyLoop program stuck error ∧
            (pass .loopEnd endTarget [] started).failure =
              some (.parse error)) ∧
        (stuck ∈ program.unopenedEnds → ∃ place : Int64,
          place.toInt = stuck ∧
            (pass .loopEnd endTarget [] started).failure =
              some (.noLoopStart place)) ∧
        Reached program starts stuck
          (pass .loopEnd endTarget [] started).instructions := by
  obtain ⟨stop, hends, hstop⟩ := pass_stops .loopEnd endTarget started
  have hreached := hstarts.reached hbounded hends
  rw [hstarts.stuckAt_endTarget, Jumps.stuckAt_endTarget hbounded,
    hstarts.length_eq] at hstop
  obtain ⟨hfree, rfl, hnone⟩ |
    ⟨hleast, finish, failure, hget, hkind, herror, hsome⟩ := hstop
  · exact Or.inl ⟨hfree, hnone, hreached⟩
  · rw [hstarts.getElem?_loopEnd hkind] at hget
    rw [hstarts.targetAt_endTarget] at herror
    refine Or.inr ⟨stop, hleast, fun hempty => ?_, fun hunopened => ?_,
      hreached⟩
    · obtain ⟨error, hreports, rfl⟩ :=
        failure_of_emptyEnd hbounded hget hkind herror hempty
      exact ⟨error, hreports, hsome⟩
    · obtain ⟨place, hplace, rfl⟩ :=
        failure_of_unopenedEnd hbounded hget hkind herror hunopened
      exact ⟨place, hplace, hsome⟩

end Passes

/-- Resolving a program whose loops need not match stops at the first start that
nothing closes; if there is none, it stops at the first end that is empty or that
nothing opens; and otherwise it succeeds.  What it has written by then, and that
nothing else has changed, is said by `Reached`. -/
theorem resolve_stops (hbounded : Bounded program) :
    (program.unclosedStarts.Nonempty →
        ∃ (stuck : ℕ) (place : Int64),
          IsLeast program.unclosedStarts stuck ∧ place.toInt = stuck ∧
            (resolve program).failure = some (.noLoopEnd place) ∧
            Reached program stuck 0 (resolve program).instructions) ∧
      (program.unclosedStarts = ∅ →
        (program.emptyEnds ∪ program.unopenedEnds).Nonempty →
          ∃ stuck, IsLeast (program.emptyEnds ∪ program.unopenedEnds) stuck ∧
            (stuck ∈ program.emptyEnds → ∃ error : ParseError,
              (resolve program).failure = some (.parse error) ∧
                error.fault = .infiniteLoop ∧
                error.instruction.toInt = stuck ∧
                error.offset.toInt = program.offset stuck ∧
                error.unexpected = false) ∧
            (stuck ∈ program.unopenedEnds → ∃ place : Int64,
              place.toInt = stuck ∧
                (resolve program).failure = some (.noLoopStart place)) ∧
            Reached program program.length stuck
              (resolve program).instructions) ∧
      (program.unclosedStarts = ∅ →
        program.emptyEnds ∪ program.unopenedEnds = ∅ →
          (resolve program).failure = none ∧
            Reached program program.length program.length
              (resolve program).instructions) := by
  obtain ⟨stop, hstarts, ⟨hclosed, rfl, hnone⟩ |
    ⟨hleast, start, failure, hget, hkind, herror, hsome⟩⟩ :=
      pass_stops .loopStart startTarget program
  · rw [stuckAt_startTarget hbounded] at hclosed
    rw [resolve_of_failure_eq_none hnone, hclosed]
    refine ⟨fun hnonempty => absurd rfl hnonempty.ne_empty, ?_, ?_⟩
    · intro _ hnonempty
      obtain ⟨hfree, -⟩ | ⟨stuck, hleast, hempty, hunopened, hreached⟩ :=
        hstarts.pass_ends hbounded
      · exact absurd hfree hnonempty.ne_empty
      · refine ⟨stuck, hleast, fun hmem => ?_, hunopened, hreached⟩
        obtain ⟨error, hreports, hsome⟩ := hempty hmem
        exact ⟨error, hsome, hreports.fault_eq, hreports.instruction_eq,
          hreports.offset_eq, hreports.unexpected_eq⟩
    · intro _ hfree
      obtain ⟨-, hnone, hreached⟩ | ⟨stuck, hleast, -⟩ :=
        hstarts.pass_ends hbounded
      · exact ⟨hnone, hreached⟩
      · exact absurd hfree hleast.nonempty.ne_empty
  · rw [stuckAt_startTarget hbounded] at hleast
    rw [resolve_of_failure_eq_some hsome]
    have hnonempty := hleast.nonempty.ne_empty
    refine ⟨fun _ => ?_, fun hclosed => absurd hclosed hnonempty,
      fun hclosed => absurd hclosed hnonempty⟩
    obtain ⟨place, hplace, rfl⟩ :=
      failure_of_unclosedStart hbounded hget hkind herror
    exact ⟨stop, place, hleast, hplace, hsome,
      hstarts.reached hbounded settled_zero⟩

/-- In the first program the second loop is never closed, and in the second one
two loops are closed at once where one is open. -/
theorem resolve_stops_unmatched :
    (∃ (program : Program) (stuck : ℕ) (place : Int64),
      IsLeast program.unclosedStarts stuck ∧ place.toInt = stuck ∧
        (resolve program).failure = some (.noLoopEnd place) ∧
        Reached program stuck 0 (resolve program).instructions) ∧
      ∃ (program : Program) (stuck : ℕ),
        program.unclosedStarts = ∅ ∧
          IsLeast (program.emptyEnds ∪ program.unopenedEnds) stuck ∧
          Reached program program.length stuck
            (resolve program).instructions := by
  constructor
  · have hunclosed : (Program.unclosedStarts [⟨0, .loopStart, 1, 7⟩,
        ⟨1, .of .increment, 1, 7⟩, ⟨2, .loopEnd, 1, 7⟩,
        ⟨3, .loopStart, 1, 7⟩]).Nonempty := by
      refine ⟨3, ⟨_, rfl, rfl⟩, ?_⟩
      rw [Set.eq_empty_iff_forall_notMem]
      rintro finish ⟨hlt, ⟨_, hget, -⟩, -⟩
      have hle : finish < 4 := (List.getElem?_eq_some_iff.mp hget).1
      omega
    obtain ⟨stuck, place, hstuck⟩ :=
      (resolve_stops ⟨by decide, by decide⟩).1 hunclosed
    exact ⟨_, stuck, place, hstuck⟩
  · have hclosed : Program.unclosedStarts [⟨0, .loopStart, 1, 7⟩,
        ⟨1, .of .increment, 1, 7⟩, ⟨2, .loopEnd, 2, 7⟩,
        ⟨3, .of .increment, 1, 7⟩, ⟨4, .loopEnd, 1, 7⟩] = ∅ := by
      rw [Set.eq_empty_iff_forall_notMem]
      rintro start ⟨⟨instruction, hget, hkind⟩, hempty⟩
      match start with
      | 0 =>
          have hend : 2 ∈ (∅ : Set ℕ) :=
            hempty ▸ ⟨by decide, ⟨_, rfl, rfl⟩, by decide⟩
          exact hend
      | 1 | 2 | 3 | 4 =>
          cases hget
          cases hkind
      | _ + 5 => cases hget
    have hstuck : 4 ∈ Program.unopenedEnds [⟨0, .loopStart, 1, 7⟩,
        ⟨1, .of .increment, 1, 7⟩, ⟨2, .loopEnd, 2, 7⟩,
        ⟨3, .of .increment, 1, 7⟩, ⟨4, .loopEnd, 1, 7⟩] := by
      refine ⟨⟨_, rfl, rfl⟩, ?_⟩
      rw [Set.eq_empty_iff_forall_notMem]
      rintro start ⟨hlt, -, hopen⟩
      revert start
      decide
    obtain ⟨stuck, hleast, -, -, hreached⟩ :=
      (resolve_stops ⟨by decide, by decide⟩).2.1 hclosed ⟨4, Or.inr hstuck⟩
    exact ⟨_, stuck, hclosed, hleast, hreached⟩

end Jumps

end BrainfuckFront
