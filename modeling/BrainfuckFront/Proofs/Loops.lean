import Mathlib
import BrainfuckFront.Proofs.Encoding

/-!
# The loops of an encoded program

In a program that was encoded, the brackets of the commands behind it are
balanced.  Read off the runs this says that the search to the right succeeds
from every start of a loop and the search to the left from every end of one,
and where they stop.
-/

namespace BrainfuckFront

open Brackets (Balanced balanced_iff)
open Level

namespace Program

/-- What the searches can rely on in a program that was encoded, whether or not
its jumps are set. -/
structure Encoded (program : Program) : Prop where
  one_le_times : ∀ instruction ∈ program, 1 ≤ instruction.times
  isCommand : ∀ instruction ∈ program, ∃ command, instruction.kind = .of command
  size_lt : size program < 2 ^ 63
  balanced : Balanced (commands program)

variable {program left right : Program}

theorem AreRuns.isRun_of_mem {first : ℕ} (hruns : AreRuns first program)
    {instruction : Instruction} (hmem : instruction ∈ program) :
    ∃ position, instruction.IsRun position := by
  obtain ⟨position, hget⟩ := List.mem_iff_getElem?.mp hmem
  exact ⟨first + position, hruns position instruction hget⟩

theorem length_commands
    (hcommand : ∀ instruction ∈ program,
      ∃ command, instruction.kind = .of command) :
    (commands program).length = size program := by
  induction program with
  | nil => rfl
  | cons instruction program ih =>
      obtain ⟨⟨command, hkind⟩, hrest⟩ := List.forall_mem_cons.mp hcommand
      rw [commands_cons, List.length_append, ih hrest, size_cons,
        Instruction.commands_of_kind hkind, List.length_replicate]

theorem size_runs {word : List Command} (hlength : word.length < 2 ^ 63) :
    size (RunLength.runs word) = word.length := by
  have hruns := (RunLength.canonical_runs hlength).areRuns
  rw [← length_commands, RunLength.commands_runs hlength]
  intro instruction hmem
  obtain ⟨_, hrun⟩ := hruns.isRun_of_mem hmem
  exact hrun.isCommand

theorem encoded_of_encode {source : Bytes} (hsize : source.length < 2 ^ 63)
    (hencode : encode source = .ok program) : Encoded program := by
  have hlength := (Source.length_commands_le source).trans_lt hsize
  obtain ⟨hbalanced, rfl⟩ := encode_eq_ok_iff.mp hencode
  have hruns := (RunLength.canonical_runs hlength).areRuns
  refine ⟨?_, ?_, ?_, ?_⟩
  · intro instruction hmem
    obtain ⟨_, hrun⟩ := hruns.isRun_of_mem hmem
    exact hrun.one_le_times
  · intro instruction hmem
    obtain ⟨_, hrun⟩ := hruns.isRun_of_mem hmem
    exact hrun.isCommand
  · rwa [size_runs hlength]
  · rwa [RunLength.commands_runs hlength]

theorem length_le_size
    (htimes : ∀ instruction ∈ program, 1 ≤ instruction.times) :
    program.length ≤ size program := by
  induction program with
  | nil => rfl
  | cons instruction program ih =>
      obtain ⟨hfirst, hrest⟩ := List.forall_mem_cons.mp htimes
      have hcount := Instruction.one_le_count hfirst
      have hlength := ih hrest
      rw [List.length_cons, size_cons]
      omega

theorem Encoded.length_lt (hencoded : Encoded program) :
    program.length < 2 ^ 63 :=
  (length_le_size hencoded.one_le_times).trans_lt hencoded.size_lt

/-- At no place between two runs are more loops closed than opened, and what is
open there is closed by the rest. -/
theorem Encoded.level (hencoded : Encoded (left ++ right)) :
    0 ≤ change Instruction.rise left ∧
      change Instruction.rise left + change Instruction.rise right = 0 := by
  obtain ⟨hpositive, hzero⟩ := balanced_iff.mp hencoded.balanced
  rw [staysPositive_commands, staysPositive_append] at hpositive
  rw [change_commands, change_append] at hzero
  have hleft := hpositive.1.end_pos
  exact ⟨by omega, hzero⟩

end Program

namespace Jumps

open Program (Encoded)

variable {left right : Program} {instruction : Instruction}

/-- From the start of a loop, the search to the right stops at the run that
closes the outermost of the loops that start there. -/
theorem exists_closing (hencoded : Encoded (left ++ instruction :: right))
    (hkind : instruction.kind = .loopStart) :
    ∃ inner finish outer, right = inner ++ finish :: outer ∧
      closing? instruction.times (left.length + 1) right =
        some (left.length + 1 + inner.length) ∧
      finish.kind = .loopEnd ∧
      StaysPositive Instruction.rise instruction.count inner ∧
      instruction.count + change Instruction.rise inner ≤ finish.count := by
  obtain ⟨hlevel, hzero⟩ := hencoded.level
  have htimes := hencoded.one_le_times
  have hsize := hencoded.size_lt
  simp only [List.forall_mem_append, List.forall_mem_cons] at htimes
  rw [Program.size_append, Program.size_cons] at hsize
  rw [change_cons, Instruction.rise_of_loopStart hkind] at hzero
  obtain ⟨-, hpositive⟩ | hfound :=
    closing?_cases htimes.2.1 htimes.2.2 (by omega)
  · have hopen := hpositive.end_pos
    omega
  · exact hfound

/-- From the end of a loop, the search to the left stops at the run that opens
the innermost of the loops that end there. -/
theorem exists_opening (hencoded : Encoded (left ++ instruction :: right))
    (hkind : instruction.kind = .loopEnd) :
    ∃ outer start inner, left = outer ++ start :: inner ∧
      opening? 1 left.reverse = some outer.length ∧
      start.kind = .loopStart ∧
      StaysPositive Instruction.rise (1 - change Instruction.rise inner)
        inner ∧
      1 - change Instruction.rise inner ≤ start.count := by
  have hsplit : left ++ instruction :: right =
      (left ++ [instruction]) ++ right := by simp
  rw [hsplit] at hencoded
  obtain ⟨hlevel, -⟩ := hencoded.level
  have htimes := hencoded.one_le_times
  have hsize := hencoded.size_lt
  simp only [List.forall_mem_append, List.forall_mem_cons] at htimes
  simp only [Program.size_append, Program.size_cons, Program.size_nil] at hsize
  rw [change_append, change_cons, change_nil,
    Instruction.rise_of_loopEnd hkind] at hlevel
  have hpos := Instruction.one_le_count htimes.1.2.1
  obtain ⟨-, hpositive⟩ | hfound := opening?_cases htimes.1.1 (by omega)
  · have hopen := hpositive.start_pos
    omega
  · exact hfound

theorem endTarget_of_loopStart {start finish : Instruction}
    {before rest : List Instruction} (hkind : start.kind = .loopStart)
    (htimes : 1 ≤ start.times) :
    endTarget (start :: before) finish rest =
      .error (emptyLoop (start :: before)) := by
  have hzero : saturatingSub 1 start.times = 0 := by
    have hpos := Instruction.one_le_count htimes
    rw [saturatingSub_eq_zero_iff htimes, Int64.toInt_one]
    omega
  have hopening : opening? 1 (start :: before) = some before.length := by
    rw [opening?, hkind]
    exact if_pos hzero
  rw [endTarget, hopening]
  exact if_pos rfl

theorem exists_startTarget
    (hencoded : Encoded (left ++ instruction :: right))
    (hkind : instruction.kind = .loopStart) :
    ∃ jump, startTarget left.reverse instruction right = .ok jump := by
  obtain ⟨inner, -, -, -, hclosing, -⟩ := exists_closing hencoded hkind
  rw [startTarget, List.length_reverse, hclosing]
  exact ⟨_, rfl⟩

/-- The only loops of an encoded program that cannot be resolved are those that
end right after their start. -/
theorem endTarget_cases (hencoded : Encoded (left ++ instruction :: right))
    (hkind : instruction.kind = .loopEnd) :
    (∃ jump, endTarget left.reverse instruction right = .ok jump) ∨
      ∃ outer start, left = outer ++ [start] ∧ start.kind = .loopStart ∧
        endTarget left.reverse instruction right =
          .error (emptyLoop left.reverse) := by
  obtain ⟨outer, start, inner, rfl, hopening, hstart, -⟩ :=
    exists_opening hencoded hkind
  cases inner with
  | nil =>
      refine Or.inr ⟨outer, start, rfl, hstart, ?_⟩
      have htimes := hencoded.one_le_times start (by simp)
      rw [List.reverse_append, List.reverse_singleton, List.singleton_append]
      exact endTarget_of_loopStart hstart htimes
  | cons first inner =>
      refine Or.inl ⟨Int64.ofNat outer.length + 1, ?_⟩
      rw [endTarget, hopening]
      refine if_neg ?_
      simp only [List.length_reverse, List.length_append, List.length_cons]
      omega

/-- Resolving an encoded program can only fail at an empty loop, and it does so
at the first one. -/
theorem resolve_eq_error {program : Program} {failure : Failure}
    (hencoded : Encoded program)
    (hresolve : (resolve program).toExcept = .error failure) :
    ∃ left start finish right, program = left ++ start :: finish :: right ∧
      start.kind = .loopStart ∧ finish.kind = .loopEnd ∧
      ((left ++ [start]).IsChain fun left right =>
        ¬(left.kind = .loopStart ∧ right.kind = .loopEnd)) ∧
      failure = emptyLoop (start :: left.reverse) := by
  obtain ⟨left, stuck, right, reported, rfl, hkind, htarget, -⟩ |
    ⟨left, stuck, right, reported, rfl, hkind, htarget, hearlier, herror⟩ |
    ⟨linked, -, hok⟩ := resolve_cases program
  · obtain ⟨jump, hjump⟩ := exists_startTarget hencoded hkind
    rw [hjump] at htarget
    cases htarget
  · obtain ⟨jump, hjump⟩ | ⟨outer, start, rfl, hstart, hempty⟩ :=
      endTarget_cases hencoded hkind
    · rw [hjump] at htarget
      cases htarget
    · rw [hempty, Except.error.injEq] at htarget
      rw [herror, Except.error.injEq] at hresolve
      refine ⟨outer, start, stuck, right,
        List.append_assoc outer [start] (stuck :: right), hstart, hkind, ?_,
        ?_⟩
      · rw [List.isChain_iff_forall_rel_of_append_cons_cons]
        rintro first second before after hsplit ⟨hfirst, hsecond⟩
        have htimes := hencoded.one_le_times first (by simp [hsplit])
        obtain ⟨jump, hjump⟩ := hearlier (before ++ [first]) second after
          (by simp [hsplit]) hsecond
        rw [List.reverse_append, List.reverse_singleton, List.singleton_append,
          endTarget_of_loopStart hfirst htimes] at hjump
        cases hjump
      · rw [← hresolve, ← htarget, List.reverse_append,
          List.reverse_singleton, List.singleton_append]
  · rw [hok] at hresolve
    cases hresolve

theorem resolve_isOk_iff {program : Program} (hencoded : Encoded program) :
    (∃ linked, (resolve program).toExcept = .ok linked) ↔
      program.IsChain fun left right =>
        ¬(left.kind = .loopStart ∧ right.kind = .loopEnd) := by
  rw [List.isChain_iff_forall_rel_of_append_cons_cons]
  constructor
  · rintro ⟨linked, hresolve⟩ start finish left right hsplit
      ⟨hstart, hfinish⟩
    have htimes := hencoded.one_le_times start (by simp [hsplit])
    obtain ⟨jump, htarget, -⟩ := (linked_of_resolve hresolve).finish
      (left ++ [start]) finish right (by simp [hsplit]) hfinish
    rw [List.reverse_append, List.reverse_singleton, List.singleton_append,
      endTarget_of_loopStart hstart htimes] at htarget
    cases htarget
  · intro hchain
    cases hresolve : (resolve program).toExcept with
    | error failure =>
        obtain ⟨left, start, finish, right, hsplit, hstart, hfinish, -⟩ :=
          resolve_eq_error hencoded hresolve
        exact absurd ⟨hstart, hfinish⟩ (hchain hsplit)
    | ok linked => exact ⟨linked, rfl⟩

end Jumps

end BrainfuckFront
