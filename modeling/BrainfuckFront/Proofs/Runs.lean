import Mathlib
import BrainfuckFront.Program
import BrainfuckFront.Proofs.Nesting
import BrainfuckFront.Proofs.Words

/-!
# Runs and the commands behind them

A program stands for the word that its instructions spell out, each repeated as
often as it says.  Encoding by runs and spelling out are inverse to each other
between the words of less than `2 ^ 63` commands and the canonical programs.
What the level of open loops does along a word can be read off its runs.
-/

namespace BrainfuckFront

open Level

namespace Instruction

/-- The length of the run as an unbounded number. -/
def count (instruction : Instruction) : ℕ := instruction.times.toNatClampNeg

/-- The commands of the run.  There are none behind a reserved kind. -/
def commands (instruction : Instruction) : List Command :=
  match instruction.kind with
  | .of command => List.replicate instruction.count command
  | .reserved _ _ => []

/-- How the whole run moves the number of open loops. -/
def rise (instruction : Instruction) : ℤ :=
  match instruction.kind with
  | .loopStart => instruction.count
  | .loopEnd => -instruction.count
  | _ => 0

variable {instruction : Instruction} {command : Command}

theorem toInt_times (htimes : 1 ≤ instruction.times) :
    instruction.times.toInt = instruction.count := by
  rw [Int64.le_iff_toInt_le, Int64.toInt_one] at htimes
  exact Int64.toInt_eq_toNatClampNeg (by
    rw [Int64.le_iff_toInt_le, Int64.toInt_zero]
    omega)

theorem one_le_count (htimes : 1 ≤ instruction.times) :
    1 ≤ instruction.count := by
  have hcount := toInt_times htimes
  rw [Int64.le_iff_toInt_le, Int64.toInt_one] at htimes
  omega

theorem count_addRepeat (htimes : 1 ≤ instruction.times)
    (hbound : instruction.count + 1 < 2 ^ 63) :
    instruction.addRepeat.count = instruction.count + 1 := by
  have hcount := toInt_times htimes
  have hnext : (instruction.times + 1).toInt = instruction.count + 1 := by
    rw [Words.toInt_add_one (by omega) (by omega), hcount]
  rw [count, addRepeat, ← Int64.toNat_toInt, hnext]
  omega

theorem one_le_times_addRepeat (htimes : 1 ≤ instruction.times)
    (hbound : instruction.count + 1 < 2 ^ 63) :
    1 ≤ instruction.addRepeat.times := by
  have hcount := count_addRepeat htimes hbound
  rw [count, ← Int64.toNat_toInt] at hcount
  rw [Int64.le_iff_toInt_le, Int64.toInt_one]
  omega

@[simp]
theorem kind_addRepeat : instruction.addRepeat.kind = instruction.kind := rfl

@[simp]
theorem count_single (index : Int64) (command : Command) :
    (single index command).count = 1 := rfl

theorem one_le_times_single (index : Int64) (command : Command) :
    1 ≤ (single index command).times := Int64.le_refl 1

theorem commands_of_kind (hkind : instruction.kind = .of command) :
    instruction.commands = List.replicate instruction.count command := by
  rw [commands, hkind]

theorem rise_of_kind (hkind : instruction.kind = .of command) :
    instruction.rise = instruction.count * command.rise := by
  cases command <;> simp [rise, hkind, Command.rise]

theorem change_commands (instruction : Instruction) :
    change Command.rise instruction.commands = instruction.rise := by
  cases hkind : instruction.kind with
  | of command =>
      rw [commands_of_kind hkind, change_replicate, rise_of_kind hkind]
  | reserved code high => simp [commands, rise, hkind]

end Instruction

namespace Program

/-- The commands that the program stands for. -/
def commands (program : Program) : List Command :=
  program.flatMap Instruction.commands

/-- The number of commands behind the program. -/
def size (program : Program) : ℕ := (program.map Instruction.count).sum

@[simp]
theorem commands_nil : commands [] = [] := rfl

@[simp]
theorem commands_cons (instruction : Instruction) (program : Program) :
    commands (instruction :: program) =
      instruction.commands ++ commands program := by
  simp [commands]

@[simp]
theorem commands_append (left right : Program) :
    commands (left ++ right) = commands left ++ commands right := by
  simp [commands]

@[simp]
theorem size_nil : size [] = 0 := rfl

@[simp]
theorem size_cons (instruction : Instruction) (program : Program) :
    size (instruction :: program) = instruction.count + size program := by
  simp [size]

@[simp]
theorem size_append (left right : Program) :
    size (left ++ right) = size left + size right := by
  simp [size]

@[simp]
theorem size_reverse (program : Program) :
    size program.reverse = size program := by
  simp [size, List.sum_reverse]

theorem change_commands (program : Program) :
    change Command.rise program.commands =
      change Instruction.rise program := by
  induction program with
  | nil => rfl
  | cons instruction program ih =>
      rw [commands_cons, change_append, change_cons,
        Instruction.change_commands, ih]

/-- Inside a run the level lies between its ends, so it is positive between the
commands when it is positive between the runs. -/
theorem staysPositive_commands {level : ℤ} {program : Program} :
    StaysPositive Command.rise level program.commands ↔
      StaysPositive Instruction.rise level program := by
  induction program generalizing level with
  | nil => rw [commands_nil, staysPositive_nil, staysPositive_nil]
  | cons instruction program ih =>
      rw [commands_cons, staysPositive_append, Instruction.change_commands,
        ih, staysPositive_cons]
      refine and_congr_left fun hrest => ?_
      cases hkind : instruction.kind with
      | of command =>
          rw [Instruction.commands_of_kind hkind, staysPositive_replicate,
            ← Instruction.rise_of_kind hkind]
          exact and_iff_left hrest.start_pos
      | reserved code high => simp [Instruction.commands, hkind]

end Program

/-- An instruction as it stands at `position` before the jumps are set. -/
structure Instruction.IsRun (position : ℕ) (instruction : Instruction) :
    Prop where
  index_eq : instruction.index.toInt = position
  one_le_times : 1 ≤ instruction.times
  jump_eq : instruction.jump = 0
  isCommand : ∃ command, instruction.kind = .of command

namespace Program

/-- All instructions are runs, numbered from `first`. -/
def AreRuns (first : ℕ) (program : Program) : Prop :=
  ∀ (position : ℕ) (instruction : Instruction),
    program[position]? = some instruction →
      instruction.IsRun (first + position)

/-- The form of a freshly encoded program: its instructions are runs numbered
from zero, and no two neighbours could be one run. -/
structure Canonical (program : Program) : Prop where
  areRuns : AreRuns 0 program
  kinds_differ : program.IsChain fun left right => left.kind ≠ right.kind

@[simp]
theorem areRuns_nil {first : ℕ} : AreRuns first [] := by
  intro position instruction hget
  simp at hget

@[simp]
theorem areRuns_cons {first : ℕ} {instruction : Instruction}
    {program : Program} :
    AreRuns first (instruction :: program) ↔
      instruction.IsRun first ∧ AreRuns (first + 1) program := by
  constructor
  · intro hruns
    refine ⟨hruns 0 instruction rfl, fun position later hget => ?_⟩
    rw [add_assoc, add_comm 1]
    exact hruns (position + 1) later (by simpa using hget)
  · rintro ⟨hfirst, hrest⟩ position later hget
    cases position with
    | zero =>
        rw [List.getElem?_cons_zero, Option.some.injEq] at hget
        exact hget ▸ hfirst
    | succ position =>
        rw [add_comm position, ← add_assoc]
        exact hrest position later (by simpa using hget)

end Program

namespace RunLength

open Program

variable {current : Instruction} {command : Command} {word : List Command}
variable {position : ℕ}

theorem isRun_single {index : Int64}
    (hindex : index.toInt = position) (command : Command) :
    (Instruction.single index command).IsRun position :=
  ⟨hindex, Instruction.one_le_times_single index command, rfl, command, rfl⟩

/-- Spelling out what the encoder makes of the run `current` and the word after
it gives both back. -/
theorem commands_runsFrom (hkind : current.kind = .of command)
    (htimes : 1 ≤ current.times)
    (hbound : current.count + word.length < 2 ^ 63) :
    commands (runsFrom current word) =
      List.replicate current.count command ++ word := by
  induction word generalizing current command with
  | nil => simp [runsFrom, Instruction.commands_of_kind hkind]
  | cons next word ih =>
      rw [List.length_cons] at hbound
      rw [runsFrom]
      by_cases hnext : current.kind = .of next
      · have hsame : command = next := by
          simpa [hkind] using hnext
        subst hsame
        have hcount := Instruction.count_addRepeat htimes (by omega)
        have htimes' :=
          Instruction.one_le_times_addRepeat htimes (by omega)
        rw [← Instruction.kind_addRepeat] at hkind
        rw [if_pos hnext, ih hkind htimes' (by omega), hcount,
          List.replicate_succ', List.append_assoc, List.singleton_append]
      · rw [if_neg hnext, commands_cons, Instruction.commands_of_kind hkind,
          ih rfl (Instruction.one_le_times_single _ next)
            (by rw [Instruction.count_single]; omega),
          Instruction.count_single, List.replicate_one, List.singleton_append]

theorem commands_runs (hlength : word.length < 2 ^ 63) :
    commands (runs word) = word := by
  cases word with
  | nil => rfl
  | cons command word =>
      rw [List.length_cons] at hlength
      rw [runs, commands_runsFrom rfl (Instruction.one_le_times_single 0 command)
          (by rw [Instruction.count_single]; omega),
        Instruction.count_single, List.replicate_one, List.singleton_append]

/-- Extending the current run or starting the next one keeps the runs numbered
in order. -/
theorem areRuns_runsFrom (hrun : current.IsRun position)
    (hbound : position + current.count + word.length < 2 ^ 63) :
    AreRuns position (runsFrom current word) := by
  induction word generalizing current position with
  | nil => simpa [runsFrom] using hrun
  | cons next word ih =>
      rw [List.length_cons] at hbound
      have hcount := Instruction.count_addRepeat hrun.one_le_times (by omega)
      have hpos := Instruction.one_le_count hrun.one_le_times
      rw [runsFrom]
      by_cases hnext : current.kind = .of next
      · rw [if_pos hnext]
        refine ih ⟨hrun.index_eq, ?_, hrun.jump_eq, hrun.isCommand⟩
          (by omega)
        exact Instruction.one_le_times_addRepeat hrun.one_le_times (by omega)
      · rw [if_neg hnext, areRuns_cons]
        have hindex := hrun.index_eq
        refine ⟨hrun, ih (isRun_single ?_ next)
          (by rw [Instruction.count_single]; omega)⟩
        rw [Words.toInt_add_one (by omega) (by omega), hindex]
        push_cast
        rfl

theorem kind_of_mem_head?_runsFrom {first : Instruction}
    (hfirst : first ∈ (runsFrom current word).head?) :
    first.kind = current.kind := by
  induction word generalizing current with
  | nil =>
      rw [runsFrom, List.head?_cons, Option.mem_some_iff] at hfirst
      rw [hfirst]
  | cons next word ih =>
      rw [runsFrom] at hfirst
      by_cases hnext : current.kind = .of next
      · rw [if_pos hnext] at hfirst
        rw [ih hfirst, Instruction.kind_addRepeat]
      · rw [if_neg hnext, List.head?_cons, Option.mem_some_iff] at hfirst
        rw [hfirst]

theorem kinds_differ_runsFrom :
    (runsFrom current word).IsChain fun left right =>
      left.kind ≠ right.kind := by
  induction word generalizing current with
  | nil => simp [runsFrom]
  | cons next word ih =>
      rw [runsFrom]
      by_cases hnext : current.kind = .of next
      · rw [if_pos hnext]
        exact ih
      · rw [if_neg hnext]
        refine List.IsChain.cons ih fun first hfirst => ?_
        rw [kind_of_mem_head?_runsFrom hfirst]
        exact hnext

theorem canonical_runs (hlength : word.length < 2 ^ 63) :
    Canonical (runs word) := by
  cases word with
  | nil => exact ⟨areRuns_nil, List.isChain_nil⟩
  | cons command word =>
      rw [List.length_cons] at hlength
      exact ⟨areRuns_runsFrom (isRun_single rfl command)
        (by rw [Instruction.count_single]; omega), kinds_differ_runsFrom⟩

theorem runsFrom_replicate (hkind : current.kind = .of command)
    (count : ℕ) (word : List Command) :
    runsFrom current (List.replicate count command ++ word) =
      runsFrom { current with times := current.times + Int64.ofNat count }
        word := by
  induction count generalizing current with
  | zero => simp
  | succ count ih =>
      rw [List.replicate_succ, List.cons_append, runsFrom, if_pos hkind,
        ih (by rwa [Instruction.kind_addRepeat])]
      congr 2
      rw [Instruction.addRepeat, Int64.ofNat_add,
        Int64.add_comm (Int64.ofNat count), ← Int64.add_assoc]
      rfl

/-- The commands of a run are never empty, and the encoder turns them back into
the run. -/
theorem exists_commands_append (hrun : current.IsRun position)
    (word : List Command) :
    ∃ command rest, current.kind = .of command ∧
      current.commands ++ word = command :: rest ∧
      runsFrom (.single current.index command) rest =
        runsFrom current word := by
  obtain ⟨command, hkind⟩ := hrun.isCommand
  have hpos := Instruction.one_le_count hrun.one_le_times
  obtain ⟨more, hmore⟩ := Nat.exists_eq_add_of_le' hpos
  have htimes : current.times = 1 + Int64.ofNat more := by
    rw [← Int64.ofNat_toNatClampNeg current.times
      (Int64.le_trans (by decide) hrun.one_le_times), Int64.add_comm]
    exact (congrArg Int64.ofNat hmore).trans (Int64.ofNat_add more 1)
  refine ⟨command, List.replicate more command ++ word, hkind, ?_, ?_⟩
  · rw [Instruction.commands_of_kind hkind, hmore, List.replicate_succ,
      List.cons_append]
  · rw [runsFrom_replicate rfl]
    congr 1
    rw [Instruction.single, ← htimes, ← hkind, ← hrun.jump_eq]

theorem runsFrom_commands {program : Program}
    (hruns : AreRuns position (current :: program))
    (hdiffer : (current :: program).IsChain fun left right =>
      left.kind ≠ right.kind) :
    runsFrom current (commands program) = current :: program := by
  induction program generalizing current position with
  | nil => rfl
  | cons next program ih =>
      obtain ⟨hcurrent, hrest⟩ := areRuns_cons.mp hruns
      obtain ⟨hne, hchain⟩ := List.isChain_cons_cons.mp hdiffer
      have hnext := (areRuns_cons.mp hrest).1
      have hindex : current.index + 1 = next.index := by
        have hleft := hcurrent.index_eq
        have hright := hnext.index_eq
        have hbound := next.index.toInt_lt
        rw [← Int64.toInt_inj, Words.toInt_add_one (by omega) (by omega)]
        omega
      obtain ⟨command, rest, hkind, hsplit, hruns'⟩ :=
        exists_commands_append hnext (commands program)
      rw [commands_cons, hsplit, runsFrom, if_neg (hkind ▸ hne), hindex,
        hruns', ih hrest hchain]

theorem runs_commands {program : Program} (hcanonical : Canonical program) :
    runs (commands program) = program := by
  cases program with
  | nil => rfl
  | cons first program =>
      have hfirst := (areRuns_cons.mp hcanonical.areRuns).1
      have hindex : first.index = 0 :=
        Words.eq_zero_iff.mpr (by simpa using hfirst.index_eq)
      obtain ⟨command, rest, -, hsplit, hruns⟩ :=
        exists_commands_append hfirst (commands program)
      rw [commands_cons, hsplit, runs, ← hindex, hruns]
      exact runsFrom_commands hcanonical.areRuns hcanonical.kinds_differ

end RunLength

end BrainfuckFront
