import Mathlib
import BrainfuckFront.Proofs.Language
import BrainfuckFront.Proofs.Partners

/-!
# Programs whose jumps match their brackets

A program is matched when each of its loop instructions jumps next to the run
that holds the partner of its first bracket.  Partners are unique and every
command belongs to one run, so there is one way to set the jumps, and parsing is
characterized by it: the result is the matched program with the runs of the
source.

Partners never cross.  Inside a loop more loops are open than before it, which
says all there is to say about how two loops can lie to each other.
-/

namespace BrainfuckFront

namespace Brackets

open Level

/-- How many loops are open just before the command at `place`. -/
def depth (word : List Command) (place : ℕ) : ℤ :=
  change Command.rise (word.take place)

variable {word : List Command} {opening closing : ℕ}

theorem Partners.opening_lt (hpartners : Partners word opening closing) :
    opening < closing := by
  obtain ⟨-, inner, -, -, -, rfl, -⟩ := hpartners
  omega

theorem Partners.getElem?_opening (hpartners : Partners word opening closing) :
    word[opening]? = some .openLoop := by
  obtain ⟨before, inner, after, rfl, rfl, -, -⟩ := hpartners
  simp

theorem Partners.getElem?_closing (hpartners : Partners word opening closing) :
    word[closing]? = some .closeLoop := by
  obtain ⟨before, inner, after, rfl, rfl, rfl, -⟩ := hpartners
  rw [List.getElem?_append_right (by omega), add_assoc,
    Nat.add_sub_cancel_left, List.getElem?_cons_succ]
  simp

/-- Behind a loop as many loops are open as before it. -/
theorem Partners.depth_behind (hpartners : Partners word opening closing) :
    depth word (closing + 1) = depth word opening := by
  obtain ⟨before, inner, after, rfl, rfl, rfl, hinner⟩ := hpartners
  have hzero := (balanced_iff.mp hinner).2
  have hbehind : (before ++ Command.openLoop ::
      (inner ++ .closeLoop :: after)).take (before.length + inner.length + 2) =
        before ++ .openLoop :: (inner ++ [.closeLoop]) := by
    rw [add_assoc, List.take_length_add_append, List.take_succ_cons,
      List.take_length_add_append]
    rfl
  rw [depth, hbehind, depth, List.take_left, change_append, change_cons,
    change_append, hzero, change_cons, change_nil, Command.rise, Command.rise]
  ring

/-- Inside a loop more loops are open than before it. -/
theorem Partners.depth_inside (hpartners : Partners word opening closing)
    {place : ℕ} (hafter : opening < place) (hbefore : place ≤ closing) :
    depth word opening < depth word place := by
  obtain ⟨before, inner, after, rfl, rfl, rfl, hinner⟩ := hpartners
  obtain ⟨count, rfl⟩ := Nat.exists_eq_add_of_lt hafter
  have hpositive := (balanced_iff.mp hinner).1 count
  have hinside : (before ++ Command.openLoop ::
      (inner ++ .closeLoop :: after)).take (before.length + count + 1) =
        before ++ .openLoop :: inner.take count := by
    rw [add_assoc, List.take_length_add_append, List.take_succ_cons,
      List.take_append_of_le_length (by omega)]
  rw [depth, depth, hinside, List.take_left, change_append, change_cons,
    Command.rise]
  omega

/-- A loop that starts inside another one ends inside it. -/
theorem Partners.closing_lt_closing {opening' closing' : ℕ}
    (houter : Partners word opening closing)
    (hinner : Partners word opening' closing')
    (hafter : opening < opening') (hbefore : opening' < closing) :
    closing' < closing := by
  by_contra hcross
  have hdeeper := houter.depth_inside hafter hbefore.le
  have houterBehind := houter.depth_behind
  obtain heq | hlt := (not_lt.mp hcross).eq_or_lt
  · have hinnerBehind := hinner.depth_behind
    rw [← heq] at hinnerBehind
    omega
  · -- just behind the outer loop the inner one would still be open
    have hopen : depth word opening' < depth word (closing + 1) :=
      hinner.depth_inside (by omega) hlt
    omega

/-- In a balanced word every loop is closed. -/
theorem Balanced.exists_partner (hbalanced : Balanced word)
    (hopen : word[opening]? = some .openLoop) :
    ∃ closing, Partners word opening closing := by
  obtain ⟨before, rest, rfl, rfl⟩ := Jumps.exists_split hopen
  obtain ⟨hpositive, hzero⟩ := balanced_iff.mp hbalanced
  rw [staysPositive_append] at hpositive
  rw [change_append, change_cons, Command.rise] at hzero
  have hbefore := hpositive.1.end_pos
  obtain ⟨inner, after, rfl, hinner⟩ :=
    exists_body (show 1 + change Command.rise rest ≤ 0 by omega)
  exact ⟨_, before, inner, after, rfl, rfl, rfl, hinner⟩

theorem Partners.append_right (hpartners : Partners word opening closing)
    (rest : List Command) : Partners (word ++ rest) opening closing := by
  obtain ⟨before, inner, after, rfl, hopening, hclosing, hinner⟩ := hpartners
  exact ⟨before, inner, after ++ rest, by simp, hopening, hclosing, hinner⟩

theorem Partners.append_left (hpartners : Partners word opening closing)
    (front : List Command) :
    Partners (front ++ word) (front.length + opening)
      (front.length + closing) := by
  obtain ⟨before, inner, after, rfl, rfl, rfl, hinner⟩ := hpartners
  refine ⟨front ++ before, inner, after, by simp, by simp, ?_, hinner⟩
  omega

end Brackets

namespace Instruction

/-- The instruction before its jump was set. -/
def unlinked (instruction : Instruction) : Instruction :=
  { instruction with jump := 0 }

@[simp]
theorem kind_unlinked (instruction : Instruction) :
    instruction.unlinked.kind = instruction.kind := rfl

@[simp]
theorem bare_unlinked (instruction : Instruction) :
    instruction.unlinked.bare = instruction.bare := rfl

end Instruction

namespace Program

open Brackets (Balanced Partners)

variable {program left right : Program} {instruction : Instruction}
variable {position run run' place place' : ℕ}

theorem map_bare_of_map_unlinked
    (hsame : left.map Instruction.unlinked = right.map Instruction.unlinked) :
    left.map Instruction.bare = right.map Instruction.bare := by
  have hbare := congrArg (List.map Instruction.bare) hsame
  simpa [Function.comp_def] using hbare

theorem commands_congr
    (hbare : left.map Instruction.bare = right.map Instruction.bare) :
    commands left = commands right := by
  rw [← commands_map_bare, hbare, commands_map_bare]

theorem commands_map_unlinked (program : Program) :
    commands (program.map Instruction.unlinked) = commands program := by
  apply commands_congr
  rw [List.map_map]
  rfl

theorem map_unlinked_of_jump
    (hjump : ∀ instruction ∈ program, instruction.jump = 0) :
    program.map Instruction.unlinked = program := by
  conv_rhs => rw [← List.map_id program]
  apply List.map_congr_left
  intro instruction hmem
  rw [Instruction.unlinked, ← hjump instruction hmem, id]

theorem offset_mono (program : Program) {first second : ℕ}
    (hle : first ≤ second) : program.offset first ≤ program.offset second := by
  have hsplit : program.take second =
      program.take first ++ (program.take second).drop first := by
    conv_lhs => rw [← List.take_append_drop first (program.take second)]
    rw [List.take_take, min_eq_left hle]
  rw [offset, offset, hsplit, size_append]
  omega

/-- Runs follow each other in the order of their commands. -/
theorem Holds.run_le_run (hholds : program.Holds run place)
    (hholds' : program.Holds run' place') (hle : place ≤ place') :
    run ≤ run' := by
  by_contra hlt
  have hmono : program.offset (run' + 1) ≤ program.offset run :=
    program.offset_mono (not_le.mp hlt)
  have hlower := hholds.1
  have hupper := hholds'.2
  omega

theorem Holds.run_unique (hholds : program.Holds run place)
    (hholds' : program.Holds run' place) : run = run' :=
  le_antisymm (hholds.run_le_run hholds' le_rfl)
    (hholds'.run_le_run hholds le_rfl)

theorem Holds.place_lt_place (hholds : program.Holds run place)
    (hholds' : program.Holds run' place') (hlt : run < run') :
    place < place' := by
  by_contra hle
  have hrun := hholds'.run_le_run hholds (not_lt.mp hle)
  omega

theorem Holds.run_lt_length (hholds : program.Holds run place) :
    run < program.length := by
  by_contra hle
  have hlower := hholds.1
  have hupper := hholds.2
  rw [offset, List.take_of_length_le (by omega)] at hlower hupper
  omega

theorem holds_offset (hget : program[position]? = some instruction)
    (htimes : 1 ≤ instruction.times) :
    program.Holds position (program.offset position) := by
  obtain ⟨left, right, rfl, rfl⟩ := Jumps.exists_split hget
  have hcount := Instruction.one_le_count htimes
  rw [offset_append_length]
  apply holds_append_length <;> omega

theorem offset_append_length_succ (left right : Program)
    (instruction : Instruction) :
    offset (left ++ instruction :: right) (left.length + 1) =
      size left + instruction.count := by
  have hnext : left ++ instruction :: right =
      (left ++ [instruction]) ++ right := by simp
  have hlength : left.length + 1 = (left ++ [instruction]).length := by simp
  rw [hnext, hlength, offset_append_length, size_append, size_cons, size_nil,
    add_zero]

/-- A command is of the kind of the run that it belongs to, and in a run of one
command it is the first. -/
theorem Holds.exists_kind (hholds : program.Holds run place)
    (hcommand : ∀ instruction ∈ program,
      ∃ command, instruction.kind = .of command) :
    ∃ instruction command, program[run]? = some instruction ∧
      instruction.kind = .of command ∧
      program.commands[place]? = some command ∧
      (instruction.times = 1 → place = program.offset run) := by
  obtain ⟨instruction, hget⟩ :
      ∃ instruction, program[run]? = some instruction :=
    ⟨_, List.getElem?_eq_getElem hholds.run_lt_length⟩
  obtain ⟨left, right, rfl, rfl⟩ := Jumps.exists_split hget
  obtain ⟨hlower, hupper⟩ := hholds
  rw [offset_append_length_succ] at hupper
  rw [offset_append_length] at hlower
  simp only [List.forall_mem_append, List.forall_mem_cons] at hcommand
  obtain ⟨hleft, ⟨command, hkind⟩, -⟩ := hcommand
  refine ⟨instruction, command, hget, hkind, ?_, ?_⟩
  · rw [commands_append, commands_cons, Instruction.commands_of_kind hkind,
      List.getElem?_append_right (by rwa [length_commands hleft]),
      length_commands hleft, List.getElem?_append_left
        (by rw [List.length_replicate]; omega),
      List.getElem?_replicate_of_lt (by omega)]
  · intro htimes
    have hcount : instruction.count = 1 := by
      rw [Instruction.count, htimes]
      rfl
    rw [offset_append_length]
    omega

/-- The jump of an instruction at `position` is that of bracket matching: it
leads next to the run that holds the partner of the first bracket. -/
structure JumpMatches (program : Program) (position : ℕ)
    (instruction : Instruction) : Prop where
  start : instruction.kind = .loopStart →
    ∃ closing run : ℕ,
      Partners program.commands (program.offset position) closing ∧
        program.Holds run closing ∧ instruction.jump.toInt + 1 = run
  finish : instruction.kind = .loopEnd →
    ∃ opening run : ℕ,
      Partners program.commands opening (program.offset position) ∧
        program.Holds run opening ∧ instruction.jump.toInt - 1 = run
  other : instruction.kind ≠ .loopStart → instruction.kind ≠ .loopEnd →
    instruction.jump = 0

/-- All jumps are those of bracket matching. -/
def Matched (program : Program) : Prop :=
  ∀ (position : ℕ) (instruction : Instruction),
    program[position]? = some instruction →
      program.JumpMatches position instruction

/-- Two matched programs with the same runs have the same jumps. -/
theorem Matched.jump_eq {instruction' : Instruction} (hleft : Matched left)
    (hright : Matched right)
    (hbare : left.map Instruction.bare = right.map Instruction.bare)
    (hget : left[position]? = some instruction)
    (hget' : right[position]? = some instruction')
    (hkind : instruction.kind = instruction'.kind) :
    instruction.jump = instruction'.jump := by
  have hcommands := commands_congr hbare
  have hmatch := hleft position instruction hget
  have hmatch' := hright position instruction' hget'
  by_cases hstart : instruction.kind = .loopStart
  · obtain ⟨closing, run, hpartners, hholds, hjump⟩ := hmatch.start hstart
    obtain ⟨closing', run', hpartners', hholds', hjump'⟩ :=
      hmatch'.start (hkind ▸ hstart)
    rw [hcommands, offset_congr hbare] at hpartners
    rw [holds_congr hbare, hpartners.closing_unique hpartners'] at hholds
    have hrun := hholds.run_unique hholds'
    rw [← Int64.toInt_inj]
    omega
  · by_cases hend : instruction.kind = .loopEnd
    · obtain ⟨opening, run, hpartners, hholds, hjump⟩ := hmatch.finish hend
      obtain ⟨opening', run', hpartners', hholds', hjump'⟩ :=
        hmatch'.finish (hkind ▸ hend)
      rw [hcommands, offset_congr hbare] at hpartners
      rw [holds_congr hbare, hpartners.opening_unique hpartners'] at hholds
      have hrun := hholds.run_unique hholds'
      rw [← Int64.toInt_inj]
      omega
    · rw [hmatch.other hstart hend,
        hmatch'.other (hkind ▸ hstart) (hkind ▸ hend)]

theorem Matched.eq_of_map_unlinked (hleft : Matched left)
    (hright : Matched right)
    (hsame : left.map Instruction.unlinked = right.map Instruction.unlinked) :
    left = right := by
  have hbare := map_bare_of_map_unlinked hsame
  have hlength : left.length = right.length := by
    simpa using congrArg List.length hsame
  apply List.ext_getElem hlength
  intro position hlt hlt'
  have hunlinked : left[position].unlinked = right[position].unlinked := by
    simpa [hlt, hlt'] using congrArg (·[position]?) hsame
  have hkind : left[position].kind = right[position].kind := by
    simpa using congrArg Instruction.kind hunlinked
  have hjump : left[position].jump = right[position].jump :=
    hleft.jump_eq hright hbare (List.getElem?_eq_getElem hlt)
      (List.getElem?_eq_getElem hlt') hkind
  calc
    left[position] = { left[position].unlinked with
        jump := left[position].jump } := rfl
    _ = { right[position].unlinked with jump := right[position].jump } := by
      rw [hunlinked, hjump]
    _ = right[position] := rfl

end Program

namespace Jumps

open Program (Encoded Matched)

variable {instructions program : Program}

theorem Linked.map_unlinked (hlinked : Linked instructions program) :
    program.map Instruction.unlinked =
      instructions.map Instruction.unlinked :=
  map_eq_of_exists_jump (fun _ _ => rfl) hlinked.length_eq
    fun _ _ => hlinked.exists_jump

/-- What the two passes write are the jumps of bracket matching. -/
theorem Linked.matched (hlinked : Linked instructions program)
    (hencoded : Encoded instructions)
    (hchain : instructions.IsChain fun left right =>
      ¬(left.kind = .loopStart ∧ right.kind = .loopEnd))
    (hjump : ∀ instruction ∈ instructions, instruction.jump = 0) :
    Matched program := by
  have hbare := hlinked.map_bare
  have hcommands := Program.commands_congr hbare
  intro position instruction hget
  obtain ⟨left, original, right, rfl, rfl, horiginal, hstart, hend, hother⟩ :=
    hlinked.exists_original hget
  constructor
  · intro hkind
    obtain ⟨closing, run, hpartners, hholds, hrun, -⟩ :=
      Program.exists_partner_of_loopStart hencoded (horiginal.trans hkind)
        hchain (hstart hkind)
    rw [hcommands, Program.offset_congr hbare, Program.offset_append_length]
    exact ⟨closing, run, hpartners, (Program.holds_congr hbare).mpr hholds,
      hrun⟩
  · intro hkind
    obtain ⟨opening, run, hpartners, hholds, hrun, -⟩ :=
      Program.exists_partner_of_loopEnd hencoded (horiginal.trans hkind)
        (hend hkind)
    rw [hcommands, Program.offset_congr hbare, Program.offset_append_length]
    exact ⟨opening, run, hpartners, (Program.holds_congr hbare).mpr hholds,
      hrun⟩
  · intro hnstart hnend
    rw [← hother hnstart hnend]
    exact hjump original (by simp)

end Jumps

namespace Program

open Brackets (Balanced)

/-- The form of a parsed program: the brackets of its commands are balanced
around bodies that are not empty, its instructions are the runs of its commands,
and its jumps match the brackets. -/
structure Parsed (program : Program) : Prop where
  balanced : Balanced program.commands
  emptyLoopFree : EmptyLoopFree program.commands
  canonical : Canonical (program.map Instruction.unlinked)
  matched : Matched program

variable {source : Bytes} {program : Program} {position : ℕ}
variable {instruction : Instruction}

theorem Parsed.isRun (hparsed : Parsed program)
    (hget : program[position]? = some instruction) :
    instruction.unlinked.IsRun position := by
  have hrun := hparsed.canonical.areRuns position instruction.unlinked
    (by rw [List.getElem?_map, hget, Option.map_some])
  rwa [zero_add] at hrun

theorem Parsed.one_le_times (hparsed : Parsed program)
    (hmem : instruction ∈ program) : 1 ≤ instruction.times := by
  obtain ⟨position, hget⟩ := List.mem_iff_getElem?.mp hmem
  exact (hparsed.isRun hget).one_le_times

theorem Parsed.isCommand (hparsed : Parsed program)
    (hmem : instruction ∈ program) :
    ∃ command, instruction.kind = .of command := by
  obtain ⟨position, hget⟩ := List.mem_iff_getElem?.mp hmem
  exact (hparsed.isRun hget).isCommand

theorem Parsed.length_commands (hparsed : Parsed program) :
    program.commands.length = size program :=
  Program.length_commands fun _ => hparsed.isCommand

theorem Parsed.encoded (hparsed : Parsed program)
    (hsize : program.commands.length < 2 ^ 63) : Encoded program := by
  refine ⟨fun _ => hparsed.one_le_times, fun _ => hparsed.isCommand, ?_,
    hparsed.balanced⟩
  rwa [hparsed.length_commands] at hsize

/-- Two parsed programs with the same commands are the same. -/
theorem Parsed.eq_of_commands {left right : Program} (hleft : Parsed left)
    (hright : Parsed right) (hcommands : left.commands = right.commands) :
    left = right := by
  apply hleft.matched.eq_of_map_unlinked hright.matched
  calc
    left.map Instruction.unlinked =
        RunLength.runs (commands (left.map Instruction.unlinked)) :=
      (RunLength.runs_commands hleft.canonical).symm
    _ = RunLength.runs (commands (right.map Instruction.unlinked)) := by
      rw [commands_map_unlinked, commands_map_unlinked, hcommands]
    _ = right.map Instruction.unlinked :=
      RunLength.runs_commands hright.canonical

theorem parsed_of_parse (hsize : source.length < 2 ^ 63)
    (hparse : parse source = .ok program) : Parsed program := by
  have hlength := (Source.length_commands_le source).trans_lt hsize
  have hcanonical := RunLength.canonical_runs hlength
  have hcommands := commands_of_parse hsize hparse
  obtain ⟨hbalanced, hfree⟩ := (parse_isOk_iff hsize).mp ⟨program, hparse⟩
  have hresolve := (parse_eq_ok_iff.mp hparse).2
  have hlinked := Jumps.linked_of_resolve hresolve
  have hencoded := encoded_of_encode hsize
    (encode_eq_ok_iff.mpr ⟨hbalanced, rfl⟩)
  have hchain := (Jumps.resolve_isOk_iff hencoded).mp ⟨program, hresolve⟩
  have hjump : ∀ instruction ∈ RunLength.runs (Source.commands source),
      instruction.jump = 0 := by
    intro instruction hmem
    obtain ⟨_, hrun⟩ := hcanonical.areRuns.isRun_of_mem hmem
    exact hrun.jump_eq
  refine ⟨hcommands ▸ hbalanced, hcommands ▸ hfree, ?_,
    hlinked.matched hencoded hchain hjump⟩
  rw [hlinked.map_unlinked, map_unlinked_of_jump hjump]
  exact hcanonical

theorem encoded_of_parse (hsize : source.length < 2 ^ 63)
    (hparse : parse source = .ok program) : Encoded program := by
  apply (parsed_of_parse hsize hparse).encoded
  rw [commands_of_parse hsize hparse]
  exact (Source.length_commands_le source).trans_lt hsize

/-- Parsing finds the one parsed program behind the commands of the source. -/
theorem parse_eq_ok_iff_parsed (hsize : source.length < 2 ^ 63) :
    parse source = .ok program ↔
      Parsed program ∧ program.commands = Source.commands source := by
  constructor
  · intro hparse
    exact ⟨parsed_of_parse hsize hparse, commands_of_parse hsize hparse⟩
  · rintro ⟨hparsed, hcommands⟩
    obtain ⟨result, hparse⟩ := (parse_isOk_iff hsize).mpr
      ⟨hcommands ▸ hparsed.balanced, hcommands ▸ hparsed.emptyLoopFree⟩
    have hsame := commands_of_parse hsize hparse
    rw [hparsed.eq_of_commands (parsed_of_parse hsize hparse)
      (hcommands.trans hsame.symm), hparse]

end Program

end BrainfuckFront
