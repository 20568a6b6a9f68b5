import Mathlib
import BrainfuckFront.Proofs.Loops

/-!
# Jumps and the partners of brackets

The jumps of a parsed program are computed on runs, from depths that stop at
zero.  They are the ones that matching the single brackets of the source gives:
the start of a loop jumps to just before the run that holds the partner of its
first bracket, and the end of a loop to just after the run that holds the
partner of its first bracket.
-/

namespace BrainfuckFront

open Brackets (Partners balanced_between)
open Level

namespace Program

/-- The number of commands before the instruction at `position`, which is the
offset of its first command. -/
def offset (program : Program) (position : ℕ) : ℕ :=
  size (program.take position)

/-- The command at `offset` belongs to the run at `position`. -/
def Holds (program : Program) (position offset : ℕ) : Prop :=
  program.offset position ≤ offset ∧ offset < program.offset (position + 1)

variable {left right inner outer : Program} {start finish : Instruction}

theorem offset_append_length (left right : Program) :
    offset (left ++ right) left.length = size left := by
  rw [offset, List.take_left]

theorem offset_cons_succ (first : Instruction) (rest : Program)
    (position : ℕ) :
    offset (first :: rest) (position + 1) =
      first.count + offset rest position := by
  rw [offset, List.take_succ_cons, size_cons, offset]

theorem holds_append_length {instruction : Instruction} {place : ℕ}
    (hle : size left ≤ place) (hlt : place < size left + instruction.count) :
    Holds (left ++ instruction :: right) left.length place := by
  refine ⟨by rwa [offset_append_length], ?_⟩
  have hnext : left ++ instruction :: right =
      (left ++ [instruction]) ++ right := by simp
  have hlength : left.length + 1 = (left ++ [instruction]).length := by simp
  rw [hnext, hlength, offset_append_length, size_append, size_cons, size_nil]
  omega

/-- The run that closes a loop holds the commands right after its body. -/
theorem holds_after_body {place : ℕ}
    (hle : size left + start.count + size inner ≤ place)
    (hlt : place < size left + start.count + size inner + finish.count) :
    Holds (left ++ start :: (inner ++ finish :: outer))
      (left.length + inner.length + 1) place := by
  have hsplit : left ++ start :: (inner ++ finish :: outer) =
      (left ++ start :: inner) ++ finish :: outer := by simp
  have hrun : left.length + inner.length + 1 =
      (left ++ start :: inner).length := by
    rw [List.length_append, List.length_cons]
    omega
  rw [hsplit, hrun]
  apply holds_append_length <;> rw [size_append, size_cons] <;> omega

theorem size_map_bare (program : Program) :
    size (program.map Instruction.bare) = size program := by
  simp [size, Function.comp_def]

theorem offset_congr {program instructions : Program}
    (hbare : program.map Instruction.bare =
      instructions.map Instruction.bare) (position : ℕ) :
    offset program position = offset instructions position := by
  rw [offset, offset, ← size_map_bare, List.map_take, hbare,
    ← List.map_take, size_map_bare]

/-- Two brackets of different runs are partners when the first leaves as many
loops open as are closed before the second. -/
theorem partners_commands {skipped opened closed remaining : ℕ}
    (hcommand : ∀ instruction ∈ left ++ start :: (inner ++ finish :: outer),
      ∃ command, instruction.kind = .of command)
    (hstart : start.kind = .loopStart) (hfinish : finish.kind = .loopEnd)
    (hopened : start.count = skipped + (opened + 1))
    (hclosed : finish.count = closed + (remaining + 1))
    (hpositive : StaysPositive Instruction.rise (opened + 1) inner)
    (hchange : opened + change Instruction.rise inner = closed) :
    Partners (commands (left ++ start :: (inner ++ finish :: outer)))
      (size left + skipped)
      (size left + start.count + size inner + closed) := by
  simp only [List.forall_mem_append, List.forall_mem_cons] at hcommand
  obtain ⟨hleft, -, hinner, -⟩ := hcommand
  rw [← staysPositive_commands] at hpositive
  rw [← change_commands] at hchange
  refine ⟨commands left ++ List.replicate skipped .openLoop,
    List.replicate opened .openLoop ++
      (commands inner ++ List.replicate closed .closeLoop),
    List.replicate remaining .closeLoop ++ commands outer, ?_, ?_, ?_,
    balanced_between hpositive hchange⟩
  · simp only [commands_append, commands_cons,
      Instruction.commands_of_kind hstart,
      Instruction.commands_of_kind hfinish, hopened, hclosed,
      List.replicate_add, List.replicate_succ, List.append_assoc,
      List.cons_append]
  · rw [List.length_append, length_commands hleft, List.length_replicate]
  · simp only [List.length_append, List.length_replicate,
      length_commands hinner]
    omega

/-- The loop that starts first in a run ends where the search to the right has
stopped, and its body is not empty. -/
theorem exists_partner_of_loopStart {jump : Int64}
    (hencoded : Encoded (left ++ start :: right))
    (hkind : start.kind = .loopStart)
    (hchain : (left ++ start :: right).IsChain fun left right =>
      ¬(left.kind = .loopStart ∧ right.kind = .loopEnd))
    (htarget : Jumps.startTarget left.reverse start right = .ok jump) :
    ∃ closing run : ℕ,
      Partners (commands (left ++ start :: right)) (size left) closing ∧
        Holds (left ++ start :: right) run closing ∧
        jump.toInt + 1 = run ∧ left.length < jump.toInt ∧
        jump.toInt < (left ++ start :: right).length - 1 := by
  obtain ⟨inner, finish, outer, rfl, hclosing, hfinish, hpositive, hle⟩ :=
    Jumps.exists_closing hencoded hkind
  rw [Jumps.startTarget, List.length_reverse, hclosing,
    Except.ok.injEq] at htarget
  have hcount := Instruction.one_le_count
    (hencoded.one_le_times start (by simp))
  have hlevel := hpositive.end_pos
  have hlength := hencoded.length_lt
  simp only [List.length_append, List.length_cons] at hlength
  have hjump : jump.toInt = left.length + inner.length := by
    rw [← htarget, Words.toInt_ofNat_sub_one (by omega)]
    push_cast
    ring
  -- the bracket closes one loop less than are open at the end of the body
  obtain ⟨closed, hclosed⟩ := Int.eq_ofNat_of_zero_le
    (show 0 ≤ start.count + change Instruction.rise inner - 1 by omega)
  have hbody : inner ≠ [] := by
    rintro rfl
    exact (List.isChain_append_cons_cons.mp hchain).2.1 ⟨hkind, hfinish⟩
  have hpartners := partners_commands hencoded.isCommand hkind hfinish
    (show start.count = 0 + (start.count - 1 + 1) by omega)
    (show finish.count = closed + (finish.count - closed - 1 + 1) by omega)
    (by rwa [show ((start.count - 1 : ℕ) : ℤ) + 1 = start.count by omega])
    (show ((start.count - 1 : ℕ) : ℤ) + change Instruction.rise inner = closed
      by omega)
  have hpos := List.length_pos_of_ne_nil hbody
  refine ⟨_, left.length + inner.length + 1, hpartners,
    holds_after_body (by omega) (by omega), ?_, ?_, ?_⟩
  · rw [hjump]
    push_cast
    ring
  · omega
  · simp only [List.length_append, List.length_cons]
    omega

/-- The loop that ends first in a run starts where the search to the left has
stopped. -/
theorem exists_partner_of_loopEnd {jump : Int64}
    (hencoded : Encoded (left ++ finish :: right))
    (hkind : finish.kind = .loopEnd)
    (htarget : Jumps.endTarget left.reverse finish right = .ok jump) :
    ∃ opening run : ℕ,
      Partners (commands (left ++ finish :: right)) opening (size left) ∧
        Holds (left ++ finish :: right) run opening ∧
        jump.toInt - 1 = run ∧ 0 < jump.toInt ∧ jump.toInt < left.length := by
  obtain ⟨outer, start, inner, rfl, hopening, hstart, hpositive, hle⟩ :=
    Jumps.exists_opening hencoded hkind
  have hcount := Instruction.one_le_count
    (hencoded.one_le_times finish (by simp))
  have hlevel := hpositive.start_pos
  have hlength := hencoded.length_lt
  simp only [List.length_append, List.length_cons] at hlength
  rw [Jumps.endTarget, hopening] at htarget
  dsimp only at htarget
  split at htarget
  · cases htarget
  rename_i hbody
  rw [Except.ok.injEq] at htarget
  simp only [List.length_reverse, List.length_append, List.length_cons]
    at hbody
  have hjump : jump.toInt = outer.length + 1 := by
    rw [← htarget, Words.toInt_ofNat_add_one (by omega)]
  -- as many loops are open before the body as it closes
  obtain ⟨opened, hopened⟩ := Int.eq_ofNat_of_zero_le
    (show 0 ≤ -change Instruction.rise inner by omega)
  have hpartners : Partners
      (commands (outer ++ start :: (inner ++ finish :: right)))
      (size outer + (start.count - opened - 1))
      (size outer + start.count + size inner + 0) :=
    partners_commands
    (by simpa using hencoded.isCommand) hstart hkind
    (show start.count = start.count - opened - 1 + (opened + 1) by omega)
    (show finish.count = 0 + (finish.count - 1 + 1) by omega)
    (by rwa [show (opened : ℤ) + 1 = 1 - change Instruction.rise inner by omega])
    (by push_cast; omega)
  have hsplit : outer ++ start :: inner ++ finish :: right =
      outer ++ start :: (inner ++ finish :: right) := by simp
  rw [hsplit, size_append, size_cons, ← add_assoc]
  refine ⟨_, outer.length, hpartners, ?_, ?_, ?_, ?_⟩
  · apply holds_append_length <;> omega
  · rw [hjump]
    ring
  · omega
  · rw [List.length_append, List.length_cons]
    omega

theorem holds_congr {program instructions : Program}
    (hbare : program.map Instruction.bare =
      instructions.map Instruction.bare) {position place : ℕ} :
    Holds program position place ↔ Holds instructions position place := by
  rw [Holds, Holds, offset_congr hbare, offset_congr hbare]

/-- The jumps of a parsed program are those of bracket matching on the single
commands of its source. -/
theorem parse_jump_eq_partner {source : Bytes} {program : Program}
    (hsize : source.length < 2 ^ 63) (hparse : parse source = .ok program)
    {position : ℕ} {instruction : Instruction}
    (hget : program[position]? = some instruction) :
    (instruction.kind = .loopStart →
        ∃ closing run : ℕ,
          (∀ other, Partners (Source.commands source)
            (program.offset position) other ↔ other = closing) ∧
          program.Holds run closing ∧ instruction.jump.toInt + 1 = run ∧
          position < instruction.jump.toInt ∧
          instruction.jump.toInt < program.length - 1) ∧
      (instruction.kind = .loopEnd →
        ∃ opening run : ℕ,
          (∀ other, Partners (Source.commands source) other
            (program.offset position) ↔ other = opening) ∧
          program.Holds run opening ∧ instruction.jump.toInt - 1 = run ∧
          0 < instruction.jump.toInt ∧ instruction.jump.toInt < position) ∧
      (instruction.kind ≠ .loopStart → instruction.kind ≠ .loopEnd →
        instruction.jump = 0) := by
  obtain ⟨hbalanced, hresolve⟩ := parse_eq_ok_iff.mp hparse
  have hencoded := encoded_of_encode hsize
    (encode_eq_ok_iff.mpr ⟨hbalanced, rfl⟩)
  have hchain := (Jumps.resolve_isOk_iff hencoded).mp ⟨program, hresolve⟩
  have hlinked := Jumps.linked_of_resolve hresolve
  have hlength := (Source.length_commands_le source).trans_lt hsize
  have hruns := (RunLength.canonical_runs hlength).areRuns
  rw [offset_congr hlinked.map_bare, hlinked.length_eq]
  simp only [holds_congr hlinked.map_bare]
  obtain ⟨left, original, right, hsplit, rfl, hkind, hstart, hend, hother⟩ :=
    hlinked.exists_original hget
  have hcommands := RunLength.commands_runs hlength
  rw [hsplit] at hcommands hencoded hchain hruns ⊢
  rw [← hcommands, offset_append_length]
  refine ⟨fun hloop => ?_, fun hloop => ?_, fun hnstart hnend => ?_⟩
  · obtain ⟨closing, run, hpartners, hholds, hrest⟩ :=
      exists_partner_of_loopStart hencoded (hkind.trans hloop) hchain
        (hstart hloop)
    exact ⟨closing, run, fun other =>
      ⟨fun h => h.closing_unique hpartners, fun h => h ▸ hpartners⟩,
      hholds, hrest⟩
  · obtain ⟨opening, run, hpartners, hholds, hrest⟩ :=
      exists_partner_of_loopEnd hencoded (hkind.trans hloop) (hend hloop)
    exact ⟨opening, run, fun other =>
      ⟨fun h => h.opening_unique hpartners, fun h => h ▸ hpartners⟩,
      hholds, hrest⟩
  · rw [← hother hnstart hnend]
    exact (hruns left.length original (by simp)).jump_eq

theorem parse_jump_eq_partner_nested :
    ∃ (program : Program) (start : Instruction),
      parse [91, 91, 43, 93, 43, 93] = .ok program ∧
        program[0]? = some start ∧ start.kind = .loopStart ∧
        ∃ closing run : ℕ,
          (∀ other, Partners (Source.commands [91, 91, 43, 93, 43, 93])
            (program.offset 0) other ↔ other = closing) ∧
          program.Holds run closing ∧ start.jump.toInt + 1 = run ∧
          (0 : ℕ) < start.jump.toInt ∧
          start.jump.toInt < program.length - 1 := by
  have hparse : parse [91, 91, 43, 93, 43, 93] = .ok
      [⟨0, .loopStart, 2, 3⟩, ⟨1, .of .increment, 1, 0⟩,
        ⟨2, .loopEnd, 1, 1⟩, ⟨3, .of .increment, 1, 0⟩,
        ⟨4, .loopEnd, 1, 1⟩] := rfl
  exact ⟨_, ⟨0, .loopStart, 2, 3⟩, hparse, rfl, rfl,
    (parse_jump_eq_partner (by decide) hparse rfl).1 rfl⟩

end Program

end BrainfuckFront
