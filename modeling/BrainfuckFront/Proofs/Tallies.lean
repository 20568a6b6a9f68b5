import Mathlib
import BrainfuckFront.Proofs.Filtering
import BrainfuckFront.Proofs.Maps
import BrainfuckFront.Proofs.Matching
import BrainfuckFront.Proofs.Places

/-!
# Tallies

Encoding merges equal neighbours into runs, and the tally of a program adds the
runs of each kind up again, wherever they stand.  Nothing is lost or counted
twice on the way, so the tally of a source says how often each command stands in
it.
-/

namespace BrainfuckFront

theorem Command.byte_injective : Function.Injective byte :=
  injective_of_nodup_map (by decide)

namespace Source

theorem byte_mem_filtered_iff {source : Bytes} {command : Command} :
    command.byte ∈ filtered source ↔ command ∈ commands source :=
  List.mem_map_of_injective Command.byte_injective

theorem count_byte_filtered (source : Bytes) (command : Command) :
    (filtered source).count command.byte = (commands source).count command :=
  List.count_map_of_injective _ _ Command.byte_injective command

end Source

namespace Kind

theorem ofCode_code (kind : Kind) : ofCode kind.code = kind := by
  cases kind with
  | of command => cases command <;> rfl
  | reserved code high => exact dif_pos high

theorem code_ofCode (code : UInt8) : (ofCode code).code = code := by
  by_cases high : 14 ≤ code
  · rw [ofCode, dif_pos high, Kind.code]
  · have hall : ∀ place : Fin Command.all.length,
        (Command.all.get place).code = UInt8.ofNat place := by decide
    rw [ofCode, dif_neg high, Kind.code, hall, UInt8.ofNat_toNat]

theorem mem_all (kind : Kind) : kind ∈ all := by
  have hlt : kind.code.toNat < 256 := kind.code.toNat_lt
  apply List.mem_map.mpr
  refine ⟨kind.code.toNat, List.mem_range.mpr hlt, ?_⟩
  rw [UInt8.ofNat_toNat, ofCode_code]

/-- Every kind is listed once. -/
theorem nodup_all : all.Nodup := by
  apply List.nodup_range.map_on
  intro first hfirst second hsecond hsame
  rw [List.mem_range] at hfirst hsecond
  have hcode := congrArg Kind.code hsame
  rw [code_ofCode, code_ofCode, ← UInt8.toNat_inj, UInt8.toNat_ofNat',
    UInt8.toNat_ofNat', Nat.mod_eq_of_lt hfirst,
    Nat.mod_eq_of_lt hsecond] at hcode
  exact hcode

end Kind

theorem Instruction.count_commands (instruction : Instruction)
    (command : Command) :
    instruction.commands.count command =
      if instruction.kind = .of command then instruction.count else 0 := by
  cases hkind : instruction.kind with
  | of other =>
      rw [commands_of_kind hkind, List.count_replicate]
      simp [Kind.of.injEq]
  | reserved code high => simp [commands, hkind]

namespace Program

variable {program : Program} {kind : Kind} {command : Command} {total : Int64}

/-- The number of commands of one kind. -/
def totalOf (program : Program) (kind : Kind) : Int64 :=
  RunLength.total (program.filter fun instruction => instruction.kind == kind)

theorem get?_addCount (counts : FiniteMap Kind Int64)
    (instruction : Instruction) (kind : Kind) :
    (addCount counts instruction).get? kind =
      if kind = instruction.kind then
        some ((counts.get? kind).getD 0 + instruction.times)
      else counts.get? kind := by
  rw [addCount, FiniteMap.get?_insert]
  by_cases hkind : kind = instruction.kind
  · rw [if_pos hkind, if_pos hkind, hkind]
  · rw [if_neg hkind, if_neg hkind]

/-- Counting goes on from what was counted before, and leaves a kind alone that
does not occur. -/
theorem get?_foldl_addCount (counts : FiniteMap Kind Int64)
    (program : Program) (kind : Kind) :
    (program.foldl addCount counts).get? kind =
      if program.any fun instruction => instruction.kind == kind then
        some ((program.filter fun instruction =>
          instruction.kind == kind).foldl
            (fun sum instruction => sum + instruction.times)
            ((counts.get? kind).getD 0))
      else counts.get? kind := by
  induction program generalizing counts with
  | nil => rfl
  | cons instruction program ih =>
      rw [List.foldl_cons, ih, get?_addCount, List.any_cons]
      by_cases hkind : instruction.kind = kind
      · have hoccurs : (instruction.kind == kind ||
            program.any fun instruction => instruction.kind == kind) =
              true := by
          rw [beq_iff_eq.mpr hkind, Bool.true_or]
        rw [if_pos hkind.symm, if_pos hoccurs, Option.getD_some,
          List.filter_cons_of_pos (by simpa using hkind), List.foldl_cons]
        by_cases hagain : (program.any fun instruction =>
            instruction.kind == kind) = true
        · rw [if_pos hagain]
        · have hnone : (program.filter fun instruction =>
              instruction.kind == kind) = [] := by
            simpa [List.filter_eq_nil_iff] using hagain
          rw [if_neg hagain, hnone, List.foldl_nil]
      · have hother : (instruction.kind == kind) = false :=
          beq_eq_false_iff_ne.mpr hkind
        rw [if_neg (Ne.symm hkind), hother, Bool.false_or,
          List.filter_cons_of_neg (by simpa using hkind)]

theorem get?_counts (program : Program) (kind : Kind) :
    program.counts.get? kind =
      if program.any fun instruction => instruction.kind == kind then
        some (program.totalOf kind)
      else none :=
  get?_foldl_addCount .empty program kind

/-- Counting instruction by instruction gives each kind its total. -/
theorem tally_eq (program : Program) :
    program.tally =
      (Kind.all.filter fun kind =>
          program.any fun instruction => instruction.kind == kind).map
        fun kind => (kind, program.totalOf kind) :=
  FiniteMap.entriesBy_of_get? program.get?_counts Kind.all

theorem mem_tally_iff :
    (kind, total) ∈ program.tally ↔
      (∃ instruction ∈ program, instruction.kind = kind) ∧
        total = program.totalOf kind := by
  rw [tally_eq, List.mem_map]
  constructor
  · rintro ⟨other, hother, hpair⟩
    rw [Prod.mk.injEq] at hpair
    obtain ⟨rfl, rfl⟩ := hpair
    have hoccurs := (List.mem_filter.mp hother).2
    exact ⟨by simpa using hoccurs, rfl⟩
  · rintro ⟨hoccurs, rfl⟩
    refine ⟨kind, List.mem_filter.mpr ⟨kind.mem_all, ?_⟩, rfl⟩
    simpa using hoccurs

theorem nodup_keys_tally (program : Program) :
    (program.tally.map Prod.fst).Nodup := by
  rw [tally_eq, List.map_map]
  exact (Kind.nodup_all.filter _).map fun _ _ hsame => hsame

/-- Spelled out, a program holds as many commands of a kind as its runs of that
kind say together. -/
theorem count_commands (program : Program) (command : Command) :
    program.commands.count command =
      size (program.filter fun instruction =>
        instruction.kind == .of command) := by
  induction program with
  | nil => rfl
  | cons instruction program ih =>
      rw [commands_cons, List.count_append, ih, Instruction.count_commands]
      by_cases hkind : instruction.kind = .of command
      · rw [if_pos hkind, List.filter_cons_of_pos (by simpa using hkind),
          size_cons]
      · rw [if_neg hkind, List.filter_cons_of_neg (by simpa using hkind),
          zero_add]

section Encoded

variable (hencoded : Encoded program)

include hencoded

/-- The total of a kind does not overflow, as there are fewer than `2 ^ 63`
commands at all. -/
theorem Encoded.toInt_totalOf (command : Command) :
    (program.totalOf (.of command)).toInt =
      program.commands.count command := by
  have htimes : ∀ instruction ∈ program.filter fun instruction =>
      instruction.kind == .of command, 1 ≤ instruction.times :=
    fun instruction hmem =>
      hencoded.one_le_times instruction (List.mem_of_mem_filter hmem)
  have hbound : program.commands.count command < 2 ^ 63 := by
    apply List.count_le_length.trans_lt
    rw [length_commands hencoded.isCommand]
    exact hencoded.size_lt
  rw [totalOf, RunLength.total_eq_ofNat htimes, ← count_commands,
    Int64.toInt_ofNat_of_lt hbound]

theorem Encoded.mem_commands_iff :
    command ∈ program.commands ↔
      ∃ instruction ∈ program, instruction.kind = .of command := by
  rw [commands, List.mem_flatMap]
  apply exists_congr
  intro instruction
  apply and_congr_right
  intro hmem
  have hcount := Instruction.one_le_count
    (hencoded.one_le_times instruction hmem)
  rw [← List.count_pos_iff, Instruction.count_commands]
  by_cases hkind : instruction.kind = .of command
  · rw [if_pos hkind]
    exact iff_of_true hcount hkind
  · rw [if_neg hkind]
    exact iff_of_false (lt_irrefl 0) hkind

theorem Encoded.of_mem_tally_iff :
    (.of command, total) ∈ program.tally ↔ command ∈ program.commands ∧
      total.toInt = program.commands.count command := by
  rw [mem_tally_iff, ← hencoded.mem_commands_iff, ← Int64.toInt_inj,
    hencoded.toInt_totalOf]

/-- As many loops are opened as are closed. -/
theorem Encoded.loopStart_mem_tally_iff :
    (.loopStart, total) ∈ program.tally ↔
      (.loopEnd, total) ∈ program.tally := by
  have hchange := (Brackets.balanced_iff.mp hencoded.balanced).2
  have hcount : program.commands.count .openLoop =
      program.commands.count .closeLoop := by
    rw [Brackets.change_rise] at hchange
    omega
  rw [hencoded.of_mem_tally_iff, hencoded.of_mem_tally_iff,
    ← List.count_pos_iff, ← List.count_pos_iff, hcount]

end Encoded

variable {source : Bytes}

theorem encoded_and_commands (hsize : source.length < 2 ^ 63)
    (hresult : encode source = .ok program ∨ parse source = .ok program) :
    Encoded program ∧ program.commands = Source.commands source := by
  obtain hencode | hparse := hresult
  · refine ⟨encoded_of_encode hsize hencode, ?_⟩
    obtain ⟨-, rfl⟩ := encode_eq_ok_iff.mp hencode
    exact RunLength.commands_runs
      ((Source.length_commands_le source).trans_lt hsize)
  · exact ⟨encoded_of_parse hsize hparse, commands_of_parse hsize hparse⟩

/-- The tally of an encoded or parsed source has a key for each command that is
left of the source without its comments, and the number of its occurrences as
value.  Loops are opened as often as they are closed, and there are no more runs
than commands. -/
theorem tally_counts_commands (hsize : source.length < 2 ^ 63)
    (hresult : encode source = .ok program ∨ parse source = .ok program) :
    (program.tally.map Prod.fst).Nodup ∧
      (∀ (kind : Kind) (total : Int64), (kind, total) ∈ program.tally ↔
        ∃ command, kind = .of command ∧
          command.byte ∈ Source.filtered source ∧
          total.toInt = (Source.filtered source).count command.byte) ∧
      (∀ total : Int64, (.loopStart, total) ∈ program.tally ↔
        (.loopEnd, total) ∈ program.tally) ∧
      program.length ≤ (Source.filtered source).length := by
  obtain ⟨hencoded, hcommands⟩ := encoded_and_commands hsize hresult
  refine ⟨nodup_keys_tally program, ?_, ?_, ?_⟩
  · intro kind total
    simp only [Source.byte_mem_filtered_iff, Source.count_byte_filtered,
      ← hcommands]
    constructor
    · intro hmem
      obtain ⟨⟨instruction, hinstruction, rfl⟩, -⟩ := mem_tally_iff.mp hmem
      obtain ⟨command, hkind⟩ := hencoded.isCommand instruction hinstruction
      rw [hkind] at hmem
      exact ⟨command, hkind, hencoded.of_mem_tally_iff.mp hmem⟩
    · rintro ⟨command, rfl, hcount⟩
      exact hencoded.of_mem_tally_iff.mpr hcount
  · exact fun total => hencoded.loopStart_mem_tally_iff
  · rw [Source.filtered, List.length_map, ← hcommands,
      length_commands hencoded.isCommand]
    exact length_le_size hencoded.one_le_times

/-- Runs of one kind in several places, with a comment inside one of them. -/
theorem tally_counts_commands_split :
    ∃ program : Program,
      parse [43, 91, 43, 33, 43, 45, 93, 43] = .ok program ∧
        (Kind.of .increment, 4) ∈ program.tally ∧
        (Kind.loopEnd, 1) ∈ program.tally ∧
        (∀ total, (Kind.of .right, total) ∉ program.tally) ∧
        program.length ≤ 7 := by
  have hparse : ∃ program : Program,
      parse [43, 91, 43, 33, 43, 45, 93, 43] = .ok program := ⟨_, rfl⟩
  obtain ⟨program, hparse⟩ := hparse
  obtain ⟨-, hcounts, hloops, hlength⟩ :=
    tally_counts_commands (by decide) (Or.inr hparse)
  refine ⟨program, hparse, ?_, ?_, ?_, hlength⟩
  · exact (hcounts _ _).mpr ⟨.increment, rfl, by decide, by decide⟩
  · exact (hloops 1).mp
      ((hcounts _ _).mpr ⟨.openLoop, rfl, by decide, by decide⟩)
  · intro total hmem
    obtain ⟨command, hkind, hbyte, -⟩ := (hcounts _ _).mp hmem
    cases hkind
    revert hbyte
    decide

end Program

end BrainfuckFront
