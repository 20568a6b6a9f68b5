import Mathlib
import BrainfuckFront.Proofs.Failures
import BrainfuckFront.Proofs.Matching

/-!
# Places in a program

A command has two addresses: its offset in the source and the run that it
belongs to.  Where a run ends is decided in three ways.  The encoder compares a
command with the kind of the last instruction, the index of an offset is found
by comparing neighbouring commands, and the offset of a run by adding up
repeats.  All three cut every word at the same places, so that the two addresses
determine each other, and a parse error never names two different places.
-/

namespace BrainfuckFront

namespace Program

variable {program : Program} {run place : ℕ}

theorem holds_zero_cons {first : Instruction} (hlt : place < first.count) :
    Holds (first :: program) 0 place := by
  rw [Holds, offset_cons_succ]
  exact ⟨Nat.zero_le place, hlt.trans_le (Nat.le_add_right _ _)⟩

theorem Holds.cons (hholds : program.Holds run place)
    (first : Instruction) :
    Holds (first :: program) (run + 1) (first.count + place) := by
  rw [Holds, offset_cons_succ, offset_cons_succ]
  exact ⟨Nat.add_le_add_left hholds.1 _, Nat.add_lt_add_left hholds.2 _⟩

theorem Holds.lt_offset_add_count {instruction : Instruction}
    (hholds : program.Holds run place)
    (hget : program[run]? = some instruction) :
    place < program.offset run + instruction.count := by
  obtain ⟨left, right, rfl, rfl⟩ := Jumps.exists_split hget
  have hupper := hholds.2
  rwa [offset_append_length_succ, ← offset_append_length left] at hupper

theorem offset_length (program : Program) :
    program.offset program.length = size program := by
  rw [offset, List.take_length]

theorem Holds.place_lt_size (hholds : program.Holds run place) :
    place < size program := by
  rw [← offset_length]
  exact hholds.2.trans_le (program.offset_mono hholds.run_lt_length)

end Program

namespace RunLength

open Program (Encoded Holds size)

variable {program : Program} {current : Instruction} {command : Command}
variable {word : List Command} {position run place : ℕ}

/-- The run that the encoder is in becomes the first one, with all that it holds
already. -/
theorem holds_zero_runsFrom (htimes : 1 ≤ current.times)
    (hbound : current.count + word.length < 2 ^ 63)
    (hplace : place < current.count) : Holds (runsFrom current word) 0 place := by
  induction word generalizing current with
  | nil => exact Program.holds_zero_cons hplace
  | cons next word ih =>
      rw [List.length_cons] at hbound
      rw [runsFrom]
      by_cases hnext : current.kind = .of next
      · have hcount := Instruction.count_addRepeat htimes (by omega)
        rw [if_pos hnext]
        exact ih (Instruction.one_le_times_addRepeat htimes (by omega))
          (by omega) (by omega)
      · rw [if_neg hnext]
        exact Program.holds_zero_cons hplace

/-- From the last command of the run that the encoder is in, the changes from one
command to the next count the runs. -/
theorem holds_runsFrom {repeats : ℕ} (hkind : current.kind = .of command)
    (htimes : 1 ≤ current.times) (hcount : current.count = repeats + 1)
    (hbound : repeats + 1 + word.length < 2 ^ 63)
    (hplace : place ≤ word.length) :
    Holds (runsFrom current word) (changes command place word)
      (repeats + place) := by
  induction place generalizing current command word repeats with
  | zero =>
      rw [changes]
      exact holds_zero_runsFrom htimes (by omega) (by omega)
  | succ place ih =>
      cases word with
      | nil => exact absurd hplace (Nat.not_succ_le_zero place)
      | cons next word =>
          rw [List.length_cons] at hbound hplace
          rw [runsFrom, changes]
          by_cases hnext : current.kind = .of next
          · have hsame : next = command := by
              simpa [hkind, eq_comm] using hnext
            have hcount' := Instruction.count_addRepeat htimes (by omega)
            rw [if_pos hnext, if_pos hsame, zero_add, add_comm place,
              ← add_assoc]
            exact ih hnext
              (Instruction.one_le_times_addRepeat htimes (by omega))
              (by omega) (by omega) (by omega)
          · have hchange : next ≠ command := fun hsame =>
              hnext (hsame ▸ hkind)
            have hholds : Holds
                (runsFrom (.single (current.index + 1) next) word)
                (changes next place word) (0 + place) :=
              ih rfl (Instruction.one_le_times_single _ next) rfl (by omega)
                (by omega)
            rw [if_neg hnext, if_neg hchange, add_comm 1, add_comm place,
              ← add_assoc, ← hcount]
            rw [zero_add] at hholds
            exact hholds.cons current

/-- Every command belongs to the run that its index names. -/
theorem exists_holds (hlength : word.length < 2 ^ 63)
    (hplace : place < word.length) :
    ∃ run, Holds (runs word) run place ∧
      indexAt word (Int64.ofNat place) = Int64.ofNat run := by
  cases word with
  | nil => exact absurd hplace (Nat.not_lt_zero place)
  | cons command word =>
      rw [List.length_cons] at hlength hplace
      have hholds : Holds (runs (command :: word))
          (changes command place word) (0 + place) :=
        holds_runsFrom rfl (Instruction.one_le_times_single 0 command) rfl
          (by omega) (Nat.le_of_lt_succ hplace)
      rw [zero_add] at hholds
      refine ⟨changes command place word, hholds, ?_⟩
      rw [indexAt, Int64.toNatClampNeg_ofNat_of_lt (by omega)]

theorem indexAt_of_holds (hlength : word.length < 2 ^ 63)
    (hholds : Holds (runs word) run place) :
    indexAt word (Int64.ofNat place) = Int64.ofNat run := by
  have hplace := hholds.place_lt_size
  rw [Program.size_runs hlength] at hplace
  obtain ⟨found, hfound, hindex⟩ := exists_holds hlength hplace
  rw [hindex, hfound.run_unique hholds]

/-- Comparing neighbours from the left counts the symbols that differ from the
one before. -/
theorem changes_eq_count {Symbol : Type} [DecidableEq Symbol]
    {previous : Symbol} {symbols : List Symbol} {count : ℕ}
    (hcount : count ≤ symbols.length) :
    changes previous count symbols =
      Nat.count (fun place => (previous :: symbols)[place + 1]? ≠
        (previous :: symbols)[place]?) count := by
  induction count generalizing previous symbols with
  | zero => rfl
  | succ count ih =>
      cases symbols with
      | nil => exact absurd hcount (Nat.not_succ_le_zero count)
      | cons symbol symbols =>
          rw [changes, ih (Nat.le_of_succ_le_succ hcount), Nat.count_succ',
            add_comm]
          congr 1
          by_cases hsame : symbol = previous <;> simp [hsame]

theorem changes_le {Symbol : Type} [DecidableEq Symbol] {previous : Symbol}
    {symbols : List Symbol} {count : ℕ} (hcount : count ≤ symbols.length) :
    changes previous count symbols ≤ count := by
  rw [changes_eq_count hcount]
  exact Nat.count_le _

theorem count_succ_eq_card (differs : ℕ → Prop) [DecidablePred differs]
    (place : ℕ) :
    Nat.count (fun earlier => differs (earlier + 1)) place =
      ((Finset.Icc 1 place).filter differs).card := by
  induction place with
  | zero => simp
  | succ place ih =>
      rw [Nat.count_succ, ih,
        ← Finset.insert_Icc_right_eq_Icc_add_one (Nat.succ_le_succ
          (Nat.zero_le place)), Finset.filter_insert]
      split
      · rw [Finset.card_insert_of_notMem (by simp)]
      · rfl

/-- The index of an offset is the number of commands up to it that differ from
the one before. -/
theorem toInt_indexAt (hlength : word.length < 2 ^ 63)
    (hplace : place < word.length) :
    (indexAt word (Int64.ofNat place)).toInt =
      ((Finset.Icc 1 place).filter fun later =>
        word[later]? ≠ word[later - 1]?).card := by
  cases word with
  | nil => exact absurd hplace (Nat.not_lt_zero place)
  | cons first word =>
      have hcount : changes first place word =
          ((Finset.Icc 1 place).filter fun later =>
            (first :: word)[later]? ≠ (first :: word)[later - 1]?).card := by
        rw [changes_eq_count (Nat.le_of_lt_succ hplace), ← count_succ_eq_card]
        rfl
      have hle : changes first place word ≤ place :=
        changes_le (Nat.le_of_lt_succ hplace)
      rw [indexAt, Int64.toNatClampNeg_ofNat_of_lt (hplace.trans hlength),
        Int64.toInt_ofNat_of_lt (hle.trans_lt (hplace.trans hlength)), hcount]

theorem ofNat_count {instruction : Instruction}
    (htimes : 1 ≤ instruction.times) :
    Int64.ofNat instruction.count = instruction.times :=
  Int64.ofNat_toNatClampNeg _ (Int64.le_trans (by decide) htimes)

/-- Adding up repeats gives the number of commands, wrapped around as it may
be. -/
theorem total_eq_ofNat
    (htimes : ∀ instruction ∈ program, 1 ≤ instruction.times) :
    total program = Int64.ofNat (size program) := by
  suffices hsum : ∀ sum : Int64,
      program.foldl (fun sum instruction => sum + instruction.times) sum =
        sum + Int64.ofNat (size program) by
    rw [total, hsum, Int64.zero_add]
  induction program with
  | nil =>
      intro sum
      exact (Int64.add_zero sum).symm
  | cons instruction program ih =>
      obtain ⟨hfirst, hrest⟩ := List.forall_mem_cons.mp htimes
      intro sum
      rw [List.foldl_cons, ih hrest, Program.size_cons, Int64.ofNat_add,
        ofNat_count hfirst, Int64.add_assoc]

theorem offsetOf_eq_total (hlength : program.length < 2 ^ 63)
    (hposition : position ≤ program.length) :
    offsetOf program (Int64.ofNat position) =
      .ok (total (program.take position)) := by
  have hbound := hposition.trans_lt hlength
  have hnonneg : 0 ≤ Int64.ofNat position := by
    rw [Int64.le_iff_toInt_le, Int64.toInt_ofNat_of_lt hbound,
      Int64.toInt_zero]
    omega
  rw [offsetOf, Int64.toNatClampNeg_ofNat_of_lt hbound,
    if_pos ⟨hnonneg, hposition⟩]

theorem offsetOf_ofNat (hencoded : Encoded program)
    (hposition : position ≤ program.length) :
    offsetOf program (Int64.ofNat position) =
      .ok (Int64.ofNat (program.offset position)) := by
  rw [offsetOf_eq_total hencoded.length_lt hposition, total_eq_ofNat,
    Program.offset]
  intro instruction hmem
  exact hencoded.one_le_times instruction (List.mem_of_mem_take hmem)

/-- The index of the first command of a run is that of the run. -/
theorem exists_offsetOf (hlength : word.length < 2 ^ 63)
    (hencoded : Encoded (runs word)) (hposition : position < (runs word).length) :
    ∃ offset, offsetOf (runs word) (Int64.ofNat position) = .ok offset ∧
      (indexAt word offset).toInt = position := by
  have hget := List.getElem?_eq_getElem hposition
  have hholds := Program.holds_offset hget
    (hencoded.one_le_times _ (List.mem_of_getElem? hget))
  refine ⟨_, offsetOf_ofNat hencoded hposition.le, ?_⟩
  rw [indexAt_of_holds hlength hholds,
    Int64.toInt_ofNat_of_lt (hposition.trans hencoded.length_lt)]

/-- A command lies between the offset of the run that its index names and the
end of that run, and is of its kind. -/
theorem exists_indexAt (hlength : word.length < 2 ^ 63)
    (hencoded : Encoded (runs word)) (hplace : place < word.length) :
    ∃ (run : ℕ) (instruction : Instruction) (offset : Int64),
      (indexAt word (Int64.ofNat place)).toInt = run ∧
        run < (runs word).length ∧ (runs word)[run]? = some instruction ∧
        offsetOf (runs word) (Int64.ofNat run) = .ok offset ∧
        offset.toInt ≤ place ∧
        place < offset.toInt + instruction.times.toInt ∧
        word[place]?.map Kind.of = some instruction.kind := by
  obtain ⟨run, hholds, hindex⟩ := exists_holds hlength hplace
  obtain ⟨instruction, command, hget, hkind, hcommand, -⟩ :=
    hholds.exists_kind hencoded.isCommand
  have hrun := hholds.run_lt_length
  have hlower := hholds.1
  have hupper := hholds.lt_offset_add_count hget
  have htimes := Instruction.toInt_times
    (hencoded.one_le_times instruction (List.mem_of_getElem? hget))
  have hoffset := Int64.toInt_ofNat_of_lt
    (hlower.trans_lt (hplace.trans hlength))
  refine ⟨run, instruction, _, ?_, hrun, hget,
    offsetOf_ofNat hencoded hrun.le, ?_, ?_, ?_⟩
  · rw [hindex, Int64.toInt_ofNat_of_lt (hrun.trans hencoded.length_lt)]
  · rw [hoffset]
    exact_mod_cast hlower
  · rw [hoffset, htimes]
    exact_mod_cast hupper
  · rw [commands_runs hlength] at hcommand
    rw [hcommand, Option.map_some, hkind]

theorem exists_offsetOf_length (hlength : word.length < 2 ^ 63)
    (hencoded : Encoded (runs word)) :
    ∃ offset,
      offsetOf (runs word) (Int64.ofNat (runs word).length) = .ok offset ∧
        offset.toInt = word.length := by
  refine ⟨_, offsetOf_ofNat hencoded le_rfl, ?_⟩
  rw [Program.offset_length, Program.size_runs hlength,
    Int64.toInt_ofNat_of_lt hlength]

end RunLength

namespace Jumps

open Program (Encoded Holds size)

variable {left right : Program} {start finish : Instruction}

/-- An empty loop is reported at the first command of the run that closes
it. -/
theorem emptyLoop_eq (hencoded : Encoded (left ++ start :: finish :: right)) :
    emptyLoop (start :: left.reverse) = .parse {
      fault := .infiniteLoop
      offset := Int64.ofNat (size left + start.count)
      instruction := Int64.ofNat (left.length + 1)
      unexpected := false } := by
  have hsplit : left ++ start :: finish :: right =
      (left ++ [start]) ++ finish :: right := by simp
  have htimes := hencoded.one_le_times
  rw [hsplit, List.forall_mem_append] at htimes
  rw [emptyLoop, List.reverse_cons, List.reverse_reverse,
    RunLength.total_eq_ofNat htimes.1, Program.size_append, Program.size_cons,
    Program.size_nil, add_zero, List.length_cons, List.length_reverse]

theorem holds_emptyLoop (hencoded : Encoded (left ++ start :: finish :: right)) :
    Holds (left ++ start :: finish :: right) (left.length + 1)
      (size left + start.count) := by
  have hcount := Instruction.one_le_count
    (hencoded.one_le_times finish (by simp))
  have hholds : Holds (left ++ start :: ([] ++ finish :: right))
      (left.length + ([] : Program).length + 1) (size left + start.count) :=
    Program.holds_after_body le_rfl (by rw [Program.size_nil]; omega)
  exact hholds

end Jumps

namespace Program

variable {source : Bytes}

/-- A bracket without a partner and an empty loop are both reported with the run
that their offset lies in. -/
theorem instruction_of_parse_error {error : ParseError}
    (hsize : source.length < 2 ^ 63)
    (hparse : parse source = .error (.parse error)) :
    error.instruction =
      RunLength.indexAt (Source.commands source) error.offset := by
  obtain ⟨mismatch, -, hreported⟩ |
    ⟨left, start, finish, right, hencode, -, -, hreported⟩ :=
      parse_error_cases hsize hparse
  · rw [Failure.parse.injEq] at hreported
    rw [hreported]
    rfl
  · have hencoded := encoded_of_encode hsize hencode
    have hholds := Jumps.holds_emptyLoop hencoded
    rw [Jumps.emptyLoop_eq hencoded, Failure.parse.injEq] at hreported
    rw [← (encode_eq_ok_iff.mp hencode).2] at hholds
    rw [hreported, RunLength.indexAt_of_holds
      ((Source.length_commands_le source).trans_lt hsize) hholds]

/-- The offset of a run and the index of an offset lead back to each other in
every encoded program, and every parse error names one place by both. -/
theorem offsetOf_inverse_indexAt (hsize : source.length < 2 ^ 63) :
    (∀ program, encode source = .ok program →
        (∀ position < program.length, ∃ offset : Int64,
          RunLength.offsetOf program (Int64.ofNat position) = .ok offset ∧
            (RunLength.indexAt (Source.commands source) offset).toInt =
              position) ∧
          (∀ place < (Source.commands source).length,
            ∃ (run : ℕ) (instruction : Instruction) (offset : Int64),
              (RunLength.indexAt (Source.commands source)
                  (Int64.ofNat place)).toInt = run ∧
                run < program.length ∧ program[run]? = some instruction ∧
                RunLength.offsetOf program (Int64.ofNat run) = .ok offset ∧
                offset.toInt ≤ place ∧
                place < offset.toInt + instruction.times.toInt ∧
                (Source.commands source)[place]?.map Kind.of =
                  some instruction.kind) ∧
          ∃ offset : Int64,
            RunLength.offsetOf program (Int64.ofNat program.length) =
                .ok offset ∧
              offset.toInt = (Source.commands source).length) ∧
      ∀ error : ParseError, parse source = .error (.parse error) →
        error.instruction =
          RunLength.indexAt (Source.commands source) error.offset := by
  have hlength := (Source.length_commands_le source).trans_lt hsize
  refine ⟨?_, fun error => instruction_of_parse_error hsize⟩
  intro program hencode
  have hencoded := encoded_of_encode hsize hencode
  obtain ⟨-, rfl⟩ := encode_eq_ok_iff.mp hencode
  exact ⟨fun position => RunLength.exists_offsetOf hlength hencoded,
    fun place => RunLength.exists_indexAt hlength hencoded,
    RunLength.exists_offsetOf_length hlength hencoded⟩

theorem offsetOf_inverse_indexAt_nested :
    (∃ (program : Program) (run : ℕ) (instruction : Instruction)
        (offset : Int64),
      encode [43, 43, 91, 91, 45, 93, 62, 93] = .ok program ∧
        (RunLength.indexAt
          (Source.commands [43, 43, 91, 91, 45, 93, 62, 93])
          (Int64.ofNat 3)).toInt = run ∧
        program[run]? = some instruction ∧
        RunLength.offsetOf program (Int64.ofNat run) = .ok offset ∧
        offset.toInt ≤ (3 : ℕ) ∧
        (3 : ℕ) < offset.toInt + instruction.times.toInt ∧
        instruction.kind = .loopStart) ∧
      ∃ error : ParseError,
        parse [43, 91, 33, 93] = .error (.parse error) ∧
          error.instruction = RunLength.indexAt
            (Source.commands [43, 91, 33, 93]) error.offset := by
  constructor
  · have hencode : encode [43, 43, 91, 91, 45, 93, 62, 93] = .ok
        [⟨0, .of .increment, 2, 0⟩, ⟨1, .loopStart, 2, 0⟩,
          ⟨2, .of .decrement, 1, 0⟩, ⟨3, .loopEnd, 1, 0⟩,
          ⟨4, .of .right, 1, 0⟩, ⟨5, .loopEnd, 1, 0⟩] := rfl
    obtain ⟨run, instruction, offset, hindex, -, hget, hoffset, hlower, hupper,
      hkind⟩ :=
        ((offsetOf_inverse_indexAt (by decide)).1 _ hencode).2.1 3 (by decide)
    exact ⟨_, run, instruction, offset, hencode, hindex, hget, hoffset, hlower,
      hupper, (Option.some.inj hkind).symm⟩
  · have hparse : parse [43, 91, 33, 93] =
        .error (.parse ⟨.infiniteLoop, 2, 2, false⟩) := rfl
    exact ⟨_, hparse, (offsetOf_inverse_indexAt (by decide)).2 _ hparse⟩

end Program

end BrainfuckFront
