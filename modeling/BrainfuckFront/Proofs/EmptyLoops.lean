import Mathlib
import BrainfuckFront.Proofs.Filtering
import BrainfuckFront.Proofs.Places

/-!
# Empty loops

A loop is empty when the command right after its opening bracket closes it.  The
parser looks for this on runs, where the end of a loop is stuck when the search
to the left stops at its neighbour.  Whatever loops a run may merge, the first
end that is stuck is the one that holds the closing bracket of the first empty
loop of the word, and the error names that bracket.  Brackets without a partner
come first: of a word that is not balanced no empty loop is reported.
-/

namespace BrainfuckFront

open Brackets (Balanced)

/-- The command at `place` opens a loop, and the next one closes it. -/
def EmptyLoopAt (word : List Command) (place : ℕ) : Prop :=
  word[place]? = some .openLoop ∧ word[place + 1]? = some .closeLoop

theorem emptyLoopFree_iff {word : List Command} :
    EmptyLoopFree word ↔ ∀ place, ¬EmptyLoopAt word place := by
  rw [EmptyLoopFree, List.isChain_iff_getElem]
  constructor
  · rintro hfree place ⟨hopen, hclose⟩
    obtain ⟨hlt, hclose⟩ := List.getElem?_eq_some_iff.mp hclose
    obtain ⟨_, hopen⟩ := List.getElem?_eq_some_iff.mp hopen
    exact hfree place hlt ⟨hopen, hclose⟩
  · rintro hfree place hlt ⟨hopen, hclose⟩
    apply hfree place
    rw [EmptyLoopAt, List.getElem?_eq_getElem hlt,
      List.getElem?_eq_getElem (Nat.lt_of_succ_lt hlt), hopen, hclose]
    exact ⟨rfl, rfl⟩

theorem EmptyLoopAt.of_append {front back : List Command} {place : ℕ}
    (hempty : EmptyLoopAt (front ++ back) place)
    (hlt : place + 1 < front.length) : EmptyLoopAt front place := by
  rwa [EmptyLoopAt, List.getElem?_append_left (Nat.lt_of_succ_lt hlt),
    List.getElem?_append_left hlt] at hempty

namespace Program

variable {program left right : Program} {instruction start finish : Instruction}
variable {command : Command} {run place : ℕ}

theorem Holds.getElem?_commands (hholds : program.Holds run place)
    (hencoded : Encoded program) (hget : program[run]? = some instruction)
    (hkind : instruction.kind = .of command) :
    program.commands[place]? = some command := by
  obtain ⟨found, command', hfound, hkind', hcommand, -⟩ :=
    hholds.exists_kind hencoded.isCommand
  rw [hget, Option.some.injEq] at hfound
  rw [← hfound, hkind, Kind.of.injEq] at hkind'
  rw [hcommand, hkind']

section Neighbours

variable (hencoded : Encoded (left ++ start :: finish :: right))
variable (hstart : start.kind = .loopStart) (hfinish : finish.kind = .loopEnd)

include hencoded hstart hfinish

/-- Where a run that opens loops meets one that closes loops, the last bracket of
the one and the first of the other make an empty loop. -/
theorem emptyLoopAt_commands :
    EmptyLoopAt (commands (left ++ start :: finish :: right))
      (size left + start.count - 1) := by
  have hcount := Instruction.one_le_count
    (hencoded.one_le_times start (by simp))
  have hopen : Holds (left ++ start :: finish :: right) left.length
      (size left + start.count - 1) :=
    holds_append_length (by omega) (by omega)
  have hclose := Jumps.holds_emptyLoop hencoded
  refine ⟨hopen.getElem?_commands hencoded (by simp) hstart, ?_⟩
  rw [Nat.sub_add_cancel (by omega)]
  exact hclose.getElem?_commands hencoded (by simp) hfinish

/-- If no such runs meet before, this empty loop is the first. -/
theorem isLeast_emptyLoopAt
    (hchain : (left ++ [start]).IsChain fun left right =>
      ¬(left.kind = .loopStart ∧ right.kind = .loopEnd)) :
    IsLeast {other | EmptyLoopAt
        (commands (left ++ start :: finish :: right)) other}
      (size left + start.count - 1) := by
  refine ⟨emptyLoopAt_commands hencoded hstart hfinish, ?_⟩
  intro place (hempty : EmptyLoopAt _ place)
  by_contra hlt
  have hsplit : left ++ start :: finish :: right =
      (left ++ [start]) ++ finish :: right := by simp
  have htimes := hencoded.one_le_times
  have hcommand := hencoded.isCommand
  rw [hsplit, List.forall_mem_append] at htimes hcommand
  have hfree := (emptyLoopFree_commands htimes.1 hcommand.1).mpr hchain
  rw [hsplit, commands_append] at hempty
  refine emptyLoopFree_iff.mp hfree place (hempty.of_append ?_)
  rw [length_commands hcommand.1, size_append, size_cons, size_nil]
  omega

end Neighbours

variable {source : Bytes} {failure : Failure}

theorem fault_of_encode_error {error : ParseError}
    (hencode : encode source = .error (.parse error)) :
    error.fault = .unclosedBrackets := by
  obtain ⟨mismatch, -, herror⟩ := encode_eq_error_iff.mp hencode
  rw [Failure.parse.injEq] at herror
  rw [herror]
  rfl

/-- What was encoded fails to parse at its first empty loop. -/
theorem parse_error_of_encode (hsize : source.length < 2 ^ 63)
    (hencode : encode source = .ok program)
    (hparse : parse source = .error failure) :
    ∃ (error : ParseError) (place run : ℕ), failure = .parse error ∧
      error.fault = .infiniteLoop ∧
      IsLeast {other | EmptyLoopAt (Source.commands source) other} place ∧
      error.offset.toInt = place + 1 ∧ program.Holds run (place + 1) ∧
      error.instruction.toInt = run ∧ error.unexpected = false := by
  have hencoded := encoded_of_encode hsize hencode
  have hcommands := RunLength.commands_runs
    ((Source.length_commands_le source).trans_lt hsize)
  rw [(encode_eq_ok_iff.mp hencode).2] at hcommands
  rw [parse_of_encode_ok hencode] at hparse
  obtain ⟨left, start, finish, right, rfl, hstart, hfinish, hchain, rfl⟩ :=
    Jumps.resolve_eq_error hencoded hparse
  have hcount := Instruction.one_le_count
    (hencoded.one_le_times start (by simp))
  have hclose : size left + start.count - 1 + 1 = size left + start.count :=
    Nat.sub_add_cancel (by omega)
  have hholds := Jumps.holds_emptyLoop hencoded
  refine ⟨_, size left + start.count - 1, left.length + 1,
    Jumps.emptyLoop_eq hencoded, rfl, ?_, ?_, ?_, ?_, rfl⟩
  · rw [← hcommands]
    exact isLeast_emptyLoopAt hencoded hstart hfinish hchain
  · rw [Int64.toInt_ofNat_of_lt
      (hholds.place_lt_size.trans hencoded.size_lt)]
    exact_mod_cast hclose.symm
  · rwa [hclose]
  · exact Int64.toInt_ofNat_of_lt
      (hholds.run_lt_length.trans hencoded.length_lt)

theorem exists_encode_of_infiniteLoop {error : ParseError}
    (hparse : parse source = .error (.parse error))
    (hfault : error.fault = .infiniteLoop) :
    ∃ program, encode source = .ok program := by
  cases hencode : encode source with
  | ok program => exact ⟨program, rfl⟩
  | error failure =>
      rw [parse_of_encode_error hencode, Except.error.injEq] at hparse
      rw [hparse] at hencode
      rw [fault_of_encode_error hencode] at hfault
      cases hfault

theorem exists_encode_error
    (hbalanced : ¬Balanced (Source.commands source)) :
    ∃ error : ParseError, encode source = .error (.parse error) := by
  rw [← Brackets.mismatch?_eq_none_iff] at hbalanced
  obtain ⟨mismatch, hmismatch⟩ := Option.ne_none_iff_exists'.mp hbalanced
  exact ⟨_, encode_eq_error_iff.mpr ⟨mismatch, hmismatch, rfl⟩⟩

/-- An infinite loop is reported exactly when the brackets match and some loop is
empty.  The error lies at the closing bracket of the first empty loop and names
the run that it was encoded into.  When the brackets do not match, the error is
the one of encoding, whatever loops are empty. -/
theorem parse_reports_first_emptyLoop {word : List Command}
    (hsize : source.length < 2 ^ 63)
    (hword : Source.filtered source = word.map Command.byte) :
    ((∃ error : ParseError, parse source = .error (.parse error) ∧
          error.fault = .infiniteLoop) ↔
        Balanced word ∧ ∃ place, EmptyLoopAt word place) ∧
      (∀ error : ParseError, parse source = .error (.parse error) →
        error.fault = .infiniteLoop →
          ∃ (program : Program) (place run : ℕ),
            IsLeast {other | EmptyLoopAt word other} place ∧
              error.offset.toInt = place + 1 ∧
              encode source = .ok program ∧ program.Holds run (place + 1) ∧
              error.instruction.toInt = run ∧ error.unexpected = false) ∧
      (¬Balanced word → ∃ error : ParseError,
        encode source = .error (.parse error) ∧
          parse source = .error (.parse error) ∧
          error.fault = .unclosedBrackets) := by
  obtain rfl : Source.commands source = word := by
    rw [← Source.commands_filtered, hword, Source.commands_map_byte]
  refine ⟨⟨?_, ?_⟩, ?_, ?_⟩
  · rintro ⟨error, hparse, hfault⟩
    obtain ⟨program, hencode⟩ := exists_encode_of_infiniteLoop hparse hfault
    obtain ⟨_, place, _, -, -, hleast, -⟩ :=
      parse_error_of_encode hsize hencode hparse
    exact ⟨(encode_eq_ok_iff.mp hencode).1, place, hleast.1⟩
  · rintro ⟨hbalanced, place, hempty⟩
    have hencode := encode_eq_ok_iff.mpr ⟨hbalanced, rfl⟩
    cases hparse : parse source with
    | ok program =>
        have hfree := ((parse_isOk_iff hsize).mp ⟨program, hparse⟩).2
        exact absurd hempty (emptyLoopFree_iff.mp hfree place)
    | error failure =>
        obtain ⟨error, _, _, rfl, hfault, -⟩ :=
          parse_error_of_encode hsize hencode hparse
        exact ⟨error, rfl, hfault⟩
  · intro error hparse hfault
    obtain ⟨program, hencode⟩ := exists_encode_of_infiniteLoop hparse hfault
    obtain ⟨_, place, run, herror, -, hleast, hoffset, hholds, hrest⟩ :=
      parse_error_of_encode hsize hencode hparse
    cases herror
    exact ⟨program, place, run, hleast, hoffset, hencode, hholds, hrest⟩
  · intro hbalanced
    obtain ⟨error, hencode⟩ := exists_encode_error hbalanced
    exact ⟨error, hencode, parse_of_encode_error hencode,
      fault_of_encode_error hencode⟩

/-- Two loops start in one run and the inner one is empty, and then an empty loop
before a bracket without a partner. -/
theorem parse_reports_first_emptyLoop_merged :
    (∃ (error : ParseError) (program : Program) (place run : ℕ),
      parse [43, 91, 91, 33, 93, 43, 93] = .error (.parse error) ∧
        IsLeast {other | EmptyLoopAt [.increment, .openLoop, .openLoop,
          .closeLoop, .increment, .closeLoop] other} place ∧
        error.offset.toInt = place + 1 ∧
        encode [43, 91, 91, 33, 93, 43, 93] = .ok program ∧
        program.Holds run (place + 1) ∧ error.instruction.toInt = run) ∧
      ∃ error : ParseError, parse [91, 93, 93] = .error (.parse error) ∧
        error.fault = .unclosedBrackets := by
  constructor
  · have hparse : parse [43, 91, 91, 33, 93, 43, 93] =
        .error (.parse ⟨.infiniteLoop, 3, 2, false⟩) := rfl
    obtain ⟨program, place, run, hleast, hoffset, hencode, hholds, hrun, -⟩ :=
      (parse_reports_first_emptyLoop (by decide) rfl).2.1 _ hparse rfl
    exact ⟨_, program, place, run, hparse, hleast, hoffset, hencode, hholds,
      hrun⟩
  · have hbalanced :
        ¬Balanced [.openLoop, .closeLoop, .closeLoop] := by decide
    have hword : Source.filtered [91, 93, 93] =
        [Command.openLoop, .closeLoop, .closeLoop].map Command.byte := rfl
    obtain ⟨error, -, hparse, hfault⟩ :=
      (parse_reports_first_emptyLoop (by decide) hword).2.2 hbalanced
    exact ⟨error, hparse, hfault⟩

end Program

end BrainfuckFront
