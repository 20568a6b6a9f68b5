import Mathlib
import BrainfuckFront.Proofs.Resolution

/-!
# Encoding

From a source to its runs and back.  Encoding succeeds exactly on the sources
whose commands are balanced, and loses nothing of them: the program spells out
the commands of the source, and is the only canonical program that does.  The
jumps that are set later change nothing of this.
-/

namespace BrainfuckFront

open Brackets (Balanced)

namespace Utf8

theorem length_decodeFrom_le (skip : ℕ) (bytes : Bytes) :
    (decodeFrom skip bytes).length ≤ bytes.length := by
  induction bytes generalizing skip with
  | nil => simp [decodeFrom]
  | cons lead rest ih =>
      cases skip with
      | zero =>
          rw [decodeFrom, List.length_cons, List.length_cons]
          exact Nat.succ_le_succ (ih _)
      | succ skip =>
          rw [decodeFrom, List.length_cons]
          exact (ih skip).trans (Nat.le_succ _)

/-- Every command is a character of its own in a source. -/
theorem scalarAt_byte (command : Command) (rest : Bytes) :
    scalarAt command.byte rest = (command.symbol, 0) := by
  cases command <;> rfl

theorem decode_map_byte (word : List Command) :
    decode (word.map Command.byte) = word.map Command.symbol := by
  induction word with
  | nil => rfl
  | cons command word ih =>
      rw [List.map_cons, decode, decodeFrom, scalarAt_byte, List.map_cons]
      exact congrArg _ ih

end Utf8

namespace Source

theorem length_commands_le (source : Bytes) :
    (commands source).length ≤ source.length :=
  (List.length_filterMap_le _ _).trans (Utf8.length_decodeFrom_le 0 source)

@[simp]
theorem commands_map_byte (word : List Command) :
    commands (word.map Command.byte) = word := by
  rw [commands, Utf8.decode_map_byte, List.filterMap_map]
  have hsymbol : Command.ofChar? ∘ Command.symbol = some := by
    funext command
    exact Command.ofChar?_symbol command
  rw [hsymbol, List.filterMap_some]

theorem commands_filtered (source : Bytes) :
    commands (filtered source) = commands source :=
  commands_map_byte (commands source)

end Source

namespace Program

variable {source : Bytes} {program : Program}

theorem encode_eq_ok_iff :
    encode source = .ok program ↔ Balanced (Source.commands source) ∧
      RunLength.runs (Source.commands source) = program := by
  rw [encode, encodeCommands, ← Brackets.mismatch?_eq_none_iff]
  cases Brackets.mismatch? (Source.commands source) <;> simp

theorem encode_eq_error_iff {failure : Failure} :
    encode source = .error failure ↔ ∃ mismatch,
      Brackets.mismatch? (Source.commands source) = some mismatch ∧
        failure = .parse (mismatchError (Source.commands source) mismatch) := by
  rw [encode, encodeCommands]
  cases Brackets.mismatch? (Source.commands source) <;> simp [eq_comm]

/-- Encoding passes over comments by itself. -/
theorem encode_filtered (source : Bytes) :
    encode (Source.filtered source) = encode source := by
  rw [encode, encode, Source.commands_filtered]

theorem parse_of_encode_error {failure : Failure}
    (hencode : encode source = .error failure) :
    parse source = .error failure := by
  rw [parse, encode_filtered, hencode]

theorem parse_of_encode_ok (hencode : encode source = .ok program) :
    parse source = (Jumps.resolve program).toExcept := by
  rw [parse, encode_filtered, hencode]

theorem parse_eq_ok_iff :
    parse source = .ok program ↔ Balanced (Source.commands source) ∧
      (Jumps.resolve (RunLength.runs (Source.commands source))).toExcept =
        .ok program := by
  cases hencode : encode source with
  | error failure =>
      rw [parse_of_encode_error hencode]
      refine iff_of_false (by simp) ?_
      rintro ⟨hbalanced, -⟩
      have hok := encode_eq_ok_iff.mpr ⟨hbalanced, rfl⟩
      simp [hencode] at hok
  | ok instructions =>
      rw [parse_of_encode_ok hencode]
      obtain ⟨hbalanced, rfl⟩ := encode_eq_ok_iff.mp hencode
      exact ⟨fun hresolve => ⟨hbalanced, hresolve⟩, And.right⟩

theorem commands_map_bare (program : Program) :
    commands (program.map Instruction.bare) = commands program := by
  simp [commands, List.flatMap_map]

theorem commands_of_parse (hsize : source.length < 2 ^ 63)
    (hparse : parse source = .ok program) :
    commands program = Source.commands source := by
  have hlinked := Jumps.linked_of_resolve (parse_eq_ok_iff.mp hparse).2
  rw [← commands_map_bare, hlinked.map_bare, commands_map_bare]
  exact RunLength.commands_runs
    ((Source.length_commands_le source).trans_lt hsize)

/-- Encoding is a bijection between the balanced words of commands and the
canonical programs that spell one out, and the spelling of a parsed program
parses to the same program. -/
theorem encode_inverse_commands :
    (∀ (source : Bytes) (program : Program), source.length < 2 ^ 63 →
        encode source = .ok program →
          commands program = Source.commands source ∧ Canonical program) ∧
      (∀ program : Program, Canonical program →
        Balanced (commands program) →
          encode ((commands program).map Command.byte) = .ok program) ∧
      ∀ (source : Bytes) (program : Program), source.length < 2 ^ 63 →
        parse source = .ok program →
          parse ((commands program).map Command.byte) = .ok program := by
  refine ⟨?_, ?_, ?_⟩
  · intro source program hsize hencode
    have hlength := (Source.length_commands_le source).trans_lt hsize
    obtain ⟨-, rfl⟩ := encode_eq_ok_iff.mp hencode
    exact ⟨RunLength.commands_runs hlength, RunLength.canonical_runs hlength⟩
  · intro program hcanonical hbalanced
    rw [encode_eq_ok_iff, Source.commands_map_byte]
    exact ⟨hbalanced, RunLength.runs_commands hcanonical⟩
  · intro source program hsize hparse
    rw [commands_of_parse hsize hparse, parse_eq_ok_iff,
      Source.commands_map_byte]
    exact parse_eq_ok_iff.mp hparse

theorem encode_inverse_commands_nested :
    ∃ program linked : Program,
      encode [91, 91, 43, 33, 93, 43, 93] = .ok program ∧
        Canonical program ∧
        encode ((commands program).map Command.byte) = .ok program ∧
        parse [91, 91, 43, 33, 93, 43, 93] = .ok linked ∧
        parse ((commands linked).map Command.byte) = .ok linked := by
  have hsize : ([91, 91, 43, 33, 93, 43, 93] : Bytes).length < 2 ^ 63 := by
    decide
  have hencode : encode [91, 91, 43, 33, 93, 43, 93] = .ok
      [⟨0, .loopStart, 2, 0⟩, ⟨1, .of .increment, 1, 0⟩,
        ⟨2, .loopEnd, 1, 0⟩, ⟨3, .of .increment, 1, 0⟩,
        ⟨4, .loopEnd, 1, 0⟩] := rfl
  have hparse : parse [91, 91, 43, 33, 93, 43, 93] = .ok
      [⟨0, .loopStart, 2, 3⟩, ⟨1, .of .increment, 1, 0⟩,
        ⟨2, .loopEnd, 1, 1⟩, ⟨3, .of .increment, 1, 0⟩,
        ⟨4, .loopEnd, 1, 1⟩] := rfl
  obtain ⟨-, hcanonical⟩ := encode_inverse_commands.1 _ _ hsize hencode
  exact ⟨_, _, hencode, hcanonical,
    encode_inverse_commands.2.1 _ hcanonical (by decide), hparse,
    encode_inverse_commands.2.2 _ _ hsize hparse⟩

end Program

end BrainfuckFront
